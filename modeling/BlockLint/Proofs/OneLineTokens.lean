import BlockLint.Proofs.Correspondence
import BlockLint.Proofs.LinePositions
import BlockLint.Proofs.Nesting
import BlockLint.Proofs.TokenPlaces
import BlockLint.Token.Display

/-!
Tokens on one line each. What a token shows of the source stands in quotes, which hold no newline.
The marker of a list and the fence of a code block stand there as they are, but they come from one
line of the document.
-/
namespace BlockLint

namespace Text

def OneLine (text : Text) : Prop :=
  '\n' ∉ text

theorem oneLine_of_all {text : Text} (all : text.all (· != '\n') = true) : text.OneLine := by
  intro member
  simpa using List.all_eq_true.mp all '\n' member

theorem OneLine.append {left right : Text} (first : left.OneLine) (second : right.OneLine) :
    (left ++ right).OneLine := by
  intro member
  rcases List.mem_append.mp member with inLeft | inRight
  · exact first inLeft
  · exact second inRight

theorem oneLine_ofNat (n : Nat) : (ofNat n).OneLine := by
  intro member
  have digit := Nat.isDigit_of_mem_toDigits (by decide) (by decide) member
  simp [Char.isDigit] at digit

theorem oneLine_toDigits (n : Nat) : OneLine (Nat.toDigits 16 n) := by
  induction n using Nat.strongRecOn with
  | ind n ih =>
    have digits : ∀ d < 16, [Nat.digitChar d].all (· != '\n') = true := by decide
    have digit (d : Nat) (small : d < 16) : OneLine [Nat.digitChar d] :=
      oneLine_of_all (digits d small)
    rw [Nat.toDigits_eq_if (by decide)]
    split
    · exact digit n ‹_›
    · exact (ih _ (by omega)).append (digit _ (Nat.mod_lt _ (by decide)))

theorem oneLine_quoteChar (c : Char) : (quoteChar c).OneLine := by
  unfold quoteChar
  repeat' split
  all_goals first
    | exact oneLine_of_all rfl
    | exact ((oneLine_of_all rfl).append (oneLine_toDigits _)).append (oneLine_of_all rfl)
    | intro member
      cases List.mem_singleton.mp member
      contradiction

theorem oneLine_quoted (text : Text) : (quoted text).OneLine := by
  have inside : OneLine (text.flatMap quoteChar) := by
    intro member
    obtain ⟨c, _, within⟩ := List.mem_flatMap.mp member
    exact oneLine_quoteChar c within
  exact ((oneLine_of_all rfl).append inside).append (oneLine_of_all rfl)

end Text

section
open Text

theorem oneLine_endLabel (natural : Bool) : (endLabel natural).OneLine := by
  cases natural <;> exact oneLine_of_all rfl

theorem ContainerKind.oneLine_name (container : ContainerKind) : container.name.OneLine := by
  rcases container with _ | (_ | _) <;> exact oneLine_of_all rfl

theorem ItemGeometry.oneLine_display (item : ItemGeometry) : item.display.OneLine := by
  refine (oneLine_ofNat _).append ?_
  split <;> exact oneLine_of_all rfl

theorem LeafKind.oneLine_display {leaf : LeafKind}
    (noFence : ∀ fence length info, leaf ≠ .fencedCode fence length info) :
    leaf.display.OneLine := by
  cases leaf with
  | atxHeading level | setextHeading level =>
    exact ((oneLine_of_all rfl).append (oneLine_ofNat level)).append (oneLine_of_all rfl)
  | fencedCode fence length info => exact absurd rfl (noFence fence length info)
  | _ => exact oneLine_of_all rfl

namespace TokenKind

theorem oneLine_containerStart {container : ContainerKind} (oneLine : container.display.OneLine)
    (item : Option ItemGeometry) : (display (.containerStart container item)).OneLine := by
  cases item with
  | none => exact (oneLine_of_all rfl).append oneLine
  | some item =>
    exact (((oneLine_of_all rfl).append oneLine).append (oneLine_of_all rfl)).append
      item.oneLine_display

theorem oneLine_leafStart {leaf : LeafKind} (oneLine : leaf.display.OneLine) :
    (display (.leafStart leaf)).OneLine :=
  (oneLine_of_all rfl).append oneLine

theorem oneLine_leafEnd {leaf : LeafKind} (oneLine : leaf.display.OneLine) (natural : Bool) :
    (display (.leafEnd leaf natural)).OneLine :=
  (((oneLine_of_all rfl).append oneLine).append (oneLine_of_all rfl)).append
    (oneLine_endLabel natural)

/-- All of the source that the kind shows stands in quotes. The marker of a list and the fence of a
code block do not. -/
def isQuoted : TokenKind → Bool
  | .containerStart _ _ | .leafStart (.fencedCode _ _ _) | .leafEnd (.fencedCode _ _ _) _ => false
  | _ => true

theorem oneLine_of_isQuoted {kind : TokenKind} (quoted : kind.isQuoted = true) :
    kind.display.OneLine := by
  cases kind with
  | containerStart container item => cases quoted
  | newListItem item number =>
    cases number with
    | none => exact (oneLine_of_all rfl).append item.oneLine_display
    | some number =>
      exact (((oneLine_of_all rfl).append (oneLine_ofNat number)).append
        (oneLine_of_all rfl)).append item.oneLine_display
  | containerEnd container natural =>
    exact (((oneLine_of_all rfl).append container.oneLine_name).append
      (oneLine_of_all rfl)).append (oneLine_endLabel natural)
  | leafStart leaf =>
    apply oneLine_leafStart
    cases leaf with
    | fencedCode => cases quoted
    | _ => exact LeafKind.oneLine_display (by simp)
  | leafContent text isLazy =>
    refine (OneLine.append ?_ (oneLine_quoted text)).append (oneLine_of_all rfl)
    split <;> exact oneLine_of_all rfl
  | leafEnd leaf natural =>
    apply oneLine_leafEnd
    cases leaf with
    | fencedCode => cases quoted
    | _ => exact LeafKind.oneLine_display (by simp)
  | blankLine => exact oneLine_of_all rfl

end TokenKind

theorem ListKind.oneLine_of_marker? {text : Text} {kind : ListKind} {width : Nat}
    (found : marker? text = some (kind, width)) : (ContainerKind.list kind).display.OneLine := by
  have bullet : ∀ c ∈ bullets, [c].all (· != '\n') = true := by simp [bullets]
  have delimiter : ∀ c ∈ delimiters, [c].all (· != '\n') = true := by simp [delimiters]
  rcases marker?_cases found with ⟨sign, _, isBullet, _, rfl, _⟩ |
    ⟨_, sign, _, _, _, _, isDelimiter, _, rfl, _⟩
  · exact ((oneLine_of_all rfl).append (oneLine_of_all (bullet sign isBullet))).append
      (oneLine_of_all rfl)
  · exact (((oneLine_of_all rfl).append (oneLine_ofNat _)).append
      (oneLine_of_all (delimiter sign isDelimiter))).append (oneLine_of_all rfl)

theorem ItemStart.oneLine_of_find? {c : Cursor} {item : ItemStart} (found : find? c = some item) :
    (ContainerKind.list item.kind).display.OneLine := by
  obtain ⟨_, marked⟩ := marker?_of_find? found
  exact ListKind.oneLine_of_marker? marked

theorem Fence.oneLine_of_open? {rest : Text} {fence : Fence} (found : open? rest = some fence)
    (oneLine : rest.OneLine) : fence.leafKind.display.OneLine := by
  obtain ⟨char, after, body, _, _, same⟩ := open?_cases found
  have within {part : Text} (inside : part ⊆ char :: after) : part.OneLine := by
    intro member
    exact oneLine (List.mem_of_mem_drop (body ▸ inside member))
  have info (count : Nat) :
      (dropTail (· == ' ') (dropSpaces ((char :: after).drop count))).OneLine := by
    have cut := dropTail_prefix (· == ' ') (dropSpaces ((char :: after).drop count))
    apply within
    intro c member
    exact List.mem_of_mem_drop ((List.dropWhile_suffix _).subset (cut.subset member))
  have sign (count : Nat) : OneLine (List.replicate count char) :=
    within fun c member => List.eq_of_mem_replicate member ▸ List.mem_cons_self
  rw [same]
  exact ((((oneLine_of_all rfl).append (oneLine_of_all rfl)).append (sign _)).append
    (info _)).append (oneLine_of_all rfl)

end

def OneLineEach (tokens : List Token) : Prop :=
  ∀ token ∈ tokens, token.kind.display.OneLine

theorem OneLineEach.append {left right : List Token} (first : OneLineEach left)
    (second : OneLineEach right) : OneLineEach (left ++ right) :=
  List.forall_mem_append.mpr ⟨first, second⟩

theorem OneLineEach.single {token : Token} (oneLine : token.kind.display.OneLine) :
    OneLineEach [token] :=
  List.forall_mem_singleton.mpr oneLine

theorem OneLineEach.of_isQuoted {tokens : List Token}
    (quoted : ∀ token ∈ tokens, token.kind.isQuoted = true) : OneLineEach tokens :=
  fun token member => TokenKind.oneLine_of_isQuoted (quoted token member)

theorem Containers.oneLineEach_close (containers : Containers) (natural : Bool)
    (position : Position) : OneLineEach (containers.close natural position) := by
  apply OneLineEach.of_isQuoted
  intro token member
  obtain ⟨frame, _, rfl⟩ := List.mem_map.mp member
  rfl

namespace OpenLeaf

def OneLine : OpenLeaf → Prop
  | .fencedCode fence => fence.leafKind.display.OneLine
  | _ => True

theorem oneLineEach_contents {contents : List Token}
    (isContent : ∀ token ∈ contents, ∃ text isLazy, token.kind = .leafContent text isLazy) :
    OneLineEach contents := by
  apply OneLineEach.of_isQuoted
  intro token member
  obtain ⟨text, isLazy, kind⟩ := isContent token member
  rw [kind]
  rfl

theorem oneLineEach_close {leaf : OpenLeaf} (coherent : leaf.Coherent) (oneLine : leaf.OneLine)
    (natural : Bool) (position : Position) : OneLineEach (leaf.close natural position) := by
  cases leaf with
  | none => exact OneLineEach.of_isQuoted (by simp [close])
  | paragraph opening contents =>
    have start : OneLineEach [opening] := by
      apply OneLineEach.single
      rw [coherent.1]
      exact TokenKind.oneLine_of_isQuoted rfl
    exact (start.append (oneLineEach_contents coherent.2)).append
      (.single (TokenKind.oneLine_of_isQuoted rfl))
  | indentedCode held =>
    apply OneLineEach.of_isQuoted
    intro token member
    rcases List.mem_cons.mp member with rfl | isBlank
    · rfl
    · obtain ⟨blank, isHeld, rfl⟩ := List.mem_map.mp isBlank
      rw [coherent blank isHeld]
      rfl
  | fencedCode fence => exact .single (TokenKind.oneLine_leafEnd oneLine natural)

end OpenLeaf

namespace Tokenizer

structure Effect.OneLine (effect : Effect) : Prop where
  written : OneLineEach effect.written
  leaf : effect.leaf.OneLine

theorem paragraphLine_oneLine (line : Line) (lead : Text) (c : Cursor) (containers : Containers)
    {leaf : OpenLeaf} (coherent : leaf.Coherent) (oneLine : leaf.OneLine) (isLazy : Bool) :
    (paragraphLine line lead c containers leaf isLazy).OneLine := by
  have closing := leaf.oneLineEach_close coherent oneLine true (line.position c.offset)
  cases leaf with
  | paragraph opening contents => exact ⟨OneLineEach.of_isQuoted (by simp [paragraphLine]), trivial⟩
  | _ => exact ⟨closing, trivial⟩

theorem codeLine_oneLineEach (line : Line) (lead : Text) (c : Cursor) (held : List HeldBlank) :
    OneLineEach (codeLine line lead c held) := by
  apply OneLineEach.of_isQuoted
  intro token member
  rcases List.mem_append.mp member with isHeld | isNew
  · obtain ⟨blank, _, rfl⟩ := List.mem_map.mp isHeld
    rfl
  · cases List.mem_singleton.mp isNew
    rfl

theorem leafLine_oneLine (line : Line) (lead : Text) {c : Cursor} (containers : Containers)
    {leaf : OpenLeaf} (opened : Bool) (noFence : ∀ fence, leaf ≠ .fencedCode fence)
    (coherent : leaf.Coherent) (oneLine : leaf.OneLine) (rest : c.rest.OneLine) :
    (leafLine line lead c containers leaf opened).OneLine := by
  have closing := leaf.oneLineEach_close coherent oneLine true (line.position c.offset)
  apply leafLine_cases line lead c containers leaf opened noFence
  case held =>
    intro held _ _
    exact ⟨OneLineEach.of_isQuoted (by simp), trivial⟩
  case blank =>
    intro _ _
    exact ⟨closing.append (.single (TokenKind.oneLine_of_isQuoted rfl)), trivial⟩
  case setext =>
    rintro level opening contents rfl _
    have contents := OpenLeaf.oneLineEach_contents coherent.2
    exact ⟨(OneLineEach.append (.single (TokenKind.oneLine_of_isQuoted rfl)) contents).append
      (.single (TokenKind.oneLine_of_isQuoted rfl)), trivial⟩
  case text =>
    intro _
    exact paragraphLine_oneLine line lead c containers coherent oneLine false
  case moreCode =>
    intro held _ _
    exact ⟨codeLine_oneLineEach line lead c held, trivial⟩
  case newCode =>
    intro _ _
    exact ⟨OneLineEach.append (.single (TokenKind.oneLine_of_isQuoted rfl))
      (codeLine_oneLineEach line [] c []), trivial⟩
  case atxHeading =>
    intro heading _
    refine ⟨closing.append (OneLineEach.of_isQuoted ?_), trivial⟩
    simp [tokenAt, endToken, TokenKind.isQuoted]
  case thematicBreak =>
    intro _
    refine ⟨closing.append (OneLineEach.of_isQuoted ?_), trivial⟩
    simp [tokenAt, endToken, TokenKind.isQuoted]
  case fenceOpen =>
    intro fence isFence
    have display := Fence.oneLine_of_open? (LineClass.of_fenceOpen isFence) rest
    exact ⟨closing.append (.single (TokenKind.oneLine_leafStart display)), display⟩

end Tokenizer

def Marker.OneLine : Marker → Prop
  | .quote _ _ => True
  | .item _ start => (ContainerKind.list start.kind).display.OneLine

theorem Marker.readAll_oneLine (inParagraph : Bool) (c : Cursor) :
    ∀ marker ∈ (readAll inParagraph c).1, marker.OneLine := by
  fun_induction readAll inParagraph c with
  | case4 inParagraph c _ _ _ after found markers last same ih =>
    rw [same] at ih
    exact List.forall_mem_cons.mpr ⟨trivial, ih⟩
  | case7 inParagraph c _ _ _ _ start found _ markers last same ih =>
    rw [same] at ih
    exact List.forall_mem_cons.mpr ⟨ItemStart.oneLine_of_find? found, ih⟩
  | _ =>
    intro marker member
    cases member

namespace Tokenizer

theorem openContainer_oneLine (line : Line) (lead : Text) (containers : Containers)
    {marker : Marker} (oneLine : marker.OneLine) :
    OneLineEach [(openContainer line lead containers marker).1] := by
  apply OneLineEach.single
  cases marker with
  | quote start after => exact TokenKind.oneLine_containerStart (Text.oneLine_of_all rfl) _
  | item start item => exact TokenKind.oneLine_containerStart oneLine _

theorem openAll_oneLine (line : Line) (containers : Containers) {markers : List Marker}
    (oneLine : ∀ marker ∈ markers, marker.OneLine) :
    OneLineEach (openAll line containers markers).1 := by
  induction markers generalizing containers with
  | nil => exact OneLineEach.of_isQuoted (by simp [openAll])
  | cons marker rest ih =>
    obtain ⟨first, later⟩ := List.forall_mem_cons.mp oneLine
    exact (openContainer_oneLine line [] containers first).append (ih _ later)

theorem openFirst_oneLine (line : Line) (lead : Text) (containers : Containers) {leaf : OpenLeaf}
    (coherent : leaf.Coherent) (oneLine : leaf.OneLine) (depth : Nat) {marker : Marker}
    (ofMarker : marker.OneLine) :
    OneLineEach (openFirst line lead containers leaf depth marker).1 := by
  apply openFirst_tokens (p := OneLineEach)
  case append =>
    intro left right first second
    exact first.append second
  case leafClosed => exact leaf.oneLineEach_close coherent oneLine
  case closed => exact Containers.oneLineEach_close
  case opened =>
    intro outer
    exact openContainer_oneLine line lead outer ofMarker
  case nextItem =>
    intro start item _
    exact .single (TokenKind.oneLine_of_isQuoted rfl)

theorem lineEffect_oneLine (containers : Containers) {leaf : OpenLeaf} {line : Line}
    (coherent : leaf.Coherent) (oneLine : leaf.OneLine) (ofLine : line.expanded.OneLine) :
    (lineEffect containers leaf line).OneLine := by
  generalize matching : containers.matchLine line.expanded = found
  have reaches : (Cursor.start line.expanded).Reaches found.cursor :=
    matching ▸ containers.matchLine_reaches line.expanded
  have rest {c : Cursor} (reaches : (Cursor.start line.expanded).Reaches c) : c.rest.OneLine :=
    fun member => ofLine (reaches.rest_suffix.subset member)
  have fresh (lead : Text) {c : Cursor} (kept : Containers) (opened : Bool)
      (reaches : (Cursor.start line.expanded).Reaches c) :
      (leafLine line lead c kept .none opened).OneLine :=
    leafLine_oneLine line lead kept opened (by simp) (show OpenLeaf.none.Coherent from trivial)
      trivial (rest reaches)
  apply lineEffect_cases containers leaf line matching
  case fenced =>
    rintro fence rfl _
    rw [fencedLine]
    split
    · exact ⟨.single (TokenKind.oneLine_leafEnd oneLine true), trivial⟩
    · exact ⟨.single (TokenKind.oneLine_of_isQuoted rfl), oneLine⟩
  case opened =>
    intro first later c isRun _
    have markers := Marker.readAll_oneLine
      (found.depth == containers.length && leaf.isParagraph) found.cursor
    have run := Marker.readAll_run
      (found.depth == containers.length && leaf.isParagraph) found.cursor
    rw [isRun] at markers run
    obtain ⟨ofFirst, ofLater⟩ := List.forall_mem_cons.mp markers
    have opening := openFirst_oneLine line (found.lead line.expanded) containers coherent oneLine
      found.depth ofFirst
    have last := fun kept => fresh [] kept true (reaches.trans run.reaches)
    exact ⟨(opening.append (openAll_oneLine line _ ofLater)).append (last _).written,
      (last _).leaf⟩
  case matched =>
    intro _ noFence _
    exact leafLine_oneLine line _ containers false noFence coherent oneLine (rest reaches)
  case lazy =>
    intro _ _ _ _
    exact paragraphLine_oneLine line _ _ containers coherent oneLine true
  case unmatched =>
    intro _ _ _
    have closing := leaf.oneLineEach_close coherent oneLine found.cursor.isBlank
      (line.position found.cursor.offset)
    have last := fresh (found.lead line.expanded) (containers.take found.depth) false reaches
    exact ⟨(closing.append (Containers.oneLineEach_close _ _ _)).append last.written, last.leaf⟩

theorem runFrom_oneLine (state : State) (coherent : state.leaf.Coherent)
    (oneLine : state.leaf.OneLine) {lines : List Line}
    (ofLines : ∀ line ∈ lines, line.expanded.OneLine) : OneLineEach (runFrom state lines) := by
  induction lines generalizing state with
  | nil =>
    exact (state.leaf.oneLineEach_close coherent oneLine _ _).append
      (Containers.oneLineEach_close _ _ _)
  | cons line rest ih =>
    obtain ⟨ofLine, ofRest⟩ := List.forall_mem_cons.mp ofLines
    have effect := lineEffect_oneLine state.containers coherent oneLine ofLine
    have stays := (lineEffect_nests state.containers state.leaf line coherent).coherent
    exact effect.written.append (ih _ stays effect.leaf ofRest)

end Tokenizer

theorem Token.oneLine_labelled {label : Text} (oneLine : label.OneLine) (text : Text) :
    (labelled label text).OneLine := by
  unfold labelled
  split
  · exact Text.oneLine_of_all rfl
  · exact oneLine.append (Text.oneLine_quoted text)

theorem Token.oneLine_display {token : Token} (oneLine : token.kind.display.OneLine) :
    token.display.OneLine := by
  have place : Text.OneLine ("[" ++ Text.ofNat token.position.line ++ ":" ++
      Text.ofNat token.position.column ++ "] ") :=
    ((((Text.oneLine_of_all rfl).append (Text.oneLine_ofNat _)).append
      (Text.oneLine_of_all rfl)).append (Text.oneLine_ofNat _)).append (Text.oneLine_of_all rfl)
  exact ((place.append oneLine).append (oneLine_labelled (Text.oneLine_of_all rfl) _)).append
    (oneLine_labelled (Text.oneLine_of_all rfl) _)

theorem tokenize_oneLine (text : Text) (tabWidth : Nat) :
    ∀ token ∈ tokenize text tabWidth, token.display.OneLine := by
  have lines : ∀ line ∈ (Source.ofText text tabWidth).lines, line.expanded.OneLine := by
    intro line isLine member
    rcases mem_expandTabs member with isSpace | ⟨inText, _⟩
    · exact absurd isSpace (by decide)
    · exact (Source.line_ends isLine).2 inText
  have shown := Tokenizer.runFrom_oneLine .initial trivial trivial lines
  intro token member
  exact token.oneLine_display (shown token member)

end BlockLint
