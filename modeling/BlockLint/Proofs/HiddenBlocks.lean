import BlockLint.Proofs.Nesting
import BlockLint.Proofs.PlainRests

/-!
No line of a paragraph hides a block. A line goes to a paragraph only where all readers of markers
and of other leaves have turned it down, so its text does not start one of those blocks.

The tokens are read by a machine with three places: outside of text, before the first line of a
paragraph or a setext heading, and before a later one. Each place admits some tokens, and what a
line writes leads from outside of text back to there.
-/
namespace BlockLint

/-- A line's text in a paragraph starts no other block. A list item that cannot interrupt a
paragraph is left to stand inside one. -/
structure Text.HidesNothing (content : Text) (isFirst isLazy : Bool) : Prop where
  filled : content ≠ []
  unmarked : (Cursor.start content).Unmarked
  noItem : isFirst = true ∨ isLazy = true → ItemStart.find? (.start content) = none
  weakItem : isFirst = false → isLazy = false → ∀ item,
    ItemStart.find? (.start content) = some item →
      item.empty = true ∨ ∃ number, item.number? = some number ∧ number ≠ 1
  noUnderline : isFirst = false → isLazy = false → setextLevel? content = none

def LeafKind.isText : LeafKind → Bool
  | .paragraph | .setextHeading _ => true
  | _ => false

/-- A content which hides nothing, unless its line is indented like code. -/
def Token.Plain (token : Token) (isFirst : Bool) : Prop :=
  ∃ content isLazy, token.kind = .leafContent content isLazy ∧
    (Text.spaces token.literal < codeIndent → content.HidesNothing isFirst isLazy)

/-- Between two tokens: outside of text, or before its first or a later line. -/
inductive Place where
  | outside
  | inText (isFirst : Bool)

namespace Place

def next : Place → TokenKind → Place
  | _, .leafStart kind => if kind.isText then .inText true else .outside
  | .inText _, .leafContent _ _ => .inText false
  | _, _ => .outside

def Admits : Place → Token → Prop
  | .outside, _ => True
  | .inText isFirst, token =>
    (∃ leaf natural, token.kind = .leafEnd leaf natural) ∨ token.Plain isFirst

def Leads : Place → List Token → Place → Prop
  | start, [], stop => start = stop
  | start, token :: rest, stop => start.Admits token ∧ Leads (start.next token.kind) rest stop

theorem leads_append {start stop : Place} {left right : List Token} :
    Leads start (left ++ right) stop ↔ ∃ between, Leads start left between ∧
      Leads between right stop := by
  induction left generalizing start with
  | nil => simp [Leads]
  | cons token rest ih => simp [Leads, ih, and_assoc]

theorem Leads.append {start between stop : Place} {left right : List Token}
    (first : Leads start left between) (second : Leads between right stop) :
    Leads start (left ++ right) stop :=
  leads_append.mpr ⟨between, first, second⟩

theorem leads_outside {tokens : List Token}
    (quiet : ∀ token ∈ tokens, Place.outside.next token.kind = .outside) :
    Leads .outside tokens .outside := by
  induction tokens with
  | nil => rfl
  | cons token rest ih =>
    have first := quiet token List.mem_cons_self
    have later := ih fun token member => quiet token (List.mem_cons_of_mem _ member)
    refine ⟨trivial, ?_⟩
    rw [first]
    exact later

theorem leads_end {token : Token} {leaf : LeafKind} {natural : Bool}
    (isEnd : token.kind = .leafEnd leaf natural) (start : Place) :
    Leads start [token] .outside := by
  cases start with
  | outside => exact ⟨trivial, by rw [isEnd]; rfl⟩
  | inText isFirst => exact ⟨.inl ⟨leaf, natural, isEnd⟩, by rw [isEnd]; rfl⟩

theorem leads_plain {token : Token} {isFirst : Bool} (plain : token.Plain isFirst) :
    Leads (.inText isFirst) [token] (.inText false) := by
  refine ⟨.inr plain, ?_⟩
  obtain ⟨content, isLazy, isContent, _⟩ := plain
  rw [isContent]
  rfl

theorem contents_of_leads {isFirst : Bool} {tokens : List Token} {stop : Place}
    (leads : Leads (.inText isFirst) tokens stop)
    (noEnd : ∀ token ∈ tokens, ∀ leaf natural, token.kind ≠ .leafEnd leaf natural) :
    (∀ token ∈ tokens, ∃ text isLazy, token.kind = .leafContent text isLazy) ∧
      stop = .inText (isFirst && tokens.isEmpty) := by
  induction tokens generalizing isFirst with
  | nil =>
    cases leads
    simp
  | cons token rest ih =>
    obtain ⟨admitted, leads⟩ := leads
    rcases admitted with ⟨leaf, natural, isEnd⟩ | ⟨content, isLazy, isContent, _⟩
    · exact absurd isEnd (noEnd token List.mem_cons_self leaf natural)
    · rw [isContent] at leads
      obtain ⟨contents, atStop⟩ := ih leads fun token member =>
        noEnd token (List.mem_cons_of_mem _ member)
      refine ⟨?_, by simpa using atStop⟩
      intro token member
      rcases List.mem_cons.mp member with rfl | later
      · exact ⟨content, isLazy, isContent⟩
      · exact contents token later

end Place

theorem Text.spaces_append_of_filled {rest : Text} (filled : Text.isBlank rest = false)
    (ending : Text) : Text.spaces (rest ++ ending) = Text.spaces rest := by
  induction rest with
  | nil => simp [Text.isBlank] at filled
  | cons c rest ih =>
    by_cases isSpace : c = ' '
    · have filled : Text.isBlank rest = false := by simpa [Text.isBlank, isSpace] using filled
      simpa [Text.spaces, isSpace] using ih filled
    · simp [Text.spaces, isSpace]

/-- Text that every reader has turned down hides nothing. Under a paragraph, and only there, the
readers let pass a list item that cannot interrupt it. -/
theorem Cursor.hidesNothing {c : Cursor} {inParagraph isFirst isLazy : Bool}
    (inside : inParagraph = (!isFirst && !isLazy))
    (stops : Marker.readAll inParagraph c = ([], c))
    (isText : LineClass.of c.rest inParagraph = .text) :
    (paragraphText c.rest).HidesNothing isFirst isLazy := by
  obtain ⟨filled, shallow, noUnderline, _⟩ := LineClass.of_eq_text_iff.mp isText
  obtain ⟨unmarked, weak⟩ := unmarked_of_text stops isText
  constructor
  case filled =>
    intro isEmpty
    have allSpaces := List.all_eq_true.mpr (List.dropWhile_eq_nil_iff.mp isEmpty)
    exact absurd filled (by simpa [Text.isBlank] using allSpaces)
  case unmarked => exact unmarked.dropSpaces shallow
  case noItem =>
    intro alone
    cases found : ItemStart.find? (.start (paragraphText c.rest)) with
    | none => rfl
    | some item =>
      obtain ⟨own, isOwn, _⟩ := ItemStart.find?_dropSpaces shallow found
      have isInside := (weak own isOwn).1
      rcases alone with rfl | rfl <;> simp [isInside] at inside
  case weakItem =>
    intro _ _ item found
    obtain ⟨own, isOwn, kind, empty⟩ := ItemStart.find?_dropSpaces shallow found
    have isWeak := (weak own isOwn).2
    rw [ItemStart.canInterruptParagraph, ItemStart.number?, kind, empty,
      ← ItemStart.number?] at isWeak
    cases isEmpty : item.empty with
    | true => exact .inl rfl
    | false =>
      cases number : item.number? with
      | none => simp [isEmpty, number] at isWeak
      | some number' => exact .inr ⟨number', rfl, by simpa [isEmpty, number] using isWeak⟩
  case noUnderline =>
    rintro rfl rfl
    exact (Strict.setextLevel?_dropSpaces shallow).trans (noUnderline inside)

def OpenLeaf.place : OpenLeaf → Place
  | .paragraph _ _ => .inText false
  | _ => .outside

def OpenLeaf.HidesNothing (leaf : OpenLeaf) : Prop :=
  Place.Leads .outside leaf.pending leaf.place

theorem OpenLeaf.leads_close {leaf : OpenLeaf} (coherent : leaf.Coherent)
    (hides : leaf.HidesNothing) (natural : Bool) (position : Position) :
    Place.Leads .outside (leaf.close natural position) .outside := by
  cases leaf with
  | none => rfl
  | paragraph opening contents => exact hides.append (Place.leads_end rfl _)
  | indentedCode held =>
    apply Place.leads_outside
    intro token member
    rcases List.mem_cons.mp member with rfl | isBlank
    · rfl
    · obtain ⟨blank, isHeld, rfl⟩ := List.mem_map.mp isBlank
      rw [coherent blank isHeld]
      rfl
  | fencedCode fence => exact Place.leads_end rfl _

theorem Containers.leads_close (containers : Containers) (natural : Bool) (position : Position) :
    Place.Leads .outside (containers.close natural position) .outside := by
  apply Place.leads_outside
  intro token member
  obtain ⟨frame, _, rfl⟩ := List.mem_map.mp member
  rfl

namespace Tokenizer

structure Effect.HidesNothing (effect : Effect) : Prop where
  written : Place.Leads .outside effect.written .outside
  leaf : effect.leaf.HidesNothing

theorem content_plain (line : Line) {c : Cursor} {inParagraph isFirst isLazy : Bool}
    (inside : inParagraph = (!isFirst && !isLazy))
    (stops : Marker.readAll inParagraph c = ([], c))
    (isText : LineClass.of c.rest inParagraph = .text ∨
      LineClass.of c.rest inParagraph = .indented) (offset : Nat) (lead : Text) :
    (tokenAt line offset (.leafContent (paragraphText c.rest) isLazy) lead
      (literalFrom line c)).Plain isFirst := by
  refine ⟨_, _, rfl, ?_⟩
  intro shallow
  rcases isText with isText | indented
  · exact c.hidesNothing inside stops isText
  · obtain ⟨filled, deep⟩ := LineClass.of_eq_indented_iff.mp indented
    have same : Text.spaces (literalFrom line c) = Text.spaces c.rest :=
      Text.spaces_append_of_filled filled line.ending
    change Text.spaces (literalFrom line c) < codeIndent at shallow
    omega

theorem paragraphLine_hidesNothing (line : Line) (lead : Text) (c : Cursor)
    (containers : Containers) {leaf : OpenLeaf} {isLazy : Bool} (coherent : leaf.Coherent)
    (hides : leaf.HidesNothing)
    (plain : ∀ lead, (tokenAt line (c.offset + c.indent)
      (.leafContent (paragraphText c.rest) isLazy) lead (literalFrom line c)).Plain
        (!leaf.isParagraph)) :
    (paragraphLine line lead c containers leaf isLazy).HidesNothing := by
  have closing := leaf.leads_close coherent hides true (line.position c.offset)
  cases leaf with
  | paragraph opening contents =>
    refine ⟨rfl, ?_⟩
    have leads := Place.Leads.append hides (Place.leads_plain (plain lead))
    exact leads
  | _ => exact ⟨closing, trivial, Place.leads_plain (plain [])⟩

theorem codeLine_leads (line : Line) (lead : Text) (c : Cursor) (held : List HeldBlank) :
    Place.Leads .outside (codeLine line lead c held) .outside := by
  apply Place.leads_outside
  intro token member
  rcases List.mem_append.mp member with isHeld | isNew
  · obtain ⟨blank, _, rfl⟩ := List.mem_map.mp isHeld
    rfl
  · cases List.mem_singleton.mp isNew
    rfl

theorem leafLine_hidesNothing (line : Line) (lead : Text) (c : Cursor) (containers : Containers)
    {leaf : OpenLeaf} (opened : Bool) (noFence : ∀ fence, leaf ≠ .fencedCode fence)
    (coherent : leaf.Coherent) (hides : leaf.HidesNothing)
    (stops : Marker.readAll leaf.isParagraph c = ([], c)) :
    (leafLine line lead c containers leaf opened).HidesNothing := by
  have closing := leaf.leads_close coherent hides true (line.position c.offset)
  apply leafLine_cases line lead c containers leaf opened noFence
  case held =>
    intro held isCode _
    exact ⟨rfl, rfl⟩
  case blank =>
    intro _ _
    exact ⟨closing.append ⟨trivial, rfl⟩, rfl⟩
  case setext =>
    rintro level opening contents rfl _
    obtain ⟨_, inText⟩ := hides
    rw [coherent.1] at inText
    have contents : Place.Leads .outside
        ({ opening with kind := .leafStart (.setextHeading level) } :: contents) (.inText false) :=
      ⟨trivial, inText⟩
    exact ⟨contents.append (Place.leads_end rfl _), rfl⟩
  case text =>
    intro isText
    apply paragraphLine_hidesNothing line lead c containers coherent hides
    apply content_plain line (by simp) stops
    rcases isText with isText | ⟨isParagraph, indented⟩
    · exact .inl isText
    · rw [isParagraph]
      exact .inr indented
  case moreCode =>
    intro held _ _
    exact ⟨codeLine_leads line lead c held, rfl⟩
  case newCode =>
    intro _ _
    exact ⟨⟨trivial, codeLine_leads line [] c []⟩, rfl⟩
  case atxHeading =>
    intro heading _
    exact ⟨closing.append ⟨trivial, trivial, trivial, rfl⟩, rfl⟩
  case thematicBreak =>
    intro _
    exact ⟨closing.append ⟨trivial, trivial, rfl⟩, rfl⟩
  case fenceOpen =>
    intro fence _
    exact ⟨closing.append ⟨trivial, rfl⟩, rfl⟩

theorem openContainer_quiet (line : Line) (lead : Text) (containers : Containers)
    (marker : Marker) :
    Place.outside.next (openContainer line lead containers marker).1.kind = .outside := by
  cases marker <;> rfl

theorem openAll_leads (line : Line) (containers : Containers) (markers : List Marker) :
    Place.Leads .outside (openAll line containers markers).1 .outside := by
  induction markers generalizing containers with
  | nil => rfl
  | cons marker rest ih =>
    have first : Place.Leads .outside [(openContainer line [] containers marker).1] .outside :=
      ⟨trivial, openContainer_quiet line [] containers marker⟩
    exact first.append (ih _)

theorem openFirst_leads (line : Line) (lead : Text) (containers : Containers) {leaf : OpenLeaf}
    (coherent : leaf.Coherent) (hides : leaf.HidesNothing) (depth : Nat) (marker : Marker) :
    Place.Leads .outside (openFirst line lead containers leaf depth marker).1 .outside := by
  apply openFirst_tokens (p := fun tokens => Place.Leads .outside tokens .outside)
  case append =>
    intro left right first second
    exact first.append second
  case leafClosed => exact leaf.leads_close coherent hides
  case closed => exact Containers.leads_close
  case opened =>
    intro outer
    exact ⟨trivial, openContainer_quiet line lead outer marker⟩
  case nextItem =>
    intro start item _
    exact ⟨trivial, rfl⟩

theorem lineEffect_hidesNothing (containers : Containers) {leaf : OpenLeaf} (line : Line)
    (coherent : leaf.Coherent) (hides : leaf.HidesNothing) :
    (lineEffect containers leaf line).HidesNothing := by
  generalize matching : containers.matchLine line.expanded = found
  have fresh (lead : Text) (c : Cursor) (kept : Containers) (opened : Bool)
      (stops : Marker.readAll false c = ([], c)) :
      (leafLine line lead c kept .none opened).HidesNothing :=
    leafLine_hidesNothing line lead c kept opened (by simp)
      (show OpenLeaf.none.Coherent from trivial) rfl stops
  apply lineEffect_cases containers leaf line matching
  case fenced =>
    intro fence _ _
    rw [fencedLine]
    split
    · exact ⟨Place.leads_end rfl _, rfl⟩
    · exact ⟨⟨trivial, rfl⟩, rfl⟩
  case opened =>
    intro first later c isRun _
    have opening := openFirst_leads line (found.lead line.expanded) containers coherent hides
      found.depth first
    have last := fun kept => fresh [] c kept true (Marker.readAll_last isRun)
    exact ⟨(opening.append (openAll_leads line _ later)).append (last _).written, (last _).leaf⟩
  case matched =>
    intro _ noFence stops
    exact leafLine_hidesNothing line _ _ containers false noFence coherent hides stops
  case lazy =>
    intro _ stops isParagraph continues
    apply paragraphLine_hidesNothing line _ _ containers coherent hides
    rw [isParagraph]
    have inside : false = (!false && !true) := rfl
    exact content_plain line inside stops (LineClass.continuesParagraph_iff.mp continues) _
  case unmatched =>
    intro _ stops _
    have closing := leaf.leads_close coherent hides found.cursor.isBlank
      (line.position found.cursor.offset)
    have last := fresh (found.lead line.expanded) found.cursor (containers.take found.depth) false
      stops
    exact ⟨(closing.append (Containers.leads_close _ _ _)).append last.written, last.leaf⟩

theorem runFrom_leads (state : State) (coherent : state.leaf.Coherent)
    (hides : state.leaf.HidesNothing) (lines : List Line) :
    Place.Leads .outside (runFrom state lines) .outside := by
  induction lines generalizing state with
  | nil => exact (state.leaf.leads_close coherent hides _ _).append (Containers.leads_close _ _ _)
  | cons line rest ih =>
    have effect := lineEffect_hidesNothing state.containers line coherent hides
    have stays := (lineEffect_nests state.containers state.leaf line coherent).coherent
    exact effect.written.append (ih _ stays effect.leaf)

end Tokenizer

/-- A content that follows the start of a paragraph or of a setext heading, before the end of that
leaf, starts no block of its own. -/
theorem paragraph_hides_no_block (text : Text) (tabWidth : Nat) {before between after : List Token}
    {opening token : Token} {leaf : LeafKind} {content : Text} {isLazy : Bool}
    (tokens : tokenize text tabWidth = before ++ opening :: (between ++ token :: after))
    (starts : opening.kind = .leafStart leaf)
    (isText : leaf = .paragraph ∨ ∃ level, leaf = .setextHeading level)
    (noEnd : ∀ earlier ∈ between, ∀ kind natural, earlier.kind ≠ .leafEnd kind natural)
    (isContent : token.kind = .leafContent content isLazy)
    (shallow : Text.spaces token.literal < codeIndent) :
    (∀ earlier ∈ between, ∃ text isLazy, earlier.kind = .leafContent text isLazy) ∧
      content.HidesNothing between.isEmpty isLazy := by
  have leads : Place.Leads .outside (tokenize text tabWidth) .outside :=
    Tokenizer.runFrom_leads .initial trivial rfl _
  rw [tokens] at leads
  obtain ⟨_, _, _, leads⟩ := Place.leads_append.mp leads
  have opens : ∀ place : Place, place.next opening.kind = .inText true := by
    intro place
    rw [starts]
    rcases isText with rfl | ⟨level, rfl⟩ <;> cases place <;> rfl
  rw [opens] at leads
  obtain ⟨_, inside, leads⟩ := Place.leads_append.mp leads
  obtain ⟨contents, rfl⟩ := Place.contents_of_leads inside noEnd
  refine ⟨contents, ?_⟩
  rcases leads.1 with ⟨kind, natural, isEnd⟩ | ⟨_, _, sameContent, hides⟩
  · rw [isContent] at isEnd
    cases isEnd
  · rw [isContent] at sameContent
    cases sameContent
    exact hides shallow

/-- A second line that looks like the item of a list with the number 2 is text of the paragraph. -/
theorem paragraph_hides_no_block_numbered :
    (tokenize ['a', '\n', '2', '.', ' ', 'b'] 4).map Token.kind =
      [.leafStart .paragraph, .leafContent ['a'] false, .leafContent ['2', '.', ' ', 'b'] false,
        .leafEnd .paragraph false] ∧
    (ItemStart.find? (.start ['2', '.', ' ', 'b'])).isSome = true ∧
    Text.HidesNothing ['2', '.', ' ', 'b'] false false := by
  have tokens : tokenize ['a', '\n', '2', '.', ' ', 'b'] 4 =
      [] ++ ⟨.leafStart .paragraph, ⟨1, 1⟩, [], []⟩ ::
        ([⟨.leafContent ['a'] false, ⟨1, 1⟩, [], ['a', '\n']⟩] ++
          ⟨.leafContent ['2', '.', ' ', 'b'] false, ⟨2, 1⟩, [], ['2', '.', ' ', 'b']⟩ ::
            [⟨.leafEnd .paragraph false, ⟨2, 5⟩, [], []⟩]) := by
    decide +kernel
  have noEnd : ∀ earlier ∈ [(⟨.leafContent ['a'] false, ⟨1, 1⟩, [], ['a', '\n']⟩ : Token)],
      ∀ kind natural, earlier.kind ≠ .leafEnd kind natural := by
    simp
  refine ⟨by rw [tokens]; rfl, by decide +kernel, ?_⟩
  exact (paragraph_hides_no_block _ _ tokens rfl (.inl rfl) noEnd rfl (by decide +kernel)).2

end BlockLint
