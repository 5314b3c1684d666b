import BlockLint.Proofs.Growth
import BlockLint.Proofs.SourceLines

/-!
Where code starts. A line that starts a code leaf writes the start behind all else that it ends and
opens: the start of fenced code is the last token of its line, and behind the start of indented
code stands the code on that line. So a start in the stream leads to a state in which the code is
open, and to the lines that are read from there.
-/
namespace BlockLint

/-- The rest of a line behind the markers by which it continues containers, if it continues all. -/
def Containers.rest? (containers : Containers) (line : Line) : Option Text :=
  let found := containers.matchLine line.expanded
  if found.depth = containers.length then some found.cursor.rest else none

def TokenKind.startsCode : TokenKind → Bool
  | .leafStart leaf => leaf.isCode
  | _ => false

theorem Source.numbers_behind {text : Text} {tabWidth : Nat} {earlier inside later : List Line}
    {line : Line} (lines : (ofText text tabWidth).lines = earlier ++ line :: (inside ++ later)) :
    inside.map Line.number = List.range' (line.number + 1) inside.length := by
  have numbers := layOut_numbers tabWidth 1 0 (rawLines text)
  change (ofText text tabWidth).lines.map Line.number = _ at numbers
  rw [lines, List.map_append, List.map_cons, List.map_append] at numbers
  obtain ⟨_, _, _, fromLine⟩ := List.range'_eq_append_iff.mp numbers.symm
  obtain ⟨isFirst, _, behind⟩ := List.range'_eq_cons_iff.mp fromLine.symm
  obtain ⟨_, _, ofInside, _⟩ := List.range'_eq_append_iff.mp behind.symm
  have count := congrArg List.length ofInside
  rw [List.length_map, List.length_range'] at count
  rw [ofInside, ← isFirst, count]

theorem places_of_forall₂ {R : Line → Token → Prop} {lines : List Line} {tokens : List Token}
    (place : ∀ line token, R line token → token.position.line = line.number)
    (each : List.Forall₂ R lines tokens) :
    tokens.map (·.position.line) = lines.map Line.number := by
  induction each with
  | nil => rfl
  | cons related _ ih => rw [List.map_cons, List.map_cons, place _ _ related, ih]

namespace Tokenizer

/-- The cursor behind all markers of a line, those by which it continues containers and those that
open more. -/
def pastMarkers (containers : Containers) (leaf : OpenLeaf) (line : Line) : Cursor :=
  let found := containers.matchLine line.expanded
  (Marker.readAll (found.depth == containers.length && leaf.isParagraph) found.cursor).2

def NoCode (tokens : List Token) : Prop :=
  ∀ token ∈ tokens, token.kind.startsCode = false

theorem NoCode.append {left right : List Token} (first : NoCode left) (second : NoCode right) :
    NoCode (left ++ right) := by
  intro token member
  rcases List.mem_append.mp member with before | after
  · exact first token before
  · exact second token after

theorem closeLeaf_noCode {leaf : OpenLeaf} (coherent : leaf.Coherent) (natural : Bool)
    (position : Position) : NoCode (leaf.close natural position) := by
  intro token member
  rcases OpenLeaf.kind_of_mem_close coherent member with kind | ⟨_, _, kind⟩ | ⟨_, kind⟩ | kind
  all_goals rw [kind]; rfl

theorem closeContainers_noCode (containers : Containers) (natural : Bool) (position : Position) :
    NoCode (containers.close natural position) := by
  intro token member
  obtain ⟨frame, _, rfl⟩ := List.mem_map.mp member
  rfl

theorem codeLine_noCode (line : Line) (lead : Text) (c : Cursor) (held : List HeldBlank) :
    NoCode (codeLine line lead c held) := by
  intro token member
  rcases List.mem_append.mp member with blank | code
  · obtain ⟨blank, _, rfl⟩ := List.mem_map.mp blank
    rfl
  · cases List.mem_singleton.mp code
    rfl

theorem paragraphLine_noCode (line : Line) (lead : Text) (c : Cursor) (containers : Containers)
    {leaf : OpenLeaf} (isLazy : Bool) (coherent : leaf.Coherent) :
    NoCode (paragraphLine line lead c containers leaf isLazy).written := by
  have closing := closeLeaf_noCode coherent true (line.position c.offset)
  cases leaf with
  | paragraph opening contents => simp [paragraphLine, NoCode]
  | none => exact closing
  | indentedCode held => exact closing
  | fencedCode fence => exact closing

theorem fencedLine_noCode (line : Line) (lead : Text) (c : Cursor) (fence : Fence) :
    NoCode [(fencedLine line lead c fence).1] := by
  intro token member
  cases List.mem_singleton.mp member
  unfold fencedLine
  split <;> rfl

theorem openContainer_noCode (line : Line) (lead : Text) (containers : Containers)
    (marker : Marker) : NoCode [(openContainer line lead containers marker).1] := by
  intro token member
  cases List.mem_singleton.mp member
  cases marker <;> rfl

theorem openFirst_noCode (line : Line) (lead : Text) (containers : Containers) {leaf : OpenLeaf}
    (coherent : leaf.Coherent) (depth : Nat) (marker : Marker) :
    NoCode (openFirst line lead containers leaf depth marker).1 := by
  refine openFirst_tokens (fun _ _ => NoCode.append) line lead containers leaf depth marker
    (closeLeaf_noCode coherent) closeContainers_noCode
    (fun outer => openContainer_noCode line lead outer marker) ?_
  intro start item _ token member
  cases List.mem_singleton.mp member
  rfl

theorem openAll_noCode (line : Line) (containers : Containers) (markers : List Marker) :
    NoCode (openAll line containers markers).1 := by
  induction markers generalizing containers with
  | nil => simp [openAll, NoCode]
  | cons marker rest ih => exact (openContainer_noCode line [] containers marker).append (ih _)

theorem finish_noCode {state : State} (coherent : state.leaf.Coherent) : NoCode (finish state) :=
  (closeLeaf_noCode coherent _ _).append (closeContainers_noCode _ _ _)

section
variable {left right front back : List Token} {first token : Token}

theorem NoCode.absurd (none : NoCode left) (starts : token.kind.startsCode = true) {goal : Prop}
    (split : left = front ++ token :: back) : goal := by
  have noStart := none token (by simp [split])
  rw [starts] at noStart
  cases noStart

theorem NoCode.right_of_split (none : NoCode left) (starts : token.kind.startsCode = true)
    (split : left ++ right = front ++ token :: back) :
    ∃ inner, right = inner ++ token :: back := by
  rcases split_append split with ⟨_, inLeft, _⟩ | ⟨inner, _, inRight⟩
  · exact none.absurd starts inLeft
  · exact ⟨inner, inRight⟩

theorem NoCode.eq_of_split (none : NoCode right) (starts : token.kind.startsCode = true)
    (split : first :: right = front ++ token :: back) : first = token ∧ right = back := by
  cases front with
  | nil => exact List.cons.inj split
  | cons _ inner => exact none.absurd starts (List.cons.inj split).2

end

/-- The token starts code at the cursor, on this line `back` follows, and the leaf is left open. -/
inductive StartsCode (line : Line) (c : Cursor) : Token → List Token → OpenLeaf → Prop where
  | fenced {fence : Fence} (lead : Text) : Fence.open? c.rest = some fence →
      StartsCode line c
        (tokenAt line (c.offset + fence.indent) (.leafStart fence.leafKind) lead
          (literalFrom line c))
        [] (.fencedCode fence)
  | indented (lead : Text) : LineClass.of c.rest false = .indented →
      StartsCode line c (tokenAt line (c.offset + codeIndent) (.leafStart .indentedCode) lead [])
        (codeLine line [] c []) (.indentedCode [])

theorem StartsCode.onLine {line : Line} {c : Cursor} {token : Token} {back : List Token}
    {leaf : OpenLeaf} (starts : StartsCode line c token back leaf) :
    token.position.line = line.number := by
  cases starts <;> rfl

/-- The rest of a line starts code with its last tokens, or none. -/
theorem leafLine_startsCode (line : Line) (lead : Text) (c : Cursor) (containers : Containers)
    (leaf : OpenLeaf) (opened : Bool) (coherent : leaf.Coherent)
    (noFence : ∀ fence, leaf ≠ .fencedCode fence) {front back : List Token} {token : Token}
    (split : (leafLine line lead c containers leaf opened).written = front ++ token :: back)
    (starts : token.kind.startsCode = true) :
    StartsCode line c token back (leafLine line lead c containers leaf opened).leaf := by
  have closing := closeLeaf_noCode coherent true (line.position c.offset)
  have behind {tokens : List Token} (others : NoCode tokens) {goal : Prop}
      (split : leaf.close true (line.position c.offset) ++ tokens = front ++ token :: back) :
      goal :=
    (closing.append others).absurd starts split
  revert split
  refine leafLine_cases
    (motive := fun effect => effect.written = front ++ token :: back →
      StartsCode line c token back effect.leaf)
    line lead c containers leaf opened noFence ?held ?blank ?setext ?text ?moreCode ?newCode
    ?atxHeading ?thematicBreak ?fenceOpen
  case held => simp
  case blank =>
    intro _ _
    exact behind (by simp [NoCode, tokenAt, TokenKind.startsCode])
  case setext =>
    intro level opening contents isParagraph _
    subst isParagraph
    refine NoCode.absurd ?_ starts
    intro other member
    rcases List.mem_append.mp member with kept | last
    · rcases List.mem_cons.mp kept with rfl | content
      · rfl
      · obtain ⟨text, isLazy, isContent⟩ := coherent.2 other content
        rw [isContent]
        rfl
    · cases List.mem_singleton.mp last
      rfl
  case text =>
    intro _
    exact (paragraphLine_noCode line lead c containers false coherent).absurd starts
  case moreCode =>
    intro held _ _
    exact (codeLine_noCode line lead c held).absurd starts
  case newCode =>
    intro _ isCode split
    obtain ⟨rfl, rfl⟩ := (codeLine_noCode line [] c []).eq_of_split starts split
    exact .indented lead isCode
  case atxHeading =>
    intro heading _
    exact behind (by simp [NoCode, tokenAt, endToken, TokenKind.startsCode, LeafKind.isCode])
  case thematicBreak =>
    intro _
    exact behind (by simp [NoCode, tokenAt, endToken, TokenKind.startsCode, LeafKind.isCode])
  case fenceOpen =>
    intro fence isFence split
    obtain ⟨inner, split⟩ := closing.right_of_split starts split
    have nothing : NoCode [] := by simp [NoCode]
    obtain ⟨rfl, rfl⟩ := nothing.eq_of_split starts split
    exact .fenced lead (LineClass.of_fenceOpen isFence)

/-- So does a whole line, behind all its markers. -/
theorem lineEffect_startsCode {containers : Containers} {leaf : OpenLeaf} {line : Line}
    (coherent : leaf.Coherent) {front back : List Token} {token : Token}
    (split : (lineEffect containers leaf line).written = front ++ token :: back)
    (starts : token.kind.startsCode = true) :
    StartsCode line (pastMarkers containers leaf line) token back
      (lineEffect containers leaf line).leaf := by
  generalize matching : containers.matchLine line.expanded = found
  have past : pastMarkers containers leaf line = (Marker.readAll
      (found.depth == containers.length && leaf.isParagraph) found.cursor).2 := by
    rw [pastMarkers, matching]
  revert split
  refine lineEffect_cases
    (motive := fun effect => effect.written = front ++ token :: back →
      StartsCode line (pastMarkers containers leaf line) token back effect.leaf)
    containers leaf line matching ?fenced ?opened ?matched ?lazy ?unmatched
  case fenced =>
    intro fence _ _
    exact (fencedLine_noCode line _ _ fence).absurd starts
  case opened =>
    intro first later c read _ split
    have none := (openFirst_noCode line (found.lead line.expanded) containers coherent found.depth
      first).append (openAll_noCode line (openFirst line (found.lead line.expanded) containers leaf
        found.depth first).2 later)
    obtain ⟨inner, split⟩ := none.right_of_split starts split
    rw [past, read]
    exact leafLine_startsCode line [] c _ .none true trivial (by simp) split starts
  case matched =>
    intro all noFence read split
    have same : pastMarkers containers leaf line = found.cursor := by
      rw [past, all, beq_self_eq_true, Bool.true_and, read]
    rw [same]
    exact leafLine_startsCode line _ _ containers leaf false coherent noFence split starts
  case lazy =>
    intro _ _ _ _
    exact (paragraphLine_noCode line _ _ containers true coherent).absurd starts
  case unmatched =>
    intro missing read _ split
    have same : pastMarkers containers leaf line = found.cursor := by
      rw [past, beq_eq_false_iff_ne.mpr missing, Bool.false_and, read]
    have none := (closeLeaf_noCode coherent found.cursor.isBlank
      (line.position found.cursor.offset)).append
      (closeContainers_noCode (containers.drop found.depth) found.cursor.isBlank
        (line.position found.cursor.offset))
    obtain ⟨inner, split⟩ := none.right_of_split starts split
    rw [same]
    exact leafLine_startsCode line _ _ _ .none false trivial (by simp) split starts

/-- A start of code in the stream is written for a line. Behind what the line writes stand the
tokens of the lines that are read while the code is open. -/
theorem exists_codeLine {lines : List Line} {before after : List Token} {token : Token}
    (split : run lines = before ++ token :: after) (starts : token.kind.startsCode = true) :
    ∃ earlier line later back, lines = earlier ++ line :: later ∧
      StartsCode line (pastMarkers (stateAfter .initial earlier).containers
        (stateAfter .initial earlier).leaf line) token back
        (stateAfter .initial (earlier ++ [line])).leaf ∧
      writtenFrom .initial (earlier ++ [line]) = before ++ token :: back ∧
      after = back ++ runFrom (stateAfter .initial (earlier ++ [line])) later := by
  have initial : State.initial.leaf.Coherent := trivial
  rcases exists_line_of_split split with
    ⟨earlier, line, later, front, back, rfl, written, rfl, rfl⟩ | ⟨front, _, atEnd⟩
  · have coherent := stateAfter_coherent .initial initial earlier
    refine ⟨earlier, line, later, back, rfl, ?_, ?_, rfl⟩
    · rw [stateAfter_concat]
      exact lineEffect_startsCode coherent written starts
    · rw [writtenFrom_concat, written, List.append_assoc]
  · exact (finish_noCode (stateAfter_coherent .initial initial lines)).absurd starts atEnd

end Tokenizer
end BlockLint
