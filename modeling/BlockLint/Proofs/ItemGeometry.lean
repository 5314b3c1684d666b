import BlockLint.Proofs.ItemMarkers
import BlockLint.Proofs.OutermostLists
import BlockLint.Proofs.TokenPlaces

/-!
What the start of an item says of the item is so. In a document without tabs the marker stands in
the column that the token names, and the content, if the line has some, in the other one; and then
that is where the next token is. If it has none, the next token is a blank line.

The reader of markers decides this before the rest of the line is read. That it is right hangs on
what can be past a marker: nothing, something at once, or an indent as deep as code has it.
-/
namespace BlockLint

def TokenKind.item? : TokenKind → Option ItemGeometry
  | .containerStart _ item => item
  | .newListItem item _ => some item
  | _ => none

def TokenKind.StartsBlock (kind : TokenKind) : Prop :=
  (∃ container item, kind = .containerStart container item) ∨ ∃ leaf, kind = .leafStart leaf

/-- What `token` says of its item agrees with where it stands and with the token that is next. -/
structure ItemGeometry.Truthful (item : ItemGeometry) (token next : Token) : Prop where
  marker : item.markerColumn = token.position.column
  order : item.markerColumn < item.contentColumn
  pending : item.contentPending = true ↔
    next.kind = .blankLine ∧ next.position.line = token.position.line
  content : item.contentPending = false → next.position.line = token.position.line ∧
    (next.kind.StartsBlock ∧ next.position.column = item.contentColumn ∨
      next.kind = .leafStart .indentedCode ∧ next.position.column = item.contentColumn + 4)

theorem Marker.Starts.item? {line : Line} {start : Cursor} {item : ItemStart} {token : Token}
    (starts : Marker.Starts line (.item start item) token) :
    token.kind.item? = some (item.listItem start).geometry := by
  cases starts <;> rfl

theorem Marker.Starts.number {line : Line} {start : Cursor} {item : ItemStart} {token : Token}
    (starts : Marker.Starts line (.item start item) token) {geometry : ItemGeometry}
    {number : Option Nat} (isNext : token.kind = .newListItem geometry number) :
    number = item.number? := by
  cases starts with
  | container => cases isNext
  | nextItem =>
    cases isNext
    rfl

/-- Without tabs a column is one more than the bytes before it, up to the text past the spaces. -/
theorem Line.column_of_reaches {line : Line} (noTab : '\t' ∉ line.text) {c : Cursor}
    (reaches : (Cursor.start line.expanded).Reaches c) {count : Nat} (few : count ≤ c.indent) :
    line.column (c.offset + count) = c.offset + count + 1 := by
  obtain ⟨passed, plain, whole, offset⟩ := reaches.trans (Cursor.reaches_skip_spaces few)
  simp only [Cursor.start_rest, Line.expanded_eq_text noTab] at whole
  simp only [Cursor.start_offset, Nat.zero_add, Cursor.skip] at offset
  rw [offset]
  exact column_eq noTab plain whole

namespace Tokenizer

/-- What follows the markers of a line that is not blank starts a leaf behind its indent, and what
is indented deep enough is code. -/
theorem leafLine_start (line : Line) (lead : Text) {c : Cursor} (containers : Containers)
    (opened : Bool) (filled : c.isBlank = false) {later : List Token}
    (heads : (leafLine line lead c containers .none opened).leaf.Heads later) :
    ∃ kind next others, (leafLine line lead c containers .none opened).written ++ later =
        next :: others ∧ next.kind = .leafStart kind ∧
      next.position = line.position (c.offset + min c.indent codeIndent) ∧
      (codeIndent ≤ c.indent → kind = .indentedCode) := by
  have place {leafClass : LineClass} (found : LineClass.of c.rest false = leafClass)
      (other : leafClass ≠ .indented) : c.indent < codeIndent := by
    by_contra deep
    exact other (found ▸ LineClass.of_eq_indented_iff.mpr ⟨filled, Nat.le_of_not_lt deep⟩)
  have shallow {kind : LeafKind} {next : Token} {others : List Token} {tokens : List Token}
      (less : c.indent < codeIndent) (same : tokens = next :: others)
      (starts : next.kind = .leafStart kind)
      (position : next.position = line.position (c.offset + c.indent)) :
      ∃ kind next others, tokens = next :: others ∧ next.kind = .leafStart kind ∧
        next.position = line.position (c.offset + min c.indent codeIndent) ∧
        (codeIndent ≤ c.indent → kind = .indentedCode) := by
    refine ⟨kind, next, others, same, starts, ?_, fun deep => by omega⟩
    rwa [Nat.min_eq_left (Nat.le_of_lt less)]
  revert heads
  refine leafLine_cases
    (motive := fun effect => effect.leaf.Heads later → ∃ kind next others,
      effect.written ++ later = next :: others ∧ next.kind = .leafStart kind ∧
        next.position = line.position (c.offset + min c.indent codeIndent) ∧
        (codeIndent ≤ c.indent → kind = .indentedCode))
    line lead c containers .none opened (by simp) ?held ?blank ?setext ?text ?moreCode ?newCode
    ?atxHeading ?thematicBreak ?fenceOpen
  case held => simp
  case blank =>
    intro _ found
    have blank : c.isBlank = true := LineClass.isBlank_of_blank found
    simp [filled] at blank
  case setext => simp
  case text =>
    intro found heads
    obtain ⟨kind, others, same⟩ := heads _ _ rfl
    rcases found with isText | ⟨isParagraph, _⟩
    · exact shallow (place isText (by simp)) same rfl rfl
    · cases isParagraph
  case moreCode => simp
  case newCode =>
    intro _ found _
    have deep : codeIndent ≤ c.indent := LineClass.codeIndent_le found
    refine ⟨.indentedCode, _, _, rfl, rfl, ?_, fun _ => rfl⟩
    rw [Nat.min_eq_right deep]
    rfl
  case atxHeading =>
    intro heading found _
    exact shallow (place found (by simp)) rfl rfl rfl
  case thematicBreak =>
    intro found _
    exact shallow (place found (by simp)) rfl rfl rfl
  case fenceOpen =>
    intro fence found _
    have indent : fence.indent = c.indent := Fence.indent_of_open? (LineClass.of_fenceOpen found)
    exact shallow (place found (by simp)) rfl rfl (by rw [← indent]; rfl)

structure ItemLine (line : Line) (start : Cursor) (item : ItemStart) (c : Cursor)
    (inner : List Marker) (token : Token) (opening : List Token) : Prop where
  found : item.FoundAt start
  reaches : (Cursor.start line.expanded).Reaches start
  past : start.Reaches (item.past start)
  read : Marker.readAll false (item.past start) = (inner, c)
  starts : Marker.Starts line (.item start item) token
  opens : List.Forall₂ (Marker.Starts line) inner opening
  containers : ∀ other ∈ opening, ∃ container item, other.kind = .containerStart container item

namespace ItemLine

variable {line : Line} {start c : Cursor} {item : ItemStart} {inner : List Marker} {token : Token}
  {opening later : List Token}
  (onLine : ItemLine line start item c inner token opening)
include onLine

theorem next_of_empty (containers : Containers) (empty : item.empty = true) :
    ∃ next rest, opening ++ (leafLine line [] c containers .none true).written ++ later =
      next :: rest ∧ next.position.line = line.number ∧ next.kind = .blankLine := by
  have blank : (item.past start).isBlank = true := onLine.found.empty ▸ empty
  cases onLine.opens with
  | cons =>
    have filled := (Marker.foundAt_of_readAll onLine.read).1.filled
    rw [blank] at filled
    cases filled
  | nil =>
    rw [Marker.readAll_nil onLine.read, leafLine_of_blank line [] containers true blank]
    exact ⟨_, _, rfl, rfl, rfl⟩

theorem next_of_filled (noTab : '\t' ∉ line.text) (containers : Containers)
    (heads : (leafLine line [] c containers .none true).leaf.Heads later)
    (filled : item.empty = false) :
    ∃ next rest, opening ++ (leafLine line [] c containers .none true).written ++ later =
      next :: rest ∧ next.position.line = line.number ∧
      (next.kind.StartsBlock ∧ next.position.column = start.offset + item.contentIndent + 1 ∨
        next.kind = .leafStart .indentedCode ∧
          next.position.column = start.offset + item.contentIndent + 1 + 4) := by
  obtain ⟨offset, indent⟩ := onLine.found.content filled
  have column {count : Nat} (few : count ≤ (item.past start).indent) :=
    Line.column_of_reaches noTab (onLine.reaches.trans onLine.past) few
  cases onLine.opens with
  | cons opens others =>
    rename_i marker token markers tokens
    obtain ⟨found, shallow⟩ := Marker.foundAt_of_readAll onLine.read
    have atOnce : (item.past start).indent = 0 := by omega
    have position := opens.position
    rw [found.place, atOnce] at position
    refine ⟨token, _, rfl, by rw [position]; rfl, .inl ⟨?_, ?_⟩⟩
    · exact .inl (onLine.containers token List.mem_cons_self)
    · rw [position, ← offset]
      exact column (Nat.zero_le _)
  | nil =>
    have same := Marker.readAll_nil onLine.read
    subst same
    have notBlank : (item.past start).isBlank = false := onLine.found.empty ▸ filled
    obtain ⟨kind, next, rest, tokens, starts, position, code⟩ :=
      leafLine_start line [] containers true notBlank heads
    refine ⟨next, rest, tokens, by rw [position]; rfl, ?_⟩
    have nextColumn : next.position.column =
        (item.past start).offset + min (item.past start).indent codeIndent + 1 := by
      rw [position]
      exact column (Nat.min_le_left _ _)
    rcases indent with atOnce | deep
    · refine .inl ⟨.inr ⟨kind, starts⟩, ?_⟩
      rw [nextColumn, atOnce, offset]
      simp
    · refine .inr ⟨by rw [starts, code deep], ?_⟩
      rw [nextColumn, Nat.min_eq_right deep, offset, codeIndent]

theorem truthful (noTab : '\t' ∉ line.text) (containers : Containers)
    (heads : (leafLine line [] c containers .none true).leaf.Heads later) :
    ∃ next rest, opening ++ (leafLine line [] c containers .none true).written ++ later =
      next :: rest ∧ (item.listItem start).geometry.Truthful token next := by
  have position := onLine.starts.position
  have sameLine : token.position.line = line.number := by rw [position]; rfl
  have marker : item.markerOffset + 1 = token.position.column := by
    rw [position]
    simp only [Marker.place, Line.position, onLine.found.marker]
    exact (Line.column_of_reaches noTab onLine.reaches (Nat.le_refl _)).symm
  have order : item.markerOffset + 1 < start.offset + item.contentIndent + 1 := by
    have low := onLine.found.low
    have place := onLine.found.marker
    omega
  cases empty : item.empty with
  | true =>
    obtain ⟨next, rest, tokens, isLine, blank⟩ := onLine.next_of_empty containers empty
    refine ⟨next, rest, tokens, marker, order, ?_, ?_⟩
    · simp [ItemStart.listItem, ListItem.geometry, empty, blank, isLine, sameLine]
    · simp [ItemStart.listItem, ListItem.geometry, empty]
  | false =>
    obtain ⟨next, rest, tokens, isLine, starts⟩ :=
      onLine.next_of_filled noTab containers heads empty
    refine ⟨next, rest, tokens, marker, order, ?_, fun _ => ⟨isLine.trans sameLine.symm, starts⟩⟩
    have notBlank : next.kind ≠ .blankLine := by
      rcases starts with ⟨⟨container, item, isStart⟩ | ⟨leaf, isStart⟩, _⟩ | ⟨isStart, _⟩
      all_goals simp [isStart]
    simp [ItemStart.listItem, ListItem.geometry, empty, notBlank]

end ItemLine

theorem exists_itemLine {containers : Containers} {leaf : OpenLeaf} {line : Line}
    (coherent : leaf.Coherent) {front back : List Token} {token : Token}
    (split : (lineEffect containers leaf line).written = front ++ token :: back)
    (starts : token.kind.startsItem = true) :
    ∃ start item c inner opening kept, ItemLine line start item c inner token opening ∧
      back = opening ++ (leafLine line [] c kept .none true).written ∧
      (lineEffect containers leaf line).leaf = (leafLine line [] c kept .none true).leaf := by
  obtain ⟨first, later, c, before, start, item, inner, opening, last, read, markers, isStart, opens,
    areContainers, isBack, _, sameLeaf, isLast⟩ :=
    exists_item_of_written rfl coherent split starts
  rw [markers] at read
  obtain ⟨found, reaches, behind⟩ := Marker.foundAt_of_split read
  subst isLast
  refine ⟨start, item, c, inner, opening, _, ?_, isBack, sameLeaf⟩
  cases found with
  | item isItem =>
    exact
      { found := ItemStart.foundAt_of_find? isItem
        reaches := (Containers.matchLine_reaches containers line.expanded).trans reaches
        past := (ItemStart.find?_reaches isItem).2.1
        read := behind
        starts := isStart
        opens := opens
        containers := areContainers }

theorem openFirst_newItem (line : Line) (lead : Text) (containers : Containers) (leaf : OpenLeaf)
    (depth : Nat) (marker : Marker) {closing : List Token} {token : Token} {item : ItemGeometry}
    {number : Option Nat}
    (tokens : (openFirst line lead containers leaf depth marker).1 = closing ++ [token])
    (isNext : token.kind = .newListItem item number) :
    ∃ (outer : Containers) (kind : ListKind) (current : ListItem),
      (openFirst line lead containers leaf depth marker).2 = outer ++ [.list kind current] ∧
      (number.isSome = true ↔ kind.number?.isSome = true) := by
  have opening {before : List Token}
      (same : before ++ [(openContainer line lead (containers.take depth) marker).1] =
        closing ++ [token]) : False := by
    have last := (List.append_inj_right' same rfl)
    cases marker <;> cases last <;> cases isNext
  revert tokens
  refine openFirst_cases
    (motive := fun opened => opened.1 = closing ++ [token] →
      ∃ (outer : Containers) (kind : ListKind) (current : ListItem),
        opened.2 = outer ++ [.list kind current] ∧
        (number.isSome = true ↔ kind.number?.isSome = true))
    line lead containers leaf depth marker ?all ?sibling ?replaced ?other
  case all =>
    intro _ same
    exact (opening same).elim
  case sibling =>
    intro start started kind current inner _ _ sameType same
    cases List.append_inj_right' same rfl
    cases isNext
    refine ⟨_, kind, _, rfl, ?_⟩
    cases kind <;> cases isKind : started.kind <;>
      simp [ListKind.sameType, ItemStart.number?, ListKind.number?, isKind] at sameType ⊢
  case replaced =>
    intro _ _ _ _ _ _ _ _ same
    exact (opening same).elim
  case other =>
    intro _ _ _ _ same
    exact (opening same).elim

theorem exists_list_of_written {containers : Containers} {leaf : OpenLeaf} {line : Line}
    (coherent : leaf.Coherent) {front back : List Token} {token : Token}
    (split : (lineEffect containers leaf line).written = front ++ token :: back)
    {item : ItemGeometry} {number : Option Nat} (isNext : token.kind = .newListItem item number) :
    ∃ kind outer,
      Nesting.replay ⟨containers.kinds, leaf.started?⟩ front = some ⟨.list kind :: outer, none⟩ ∧
      (number.isSome = true ↔ kind.number?.isSome = true) := by
  generalize matching : containers.matchLine line.expanded = found
  obtain ⟨first, later, c, closing, opener, inner, opening, _, _, tokens, _, inOpening, rfl, _⟩ :=
    exists_opening_of_written matching coherent split (by rw [isNext]; rfl)
  cases inner with
  | cons _ others =>
    rw [List.cons_append, List.cons.injEq] at inOpening
    obtain ⟨container, geometry, isContainer⟩ := openAll_containerStart line _ later token
      (by rw [inOpening.2]; simp)
    rw [isNext] at isContainer
    cases isContainer
  | nil =>
    rw [List.nil_append, List.cons.injEq] at inOpening
    obtain ⟨rfl, _⟩ := inOpening
    obtain ⟨outer, kind, current, innermost, numbers⟩ := openFirst_newItem line _ containers leaf
      _ first tokens isNext
    have replay := replay_openFirst line (found.lead line.expanded) containers leaf found.depth
      first coherent
    have kinds : Containers.kinds (outer ++ [.list kind current]) = .list kind :: outer.kinds := by
      simp [Frame.kind]
    rw [tokens, innermost, kinds] at replay
    obtain ⟨middle, toClosing, ofItem⟩ := Nesting.exists_replay_append replay
    obtain ⟨last, fits, done⟩ := Option.bind_eq_some_iff.mp ofItem
    rw [isNext] at fits
    refine ⟨kind, outer.kinds, ?_, numbers⟩
    rw [List.append_nil, toClosing]
    cases Nesting.step_of_next fits
    exact done

end Tokenizer

/-- Every item that starts is where its token says, and a further item of a list has a number if the
list is ordered. -/
theorem item_geometry_truthful {text : Text} {tabWidth : Nat} (noTab : '\t' ∉ text)
    {before after : List Token} {token : Token}
    (split : tokenize text tabWidth = before ++ token :: after)
    (starts : token.kind.startsItem = true) :
    (∃ item next rest, token.kind.item? = some item ∧ after = next :: rest ∧
      item.Truthful token next) ∧
    ∀ item number, token.kind = .newListItem item number →
      ∃ kind outer, Nesting.closed.replay before = some ⟨.list kind :: outer, none⟩ ∧
        (number.isSome = true ↔ ∃ start delimiter, kind = .ordered start delimiter) ∧
        ∀ value, number = some value → value < 1000000000 := by
  have initial : Tokenizer.State.initial.leaf.Coherent := trivial
  obtain ⟨earlier, line, later, front, back, lines, written, rfl, rfl⟩ :=
    Tokenizer.exists_line_of_item initial split starts
  have coherent := Tokenizer.stateAfter_coherent .initial initial earlier
  have heads := Tokenizer.runFrom_heads _ later
    (Tokenizer.stateAfter_coherent .initial initial (earlier ++ [line]))
  have isLine : line ∈ (Source.ofText text tabWidth).lines := by
    rw [lines]
    exact List.mem_append_right _ List.mem_cons_self
  obtain ⟨start, item, c, inner, opening, kept, onLine, isBack, sameLeaf⟩ :=
    Tokenizer.exists_itemLine coherent written starts
  rw [Tokenizer.stateAfter_concat] at heads ⊢
  simp only [Tokenizer.step, sameLeaf] at heads
  constructor
  · obtain ⟨next, rest, tokens, truthful⟩ :=
      onLine.truthful (Source.noTab_of_mem_lines noTab isLine) kept heads
    refine ⟨_, next, rest, onLine.starts.item?, ?_, truthful⟩
    rw [isBack]
    simpa only [Tokenizer.step, sameLeaf] using tokens
  · intro geometry number isNext
    obtain ⟨kind, outer, replay, numbers⟩ :=
      Tokenizer.exists_list_of_written coherent written isNext
    have open_ := Tokenizer.replay_writtenFrom .initial initial earlier
    refine ⟨kind, outer, Nesting.replay_append open_ replay, ?_, ?_⟩
    · rw [numbers]
      cases kind <;> simp [ListKind.number?]
    · intro value isValue
      have same := onLine.starts.number isNext
      exact onLine.found.number value (same ▸ isValue)

theorem item_geometry_truthful_before_code :
    (∃ before after, tokenize ['7', '.', ' ', 'a', '\n', '2', '.', ' ', ' ', ' ', ' ', ' ', 'b'] 4 =
      before ++ ⟨.newListItem ⟨1, 4, false⟩ (some 2), ⟨2, 1⟩, [], ['2', '.', ' ']⟩ ::
        ⟨.leafStart .indentedCode, ⟨2, 8⟩, [], []⟩ :: after) ∧
    ItemGeometry.Truthful ⟨1, 4, false⟩
      ⟨.newListItem ⟨1, 4, false⟩ (some 2), ⟨2, 1⟩, [], ['2', '.', ' ']⟩
      ⟨.leafStart .indentedCode, ⟨2, 8⟩, [], []⟩ := by
  have tokens : tokenize ['7', '.', ' ', 'a', '\n', '2', '.', ' ', ' ', ' ', ' ', ' ', 'b'] 4 =
      [⟨.containerStart (.list (.ordered 7 '.')) (some ⟨1, 4, false⟩), ⟨1, 1⟩, [],
          ['7', '.', ' ']⟩,
        ⟨.leafStart .paragraph, ⟨1, 4⟩, [], []⟩,
        ⟨.leafContent ['a'] false, ⟨1, 4⟩, [], ['a', '\n']⟩,
        ⟨.leafEnd .paragraph false, ⟨2, 1⟩, [], []⟩] ++
      ⟨.newListItem ⟨1, 4, false⟩ (some 2), ⟨2, 1⟩, [], ['2', '.', ' ']⟩ ::
        ⟨.leafStart .indentedCode, ⟨2, 8⟩, [], []⟩ ::
        [⟨.leafContent ['b'] false, ⟨2, 8⟩, [], [' ', ' ', ' ', ' ', 'b']⟩,
          ⟨.leafEnd .indentedCode false, ⟨2, 9⟩, [], []⟩,
          ⟨.containerEnd (.list (.ordered 7 '.')) false, ⟨2, 9⟩, [], []⟩] := by
    decide +kernel
  obtain ⟨⟨item, next, rest, isItem, isNext, truthful⟩, _⟩ :=
    item_geometry_truthful (by decide) tokens rfl
  cases isItem
  cases isNext
  exact ⟨⟨_, _, tokens⟩, truthful⟩

end BlockLint
