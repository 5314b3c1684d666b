import BlockLint.Proofs.Growth
import BlockLint.Proofs.NaturalEnds
import BlockLint.Proofs.PlainRests
import BlockLint.Proofs.Tokenizer.Progress

/-!
List markers as they are found, and the tokens of a line that opens containers.

What the reader of list markers tells of an item is told here once: how wide the item is, and what
stands where its content would be. A line that opens containers writes one token for each of its
markers, in the order of the markers, and the rest of the line follows.
-/
namespace BlockLint

namespace Text

theorem spaces_drop {text : Text} {count : Nat} (few : count ≤ spaces text) :
    spaces (text.drop count) = spaces text - count := by
  induction count generalizing text with
  | zero => simp
  | succ count ih =>
    cases text with
    | nil => simp [spaces] at few
    | cons c rest =>
      by_cases isSpace : c = ' '
      · have more : spaces (c :: rest) = spaces rest + 1 := by simp [spaces, isSpace]
        have later : spaces (rest.drop count) = spaces rest - count := ih (by omega)
        rw [List.drop_succ_cons, later]
        omega
      · simp [spaces, isSpace] at few

theorem isBlank_drop {text : Text} {count : Nat} (few : count ≤ spaces text) :
    isBlank (text.drop count) = isBlank text := by
  have split := List.take_append_drop count text
  rw [take_spaces few] at split
  rw [← split]
  simp [isBlank]

theorem isBlank_drop_of_isBlank {text : Text} (blank : isBlank text = true) (count : Nat) :
    isBlank (text.drop count) = true := by
  refine List.all_eq_true.mpr fun c member => ?_
  exact List.all_eq_true.mp blank c (List.mem_of_mem_drop member)

theorem valueOf_lt {digits : Text} (areDigits : ∀ digit ∈ digits, digit.isDigit = true) :
    valueOf digits < Nat.pow 10 digits.length := by
  have bound : ∀ value, digits.foldl
      (fun value digit => 10 * value + (digit.toNat - '0'.toNat)) value <
        (value + 1) * Nat.pow 10 digits.length := by
    induction digits with
    | nil =>
      intro value
      simp
    | cons digit rest ih =>
      intro value
      have small : digit.toNat - '0'.toNat ≤ 9 := by
        have isDigit := areDigits digit List.mem_cons_self
        simp only [Char.isDigit, Bool.and_eq_true, decide_eq_true_eq] at isDigit
        have high : digit.toNat ≤ 57 := isDigit.2
        have zero : '0'.toNat = 48 := rfl
        omega
      have later := ih (fun other member => areDigits other (List.mem_cons_of_mem _ member))
        (10 * value + (digit.toNat - '0'.toNat))
      refine Nat.lt_of_lt_of_le later ?_
      calc (10 * value + (digit.toNat - '0'.toNat) + 1) * Nat.pow 10 rest.length
          ≤ ((value + 1) * 10) * Nat.pow 10 rest.length := Nat.mul_le_mul_right _ (by omega)
        _ = (value + 1) * Nat.pow 10 (digit :: rest).length := by
          rw [List.length_cons, Nat.mul_assoc, Nat.mul_comm 10]
          rfl
  have whole := bound 0
  rw [Nat.zero_add, Nat.one_mul] at whole
  exact whole

end Text

theorem ListKind.marker?_bounds {text : Text} {kind : ListKind} {width : Nat}
    (found : marker? text = some (kind, width)) :
    0 < width ∧ width ≤ 10 ∧ ∀ number, kind.number? = some number → number < 1000000000 := by
  rcases marker?_cases found with ⟨_, _, _, _, rfl, rfl⟩ |
    ⟨digits, _, _, _, atMost, areDigits, _, _, rfl, rfl⟩
  · exact ⟨by omega, by omega, by simp [number?]⟩
  · simp only [maxDigits] at atMost
    refine ⟨by omega, by omega, ?_⟩
    rintro number isNumber
    cases isNumber
    have less := Text.valueOf_lt areDigits
    exact Nat.lt_of_lt_of_le less (Nat.pow_le_pow_right (by omega) atMost)

namespace ItemStart

/-- What is told of the item whose marker is found at the cursor. Its content starts past the
marker and the gap behind it, at once or, if it is code, behind further spaces. -/
structure FoundAt (item : ItemStart) (c : Cursor) : Prop where
  marker : item.markerOffset = c.offset + c.indent
  low : c.indent + 2 ≤ item.contentIndent
  high : item.contentIndent ≤ 17
  empty : item.empty = (item.past c).isBlank
  content : item.empty = false → (item.past c).offset = c.offset + item.contentIndent ∧
    ((item.past c).indent = 0 ∨ codeIndent ≤ (item.past c).indent)
  number : ∀ number, item.number? = some number → number < 1000000000

theorem foundAt_of_find? {c : Cursor} {item : ItemStart} (found : find? c = some item) :
    item.FoundAt c := by
  unfold find? at found
  split at found
  · contradiction
  · rename_i shallow
    split at found
    · contradiction
    · rename_i kind width marked
      obtain ⟨positive, narrow, small⟩ := ListKind.marker?_bounds marked
      have lessIndent : c.indent ≤ 3 := by
        simp only [codeIndent] at shallow
        omega
      have lands {taken : Nat}
          (few : taken ≤ Text.spaces (c.rest.drop (c.indent + width)))
          (stop : item.consumedEnd = c.offset + (c.indent + width) + taken) :
          (item.past c).isBlank = Text.isBlank (c.rest.drop (c.indent + width)) ∧
            (item.past c).offset = c.offset + (c.indent + width + taken) ∧
            (item.past c).indent = Text.spaces (c.rest.drop (c.indent + width)) - taken := by
        have count : item.consumedEnd - c.offset = c.indent + width + taken := by omega
        have rest : (item.past c).rest = (c.rest.drop (c.indent + width)).drop taken := by
          rw [ItemStart.past, count, List.drop_drop]
          rfl
        refine ⟨?_, ?_, ?_⟩
        · rw [Cursor.isBlank, rest, Text.isBlank_drop few]
        · rw [ItemStart.past, count]
          rfl
        · rw [Cursor.indent, rest, Text.spaces_drop few]
      simp only at found
      split at found
      · rename_i blank
        have same := Option.some.inj found
        have atPast := (lands (Nat.zero_le _) (by rw [← same])).1.trans blank
        subst same
        exact ⟨rfl, by simp only; omega, by simp only; omega, atPast.symm, by simp, small⟩
      · rename_i filled
        rw [Bool.not_eq_true] at filled
        split at found
        · contradiction
        · rename_i some
          split at found
          · rename_i fits
            have same := Option.some.inj found
            obtain ⟨blank, offset, indent⟩ := lands (Nat.le_refl _) (by rw [← same])
            subst same
            simp only [maxGap] at fits
            refine ⟨rfl, by simp only; omega, by simp only; omega, (blank.trans filled).symm, ?_,
              small⟩
            intro _
            exact ⟨offset, .inl (by omega)⟩
          · rename_i wide
            have same := Option.some.inj found
            obtain ⟨blank, offset, indent⟩ := lands (Nat.pos_of_ne_zero some) (by rw [← same])
            subst same
            simp only [maxGap] at wide
            refine ⟨rfl, by simp only; omega, by simp only; omega, (blank.trans filled).symm, ?_,
              small⟩
            intro _
            exact ⟨offset, .inr (by simp only [codeIndent]; omega)⟩

end ItemStart

def TokenKind.startsItem : TokenKind → Bool
  | .containerStart (.list _) _ | .newListItem _ _ => true
  | _ => false

theorem TokenKind.startsItem_of_isOfLeaf {kind : TokenKind} (ofLeaf : kind.isOfLeaf = true) :
    kind.startsItem = false := by
  cases kind <;> first | rfl | cases ofLeaf

theorem Containers.close_noItems (containers : Containers) (natural : Bool) (position : Position) :
    ∀ token ∈ containers.close natural position, token.kind.startsItem = false := by
  intro token member
  obtain ⟨frame, _, rfl⟩ := List.mem_map.mp member
  rfl

namespace Marker

inductive FoundAt : Marker → Cursor → Prop where
  | quote {c after : Cursor} : quoteMarker? c = some after → FoundAt (.quote c after) c
  | item {c : Cursor} {found : ItemStart} : ItemStart.find? c = some found →
      FoundAt (.item c found) c

theorem FoundAt.start {marker : Marker} {c : Cursor} (found : marker.FoundAt c) :
    marker.start = c := by
  cases found <;> rfl

theorem FoundAt.place {marker : Marker} {c : Cursor} (found : marker.FoundAt c) :
    marker.place = c.offset + c.indent := by
  cases found with
  | quote isQuote => rfl
  | item isItem => exact (ItemStart.foundAt_of_find? isItem).marker

theorem FoundAt.filled {marker : Marker} {c : Cursor} (found : marker.FoundAt c) :
    c.isBlank = false := by
  by_contra blank
  rw [Bool.not_eq_false] at blank
  have nothing : c.rest.drop c.indent = [] := by
    rw [Cursor.indent, Text.drop_spaces]
    exact List.dropWhile_eq_nil_iff.mpr (List.all_eq_true.mp blank)
  cases found with
  | quote isQuote => simp [quoteMarker?, nothing] at isQuote
  | item isItem => simp [ItemStart.find?, nothing, ListKind.marker?] at isItem

/-- The first marker is found where the reading starts, and behind it the reading goes on. -/
theorem foundAt_of_readAll {inParagraph : Bool} {c last : Cursor} {marker : Marker}
    {rest : List Marker} (read : readAll inParagraph c = (marker :: rest, last)) :
    marker.FoundAt c ∧ c.indent < codeIndent := by
  rw [readAll_eq] at read
  split at read
  · cases read
  · rename_i shallow
    refine ⟨?_, Nat.lt_of_not_le shallow⟩
    repeat' split at read
    all_goals cases read
    · exact .quote ‹_›
    · exact .item ‹_›

theorem foundAt_of_split {inParagraph : Bool} {c last : Cursor} {before after : List Marker}
    {marker : Marker} (read : readAll inParagraph c = (before ++ marker :: after, last)) :
    marker.FoundAt marker.start ∧ c.Reaches marker.start ∧
      readAll false marker.past = (after, last) := by
  induction before generalizing inParagraph c with
  | nil =>
    obtain ⟨found, _⟩ := foundAt_of_readAll read
    have same := found.start
    subst same
    exact ⟨found, .refl _, readAll_past read⟩
  | cons first before ih =>
    obtain ⟨found, reaches, others⟩ := ih (readAll_past read)
    exact ⟨found, (readAt_of_readAll read).reaches.trans reaches, others⟩

inductive Starts (line : Line) : Marker → Token → Prop where
  | container (lead : Text) (containers : Containers) (marker : Marker) :
      Starts line marker (Tokenizer.openContainer line lead containers marker).1
  | nextItem (lead : Text) (start : Cursor) (item : ItemStart) :
      Starts line (.item start item)
        (Tokenizer.tokenAt line item.markerOffset
          (.newListItem (item.listItem start).geometry item.number?) lead
          (start.upTo (item.past start)))

theorem Starts.position {line : Line} {marker : Marker} {token : Token}
    (starts : marker.Starts line token) : token.position = line.position marker.place := by
  cases starts with
  | container lead containers marker => cases marker <;> rfl
  | nextItem lead start item => rfl

theorem Starts.notBlank {line : Line} {marker : Marker} {token : Token}
    (starts : marker.Starts line token) : token.kind ≠ .blankLine := by
  cases starts with
  | container lead containers marker =>
    cases marker <;> simp [Tokenizer.openContainer, Tokenizer.tokenAt]
  | nextItem lead start item => simp [Tokenizer.tokenAt]

theorem Starts.exists_item {line : Line} {marker : Marker} {token : Token}
    (starts : marker.Starts line token) (startsItem : token.kind.startsItem = true) :
    ∃ start found, marker = .item start found := by
  cases starts with
  | container lead containers marker =>
    cases marker with
    | quote start after => cases startsItem
    | item start found => exact ⟨start, found, rfl⟩
  | nextItem lead start found => exact ⟨start, found, rfl⟩

theorem exists_of_split {line : Line} {markers : List Marker} {front back : List Token}
    {token : Token} (each : List.Forall₂ (Starts line) markers (front ++ token :: back)) :
    ∃ before marker after, markers = before ++ marker :: after ∧ marker.Starts line token ∧
      List.Forall₂ (Starts line) after back := by
  induction front generalizing markers with
  | nil =>
    cases each with
    | cons starts others => exact ⟨[], _, _, rfl, starts, others⟩
  | cons first front ih =>
    cases each with
    | cons _ others =>
      obtain ⟨before, marker, after, rfl, starts, behind⟩ := ih others
      exact ⟨_ :: before, marker, after, rfl, starts, behind⟩

/-- The container that is open behind the marker. A further item belongs to a list which another
marker has opened. -/
inductive Opens : Marker → Frame → Prop where
  | quote (start after : Cursor) : Opens (.quote start after) .blockQuote
  | item (start : Cursor) (item : ItemStart) (kind : ListKind) :
      Opens (.item start item) (.list kind (item.listItem start))

end Marker

namespace Tokenizer

theorem openContainer_opens (line : Line) (lead : Text) (containers : Containers)
    (marker : Marker) :
    ∃ frame, (openContainer line lead containers marker).2 = containers.markContent ++ [frame] ∧
      marker.Opens frame := by
  cases marker with
  | quote start after => exact ⟨_, rfl, .quote start after⟩
  | item start item => exact ⟨_, rfl, .item start item item.kind⟩

theorem openAll_starts (line : Line) (containers : Containers) (markers : List Marker) :
    List.Forall₂ (Marker.Starts line) markers (openAll line containers markers).1 := by
  induction markers generalizing containers with
  | nil => exact .nil
  | cons marker rest ih => exact .cons (.container [] containers marker) (ih _)

/-- Only the first marker of a line goes on with a list. -/
theorem openAll_containerStart (line : Line) (containers : Containers) (markers : List Marker) :
    ∀ token ∈ (openAll line containers markers).1,
      ∃ container item, token.kind = .containerStart container item := by
  induction markers generalizing containers with
  | nil => simp [openAll]
  | cons marker rest ih =>
    intro token member
    rcases List.mem_cons.mp member with rfl | later
    · cases marker <;> exact ⟨_, _, rfl⟩
    · exact ih _ token later

theorem openFirst_starts (line : Line) (lead : Text) (containers : Containers) {leaf : OpenLeaf}
    (coherent : leaf.Coherent) (depth : Nat) (marker : Marker) :
    ∃ closing token, (openFirst line lead containers leaf depth marker).1 = closing ++ [token] ∧
      (∀ ended ∈ closing, ended.kind.startsItem = false) ∧ marker.Starts line token := by
  have closeLeaf (natural : Bool) (position : Position) :
      ∀ ended ∈ leaf.close natural position, ended.kind.startsItem = false := by
    intro ended member
    exact TokenKind.startsItem_of_isOfLeaf
      (OpenLeaf.close_isOfLeaf coherent natural position ended member)
  have both {left right : List Token} (first : ∀ ended ∈ left, ended.kind.startsItem = false)
      (second : ∀ ended ∈ right, ended.kind.startsItem = false) :
      ∀ ended ∈ left ++ right, ended.kind.startsItem = false := by
    intro ended member
    rcases List.mem_append.mp member with before | after
    · exact first ended before
    · exact second ended after
  refine openFirst_cases
    (motive := fun opened => ∃ closing token, opened.1 = closing ++ [token] ∧
      (∀ ended ∈ closing, ended.kind.startsItem = false) ∧ marker.Starts line token)
    line lead containers leaf depth marker ?all ?sibling ?replaced ?other
  case all =>
    intro _
    exact ⟨_, _, rfl, closeLeaf _ _, .container ..⟩
  case sibling =>
    intro start item kind current inner isItem _ _
    subst isItem
    exact ⟨_, _, rfl, both (closeLeaf _ _) (Containers.close_noItems _ _ _), .nextItem ..⟩
  case replaced =>
    intro start item kind current inner _ _ _
    exact ⟨_, _, rfl, both (both (closeLeaf _ _) (Containers.close_noItems _ _ _))
      (Containers.close_noItems _ _ _), .container ..⟩
  case other =>
    intro frame inner _ _
    exact ⟨_, _, rfl, both (closeLeaf _ _) (Containers.close_noItems _ _ _), .container ..⟩

theorem leafLine_of_blank (line : Line) (lead : Text) {c : Cursor} (containers : Containers)
    (opened : Bool) (blank : c.isBlank = true) :
    leafLine line lead c containers .none opened =
      { written := [tokenAt line c.offset .blankLine lead (literalFrom line c)]
        containers := if opened then containers else containers.closeEmptyItems
        leaf := .none } := by
  have isBlank : LineClass.of c.rest false = .blank := if_pos blank
  simp only [leafLine, OpenLeaf.isParagraph, isBlank]

theorem finish_noItems {state : State} (coherent : state.leaf.Coherent) :
    ∀ token ∈ finish state, token.kind.startsItem = false := by
  intro token member
  rcases List.mem_append.mp member with ofLeaf | ofContainers
  · exact TokenKind.startsItem_of_isOfLeaf
      (OpenLeaf.close_isOfLeaf coherent false state.reached token ofLeaf)
  · exact Containers.close_noItems _ _ _ token ofContainers

def settled (line : Line) (lead : Text) (containers : Containers) (leaf : OpenLeaf) (depth : Nat)
    (first : Marker) (later : List Marker) : Containers :=
  (openAll line (openFirst line lead containers leaf depth first).2 later).2

theorem fresh_noItems (line : Line) (lead : Text) (c : Cursor) (containers : Containers)
    (opened : Bool) :
    ∀ token ∈ (leafLine line lead c containers .none opened).written,
      token.kind.startsItem = false := by
  intro token member
  exact TokenKind.startsItem_of_isOfLeaf
    (leafLine_isOfLeaf line lead c containers .none opened trivial (by simp) token member)

section
variable {containers : Containers} {leaf : OpenLeaf} {line : Line} {found : Containers.Match}
  (matching : containers.matchLine line.expanded = found) (coherent : leaf.Coherent)
  {front back : List Token} {token : Token}
  (split : (lineEffect containers leaf line).written = front ++ token :: back)
  (starts : token.kind.startsItem = true)
include matching coherent split starts

theorem exists_markers_of_written :
    ∃ first later c,
      Marker.readAll (found.depth == containers.length && leaf.isParagraph) found.cursor =
        (first :: later, c) ∧
      lineEffect containers leaf line =
        openedLine line (found.lead line.expanded) containers leaf found.depth first later c := by
  -- Other lines write tokens of leaves and ends of containers.
  have absurdly {tokens : List Token} {front back : List Token} {goal : Prop}
      (noItems : ∀ other ∈ tokens, other.kind.startsItem = false)
      (split : tokens = front ++ token :: back) : goal := by
    have none := noItems token (by simp [split])
    rw [starts] at none
    cases none
  have ofLeaf {tokens : List Token} (each : ∀ other ∈ tokens, other.kind.isOfLeaf = true) :
      ∀ other ∈ tokens, other.kind.startsItem = false :=
    fun other member => TokenKind.startsItem_of_isOfLeaf (each other member)
  revert split
  refine lineEffect_cases
    (motive := fun effect => effect.written = front ++ token :: back →
      ∃ first later c,
        Marker.readAll (found.depth == containers.length && leaf.isParagraph) found.cursor =
          (first :: later, c) ∧
        effect =
          openedLine line (found.lead line.expanded) containers leaf found.depth first later c)
    containers leaf line matching ?fenced ?opened ?matched ?lazy ?unmatched
  case fenced =>
    intro fence _ _
    refine absurdly (ofLeaf ?_)
    intro other member
    cases List.mem_singleton.mp member
    exact fencedLine_isOfLeaf line _ _ fence
  case opened =>
    intro first later c read _ _
    exact ⟨first, later, c, read, rfl⟩
  case matched =>
    intro _ noFence _
    exact absurdly (ofLeaf (leafLine_isOfLeaf line _ _ containers leaf false coherent noFence))
  case lazy =>
    intro _ _ _ _
    exact absurdly (ofLeaf (paragraphLine_isOfLeaf line _ _ containers true coherent))
  case unmatched =>
    intro _ _ _ split
    simp only [unmatchedLine] at split
    rw [List.append_assoc] at split
    rcases split_append split with ⟨_, inLeaf, _⟩ | ⟨_, _, split⟩
    · exact absurdly (ofLeaf (OpenLeaf.close_isOfLeaf coherent _ _)) inLeaf
    · rcases split_append split with ⟨_, inContainers, _⟩ | ⟨_, _, inLast⟩
      · exact absurdly (Containers.close_noItems _ _ _) inContainers
      · exact absurdly (fresh_noItems line _ _ _ false) inLast

theorem exists_opening_of_written :
    ∃ first later c closing opener inner opening last,
      Marker.readAll (found.depth == containers.length && leaf.isParagraph) found.cursor =
        (first :: later, c) ∧
      (openFirst line (found.lead line.expanded) containers leaf found.depth first).1 =
        closing ++ [opener] ∧
      first.Starts line opener ∧
      opener :: (openAll line (openFirst line (found.lead line.expanded) containers leaf
        found.depth first).2 later).1 = inner ++ token :: opening ∧
      front = closing ++ inner ∧ back = opening ++ last.written ∧
      (lineEffect containers leaf line).containers = last.containers ∧
      (lineEffect containers leaf line).leaf = last.leaf ∧
      last = leafLine line [] c (settled line (found.lead line.expanded) containers leaf
        found.depth first later) .none true := by
  obtain ⟨first, later, c, read, effect⟩ := exists_markers_of_written matching coherent split starts
  rw [effect] at split ⊢
  obtain ⟨closing, opener, isFirst, noItems, opens⟩ := openFirst_starts line
    (found.lead line.expanded) containers coherent found.depth first
  simp only [openedLine, isFirst] at split
  rw [List.append_assoc, List.append_assoc] at split
  rcases split_append split with ⟨_, inClosing, _⟩ | ⟨inner, isFront, split⟩
  · have none := noItems token (by simp [inClosing])
    rw [starts] at none
    cases none
  · rw [← List.append_assoc, List.singleton_append] at split
    rcases split_append split with ⟨opening, inOpening, isBack⟩ | ⟨_, _, inLast⟩
    · exact ⟨first, later, c, closing, opener, inner, opening, _, read, isFirst, opens, inOpening,
        isFront, isBack, rfl, rfl, rfl⟩
    · have none := fresh_noItems line [] c _ true token (by rw [inLast]; simp)
      rw [starts] at none
      cases none

/-- Behind the token of an item stand those of the markers that follow it, and then the rest of the
line. -/
theorem exists_item_of_written :
    ∃ first later c before start item after opening last,
      Marker.readAll (found.depth == containers.length && leaf.isParagraph) found.cursor =
        (first :: later, c) ∧
      first :: later = before ++ .item start item :: after ∧
      Marker.Starts line (.item start item) token ∧
      List.Forall₂ (Marker.Starts line) after opening ∧
      (∀ other ∈ opening, ∃ container item, other.kind = .containerStart container item) ∧
      back = opening ++ last.written ∧
      (lineEffect containers leaf line).containers = last.containers ∧
      (lineEffect containers leaf line).leaf = last.leaf ∧
      last = leafLine line [] c (settled line (found.lead line.expanded) containers leaf
        found.depth first later) .none true := by
  obtain ⟨first, later, c, closing, opener, inner, opening, last, read, _, opens, inOpening, _,
    isBack, same⟩ := exists_opening_of_written matching coherent split starts
  have each := List.Forall₂.cons opens (openAll_starts line
    (openFirst line (found.lead line.expanded) containers leaf found.depth first).2 later)
  rw [inOpening] at each
  obtain ⟨before, marker, after, markers, isStart, behind⟩ := Marker.exists_of_split each
  obtain ⟨start, item, rfl⟩ := isStart.exists_item starts
  refine ⟨first, later, c, before, start, item, after, opening, last, read, markers, isStart,
    behind, ?_, isBack, same⟩
  intro other member
  have isLater : other ∈ (openAll line (openFirst line (found.lead line.expanded) containers leaf
      found.depth first).2 later).1 := by
    cases inner with
    | nil =>
      rw [List.nil_append, List.cons.injEq] at inOpening
      rwa [inOpening.2]
    | cons _ others =>
      rw [List.cons_append, List.cons.injEq] at inOpening
      rw [inOpening.2]
      exact List.mem_append_right _ (List.mem_cons_of_mem _ member)
  exact openAll_containerStart line _ later other isLater

end

theorem exists_line_of_item {state : State} (coherent : state.leaf.Coherent) {lines : List Line}
    {before after : List Token} {token : Token}
    (split : runFrom state lines = before ++ token :: after)
    (starts : token.kind.startsItem = true) :
    ∃ earlier line later front back, lines = earlier ++ line :: later ∧
      (step (stateAfter state earlier) line).1 = front ++ token :: back ∧
      before = writtenFrom state earlier ++ front ∧
      after = back ++ runFrom (stateAfter state (earlier ++ [line])) later := by
  refine (exists_line_of_split split).resolve_right ?_
  rintro ⟨front, _, atEnd⟩
  have noItem := finish_noItems (stateAfter_coherent state coherent lines) token (by simp [atEnd])
  rw [starts] at noItem
  cases noItem

theorem replay_writtenFrom (state : State) (coherent : state.leaf.Coherent) (lines : List Line) :
    Nesting.replay ⟨state.containers.kinds, state.leaf.started?⟩ (writtenFrom state lines) =
      some ⟨(stateAfter state lines).containers.kinds,
        (stateAfter state lines).leaf.started?⟩ := by
  induction lines generalizing state with
  | nil => rfl
  | cons line rest ih =>
    have nests := lineEffect_nests state.containers state.leaf line coherent
    exact Nesting.replay_append nests.replays (ih (step state line).2 nests.coherent)

end Tokenizer
end BlockLint
