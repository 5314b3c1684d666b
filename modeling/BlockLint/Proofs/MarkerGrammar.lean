import BlockLint.Proofs.Containment
import BlockLint.Proofs.ItemMarkers
import Mathlib.Data.Nat.Digits.Defs

/-!
The grammar of list markers. A list item starts where up to three spaces, a mark and then a space or
the end of the text stand, and nowhere else.

The grammar says how such a place is spelled. Each spelling determines the item that is found there,
so that the item can be told without the search.
-/
namespace BlockLint

namespace Text

def digitValue (digit : Char) : Nat :=
  digit.toNat - '0'.toNat

theorem valueOf_eq_ofDigits (digits : Text) :
    valueOf digits = Nat.ofDigits 10 (digits.reverse.map digitValue) := by
  induction digits using List.reverseRecOn with
  | nil => rfl
  | append_singleton digits last ih =>
    have more : valueOf (digits ++ [last]) = 10 * valueOf digits + digitValue last := by
      simp [valueOf, digitValue]
    rw [more, ih, List.reverse_concat, List.map_cons, Nat.ofDigits_cons, Nat.add_comm]

theorem spaces_replicate_append {count : Nat} {rest : Text} (stops : rest.head? ≠ some ' ') :
    spaces (List.replicate count ' ' ++ rest) = count := by
  rw [spaces, takeWhile_replicate_append stops, List.length_replicate]

theorem isBlank_iff_forall {text : Text} : isBlank text = true ↔ ∀ c ∈ text, c = ' ' := by
  simp [isBlank]

theorem exists_filled {text : Text} (filled : isBlank text = false) :
    ∃ c more, text = List.replicate (spaces text) ' ' ++ c :: more ∧ c ≠ ' ' := by
  have whole := List.take_append_drop (spaces text) text
  rw [take_spaces (Nat.le_refl _), drop_spaces] at whole
  cases rest : dropSpaces text with
  | nil =>
    have blank : isBlank text = true :=
      List.all_eq_true.mpr (List.dropWhile_eq_nil_iff.mp rest)
    rw [filled] at blank
    cases blank
  | cons c more =>
    have other := head?_dropWhile_ne ' ' text
    rw [show text.dropWhile (· == ' ') = c :: more from rest] at other
    exact ⟨c, more, by rw [← rest, whole], by simpa using other⟩

end Text

theorem ListMarker.exists_of_marker? {text : Text} {kind : ListKind} {width : Nat}
    (found : ListKind.marker? text = some (kind, width)) :
    ∃ mark after, text = mark ++ after ∧ ListMarker mark kind ∧ mark.length = width := by
  rcases ListKind.marker?_cases found with ⟨bullet, after, isBullet, same, rfl, rfl⟩ |
    ⟨digits, delimiter, after, filled, short, areDigits, isDelimiter, same, rfl, rfl⟩
  · exact ⟨[bullet], after, same, .bullet isBullet, rfl⟩
  · exact ⟨digits ++ [delimiter], after, same, .number filled short areDigits isDelimiter,
      by simp⟩

/-- The digits of a mark are those of its number in decimal notation. -/
theorem ListMarker.number?_eq {mark digits : Text} {kind : ListKind} {sign : Char}
    (marker : ListMarker mark kind) (same : mark = digits ++ [sign]) :
    kind.number? =
      if digits = [] then none
      else some (Nat.ofDigits 10 (digits.reverse.map Text.digitValue)) := by
  cases marker with
  | @bullet bullet _ =>
    have none : digits = [] := by
      have length := congrArg List.length same
      simpa using length
    rw [if_pos none]
    rfl
  | @number digits' sign' filled _ _ _ =>
    obtain ⟨rfl, _⟩ := List.append_inj' same rfl
    rw [if_neg filled, ← Text.valueOf_eq_ofDigits]
    rfl

/-- A text with a list marker in it: what stands before, the indent, the mark and what follows. -/
structure MarkerSite where
  before : Text
  indent : Nat
  kind : ListKind
  mark : Text
  after : Text

namespace MarkerSite

def rest (site : MarkerSite) : Text :=
  List.replicate site.indent ' ' ++ site.mark ++ site.after

structure In (site : MarkerSite) (text : Text) (offset : Nat) : Prop where
  whole : text = site.before ++ site.rest
  place : Text.size site.before = offset

/-- A mark opens an item if it is indented by less than code and no word adjoins it. -/
structure Opens (site : MarkerSite) : Prop where
  shallow : site.indent ≤ 3
  marker : ListMarker site.mark site.kind
  apart : (∀ c ∈ site.after, c = ' ') ∨ site.after.head? = some ' '

def reach (site : MarkerSite) : Nat :=
  site.indent + site.mark.length

def found (site : MarkerSite) (offset taken indent : Nat) (empty : Bool) : ItemStart where
  kind := site.kind
  markerOffset := offset + site.indent
  markerEnd := offset + site.reach
  consumedEnd := offset + site.reach + taken
  contentIndent := site.reach + indent
  empty

def item (site : MarkerSite) (offset : Nat) : ItemStart :=
  let gap := Text.spaces site.after
  if Text.isBlank site.after then site.found offset 0 1 true
  else if gap ≤ 4 then site.found offset gap gap false
  else site.found offset 1 1 false

variable {site : MarkerSite} {c : Cursor}

theorem Opens.gap_pos (opens : site.Opens) (filled : Text.isBlank site.after = false) :
    1 ≤ Text.spaces site.after := by
  rcases opens.apart with allSpaces | space
  · rw [Text.isBlank_iff_forall.mpr allSpaces] at filled
    cases filled
  · obtain ⟨more, same⟩ := List.head?_eq_some_iff.mp space
    simp [same, Text.spaces]

theorem Opens.indent_eq (opens : site.Opens) (same : c.rest = site.rest) :
    c.indent = site.indent := by
  obtain ⟨first, more, isMark, visible, _⟩ := opens.marker.exists_head
  rw [Cursor.indent, same, rest, List.append_assoc]
  exact Text.spaces_replicate_append (by simpa [isMark] using visible)

theorem drop_reach (site : MarkerSite) : site.rest.drop site.reach = site.after := by
  have width : site.reach = (List.replicate site.indent ' ' ++ site.mark).length := by
    simp [reach]
  rw [rest, width, List.drop_left]

theorem Opens.find?_eq (opens : site.Opens) (same : c.rest = site.rest) :
    ItemStart.find? c = some (site.item c.offset) := by
  have indent := opens.indent_eq same
  have shallow : ¬ codeIndent ≤ c.indent := by
    have few := opens.shallow
    simp only [codeIndent]
    omega
  have mark : c.rest.drop site.indent = site.mark ++ site.after := by
    rw [same, rest, List.append_assoc]
    exact List.drop_left' List.length_replicate
  have after : c.rest.drop (site.indent + site.mark.length) = site.after :=
    (congrArg _ same).trans site.drop_reach
  unfold ItemStart.find? item
  rw [if_neg shallow, indent, mark, opens.marker.marker?_eq]
  simp only [after]
  cases blank : Text.isBlank site.after with
  | true => rfl
  | false =>
    have gap : Text.spaces site.after ≠ 0 := Nat.ne_of_gt (opens.gap_pos blank)
    by_cases narrow : Text.spaces site.after ≤ ItemStart.maxGap
    · have fits : Text.spaces site.after ≤ 4 := narrow
      simp only [Bool.false_eq_true, if_false, gap, narrow, fits, if_true]
      rfl
    · have wide : ¬ Text.spaces site.after ≤ 4 := narrow
      simp only [Bool.false_eq_true, if_false, gap, narrow, wide]
      rfl

theorem exists_of_find? {item : ItemStart} (found : ItemStart.find? c = some item)
    (before : Text) : ∃ site : MarkerSite, site.before = before ∧ c.rest = site.rest ∧
      site.Opens := by
  unfold ItemStart.find? at found
  split at found
  · contradiction
  · rename_i shallow
    split at found
    · contradiction
    · rename_i kind width marked
      obtain ⟨mark, after, same, marker, length⟩ := ListMarker.exists_of_marker? marked
      have whole := List.take_append_drop c.indent c.rest
      rw [Text.take_spaces (Nat.le_refl c.indent), same, ← List.append_assoc] at whole
      have behind : c.rest.drop (c.indent + width) = after := by
        rw [← List.drop_drop, same, ← length, List.drop_left]
      simp only [codeIndent] at shallow
      refine ⟨⟨before, c.indent, kind, mark, after⟩, rfl, whole.symm, Nat.le_of_not_lt shallow,
        marker, ?_⟩
      simp only [behind] at found ⊢
      split at found
      · rename_i blank
        exact .inl (Text.isBlank_iff_forall.mp blank)
      · rename_i filled
        split at found
        · contradiction
        · rename_i gap
          cases after with
          | nil => exact absurd rfl filled
          | cons first more =>
            by_cases space : first = ' '
            · exact .inr (by rw [space]; rfl)
            · simp [Text.spaces, space] at gap

/-- What an item tells of its site. The content of an item that is not empty starts where the spaces
of the marker end. -/
structure Tells (site : MarkerSite) (text : Text) (offset : Nat) (item : ItemStart) : Prop where
  kind : item.kind = site.kind
  number : ∀ digits sign, site.mark = digits ++ [sign] → item.number? =
    if digits = [] then none else some (Nat.ofDigits 10 (digits.reverse.map Text.digitValue))
  markerOffset : item.markerOffset = offset + site.indent
  markerEnd : item.markerEnd = item.markerOffset + site.mark.length
  order : offset ≤ item.markerOffset ∧ item.markerOffset < item.markerEnd ∧
    item.markerEnd ≤ item.consumedEnd ∧ item.consumedEnd ≤ Text.size text
  empty : item.empty = true ↔ ∀ c ∈ site.after, c = ' '
  ofEmpty : item.empty = true →
    item.consumedEnd = item.markerEnd ∧ item.contentIndent = item.markerEnd - offset + 1
  ofFilled : item.empty = false → ∃ gap rest,
    site.after = List.replicate gap ' ' ++ rest ∧ item.consumedEnd = item.markerEnd + gap ∧
      item.contentIndent = item.consumedEnd - offset ∧
      (1 ≤ Text.spaces site.after ∧ Text.spaces site.after ≤ 4 →
        ∃ c more, rest = c :: more ∧ c ≠ ' ') ∧
      (4 < Text.spaces site.after → ∃ more, rest = List.replicate 4 ' ' ++ more)

theorem Opens.found_tells {text : Text} {offset taken indent : Nat} {empty : Bool}
    (opens : site.Opens) (inText : site.In text offset)
    (few : taken ≤ Text.spaces site.after)
    (isEmpty : empty = true ↔ ∀ c ∈ site.after, c = ' ')
    (ofEmpty : empty = true → taken = 0 ∧ indent = 1)
    (ofFilled : empty = false → indent = taken ∧ ∃ rest,
      site.after = List.replicate taken ' ' ++ rest ∧
        (Text.spaces site.after ≤ 4 → ∃ c more, rest = c :: more ∧ c ≠ ' ') ∧
        (4 < Text.spaces site.after → ∃ more, rest = List.replicate 4 ' ' ++ more)) :
    site.Tells text offset (site.found offset taken indent empty) := by
  obtain ⟨first, others, isMark, _⟩ := opens.marker.exists_head
  have positive : 0 < site.mark.length := by simp [isMark]
  have plain : Text.Plain (List.replicate site.indent ' ' ++ site.mark) :=
    (Text.replicate_plain site.indent).append fun c member =>
      opens.marker.plain c (List.mem_append_left _ member)
  have size : Text.size text = offset + site.reach + Text.size site.after := by
    rw [inText.whole, rest, Text.size_append, Text.size_append, inText.place,
      plain.size_eq_length]
    simp [reach, Nat.add_assoc]
  have inside : Text.spaces site.after ≤ Text.size site.after :=
    Nat.le_trans (Text.spaces_le_length _) (Text.length_le_size _)
  refine ⟨rfl, fun digits sign same => opens.marker.number?_eq same, rfl, ?_, ?_, isEmpty, ?_, ?_⟩
  · simp only [found, reach]
    omega
  · simp only [found, reach] at size ⊢
    omega
  · intro isTrue
    obtain ⟨rfl, rfl⟩ := ofEmpty isTrue
    simp only [found]
    omega
  · intro isFalse
    obtain ⟨rfl, rest, whole, narrow, wide⟩ := ofFilled isFalse
    refine ⟨_, rest, whole, rfl, ?_, fun gap => narrow gap.2, wide⟩
    simp only [found]
    omega

theorem Opens.item_tells {text : Text} {offset : Nat} (opens : site.Opens)
    (inText : site.In text offset) : site.Tells text offset (site.item offset) := by
  unfold item
  cases blank : Text.isBlank site.after with
  | true =>
    refine opens.found_tells inText (Nat.zero_le _) ?_ (fun _ => ⟨rfl, rfl⟩) (by simp)
    simpa using Text.isBlank_iff_forall.mp blank
  | false =>
    have gap := opens.gap_pos blank
    have notEmpty : false = true ↔ ∀ c ∈ site.after, c = ' ' := by
      rw [← Text.isBlank_iff_forall, blank]
    obtain ⟨c, more, whole, visible⟩ := Text.exists_filled blank
    rw [if_neg (by simp)]
    by_cases narrow : Text.spaces site.after ≤ 4
    · rw [if_pos narrow]
      refine opens.found_tells inText (Nat.le_refl _) notEmpty (by simp) fun _ =>
        ⟨rfl, c :: more, whole, fun _ => ⟨c, more, rfl, visible⟩, ?_⟩
      omega
    · rw [if_neg narrow]
      obtain ⟨further, isWide⟩ : ∃ further, Text.spaces site.after = 1 + (4 + further) :=
        ⟨Text.spaces site.after - 5, by omega⟩
      rw [isWide, List.replicate_add, List.replicate_add, List.append_assoc,
        List.append_assoc] at whole
      exact opens.found_tells inText gap notEmpty (by simp) fun _ =>
        ⟨rfl, _, whole, fun few => absurd few narrow, fun _ => ⟨_, rfl⟩⟩

end MarkerSite

/-- At a place between two characters of any text, a list item is found exactly if a mark opens one
there, and the item tells how the text goes on. -/
theorem find?_grammar {text : Text} {offset : Nat}
    (boundary : Text.isBoundary text offset = true) :
    ((∃ item, ItemStart.find? (Cursor.ofOffset text offset) = some item) ↔
      ∃ site : MarkerSite, site.In text offset ∧ site.Opens) ∧
    ∀ item, ItemStart.find? (Cursor.ofOffset text offset) = some item →
      ∀ site : MarkerSite, site.In text offset → site.Opens → site.Tells text offset item := by
  have found {site : MarkerSite} (inText : site.In text offset) (opens : site.Opens) :
      ItemStart.find? (Cursor.ofOffset text offset) = some (site.item offset) := by
    refine opens.find?_eq ?_
    rw [Cursor.ofOffset, inText.whole, ← inText.place]
    exact Text.seek_append site.before site.rest
  obtain ⟨before, whole, place⟩ := Text.exists_front_of_isBoundary boundary
  refine ⟨⟨?_, ?_⟩, ?_⟩
  · rintro ⟨item, isItem⟩
    obtain ⟨site, rfl, same, opens⟩ := MarkerSite.exists_of_find? isItem before
    have rest : Text.seek text offset = site.rest := same
    exact ⟨site, ⟨rest ▸ whole, place⟩, opens⟩
  · rintro ⟨site, inText, opens⟩
    exact ⟨_, found inText opens⟩
  · intro item isItem site inText opens
    cases (found inText opens).symm.trans isItem
    exact opens.item_tells inText

/-- Behind a character of two bytes stands a number with a leading zero, and code behind it. -/
theorem find?_grammar_before_code :
    let text : Text := ['é', ' ', '0', '7', ')', ' ', ' ', ' ', ' ', ' ', 'x']
    let item : ItemStart := ⟨.ordered 7 ')', 3, 6, 7, 5, false⟩
    let site : MarkerSite :=
      ⟨['é'], 1, .ordered 7 ')', ['0', '7', ')'], [' ', ' ', ' ', ' ', ' ', 'x']⟩
    Text.isBoundary text 2 = true ∧ ItemStart.find? (Cursor.ofOffset text 2) = some item ∧
      site.In text 2 ∧ site.Opens ∧ site.Tells text 2 item := by
  intro text item site
  have boundary : Text.isBoundary text 2 = true := by decide
  have found : ItemStart.find? (Cursor.ofOffset text 2) = some item := by decide +kernel
  have inText : site.In text 2 := ⟨rfl, rfl⟩
  have marker : ListMarker (['0', '7'] ++ [')']) (.ordered (Text.valueOf ['0', '7']) ')') :=
    .number (by simp) (by simp) (by simp) (by simp)
  have opens : site.Opens := ⟨by decide, marker, .inr rfl⟩
  exact ⟨boundary, found, inText, opens,
    (find?_grammar boundary).2 item found site inText opens⟩

end BlockLint
