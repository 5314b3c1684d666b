import BlockLint.Proofs.LinePositions
import BlockLint.Proofs.PositionOrder
import Mathlib.Data.List.Chain

/-!
Tab expansion loses nothing. Every character of a line has a part of the expanded text, and the
bytes of that part have the column of the character. The part of a tab reaches to the next tab stop,
and any other character is its own part.

So the columns tell where each part begins, and the line can be restored from the expanded text once
it is known which columns hold tabs.
-/
namespace BlockLint

namespace Text

def bytes (text : Text) : List UInt8 :=
  text.flatMap String.utf8EncodeChar

@[simp] theorem bytes_append (left right : Text) :
    bytes (left ++ right) = bytes left ++ bytes right :=
  List.flatMap_append

@[simp] theorem length_bytes (text : Text) : (bytes text).length = size text := by
  induction text with
  | nil => rfl
  | cons c rest ih =>
    rw [bytes, List.flatMap_cons, List.length_append, String.length_utf8EncodeChar, size_cons]
    exact congrArg _ ih

theorem bytes_spaces (count : Nat) :
    bytes (List.replicate count ' ') = List.replicate count 32 := by
  induction count with
  | zero => rfl
  | succ count ih => exact congrArg (32 :: ·) ih

end Text

namespace Expansion

/-- The expanded text of a character behind `seen` characters of it. -/
def part (width seen : Nat) (c : Char) : Text :=
  if c = '\t' then List.replicate (width - seen % width) ' ' else [c]

theorem expandFrom_cons (width seen column : Nat) (c : Char) (rest : Text) :
    let later := expandFrom width (seen + (part width seen c).length) (column + 1) rest
    expandFrom width seen column (c :: rest) =
      ⟨part width seen c ++ later.text,
        List.replicate (Text.size (part width seen c)) column ++ later.columns⟩ := by
  by_cases isTab : c = '\t'
  · simp [expandFrom, part, isTab, (Text.replicate_plain _).size_eq_length]
  · simp [expandFrom, part, isTab]

variable {width seen column : Nat} {text : Text} {c : Char}

theorem part_ne_nil (positive : 0 < width) (seen : Nat) (c : Char) : part width seen c ≠ [] := by
  have room := Nat.mod_lt seen positive
  unfold part
  split
  · rw [ne_eq, List.replicate_eq_nil_iff]
    omega
  · simp

def byteColumns (expansion : Expansion) : List Nat :=
  expansion.columns.dropLast

theorem columns_ne_nil (width seen column : Nat) (text : Text) :
    (expandFrom width seen column text).columns ≠ [] := by
  cases text with
  | nil => simp [expandFrom]
  | cons c rest =>
    rw [expandFrom_cons]
    simp [columns_ne_nil width _ _ rest]

theorem byteColumns_cons (width seen column : Nat) (c : Char) (rest : Text) :
    (expandFrom width seen column (c :: rest)).byteColumns =
      List.replicate (Text.size (part width seen c)) column ++
        (expandFrom width (seen + (part width seen c).length) (column + 1) rest).byteColumns := by
  rw [byteColumns, expandFrom_cons]
  exact List.dropLast_append_of_ne_nil (columns_ne_nil width _ _ rest)

theorem expandFrom_append (width seen column : Nat) (left right : Text) :
    let before := expandFrom width seen column left
    let after := expandFrom width (seen + before.text.length) (column + left.length) right
    expandFrom width seen column (left ++ right) =
      ⟨before.text ++ after.text, before.byteColumns ++ after.columns⟩ := by
  induction left generalizing seen column with
  | nil => simp [expandFrom, byteColumns]
  | cons c left ih =>
    dsimp only
    rw [byteColumns_cons]
    simp only [List.cons_append, expandFrom_cons, ih, List.append_assoc, List.length_append,
      List.length_cons, Nat.add_assoc, Nat.add_comm 1]

theorem columns_eq (width seen column : Nat) (text : Text) :
    (expandFrom width seen column text).columns =
      (expandFrom width seen column text).byteColumns ++ [column + text.length] := by
  have whole := expandFrom_append width seen column text []
  rw [List.append_nil] at whole
  conv_lhs => rw [whole]
  rfl

theorem length_byteColumns (width seen column : Nat) (text : Text) :
    (expandFrom width seen column text).byteColumns.length =
      Text.size (expandFrom width seen column text).text := by
  induction text generalizing seen column with
  | nil => rfl
  | cons c rest ih =>
    rw [byteColumns_cons, expandFrom_cons, List.length_append, List.length_replicate, ih,
      Text.size_append]

theorem mem_byteColumns {place : Nat}
    (member : place ∈ (expandFrom width seen column text).byteColumns) :
    column ≤ place ∧ place < column + text.length := by
  induction text generalizing seen column with
  | nil => cases member
  | cons c rest ih =>
    rw [byteColumns_cons] at member
    rw [List.length_cons]
    rcases List.mem_append.mp member with here | later
    · rw [List.eq_of_mem_replicate here]
      omega
    · have bounds := ih later
      omega

/-- From a byte to the next the column stays or grows by one. -/
theorem columns_isChain (positive : 0 < width) (seen column : Nat) (text : Text) :
    (expandFrom width seen column text).columns.IsChain
        (fun left right => left ≤ right ∧ right ≤ left + 1) ∧
      (expandFrom width seen column text).columns.head? = some column := by
  induction text generalizing seen column with
  | nil => exact ⟨List.isChain_singleton _, rfl⟩
  | cons c rest ih =>
    obtain ⟨chain, first⟩ := ih (seen + (part width seen c).length) (column + 1)
    obtain ⟨more, size⟩ := Nat.exists_eq_succ_of_ne_zero
      (Nat.ne_of_gt (Text.size_pos (part_ne_nil positive seen c)))
    rw [expandFrom_cons]
    constructor
    · refine List.isChain_append.mpr ⟨?_, chain, ?_⟩
      · exact List.isChain_replicate_of_rel _ ⟨Nat.le_refl _, Nat.le_succ _⟩
      · intro left isLast right isFirst
        cases List.eq_of_mem_replicate (List.mem_of_mem_getLast? isLast)
        cases first.symm.trans isFirst
        omega
    · rw [size]
      rfl

/-- The bytes that have a column. -/
def bytesAt (expansion : Expansion) (column : Nat) : List UInt8 :=
  ((Text.bytes expansion.text).zip expansion.columns).filterMap fun pair =>
    if pair.2 = column then some pair.1 else none

/-- The expanded text around the part of a character. No other part has its column. -/
theorem exists_part (width : Nat) {left right : Text} (same : text = left ++ c :: right) :
    let before := (expandFrom width 0 1 left).text
    ∃ after earlier later,
      expandFrom width 0 1 text =
        ⟨before ++ part width before.length c ++ after,
          earlier ++ List.replicate (Text.size (part width before.length c)) (left.length + 1) ++
            later⟩ ∧
      earlier.length = Text.size before ∧ (∀ place ∈ earlier, place < left.length + 1) ∧
        ∀ place ∈ later, left.length + 1 < place := by
  intro before
  let rest := expandFrom width (before.length + (part width before.length c).length)
    (left.length + 1 + 1) right
  refine ⟨rest.text, (expandFrom width 0 1 left).byteColumns, rest.columns, ?_,
    length_byteColumns .., ?_, ?_⟩
  · rw [same, expandFrom_append, expandFrom_cons]
    simp only [Nat.zero_add, Nat.add_comm 1, List.append_assoc, before, rest]
  · intro place member
    have bounds := mem_byteColumns member
    omega
  · intro place member
    have bounds := mem_columns member
    omega

theorem zip_filterMap_eq_nil {bytes : List UInt8} {columns : List Nat}
    (others : ∀ place ∈ columns, place ≠ column) :
    ((bytes.zip columns).filterMap fun pair => if pair.2 = column then some pair.1 else none) =
      [] := by
  refine List.filterMap_eq_nil_iff.mpr ?_
  intro pair member
  exact if_neg (others pair.2 (List.of_mem_zip member).2)

theorem zip_filterMap_replicate {bytes : List UInt8} {count : Nat} (enough : bytes.length = count) :
    ((bytes.zip (List.replicate count column)).filterMap fun pair =>
      if pair.2 = column then some pair.1 else none) = bytes := by
  subst enough
  induction bytes with
  | nil => rfl
  | cons byte rest ih => simpa [List.replicate_succ] using ih

theorem bytesAt_part (width : Nat) {left right : Text} (same : text = left ++ c :: right) :
    (expandFrom width 0 1 text).bytesAt (left.length + 1) =
      Text.bytes (part width (expandFrom width 0 1 left).text.length c) := by
  obtain ⟨after, earlier, later, whole, length, low, high⟩ := exists_part width same
  have widths : (Text.bytes (expandFrom width 0 1 left).text).length = earlier.length := by
    rw [Text.length_bytes, length]
  rw [whole, bytesAt]
  simp only [Text.bytes_append, List.append_assoc]
  rw [List.zip_append widths, List.zip_append (by simp), List.filterMap_append,
    List.filterMap_append, zip_filterMap_eq_nil fun place member => Nat.ne_of_lt (low place member),
    zip_filterMap_eq_nil fun place member => Nat.ne_of_gt (high place member),
    zip_filterMap_replicate (Text.length_bytes _), List.nil_append, List.append_nil]

theorem exists_back (width : Nat) {left right : Text} (same : text = left ++ c :: right) :
    let before := (expandFrom width 0 1 left).text
    ∃ back, (expandFrom width 0 1 text).text = (before ++ part width before.length c) ++ back ∧
      Text.size (before ++ part width before.length c) =
        (expandFrom width 0 1 text).columns.countP (· ≤ left.length + 1) := by
  intro before
  obtain ⟨after, earlier, later, whole, length, low, high⟩ := exists_part width same
  refine ⟨after, by rw [whole], ?_⟩
  have all : earlier.countP (· ≤ left.length + 1) = earlier.length :=
    List.countP_eq_length.mpr fun place member => by
      simpa using Nat.le_of_lt (low place member)
  have none : later.countP (· ≤ left.length + 1) = 0 :=
    List.countP_eq_zero.mpr fun place member => by simpa using high place member
  rw [whole, List.countP_append, List.countP_append, all, none, length, Text.size_append]
  simp [List.countP_replicate, before]

/-- The line is restored from the columns at which a part begins. `last` is the column of the part
before. -/
def restoreFrom (isTab : Nat → Bool) : Nat → Text → List Nat → Text
  | last, c :: rest, column :: columns =>
    let later := restoreFrom isTab column rest ((column :: columns).drop c.utf8Size)
    if column = last then later else (if isTab column then '\t' else c) :: later
  | _, _, _ => []

def restore (expansion : Expansion) (isTab : Nat → Bool) : Text :=
  restoreFrom isTab 0 expansion.text expansion.columns

section
variable (isTab : Nat → Bool) (rest : Text) (columns : List Nat)

theorem restoreFrom_cons (last : Nat) (c : Char) (column : Nat) :
    restoreFrom isTab last (c :: rest) (List.replicate c.utf8Size column ++ columns) =
      if column = last then restoreFrom isTab column rest columns
      else (if isTab column then '\t' else c) :: restoreFrom isTab column rest columns := by
  obtain ⟨more, size⟩ := Nat.exists_eq_succ_of_ne_zero (Nat.ne_of_gt (Char.utf8Size_pos c))
  have dropped : (column :: (List.replicate more column ++ columns)).drop (more + 1) = columns := by
    simp
  rw [size, List.replicate_succ, List.cons_append, restoreFrom]
  simp only [size, dropped]

theorem restoreFrom_spaces (count column : Nat) :
    restoreFrom isTab column (List.replicate count ' ' ++ rest)
        (List.replicate count column ++ columns) = restoreFrom isTab column rest columns := by
  induction count with
  | zero => rfl
  | succ count ih =>
    have step := restoreFrom_cons isTab (List.replicate count ' ' ++ rest)
      (List.replicate count column ++ columns) column ' ' column
    rw [if_pos rfl, ih] at step
    exact step

end

theorem restoreFrom_part {isTab : Nat → Bool} {last : Nat} (positive : 0 < width)
    (new : column ≠ last) (tab : isTab column = true ↔ c = '\t') (seen : Nat) (rest : Text)
    (columns : List Nat) :
    restoreFrom isTab last (part width seen c ++ rest)
        (List.replicate (Text.size (part width seen c)) column ++ columns) =
      c :: restoreFrom isTab column rest columns := by
  by_cases wasTab : c = '\t'
  · obtain ⟨more, fill⟩ : ∃ more, width - seen % width = more + 1 :=
      ⟨width - seen % width - 1, by have room := Nat.mod_lt seen positive; omega⟩
    have step := restoreFrom_cons isTab (List.replicate more ' ' ++ rest)
      (List.replicate more column ++ columns) last ' ' column
    rw [if_neg new, if_pos (tab.mpr wasTab), restoreFrom_spaces] at step
    rw [part, if_pos wasTab, (Text.replicate_plain _).size_eq_length, List.length_replicate, fill,
      wasTab]
    exact step
  · have noTab : isTab column = false := by
      rw [← Bool.not_eq_true, tab]
      exact wasTab
    have step := restoreFrom_cons isTab rest columns last c column
    rw [if_neg new, noTab] at step
    rw [part, if_neg wasTab]
    exact step

theorem restoreFrom_expandFrom {isTab : Nat → Bool} (positive : 0 < width) (seen : Nat)
    {last : Nat} (new : last < column)
    (tabs : ∀ index, isTab (column + index) = true ↔ text[index]? = some '\t') :
    restoreFrom isTab last (expandFrom width seen column text).text
      (expandFrom width seen column text).columns = text := by
  induction text generalizing seen column last with
  | nil => rfl
  | cons c rest ih =>
    have first : isTab column = true ↔ c = '\t' := by simpa using tabs 0
    rw [expandFrom_cons, restoreFrom_part positive (Nat.ne_of_gt new) first,
      ih _ (Nat.lt_succ_self column) fun index => ?_]
    simpa [Nat.add_assoc, Nat.add_comm 1] using tabs (index + 1)

/-- What expansion to tab stops keeps of a text: one column for every byte, and in the bytes of each
column the character that was there, or spaces up to a tab stop where it was a tab. -/
structure Exact (expansion : Expansion) (text : Text) (width : Nat) : Prop where
  noTab : '\t' ∉ expansion.text
  length : expansion.columns.length = Text.size expansion.text + 1
  steps : expansion.columns.IsChain fun left right => left ≤ right ∧ right ≤ left + 1
  last : expansion.columns.getLast? = some (text.length + 1)
  character : ∀ index c, text[index]? = some c → c ≠ '\t' →
    expansion.bytesAt (index + 1) = String.utf8EncodeChar c
  tab : ∀ index, text[index]? = some '\t' →
    (∃ fill, 1 ≤ fill ∧ fill ≤ width ∧
      expansion.bytesAt (index + 1) = List.replicate fill ' '.toUInt8) ∧
    ∃ front back, expansion.text = front ++ back ∧
      Text.size front = expansion.columns.countP (· ≤ index + 1) ∧ width ∣ front.length

theorem exact_expandFrom (positive : 0 < width) (text : Text) :
    (expandFrom width 0 1 text).Exact text width := by
  constructor
  case noTab =>
    intro isTab
    rcases mem_text isTab with space | ⟨_, notTab⟩
    · exact absurd space (by decide)
    · exact notTab rfl
  case length =>
    rw [columns_eq, List.length_append, length_byteColumns]
    rfl
  case steps => exact (columns_isChain positive 0 1 text).1
  case last =>
    rw [columns_eq, List.getLast?_concat, Nat.add_comm]
  case character =>
    intro index c found notTab
    obtain ⟨inside, rfl⟩ := List.getElem?_eq_some_iff.mp found
    have split := List.take_append_drop index text
    rw [List.drop_eq_getElem_cons inside] at split
    have bytes := bytesAt_part width split.symm
    rw [List.length_take, Nat.min_eq_left (Nat.le_of_lt inside), part, if_neg notTab] at bytes
    rw [bytes]
    exact List.append_nil _
  case tab =>
    intro index found
    obtain ⟨inside, isTab⟩ := List.getElem?_eq_some_iff.mp found
    have split := List.take_append_drop index text
    rw [List.drop_eq_getElem_cons inside, isTab] at split
    have bytes := bytesAt_part width split.symm
    obtain ⟨back, whole, size⟩ := exists_back width split.symm
    rw [List.length_take, Nat.min_eq_left (Nat.le_of_lt inside)] at bytes size
    have room := Nat.mod_lt (expandFrom width 0 1 (text.take index)).text.length positive
    refine ⟨⟨_, ?_, ?_, bytes.trans (Text.bytes_spaces _)⟩, _, back, whole, size, ?_⟩
    · omega
    · omega
    · have stop := Nat.div_add_mod (expandFrom width 0 1 (text.take index)).text.length width
      refine ⟨(expandFrom width 0 1 (text.take index)).text.length / width + 1, ?_⟩
      rw [List.length_append, part, if_pos rfl, List.length_replicate, Nat.mul_succ]
      omega

end Expansion

def tabColumns (text : Text) (column : Nat) : Bool :=
  column != 0 && text[column - 1]? == some '\t'

/-- Whatever the text and the tab width, expansion is exact, and the text is restored from the
expanded text, its columns and the columns of the tabs. A text without tabs is expanded to itself,
so to expand once more changes nothing. -/
theorem expandTabs_exact (text : Text) (tabWidth : Nat) :
    (expandTabs text tabWidth).Exact text (max tabWidth 1) ∧
      (expandTabs text tabWidth).restore (tabColumns text) = text ∧
      ('\t' ∉ text → (expandTabs text tabWidth).text = text) ∧
      ∀ again, (expandTabs (expandTabs text tabWidth).text again).text =
        (expandTabs text tabWidth).text := by
  have positive : 0 < max tabWidth 1 := by omega
  have isExact := Expansion.exact_expandFrom positive text
  refine ⟨isExact, ?_, Expansion.expandFrom_text _ _ _, fun again =>
    Expansion.expandFrom_text _ _ _ isExact.noTab⟩
  refine Expansion.restoreFrom_expandFrom positive 0 (Nat.lt_succ_self 0) fun index => ?_
  simp [tabColumns, Nat.add_comm 1]

end BlockLint
