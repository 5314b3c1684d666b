import BlockLint.Order

/-!
Sorting by keys. Keys are in a total order, so what is sorted is in order, and sorting is stable: it
does not matter whether things are picked before they are sorted or after.
-/
namespace BlockLint

structure IsOrder {α : Type} (le : α → α → Bool) : Prop where
  total : ∀ a b, (le a b || le b a) = true
  antisymm : ∀ a b, le a b = true → le b a = true → a = b
  trans : ∀ a b c, le a b = true → le b c = true → le a c = true

theorem ble_isOrder : IsOrder Nat.ble where
  total a b := by
    simp only [Bool.or_eq_true, Nat.ble_eq]
    omega
  antisymm a b left right := Nat.le_antisymm (Nat.le_of_ble_eq_true left)
    (Nat.le_of_ble_eq_true right)
  trans a b c left right := Nat.ble_eq.mpr (Nat.le_trans (Nat.le_of_ble_eq_true left)
    (Nat.le_of_ble_eq_true right))

section
variable {α : Type} [DecidableEq α] {le : α → α → Bool}

theorem lexicographic_total (order : IsOrder le) (as bs : List α) :
    (lexicographic le as bs || lexicographic le bs as) = true := by
  induction as generalizing bs with
  | nil => rfl
  | cons a as ih =>
    cases bs with
    | nil => rfl
    | cons b bs =>
      by_cases same : a = b
      · subst same
        simpa [lexicographic] using ih bs
      · simpa [lexicographic, same, Ne.symm same] using order.total a b

theorem lexicographic_antisymm (order : IsOrder le) (as bs : List α)
    (left : lexicographic le as bs = true) (right : lexicographic le bs as = true) : as = bs := by
  induction as generalizing bs with
  | nil =>
    cases bs with
    | nil => rfl
    | cons b bs => cases right
  | cons a as ih =>
    cases bs with
    | nil => cases left
    | cons b bs =>
      by_cases same : a = b
      · subst same
        simp only [lexicographic, if_true] at left right
        rw [ih bs left right]
      · simp only [lexicographic, same, Ne.symm same, if_false] at left right
        exact absurd (order.antisymm a b left right) same

theorem lexicographic_trans (order : IsOrder le) (as bs cs : List α)
    (left : lexicographic le as bs = true) (right : lexicographic le bs cs = true) :
    lexicographic le as cs = true := by
  induction as generalizing bs cs with
  | nil => rfl
  | cons a as ih =>
    rcases bs with _ | ⟨b, bs⟩
    · cases left
    · rcases cs with _ | ⟨c, cs⟩
      · cases right
      · unfold lexicographic at left right ⊢
        by_cases first : a = b
        · by_cases second : b = c
          · rw [if_pos first] at left
            rw [if_pos second] at right
            rw [if_pos (first.trans second)]
            exact ih bs cs left right
          · rw [if_neg second] at right
            rw [if_neg (first ▸ second), first]
            exact right
        · rw [if_neg first] at left
          by_cases second : b = c
          · rw [if_neg (second ▸ first), ← second]
            exact left
          · rw [if_neg second] at right
            have ends : a ≠ c := by
              rintro rfl
              exact first (order.antisymm a b left right)
            rw [if_neg ends]
            exact order.trans a b c left right

theorem lexicographic_isOrder (order : IsOrder le) : IsOrder (lexicographic le) :=
  ⟨lexicographic_total order, lexicographic_antisymm order, lexicographic_trans order⟩

theorem lex_of_lexicographic {β : Type} {key : β → α} {before : β → β → Prop}
    (told : ∀ a b, key a = key b → a = b)
    (less : ∀ a b, key a ≠ key b → le (key a) (key b) = true → before a b) {as bs : List β}
    (ordered : lexicographic le (as.map key) (bs.map key) = true) :
    as = bs ∨ List.Lex before as bs := by
  induction as generalizing bs with
  | nil =>
    cases bs with
    | nil => exact .inl rfl
    | cons b bs => exact .inr .nil
  | cons a as ih =>
    cases bs with
    | nil => cases ordered
    | cons b bs =>
      simp only [List.map_cons, lexicographic] at ordered
      split at ordered
      · rename_i same
        cases told a b same
        rcases ih ordered with rfl | later
        · exact .inl rfl
        · exact .inr (.cons later)
      · exact .inr (.rel (less a b ‹_› ordered))

end

theorem toNat_lt_of_ble (c d : Char) (differ : c.toNat ≠ d.toNat)
    (le : Nat.ble c.toNat d.toNat = true) : c.toNat < d.toNat :=
  Nat.lt_of_le_of_ne (Nat.le_of_ble_eq_true le) differ

theorem SortKey.le_isOrder : IsOrder SortKey.le :=
  lexicographic_isOrder (lexicographic_isOrder ble_isOrder)

section
variable {α : Type} (key : α → SortKey)

theorem key_total (a b : α) :
    (SortKey.le (key a) (key b) || SortKey.le (key b) (key a)) = true :=
  SortKey.le_isOrder.total _ _

theorem key_trans (a b c : α) (left : SortKey.le (key a) (key b) = true)
    (right : SortKey.le (key b) (key c) = true) : SortKey.le (key a) (key c) = true :=
  SortKey.le_isOrder.trans _ _ _ left right

theorem sortByKey_pairwise (items : List α) :
    (sortByKey key items).Pairwise fun a b => SortKey.le (key a) (key b) = true :=
  List.pairwise_mergeSort (key_trans key) (key_total key) items

@[simp] theorem mem_sortByKey {items : List α} {item : α} :
    item ∈ sortByKey key items ↔ item ∈ items :=
  List.mem_mergeSort

theorem sortByKey_cons (item : α) (items : List α) :
    ∃ before after, sortByKey key (item :: items) = before ++ item :: after ∧
      sortByKey key items = before ++ after ∧
      (∀ other ∈ before, SortKey.le (key item) (key other) = false) ∧
      ∀ other ∈ after, SortKey.le (key item) (key other) = true := by
  obtain ⟨before, after, whole, rest, earlier⟩ :=
    List.mergeSort_cons (key_trans key) (key_total key) item items
  refine ⟨before, after, whole, rest, by simpa using earlier, ?_⟩
  have sorted := sortByKey_pairwise key (item :: items)
  rw [show sortByKey key (item :: items) = before ++ item :: after from whole] at sorted
  exact (List.pairwise_cons.mp (List.pairwise_append.mp sorted).2.1).1

theorem parts_unique {item : α} {before after before' after' : List α}
    (same : before ++ after = before' ++ after')
    (early : ∀ other ∈ before, SortKey.le (key item) (key other) = false)
    (late : ∀ other ∈ after, SortKey.le (key item) (key other) = true)
    (early' : ∀ other ∈ before', SortKey.le (key item) (key other) = false)
    (late' : ∀ other ∈ after', SortKey.le (key item) (key other) = true) :
    before = before' ∧ after = after' := by
  have picked (left right : List α)
      (isEarly : ∀ other ∈ left, SortKey.le (key item) (key other) = false)
      (isLate : ∀ other ∈ right, SortKey.le (key item) (key other) = true) :
      (left ++ right).filter (fun other => !SortKey.le (key item) (key other)) = left := by
    rw [List.filter_append, List.filter_eq_self.mpr (by simpa using isEarly),
      List.filter_eq_nil_iff.mpr (by simpa using isLate), List.append_nil]
  have first : before = before' := by
    rw [← picked before after early late, same, picked before' after' early' late']
  subst first
  exact ⟨rfl, List.append_cancel_left same⟩

theorem filter_sortByKey (p : α → Bool) (items : List α) :
    (sortByKey key items).filter p = sortByKey key (items.filter p) := by
  induction items with
  | nil => simp [sortByKey]
  | cons item rest ih =>
    obtain ⟨before, after, whole, others, early, late⟩ := sortByKey_cons key item rest
    rw [others, List.filter_append] at ih
    rw [whole, List.filter_append]
    cases picked : p item with
    | false =>
      rw [List.filter_cons_of_neg (by simp [picked]), List.filter_cons_of_neg (by simp [picked])]
      exact ih
    | true =>
      rw [List.filter_cons_of_pos picked, List.filter_cons_of_pos picked]
      obtain ⟨before', after', whole', others', early', late'⟩ :=
        sortByKey_cons key item (rest.filter p)
      obtain ⟨rfl, rfl⟩ := parts_unique key (ih.trans others')
        (fun other member => early other (List.mem_filter.mp member).1)
        (fun other member => late other (List.mem_filter.mp member).1) early' late'
      exact whole'.symm

/-- What is in order is told by its parts, if things of one key are of one part. -/
theorem eq_of_parts {γ : Type} [BEq γ] [LawfulBEq γ] (part : α → γ)
    (told : ∀ a b, key a = key b → part a = part b) {left right : List α}
    (sorted : left.Pairwise fun a b => SortKey.le (key a) (key b) = true)
    (sorted' : right.Pairwise fun a b => SortKey.le (key a) (key b) = true)
    (same : ∀ p, left.filter (part · == p) = right.filter (part · == p)) : left = right := by
  induction left generalizing right with
  | nil =>
    cases right with
    | nil => rfl
    | cons b bs => simpa using same (part b)
  | cons a as ih =>
    cases right with
    | nil => simpa using same (part a)
    | cons b bs =>
      have inRight : a ∈ b :: bs := by
        have own : a ∈ (a :: as).filter (part · == part a) := by simp
        rw [same] at own
        exact (List.mem_filter.mp own).1
      have inLeft : b ∈ a :: as := by
        have own : b ∈ (b :: bs).filter (part · == part b) := by simp
        rw [← same] at own
        exact (List.mem_filter.mp own).1
      obtain ⟨first, others⟩ := List.pairwise_cons.mp sorted
      obtain ⟨first', others'⟩ := List.pairwise_cons.mp sorted'
      -- Each of the two heads is in the other list, so neither comes first.
      have heads : a = b := by
        rcases List.mem_cons.mp inRight with rfl | later
        · rfl
        rcases List.mem_cons.mp inLeft with rfl | later'
        · rfl
        have keys : key a = key b :=
          SortKey.le_isOrder.antisymm _ _ (first b later') (first' a later)
        have tops := congrArg List.head? (same (part a))
        rw [List.filter_cons_of_pos (by simp),
          List.filter_cons_of_pos (by simp [told a b keys])] at tops
        exact Option.some.inj tops
      subst heads
      refine congrArg (a :: ·) (ih others others' ?_)
      intro p
      have tails := same p
      by_cases own : part a = p
      · rw [List.filter_cons_of_pos (by simp [own]), List.filter_cons_of_pos (by simp [own])]
          at tails
        exact List.tail_eq_of_cons_eq tails
      · rwa [List.filter_cons_of_neg (by simp [own]), List.filter_cons_of_neg (by simp [own])]
          at tails

end
end BlockLint
