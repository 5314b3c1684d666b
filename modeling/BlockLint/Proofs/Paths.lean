import BlockLint.Files
import BlockLint.Proofs.Sorting
import Mathlib.Data.List.Lex
import Mathlib.Data.List.Sort
import Mathlib.Data.List.TakeWhile

/-!
Paths by their components. Paths that are sorted and then rid of repetitions go up strictly in the
order of components. A name joined to a folder is the last component, and its extension is what
follows its last dot.
-/
namespace BlockLint

namespace Component

/-- The root comes first, then the dot, then two dots, and names last. -/
def rank : Component → Nat
  | .root => 0
  | .current => 1
  | .parent => 2
  | .named _ => 3

inductive Before : Component → Component → Prop where
  | rank {earlier later : Component} : earlier.rank < later.rank → Before earlier later
  | name {earlier later : Text} : List.Lex (fun c d => c.toNat < d.toNat) earlier later →
      Before (.named earlier) (.named later)

instance : Std.Asymm (fun c d : Char => c.toNat < d.toNat) :=
  ⟨fun _ _ less more => Nat.lt_asymm less more⟩

instance : Std.Asymm Before where
  asymm earlier later before after := by
    cases before with
    | rank less =>
      cases after with
      | rank more => exact Nat.lt_asymm less more
      | name _ => exact Nat.lt_irrefl _ less
    | name less =>
      cases after with
      | rank more => exact Nat.lt_irrefl _ more
      | name more => exact asymm less more

theorem exists_key (component : Component) :
    ∃ rest, component.key = component.rank :: rest := by
  cases component <;> exact ⟨_, rfl⟩

theorem eq_of_key {left right : Component} (same : left.key = right.key) : left = right := by
  cases left <;> cases right <;> simp_all [key]
  exact (List.map_inj_right fun c d => Char.toNat_inj.mp).mp same

theorem before_of_key {left right : Component} (differ : left.key ≠ right.key)
    (le : lexicographic Nat.ble left.key right.key = true) : left.Before right := by
  obtain ⟨rest, isKey⟩ := exists_key left
  obtain ⟨rest', isKey'⟩ := exists_key right
  by_cases ranks : left.rank = right.rank
  · cases left <;> cases right <;> simp [rank, key] at ranks differ
    rename_i name other
    simp only [key, lexicographic, if_true] at le
    rcases lex_of_lexicographic (fun _ _ => Char.toNat_inj.mp) toNat_lt_of_ble le with
      same | less
    · exact absurd (congrArg (List.map Char.toNat) same) differ
    · exact .name less
  · rw [isKey, isKey', lexicographic, if_neg ranks] at le
    have less := Nat.le_of_ble_eq_true le
    exact .rank (by omega)

end Component

namespace FilePath

/-- The order of paths: at the first component where they differ. -/
def Before (earlier later : FilePath) : Prop :=
  List.Lex Component.Before (components earlier) (components later)

def Same (path other : FilePath) : Prop :=
  components path = components other

theorem key_eq_iff {path other : FilePath} : key path = key other ↔ path.Same other :=
  List.map_inj_right fun _ _ => Component.eq_of_key

theorem before_of_key {earlier later : FilePath} (differ : ¬ earlier.Same later)
    (le : SortKey.le (key earlier) (key later) = true) : earlier.Before later := by
  rcases lex_of_lexicographic (fun _ _ => Component.eq_of_key)
    (fun _ _ => Component.before_of_key) le with same | before
  · exact absurd same differ
  · exact before

/-- In the order of sorting, and not the same path. -/
def Precedes (earlier later : FilePath) : Prop :=
  SortKey.le (key earlier) (key later) = true ∧ key earlier ≠ key later

section
variable {last path : FilePath} {paths : List FilePath}

theorem dropRepeatsAfter_sublist (last : FilePath) (paths : List FilePath) :
    (dropRepeatsAfter last paths).Sublist paths := by
  induction paths generalizing last with
  | nil => exact .slnil
  | cons path rest ih =>
    rw [dropRepeatsAfter]
    split
    · exact (ih last).cons path
    · exact (ih path).cons_cons path

-- What is left stands behind `last` and differs from it, by what was dropped before.
theorem dropRepeatsAfter_precedes
    (sorted : (last :: paths).Pairwise fun a b => SortKey.le (key a) (key b) = true) :
    (last :: dropRepeatsAfter last paths).Pairwise Precedes := by
  induction paths generalizing last with
  | nil => exact List.pairwise_singleton _ _
  | cons path rest ih =>
    obtain ⟨first, later⟩ := List.pairwise_cons.mp sorted
    rw [dropRepeatsAfter]
    split
    · apply ih
      exact List.pairwise_cons.mpr
        ⟨fun other isLater => first other (List.mem_cons_of_mem _ isLater),
          (List.pairwise_cons.mp later).2⟩
    · rename_i differ
      have others := ih later
      refine List.pairwise_cons.mpr ⟨?_, others⟩
      have here : SortKey.le (key last) (key path) = true := first path List.mem_cons_self
      intro other member
      rcases List.mem_cons.mp member with rfl | isLater
      · exact ⟨here, Ne.symm differ⟩
      · obtain ⟨le, unequal⟩ := (List.pairwise_cons.mp others).1 other isLater
        refine ⟨SortKey.le_isOrder.trans _ _ _ here le, ?_⟩
        intro same
        rw [← same] at le
        exact differ (SortKey.le_isOrder.antisymm _ _ le here)

theorem exists_same_dropRepeatsAfter (member : path ∈ paths) (last : FilePath) :
    ∃ kept ∈ last :: dropRepeatsAfter last paths, kept.Same path := by
  induction paths generalizing last with
  | nil => cases member
  | cons next rest ih =>
    rw [dropRepeatsAfter]
    split
    · rename_i repeated
      rcases List.mem_cons.mp member with rfl | later
      · exact ⟨last, List.mem_cons_self, key_eq_iff.mp repeated.symm⟩
      · exact ih later last
    · rcases List.mem_cons.mp member with rfl | later
      · exact ⟨path, by simp, rfl⟩
      · obtain ⟨kept, isKept, same⟩ := ih later next
        exact ⟨kept, List.mem_cons_of_mem _ isKept, same⟩

end

section
variable {path : FilePath} {paths : List FilePath}

theorem mem_of_mem_dropRepeats (member : path ∈ dropRepeats paths) : path ∈ paths := by
  cases paths with
  | nil => cases member
  | cons first rest => exact ((dropRepeatsAfter_sublist first rest).cons_cons first).mem member

theorem exists_same_dropRepeats (member : path ∈ paths) :
    ∃ kept ∈ dropRepeats paths, kept.Same path := by
  cases paths with
  | nil => cases member
  | cons first rest =>
    rcases List.mem_cons.mp member with rfl | later
    · exact ⟨path, List.mem_cons_self, rfl⟩
    · exact exists_same_dropRepeatsAfter later first

theorem dropRepeats_sort_before (paths : List FilePath) :
    (dropRepeats (sort paths)).Pairwise Before := by
  have sorted := sortByKey_pairwise key paths
  have strict : (dropRepeats (sort paths)).Pairwise Precedes := by
    rw [sort]
    cases isSorted : sortByKey key paths with
    | nil => exact .nil
    | cons first rest => exact dropRepeatsAfter_precedes (isSorted ▸ sorted)
  apply strict.imp
  intro earlier later ⟨le, differ⟩
  exact before_of_key (fun same => differ (key_eq_iff.mpr same)) le

theorem exists_mem_dropRepeats_sort {steps : List Component} :
    (∃ path ∈ dropRepeats (sort paths), components path = steps) ↔
      ∃ path ∈ paths, components path = steps := by
  constructor
  · rintro ⟨path, member, rfl⟩
    exact ⟨path, (mem_sortByKey key).mp (mem_of_mem_dropRepeats member), rfl⟩
  · rintro ⟨path, member, rfl⟩
    exact exists_same_dropRepeats ((mem_sortByKey key).mpr member)

/-- What goes up strictly is fixed by the paths it holds. -/
theorem components_dropRepeats_sort {others : List FilePath}
    (same : ∀ path, path ∈ paths ↔ path ∈ others) :
    (dropRepeats (sort paths)).map components = (dropRepeats (sort others)).map components := by
  have strict (paths : List FilePath) :
      ((dropRepeats (sort paths)).map components).Pairwise (List.Lex Component.Before) :=
    List.pairwise_map.mpr (dropRepeats_sort_before paths)
  apply (strict paths).eq_of_mem_iff (strict others)
  intro steps
  simp only [List.mem_map, exists_mem_dropRepeats_sort, same]

end

end FilePath

namespace Text

theorem split_ne_nil (separator : Char) (text : Text) : split separator text ≠ [] := by
  cases text with
  | nil => exact List.cons_ne_nil _ _
  | cons c rest =>
    change prependPart separator c (split separator rest) ≠ []
    unfold prependPart
    repeat' split
    all_goals exact List.cons_ne_nil _ _

theorem split_of_not_mem {separator : Char} {text : Text} (absent : separator ∉ text) :
    split separator text = [text] := by
  induction text with
  | nil => rfl
  | cons c rest ih =>
    have differ : c ≠ separator := fun same => absent (same ▸ List.mem_cons_self)
    change prependPart separator c (split separator rest) = _
    rw [ih fun later => absent (List.mem_cons_of_mem _ later)]
    exact if_neg differ

theorem split_append (separator : Char) (left right : Text) :
    split separator (left ++ separator :: right) =
      split separator left ++ split separator right := by
  induction left with
  | nil =>
    change prependPart separator separator (split separator right) = _
    cases parts : split separator right with
    | nil => exact absurd parts (split_ne_nil _ _)
    | cons part others => exact if_pos rfl
  | cons c rest ih =>
    change prependPart separator c (split separator (rest ++ separator :: right)) =
      prependPart separator c (split separator rest) ++ _
    rw [ih]
    cases parts : split separator rest with
    | nil => exact absurd parts (split_ne_nil _ _)
    | cons part others =>
      simp only [List.cons_append, prependPart]
      split <;> rfl

end Text

namespace FilePath

structure IsName (name : Text) : Prop where
  filled : name ≠ []
  noSlash : '/' ∉ name
  notDot : name ≠ ['.']
  notDots : name ≠ ['.', '.']

instance (name : Text) : Decidable (IsName name) :=
  decidable_of_iff (name ≠ [] ∧ '/' ∉ name ∧ name ≠ ['.'] ∧ name ≠ ['.', '.'])
    ⟨fun ⟨filled, noSlash, notDot, notDots⟩ => ⟨filled, noSlash, notDot, notDots⟩,
      fun isName => ⟨isName.filled, isName.noSlash, isName.notDot, isName.notDots⟩⟩

theorem IsName.ofPart? {name : Text} (isName : IsName name) :
    Component.ofPart? name = some (.named name) := by
  simp [Component.ofPart?, isName.filled, isName.notDot, isName.notDots]

theorem exists_join (folder : FilePath) (name : Text) :
    join folder name = name ∨ ∃ front, join folder name = front ++ '/' :: name := by
  unfold join
  split
  · rename_i bare
    rcases List.eq_nil_or_concat folder with rfl | ⟨front, last, rfl⟩
    · exact .inl rfl
    · have isSlash : last = '/' := by simpa using bare
      exact .inr ⟨front, by simp [isSlash]⟩
  · exact .inr ⟨folder, by simp⟩

theorem exists_components (path : FilePath) :
    ∃ first, components path = first ++ (Text.split '/' path).filterMap Component.ofPart? :=
  ⟨_, rfl⟩

theorem fileName?_join (folder : FilePath) {name : Text} (isName : IsName name) :
    fileName? (join folder name) = some name := by
  have last : ∃ front, components (join folder name) = front ++ [.named name] := by
    obtain ⟨first, steps⟩ := exists_components (join folder name)
    rw [steps]
    rcases exists_join folder name with same | ⟨front, same⟩
    · rw [same, Text.split_of_not_mem isName.noSlash]
      exact ⟨first, by simp [isName.ofPart?]⟩
    · rw [same, Text.split_append, Text.split_of_not_mem isName.noSlash, List.filterMap_append,
        ← List.append_assoc]
      exact ⟨_, congrArg _ (by simp [isName.ofPart?])⟩
  obtain ⟨front, steps⟩ := last
  simp [fileName?, steps]

/-- What follows the last dot of a name, before which there is something. -/
def HasExtension (name extension : Text) : Prop :=
  ∃ stem, stem ≠ [] ∧ name = stem ++ '.' :: extension ∧ '.' ∉ extension

theorem extension?_eq_some_iff {name extension : Text} :
    extension? name = some extension ↔ HasExtension name extension := by
  obtain ⟨back, rfl⟩ : ∃ back, name = back.reverse := ⟨name.reverse, by simp⟩
  simp only [extension?, List.reverse_reverse, List.length_reverse]
  constructor
  · intro found
    split at found
    · cases found
    · rename_i long
      have isExtension := Option.some.inj found
      have whole := List.takeWhile_append_dropWhile (p := (· != '.')) (l := back)
      have noDot : '.' ∉ extension := by
        rw [← isExtension, List.mem_reverse]
        intro inside
        simpa using List.mem_takeWhile_imp inside
      cases rest : back.dropWhile (· != '.') with
      | nil =>
        have size := congrArg List.length whole
        rw [rest, List.append_nil] at size
        omega
      | cons dot stem =>
        have isDot : dot = '.' := by
          have first := List.head_dropWhile_not (· != '.') (rest ▸ List.cons_ne_nil dot stem)
          simpa [rest] using first
        subst isDot
        refine ⟨stem.reverse, ?_, ?_, noDot⟩
        · rintro none
          have size := congrArg List.length whole
          rw [rest, List.reverse_eq_nil_iff.mp none, List.length_append,
            List.length_singleton] at size
          omega
        · rw [← whole, rest, ← isExtension]
          simp
  · rintro ⟨stem, filled, same, noDot⟩
    have isBack : back = extension.reverse ++ '.' :: stem.reverse := by
      simpa using congrArg List.reverse same
    have before : back.takeWhile (· != '.') = extension.reverse := by
      rw [isBack, List.takeWhile_append_of_pos, List.takeWhile_cons_of_neg (by simp),
        List.append_nil]
      intro c inside
      have other : c ≠ '.' := fun isDot => noDot (List.mem_reverse.mp (isDot ▸ inside))
      simpa using other
    have some := List.length_pos_iff.mpr filled
    rw [before, if_neg, List.reverse_reverse]
    rw [isBack]
    simp only [List.length_append, List.length_cons, List.length_reverse]
    omega

/-- The name has one of the Markdown extensions, but for the case of ASCII letters. -/
def IsMarkdownName (name : Text) : Prop :=
  ∃ extension, HasExtension name extension ∧
    (extension.map Char.toLower = "md".toList ∨ extension.map Char.toLower = "markdown".toList)

theorem isMarkdown_join (folder : FilePath) {name : Text} (isName : IsName name) :
    isMarkdown (join folder name) = true ↔ IsMarkdownName name := by
  have known (extension : Text) : markdownExtensions.any (Text.sameIgnoringCase extension) = true ↔
      extension.map Char.toLower = "md".toList ∨
        extension.map Char.toLower = "markdown".toList := by
    simp [markdownExtensions, Text.sameIgnoringCase]
  unfold isMarkdown IsMarkdownName
  rw [fileName?_join folder isName, Option.bind_some]
  simp only [← extension?_eq_some_iff, ← known]
  cases extension? name <;> simp

end FilePath
end BlockLint
