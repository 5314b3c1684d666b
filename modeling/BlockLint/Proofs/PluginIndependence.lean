import BlockLint.Proofs.Scan
import BlockLint.Rule
import Mathlib

/-!
Plugins do not interfere. In a scan by plugins that never fail, each of them finds what it finds
alone, and disabling one takes away its violations and leaves the others as they stand.

Violations are told apart by the ids of their plugins in upper case, so the ids must differ in more
than the case of their letters. What is in order is fixed by its parts, which turns facts on single
plugins into one on the whole list.
-/
namespace BlockLint

namespace Text

theorem sameIgnoringCase_of_upperAscii {left right : Text}
    (same : upperAscii left = upperAscii right) : sameIgnoringCase left right = true := by
  have lowered := congrArg (List.map Char.toLower) same
  simpa [upperAscii, sameIgnoringCase, Function.comp_def] using lowered

/-- The text is a start of the other, or has the lesser character where they first differ. -/
def Precedes (left right : Text) : Prop :=
  left = right ∨ List.Lex (fun c d => c.toNat < d.toNat) left right

theorem precedes_of_lexicographic {left right : Text}
    (le : lexicographic Nat.ble (left.map Char.toNat) (right.map Char.toNat) = true) :
    left.Precedes right :=
  lex_of_lexicographic (fun _ _ => Char.toNat_inj.mp) toNat_lt_of_ble le

end Text

namespace Violation

/-- By line, then by column, then by rule. -/
def Precedes (earlier later : Violation) : Prop :=
  earlier.position.line < later.position.line ∨
    earlier.position.line = later.position.line ∧
      (earlier.position.column < later.position.column ∨
        earlier.position.column = later.position.column ∧
          Text.Precedes earlier.ruleId later.ruleId)

theorem precedes_of_key {earlier later : Violation}
    (le : SortKey.le earlier.key later.key = true) : earlier.Precedes later := by
  have number {m n : Nat} (differ : m ≠ n) (le : lexicographic Nat.ble [m] [n] = true) : m < n := by
    rw [lexicographic, if_neg differ] at le
    have less := Nat.le_of_ble_eq_true le
    omega
  unfold SortKey.le key at le
  by_cases line : earlier.position.line = later.position.line
  · rw [lexicographic, if_pos (by rw [line])] at le
    refine .inr ⟨line, ?_⟩
    by_cases column : earlier.position.column = later.position.column
    · rw [lexicographic, if_pos (by rw [column]), lexicographic] at le
      refine .inr ⟨column, ?_⟩
      split at le
      · rename_i same
        exact .inl ((List.map_inj_right fun c d => Char.toNat_inj.mp).mp same)
      · exact Text.precedes_of_lexicographic le
    · rw [lexicographic, if_neg (by simpa using column)] at le
      exact .inl (number column le)
  · rw [lexicographic, if_neg (by simpa using line)] at le
    exact .inl (number line le)

theorem ruleId_of_key {a b : Violation} (same : a.key = b.key) : a.ruleId = b.ruleId := by
  simp only [key, List.cons.injEq, and_true] at same
  exact (List.map_inj_right fun c d => Char.toNat_inj.mp).mp same.2.2

end Violation

namespace Plugin

def NeverFails (plugin : Plugin) : Prop :=
  ∀ calls, ∃ findings, plugin.Answers calls findings

end Plugin

namespace Registry

/-- No two ids are the same but for the case of their letters. -/
def DistinctIds (registry : Registry) : Prop :=
  registry.plugins.Pairwise fun earlier later =>
    Text.sameIgnoringCase earlier.plugin.info.id later.plugin.info.id = false

theorem DistinctIds.ruleIds {registry : Registry} (distinct : registry.DistinctIds) :
    (registry.plugins.map Registered.ruleId).Nodup := by
  refine List.pairwise_map.mpr (distinct.imp ?_)
  intro earlier later differ same
  rw [Text.sameIgnoringCase_of_upperAscii same] at differ
  cases differ

theorem scan_alone {plugin : Plugin} {source : Source} {tokens : List Token}
    {findings : List Finding}
    (answers : plugin.Answers (Registered.calls ⟨plugin, true⟩ source tokens) findings) :
    ((Registry.mk [⟨plugin, true⟩]).scan source tokens).outcome =
      .ok (Violation.sort (findings.map (plugin.info.violation source))) := by
  have distinct : ((Registry.mk [⟨plugin, true⟩]).plugins.map Registered.ruleId).Nodup :=
    List.pairwise_singleton _ _
  have answered : ∀ registered ∈ (Registry.mk [⟨plugin, true⟩]).plugins,
      ∃ findings, registered.plugin.Answers (registered.calls source tokens) findings := by
    intro registered member
    cases List.mem_singleton.mp member
    exact ⟨findings, answers⟩
  obtain ⟨violations, outcome, own, owned⟩ := scan_answered distinct answered
  have all : violations.filter (·.ruleId == Registered.ruleId ⟨plugin, true⟩) = violations := by
    apply List.filter_eq_self.mpr
    intro violation member
    obtain ⟨registered, isPlugin, _, named⟩ := owned violation member
    cases List.mem_singleton.mp isPlugin
    exact beq_iff_eq.mpr named
  rw [outcome, ← own _ List.mem_cons_self findings answers, all]

theorem disableFirst_split {p : Plugin → Bool} {plugins : List Registered}
    (some : plugins.any (fun registered => p registered.plugin) = true) :
    ∃ before registered after, plugins = before ++ registered :: after ∧
      (∀ other ∈ before, p other.plugin = false) ∧ p registered.plugin = true ∧
      disableFirst p plugins = before ++ { registered with enabled := false } :: after := by
  induction plugins with
  | nil => cases some
  | cons first rest ih =>
    cases answers : p first.plugin with
    | true => exact ⟨[], first, rest, rfl, by simp, answers, by simp [disableFirst, answers]⟩
    | false =>
      obtain ⟨before, registered, after, rfl, others, found, disabled⟩ :=
        ih (by simpa [answers] using some)
      refine ⟨first :: before, registered, after, rfl, ?_, found, ?_⟩
      · simpa [answers] using others
      · simp [disableFirst, answers, disabled]

section
variable {registry others : Registry} {source : Source} {tokens : List Token}

/-- Two scans whose plugins are the same but for one rule, which the second lacks. -/
theorem scan_without {rule : Text} {violations : List Violation}
    (distinct : (registry.plugins.map Registered.ruleId).Nodup)
    (distinct' : (others.plugins.map Registered.ruleId).Nodup)
    (neverFail : ∀ registered ∈ registry.plugins, registered.plugin.NeverFails)
    (neverFail' : ∀ registered ∈ others.plugins, registered.plugin.NeverFails)
    (lacks : ∀ registered ∈ others.plugins, registered.enabled = true → registered.ruleId ≠ rule)
    (same : ∀ registered : Registered, registered.ruleId ≠ rule →
      (registered ∈ others.plugins ↔ registered ∈ registry.plugins))
    (outcome : (registry.scan source tokens).outcome = .ok violations) :
    (others.scan source tokens).outcome = .ok (violations.filter (·.ruleId != rule)) := by
  obtain ⟨found, isFound, own, owned⟩ := scan_answered distinct
    fun registered member => neverFail registered member (registered.calls source tokens)
  cases isFound.symm.trans outcome
  obtain ⟨remaining, outcome', own', owned'⟩ := scan_answered distinct'
    fun registered member => neverFail' registered member (registered.calls source tokens)
  rw [outcome']
  congr 1
  apply eq_of_parts Violation.key Violation.ruleId fun a b => Violation.ruleId_of_key
  · exact perform_sorted outcome'
  · exact (perform_sorted outcome).filter _
  · intro part
    rw [List.filter_filter]
    by_cases isRule : part = rule
    · rw [List.filter_eq_nil_iff.mpr, List.filter_eq_nil_iff.mpr (by simp [isRule])]
      intro violation member named
      obtain ⟨registered, isPlugin, enabled, isOwn⟩ := owned' violation member
      have same : violation.ruleId = rule := (beq_iff_eq.mp named).trans isRule
      exact lacks registered isPlugin enabled (isOwn.symm.trans same)
    · have picked : (fun violation : Violation => violation.ruleId == part &&
          violation.ruleId != rule) = fun violation => violation.ruleId == part := by
        funext violation
        by_cases named : violation.ruleId = part
        · simp [named, isRule]
        · simp [named]
      rw [picked]
      by_cases known : ∃ registered ∈ registry.plugins, registered.ruleId = part
      · obtain ⟨registered, isPlugin, rfl⟩ := known
        obtain ⟨findings, answers⟩ :=
          neverFail registered isPlugin (registered.calls source tokens)
        rw [own registered isPlugin findings answers,
          own' registered ((same registered isRule).mpr isPlugin) findings answers]
      · rw [List.filter_eq_nil_iff.mpr, List.filter_eq_nil_iff.mpr]
        · intro violation member named
          obtain ⟨registered, isPlugin, _, isOwn⟩ := owned violation member
          exact known ⟨registered, isPlugin, isOwn.symm.trans (beq_iff_eq.mp named)⟩
        · intro violation member named
          obtain ⟨registered, isPlugin, _, isOwn⟩ := owned' violation member
          have isPart : registered.ruleId = part := isOwn.symm.trans (beq_iff_eq.mp named)
          exact known ⟨registered, (same registered (isPart ▸ isRule)).mp isPlugin, isPart⟩

theorem scan_disabled {before after : List Registered} {registered : Registered}
    {violations : List Violation} (distinct : (registry.plugins.map Registered.ruleId).Nodup)
    (neverFail : ∀ registered ∈ registry.plugins, registered.plugin.NeverFails)
    (split : registry.plugins = before ++ registered :: after)
    (disabled : others.plugins = before ++ { registered with enabled := false } :: after)
    (outcome : (registry.scan source tokens).outcome = .ok violations) :
    (others.scan source tokens).outcome =
      .ok (violations.filter (·.ruleId != registered.ruleId)) := by
  have ruleIds : others.plugins.map Registered.ruleId = registry.plugins.map Registered.ruleId := by
    simp [split, disabled, Registered.ruleId]
  have member (other : Registered) : other ∈ others.plugins ↔
      other = { registered with enabled := false } ∨ other ∈ before ++ after := by
    simp [disabled, or_left_comm]
  have member' (other : Registered) : other ∈ registry.plugins ↔
      other = registered ∨ other ∈ before ++ after := by
    simp [split, or_left_comm]
  refine scan_without distinct (ruleIds ▸ distinct) neverFail ?_ ?_ ?_ outcome
  · intro other isPlugin
    rcases (member other).mp isPlugin with rfl | isOther
    · exact neverFail registered ((member' registered).mpr (.inl rfl))
    · exact neverFail other ((member' other).mpr (.inr isOther))
  · intro other isPlugin enabled
    rcases (member other).mp isPlugin with rfl | isOther
    · cases enabled
    · rw [split, List.map_append, List.map_cons, List.perm_middle.nodup_iff, ← List.map_append]
        at distinct
      intro same
      exact (List.nodup_cons.mp distinct).1 (List.mem_map.mpr ⟨other, isOther, same⟩)
  · intro other differ
    have notThis : other ≠ registered := fun same => differ (same ▸ rfl)
    have notDisabled : other ≠ { registered with enabled := false } :=
      fun same => differ (same ▸ rfl)
    rw [member, member']
    simp only [notThis, notDisabled, false_or]

end

/-- Plugins that never fail, with ids that differ in more than case, do not interfere. The scan
finds, in order, what each enabled plugin finds when it alone is registered, and nothing else. To
disable a plugin is to take away its violations. -/
theorem scan_independent {registry : Registry}
    (neverFail : ∀ registered ∈ registry.plugins, registered.plugin.NeverFails)
    (distinct : registry.DistinctIds) (source : Source) (tokens : List Token) :
    ∃ violations, (registry.scan source tokens).outcome = .ok violations ∧
      violations.Pairwise Violation.Precedes ∧
      (∀ registered ∈ registry.plugins, registered.enabled = true →
        ∃ alone, Registry.empty.register registered.plugin = .ok alone ∧
          (alone.scan source tokens).outcome =
            .ok (violations.filter (·.ruleId == registered.ruleId))) ∧
      (∀ violation ∈ violations, ∃ registered ∈ registry.plugins,
        registered.enabled = true ∧ violation.ruleId = registered.ruleId) ∧
      ∀ name others, registry.disable name = .ok others →
        ∃ before registered after, registry.plugins = before ++ registered :: after ∧
          registered.plugin.info.answersTo name = true ∧
          others.plugins = before ++ { registered with enabled := false } :: after ∧
          (others.scan source tokens).outcome =
            .ok (violations.filter (·.ruleId != registered.ruleId)) := by
  obtain ⟨violations, outcome, own, owned⟩ := scan_answered distinct.ruleIds
    fun registered member => neverFail registered member (registered.calls source tokens)
  refine ⟨violations, outcome, ?_, ?_, owned, ?_⟩
  · exact (perform_sorted outcome).imp Violation.precedes_of_key
  · intro registered member enabled
    obtain ⟨plugin, isEnabled⟩ := registered
    cases enabled
    obtain ⟨findings, answers⟩ := neverFail _ member (Registered.calls ⟨plugin, true⟩ source tokens)
    exact ⟨⟨[⟨plugin, true⟩]⟩, rfl, by rw [scan_alone answers, own _ member findings answers]⟩
  · intro name others disabled
    unfold disable at disabled
    split at disabled
    · rename_i some
      cases disabled
      obtain ⟨before, registered, after, split, _, answers, left⟩ :=
        disableFirst_split (p := fun plugin => plugin.info.answersTo name) some
      exact ⟨before, registered, after, split, answers, left,
        scan_disabled distinct.ruleIds neverFail split left outcome⟩
    · cases disabled

/-- A counter of lines, in the middle of its count, next to a rule and to one that is disabled. -/
theorem scan_independent_counter :
    let counter : Plugin :=
      { info := ⟨"counter", [], "Lines so far"⟩, wantsLines := true, State := Nat, state := 7
        onLine := fun count number _ => (count + 1, .ok [⟨⟨number, count⟩, none⟩]) }
    let registry : Registry := ⟨[⟨counter, true⟩, ⟨Rule.hardTabs, true⟩, ⟨Rule.atxSpace, false⟩]⟩
    let others : Registry := ⟨[⟨counter, false⟩, ⟨Rule.hardTabs, true⟩, ⟨Rule.atxSpace, false⟩]⟩
    let source := Source.ofText "a\tb\n\tc" 4
    let tab (line column offset : Nat) : Violation :=
      ⟨"MD010", "no-hard-tabs", "Hard tabs", ⟨line, column⟩, some offset, none⟩
    let count (line column offset : Nat) : Violation :=
      ⟨"COUNTER", "", "Lines so far", ⟨line, column⟩, some offset, none⟩
    (∀ registered ∈ registry.plugins, registered.plugin.NeverFails) ∧ registry.DistinctIds ∧
      (registry.scan source []).outcome =
        .ok [tab 1 2 1, count 1 7 3, tab 2 1 4, count 2 8 6] ∧
      (others.scan source []).outcome = .ok [tab 1 2 1, tab 2 1 4] := by
  intro counter registry others source tab count
  have neverFail : ∀ registered ∈ registry.plugins, registered.plugin.NeverFails := by
    intro registered member
    have reliable : registered.plugin.Reliable := by
      simp only [registry, List.mem_cons, List.not_mem_nil, or_false] at member
      rcases member with rfl | rfl | rfl
      all_goals exact ⟨fun _ _ _ => ⟨_, rfl⟩, fun _ _ => ⟨_, rfl⟩, fun _ _ => ⟨_, rfl⟩⟩
    exact reliable.answers
  have distinct : registry.DistinctIds := by
    simp only [DistinctIds, registry, List.pairwise_cons]
    decide
  have inOrder : Violation.sort [count 1 7 3, tab 1 2 1, count 2 8 6, tab 2 1 4] =
      [tab 1 2 1, count 1 7 3, tab 2 1 4, count 2 8 6] := by
    simp [Violation.sort, sortByKey, List.mergeSort, Violation.key, tab, count, SortKey.le,
      lexicographic]
  have found : (registry.scan source []).outcome =
      .ok (Violation.sort [count 1 7 3, tab 1 2 1, count 2 8 6, tab 2 1 4]) := rfl
  rw [inOrder] at found
  obtain ⟨violations, outcome, _, _, _, disabling⟩ :=
    scan_independent neverFail distinct source []
  cases outcome.symm.trans found
  refine ⟨neverFail, distinct, outcome, ?_⟩
  obtain ⟨before, registered, after, split, _, disabled, left⟩ := disabling "Counter" others rfl
  cases before with
  | nil =>
    cases split
    exact left
  | cons first front =>
    -- The counter itself would have stayed as it was.
    have same : (⟨counter, true⟩ : Registered) = ⟨counter, false⟩ :=
      (List.cons.inj split).1.trans (List.cons.inj disabled).1.symm
    cases congrArg Registered.enabled same

end Registry
end BlockLint
