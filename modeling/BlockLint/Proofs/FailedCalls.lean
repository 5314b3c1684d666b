import BlockLint.Proofs.Scan
import Mathlib.Data.List.Forall2

/-!
A call that fails cuts a scan short, and does no more. The calls that were made are the first ones
of those that a scan makes if none fails, up to the first that fails. All plugins stay registered
and enabled as they were, and the one that failed keeps what it had changed by then.

Whether a call fails is a matter of its plugin alone: what the plugin was asked before decides, and
not what was asked of others in between.
-/
namespace BlockLint

namespace Plugin

/-- The plugin in some other state. -/
def Twin (plugin other : Plugin) : Prop :=
  ∃ state, other = { plugin with state }

theorem Twin.refl (plugin : Plugin) : plugin.Twin plugin :=
  ⟨plugin.state, rfl⟩

theorem Twin.trans {first second third : Plugin} (left : first.Twin second)
    (right : second.Twin third) : first.Twin third := by
  obtain ⟨state, rfl⟩ := left
  obtain ⟨state', rfl⟩ := right
  exact ⟨state', rfl⟩

theorem Twin.info {plugin other : Plugin} (twin : plugin.Twin other) :
    other.info = plugin.info := by
  obtain ⟨state, rfl⟩ := twin
  rfl

/-- The plugin as the calls leave it, whether it answered them or failed. -/
def after (plugin : Plugin) (calls : List Call) : Plugin :=
  calls.foldl (fun plugin call => (plugin.respond call).1) plugin

theorem twin_after (plugin : Plugin) (calls : List Call) : plugin.Twin (plugin.after calls) := by
  induction calls generalizing plugin with
  | nil => exact .refl plugin
  | cons call rest ih =>
    have first : plugin.Twin (plugin.respond call).1 := exists_state_of_respond plugin call
    exact first.trans (ih _)

end Plugin

structure Registered.Twin (registered other : Registered) : Prop where
  plugin : registered.plugin.Twin other.plugin
  enabled : other.enabled = registered.enabled

theorem Registered.Twin.refl (registered : Registered) : registered.Twin registered :=
  ⟨.refl _, rfl⟩

theorem Registered.Twin.trans {first second third : Registered} (left : first.Twin second)
    (right : second.Twin third) : first.Twin third :=
  ⟨left.plugin.trans right.plugin, right.enabled.trans left.enabled⟩

namespace Registry

/-- The same plugins in the same order, each in some state. -/
def Twin (registry other : Registry) : Prop :=
  List.Forall₂ Registered.Twin registry.plugins other.plugins

theorem map_eq_of_twins {α : Type _} {f : Registered → α}
    (same : ∀ registered other : Registered, registered.Twin other → f other = f registered)
    {plugins others : List Registered} (twins : List.Forall₂ Registered.Twin plugins others) :
    others.map f = plugins.map f := by
  induction twins with
  | nil => rfl
  | cons first _ ih => rw [List.map_cons, List.map_cons, same _ _ first, ih]

theorem subscribers_of_twin {wants : Plugin → Bool}
    (same : ∀ plugin other : Plugin, plugin.Twin other → wants other = wants plugin)
    {registry other : Registry} (twin : registry.Twin other) :
    other.subscribers wants = registry.subscribers wants := by
  have numbered {plugins others : List Registered} (start : Nat)
      (twins : List.Forall₂ Registered.Twin plugins others) :
      ((others.zipIdx start).filter fun pair => pair.1.enabled && wants pair.1.plugin).map (·.2) =
        ((plugins.zipIdx start).filter fun pair =>
          pair.1.enabled && wants pair.1.plugin).map (·.2) := by
    induction twins generalizing start with
    | nil => rfl
    | cons first _ ih =>
      simp only [List.zipIdx_cons, List.filter_cons, first.enabled, same _ _ first.plugin]
      split
      · rw [List.map_cons, List.map_cons, ih]
      · exact ih _
  exact numbered 0 twin

theorem Twin.metadata {registry other : Registry} (twin : registry.Twin other) :
    other.metadata = registry.metadata := by
  apply map_eq_of_twins _ twin
  intro registered other twin
  exact twin.plugin.info

theorem Twin.lineSubscribers {registry other : Registry} (twin : registry.Twin other) :
    other.lineSubscribers = registry.lineSubscribers := by
  apply subscribers_of_twin _ twin
  rintro plugin other ⟨state, rfl⟩
  rfl

theorem Twin.tokenSubscribers {registry other : Registry} (twin : registry.Twin other) :
    other.tokenSubscribers = registry.tokenSubscribers := by
  apply subscribers_of_twin _ twin
  rintro plugin other ⟨state, rfl⟩
  rfl

theorem Twin.schedule {registry other : Registry} (twin : registry.Twin other) (source : Source)
    (tokens : List Token) : other.schedule source tokens = registry.schedule source tokens := by
  have everyone : other.subscribers (fun _ => true) = registry.subscribers fun _ => true :=
    subscribers_of_twin (fun _ _ _ => rfl) twin
  simp only [Registry.schedule, everyone, twin.lineSubscribers, twin.tokenSubscribers]

theorem twins_trans {first second third : List Registered}
    (left : List.Forall₂ Registered.Twin first second)
    (right : List.Forall₂ Registered.Twin second third) :
    List.Forall₂ Registered.Twin first third := by
  induction left generalizing third with
  | nil => exact right
  | cons twin _ ih =>
    cases right with
    | cons twin' others => exact .cons (twin.trans twin') (ih others)

/-- The plugins as the calls leave them, each by its own calls. -/
def afterCalls (plugins : List Registered) (made : List (Nat × Call)) : List Registered :=
  plugins.mapIdx fun index registered =>
    { registered with plugin := registered.plugin.after (callsTo index made) }

theorem getElem?_afterCalls (plugins : List Registered) (made : List (Nat × Call)) (index : Nat) :
    (afterCalls plugins made)[index]? = plugins[index]?.map fun registered =>
      { registered with plugin := registered.plugin.after (callsTo index made) } :=
  List.getElem?_mapIdx

theorem afterCalls_nil (plugins : List Registered) : afterCalls plugins [] = plugins := by
  refine List.ext_getElem? fun index => ?_
  rw [getElem?_afterCalls]
  cases plugins[index]? with
  | none => rfl
  | some registered => rfl

theorem afterCalls_twins (plugins : List Registered) (made : List (Nat × Call)) :
    List.Forall₂ Registered.Twin plugins (afterCalls plugins made) := by
  refine List.forall₂_iff_get.mpr ⟨List.length_mapIdx.symm, ?_⟩
  intro index _ _
  simp only [afterCalls, List.get_eq_getElem, List.getElem_mapIdx]
  exact ⟨Plugin.twin_after _ _, rfl⟩

section
variable {plugins : List Registered} {index : Nat} {registered : Registered} {call : Call}

theorem afterCalls_cons_of_none (none : plugins[index]? = none) (made : List (Nat × Call)) :
    afterCalls plugins ((index, call) :: made) = afterCalls plugins made := by
  refine List.ext_getElem? fun other => ?_
  rw [getElem?_afterCalls, getElem?_afterCalls]
  cases isPlugin : plugins[other]? with
  | none => rfl
  | some registered => rw [callsTo_cons_of_none none isPlugin]

theorem afterCalls_cons {next : Plugin} {outcome : Except Text (List Finding)}
    (called : plugins[index]? = some registered)
    (responded : registered.plugin.respond call = (next, outcome)) (made : List (Nat × Call)) :
    afterCalls plugins ((index, call) :: made) =
      afterCalls (plugins.set index { registered with plugin := next }) made := by
  refine List.ext_getElem? fun other => ?_
  rw [getElem?_afterCalls, getElem?_afterCalls, getElem?_set_of_called called]
  split
  · subst other
    rw [called, callsTo_cons_self]
    simp only [Option.map_some, Plugin.after, List.foldl_cons, responded]
  · rw [callsTo_cons_of_ne call made ‹_›]

end

/-- The plugin, as the calls `before` leave it, fails at the one that is planned next. -/
def FailsAfter (plugins : List Registered) (before : List (Nat × Call)) (planned : Nat × Call)
    (registered : Registered) (reason : Text) : Prop :=
  (afterCalls plugins before)[planned.1]? = some registered ∧
    (registered.plugin.respond planned.2).2 = .error reason

/-- The scan has made the calls up to the first that failed, after `completed` others. -/
def Cut (plugins : List Registered) (completed : Nat) (calls : List (Nat × Call)) (scan : Scan) :
    Prop :=
  ∃ made left, calls = made ++ left ∧ scan.completed = completed + made.length ∧
    (∀ before planned after, made = before ++ planned :: after → ∀ registered reason,
      ¬ FailsAfter plugins before planned registered reason) ∧
    (left = [] ∧ (∃ violations, scan.outcome = .ok violations) ∧
        scan.registry.plugins = afterCalls plugins made ∨
      ∃ failing rest registered reason, left = failing :: rest ∧
        FailsAfter plugins made failing registered reason ∧
        scan.outcome = .error (.hookFailed registered.plugin.info.id failing.2.action reason) ∧
        scan.registry.plugins = afterCalls plugins (made ++ [failing]))

theorem Cut.plugins {plugins : List Registered} {completed : Nat} {calls : List (Nat × Call)}
    {scan : Scan} (cut : Cut plugins completed calls scan) :
    ∃ made, scan.registry.plugins = afterCalls plugins made := by
  obtain ⟨made, _, _, _, _, ⟨_, _, left⟩ | ⟨failing, _, _, _, _, _, _, left⟩⟩ := cut
  · exact ⟨made, left⟩
  · exact ⟨made ++ [failing], left⟩

theorem Cut.cons {plugins others : List Registered} {completed : Nat} {first : Nat × Call}
    {calls : List (Nat × Call)} {scan : Scan}
    (passed : ∀ registered reason, ¬ FailsAfter plugins [] first registered reason)
    (leaves : ∀ made, afterCalls plugins (first :: made) = afterCalls others made)
    (cut : Cut others (completed + 1) calls scan) :
    Cut plugins completed (first :: calls) scan := by
  obtain ⟨made, left, split, count, none, ends⟩ := cut
  refine ⟨first :: made, left, congrArg _ split, ?_, ?_, ?_⟩
  · rw [count, List.length_cons]
    omega
  · intro before planned after isSplit
    cases before with
    | nil =>
      cases isSplit
      exact passed
    | cons _ before =>
      cases isSplit
      intro registered reason fails
      rw [FailsAfter, leaves] at fails
      exact none before planned after rfl registered reason fails
  · simp only [List.cons_append, FailsAfter, leaves]
    exact ends

theorem perform_cut (source : Source) (plugins : List Registered) (completed : Nat)
    (found : List Violation) (calls : List (Nat × Call)) :
    Cut plugins completed calls (perform source plugins completed found calls) := by
  induction calls generalizing plugins completed found with
  | nil =>
    refine ⟨[], [], rfl, rfl, by simp, .inl ⟨rfl, ⟨_, rfl⟩, ?_⟩⟩
    rw [afterCalls_nil]
    rfl
  | cons first rest ih =>
    obtain ⟨index, call⟩ := first
    cases called : plugins[index]? with
    | none =>
      rw [perform_of_none called]
      refine .cons ?_ (afterCalls_cons_of_none called) (ih plugins (completed + 1) found)
      rintro registered reason ⟨isPlugin, _⟩
      simp [afterCalls_nil, called] at isPlugin
    | some registered =>
      have start : (afterCalls plugins [])[index]? = some registered := by
        rw [afterCalls_nil, called]
      cases responded : registered.plugin.respond call with
      | mk next outcome =>
        have leaves := afterCalls_cons called responded
        cases outcome with
        | error reason =>
          have failed : (registered.plugin.respond call).2 = .error reason := by rw [responded]
          rw [perform_of_error called responded]
          refine ⟨[], _, rfl, rfl, by simp,
            .inr ⟨_, rest, registered, reason, rfl, ⟨start, failed⟩, rfl, ?_⟩⟩
          rw [List.nil_append, leaves, afterCalls_nil]
        | ok findings =>
          rw [perform_of_ok called responded]
          refine .cons ?_ leaves (ih _ _ _)
          rintro current reason ⟨isPlugin, failed⟩
          cases start.symm.trans isPlugin
          rw [responded] at failed
          cases failed

/-- A scan changes the states of plugins only. -/
theorem scan_twin (registry : Registry) (source : Source) (tokens : List Token) :
    registry.Twin (registry.scan source tokens).registry := by
  obtain ⟨made, left⟩ := (perform_cut source registry.plugins 0 [] _).plugins
  rw [Twin, scan, left]
  exact afterCalls_twins registry.plugins made

/-- The calls of a scan in which none fails. -/
def fullRun (registry : Registry) (source : Source) (tokens : List Token) :
    List (Registered × Call) :=
  let active := registry.plugins.filter (·.enabled)
  let readers := registry.plugins.filter fun registered =>
    registered.enabled && registered.plugin.wantsLines
  let listeners := registry.plugins.filter fun registered =>
    registered.enabled && registered.plugin.wantsTokens
  active.map (·, .start) ++
    source.lines.flatMap (fun line => readers.map (·, .line line.number line.text)) ++
    tokens.flatMap (fun token => listeners.map (·, .token token)) ++
    active.map (·, .finish source.length)

theorem plugins_subscribers (registry : Registry) (wants : Plugin → Bool) :
    (registry.subscribers wants).map (registry.plugins[·]?) =
      (registry.plugins.filter fun registered =>
        registered.enabled && wants registered.plugin).map some := by
  have numbered : ∀ pair ∈ registry.plugins.zipIdx.filter fun pair =>
      pair.1.enabled && wants pair.1.plugin, registry.plugins[pair.2]? = some pair.1 := by
    intro pair member
    exact List.mem_zipIdx_iff_getElem?.mp (List.mem_of_mem_filter member)
  have unnumbered : (registry.plugins.zipIdx.filter fun pair =>
      pair.1.enabled && wants pair.1.plugin).map (·.1) =
        registry.plugins.filter fun registered =>
          registered.enabled && wants registered.plugin := by
    conv_rhs => rw [← List.zipIdx_map_fst 0 registry.plugins, List.filter_map]
    rfl
  rw [subscribers, List.map_map, ← unnumbered, List.map_map]
  exact List.map_congr_left numbered

theorem schedule_eq_fullRun (registry : Registry) (source : Source) (tokens : List Token) :
    (registry.schedule source tokens).map (fun planned =>
        (registry.plugins[planned.1]?, planned.2)) =
      (registry.fullRun source tokens).map fun planned => (some planned.1, planned.2) := by
  have planned (wants : Plugin → Bool) (call : Call) :
      ((registry.subscribers wants).map (·, call)).map (fun planned =>
          (registry.plugins[planned.1]?, planned.2)) =
        ((registry.plugins.filter fun registered =>
          registered.enabled && wants registered.plugin).map (·, call)).map fun planned =>
            (some planned.1, planned.2) := by
    have subscribed := congrArg (List.map (·, call)) (plugins_subscribers registry wants)
    simpa only [List.map_map, Function.comp_def] using subscribed
  simp only [schedule, fullRun, lineSubscribers, tokenSubscribers, List.map_append,
    List.map_flatMap, planned, Bool.and_true]

/-- A scan makes its calls in order, for every plugin that is enabled, until the first one fails. It
tells the plugin and the call that failed. Every plugin is left as its own calls among those that
were made leave it, the failed one included, and all of them stay as they were registered. -/
theorem scan_stops (registry : Registry) (source : Source) (tokens : List Token) :
    let calls := registry.schedule source tokens
    let scan := registry.scan source tokens
    calls.map (fun planned => (registry.plugins[planned.1]?, planned.2)) =
        (registry.fullRun source tokens).map (fun planned => (some planned.1, planned.2)) ∧
      (∃ made left, calls = made ++ left ∧ scan.completed = made.length ∧
        (∀ before planned after, made = before ++ planned :: after → ∀ current reason,
          ¬ FailsAfter registry.plugins before planned current reason) ∧
        (left = [] ∧ (∃ violations, scan.outcome = .ok violations) ∧
            scan.registry.plugins = afterCalls registry.plugins made ∨
          ∃ failing rest registered current reason, left = failing :: rest ∧
            registry.plugins[failing.1]? = some registered ∧
            FailsAfter registry.plugins made failing current reason ∧
            scan.outcome =
              .error (.hookFailed registered.plugin.info.id failing.2.action reason) ∧
            scan.registry.plugins = afterCalls registry.plugins (made ++ [failing]))) ∧
      registry.Twin scan.registry ∧
      scan.registry.lineSubscribers = registry.lineSubscribers ∧
      scan.registry.tokenSubscribers = registry.tokenSubscribers := by
  intro calls scan
  have twin := scan_twin registry source tokens
  obtain ⟨made, left, split, count, none, ends⟩ := perform_cut source registry.plugins 0 [] calls
  refine ⟨schedule_eq_fullRun registry source tokens,
    ⟨made, left, split, count.trans (Nat.zero_add _), none, ?_⟩,
    twin, twin.lineSubscribers, twin.tokenSubscribers⟩
  rcases ends with done | ⟨failing, rest, current, reason, isLeft, fails, outcome, leaves⟩
  · exact .inl done
  · obtain ⟨registered, isPlugin, rfl⟩ :=
      Option.map_eq_some_iff.mp ((getElem?_afterCalls _ _ _).symm.trans fails.1)
    have info := (Plugin.twin_after registered.plugin (callsTo failing.1 made)).info
    refine .inr ⟨failing, rest, registered, _, reason, isLeft, isPlugin, fails, ?_, leaves⟩
    rw [← info]
    exact outcome

-- Both plugins start and read the first line, and the first one reads the second. The other one
-- counts this line, too, before it fails.
example :
    let reader : Plugin :=
      { info := ⟨"reader", [], ""⟩, wantsLines := true, State := Unit, state := () }
    let brittle : Plugin :=
      { info := ⟨"brittle", [], ""⟩, wantsLines := true, State := Nat, state := 0
        onLine := fun count number _ =>
          (count + 1, if number = 2 then .error "no more" else .ok []) }
    let scan := (Registry.mk [⟨reader, true⟩, ⟨brittle, true⟩]).scan (Source.ofText "a\nb\nc" 4) []
    scan.completed = 5 ∧ scan.outcome = .error (.hookFailed "brittle" "next_line" "no more") ∧
      scan.registry.plugins[1]? = some ⟨{ brittle with state := (2 : Nat) }, true⟩ := by
  exact ⟨rfl, rfl, rfl⟩

end Registry
end BlockLint
