import BlockLint.Proofs.Sorting
import BlockLint.Registry

/-!
Scans, plugin by plugin. The calls of a scan go to all plugins in turn, but each plugin answers as
if it were alone, since no call changes the state of another one.
-/
namespace BlockLint

namespace Plugin

/-- The plugin answers all the calls, one after another, with these findings. -/
inductive Answers : Plugin → List Call → List Finding → Prop where
  | nil (plugin : Plugin) : Answers plugin [] []
  | cons {plugin next : Plugin} {call : Call} {calls : List Call}
      {findings others : List Finding} :
      plugin.respond call = (next, .ok findings) → Answers next calls others →
        Answers plugin (call :: calls) (findings ++ others)

theorem Answers.unique {plugin : Plugin} {calls : List Call} {left right : List Finding}
    (first : plugin.Answers calls left) (second : plugin.Answers calls right) : left = right := by
  induction first generalizing right with
  | nil plugin =>
    cases second
    rfl
  | cons responded _ ih =>
    cases second with
    | cons responded' others =>
      cases responded.symm.trans responded'
      rw [ih others]

/-- A call changes the state of the plugin and nothing else. -/
theorem exists_state_of_respond (plugin : Plugin) (call : Call) :
    ∃ state, (plugin.respond call).1 = { plugin with state } := by
  cases call with
  | start => exact ⟨_, rfl⟩
  | line number text => exact ⟨_, rfl⟩
  | token token => exact ⟨_, rfl⟩
  | finish lines => exact ⟨_, rfl⟩

theorem info_of_respond {plugin next : Plugin} {call : Call}
    {outcome : Except Text (List Finding)} (responded : plugin.respond call = (next, outcome)) :
    next.info = plugin.info := by
  obtain ⟨state, same⟩ := exists_state_of_respond plugin call
  rw [responded] at same
  cases same
  rfl

/-- No call of the plugin fails, whatever its state. -/
structure Reliable (plugin : Plugin) : Prop where
  onLine : ∀ state number text, ∃ findings, (plugin.onLine state number text).2 = .ok findings
  onToken : ∀ state token, ∃ findings, (plugin.onToken state token).2 = .ok findings
  onFinish : ∀ state lines, ∃ findings, (plugin.onFinish state lines).2 = .ok findings

theorem Reliable.respond {plugin : Plugin} (reliable : plugin.Reliable) (call : Call) :
    ∃ findings, (plugin.respond call).2 = .ok findings := by
  cases call with
  | start => exact ⟨[], rfl⟩
  | line number text => exact reliable.onLine plugin.state number text
  | token token => exact reliable.onToken plugin.state token
  | finish lines => exact reliable.onFinish plugin.state lines

theorem Reliable.answers {plugin : Plugin} (reliable : plugin.Reliable) (calls : List Call) :
    ∃ findings, plugin.Answers calls findings := by
  induction calls generalizing plugin with
  | nil => exact ⟨[], .nil plugin⟩
  | cons call rest ih =>
    obtain ⟨findings, found⟩ := reliable.respond call
    obtain ⟨state, next⟩ := exists_state_of_respond plugin call
    obtain ⟨others, answered⟩ :=
      @ih { plugin with state } ⟨reliable.onLine, reliable.onToken, reliable.onFinish⟩
    exact ⟨_, .cons (Prod.ext next found) answered⟩

def findings {σ : Type} (step : σ → Token → σ × List Finding) (state : σ) :
    List Token → List Finding
  | [] => []
  | token :: rest => (step state token).2 ++ findings step (step state token).1 rest

theorem answers_tokens (plugin : Plugin)
    {step : plugin.State → Token → plugin.State × List Finding}
    (steps : ∀ state token, plugin.onToken state token = .found (step state token))
    {later : List Call}
    (quiet : ∀ state, Answers { plugin with state } later []) (state : plugin.State)
    (tokens : List Token) :
    Answers { plugin with state } (tokens.map .token ++ later) (findings step state tokens) := by
  induction tokens generalizing state with
  | nil => exact quiet state
  | cons token rest ih =>
    refine .cons ?_ (ih (step state token).1)
    simp only [respond, steps]
    rfl

end Plugin

namespace Registered

/-- The calls that a scan makes to a plugin. -/
def calls (registered : Registered) (source : Source) (tokens : List Token) : List Call :=
  if registered.enabled then
    [.start] ++
      (if registered.plugin.wantsLines then
        source.lines.map fun line => .line line.number line.text
      else []) ++
      (if registered.plugin.wantsTokens then tokens.map .token else []) ++
      [.finish source.length]
  else []

def ruleId (registered : Registered) : Text :=
  Text.upperAscii registered.plugin.info.id

end Registered

namespace Registry

def callsTo (index : Nat) (calls : List (Nat × Call)) : List Call :=
  (calls.filter (·.1 == index)).map (·.2)

@[simp] theorem callsTo_append (index : Nat) (left right : List (Nat × Call)) :
    callsTo index (left ++ right) = callsTo index left ++ callsTo index right := by
  simp [callsTo]

theorem callsTo_cons_self (index : Nat) (call : Call) (rest : List (Nat × Call)) :
    callsTo index ((index, call) :: rest) = call :: callsTo index rest := by
  simp [callsTo]

theorem callsTo_cons_of_ne {index other : Nat} (call : Call) (rest : List (Nat × Call))
    (ne : other ≠ index) : callsTo index ((other, call) :: rest) = callsTo index rest := by
  simp [callsTo, ne]

theorem filter_zipIdx {α : Type _} {items : List α} {place : Nat} {item : α} (start : Nat)
    (found : items[place]? = some item) :
    (items.zipIdx start).filter (·.2 == start + place) = [(item, start + place)] := by
  induction items generalizing start place with
  | nil => simp at found
  | cons first rest ih =>
    cases place with
    | zero =>
      cases Option.some.inj found
      have others : (rest.zipIdx (start + 1)).filter (·.2 == start) = [] := by
        refine List.filter_eq_nil_iff.mpr ?_
        intro pair member
        have behind := List.le_snd_of_mem_zipIdx member
        simp only [beq_iff_eq]
        omega
      simp [others]
    | succ place =>
      have others := ih (start + 1) found
      rw [show start + 1 + place = start + (place + 1) by omega] at others
      rw [List.zipIdx_cons, List.filter_cons_of_neg (by simp), others]

theorem filter_subscribers {registry : Registry} {index : Nat} {registered : Registered}
    (found : registry.plugins[index]? = some registered) (wants : Plugin → Bool) :
    (registry.subscribers wants).filter (· == index) =
      if registered.enabled && wants registered.plugin then [index] else [] := by
  have own := filter_zipIdx 0 found
  rw [Nat.zero_add] at own
  have swapped : (registry.subscribers wants).filter (· == index) =
      ((registry.plugins.zipIdx.filter (·.2 == index)).filter
        fun pair => pair.1.enabled && wants pair.1.plugin).map (·.2) := by
    rw [subscribers, List.filter_map, List.filter_filter, List.filter_filter]
    congr 2
    funext pair
    exact Bool.and_comm _ _
  rw [swapped, own]
  cases taken : registered.enabled && wants registered.plugin with
  | false => simp [List.filter, taken]
  | true => simp [List.filter, taken]

theorem callsTo_subscribers {registry : Registry} {index : Nat} {registered : Registered}
    (found : registry.plugins[index]? = some registered) (wants : Plugin → Bool) (call : Call) :
    callsTo index ((registry.subscribers wants).map (·, call)) =
      if registered.enabled && wants registered.plugin then [call] else [] := by
  have own := filter_subscribers found wants
  rw [callsTo, List.filter_map, List.map_map]
  change ((registry.subscribers wants).filter (· == index)).map _ = _
  rw [own]
  split <;> rfl

theorem callsTo_flatMap {registry : Registry} {index : Nat} {registered : Registered} {α : Type}
    (found : registry.plugins[index]? = some registered) (wants : Plugin → Bool)
    (call : α → Call) (items : List α) :
    callsTo index (items.flatMap fun item => (registry.subscribers wants).map (·, call item)) =
      if registered.enabled && wants registered.plugin then items.map call else [] := by
  induction items with
  | nil => split <;> rfl
  | cons item rest ih =>
    rw [List.flatMap_cons, callsTo_append, callsTo_subscribers found, ih]
    split <;> rfl

theorem callsTo_schedule {registry : Registry} {index : Nat} {registered : Registered}
    (found : registry.plugins[index]? = some registered) (source : Source) (tokens : List Token) :
    callsTo index (registry.schedule source tokens) = registered.calls source tokens := by
  simp only [schedule, lineSubscribers, tokenSubscribers, callsTo_append,
    callsTo_subscribers found, callsTo_flatMap found, Registered.calls]
  cases registered.enabled <;> rfl

theorem filter_labelled (index other : Nat) (violations : List Violation) :
    ((violations.map (index, ·)).filter (·.1 == other)).map (·.2) =
      if index = other then violations else [] := by
  split
  · subst other
    rw [List.filter_eq_self.mpr (by simp)]
    simp [Function.comp_def]
  · rename_i ne
    rw [List.filter_eq_nil_iff.mpr (by simp [ne])]
    rfl

theorem getElem?_set_of_called {plugins : List Registered} {index : Nat}
    {registered : Registered} (called : plugins[index]? = some registered) (next : Registered)
    (other : Nat) :
    (plugins.set index next)[other]? = if index = other then some next else plugins[other]? := by
  have inside := (List.getElem?_eq_some_iff.mp called).1
  rw [List.getElem?_set, if_pos inside]

section
variable {source : Source} {plugins : List Registered} {index : Nat} {registered : Registered}
  {call : Call}

theorem perform_of_none (none : plugins[index]? = none) (completed : Nat) (found : List Violation)
    (rest : List (Nat × Call)) :
    perform source plugins completed found ((index, call) :: rest) =
      perform source plugins (completed + 1) found rest := by
  simp only [perform, none]

theorem perform_of_error {next : Plugin} {reason : Text}
    (called : plugins[index]? = some registered)
    (failed : registered.plugin.respond call = (next, .error reason)) (completed : Nat)
    (found : List Violation) (rest : List (Nat × Call)) :
    perform source plugins completed found ((index, call) :: rest) =
      ⟨⟨plugins.set index { registered with plugin := next }⟩, completed,
        .error (.hookFailed registered.plugin.info.id call.action reason)⟩ := by
  simp only [perform, called, failed]

theorem perform_of_ok {next : Plugin} {findings : List Finding}
    (called : plugins[index]? = some registered)
    (responded : registered.plugin.respond call = (next, .ok findings)) (completed : Nat)
    (found : List Violation) (rest : List (Nat × Call)) :
    perform source plugins completed found ((index, call) :: rest) =
      perform source (plugins.set index { registered with plugin := next }) (completed + 1)
        (found ++ findings.map (registered.plugin.info.violation source)) rest := by
  simp only [perform, called, responded]

end

theorem callsTo_cons_of_none {plugins : List Registered} {index other : Nat}
    {registered : Registered} (none : plugins[index]? = none)
    (isPlugin : plugins[other]? = some registered) (call : Call) (rest : List (Nat × Call)) :
    callsTo other ((index, call) :: rest) = callsTo other rest := by
  apply callsTo_cons_of_ne
  rintro rfl
  simp [none] at isPlugin

/-- If every plugin answers its own calls, then all calls succeed. What is found comes from the
plugins, here told by their places, and each has found what it answers. -/
theorem perform_answered (source : Source) (plugins : List Registered) (completed : Nat)
    (found : List Violation) (calls : List (Nat × Call))
    (answered : ∀ index (registered : Registered), plugins[index]? = some registered →
      ∃ findings, registered.plugin.Answers (callsTo index calls) findings) :
    ∃ reports : List (Nat × Violation),
      (perform source plugins completed found calls).outcome =
        .ok (Violation.sort (found ++ reports.map (·.2))) ∧
      (∀ report ∈ reports, report.1 < plugins.length) ∧
      ∀ index (registered : Registered), plugins[index]? = some registered →
        ∃ findings, registered.plugin.Answers (callsTo index calls) findings ∧
          (reports.filter (·.1 == index)).map (·.2) =
            findings.map (registered.plugin.info.violation source) := by
  induction calls generalizing plugins completed found with
  | nil => exact ⟨[], by simp [perform], by simp, fun _ _ _ => ⟨[], .nil _, rfl⟩⟩
  | cons first rest ih =>
    obtain ⟨index, call⟩ := first
    cases called : plugins[index]? with
    | none =>
      obtain ⟨reports, outcome, within, own⟩ := ih plugins (completed + 1) found (by
        intro other registered isPlugin
        rw [← callsTo_cons_of_none called isPlugin call rest]
        exact answered other registered isPlugin)
      refine ⟨reports, by rw [perform_of_none called, outcome], within, ?_⟩
      intro other registered isPlugin
      rw [callsTo_cons_of_none called isPlugin]
      exact own other registered isPlugin
    | some registered =>
      obtain ⟨all, answers⟩ := answered index registered called
      rw [callsTo_cons_self] at answers
      cases answers with
      | @cons _ next _ _ findings later responded answers =>
        have changed := getElem?_set_of_called called { registered with plugin := next }
        have info := congrArg (·.violation source) (Plugin.info_of_respond responded)
        obtain ⟨reports, outcome, within, own⟩ :=
          ih (plugins.set index { registered with plugin := next }) (completed + 1)
            (found ++ findings.map (registered.plugin.info.violation source)) (by
              intro other current isPlugin
              rw [changed] at isPlugin
              split at isPlugin
              · subst index
                cases isPlugin
                exact ⟨later, answers⟩
              · rename_i ne
                rw [← callsTo_cons_of_ne call rest ne]
                exact answered other current isPlugin)
        refine ⟨(findings.map (registered.plugin.info.violation source)).map (index, ·) ++ reports,
          ?_, ?_, ?_⟩
        · rw [perform_of_ok called responded, outcome]
          simp [Function.comp_def]
        · intro report member
          rcases List.mem_append.mp member with new | old
          · obtain ⟨violation, _, rfl⟩ := List.mem_map.mp new
            exact (List.getElem?_eq_some_iff.mp called).1
          · simpa using within report old
        · intro other current isPlugin
          rw [List.filter_append, List.map_append, filter_labelled]
          by_cases same : index = other
          · subst same
            cases called.symm.trans isPlugin
            obtain ⟨others, answered, kept⟩ := own index _ (by rw [changed, if_pos rfl])
            rw [callsTo_cons_self, if_pos rfl, kept]
            refine ⟨_, .cons responded answered, ?_⟩
            rw [List.map_append, ← info]
          · rw [callsTo_cons_of_ne call rest same, if_neg same, List.nil_append]
            exact own other current (by rw [changed, if_neg same, isPlugin])

theorem own_of_ruleId {registry : Registry}
    (distinct : (registry.plugins.map Registered.ruleId).Nodup) {index other : Nat}
    {registered current : Registered} (found : registry.plugins[index]? = some registered)
    (isPlugin : registry.plugins[other]? = some current)
    (same : current.ruleId = registered.ruleId) : other = index := by
  have inside : other < (registry.plugins.map Registered.ruleId).length := by
    simpa using (List.getElem?_eq_some_iff.mp isPlugin).1
  refine (List.getElem?_inj inside distinct).mp ?_
  simp [found, isPlugin, same]

theorem exists_reports {registry : Registry} {source : Source} {tokens : List Token}
    (answered : ∀ registered ∈ registry.plugins,
      ∃ findings, registered.plugin.Answers (registered.calls source tokens) findings) :
    ∃ reports : List (Nat × Violation),
      (registry.scan source tokens).outcome = .ok (Violation.sort (reports.map (·.2))) ∧
      (∀ report ∈ reports, ∃ registered, registry.plugins[report.1]? = some registered ∧
        registered.enabled = true ∧ report.2.ruleId = registered.ruleId) ∧
      ∀ index (registered : Registered), registry.plugins[index]? = some registered →
        ∀ findings, registered.plugin.Answers (registered.calls source tokens) findings →
          (reports.filter (·.1 == index)).map (·.2) =
            findings.map (registered.plugin.info.violation source) := by
  obtain ⟨reports, outcome, within, own⟩ := perform_answered source registry.plugins 0 []
    (registry.schedule source tokens) (by
      intro index registered found
      rw [callsTo_schedule found]
      exact answered registered (List.mem_of_getElem? found))
  refine ⟨reports, outcome, ?_, ?_⟩
  · intro report isReport
    obtain ⟨registered, isPlugin⟩ : ∃ registered, registry.plugins[report.1]? = some registered :=
      ⟨_, List.getElem?_eq_getElem (within report isReport)⟩
    obtain ⟨findings, answers, kept⟩ := own report.1 registered isPlugin
    have member : report.2 ∈ findings.map (registered.plugin.info.violation source) := by
      rw [← kept]
      exact List.mem_map.mpr ⟨report, List.mem_filter.mpr ⟨isReport, by simp⟩, rfl⟩
    obtain ⟨finding, found, same⟩ := List.mem_map.mp member
    refine ⟨registered, isPlugin, ?_, by rw [← same]; rfl⟩
    cases enabled : registered.enabled with
    | true => rfl
    | false =>
      rw [callsTo_schedule isPlugin, Registered.calls, if_neg (by simp [enabled])] at answers
      cases answers
      cases found
  · intro index registered isPlugin findings answers
    obtain ⟨findings', answers', kept⟩ := own index registered isPlugin
    rw [callsTo_schedule isPlugin] at answers'
    cases answers.unique answers'
    exact kept

/-- Where every plugin answers its own calls, a scan succeeds. The violations of each plugin, told
by its rule, are what it answers, put in order, and there are no others. -/
theorem scan_answered {registry : Registry} {source : Source} {tokens : List Token}
    (distinct : (registry.plugins.map Registered.ruleId).Nodup)
    (answered : ∀ registered ∈ registry.plugins,
      ∃ findings, registered.plugin.Answers (registered.calls source tokens) findings) :
    ∃ violations, (registry.scan source tokens).outcome = .ok violations ∧
      (∀ registered ∈ registry.plugins, ∀ findings,
        registered.plugin.Answers (registered.calls source tokens) findings →
          violations.filter (·.ruleId == registered.ruleId) =
            Violation.sort (findings.map (registered.plugin.info.violation source))) ∧
      ∀ violation ∈ violations, ∃ registered ∈ registry.plugins,
        registered.enabled = true ∧ violation.ruleId = registered.ruleId := by
  obtain ⟨reports, outcome, owned, own⟩ := exists_reports answered
  refine ⟨_, outcome, ?_, ?_⟩
  · intro registered member findings answers
    obtain ⟨index, found⟩ := List.mem_iff_getElem?.mp member
    rw [Violation.sort, filter_sortByKey, List.filter_map, ← own index registered found findings
      answers, Violation.sort]
    congr 2
    refine List.filter_congr ?_
    intro report isReport
    obtain ⟨current, isPlugin, _, named⟩ := owned report isReport
    rw [Bool.eq_iff_iff, beq_iff_eq, Function.comp_apply, beq_iff_eq, named]
    constructor
    · exact own_of_ruleId distinct found isPlugin
    · rintro rfl
      cases found.symm.trans isPlugin
      rfl
  · intro violation member
    rw [Violation.sort, mem_sortByKey] at member
    obtain ⟨report, isReport, rfl⟩ := List.mem_map.mp member
    obtain ⟨registered, isPlugin, enabled, named⟩ := owned report isReport
    exact ⟨registered, List.mem_of_getElem? isPlugin, enabled, named⟩

theorem perform_sorted {source : Source} {plugins : List Registered} {completed : Nat}
    {found violations : List Violation} {calls : List (Nat × Call)}
    (done : (perform source plugins completed found calls).outcome = .ok violations) :
    violations.Pairwise fun a b => SortKey.le a.key b.key = true := by
  induction calls generalizing plugins completed found with
  | nil =>
    cases done
    exact sortByKey_pairwise Violation.key found
  | cons first rest ih =>
    obtain ⟨index, call⟩ := first
    cases called : plugins[index]? with
    | none =>
      rw [perform_of_none called] at done
      exact ih done
    | some registered =>
      cases responded : registered.plugin.respond call with
      | mk next outcome =>
        cases outcome with
        | error reason =>
          rw [perform_of_error called responded] at done
          cases done
        | ok findings =>
          rw [perform_of_ok called responded] at done
          exact ih done

end Registry
end BlockLint
