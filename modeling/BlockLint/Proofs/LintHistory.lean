import BlockLint.Proofs.FailedCalls
import BlockLint.Linter

/-!
A linter carries nothing from file to file. Whatever it was asked before, its answer on a text is
that of a new linter with the same plugins, of which the same ones were disabled since.

Two scans by the same plugins in other states go in step: a plugin is told of a new file before
anything else, and from then on its state is the same on both sides.
-/
namespace BlockLint

namespace Plugin

/-- A new file makes the plugin forget all files before. -/
def Resets (plugin : Plugin) : Prop :=
  ∀ state state', plugin.start state = plugin.start state'

theorem Resets.respond_start {plugin other : Plugin} (resets : plugin.Resets)
    (twin : plugin.Twin other) : other.respond .start = plugin.respond .start := by
  obtain ⟨state, rfl⟩ := twin
  simp only [respond, withState]
  rw [resets state plugin.state]

end Plugin

theorem builtinRules_reset {plugin : Plugin} (builtin : plugin ∈ builtinRules) :
    plugin.Resets := by
  rcases mem_builtinRules.mp builtin with rfl | rfl | rfl
  all_goals exact fun _ _ => rfl

namespace Registry

/-- The plugins will answer the same calls in the same way. -/
def InStep (calls : List Call) (registered other : Registered) : Prop :=
  calls = [] ∨ registered = other ∨
    registered.Twin other ∧ registered.plugin.Resets ∧ calls.head? = some .start

theorem InStep.cons {call : Call} {calls : List Call} {registered other : Registered}
    (inStep : InStep (call :: calls) registered other) :
    other.plugin.info = registered.plugin.info ∧ other.enabled = registered.enabled ∧
      other.plugin.respond call = registered.plugin.respond call := by
  rcases inStep with none | rfl | ⟨⟨twin, enabled⟩, resets, first⟩
  · cases none
  · exact ⟨rfl, rfl, rfl⟩
  · cases Option.some.inj first
    exact ⟨twin.info, enabled, resets.respond_start twin⟩

theorem perform_inStep (source : Source) {plugins others : List Registered} (completed : Nat)
    (found : List Violation) {calls : List (Nat × Call)}
    (inStep : ∀ index, Option.Rel (InStep (callsTo index calls)) plugins[index]? others[index]?) :
    (perform source others completed found calls).outcome =
      (perform source plugins completed found calls).outcome := by
  induction calls generalizing plugins others completed found with
  | nil => rfl
  | cons first rest ih =>
    obtain ⟨index, call⟩ := first
    have now := inStep index
    rw [callsTo_cons_self] at now
    have elsewhere {other : Nat} (ne : index ≠ other) :
        Option.Rel (InStep (callsTo other rest)) plugins[other]? others[other]? := by
      have before := inStep other
      rwa [callsTo_cons_of_ne call rest ne] at before
    cases called : plugins[index]? with
    | none =>
      cases called' : others[index]? with
      | some other => simp [called, called'] at now
      | none =>
        rw [perform_of_none called, perform_of_none called']
        apply ih
        intro other
        by_cases same : index = other
        · rw [← same, called, called']
          exact .none
        · exact elsewhere same
    | some registered =>
      cases called' : others[index]? with
      | none => simp [called, called'] at now
      | some other =>
        have later (next : Registered) (other : Nat) :
            Option.Rel (InStep (callsTo other rest)) (plugins.set index next)[other]?
              (others.set index next)[other]? := by
          rw [getElem?_set_of_called called, getElem?_set_of_called called']
          split
          · exact .some (.inr (.inl rfl))
          · exact elsewhere ‹_›
        rw [called, called', Option.rel_some_some] at now
        obtain ⟨info, enabled, same⟩ := now.cons
        cases responded : registered.plugin.respond call with
        | mk next outcome =>
          cases outcome with
          | error reason =>
            rw [perform_of_error called responded, perform_of_error called' (same.trans responded),
              info]
          | ok findings =>
            rw [perform_of_ok called responded, perform_of_ok called' (same.trans responded), info,
              enabled]
            exact ih _ _ (later _)

theorem twins_getElem? {plugins others : List Registered}
    (twins : List.Forall₂ Registered.Twin plugins others) (index : Nat) :
    Option.Rel Registered.Twin plugins[index]? others[index]? := by
  induction twins generalizing index with
  | nil => exact .none
  | cons first _ ih =>
    cases index with
    | zero => exact .some first
    | succ index => exact ih index

theorem Twin.scan_outcome {registry other : Registry} (twin : registry.Twin other)
    (reset : ∀ registered ∈ registry.plugins, registered.plugin.Resets) (source : Source)
    (tokens : List Token) :
    (other.scan source tokens).outcome = (registry.scan source tokens).outcome := by
  rw [scan, scan, twin.schedule]
  apply perform_inStep
  intro index
  have paired := twins_getElem? twin index
  cases called : registry.plugins[index]? with
  | none =>
    cases called' : other.plugins[index]? with
    | none => exact .none
    | some registered' => simp [called, called'] at paired
  | some registered =>
    cases called' : other.plugins[index]? with
    | none => simp [called, called'] at paired
    | some registered' =>
      rw [called, called', Option.rel_some_some] at paired
      rw [callsTo_schedule called, Registered.calls]
      split
      · exact .some (.inr (.inr ⟨paired, reset registered (List.mem_of_getElem? called), rfl⟩))
      · exact .some (.inl rfl)

theorem disableFirst_twins {p : Plugin → Bool}
    (same : ∀ plugin other : Plugin, plugin.Twin other → p other = p plugin)
    {plugins others : List Registered} (twins : List.Forall₂ Registered.Twin plugins others) :
    List.Forall₂ Registered.Twin (disableFirst p plugins) (disableFirst p others) := by
  induction twins with
  | nil => exact .nil
  | cons first rest ih =>
    simp only [disableFirst, same _ _ first.plugin]
    split
    · exact .cons ⟨first.plugin, rfl⟩ rest
    · exact .cons first ih

theorem plugins_disableFirst (p : Plugin → Bool) (plugins : List Registered) :
    (disableFirst p plugins).map (·.plugin) = plugins.map (·.plugin) := by
  induction plugins with
  | nil => rfl
  | cons first rest ih =>
    rw [disableFirst]
    split
    · rfl
    · rw [List.map_cons, List.map_cons, ih]

theorem Twin.disable {registry other : Registry} (twin : registry.Twin other) (name : Text) :
    (∃ next next', registry.disable name = .ok next ∧ other.disable name = .ok next' ∧
        next.Twin next') ∨
      ∃ e, registry.disable name = .error e ∧ other.disable name = .error e := by
  have named (plugin other : Plugin) (twin : plugin.Twin other) :
      other.info.answersTo name = plugin.info.answersTo name := by
    rw [twin.info]
  have known : other.plugins.any (·.plugin.info.answersTo name) =
      registry.plugins.any (·.plugin.info.answersTo name) := by
    have listed := congrArg (List.any · (·.answersTo name)) twin.metadata
    simpa only [Registry.metadata, List.any_map, Function.comp_def] using listed
  simp only [Registry.disable, known]
  split
  · exact .inl ⟨_, _, rfl, rfl, disableFirst_twins named twin⟩
  · exact .inr ⟨_, rfl, rfl⟩

end Registry

/-- What a linter may be asked. A file is looked up in the files as they are at that time. -/
inductive Request where
  | disable (rule : Text)
  | text (text : Text)
  | file (system : FileSystem) (path : FilePath)

namespace Request

def isDisable : Request → Bool
  | .disable _ => true
  | .text _ | .file _ _ => false

end Request

inductive Reply where
  | disabled (outcome : Except PluginError Unit)
  | text (outcome : Except PluginError (List Violation))
  | file (outcome : Except LintError FileReport)

namespace Linter

def serve (linter : Linter) : Request → Linter × Reply
  | .disable rule =>
    ((linter.disable rule).toOption.getD linter, .disabled ((linter.disable rule).map fun _ => ()))
  | .text text => ((linter.lintText text).1, .text (linter.lintText text).2)
  | .file system path => ((lintFile system linter path).1, .file (lintFile system linter path).2)

def afterAll (linter : Linter) (history : List Request) : Linter :=
  history.foldl (fun linter request => (linter.serve request).1) linter

def report (linter : Linter) (path : FilePath) (content : Except FileError Text) :
    Except LintError FileReport :=
  (content.mapError .file).bind fun text =>
    ((linter.lintText text).2.mapError (.plugin path)).map (⟨path, ·⟩)

theorem lintFile_eq (system : FileSystem) (linter : Linter) (path : FilePath) :
    (lintFile system linter path).2 = linter.report path (system.textAt path) := by
  unfold lintFile report
  cases system.textAt path with
  | error e => rfl
  | ok text =>
    cases linted : linter.lintText text with
    | mk next outcome => cases outcome <;> simp [linted, Except.mapError, Except.bind, Except.map]

/-- The same linter with its plugins in other states, which they all forget with a new file. -/
structure Twin (linter other : Linter) : Prop where
  registry : linter.registry.Twin other.registry
  tabWidth : other.tabWidth = linter.tabWidth
  resets : ∀ plugin ∈ linter.registry.plugins.map (·.plugin), plugin.Resets

section
variable {linter other : Linter}

theorem Twin.lintText (twin : linter.Twin other) (text : Text) :
    (other.lintText text).2 = (linter.lintText text).2 := by
  simp only [Linter.lintText, twin.tabWidth]
  apply twin.registry.scan_outcome
  intro registered member
  exact twin.resets _ (List.mem_map.mpr ⟨registered, member, rfl⟩)

theorem Twin.report (twin : linter.Twin other) (path : FilePath)
    (content : Except FileError Text) : other.report path content = linter.report path content := by
  simp only [Linter.report, twin.lintText]

theorem Twin.lintText_next (twin : linter.Twin other) (text : Text) :
    linter.Twin (other.lintText text).1 :=
  ⟨Registry.twins_trans twin.registry (other.registry.scan_twin _ _), twin.tabWidth, twin.resets⟩

theorem Twin.lintFile_next (twin : linter.Twin other) (system : FileSystem) (path : FilePath) :
    linter.Twin (lintFile system other path).1 := by
  unfold lintFile
  split
  · exact twin
  · rename_i text _
    have next := twin.lintText_next text
    split
    all_goals
      rename_i linted
      rwa [linted] at next

theorem Twin.disable (twin : linter.Twin other) (rule : Text) :
    (linter.serve (.disable rule)).1.Twin (other.serve (.disable rule)).1 ∧
      (other.serve (.disable rule)).2 = (linter.serve (.disable rule)).2 := by
  simp only [serve, Linter.disable]
  rcases twin.registry.disable rule with
    ⟨next, next', known, known', twins⟩ | ⟨e, unknown, unknown'⟩
  · rw [known, known']
    refine ⟨⟨twins, twin.tabWidth, ?_⟩, rfl⟩
    intro plugin member
    apply twin.resets plugin
    unfold Registry.disable at known
    split at known
    · cases known
      rwa [← Registry.plugins_disableFirst]
    · cases known
  · rw [unknown, unknown']
    exact ⟨twin, rfl⟩

theorem Twin.serve (twin : linter.Twin other) (request : Request) :
    (other.serve request).2 = (linter.serve request).2 := by
  cases request with
  | disable rule => exact (twin.disable rule).2
  | text text => exact congrArg Reply.text (twin.lintText text)
  | file system path => simp only [Linter.serve, lintFile_eq, twin.report]

theorem Twin.afterAll (twin : linter.Twin other) (history : List Request) :
    (linter.afterAll (history.filter Request.isDisable)).Twin (other.afterAll history) := by
  induction history generalizing linter other with
  | nil => exact twin
  | cons request rest ih =>
    cases request with
    | disable rule => exact ih (twin.disable rule).1
    | text text => exact ih (twin.lintText_next text)
    | file system path => exact ih (twin.lintFile_next system path)

theorem Twin.lintFiles (twin : linter.Twin other) (system : FileSystem) (paths : List FilePath) :
    (Linter.lintFiles system other paths).2 =
      paths.map fun path => linter.report path (system.textAt path) := by
  induction paths generalizing other with
  | nil => rfl
  | cons path rest ih =>
    simp only [Linter.lintFiles, List.map_cons]
    rw [ih (twin.lintFile_next system path), lintFile_eq, twin.report]

end

/-- Whatever a linter was asked before, it answers as one that was only told what to disable. So
each of several files gets the report that its own path and content call for. -/
theorem serve_afterAll {linter : Linter}
    (plugins : ∀ registered ∈ linter.registry.plugins,
      registered.plugin ∈ builtinRules ∨ registered.plugin.Resets) (history : List Request) :
    let fresh := linter.afterAll (history.filter Request.isDisable)
    (∀ request, ((linter.afterAll history).serve request).2 = (fresh.serve request).2) ∧
      ∀ system paths, (lintFiles system (linter.afterAll history) paths).2 =
        paths.map fun path => fresh.report path (system.textAt path) := by
  intro fresh
  have resets : ∀ plugin ∈ linter.registry.plugins.map (·.plugin), plugin.Resets := by
    intro plugin member
    obtain ⟨registered, isPlugin, rfl⟩ := List.mem_map.mp member
    rcases plugins registered isPlugin with builtin | resets
    · exact builtinRules_reset builtin
    · exact resets
  have same : linter.Twin linter := ⟨List.forall₂_same.mpr fun _ _ => .refl _, rfl, resets⟩
  have twin : fresh.Twin (linter.afterAll history) := same.afterAll history
  exact ⟨twin.serve, twin.lintFiles⟩

/-- A scan that failed in the midst of a list and left a plugin changed, a rule disabled and a file
that is not there. -/
theorem serve_afterAll_failed :
    let brittle : Plugin :=
      { info := ⟨"brittle", [], "Lines before"⟩, wantsLines := true, State := Nat, state := 5
        start := fun _ => 0
        onLine := fun count number text =>
          (count + 1, if text = "stop" then .error "stopped" else .ok [⟨⟨number, count⟩, none⟩]) }
    let linter : Linter := ⟨⟨builtinRules.map (⟨·, true⟩) ++ [⟨brittle, true⟩]⟩, 4⟩
    let history : List Request :=
      [.text "- a\nstop", .disable "MD010", .file ⟨.folder [], []⟩ "none.md"]
    (∀ registered ∈ linter.registry.plugins,
        registered.plugin ∈ builtinRules ∨ registered.plugin.Resets) ∧
      (linter.lintText "- a\nstop").2 = .error (.hookFailed "brittle" "next_line" "stopped") ∧
      (linter.lintText "- a\nstop").1.registry.plugins[3]? =
        some ⟨{ brittle with state := (2 : Nat) }, true⟩ ∧
      ∀ text, ((linter.afterAll history).lintText text).2 =
        ((linter.afterAll [.disable "MD010"]).lintText text).2 := by
  intro brittle linter history
  have plugins : ∀ registered ∈ linter.registry.plugins,
      registered.plugin ∈ builtinRules ∨ registered.plugin.Resets := by
    intro registered member
    rcases List.mem_append.mp member with builtin | custom
    · obtain ⟨plugin, isBuiltin, rfl⟩ := List.mem_map.mp builtin
      exact .inl isBuiltin
    · cases List.mem_singleton.mp custom
      exact .inr fun _ _ => rfl
  refine ⟨plugins, by decide +kernel, rfl, ?_⟩
  intro text
  exact Reply.text.inj ((serve_afterAll plugins history).1 (.text text))

end Linter
end BlockLint
