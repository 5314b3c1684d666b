import BlockLint.Proofs.LintHistory
import BlockLint.Proofs.PluginIndependence

/-!
The registry as its owner sees it, over any sequence of calls to register and to disable. A roster
keeps the subscribers of lines and of tokens beside the plugins and lists them anew at each change.
What it keeps never falls behind: no two plugins share an id, the lists hold the enabled plugins
that want them, plugins stay where they were put, and a disabled one stays disabled.
-/
namespace BlockLint

namespace Metadata

/-- The name is the id or an alias, but for the case of ASCII letters. -/
def Called (info : Metadata) (name : Text) : Prop :=
  ∃ own ∈ info.id :: info.aliases, own.map Char.toLower = name.map Char.toLower

theorem answersTo_iff {info : Metadata} {name : Text} :
    info.answersTo name = true ↔ info.Called name := by
  simp [answersTo, Called, Text.sameIgnoringCase]

end Metadata

namespace Registry

/-- The indices of the enabled plugins that satisfy `wants`, from the lowest up. -/
structure Lists (registry : Registry) (wants : Plugin → Bool) (indices : List Nat) : Prop where
  increasing : indices.Pairwise (· < ·)
  mem_iff : ∀ index, index ∈ indices ↔
    ∃ plugin, registry.plugins[index]? = some ⟨plugin, true⟩ ∧ wants plugin = true

theorem subscribers_lists (registry : Registry) (wants : Plugin → Bool) :
    registry.Lists wants (registry.subscribers wants) where
  increasing := by
    have numbered : (registry.plugins.zipIdx.map (·.2)).Pairwise (· < ·) := by
      rw [List.zipIdx_map_snd]
      exact List.pairwise_lt_range'
    exact List.pairwise_map.mpr ((List.pairwise_map.mp numbered).filter _)
  mem_iff index := by
    simp only [subscribers, List.mem_map, List.mem_filter, Bool.and_eq_true]
    constructor
    · rintro ⟨⟨⟨plugin, enabled⟩, place⟩, ⟨member, rfl, wanted⟩, rfl⟩
      exact ⟨plugin, List.mem_zipIdx_iff_getElem?.mp member, wanted⟩
    · rintro ⟨plugin, found, wanted⟩
      exact ⟨(⟨plugin, true⟩, index), ⟨List.mem_zipIdx_iff_getElem?.mpr found, rfl, wanted⟩, rfl⟩

/-- What `other` has beyond `registry` stands behind, and what is disabled stays so. -/
structure Extends (registry other : Registry) : Prop where
  order : registry.plugins.map (·.plugin) <+: other.plugins.map (·.plugin)
  disabled : ∀ (index : Nat) (plugin : Plugin),
    registry.plugins[index]? = some ⟨plugin, false⟩ → other.plugins[index]? = some ⟨plugin, false⟩

namespace Extends

theorem refl (registry : Registry) : registry.Extends registry :=
  ⟨List.prefix_rfl, fun _ _ found => found⟩

theorem trans {first second third : Registry} (left : first.Extends second)
    (right : second.Extends third) : first.Extends third :=
  ⟨left.order.trans right.order,
    fun index plugin found => right.disabled index plugin (left.disabled index plugin found)⟩

end Extends

def ids (registry : Registry) : List Text :=
  registry.metadata.map (·.id)

section
variable {registry : Registry} {plugin : Plugin} {name : Text}

theorem register_of_mem (known : plugin.info.id ∈ registry.ids) :
    registry.register plugin = .error (.duplicateId plugin.info.id) := by
  rw [register, if_pos]
  simpa [ids, metadata] using known

theorem register_of_not_mem (new : plugin.info.id ∉ registry.ids) :
    registry.register plugin = .ok ⟨registry.plugins ++ [⟨plugin, true⟩]⟩ := by
  rw [register, if_neg]
  simpa [ids, metadata] using new

/-- The first plugin that goes by the name, with those before it and after it. -/
structure FirstCalled (registry : Registry) (name : Text) (before : List Registered)
    (registered : Registered) (after : List Registered) : Prop where
  split : registry.plugins = before ++ registered :: after
  called : registered.plugin.info.Called name
  others : ∀ other ∈ before, ¬ other.plugin.info.Called name

theorem disable_of_unknown
    (unknown : ∀ registered ∈ registry.plugins, ¬ registered.plugin.info.Called name) :
    registry.disable name = .error (.unknownRule name) := by
  rw [disable, if_neg]
  simpa [Metadata.answersTo_iff] using unknown

theorem disable_of_called {registered : Registered} (member : registered ∈ registry.plugins)
    (called : registered.plugin.info.Called name) :
    ∃ before first after, registry.FirstCalled name before first after ∧
      registry.disable name = .ok ⟨before ++ { first with enabled := false } :: after⟩ := by
  have known : registry.plugins.any (fun r => r.plugin.info.answersTo name) = true :=
    List.any_eq_true.mpr ⟨registered, member, Metadata.answersTo_iff.mpr called⟩
  obtain ⟨before, first, after, split, others, answers, left⟩ :=
    disableFirst_split (p := fun plugin => plugin.info.answersTo name) known
  refine ⟨before, first, after, ⟨split, Metadata.answersTo_iff.mp answers, ?_⟩, ?_⟩
  · intro other isBefore isCalled
    rw [← Metadata.answersTo_iff, others other isBefore] at isCalled
    cases isCalled
  · rw [disable, if_pos known, left]

end
end Registry

inductive Change where
  | register (plugin : Plugin)
  | disable (name : Text)

/-- A registry with its subscribers at hand. -/
structure Roster where
  registry : Registry
  lineSubscribers : List Nat
  tokenSubscribers : List Nat

namespace Roster

def empty : Roster :=
  ⟨Registry.empty, [], []⟩

def refresh (registry : Registry) : Roster :=
  ⟨registry, registry.lineSubscribers, registry.tokenSubscribers⟩

def attempt (roster : Roster) : Change → Except PluginError Registry
  | .register plugin => roster.registry.register plugin
  | .disable name => roster.registry.disable name

def serve (roster : Roster) (change : Change) : Roster × Except PluginError Unit :=
  match roster.attempt change with
  | .ok registry => (refresh registry, .ok ())
  | .error e => (roster, .error e)

def afterAll (roster : Roster) (changes : List Change) : Roster :=
  changes.foldl (fun roster change => (roster.serve change).1) roster

/-- The ids differ, and the lists are those of the plugins as they are now. -/
structure InStep (roster : Roster) : Prop where
  ids : roster.registry.ids.Nodup
  lines : roster.lineSubscribers = roster.registry.lineSubscribers
  tokens : roster.tokenSubscribers = roster.registry.tokenSubscribers

section
variable {roster : Roster} {change : Change} {next : Registry}

theorem serve_of_ok (made : roster.attempt change = .ok next) :
    roster.serve change = (refresh next, .ok ()) := by
  rw [serve, made]

theorem serve_of_error {e : PluginError} (failed : roster.attempt change = .error e) :
    roster.serve change = (roster, .error e) := by
  rw [serve, failed]

/-- All that a change can do. -/
theorem attempt_cases (made : roster.attempt change = .ok next) :
    (∃ plugin, plugin.info.id ∉ roster.registry.ids ∧
      next = ⟨roster.registry.plugins ++ [⟨plugin, true⟩]⟩) ∨
    ∃ name before first after, roster.registry.FirstCalled name before first after ∧
      next = ⟨before ++ { first with enabled := false } :: after⟩ := by
  cases change with
  | register plugin =>
    by_cases known : plugin.info.id ∈ roster.registry.ids
    · cases (Registry.register_of_mem known).symm.trans made
    · cases (Registry.register_of_not_mem known).symm.trans made
      exact .inl ⟨plugin, known, rfl⟩
  | disable name =>
    by_cases known : ∃ registered ∈ roster.registry.plugins, registered.plugin.info.Called name
    · obtain ⟨registered, member, called⟩ := known
      obtain ⟨before, first, after, isFirst, disabled⟩ := Registry.disable_of_called member called
      cases disabled.symm.trans made
      exact .inr ⟨name, before, first, after, isFirst, rfl⟩
    · have unknown : ∀ registered ∈ roster.registry.plugins,
          ¬ registered.plugin.info.Called name :=
        fun registered member called => known ⟨registered, member, called⟩
      cases (Registry.disable_of_unknown unknown).symm.trans made

theorem ids_of_attempt (made : roster.attempt change = .ok next)
    (distinct : roster.registry.ids.Nodup) : next.ids.Nodup := by
  rcases attempt_cases made with
    ⟨plugin, new, rfl⟩ | ⟨name, before, first, after, isFirst, rfl⟩
  · have ids : (Registry.mk (roster.registry.plugins ++ [⟨plugin, true⟩])).ids =
        roster.registry.ids ++ [plugin.info.id] := by
      simp [Registry.ids, Registry.metadata]
    rw [ids]
    refine List.nodup_append.mpr ⟨distinct, List.pairwise_singleton _ _, ?_⟩
    intro id known other isNew
    rw [List.mem_singleton.mp isNew]
    exact fun same => new (same ▸ known)
  · have ids : (Registry.mk (before ++ { first with enabled := false } :: after)).ids =
        roster.registry.ids := by
      simp [Registry.ids, Registry.metadata, isFirst.split]
    rwa [ids]

theorem extends_of_attempt (made : roster.attempt change = .ok next) :
    roster.registry.Extends next := by
  rcases attempt_cases made with
    ⟨plugin, _, rfl⟩ | ⟨name, before, first, after, isFirst, rfl⟩
  · constructor
    · rw [List.map_append]
      exact List.prefix_append _ _
    · intro index other found
      obtain ⟨inside, _⟩ := List.getElem?_eq_some_iff.mp found
      rw [List.getElem?_append_left inside, found]
  · constructor
    · rw [isFirst.split, List.map_append, List.map_append]
      exact List.prefix_rfl
    · intro index plugin found
      rw [isFirst.split] at found
      by_cases inside : index < before.length
      · rwa [List.getElem?_append_left inside] at found ⊢
      · obtain ⟨past, rfl⟩ := Nat.exists_eq_add_of_le (Nat.le_of_not_lt inside)
        rw [List.getElem?_append_right (Nat.le_add_right _ _), Nat.add_sub_cancel_left]
          at found ⊢
        cases past with
        | zero =>
          cases found
          rfl
        | succ past => exact found

theorem serve_cases (roster : Roster) (change : Change) :
    (∃ next, roster.attempt change = .ok next ∧
      roster.serve change = (refresh next, .ok ())) ∨
    ∃ e, roster.attempt change = .error e ∧ roster.serve change = (roster, .error e) := by
  cases made : roster.attempt change with
  | ok next => exact .inl ⟨next, rfl, serve_of_ok made⟩
  | error e => exact .inr ⟨e, rfl, serve_of_error made⟩

theorem InStep.serve (inStep : roster.InStep) (change : Change) :
    (roster.serve change).1.InStep := by
  rcases serve_cases roster change with ⟨next, made, served⟩ | ⟨e, _, served⟩
  · rw [served]
    exact ⟨ids_of_attempt made inStep.ids, rfl, rfl⟩
  · rw [served]
    exact inStep

theorem extends_serve (roster : Roster) (change : Change) :
    roster.registry.Extends (roster.serve change).1.registry := by
  rcases serve_cases roster change with ⟨next, made, served⟩ | ⟨e, _, served⟩
  · rw [served]
    exact extends_of_attempt made
  · rw [served]
    exact .refl _

theorem InStep.afterAll (inStep : roster.InStep) (changes : List Change) :
    (roster.afterAll changes).InStep := by
  induction changes generalizing roster with
  | nil => exact inStep
  | cons change rest ih => exact ih (inStep.serve change)

theorem extends_afterAll (roster : Roster) (changes : List Change) :
    roster.registry.Extends (roster.afterAll changes).registry := by
  induction changes generalizing roster with
  | nil => exact .refl _
  | cons change rest ih => exact (extends_serve roster change).trans (ih _)

end

theorem empty_inStep : empty.InStep :=
  ⟨List.nodup_nil, rfl, rfl⟩

section
variable {roster : Roster} {plugin : Plugin} {name : Text}

theorem serve_register_of_mem (known : plugin.info.id ∈ roster.registry.ids) :
    roster.serve (.register plugin) = (roster, .error (.duplicateId plugin.info.id)) := by
  apply serve_of_error
  exact Registry.register_of_mem known

theorem serve_register_of_not_mem (new : plugin.info.id ∉ roster.registry.ids) :
    roster.serve (.register plugin) =
      (refresh ⟨roster.registry.plugins ++ [⟨plugin, true⟩]⟩, .ok ()) := by
  apply serve_of_ok
  exact Registry.register_of_not_mem new

theorem serve_disable_of_unknown
    (unknown : ∀ registered ∈ roster.registry.plugins, ¬ registered.plugin.info.Called name) :
    roster.serve (.disable name) = (roster, .error (.unknownRule name)) := by
  apply serve_of_error
  exact Registry.disable_of_unknown unknown

theorem serve_disable_of_called {registered : Registered}
    (member : registered ∈ roster.registry.plugins)
    (called : registered.plugin.info.Called name) :
    ∃ before first after, roster.registry.FirstCalled name before first after ∧
      roster.serve (.disable name) =
        (refresh ⟨before ++ { first with enabled := false } :: after⟩, .ok ()) := by
  obtain ⟨before, first, after, isFirst, disabled⟩ := Registry.disable_of_called member called
  refine ⟨before, first, after, isFirst, ?_⟩
  apply serve_of_ok
  exact disabled

end

/-- Whatever was registered and disabled before, ids differ, the lists of subscribers are those of
the enabled plugins, and later changes keep the order and enable nothing. A plugin is refused if its
id is there, a name if no plugin goes by it, and what is refused changes nothing. -/
theorem afterAll_consistent (changes : List Change) :
    let roster := empty.afterAll changes
    roster.registry.ids.Nodup ∧
      roster.registry.Lists (·.wantsLines) roster.lineSubscribers ∧
      roster.registry.Lists (·.wantsTokens) roster.tokenSubscribers ∧
      (∀ later, roster.registry.Extends (roster.afterAll later).registry) ∧
      (∀ plugin : Plugin,
        (plugin.info.id ∈ roster.registry.ids →
          roster.serve (.register plugin) = (roster, .error (.duplicateId plugin.info.id))) ∧
        (plugin.info.id ∉ roster.registry.ids →
          roster.serve (.register plugin) =
            (refresh ⟨roster.registry.plugins ++ [⟨plugin, true⟩]⟩, .ok ()))) ∧
      (∀ name,
        ((∀ registered ∈ roster.registry.plugins, ¬ registered.plugin.info.Called name) →
          roster.serve (.disable name) = (roster, .error (.unknownRule name))) ∧
        ∀ registered ∈ roster.registry.plugins, registered.plugin.info.Called name →
          ∃ before first after, roster.registry.FirstCalled name before first after ∧
            roster.serve (.disable name) =
              (refresh ⟨before ++ { first with enabled := false } :: after⟩, .ok ())) ∧
      ∀ change e, (roster.serve change).2 = .error e → (roster.serve change).1 = roster := by
  intro roster
  have inStep : roster.InStep := empty_inStep.afterAll changes
  refine ⟨inStep.ids, ?_, ?_, extends_afterAll roster,
    fun plugin => ⟨serve_register_of_mem, serve_register_of_not_mem⟩,
    fun name => ⟨serve_disable_of_unknown, fun _ => serve_disable_of_called⟩, ?_⟩
  · rw [inStep.lines]
    exact roster.registry.subscribers_lists _
  · rw [inStep.tokens]
    exact roster.registry.subscribers_lists _
  · intro change e failed
    rcases serve_cases roster change with ⟨next, _, served⟩ | ⟨e', _, served⟩
    · rw [served] at failed
      cases failed
    · rw [served]

-- The first plugin goes by an alias that is the id of the second, and is the one to be disabled.
example :
    let first : Plugin :=
      { info := ⟨"x", ["Y"], ""⟩, wantsLines := true, State := Unit, state := () }
    let second : Plugin := { first with info := ⟨"y", [], ""⟩ }
    let roster := empty.afterAll
      [.register first, .register second, .disable "y", .register second]
    (roster.lineSubscribers, roster.registry.ids) = ([1], [['x'], ['y']]) := by
  decide

end Roster
end BlockLint
