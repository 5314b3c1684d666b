import BlockLint.Block.Tree

/-!
A replay that keeps the document itself on its stack, and takes a list as it finds it, without items
too. So it has three more ways to fail, and it never fails by one of them.
-/
namespace BlockLint.Strict

inductive Level where
  | document (children : List Block)
  | quote (children : List Block)
  | list (kind : ListKind) (items : List (List Block))

inductive TreeFault where
  | misfit (e : ReplayError)
  | noItem
  | documentEnded
  | nothingOpen

namespace Level

def ofKind : ContainerKind → Level
  | .blockQuote => .quote []
  | .list kind => .list kind [[]]

def add (block : Block) : Level → Except TreeFault Level
  | .document children => .ok (.document (children ++ [block]))
  | .quote children => .ok (.quote (children ++ [block]))
  | .list kind items =>
    match items.getLast? with
    | none => .error .noItem
    | some item => .ok (.list kind (items.dropLast ++ [item ++ [block]]))

def close : Level → Except TreeFault Block
  | .document _ => .error .documentEnded
  | .quote children => .ok (.quote children)
  | .list kind items => .ok (.list kind items)

end Level

/-- The open levels, innermost first, and the lines of the open leaf. -/
structure Rebuild where
  levels : List Level
  lines : Option (List Text)

namespace Rebuild

def initial : Rebuild :=
  ⟨[.document []], none⟩

def add (block : Block) (rebuild : Rebuild) : Except TreeFault Rebuild :=
  match rebuild.levels with
  | [] => .error .nothingOpen
  | innermost :: outer =>
    (innermost.add block).map fun level => { rebuild with levels := level :: outer }

def step (rebuild : Rebuild) (token : Token) : Except TreeFault Rebuild :=
  match token.kind with
  | .containerStart container _ =>
    .ok { rebuild with levels := Level.ofKind container :: rebuild.levels }
  | .newListItem _ _ =>
    match rebuild.levels with
    | .list kind items :: outer =>
      .ok { rebuild with levels := .list kind (items ++ [[]]) :: outer }
    | _ => .error (.misfit (.itemOutsideList token))
  | .containerEnd _ _ =>
    match rebuild.levels with
    | innermost :: next :: outer =>
      innermost.close.bind fun block => add block { rebuild with levels := next :: outer }
    | _ => .error (.misfit (.endWithoutStart token))
  | .leafStart _ => .ok { rebuild with lines := some [] }
  | .leafContent text _ =>
    match rebuild.lines with
    | some lines => .ok { rebuild with lines := some (lines ++ [text]) }
    | none => .error (.misfit (.contentOutsideLeaf token))
  | .leafEnd kind _ =>
    match rebuild.lines with
    | some lines => add (.leaf kind lines) { rebuild with lines := none }
    | none => .error (.misfit (.leafEndWithoutStart token))
  | .blankLine => add .blank rebuild

def finish (rebuild : Rebuild) : Except TreeFault (List Block) :=
  match rebuild.levels with
  | [.document children] => .ok children
  | _ => .error (.misfit .stillOpen)

def runFrom (rebuild : Rebuild) (tokens : List Token) : Except TreeFault (List Block) :=
  (tokens.foldlM step rebuild).bind finish

end Rebuild

def rebuild (tokens : List Token) : Except TreeFault (List Block) :=
  Rebuild.initial.runFrom tokens

def Level.of : OpenBlock → Level
  | .quote children => .quote children
  | .list kind done current => .list kind (done ++ [current])

theorem Level.of_ofKind (container : ContainerKind) :
    Level.of (OpenBlock.ofKind container) = Level.ofKind container := by
  cases container <;> rfl

theorem Level.add_of (block : Block) (container : OpenBlock) :
    (Level.of container).add block = .ok (.of (container.add block)) := by
  cases container with
  | quote children => rfl
  | list kind done current => simp [Level.of, Level.add, OpenBlock.add]

theorem Level.close_of (container : OpenBlock) :
    (Level.of container).close = .ok container.close := by
  cases container <;> rfl

namespace Rebuild

def showing (replay : Replay) : Rebuild :=
  ⟨replay.stack.map Level.of ++ [.document replay.root], replay.lines⟩

theorem add_showing (block : Block) (replay : Replay) :
    (showing replay).add block = .ok (showing (Replay.add block replay)) := by
  obtain ⟨stack, root, lines⟩ := replay
  cases stack with
  | nil => rfl
  | cons innermost outer =>
    simp only [add, showing, List.map_cons, List.cons_append, Level.add_of]
    rfl

theorem step_showing (replay : Replay) (token : Token) :
    (showing replay).step token = ((replay.step token).map showing).mapError .misfit := by
  obtain ⟨stack, root, lines⟩ := replay
  unfold step Replay.step
  cases token.kind with
  | containerStart container item =>
    simp only [showing, ← Level.of_ofKind]
    rfl
  | newListItem item number =>
    cases stack with
    | nil => rfl
    | cons innermost outer =>
      cases innermost with
      | quote children => rfl
      | list kind done current => rfl
  | containerEnd container natural =>
    cases stack with
    | nil => rfl
    | cons innermost outer =>
      have rest := add_showing innermost.close ⟨outer, root, lines⟩
      cases outer with
      | nil =>
        simp only [showing, List.map_cons, List.map_nil, List.nil_append, List.cons_append,
          Level.close_of] at rest ⊢
        exact rest
      | cons next outer =>
        simp only [showing, List.map_cons, List.cons_append, Level.close_of] at rest ⊢
        exact rest
  | leafStart kind => rfl
  | leafContent text isLazy => cases lines <;> rfl
  | leafEnd kind natural =>
    cases lines with
    | none => rfl
    | some lines => exact add_showing (.leaf kind lines) ⟨stack, root, none⟩
  | blankLine => exact add_showing .blank ⟨stack, root, lines⟩

theorem finish_showing (replay : Replay) :
    (showing replay).finish = replay.finish.mapError .misfit := by
  obtain ⟨stack, root, lines⟩ := replay
  cases stack with
  | nil => rfl
  | cons innermost outer =>
    cases outer <;> cases innermost <;> rfl

theorem runFrom_showing (replay : Replay) (tokens : List Token) :
    (showing replay).runFrom tokens = (replay.runFrom tokens).mapError .misfit := by
  induction tokens generalizing replay with
  | nil => exact finish_showing replay
  | cons token rest ih =>
    have first := step_showing replay token
    rw [Replay.runFrom]
    cases taken : replay.step token with
    | error e =>
      rw [taken] at first
      simp only [runFrom, List.foldlM_cons, first]
      rfl
    | ok next =>
      rw [taken] at first
      refine Eq.trans ?_ (ih next)
      simp only [runFrom, List.foldlM_cons, first]
      rfl

end Rebuild

/-- No list is open without an item, the document does not end with a container, and something is
always open. -/
theorem rebuild_eq (tokens : List Token) : rebuild tokens = (blocks tokens).mapError .misfit :=
  Rebuild.runFrom_showing Replay.initial tokens

end BlockLint.Strict
