import BlockLint.Block.Tree
import BlockLint.Proofs.Nesting

/-!
Trees of well nested streams. What a replay holds open is what the nesting tells, so every token of
such a stream fits. What a token can do to a replay is said once, in `step_cases`.
-/
namespace BlockLint

/-- The rows of blocks right inside a block: the one of a quote, and one for each item of a list. -/
def Block.parts : Block → List (List Block)
  | .quote children => [children]
  | .list _ items => items
  | .leaf _ _ | .blank => []

/-- The row of blocks is the document, or that of a quote or of a list item somewhere in it. -/
inductive Siblings (document : List Block) : List Block → Prop where
  | root : Siblings document document
  | inside {siblings inner : List Block} {block : Block} :
      Siblings document siblings → block ∈ siblings → inner ∈ block.parts →
        Siblings document inner

theorem Siblings.trans {document siblings inner : List Block} (outer : Siblings document siblings)
    (nested : Siblings siblings inner) : Siblings document inner := by
  induction nested with
  | root => exact outer
  | inside _ member part ih => exact .inside ih member part

namespace OpenBlock

def kind : OpenBlock → ContainerKind
  | .quote _ => .blockQuote
  | .list kind _ _ => .list kind

def row : OpenBlock → List Block
  | .quote children => children
  | .list _ _ current => current

@[simp] theorem kind_ofKind (container : ContainerKind) : (ofKind container).kind = container := by
  cases container <;> rfl

@[simp] theorem kind_add (block : Block) (container : OpenBlock) :
    (container.add block).kind = container.kind := by
  cases container <;> rfl

@[simp] theorem row_ofKind (container : ContainerKind) : (ofKind container).row = [] := by
  cases container <;> rfl

@[simp] theorem row_add (block : Block) (container : OpenBlock) :
    (container.add block).row = container.row ++ [block] := by
  cases container <;> rfl

end OpenBlock

namespace Replay

def row (replay : Replay) : List Block :=
  match replay.stack with
  | [] => replay.root
  | innermost :: _ => innermost.row

@[simp] theorem row_add (block : Block) (replay : Replay) :
    (add block replay).row = replay.row ++ [block] := by
  obtain ⟨stack, root, lines⟩ := replay
  cases stack with
  | nil => rfl
  | cons innermost outer => exact innermost.row_add block

structure Shows (replay : Replay) (nesting : Nesting) : Prop where
  containers : replay.stack.map OpenBlock.kind = nesting.containers
  leaf : replay.lines.isSome = nesting.leaf.isSome

theorem Shows.add {replay : Replay} {nesting : Nesting} (shown : replay.Shows nesting)
    (block : Block) : (Replay.add block replay).Shows nesting := by
  obtain ⟨stack, root, lines⟩ := replay
  cases stack with
  | nil => exact ⟨shown.containers, shown.leaf⟩
  | cons innermost outer =>
    refine ⟨?_, shown.leaf⟩
    rw [← shown.containers]
    exact congrArg (· :: _) (innermost.kind_add block)

theorem step_cases {motive : Replay → Prop} {replay : Replay} {nesting after : Nesting}
    {token : Token} (shown : replay.Shows nesting) (fits : nesting.next token.kind = some after)
    (containerStart : ∀ container item, token.kind = .containerStart container item →
      replay.lines = none →
      motive { replay with stack := OpenBlock.ofKind container :: replay.stack })
    (newListItem : ∀ item number kind done current outer, token.kind = .newListItem item number →
      replay.stack = .list kind done current :: outer → replay.lines = none →
      motive { replay with stack := .list kind (done ++ [current]) [] :: outer })
    (containerEnd : ∀ innermost outer natural, token.kind = .containerEnd innermost.kind natural →
      replay.stack = innermost :: outer → replay.lines = none →
      motive (add innermost.close { replay with stack := outer }))
    (leafStart : ∀ kind, token.kind = .leafStart kind → replay.lines = none →
      motive { replay with lines := some [] })
    (leafContent : ∀ text isLazy lines, token.kind = .leafContent text isLazy →
      replay.lines = some lines → motive { replay with lines := some (lines ++ [text]) })
    (leafEnd : ∀ kind natural lines, token.kind = .leafEnd kind natural →
      replay.lines = some lines → motive (add (.leaf kind lines) { replay with lines := none }))
    (blankLine : token.kind = .blankLine → replay.lines = none → motive (add .blank replay)) :
    ∃ next, replay.step token = .ok next ∧ next.Shows after ∧ motive next := by
  obtain ⟨containers, leaf⟩ := nesting
  obtain ⟨rfl, sameLeaf⟩ := shown
  have noLines (none : leaf = none) : replay.lines = .none := by simpa [none] using sameLeaf
  have someLines {kind : LeafKind} (some : leaf = some kind) :
      ∃ lines, replay.lines = .some lines := by
    simpa [some, Option.isSome_iff_exists] using sameLeaf
  unfold step
  cases found : token.kind with
  | containerStart container item =>
    rw [found] at fits
    cases leaf with
    | some kind => cases fits
    | none =>
      cases fits
      refine ⟨_, rfl, ⟨?_, sameLeaf⟩, containerStart container item found (noLines rfl)⟩
      rw [List.map_cons, OpenBlock.kind_ofKind]
  | newListItem geometry number =>
    rw [found] at fits
    cases leaf with
    | some kind => simp [Nesting.next] at fits
    | none =>
      cases stack : replay.stack with
      | nil => simp [Nesting.next, stack] at fits
      | cons innermost outer =>
        rw [stack] at fits
        cases innermost with
        | quote children => cases fits
        | list kind done current =>
          cases fits
          exact ⟨_, rfl, ⟨rfl, sameLeaf⟩, newListItem geometry number kind done current outer found
            stack (noLines rfl)⟩
  | containerEnd container natural =>
    rw [found] at fits
    cases leaf with
    | some kind => simp [Nesting.next] at fits
    | none =>
      cases stack : replay.stack with
      | nil => simp [Nesting.next, stack] at fits
      | cons innermost outer =>
        rw [stack, List.map_cons] at fits
        by_cases same : container = innermost.kind
        · rw [Nesting.next, if_pos same] at fits
          cases fits
          subst same
          have outside : Shows { replay with stack := outer } ⟨outer.map OpenBlock.kind, none⟩ :=
            ⟨rfl, sameLeaf⟩
          exact ⟨_, rfl, outside.add _,
            containerEnd innermost outer natural found stack (noLines rfl)⟩
        · rw [Nesting.next, if_neg same] at fits
          cases fits
  | leafStart kind =>
    rw [found] at fits
    cases leaf with
    | some started => cases fits
    | none =>
      cases fits
      exact ⟨_, rfl, ⟨rfl, rfl⟩, leafStart kind found (noLines rfl)⟩
  | leafContent text isLazy =>
    rw [found] at fits
    cases leaf with
    | none => cases fits
    | some kind =>
      cases fits
      obtain ⟨lines, isOpen⟩ := someLines rfl
      rw [isOpen]
      exact ⟨_, rfl, ⟨rfl, rfl⟩, leafContent text isLazy lines found isOpen⟩
  | leafEnd kind natural =>
    rw [found] at fits
    cases leaf with
    | none => cases fits
    | some started =>
      by_cases same : kind = started
      · rw [Nesting.next, if_pos same] at fits
        cases fits
        obtain ⟨lines, isOpen⟩ := someLines rfl
        rw [isOpen]
        exact ⟨_, rfl, Shows.add ⟨rfl, rfl⟩ _, leafEnd kind natural lines found isOpen⟩
      · rw [Nesting.next, if_neg same] at fits
        cases fits
  | blankLine =>
    rw [found] at fits
    cases leaf with
    | some kind => cases fits
    | none =>
      cases fits
      exact ⟨_, rfl, Shows.add ⟨rfl, sameLeaf⟩ _, blankLine found (noLines rfl)⟩

end Replay
end BlockLint
