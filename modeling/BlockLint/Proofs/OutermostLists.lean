import BlockLint.Proofs.Outline

/-!
The outermost lists of a stream: those that start where no list is open. Each is told by the tokens
around its start, and it lasts to the end that matches the start.
-/
namespace BlockLint

/-- The start of a list in a stream, with the tokens before and after it. -/
structure ListPlace where
  before : List Token
  start : Token
  after : List Token
deriving Repr, DecidableEq

def Token.startsList (token : Token) : Bool :=
  token.opened?.any ContainerKind.isList

def Outline.insideList (outline : Outline) : Bool :=
  outline.containers.any ContainerKind.isList

def outermostFrom (before : List Token) : List Token → List ListPlace
  | [] => []
  | token :: rest =>
    if token.startsList && !(Outline.empty.after before).insideList then
      ⟨before, token, rest⟩ :: outermostFrom (before ++ [token]) rest
    else outermostFrom (before ++ [token]) rest

def outermostLists (tokens : List Token) : List ListPlace :=
  outermostFrom [] tokens

theorem mem_outermostFrom {before tokens : List Token} {list : ListPlace} :
    list ∈ outermostFrom before tokens ↔
      ∃ between, list.before = before ++ between ∧
        tokens = between ++ list.start :: list.after ∧ list.start.startsList = true ∧
          (Outline.empty.after list.before).insideList = false := by
  induction tokens generalizing before with
  | nil => simp [outermostFrom]
  | cons token rest ih =>
    have later : list ∈ outermostFrom (before ++ [token]) rest ↔
        ∃ between, list.before = before ++ token :: between ∧
          rest = between ++ list.start :: list.after ∧ list.start.startsList = true ∧
            (Outline.empty.after list.before).insideList = false := by
      rw [ih]
      simp
    constructor
    · intro member
      unfold outermostFrom at member
      split at member
      · rename_i outermost
        simp only [Bool.and_eq_true, Bool.not_eq_eq_eq_not, Bool.not_true] at outermost
        rcases List.mem_cons.mp member with rfl | member
        · exact ⟨[], by simp, rfl, outermost⟩
        · obtain ⟨between, same, rfl, starts⟩ := later.mp member
          exact ⟨token :: between, same, rfl, starts⟩
      · obtain ⟨between, same, rfl, starts⟩ := later.mp member
        exact ⟨token :: between, same, rfl, starts⟩
    · rintro ⟨between, same, split, starts, outside⟩
      unfold outermostFrom
      cases between with
      | nil =>
        cases split
        rw [List.append_nil] at same
        rw [if_pos (by simp [starts, ← same, outside])]
        exact List.mem_cons.mpr (.inl (by rw [← same]))
      | cons first between =>
        cases split
        have member := later.mpr ⟨between, same, rfl, starts, outside⟩
        split
        · exact List.mem_cons_of_mem _ member
        · exact member

theorem mem_outermostLists {tokens : List Token} {list : ListPlace} :
    list ∈ outermostLists tokens ↔
      tokens = list.before ++ list.start :: list.after ∧ list.start.startsList = true ∧
        (Outline.empty.after list.before).insideList = false := by
  rw [outermostLists, mem_outermostFrom]
  constructor
  · rintro ⟨between, rfl, split, starts⟩
    exact ⟨split, starts⟩
  · rintro ⟨split, starts⟩
    exact ⟨list.before, rfl, split, starts⟩

/-- How many containers are open inside one after a token, unless the token ends that one. -/
def TokenKind.depthAfter (depth : Nat) : TokenKind → Option Nat
  | .containerStart _ _ => some (depth + 1)
  | .containerEnd _ _ =>
    match depth with
    | 0 => none
    | depth + 1 => some depth
  | _ => some depth

def TokenKind.containersAfter (containers : List ContainerKind) : TokenKind → List ContainerKind
  | .containerStart container _ => container :: containers
  | .containerEnd _ _ => containers.tail
  | _ => containers

theorem Outline.next_containers (outline : Outline) (kind : TokenKind) :
    (outline.next kind).containers = kind.containersAfter outline.containers := by
  cases kind <;> rfl

theorem Nesting.next_containers {nesting after : Nesting} {kind : TokenKind}
    (fits : nesting.next kind = some after) :
    after.containers = kind.containersAfter nesting.containers := by
  cases step_of_next fits <;> rfl

theorem TokenKind.containersAfter_cases (kind : TokenKind) (inner outer : List ContainerKind)
    (container : ContainerKind) :
    (kind.depthAfter inner.length = none ∧ inner = [] ∧
        kind.containersAfter (inner ++ container :: outer) = outer ∧
        ∃ closed natural, kind = .containerEnd closed natural) ∨
      ∃ inner', kind.depthAfter inner.length = some inner'.length ∧
        kind.containersAfter (inner ++ container :: outer) = inner' ++ container :: outer := by
  cases kind with
  | containerStart opened item => exact .inr ⟨opened :: inner, rfl, rfl⟩
  | containerEnd closed natural =>
    cases inner with
    | nil => exact .inl ⟨rfl, rfl, rfl, closed, natural, rfl⟩
    | cons innermost inner => exact .inr ⟨inner, rfl, rfl⟩
  | _ => exact .inr ⟨inner, rfl, rfl⟩

/-- What stands in a container, its end, and what follows. -/
structure Extent where
  inside : List Token
  close : Token
  later : List Token
deriving Repr, DecidableEq

def Extent.behind (token : Token) (extent : Extent) : Extent :=
  { extent with inside := token :: extent.inside }

/-- The rest of a container in which `depth` others are open. -/
def extent? (depth : Nat) : List Token → Option Extent
  | [] => none
  | token :: rest =>
    match token.kind.depthAfter depth with
    | none => some ⟨[], token, rest⟩
    | some depth => (extent? depth rest).map (·.behind token)

theorem extent?_of_ends {token : Token} {depth : Nat}
    (ends : token.kind.depthAfter depth = none) (rest : List Token) :
    extent? depth (token :: rest) = some ⟨[], token, rest⟩ := by
  rw [extent?, ends]

theorem extent?_of_stays {token : Token} {depth depth' : Nat}
    (stays : token.kind.depthAfter depth = some depth') (rest : List Token) :
    extent? depth (token :: rest) = (extent? depth' rest).map (·.behind token) := by
  rw [extent?, stays]

def ListPlace.extent? (list : ListPlace) : Option Extent :=
  BlockLint.extent? 0 list.after

theorem extent?_split {depth : Nat} {tokens : List Token} {extent : Extent}
    (found : extent? depth tokens = some extent) :
    tokens = extent.inside ++ extent.close :: extent.later := by
  induction tokens generalizing depth extent with
  | nil => cases found
  | cons token rest ih =>
    unfold extent? at found
    split at found
    · cases found
      rfl
    · obtain ⟨inner, rest, rfl⟩ := Option.map_eq_some_iff.mp found
      exact congrArg (token :: ·) (ih rest)

namespace Nesting

/-- Tokens that stand behind others fit what these leave open. -/
theorem exists_replay_append {start last : Nesting} {left right : List Token}
    (nests : start.replay (left ++ right) = some last) :
    ∃ middle, start.replay left = some middle ∧ middle.replay right = some last := by
  induction left generalizing start with
  | nil => exact ⟨start, rfl, nests⟩
  | cons token rest ih =>
    obtain ⟨after, fits, others⟩ := Option.bind_eq_some_iff.mp nests
    obtain ⟨middle, first, second⟩ := ih others
    exact ⟨middle, Option.bind_eq_some_iff.mpr ⟨after, fits, first⟩, second⟩

/-- A container that is open has its end among the tokens that close all. After its end, what was
open around it is open still. -/
theorem exists_extent {nesting : Nesting} {tokens : List Token}
    (nests : nesting.replay tokens = some .closed) {inner outer : List ContainerKind}
    {container : ContainerKind} (same : nesting.containers = inner ++ container :: outer) :
    ∃ extent natural, extent? inner.length tokens = some extent ∧
      extent.close.kind = .containerEnd container natural ∧
      replay ⟨outer, none⟩ extent.later = some .closed := by
  induction tokens generalizing nesting inner with
  | nil =>
    cases Option.some.inj nests
    cases inner <;> cases same
  | cons token rest ih =>
    obtain ⟨after, fits, others⟩ := Option.bind_eq_some_iff.mp nests
    have left := next_containers fits
    rw [same] at left
    rcases token.kind.containersAfter_cases inner outer container with
      ⟨ends, rfl, _, closed, natural, kind⟩ | ⟨inner', stays, remain⟩
    · rw [kind] at fits
      cases step_of_next fits
      cases same
      exact ⟨⟨[], token, rest⟩, natural, extent?_of_ends ends rest, kind, others⟩
    · obtain ⟨extent, natural, found, kind, closes⟩ := ih others (left.trans remain)
      refine ⟨extent.behind token, natural, ?_, kind, closes⟩
      rw [extent?_of_stays stays, found]
      rfl

end Nesting
end BlockLint
