import BlockLint.Proofs.Nesting

/-!
What is open at a place of any stream, whether or not its tokens fit. A stream whose tokens do not
fit is told by its first misfit, and those of the tokenizer have none.
-/
namespace BlockLint

/-- The open containers, innermost first, and the texts of the open leaf. -/
structure Outline where
  containers : List ContainerKind
  lines : Option (List Text)
deriving Repr, DecidableEq

namespace Outline

def empty : Outline :=
  ⟨[], none⟩

def next (outline : Outline) : TokenKind → Outline
  | .containerStart container _ =>
    { outline with containers := container :: outline.containers }
  | .containerEnd _ _ => { outline with containers := outline.containers.tail }
  | .leafStart _ => { outline with lines := some [] }
  | .leafContent text _ => { outline with lines := outline.lines.map (· ++ [text]) }
  | .leafEnd _ _ => { outline with lines := none }
  | .newListItem _ _ | .blankLine => outline

/-- An end needs something that it ends, an item a list, and content a leaf. -/
def admits (outline : Outline) : TokenKind → Bool
  | .containerEnd _ _ => !outline.containers.isEmpty
  | .newListItem _ _ => outline.containers.head?.any ContainerKind.isList
  | .leafContent _ _ | .leafEnd _ _ => outline.lines.isSome
  | .containerStart _ _ | .leafStart _ | .blankLine => true

def after (outline : Outline) (tokens : List Token) : Outline :=
  tokens.foldl (fun outline token => outline.next token.kind) outline

@[simp] theorem after_nil (outline : Outline) : outline.after [] = outline := rfl

@[simp] theorem after_cons (outline : Outline) (token : Token) (rest : List Token) :
    outline.after (token :: rest) = (outline.next token.kind).after rest := rfl

@[simp] theorem after_append (outline : Outline) (left right : List Token) :
    outline.after (left ++ right) = (outline.after left).after right :=
  List.foldl_append

/-- Some token does not fit what is open before it, or a container stays open. -/
def Misfit (outline : Outline) (tokens : List Token) : Prop :=
  (∃ before token rest, tokens = before ++ token :: rest ∧
      (outline.after before).admits token.kind = false) ∨
    (outline.after tokens).containers ≠ []

theorem misfit_nil (outline : Outline) : outline.Misfit [] ↔ outline.containers ≠ [] := by
  simp [Misfit]

theorem misfit_cons (outline : Outline) (token : Token) (rest : List Token) :
    outline.Misfit (token :: rest) ↔
      outline.admits token.kind = false ∨ (outline.next token.kind).Misfit rest := by
  constructor
  · rintro (⟨before, found, later, split, misfits⟩ | stays)
    · rcases List.cons_eq_append_iff.mp split with ⟨rfl, same⟩ | ⟨before', rfl, same⟩
      · cases same
        exact .inl misfits
      · exact .inr (.inl ⟨before', found, later, same, misfits⟩)
    · exact .inr (.inr stays)
  · rintro (here | ⟨before, found, later, rfl, misfits⟩ | stays)
    · exact .inl ⟨[], token, rest, rfl, here⟩
    · exact .inl ⟨token :: before, found, later, rfl, misfits⟩
    · exact .inr stays

structure Shows (outline : Outline) (nesting : Nesting) : Prop where
  containers : outline.containers = nesting.containers
  leaf : outline.lines.isSome = nesting.leaf.isSome

theorem shows_next {outline : Outline} {nesting after : Nesting} {kind : TokenKind}
    (shown : outline.Shows nesting) (fits : nesting.next kind = some after) :
    outline.admits kind = true ∧ (outline.next kind).Shows after := by
  obtain ⟨same, open?⟩ := shown
  cases Nesting.step_of_next fits with
  | containerStart container item outer =>
    exact ⟨rfl, congrArg (container :: ·) same, open?⟩
  | newListItem item number kind outer =>
    exact ⟨by simp [admits, same, ContainerKind.isList], same, open?⟩
  | containerEnd container natural outer =>
    exact ⟨by simp [admits, same], by simp [next, same], open?⟩
  | leafStart leaf outer => exact ⟨rfl, same, rfl⟩
  | leafContent text isLazy leaf outer => exact ⟨open?, same, by simpa [next] using open?⟩
  | leafEnd leaf natural outer => exact ⟨open?, same, rfl⟩
  | blankLine outer => exact ⟨rfl, same, open?⟩

theorem shows_after {outline : Outline} {nesting last : Nesting} {tokens : List Token}
    (shown : outline.Shows nesting) (nests : nesting.replay tokens = some last) :
    (outline.after tokens).Shows last := by
  induction tokens generalizing outline nesting with
  | nil =>
    cases Option.some.inj nests
    exact shown
  | cons token rest ih =>
    obtain ⟨after, fits, others⟩ := Option.bind_eq_some_iff.mp nests
    exact ih (shows_next shown fits).2 others

theorem not_misfit {outline : Outline} {nesting : Nesting} {tokens : List Token}
    (shown : outline.Shows nesting) (nests : nesting.replay tokens = some .closed) :
    ¬ outline.Misfit tokens := by
  induction tokens generalizing outline nesting with
  | nil =>
    cases Option.some.inj nests
    rw [misfit_nil]
    exact fun some => some shown.containers
  | cons token rest ih =>
    obtain ⟨after, fits, others⟩ := Option.bind_eq_some_iff.mp nests
    obtain ⟨admitted, shows'⟩ := shows_next shown fits
    rw [misfit_cons]
    rintro (here | later)
    · simp [admitted] at here
    · exact ih shows' others later

end Outline

theorem tokenize_wellNested (text : Text) (tabWidth : Nat) : WellNested (tokenize text tabWidth) :=
  Tokenizer.replay_runFrom .initial (Source.ofText text tabWidth).lines trivial

theorem tokenize_not_misfit (text : Text) (tabWidth : Nat) :
    ¬ Outline.empty.Misfit (tokenize text tabWidth) :=
  Outline.not_misfit ⟨rfl, rfl⟩ (tokenize_wellNested text tabWidth)

end BlockLint
