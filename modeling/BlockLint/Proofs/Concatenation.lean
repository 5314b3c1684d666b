import BlockLint.Proofs.Correspondence
import BlockLint.Proofs.SourceLines
import BlockLint.Proofs.Tokenizer.Progress

/-!
One document below another. If the upper one ends its last line and leaves nothing open, the lower
one is read as it would be alone, and only its line numbers tell what stands before it.
-/
namespace BlockLint

def Position.below (count : Nat) (position : Position) : Position :=
  { position with line := position.line + count }

def Token.below (count : Nat) (token : Token) : Token :=
  { token with position := token.position.below count }

structure Line.Below (count : Nat) (line line' : Line) : Prop where
  number : line'.number = line.number + count
  text : line'.text = line.text
  ending : line'.ending = line.ending
  tabWidth : line'.tabWidth = line.tabWidth

def Likeness.below (count : Nat) : Likeness where
  rel position literal position' literal' :=
    position' = position.below count ∧ literal' = literal
  bare := fun same => ⟨same.1, rfl⟩

namespace Line.Below

variable {count : Nat} {line line' : Line}

theorem expansion (below : line.Below count line') : line'.expansion = line.expansion := by
  rw [Line.expansion, Line.expansion, below.text, below.tabWidth]

theorem position (below : line.Below count line') (offset : Nat) :
    line'.position offset = (line.position offset).below count := by
  simp only [Line.position, Line.column, Line.endColumn, Position.below, below.number, below.text,
    below.expansion]

theorem alike (below : line.Below count line') : line.Alike (.below count) line' := by
  refine ⟨congrArg Expansion.text below.expansion, ?_, ?_, ?_⟩
  · intro c literal _ _
    exact ⟨below.position c.offset, rfl⟩
  · intro c body _ _
    exact ⟨below.position c.offset, by rw [below.ending]⟩
  · refine ⟨?_, rfl⟩
    simp only [Line.endPosition, Line.endColumn, Position.below, below.number, below.text]

end Line.Below

theorem Token.Alike.eq_below {count : Nat} {token token' : Token}
    (alike : Token.Alike (.below count) token token') : token.below count = token' := by
  obtain ⟨kind, lead, position, literal⟩ := alike
  cases token'
  simp_all [Token.below]

namespace Source

theorem Tiling.append {first second : List Text} (tiling : Tiling first)
    (ended : first.flatten = [] ∨ first.flatten.getLast? = some '\n') (others : Tiling second) :
    Tiling (first ++ second) := by
  induction tiling with
  | nil => exact others
  | @last body noNewline filled =>
    simp only [List.flatten_cons, List.flatten_nil, List.append_nil] at ended
    rcases ended with empty | last
    · exact absurd empty filled
    · exact absurd (List.mem_of_getLast? last) noNewline
  | @cons body rest noNewline _ ih =>
    refine .cons noNewline (ih ?_)
    by_cases empty : rest.flatten = []
    · exact .inl empty
    · right
      rcases ended with none | last
      · simp at none
      · rwa [List.flatten_cons, List.getLast?_append_of_ne_nil _ empty] at last

theorem rawLines_append_of_ended {first : Text} (ended : first = [] ∨ first.getLast? = some '\n')
    (second : Text) : rawLines (first ++ second) = rawLines first ++ rawLines second := by
  rw [← flatten_rawLines first] at ended
  have tiling := (rawLines_tiling first).append ended (rawLines_tiling second)
  have whole := tiling.rawLines_flatten
  rwa [List.flatten_append, flatten_rawLines, flatten_rawLines] at whole

theorem layOut_append (tabWidth number start : Nat) (first second : List Text) :
    layOut tabWidth number start (first ++ second) =
      layOut tabWidth number start first ++
        layOut tabWidth (number + first.length) (start + Text.size first.flatten) second := by
  induction first generalizing number start with
  | nil => rfl
  | cons raw rest ih =>
    have numbers : number + 1 + rest.length = number + (raw :: rest).length := by
      rw [List.length_cons]
      omega
    have starts : start + Text.size raw + Text.size rest.flatten =
        start + Text.size (raw :: rest).flatten := by
      rw [List.flatten_cons, Text.size_append, Nat.add_assoc]
    simp only [List.cons_append, layOut, ih, numbers, starts]

theorem layOut_below (tabWidth number start start' count : Nat) (raws : List Text) :
    List.Forall₂ (Line.Below count) (layOut tabWidth number start raws)
      (layOut tabWidth (number + count) start' raws) := by
  induction raws generalizing number start start' with
  | nil => exact .nil
  | cons raw rest ih =>
    refine .cons ⟨rfl, rfl, rfl, rfl⟩ ?_
    rw [Nat.add_right_comm]
    exact ih _ _ _

/-- The lines of a document below another are its own, with later numbers. -/
theorem lines_append {first : Text} (ended : first = [] ∨ first.getLast? = some '\n')
    (second : Text) (tabWidth : Nat) :
    ∃ below, (ofText (first ++ second) tabWidth).lines = (ofText first tabWidth).lines ++ below ∧
      List.Forall₂ (Line.Below (ofText first tabWidth).length) (ofText second tabWidth).lines
        below := by
  have count : (ofText first tabWidth).length = (rawLines first).length := by
    have numbers := congrArg List.length (layOut_numbers tabWidth 1 0 (rawLines first))
    rwa [List.length_map, List.length_range'] at numbers
  rw [count, ofText, rawLines_append_of_ended ended, layOut_append]
  exact ⟨_, rfl, layOut_below tabWidth 1 0 _ _ _⟩

end Source

namespace Tokenizer

def State.Idle (state : State) : Prop :=
  state.containers = [] ∧ state.leaf = .none

instance (state : State) : Decidable state.Idle :=
  inferInstanceAs (Decidable (_ ∧ _))

theorem finish_of_idle {state : State} (idle : state.Idle) : finish state = [] := by
  rw [finish, idle.1, idle.2]
  rfl

/-- An idle state differs from the initial one in where the last line ended, which only an end can
tell. -/
theorem runFrom_below {state : State} (idle : state.Idle) {count : Nat} {lines lines' : List Line}
    (below : List.Forall₂ (Line.Below count) lines lines') :
    runFrom state lines' = (run lines).map (Token.below count) := by
  have states : State.Alike (.below count) .initial state := by
    refine ⟨idle.1, ?_, .inr ⟨rfl, rfl⟩⟩
    rw [idle.2]
    exact .none
  have alike := runFrom_alike (below.imp fun _ _ line => line.alike) states
  have same : List.Forall₂ Eq ((run lines).map (Token.below count)) (runFrom state lines') :=
    List.forall₂_map_left_iff.mpr (alike.imp fun _ _ token => token.eq_below)
  rw [List.forall₂_eq_eq_eq] at same
  exact same.symm

end Tokenizer

open Tokenizer

/-- A document whose last line is ended and after which nothing is open keeps its tokens in front of
any other, which keeps its own but for their line numbers. -/
theorem tokenize_append {first : Text} {tabWidth : Nat}
    (ended : first = [] ∨ first.getLast? = some '\n')
    (idle : (stateAfter .initial (Source.ofText first tabWidth).lines).Idle) (second : Text) :
    tokenize (first ++ second) tabWidth =
      tokenize first tabWidth ++
        (tokenize second tabWidth).map (Token.below (Source.ofText first tabWidth).length) := by
  obtain ⟨below, lines, shifted⟩ := Source.lines_append ended second tabWidth
  have upper : tokenize first tabWidth =
      writtenFrom .initial (Source.ofText first tabWidth).lines := by
    rw [tokenize, Source.tokens, run, runFrom_eq, finish_of_idle idle, List.append_nil]
  rw [tokenize, Source.tokens, run, lines, runFrom_append, runFrom_below idle shifted, upper]
  rfl

theorem tokenize_append_below_heading :
    let first := ['#', ' ', 'a', '\n', '\n']
    let second := ['-', ' ', 'b', '\n', ' ', ' ', 'c']
    first.getLast? = some '\n' ∧ (stateAfter .initial (Source.ofText first 4).lines).Idle ∧
      tokenize (first ++ second) 4 =
        tokenize first 4 ++ (tokenize second 4).map (Token.below 2) := by
  intro first second
  have ended : first.getLast? = some '\n' := rfl
  have idle : (stateAfter .initial (Source.ofText first 4).lines).Idle := by decide +kernel
  exact ⟨ended, idle, tokenize_append (.inr ended) idle second⟩

end BlockLint
