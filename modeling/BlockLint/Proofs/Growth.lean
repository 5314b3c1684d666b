import BlockLint.Proofs.NaturalEnds
import BlockLint.Proofs.Strict.Agreement
import BlockLint.Proofs.Tokenizer.Progress

/-!
Tokens only grow with the lines. Once there, a token stays as it is, except that the start of the
paragraph that is open may become that of a setext heading. The end of a document adds only ends,
and the blank lines that were held behind indented code.

The tokens that there are after some lines are the stream of the tokenizer that works in place. The
other tokenizer has them too, the last of them in the paragraph that it keeps open.
-/
namespace BlockLint

/-- The later tokens begin with the earlier ones, but for the start of the paragraph that was open
between them, if a setext underline has made that a heading. -/
def Grows (leaf : OpenLeaf) (earlier later : List Token) : Prop :=
  earlier <+: later ∨
    ∃ before opening contents level, leaf = .paragraph opening contents ∧
      opening.kind = .leafStart .paragraph ∧ earlier = before ++ opening :: contents ∧
      before ++ { opening with kind := .leafStart (.setextHeading level) } :: contents <+: later

theorem Grows.behind {leaf : OpenLeaf} {earlier later : List Token}
    (grows : Grows leaf earlier later) (front : List Token) :
    Grows leaf (front ++ earlier) (front ++ later) := by
  rcases grows with same | ⟨before, opening, contents, level, isParagraph, starts, rfl, turned⟩
  · exact .inl ((List.prefix_append_right_inj front).mpr same)
  · refine .inr ⟨front ++ before, opening, contents, level, isParagraph, starts, ?_, ?_⟩
    · rw [List.append_assoc]
    · rw [List.append_assoc]
      exact (List.prefix_append_right_inj front).mpr turned

def Token.Finishes (held : List HeldBlank) (token : Token) : Prop :=
  token.isEnd = true ∨ token.kind = .blankLine ∧ ∃ blank ∈ held, blank.token = token

theorem OpenLeaf.close_finishes {leaf : OpenLeaf} (coherent : leaf.Coherent) (natural : Bool)
    (position : Position) :
    ∃ ends, leaf.close natural position = leaf.pending ++ ends ∧
      ∀ token ∈ ends, token.Finishes leaf.held := by
  cases leaf with
  | none =>
    refine ⟨[], rfl, ?_⟩
    intro token member
    cases member
  | paragraph opening contents =>
    refine ⟨_, rfl, ?_⟩
    intro token member
    cases List.mem_singleton.mp member
    exact .inl rfl
  | indentedCode held =>
    refine ⟨_, rfl, ?_⟩
    intro token member
    rcases List.mem_cons.mp member with rfl | isBlank
    · exact .inl rfl
    · obtain ⟨blank, isHeld, rfl⟩ := List.mem_map.mp isBlank
      exact .inr ⟨coherent blank isHeld, blank, isHeld, rfl⟩
  | fencedCode fence =>
    refine ⟨_, rfl, ?_⟩
    intro token member
    cases List.mem_singleton.mp member
    exact .inl rfl

namespace Tokenizer

/-- The tokens that there are after lines, with those of a paragraph that is open. -/
def tokensAfter (lines : List Line) : List Token :=
  writtenFrom .initial lines ++ (stateAfter .initial lines).leaf.pending

theorem lineEffect_grows (containers : Containers) {leaf : OpenLeaf} (coherent : leaf.Coherent)
    (line : Line) :
    Grows leaf leaf.pending
      ((lineEffect containers leaf line).written ++
        (lineEffect containers leaf line).leaf.pending) := by
  cases leaf with
  | paragraph opening contents =>
    have starts := coherent.1
    rcases lineEffect_keepsParagraph containers line contents starts with
      ⟨none, more, stays⟩ | ⟨kind, isKind, written⟩
    · left
      rw [none, stays]
      exact ⟨more, rfl⟩
    · have written := written.trans (List.prefix_append _
        (lineEffect containers (.paragraph opening contents) line).leaf.pending)
      rcases isKind with rfl | ⟨level, rfl⟩
      · left
        rwa [← starts] at written
      · exact .inr ⟨[], opening, contents, level, rfl, starts, rfl, written⟩
  | _ => exact .inl List.nil_prefix

theorem stateAfter_coherent (state : State) (coherent : state.leaf.Coherent) (lines : List Line) :
    (stateAfter state lines).leaf.Coherent := by
  induction lines generalizing state with
  | nil => exact coherent
  | cons line rest ih =>
    exact ih _ (lineEffect_nests state.containers state.leaf line coherent).coherent

theorem tokensAfter_concat (lines : List Line) (line : Line) :
    Grows (stateAfter .initial lines).leaf (tokensAfter lines)
      (tokensAfter (lines ++ [line])) := by
  have coherent := stateAfter_coherent .initial trivial lines
  have grows := lineEffect_grows (stateAfter .initial lines).containers coherent line
  rw [tokensAfter, tokensAfter, stateAfter_concat, writtenFrom_concat, List.append_assoc]
  exact grows.behind _

theorem finish_finishes {state : State} (coherent : state.leaf.Coherent) :
    ∃ ends, finish state = state.leaf.pending ++ ends ∧
      ∀ token ∈ ends, token.Finishes state.leaf.held := by
  obtain ⟨ends, closing, finishes⟩ := state.leaf.close_finishes coherent false state.reached
  refine ⟨ends ++ state.containers.close false state.reached, ?_, ?_⟩
  · rw [finish, closing, List.append_assoc]
  · intro token member
    rcases List.mem_append.mp member with ofLeaf | ofContainers
    · exact finishes token ofLeaf
    · obtain ⟨frame, _, rfl⟩ := List.mem_map.mp ofContainers
      exact .inl rfl

/-- With each line the tokens grow. Were it the last line, only ends and held blank lines would be
added. -/
theorem tokensAfter_grow (lines : List Line) (count : Nat) :
    ∃ state : Strict.State,
      (lines.take count).foldlM Strict.State.step .initial = .ok state ∧
      state.tokens = tokensAfter (lines.take count) ∧
      Grows (stateAfter .initial (lines.take count)).leaf (tokensAfter (lines.take count))
        (tokensAfter (lines.take (count + 1))) ∧
      ∃ ends, run (lines.take count) = tokensAfter (lines.take count) ++ ends ∧
        ∀ token ∈ ends, token.Finishes state.held := by
  have coherent := stateAfter_coherent .initial trivial (lines.take count)
  obtain ⟨ends, finished, finishes⟩ := finish_finishes coherent
  refine ⟨_, Strict.State.foldlM_showing [] .initial trivial _, rfl, ?_, ends, ?_,
    finishes⟩
  · rw [List.take_add_one]
    cases lines[count]? with
    | none =>
      rw [Option.toList_none, List.append_nil]
      exact .inl (List.prefix_refl _)
    | some line => exact tokensAfter_concat _ line
  · rw [run, runFrom_eq, finished, tokensAfter, List.append_assoc]

end Tokenizer
end BlockLint
