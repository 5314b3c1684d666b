import BlockLint.Tokenizer

/-!
A run in parts: the tokens that lines write, and the state that they lead to.
-/
namespace BlockLint.Tokenizer

def stateAfter (state : State) (lines : List Line) : State :=
  lines.foldl (fun state line => (step state line).2) state

/-- The tokens that lines write, without those of what they leave open. -/
def writtenFrom (state : State) : List Line → List Token
  | [] => []
  | line :: rest => (step state line).1 ++ writtenFrom (step state line).2 rest

theorem stateAfter_concat (state : State) (lines : List Line) (line : Line) :
    stateAfter state (lines ++ [line]) = (step (stateAfter state lines) line).2 := by
  rw [stateAfter, List.foldl_append]
  rfl

theorem writtenFrom_concat (state : State) (lines : List Line) (line : Line) :
    writtenFrom state (lines ++ [line]) =
      writtenFrom state lines ++ (step (stateAfter state lines) line).1 := by
  induction lines generalizing state with
  | nil => exact List.append_nil _
  | cons first rest ih =>
    simp only [List.cons_append, writtenFrom, ih, List.append_assoc]
    rfl

/-- Later lines are read in the state that the earlier ones lead to. -/
theorem runFrom_append (state : State) (first second : List Line) :
    runFrom state (first ++ second) =
      writtenFrom state first ++ runFrom (stateAfter state first) second := by
  induction first generalizing state with
  | nil => rfl
  | cons line rest ih =>
    simp only [List.cons_append, runFrom, writtenFrom, ih, List.append_assoc]
    rfl

theorem runFrom_eq (state : State) (lines : List Line) :
    runFrom state lines = writtenFrom state lines ++ finish (stateAfter state lines) := by
  have whole := runFrom_append state lines []
  rwa [List.append_nil] at whole

theorem split_append {left right before after : List Token} {token : Token}
    (same : left ++ right = before ++ token :: after) :
    (∃ back, left = before ++ token :: back ∧ after = back ++ right) ∨
      ∃ front, before = left ++ front ∧ right = front ++ token :: after := by
  rcases List.append_eq_append_iff.mp same with ⟨front, isBefore, isRight⟩ |
    ⟨middle, isLeft, isRest⟩
  · exact .inr ⟨front, isBefore, isRight⟩
  · cases middle with
    | nil =>
      rw [List.append_nil] at isLeft
      exact .inr ⟨[], by rw [isLeft, List.append_nil], isRest.symm⟩
    | cons first back =>
      cases isRest
      exact .inl ⟨back, isLeft, rfl⟩

/-- Every token is written for a line, or at the end. -/
theorem exists_line_of_split {state : State} {lines : List Line} {before after : List Token}
    {token : Token} (split : runFrom state lines = before ++ token :: after) :
    (∃ earlier line later front back, lines = earlier ++ line :: later ∧
      (step (stateAfter state earlier) line).1 = front ++ token :: back ∧
      before = writtenFrom state earlier ++ front ∧
      after = back ++ runFrom (stateAfter state (earlier ++ [line])) later) ∨
    ∃ front, before = writtenFrom state lines ++ front ∧
      finish (stateAfter state lines) = front ++ token :: after := by
  induction lines generalizing state before with
  | nil => exact .inr ⟨before, rfl, split⟩
  | cons line rest ih =>
    rcases split_append split with ⟨back, written, isAfter⟩ | ⟨front, isBefore, others⟩
    · exact .inl ⟨[], line, rest, before, back, rfl, written, rfl, isAfter⟩
    · rcases ih others with ⟨earlier, found, later, inner, back, rfl, written, rfl, isAfter⟩ |
        ⟨inner, rfl, finished⟩
      · refine .inl ⟨line :: earlier, found, later, inner, back, rfl, written, ?_, isAfter⟩
        rw [isBefore, writtenFrom, List.append_assoc]
        rfl
      · refine .inr ⟨inner, ?_, finished⟩
        rw [isBefore, writtenFrom, List.append_assoc]
        rfl

end BlockLint.Tokenizer
