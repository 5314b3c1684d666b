import BlockLint.Proofs.Cursors

/-!
A line walks the open containers from the outermost inwards and stops at the first that it does not
continue. So what it passes belongs to the containers that it continues, and the containers inside
of the one where it stops have no say.

The walk along a path is the walk along its first part and, if that is continued whole, the walk
along the others from there. All else about cut and changed paths follows.
-/
namespace BlockLint

namespace Cursor

/-- From a cursor to a later one there are spaces and signs of block quotes, so many of these. -/
def Passes (c later : Cursor) (quotes : Nat) : Prop :=
  ∃ passed : Text, c.rest = passed ++ later.rest ∧ later.offset = c.offset + passed.length ∧
    (∀ sign ∈ passed, sign = ' ' ∨ sign = '>') ∧ passed.count '>' = quotes

namespace Passes

theorem refl (c : Cursor) : c.Passes c 0 :=
  ⟨[], rfl, rfl, by simp, rfl⟩

theorem trans {first second third : Cursor} {quotes more : Nat}
    (left : first.Passes second quotes) (right : second.Passes third more) :
    first.Passes third (quotes + more) := by
  obtain ⟨passed, rest, offset, signs, count⟩ := left
  obtain ⟨further, rest', offset', signs', count'⟩ := right
  refine ⟨passed ++ further, by simp [rest, rest'], ?_, ?_, ?_⟩
  · simp only [offset', offset, List.length_append]
    omega
  · intro sign member
    rcases List.mem_append.mp member with inPassed | inFurther
    · exact signs sign inPassed
    · exact signs' sign inFurther
  · rw [List.count_append, count, count']

end Passes

theorem passes_spaces {c : Cursor} {count : Nat} (few : count ≤ c.indent) :
    c.Passes (c.skip count) 0 := by
  have whole := List.take_append_drop count c.rest
  rw [Text.take_spaces few] at whole
  refine ⟨List.replicate count ' ', whole.symm, by simp [skip], ?_, ?_⟩
  · intro sign member
    exact .inl (List.eq_of_mem_replicate member)
  · simp [List.count_replicate]

theorem passes_sign (c : Cursor) {rest : Text} (same : c.rest = '>' :: rest) :
    c.Passes (c.skip 1) 1 :=
  ⟨['>'], by simp [skip, same], rfl, by simp, rfl⟩

end Cursor

theorem quoteMarker?_passes {c after : Cursor} (found : quoteMarker? c = some after) :
    c.Passes after 1 := by
  have indented := Cursor.passes_spaces (Nat.le_refl c.indent)
  rcases quoteMarker?_cases found with ⟨rest, same, rfl⟩ | ⟨rest, same, rfl⟩
  · have sign := indented.trans ((c.skip c.indent).passes_sign same)
    have space : 1 ≤ ((c.skip c.indent).skip 1).indent := by
      have behind : ((c.skip c.indent).skip 1).rest = ' ' :: rest := by
        simpa [Cursor.skip] using congrArg (List.drop 1) same
      rw [Cursor.indent, behind]
      simp [Text.spaces]
    simpa using sign.trans (Cursor.passes_spaces space)
  · simpa using indented.trans ((c.skip c.indent).passes_sign same)

theorem Frame.continue?_passes {frame : Frame} {c next : Cursor}
    (continues : frame.continue? c = some next) :
    c.Passes next ([frame].count .blockQuote) := by
  cases frame with
  | blockQuote => exact quoteMarker?_passes continues
  | list kind item =>
    obtain ⟨count, few, rfl⟩ := ListItem.continue?_cases continues
    exact Cursor.passes_spaces few

namespace Containers

variable {c : Cursor} {path : Containers}

theorem matchFrom_passes (c : Cursor) (path : Containers) :
    c.Passes (matchFrom c path).cursor
      ((path.take (matchFrom c path).depth).count .blockQuote) := by
  induction path generalizing c with
  | nil => exact .refl c
  | cons frame inner ih =>
    unfold matchFrom
    cases continues : frame.continue? c with
    | none => exact .refl c
    | some next =>
      have both := (Frame.continue?_passes continues).trans (ih next)
      rwa [← List.count_append] at both

theorem matchFrom_append_of_all {outer : Containers}
    (all : (matchFrom c outer).depth = outer.length) (inner : Containers) :
    matchFrom c (outer ++ inner) =
      ⟨outer.length + (matchFrom (matchFrom c outer).cursor inner).depth,
        (matchFrom (matchFrom c outer).cursor inner).cursor⟩ := by
  induction outer generalizing c with
  | nil => simp [matchFrom]
  | cons frame rest ih =>
    simp only [List.cons_append, matchFrom] at all ⊢
    cases continues : frame.continue? c with
    | none => simp [continues] at all
    | some next =>
      simp only [continues, List.length_cons, Nat.add_right_cancel_iff] at all ⊢
      rw [ih all, Nat.add_right_comm]

/-- Containers inside of the one where the walk stops have no say. -/
theorem matchFrom_append_of_stops {outer : Containers}
    (stops : (matchFrom c outer).depth < outer.length) (inner : Containers) :
    matchFrom c (outer ++ inner) = matchFrom c outer := by
  induction outer generalizing c with
  | nil => simp at stops
  | cons frame rest ih =>
    simp only [List.cons_append, matchFrom] at stops ⊢
    cases continues : frame.continue? c with
    | none => rfl
    | some next =>
      simp only [continues, List.length_cons, Nat.add_lt_add_iff_right] at stops ⊢
      rw [ih stops]

/-- Either the line stops within the first containers, or it continues them all and goes on. -/
theorem matchFrom_take_cases (c : Cursor) (path : Containers) (count : Nat) :
    matchFrom c (path.take count) = matchFrom c path ∨
      (matchFrom c (path.take count)).depth = (path.take count).length ∧
        (path.take count).length ≤ (matchFrom c path).depth ∧
        (matchFrom c (path.take count)).cursor.Reaches (matchFrom c path).cursor := by
  have whole := List.take_append_drop count path
  rcases Nat.lt_or_eq_of_le (matchFrom_depth_le c (path.take count)) with stops | all
  · left
    have same := matchFrom_append_of_stops stops (path.drop count)
    rw [whole] at same
    exact same.symm
  · right
    have same := matchFrom_append_of_all all (path.drop count)
    rw [whole] at same
    rw [same]
    exact ⟨all, Nat.le_add_right _ _, matchFrom_reaches _ _⟩

theorem matchFrom_take_of_le {count : Nat} (few : count ≤ (matchFrom c path).depth) :
    (matchFrom c (path.take count)).depth = count := by
  have within := matchFrom_depth_le c path
  have taken := matchFrom_depth_le c (path.take count)
  rw [List.length_take] at taken
  rcases matchFrom_take_cases c path count with same | ⟨all, _⟩
  · rw [same] at taken ⊢
    omega
  · rw [all, List.length_take]
    omega

theorem matchFrom_take_of_lt {count : Nat} (many : (matchFrom c path).depth < count) :
    matchFrom c (path.take count) = matchFrom c path := by
  rcases matchFrom_take_cases c path count with same | ⟨_, within, _⟩
  · exact same
  · rw [List.length_take] at within
    rw [List.take_of_length_le (by omega)]

theorem matchFrom_take_reaches (c : Cursor) (path : Containers) (count : Nat) :
    (matchFrom c (path.take count)).cursor.Reaches (matchFrom c path).cursor := by
  rcases matchFrom_take_cases c path count with same | ⟨_, _, reaches⟩
  · rw [same]
    exact .refl _
  · exact reaches

/-- Any path that agrees with the first up to the container where the line stops is walked alike. -/
theorem matchFrom_eq_of_take_eq {other : Containers}
    (stops : (matchFrom c path).depth < path.length)
    (same : other.take ((matchFrom c path).depth + 1) = path.take ((matchFrom c path).depth + 1)) :
    matchFrom c other = matchFrom c path := by
  have cut := matchFrom_take_of_lt (Nat.lt_succ_self (matchFrom c path).depth)
  have early : (matchFrom c (path.take ((matchFrom c path).depth + 1))).depth <
      (path.take ((matchFrom c path).depth + 1)).length := by
    rw [cut, List.length_take]
    omega
  calc matchFrom c other
      = matchFrom c (path.take ((matchFrom c path).depth + 1) ++
          other.drop ((matchFrom c path).depth + 1)) := by rw [← same, List.take_append_drop]
    _ = matchFrom c (path.take ((matchFrom c path).depth + 1)) :=
        matchFrom_append_of_stops early _
    _ = matchFrom c path := cut

/-- How a line walks a path of containers to where it stops. It passes one sign for each block quote
that it continues. A path cut short is walked as far as it goes, and what lies inside of the
container where the line stops makes no difference. -/
structure Walk (path : Containers) (text : Text) (found : Match) : Prop where
  depth_le : found.depth ≤ path.length
  offset_le : found.cursor.offset ≤ Text.size text
  boundary : Text.isBoundary text found.cursor.offset = true
  lead : ∃ lead, text = lead ++ found.cursor.rest ∧ Text.size lead = found.cursor.offset ∧
    (∀ sign ∈ lead, sign = ' ' ∨ sign = '>') ∧
    lead.count '>' = (path.take found.depth).count .blockQuote
  cut : ∀ count, count ≤ found.depth → (matchLine (path.take count) text).depth = count
  cutLater : ∀ count, found.depth < count → matchLine (path.take count) text = found
  monotone : ∀ fewer more, fewer ≤ more →
    (matchLine (path.take fewer) text).cursor.offset ≤
      (matchLine (path.take more) text).cursor.offset
  stops : found.depth < path.length → ∀ other : Containers,
    other.take (found.depth + 1) = path.take (found.depth + 1) → other.matchLine text = found

/-- A line passes only its own share in the containers that it continues, and each container is
asked without regard to those inside of it. -/
theorem matchLine_walk (path : Containers) (text : Text) :
    path.Walk text (path.matchLine text) := by
  obtain ⟨lead, whole, offset, signs, quotes⟩ := matchFrom_passes (.start text) path
  have size : Text.size lead = (path.matchLine text).cursor.offset := by
    have plain : Text.Plain lead := by
      intro sign member
      rcases signs sign member with rfl | rfl <;> decide
    rw [plain.size_eq_length]
    exact (offset.trans (Nat.zero_add _)).symm
  have isText : text = lead ++ (path.matchLine text).cursor.rest := whole
  constructor
  case depth_le => exact matchFrom_depth_le (.start text) path
  case offset_le =>
    have total := congrArg Text.size isText
    rw [Text.size_append] at total
    omega
  case boundary =>
    have between := Text.isBoundary_append lead (path.matchLine text).cursor.rest
    rwa [← isText, size] at between
  case lead => exact ⟨lead, isText, size, signs, quotes⟩
  case cut =>
    intro count few
    exact matchFrom_take_of_le few
  case cutLater =>
    intro count many
    exact matchFrom_take_of_lt many
  case monotone =>
    intro fewer more order
    have reaches := matchFrom_take_reaches (.start text) (path.take more) fewer
    rw [List.take_take, Nat.min_eq_left order] at reaches
    obtain ⟨_, _, _, offset⟩ := reaches
    exact Nat.le.intro offset.symm
  case stops =>
    intro early other same
    exact matchFrom_eq_of_take_eq early same

-- The line stops at the item, although the sign of the quote inside of it is there.
example :
    let item : ListItem := ⟨0, 3, 3, false, true, false⟩
    let found := matchLine [.blockQuote, .list (.ordered 1 '.') item, .blockQuote]
      ['>', ' ', ' ', ' ', '>', ' ', 'a']
    found.depth = 1 ∧ found.cursor.offset = 2 := by
  decide

end Containers
end BlockLint
