import BlockLint.Proofs.Embedding
import BlockLint.Proofs.RoundTrip

/-!
A document inside a container. Where the first line opens one container more and the other lines
continue it, the tokens are those of the inner document, moved to the right, between the start and
the end of the container.

The two runs go side by side as far as kinds, positions and literals go. Leads follow from how each
run on its own shares out its lines.
-/
namespace BlockLint

/-- The tokens that follow `before` in a document, as they stand inside a container of which
`front` is the share of every line but the first. -/
def embedFrom (front : Text) : List Token → List Token → List Token
  | _, [] => []
  | before, token :: rest =>
    { kind := token.kind.shift front.length
      position := token.position.shift front.length
      lead :=
        if token.opensLine before && token.position.line != 1 then front ++ token.lead
        else token.lead
      literal := token.literal } :: embedFrom front (before ++ [token]) rest

def embed (front : Text) (tokens : List Token) : List Token :=
  embedFrom front [] tokens

theorem Token.Moved.consumes {width : Nat} {token moved : Token}
    (same : Token.Moved width token moved) : moved.consumes = token.consumes := by
  have literal := same.literal
  simp only [Token.consumes, same.kind, literal]
  cases token.kind <;> rfl

theorem Token.Moved.line {width : Nat} {token moved : Token}
    (same : Token.Moved width token moved) : moved.position.line = token.position.line := by
  rw [same.position]
  rfl

theorem Token.opensLine_snoc (before : List Token) (earlier token : Token) :
    token.opensLine (before ++ [earlier]) =
      (token.opensLine before &&
        !(earlier.consumes && earlier.position.line == token.position.line)) := by
  simp [Token.opensLine, Bool.and_assoc]

theorem Led.of_append {leadOf : Nat → Text} {before left right : List Token}
    (led : Led leadOf before (left ++ right)) : Led leadOf before left := by
  induction left generalizing before with
  | nil => trivial
  | cons token left ih => exact ⟨led.1, ih led.2⟩

/-- Tokens that moved are embedded if their leads stand where those of their line belong. What came
before may differ on the first line only, where there are no leads. -/
theorem eq_embedFrom {front : Text} {leadOf : Nat → Text} {before before' : List Token}
    {tokens tokens' : List Token} (moved : List.Forall₂ (Token.Moved front.length) tokens tokens')
    (none : leadOf 1 = []) (led : Led leadOf before tokens)
    (led' : Led (fun number => if number = 1 then [] else front ++ leadOf number) before' tokens')
    (opens : ∀ token token', Token.Moved front.length token token' → token.position.line ≠ 1 →
      token'.opensLine before' = token.opensLine before) :
    tokens' = embedFrom front before tokens := by
  induction moved generalizing before before' with
  | nil => rfl
  | @cons token token' rest rest' same others ih =>
    obtain ⟨lead, led⟩ := led
    obtain ⟨lead', led'⟩ := led'
    have tail : rest' = embedFrom front (before ++ [token]) rest := by
      refine ih led led' fun later later' sameLater notFirst => ?_
      rw [Token.opensLine_snoc, Token.opensLine_snoc, opens later later' sameLater notFirst,
        same.consumes, same.line, sameLater.line]
    have head : token'.lead = if token.opensLine before && token.position.line != 1 then
        front ++ token.lead else token.lead := by
      rw [same.line] at lead'
      -- Neither token has a lead on the first line. Elsewhere both open their line, or neither does.
      by_cases first : token.position.line = 1
      · simp only [first, none, ite_self] at lead
        simp only [first, if_true, ite_self] at lead'
        simp [first, lead, lead']
      · rw [opens token token' same first] at lead'
        cases here : token.opensLine before <;> simp_all
    have whole : token' = Token.mk (token.kind.shift front.length)
        (token.position.shift front.length) token'.lead token.literal := by
      rw [← same.kind, ← same.position, ← same.literal]
    rw [whole, head, tail]
    rfl

namespace Tokenizer

variable {front : Text} {outer : Frame}

structure State.Moved (outer : Frame) (width : Nat) (state state' : State) : Prop where
  containers : state'.containers = outer :: state.containers.shift width
  leaf : OpenLeaf.Moved width state.leaf state'.leaf
  reached : state'.reached = state.reached.shift width

theorem step_moved {line longer : Line} {state state' : State}
    (inside : line.Inside outer front longer) (settled : outer.Settled)
    (moved : State.Moved outer front.length state state') :
    List.Forall₂ (Token.Moved front.length) (step state line).1 (step state' longer).1 ∧
      State.Moved outer front.length (step state line).2 (step state' longer).2 := by
  have effect := lineEffect_moved inside settled state.containers moved.leaf
  rw [← moved.containers] at effect
  exact ⟨effect.written, effect.containers, effect.leaf, inside.endPosition⟩

theorem finish_moved {width : Nat} {state state' : State}
    (moved : State.Moved outer width state state') :
    ∃ tokens, finish state' =
        tokens ++ [endToken (.containerEnd outer.kind false) state'.reached] ∧
      List.Forall₂ (Token.Moved width) (finish state) tokens := by
  refine ⟨state'.leaf.close false state'.reached ++
    (state.containers.shift width).close false state'.reached, ?_, ?_⟩
  · simp [finish, moved.containers, Containers.close]
  · exact List.rel_append (OpenLeaf.close_moved moved.leaf false moved.reached)
      (Containers.close_moved state.containers false moved.reached)

/-- `last` is the line read before. -/
theorem runFrom_moved {lines lines' : List Line} {state state' : State} {last : Line}
    (inside : List.Forall₂ (Line.Inside outer front) lines lines') (settled : outer.Settled)
    (moved : State.Moved outer front.length state state')
    (reached : state'.reached = last.endPosition) :
    ∃ tokens, runFrom state' lines' =
        tokens ++ [endToken (.containerEnd outer.kind false) (lines'.getLastD last).endPosition] ∧
      List.Forall₂ (Token.Moved front.length) (runFrom state lines) tokens := by
  induction inside generalizing state state' last with
  | nil => exact reached ▸ finish_moved moved
  | @cons line longer rest rest' first others ih =>
    obtain ⟨written, next⟩ := step_moved first settled moved
    obtain ⟨tokens, whole, all⟩ := ih next rfl
    refine ⟨(step state' longer).1 ++ tokens, ?_, List.rel_append written all⟩
    rw [List.getLastD_cons, List.append_assoc, ← whole]
    rfl

theorem leadsFrom_moved {lines lines' : List Line} {state state' : State}
    (inside : List.Forall₂ (Line.Inside outer front) lines lines') (settled : outer.Settled)
    (moved : State.Moved outer front.length state state') :
    leadsFrom state' lines' = (leadsFrom state lines).map (Prod.map id (front ++ ·)) := by
  induction inside generalizing state state' with
  | nil => rfl
  | @cons line longer rest rest' first others ih =>
    have next := (step_moved first settled moved).2
    have longerLead : (state'.containers.matchLine longer.expanded).lead longer.expanded =
        front ++ (state.containers.matchLine line.expanded).lead line.expanded := by
      rw [moved.containers, matchLine_around first, Containers.Match.lead, first.expanded,
        Cursor.shift_offset, Nat.add_comm, List.take_length_add_append]
      rfl
    simp [leadsFrom, ih next, longerLead, first.number]

theorem numbers_inside {lines lines' : List Line}
    (inside : List.Forall₂ (Line.Inside outer front) lines lines') :
    lines'.map Line.number = lines.map Line.number := by
  induction inside with
  | nil => rfl
  | cons first _ ih => simp [first.number, ih]

/-- The longer line opens `outer` by the token `start`, and then does what the line inside does. -/
structure Opens (outer : Frame) (mark : Text) (start : Token) (line longer : Line) : Prop
    extends Line.Behind mark line longer where
  here : start.position.line = line.number
  effect : ∃ tokens, (lineEffect [] .none longer).written = start :: tokens ∧
    Effect.Moved outer mark.length (lineEffect [] .none line)
      { lineEffect [] .none longer with written := tokens }

def freshLine (line : Line) (containers : Containers) (read : List Marker × Cursor) : Effect :=
  let (opening, opened) := openAll line containers read.1
  let last := leafLine line [] read.2 opened .none true
  { last with written := opening ++ last.written }

theorem lineEffect_initial (line : Line) :
    lineEffect [] .none line =
      freshLine line [] (Marker.readAll false (Cursor.start line.expanded)) := by
  simp only [lineEffect, Containers.matchLine, Containers.matchFrom, Containers.Match.lead,
    OpenLeaf.isParagraph, List.length_nil, BEq.rfl, Bool.and_false, if_true, Cursor.start_offset,
    List.take_zero]
  generalize Marker.readAll false (Cursor.start line.expanded) = read
  obtain ⟨markers, c⟩ := read
  cases markers with
  | cons first later => rfl
  | nil =>
    simp only [freshLine, openAll, List.nil_append, leafLine]
    split <;> rfl

theorem freshLine_moved {line longer : Line} (behind : line.Behind front longer)
    (settled : outer.Settled) (containers : Containers) (markers : List Marker) (c : Cursor) :
    (freshLine line containers (markers, c)).Moved outer front.length
      (freshLine longer (outer :: containers.shift front.length)
        (markers.map (Marker.shift front.length), c.shift front.length)) := by
  obtain ⟨opening, nested⟩ := openAll_moved behind settled containers markers
  have last := leafLine_moved behind settled [] [] c (openAll line containers markers).2 true .none
  rw [← nested] at last
  exact ⟨List.rel_append opening last.written, last.containers, last.leaf⟩

theorem leafLine_markContent (line : Line) (lead : Text) (c : Cursor) (containers : Containers)
    (opened : Bool) (filled : c.isBlank = false) :
    leafLine line lead c containers.markContent .none opened =
      leafLine line lead c containers .none opened := by
  have again := Containers.markContent_markContent containers
  unfold leafLine
  cases found : LineClass.of c.rest OpenLeaf.none.isParagraph with
  | blank =>
    have isBlank : c.isBlank = true := LineClass.isBlank_of_blank found
    simp [isBlank] at filled
  | setextUnderline level => exact absurd (LineClass.of_setextUnderline found) (by decide)
  | indented => simp only [again]
  | atxHeading heading => simp only [again]
  | thematicBreak => simp only [again]
  | fenceOpen fence => simp only [again]
  | text => simp only [paragraphLine, again]

theorem freshLine_markContent (line : Line) (containers : Containers) (markers : List Marker)
    (c : Cursor) (filled : markers = [] → c.isBlank = false) :
    freshLine line containers.markContent (markers, c) =
      freshLine line containers (markers, c) := by
  cases markers with
  | nil =>
    have same := leafLine_markContent line [] c containers true (filled rfl)
    simp only [freshLine, openAll, same]
  | cons first later =>
    have same : openContainer line [] containers.markContent first =
        openContainer line [] containers first := by
      cases first <;> simp only [openContainer, Containers.markContent_markContent]
    simp only [freshLine, openAll, same]

/-- A marker with nothing before it opens its container, and the rest of the line is read as on its
own. If the rest is blank, the container must not wait for content. -/
theorem Opens.of_marker {mark : Text} {line longer : Line} (behind : line.Behind mark longer)
    {marker : Marker} {start : Token} {opened : Frame} (settled : outer.Settled)
    (read : Marker.readAll false (Cursor.start longer.expanded) =
      (marker :: (Marker.readAll false ((Cursor.start line.expanded).shift mark.length)).1,
        (Marker.readAll false ((Cursor.start line.expanded).shift mark.length)).2))
    (opening : openContainer longer [] [] marker = (start, [opened]))
    (marked : opened.mapItem ListItem.markContent = outer)
    (filled : opened = outer ∨ Text.isBlank line.expanded = false)
    (here : start.position.line = line.number) : Opens outer mark start line longer := by
  refine ⟨behind, here, ?_⟩
  rw [lineEffect_initial line, lineEffect_initial longer, read, Marker.readAll_shift]
  generalize same : Marker.readAll false (Cursor.start line.expanded) = inner
  obtain ⟨markers, c⟩ := inner
  have notBlank : markers.map (Marker.shift mark.length) = [] →
      Text.isBlank line.expanded = false → (c.shift mark.length).isBlank = false := by
    intro noMarkers hasText
    rw [List.map_eq_nil_iff.mp noMarkers] at same
    rw [Marker.readAll_nil same]
    exact hasText
  have settles : freshLine longer [opened]
        (markers.map (Marker.shift mark.length), c.shift mark.length) =
      freshLine longer [outer] (markers.map (Marker.shift mark.length), c.shift mark.length) := by
    rcases filled with same | hasText
    · rw [same]
    · rw [← marked]
      exact (freshLine_markContent longer [opened] _ _ fun none => notBlank none hasText).symm
  have moved := freshLine_moved behind settled [] markers c
  rw [Containers.shift_nil, ← settles] at moved
  simp only [freshLine, openAll, opening, List.cons_append]
  exact ⟨_, rfl, moved⟩

section Inside

variable {mark : Text} {start : Token} {first first' : Line} {rest rest' : List Line}

theorem Opens.moved (opens : Opens outer mark start first first')
    (sameWidth : mark.length = front.length) :
    State.Moved outer front.length (step State.initial first).2 (step State.initial first').2 := by
  obtain ⟨tokens, _, effect⟩ := opens.effect
  exact sameWidth ▸ ⟨effect.containers, effect.leaf, opens.endPosition⟩

/-- Both runs share out their lines, so the leads of both are known by line. The first line has
none, and behind `front` stand the leads of the run inside. -/
theorem exists_leadOf (opens : Opens outer mark start first first')
    (sameWidth : mark.length = front.length)
    (inside : List.Forall₂ (Line.Inside outer front) rest rest') (settled : outer.Settled)
    (one : first.number = 1) (distinct : ((first :: rest).map Line.number).Nodup) :
    ∃ leadOf : Nat → Text, leadOf 1 = [] ∧ Led leadOf [] (run (first :: rest)) ∧
      Led (fun number => if number = 1 then [] else front ++ leadOf number) []
        (run (first' :: rest')) := by
  have distinct' : ((first' :: rest').map Line.number).Nodup := by
    simpa [opens.number, numbers_inside inside] using distinct
  obtain ⟨cuts, _, _, leads, distinctCuts, led⟩ := run_led (first :: rest) distinct
  obtain ⟨cuts', _, _, leads', _, led'⟩ := run_led (first' :: rest') distinct'
  obtain ⟨cut, others, rfl, head, tail⟩ := List.map_eq_cons_iff.mp leads
  obtain ⟨number, lead⟩ := Prod.mk.inj head
  rw [one] at number
  have known : ∀ later ∈ cut :: others, Cut.leadOf (cut :: others) later.line = later.lead :=
    fun later => Cut.leadOf_line distinctCuts
  refine ⟨Cut.leadOf (cut :: others), ?_, led _ known, led' _ fun cut' isCut => ?_⟩
  · have none := known cut List.mem_cons_self
    rw [number, lead] at none
    exact none
  · have place : (cut'.line, cut'.lead) ∈ leadsFrom State.initial (first' :: rest') :=
      leads' ▸ List.mem_map_of_mem isCut
    rw [leadsFrom, leadsFrom_moved inside settled (opens.moved sameWidth), ← tail] at place
    rcases List.mem_cons.mp place with same | later
    · obtain ⟨number', lead'⟩ := Prod.mk.inj same
      rw [opens.number, one] at number'
      simp only [number', if_true, lead']
      rfl
    · obtain ⟨_, isLater, same⟩ := List.mem_map.mp later
      obtain ⟨inner, isInner, rfl⟩ := List.mem_map.mp isLater
      obtain ⟨number', lead'⟩ := Prod.mk.inj same
      have notFirst : inner.line ≠ 1 := fun again =>
        (List.nodup_cons.mp distinctCuts).1
          (List.mem_map.mpr ⟨inner, isInner, again.trans number.symm⟩)
      have innerLead := known inner (List.mem_cons_of_mem _ isInner)
      simp only [← number', ← lead', id, notFirst, if_false, innerLead]

/-- The tokens of a document inside a container. -/
theorem run_inside (opens : Opens outer mark start first first')
    (sameWidth : mark.length = front.length)
    (inside : List.Forall₂ (Line.Inside outer front) rest rest') (settled : outer.Settled)
    (one : first.number = 1) (distinct : ((first :: rest).map Line.number).Nodup) :
    run (first' :: rest') =
      start :: embed front (run (first :: rest)) ++
        [endToken (.containerEnd outer.kind false) (rest'.getLastD first').endPosition] := by
  obtain ⟨tokens, written, effect⟩ := opens.effect
  obtain ⟨others, whole, moved⟩ := runFrom_moved inside settled (opens.moved sameWidth)
    (rfl : _ = first'.endPosition)
  have stream : run (first' :: rest') =
      start :: (tokens ++ others) ++
        [endToken (.containerEnd outer.kind false) (rest'.getLastD first').endPosition] := by
    have split : run (first' :: rest') =
        (lineEffect [] .none first').written ++ runFrom (step State.initial first').2 rest' := rfl
    rw [split, written, whole]
    simp
  have all : List.Forall₂ (Token.Moved front.length) (run (first :: rest)) (tokens ++ others) :=
    List.rel_append (sameWidth ▸ effect.written) moved
  obtain ⟨leadOf, none, led, led'⟩ := exists_leadOf opens sameWidth inside settled one distinct
  rw [stream] at led'
  have embedded : tokens ++ others = embed front (run (first :: rest)) := by
    refine eq_embedFrom all none led (Led.of_append led'.2) fun token token' same notFirst => ?_
    rw [Token.opensLine_snoc, opens.here, one, same.line, Token.opensLine, Token.opensLine,
      same.consumes]
    simp [Ne.symm notFirst]
  rw [stream, embedded]

end Inside

end Tokenizer
end BlockLint
