import BlockLint.Proofs.Cursors

/-!
Positions never go back. Along the stream of a document they are in order, and each is a place of a
line of the document.

Tokens that are kept back belong to earlier lines than the tokens after them, so they must be written
before these. The invariant says so: what is kept back ascends from where the written tokens end to
where the last line ended.
-/
namespace BlockLint

instance : LE Position where
  le earlier later :=
    earlier.line < later.line ∨ earlier.line = later.line ∧ earlier.column ≤ later.column

instance (earlier later : Position) : Decidable (earlier ≤ later) :=
  inferInstanceAs (Decidable (_ ∨ _))

namespace Position

theorem le_refl (position : Position) : position ≤ position :=
  .inr ⟨rfl, Nat.le_refl _⟩

theorem le_trans {first second third : Position} (left : first ≤ second)
    (right : second ≤ third) : first ≤ third := by
  rcases left with before | ⟨same, before⟩
  · rcases right with after | ⟨same', _⟩
    · exact .inl (Nat.lt_trans before after)
    · exact .inl (same' ▸ before)
  · rcases right with after | ⟨same', after⟩
    · exact .inl (same ▸ after)
    · exact .inr ⟨same.trans same', Nat.le_trans before after⟩

end Position

namespace Expansion

theorem mem_columns {width seen column place : Nat} {text : Text}
    (member : place ∈ (expandFrom width seen column text).columns) :
    column ≤ place ∧ place ≤ column + text.length := by
  induction text generalizing seen column with
  | nil =>
    cases List.mem_singleton.mp member
    simp
  | cons c rest ih =>
    unfold expandFrom at member
    split at member
    all_goals
      rcases List.mem_append.mp member with here | later
      · rw [List.eq_of_mem_replicate here]
        omega
      · have bounds := ih later
        simp only [List.length_cons]
        omega

theorem columns_pairwise (width seen column : Nat) (text : Text) :
    (expandFrom width seen column text).columns.Pairwise (· ≤ ·) := by
  induction text generalizing seen column with
  | nil => exact List.pairwise_singleton _ _
  | cons c rest ih =>
    have apart (count seen' : Nat) : ∀ place ∈ List.replicate count column,
        ∀ later ∈ (expandFrom width seen' (column + 1) rest).columns, place ≤ later := by
      intro place here later member
      have bounds := mem_columns member
      rw [List.eq_of_mem_replicate here]
      omega
    have same (count : Nat) : (List.replicate count column).Pairwise (· ≤ ·) :=
      List.pairwise_replicate.mpr (.inr (Nat.le_refl _))
    unfold expandFrom
    split
    · exact List.pairwise_append.mpr ⟨same _, ih _ _, apart _ _⟩
    · exact List.pairwise_append.mpr ⟨same _, ih _ _, apart _ _⟩

end Expansion

namespace Line

theorem column_bounds (line : Line) (offset : Nat) :
    1 ≤ line.column offset ∧ line.column offset ≤ line.endColumn := by
  unfold column
  cases found : line.expansion.columns[offset]? with
  | none =>
    simp only [Option.getD_none, endColumn]
    omega
  | some place =>
    have bounds := Expansion.mem_columns (List.mem_of_getElem? found)
    simp only [Option.getD_some, endColumn]
    omega

theorem column_mono (line : Line) {earlier later : Nat} (le : earlier ≤ later) :
    line.column earlier ≤ line.column later := by
  rcases Nat.eq_or_lt_of_le le with rfl | lt
  · exact Nat.le_refl _
  · cases found : line.expansion.columns[later]? with
    | none =>
      have atEnd : line.column later = line.endColumn := by simp [column, found]
      rw [atEnd]
      exact (line.column_bounds earlier).2
    | some place =>
      obtain ⟨inside, _⟩ := List.getElem?_eq_some_iff.mp found
      have sorted : line.expansion.columns.Pairwise (· ≤ ·) :=
        Expansion.columns_pairwise (max line.tabWidth 1) 0 1 line.text
      have ordered := List.pairwise_iff_getElem.mp sorted earlier later
        (Nat.lt_trans lt inside) inside lt
      have inside' : earlier < line.expansion.columns.length := Nat.lt_trans lt inside
      simpa only [column, List.getElem?_eq_getElem inside, List.getElem?_eq_getElem inside',
        Option.getD_some] using ordered

def Has (line : Line) (position : Position) : Prop :=
  ∃ offset, position = line.position offset

theorem has_endPosition (line : Line) : line.Has line.endPosition :=
  ⟨line.expansion.columns.length, by simp [endPosition, position, column]⟩

theorem position_le {line : Line} {earlier later : Nat} (le : earlier ≤ later) :
    line.position earlier ≤ line.position later :=
  .inr ⟨rfl, line.column_mono le⟩

theorem position_le_endPosition (line : Line) (offset : Nat) :
    line.position offset ≤ line.endPosition :=
  .inr ⟨rfl, (line.column_bounds offset).2⟩

end Line

/-- The positions of the tokens are places of the lines, in order from `low` to `high`. -/
inductive Ascends (lines : List Line) : Position → List Token → Position → Prop where
  | nil {low high : Position} : low ≤ high → Ascends lines low [] high
  | cons {low high : Position} {token : Token} {rest : List Token} :
      (∃ line ∈ lines, line.Has token.position) → low ≤ token.position →
        Ascends lines token.position rest high → Ascends lines low (token :: rest) high

namespace Ascends

variable {lines : List Line} {low middle high : Position} {tokens left right : List Token}

theorem lower (lower : low ≤ middle) (ascends : Ascends lines middle tokens high) :
    Ascends lines low tokens high := by
  cases ascends with
  | nil le => exact .nil (Position.le_trans lower le)
  | cons has le rest => exact .cons has (Position.le_trans lower le) rest

theorem raise (ascends : Ascends lines low tokens middle) (higher : middle ≤ high) :
    Ascends lines low tokens high := by
  induction ascends with
  | nil le => exact .nil (Position.le_trans le higher)
  | cons has le _ ih => exact .cons has le (ih higher)

theorem append (first : Ascends lines low left middle) (second : Ascends lines middle right high) :
    Ascends lines low (left ++ right) high := by
  induction first with
  | nil le => exact second.lower le
  | cons has le _ ih => exact .cons has le (ih second)

theorem singleton {token : Token} (has : ∃ line ∈ lines, line.Has token.position)
    (from_ : low ≤ token.position) (upTo : token.position ≤ high) :
    Ascends lines low [token] high :=
  .cons has from_ (.nil upTo)

theorem low_le_high (ascends : Ascends lines low tokens high) : low ≤ high := by
  induction ascends with
  | nil le => exact le
  | cons _ le _ ih => exact Position.le_trans le ih

theorem has_of_mem (ascends : Ascends lines low tokens high) :
    ∀ token ∈ tokens, low ≤ token.position ∧ ∃ line ∈ lines, line.Has token.position := by
  induction ascends with
  | nil _ => simp
  | cons has le _ ih =>
    intro token member
    rcases List.mem_cons.mp member with rfl | later
    · exact ⟨le, has⟩
    · obtain ⟨le', has'⟩ := ih token later
      exact ⟨Position.le_trans le le', has'⟩

theorem pairwise (ascends : Ascends lines low tokens high) :
    tokens.Pairwise fun earlier later => earlier.position ≤ later.position := by
  induction ascends with
  | nil _ => exact .nil
  | cons _ _ rest ih =>
    refine List.pairwise_cons.mpr ⟨?_, ih⟩
    intro later member
    exact (rest.has_of_mem later member).1

theorem of_positions {tokens' : List Token} (ascends : Ascends lines low tokens high)
    (same : tokens'.map Token.position = tokens.map Token.position) :
    Ascends lines low tokens' high := by
  induction ascends generalizing tokens' with
  | nil le =>
    cases List.map_eq_nil_iff.mp same
    exact .nil le
  | cons has le _ ih =>
    obtain ⟨token', rest', rfl, position, others⟩ := List.map_eq_cons_iff.mp same
    rw [← position] at has le
    exact .cons has le (position ▸ ih others)

theorem closeContainers {position : Position} (has : ∃ line ∈ lines, line.Has position)
    (containers : Containers) (natural : Bool) :
    Ascends lines position (containers.close natural position) position := by
  unfold Containers.close
  induction containers.reverse with
  | nil => exact .nil (Position.le_refl _)
  | cons frame rest ih => exact .cons has (Position.le_refl _) ih

theorem closeLeaf {leaf : OpenLeaf} {position : Position}
    (has : ∃ line ∈ lines, line.Has position) (kept : Ascends lines low leaf.kept middle)
    (le : middle ≤ position) (natural : Bool) :
    Ascends lines low (leaf.close natural position) position := by
  cases leaf with
  | none => exact kept.raise le
  | paragraph opening contents =>
    exact kept.append (singleton has le (Position.le_refl _))
  | indentedCode held =>
    cases held with
    | nil => exact singleton has (Position.le_trans kept.low_le_high le) (Position.le_refl _)
    | cons first others =>
      cases kept with
      | cons hasFirst from_ rest =>
        exact .cons hasFirst from_ (.cons hasFirst (Position.le_refl _) (rest.raise le))
  | fencedCode fence =>
    exact singleton has (Position.le_trans kept.low_le_high le) (Position.le_refl _)

end Ascends

namespace Tokenizer

variable {lines : List Line} {line : Line} {low middle high : Position}

/-- What the effect writes ascends from `low`, and what it keeps back from there to `high`. -/
def Effect.Ascends (lines : List Line) (low : Position) (effect : Effect) (high : Position) :
    Prop :=
  ∃ middle, BlockLint.Ascends lines low effect.written middle ∧
    BlockLint.Ascends lines middle effect.leaf.kept high

theorem Effect.Ascends.of_written {effect : Effect} (none : effect.leaf.kept = [])
    (written : BlockLint.Ascends lines low effect.written high) :
    effect.Ascends lines low high :=
  ⟨high, written, none ▸ .nil (Position.le_refl _)⟩

theorem Effect.Ascends.behind {effect : Effect} {tokens : List Token}
    (before : BlockLint.Ascends lines low tokens middle)
    (ascends : effect.Ascends lines middle high) :
    Effect.Ascends lines low { effect with written := tokens ++ effect.written } high := by
  obtain ⟨turn, written, kept⟩ := ascends
  exact ⟨turn, before.append written, kept⟩

theorem tokenAt_ascends (member : line ∈ lines) {start offset : Nat} (le : start ≤ offset)
    (upTo : line.position offset ≤ high) (kind : TokenKind) (lead literal : Text) :
    BlockLint.Ascends lines (line.position start) [tokenAt line offset kind lead literal] high :=
  .singleton ⟨line, member, offset, rfl⟩ (Line.position_le le) upTo

theorem paragraphLine_ascends (member : line ∈ lines) (lead : Text) (c : Cursor)
    (containers : Containers) (leaf : OpenLeaf) (isLazy : Bool)
    (kept : BlockLint.Ascends lines low leaf.kept (line.position c.offset)) :
    (paragraphLine line lead c containers leaf isLazy).Ascends lines low line.endPosition := by
  have closing := Ascends.closeLeaf ⟨line, member, _, rfl⟩ kept (Position.le_refl _) true
  have content (kind : TokenKind) (lead : Text) := tokenAt_ascends member
    (Nat.le_add_right c.offset c.indent) (line.position_le_endPosition _) kind lead
    (literalFrom line c)
  have started (kind : TokenKind) : BlockLint.Ascends lines (line.position c.offset)
      [tokenAt line (c.offset + c.indent) (.leafStart .paragraph) lead [],
        tokenAt line (c.offset + c.indent) kind [] (literalFrom line c)] line.endPosition :=
    (tokenAt_ascends member (Nat.le_add_right _ _) (Position.le_refl _) _ _ _).append
      (tokenAt_ascends member (Nat.le_refl _) (line.position_le_endPosition _) _ _ _)
  cases leaf with
  | paragraph opening contents =>
    exact ⟨low, .nil (Position.le_refl _), kept.append (content _ lead)⟩
  | none => exact ⟨_, closing, started _⟩
  | indentedCode held => exact ⟨_, closing, started _⟩
  | fencedCode fence => exact ⟨_, closing, started _⟩

theorem codeLine_ascends (member : line ∈ lines) (lead : Text) (c : Cursor)
    (held : List HeldBlank)
    (kept : BlockLint.Ascends lines low (held.map (·.token)) (line.position c.offset)) :
    BlockLint.Ascends lines low (codeLine line lead c held) line.endPosition := by
  refine (kept.of_positions ?_).append (tokenAt_ascends member (Nat.le_add_right _ _)
    (line.position_le_endPosition _) _ _ _)
  simp

theorem leafLine_ascends (member : line ∈ lines) (lead : Text) (c : Cursor)
    (containers : Containers) (leaf : OpenLeaf) (opened : Bool)
    (noFence : ∀ fence, leaf ≠ .fencedCode fence)
    (kept : BlockLint.Ascends lines low leaf.kept (line.position c.offset)) :
    (leafLine line lead c containers leaf opened).Ascends lines low line.endPosition := by
  have closing := Ascends.closeLeaf ⟨line, member, _, rfl⟩ kept (Position.le_refl _) true
  have last (kind : TokenKind) (lead literal : Text) {offset : Nat} (le : c.offset ≤ offset) :=
    tokenAt_ascends member le (line.position_le_endPosition offset) kind lead literal
  have ends (kind : TokenKind) :
      BlockLint.Ascends lines line.endPosition [endToken kind line.endPosition]
        line.endPosition :=
    .singleton ⟨line, member, line.has_endPosition⟩ (Position.le_refl _) (Position.le_refl _)
  refine leafLine_cases (motive := fun effect => effect.Ascends lines low line.endPosition) line
    lead c containers leaf opened noFence ?held ?blank ?setext ?text ?moreCode ?newCode ?atxHeading
    ?thematicBreak ?fenceOpen
  case held =>
    intro held isCode _
    subst isCode
    refine ⟨low, .nil (Position.le_refl _), ?_⟩
    simpa [OpenLeaf.kept] using kept.append (last .blankLine lead _ (Nat.le_refl _))
  case blank =>
    intro _ _
    exact .of_written rfl (closing.append (last _ _ _ (Nat.le_refl _)))
  case setext =>
    intro level opening contents isParagraph _
    subst isParagraph
    have heading : BlockLint.Ascends lines low
        ({ opening with kind := .leafStart (.setextHeading level) } :: contents)
        (line.position c.offset) := kept.of_positions rfl
    exact .of_written rfl (heading.append (last _ _ _ (Nat.le_add_right _ _)))
  case text =>
    intro _
    exact paragraphLine_ascends member lead c containers leaf false kept
  case moreCode =>
    intro held isCode _
    subst isCode
    exact .of_written rfl (codeLine_ascends member lead c held kept)
  case newCode =>
    intro isNone _
    subst isNone
    have start := tokenAt_ascends member (Nat.le_add_right c.offset codeIndent)
      (Position.le_refl _) (.leafStart .indentedCode) lead []
    have code : BlockLint.Ascends lines (line.position (c.offset + codeIndent))
        (codeLine line [] c []) line.endPosition :=
      tokenAt_ascends member (Nat.le_refl _) (line.position_le_endPosition _) _ _ _
    exact .of_written rfl (.lower kept.low_le_high (start.append code))
  case atxHeading =>
    intro heading found
    have order : c.offset + c.indent ≤ (c.skip heading.contentStart).offset := by
      have start := (AtxHeading.parse?_reaches (LineClass.of_atxHeading found)).1
      simp only [Cursor.skip]
      omega
    have start := tokenAt_ascends member (Nat.le_add_right c.offset c.indent)
      (Position.le_refl _) (.leafStart (.atxHeading heading.level)) lead
      (c.upTo (c.skip heading.contentStart))
    have content := tokenAt_ascends member order (line.position_le_endPosition _)
      (.leafContent heading.text false) [] (literalFrom line (c.skip heading.contentStart))
    exact .of_written rfl (closing.append ((start.append content).append (ends _)))
  case thematicBreak =>
    intro _
    exact .of_written rfl (closing.append ((last _ _ _ (Nat.le_add_right _ _)).append (ends _)))
  case fenceOpen =>
    intro fence _
    exact .of_written rfl (closing.append (last _ _ _ (Nat.le_add_right _ _)))

theorem openContainer_ascends (member : line ∈ lines) {c : Cursor} {marker : Marker}
    (read : marker.ReadAt c) (lead : Text) (containers : Containers) :
    BlockLint.Ascends lines (line.position c.offset)
      [(openContainer line lead containers marker).1] (line.position marker.past.offset) := by
  obtain ⟨container, item, token⟩ := openContainer_token line lead containers marker
  have place := read.place
  have behind : c.offset ≤ marker.place := by omega
  rw [token]
  exact tokenAt_ascends member behind (Line.position_le (Nat.le_of_lt read.past)) _ _ _

theorem openAll_ascends (member : line ∈ lines) {c last : Cursor} {markers : List Marker}
    (run : Marker.Run c markers last) (containers : Containers) :
    BlockLint.Ascends lines (line.position c.offset) (openAll line containers markers).1
      (line.position last.offset) := by
  induction run generalizing containers with
  | nil c => exact .nil (Position.le_refl _)
  | cons read _ ih => exact (openContainer_ascends member read [] containers).append (ih _)

theorem openFirst_ascends (member : line ∈ lines) {c : Cursor} {marker : Marker}
    (read : marker.ReadAt c) (lead : Text) (containers : Containers) (leaf : OpenLeaf)
    (depth : Nat) (kept : BlockLint.Ascends lines low leaf.kept (line.position c.offset)) :
    BlockLint.Ascends lines low (openFirst line lead containers leaf depth marker).1
      (line.position marker.past.offset) := by
  have has : ∃ line' ∈ lines, line'.Has (line.position c.offset) := ⟨line, member, c.offset, rfl⟩
  have closing := Ascends.closeLeaf has kept (Position.le_refl _)
  have opening := openContainer_ascends member read lead (containers.take depth)
  have start := read.start
  refine openFirst_cases
    (motive := fun opened => BlockLint.Ascends lines low opened.1 (line.position
      marker.past.offset)) line lead containers leaf depth marker ?all ?sibling ?replaced ?other
  case all =>
    intro _
    rw [start]
    exact (closing true).append opening
  case sibling =>
    intro cursor item kind current inner isItem _ _
    subst isItem
    cases start
    have place : cursor.offset ≤ item.markerOffset :=
      Nat.le.intro (read.place : item.markerOffset = cursor.offset + cursor.indent).symm
    have next := tokenAt_ascends member place (Line.position_le (Nat.le_of_lt read.past))
      (.newListItem (item.listItem cursor).geometry item.number?) lead
      (cursor.upTo (item.past cursor))
    exact ((closing false).append (.closeContainers has inner false)).append next
  case replaced =>
    intro cursor item kind current inner isItem _ _
    subst isItem
    cases start
    exact (((closing false).append (.closeContainers has inner false)).append
      (.closeContainers has [.list kind current] true)).append opening
  case other =>
    intro frame inner _ _
    rw [start]
    exact ((closing false).append (.closeContainers has (frame :: inner) false)).append opening

theorem openedLine_ascends (member : line ∈ lines) {c last : Cursor} {first : Marker}
    {later : List Marker} (run : Marker.Run c (first :: later) last) (lead : Text)
    (containers : Containers) (leaf : OpenLeaf) (depth : Nat)
    (kept : BlockLint.Ascends lines low leaf.kept (line.position c.offset)) :
    (openedLine line lead containers leaf depth first later last).Ascends lines low
      line.endPosition := by
  cases run with
  | cons read rest =>
    have opening := (openFirst_ascends member read lead containers leaf depth kept).append
      (openAll_ascends member rest (openFirst line lead containers leaf depth first).2)
    exact .behind opening (leafLine_ascends member [] last _ .none true (by simp)
      (.nil (Position.le_refl _)))

theorem unmatchedLine_ascends (member : line ∈ lines) (lead : Text) (c : Cursor)
    (containers : Containers) (leaf : OpenLeaf) (depth : Nat)
    (kept : BlockLint.Ascends lines low leaf.kept (line.position c.offset)) :
    (unmatchedLine line lead c containers leaf depth).Ascends lines low line.endPosition := by
  have has : ∃ line' ∈ lines, line'.Has (line.position c.offset) := ⟨line, member, c.offset, rfl⟩
  have closing := (Ascends.closeLeaf has kept (Position.le_refl _) c.isBlank).append
    (.closeContainers has (containers.drop depth) c.isBlank)
  exact .behind closing (leafLine_ascends member lead c _ .none false (by simp)
    (.nil (Position.le_refl _)))

theorem fencedLine_ascends (member : line ∈ lines) (lead : Text) (c : Cursor)
    (containers : Containers) (fence : Fence) (le : low ≤ line.position c.offset) :
    Effect.Ascends lines low
      { written := [(fencedLine line lead c fence).1]
        containers
        leaf := (fencedLine line lead c fence).2 } line.endPosition := by
  have last (kind : TokenKind) (count : Nat) := (tokenAt_ascends member
    (Nat.le_add_right c.offset count) (line.position_le_endPosition _) kind lead
    (literalFrom line c)).lower le
  unfold fencedLine
  split
  · exact .of_written rfl (last _ _)
  · exact .of_written rfl (last _ _)

/-- A line after all that is kept back. -/
theorem lineEffect_ascends (member : line ∈ lines) (containers : Containers) (leaf : OpenLeaf)
    (kept : BlockLint.Ascends lines low leaf.kept middle) (le : middle ≤ line.position 0) :
    (lineEffect containers leaf line).Ascends lines low line.endPosition := by
  have kept : BlockLint.Ascends lines low leaf.kept
      (line.position (containers.matchLine line.expanded).cursor.offset) :=
    kept.raise (Position.le_trans le (Line.position_le (Nat.zero_le _)))
  refine lineEffect_cases (motive := fun effect => effect.Ascends lines low line.endPosition)
    containers leaf line rfl ?fenced ?opened ?matched ?lazy ?unmatched
  case fenced =>
    intro fence _ _
    exact fencedLine_ascends member _ _ containers fence kept.low_le_high
  case opened =>
    intro first later c markers _
    have run := Marker.readAll_run
      ((containers.matchLine line.expanded).depth == containers.length && leaf.isParagraph)
      (containers.matchLine line.expanded).cursor
    rw [markers] at run
    exact openedLine_ascends member run _ containers leaf _ kept
  case matched =>
    intro _ noFence _
    exact leafLine_ascends member _ _ containers leaf false noFence kept
  case lazy =>
    intro _ _ _ _
    exact paragraphLine_ascends member _ _ containers leaf true kept
  case unmatched =>
    intro _ _ _
    exact unmatchedLine_ascends member _ _ containers leaf _ kept

theorem finish_ascends {state : State} (has : ∃ line ∈ lines, line.Has state.reached)
    (kept : BlockLint.Ascends lines low state.leaf.kept state.reached) :
    BlockLint.Ascends lines low (finish state) state.reached :=
  (Ascends.closeLeaf has kept (Position.le_refl _) false).append
    (.closeContainers has state.containers false)

theorem endPosition_le_of_lt {line later : Line} (lt : line.number < later.number) :
    line.endPosition ≤ later.position 0 :=
  .inl lt

/-- The lines that follow a state, numbered in order. `all` are the lines of the document. -/
theorem runFrom_ascends {all : List Line} (state : State) (lines : List Line)
    (within : ∀ line ∈ lines, line ∈ all)
    (ordered : lines.Pairwise fun earlier later => earlier.number < later.number)
    (ahead : ∀ line ∈ lines, state.reached ≤ line.position 0)
    (has : ∃ line ∈ all, line.Has state.reached)
    (kept : BlockLint.Ascends all low state.leaf.kept state.reached) :
    ∃ high, BlockLint.Ascends all low (runFrom state lines) high := by
  induction lines generalizing state low with
  | nil => exact ⟨_, finish_ascends has kept⟩
  | cons line rest ih =>
    have member := within line List.mem_cons_self
    obtain ⟨first, later⟩ := List.pairwise_cons.mp ordered
    obtain ⟨middle, written, kept⟩ := lineEffect_ascends member state.containers state.leaf kept
      (ahead line List.mem_cons_self)
    obtain ⟨high, others⟩ := ih (step state line).2
      (fun other isLater => within other (List.mem_cons_of_mem _ isLater)) later
      (fun other isLater => endPosition_le_of_lt (first other isLater))
      ⟨line, member, line.has_endPosition⟩ kept
    exact ⟨high, written.append others⟩

theorem run_ascends (lines : List Line)
    (ordered : lines.Pairwise fun earlier later => earlier.number < later.number) :
    ∃ low high, BlockLint.Ascends lines low (run lines) high := by
  cases lines with
  | nil => exact ⟨⟨1, 1⟩, ⟨1, 1⟩, .nil (Position.le_refl _)⟩
  | cons line rest =>
    obtain ⟨first, later⟩ := List.pairwise_cons.mp ordered
    obtain ⟨middle, written, kept⟩ := lineEffect_ascends
      (List.mem_cons_self (a := line) (l := rest)) [] .none
      (.nil (Position.le_refl (line.position 0))) (Position.le_refl _)
    obtain ⟨high, others⟩ := runFrom_ascends (step State.initial line).2 rest
      (fun other isLater => List.mem_cons_of_mem _ isLater) later
      (fun other isLater => endPosition_le_of_lt (first other isLater))
      ⟨line, List.mem_cons_self, line.has_endPosition⟩ kept
    exact ⟨_, high, written.append others⟩

end Tokenizer

theorem tokenize_ascends (text : Text) (tabWidth : Nat) :
    ∃ low high, Ascends (Source.ofText text tabWidth).lines low (tokenize text tabWidth) high :=
  Tokenizer.run_ascends _ (Source.numbers_pairwise text tabWidth)

/-- The tokens of a document stand in the order of their positions. Each stands on a line of the
document, between its first character and its end. -/
theorem positions_tokenize (text : Text) (tabWidth : Nat) :
    (tokenize text tabWidth).Pairwise (fun earlier later => earlier.position ≤ later.position) ∧
    ∀ token ∈ tokenize text tabWidth,
      ∃ line, (Source.ofText text tabWidth).line? token.position.line = some line ∧
        1 ≤ token.position.column ∧ token.position.column ≤ line.text.length + 1 := by
  obtain ⟨low, high, ascends⟩ := Tokenizer.run_ascends (Source.ofText text tabWidth).lines
    (Source.numbers_pairwise text tabWidth)
  refine ⟨ascends.pairwise, ?_⟩
  intro token member
  obtain ⟨line, isLine, offset, position⟩ := (ascends.has_of_mem token member).2
  have bounds := line.column_bounds offset
  rw [position]
  exact ⟨line, Source.line?_number isLine, bounds.1, bounds.2⟩

/-- The column counts the tab once. -/
theorem positions_tokenize_tabs :
    let text : Text := ['-', '\t', 'é', '\n', '\n', '\t', ' ', ' ', 'b']
    let content : Token := ⟨.leafContent ['b'] false, ⟨3, 4⟩, [], [' ', ' ', 'b']⟩
    (tokenize text 4).Pairwise (fun earlier later => earlier.position ≤ later.position) ∧
      content ∈ tokenize text 4 ∧
      ∃ line, (Source.ofText text 4).line? 3 = some line ∧ 4 ≤ line.text.length + 1 := by
  intro text content
  obtain ⟨ordered, onLines⟩ := positions_tokenize text 4
  have member : content ∈ tokenize text 4 := by decide +kernel
  obtain ⟨line, found, _, last⟩ := onLines content member
  exact ⟨ordered, member, line, found, last⟩

end BlockLint
