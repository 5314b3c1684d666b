import BlockLint.Proofs.NaturalEnds
import BlockLint.Proofs.PositionOrder
import Mathlib.Data.List.Forall2

/-!
Where blank lines stand. Of what is written for a line, a blank line is the last, so whatever follows
it but ends of blocks belongs to a later line. And no container is empty: at least a blank line
stands in it.
-/
namespace BlockLint

@[simp] theorem shown_closeContainers (containers : Containers) (natural : Bool)
    (position : Position) : shown (containers.close natural position) = [] := by
  refine List.filter_eq_nil_iff.mpr ?_
  intro token member
  obtain ⟨frame, _, rfl⟩ := List.mem_map.mp member
  simp [Token.isEnd, endToken]

theorem shown_of_isStart {token : Token} (starts : token.kind.isStart = true) :
    shown [token] = [token] := by
  refine List.filter_eq_self.mpr ?_
  intro other member
  cases List.mem_singleton.mp member
  unfold Token.isEnd
  split
  · rename_i ends
    simp [ends, TokenKind.isStart] at starts
  · rename_i ends
    simp [ends, TokenKind.isStart] at starts
  · rfl

theorem OpenLeaf.kept_not_end {leaf : OpenLeaf} (coherent : leaf.Coherent) :
    ∀ token ∈ leaf.kept, token.isEnd = false := by
  intro token member
  cases leaf with
  | none => cases member
  | paragraph opening contents =>
    rcases List.mem_cons.mp member with rfl | content
    · simp [Token.isEnd, coherent.1]
    · obtain ⟨text, isLazy, kind⟩ := coherent.2 token content
      simp [Token.isEnd, kind]
  | indentedCode held =>
    obtain ⟨blank, isHeld, rfl⟩ := List.mem_map.mp member
    simp [Token.isEnd, coherent blank isHeld]
  | fencedCode fence => cases member

theorem OpenLeaf.shown_close {leaf : OpenLeaf} (coherent : leaf.Coherent) (natural : Bool)
    (position : Position) : shown (leaf.close natural position) = leaf.kept := by
  have kept : shown leaf.kept = leaf.kept :=
    List.filter_eq_self.mpr fun token member => by simp [kept_not_end coherent token member]
  cases leaf with
  | none => rfl
  | paragraph opening contents =>
    rw [close, shown_append]
    exact (congrArg (· ++ []) kept).trans (List.append_nil _)
  | indentedCode held => exact kept
  | fencedCode fence => rfl

/-- What was kept back stays in its place. A blank line may have turned out to be code. -/
def Settled (kept old : List Token) : Prop :=
  List.Forall₂ (fun before after => after.position = before.position ∧
    (after.kind = .blankLine → before.kind = .blankLine)) kept old

theorem Settled.refl (kept : List Token) : Settled kept kept :=
  List.forall₂_same.mpr fun _ _ => ⟨rfl, id⟩

structure OwnTokens (number : Nat) (tokens : List Token) : Prop where
  line : ∀ token ∈ tokens, token.position.line = number
  blankLast : tokens.Pairwise fun earlier _ => earlier.kind ≠ .blankLine

namespace OwnTokens

theorem cons {number : Nat} {token : Token} {rest : List Token}
    (here : token.position.line = number) (filled : token.kind ≠ .blankLine)
    (own : OwnTokens number rest) : OwnTokens number (token :: rest) where
  line := by
    intro other member
    rcases List.mem_cons.mp member with rfl | later
    · exact here
    · exact own.line other later
  blankLast := List.pairwise_cons.mpr ⟨fun _ _ => filled, own.blankLast⟩

theorem singleton {number : Nat} {token : Token} (here : token.position.line = number) :
    OwnTokens number [token] where
  line := by
    intro other member
    cases List.mem_singleton.mp member
    exact here
  blankLast := List.pairwise_singleton _ _

theorem nil (number : Nat) : OwnTokens number [] :=
  ⟨by simp, .nil⟩

end OwnTokens

namespace Tokenizer

/-- What a line shows, written or kept back: what was kept back before, and then its own tokens. -/
def Effect.Parted (kept : List Token) (number : Nat) (effect : Effect) : Prop :=
  ∃ old own, shown effect.written ++ effect.leaf.kept = old ++ own ∧ Settled kept old ∧
    OwnTokens number own

theorem Effect.Parted.of_close {leaf : OpenLeaf} (coherent : leaf.Coherent) {natural : Bool}
    {position : Position} {effect : Effect} {number : Nat} {tokens own : List Token}
    (written : effect.written = leaf.close natural position ++ tokens)
    (isOwn : shown tokens ++ effect.leaf.kept = own) (owned : OwnTokens number own) :
    effect.Parted leaf.kept number := by
  refine ⟨leaf.kept, own, ?_, .refl _, owned⟩
  rw [written, shown_append, OpenLeaf.shown_close coherent, List.append_assoc, isOwn]

theorem paragraphLine_parted (line : Line) (lead : Text) (c : Cursor) (containers : Containers)
    (leaf : OpenLeaf) (isLazy : Bool) (coherent : leaf.Coherent) :
    (paragraphLine line lead c containers leaf isLazy).Parted leaf.kept line.number := by
  have started (effect : Effect)
      (written : effect.written = leaf.close true (line.position c.offset))
      (opens : effect.leaf = .paragraph
        (tokenAt line (c.offset + c.indent) (.leafStart .paragraph) lead [])
        [tokenAt line (c.offset + c.indent) (.leafContent (paragraphText c.rest) isLazy) []
          (literalFrom line c)]) : effect.Parted leaf.kept line.number := by
    refine .of_close coherent (written.trans (List.append_nil _).symm) rfl ?_
    rw [opens]
    exact .cons rfl (by simp [tokenAt]) (.singleton rfl)
  cases leaf with
  | paragraph opening contents =>
    exact ⟨opening :: contents, [_], rfl, .refl _, .singleton rfl⟩
  | none => exact started _ rfl rfl
  | indentedCode held => exact started _ rfl rfl
  | fencedCode fence => exact started _ rfl rfl

theorem leafLine_parted (line : Line) (lead : Text) (c : Cursor) (containers : Containers)
    (leaf : OpenLeaf) (opened : Bool) (coherent : leaf.Coherent)
    (noFence : ∀ fence, leaf ≠ .fencedCode fence) :
    (leafLine line lead c containers leaf opened).Parted leaf.kept line.number := by
  refine leafLine_cases (motive := fun effect => effect.Parted leaf.kept line.number) line lead c
    containers leaf opened noFence ?held ?blank ?setext ?text ?moreCode ?newCode ?atxHeading
    ?thematicBreak ?fenceOpen
  case held =>
    intro held isCode _
    subst isCode
    exact ⟨held.map (·.token), [tokenAt line c.offset .blankLine lead (literalFrom line c)],
      by simp [OpenLeaf.kept, shown], .refl _, .singleton rfl⟩
  case blank =>
    intro _ _
    exact .of_close coherent rfl rfl (.singleton rfl)
  case setext =>
    intro level opening contents isParagraph _
    subst isParagraph
    have heading : shown contents = contents := List.filter_eq_self.mpr fun token member => by
      simp [OpenLeaf.kept_not_end coherent token (List.mem_cons_of_mem _ member)]
    refine ⟨{ opening with kind := .leafStart (.setextHeading level) } :: contents, [], ?_,
      .cons ⟨rfl, by simp⟩ (Settled.refl contents), .nil _⟩
    simpa [shown, OpenLeaf.kept, Token.isEnd, tokenAt] using heading
  case text =>
    intro _
    exact paragraphLine_parted line lead c containers leaf false coherent
  case moreCode =>
    intro held isCode _
    subst isCode
    have settled : Settled (held.map (·.token)) (held.map fun h : HeldBlank =>
        { h.token with
          kind := .leafContent (h.rest.drop (min codeIndent (Text.spaces h.rest))) false }) := by
      rw [Settled, List.forall₂_map_left_iff, List.forall₂_map_right_iff]
      exact List.forall₂_same.mpr fun _ _ => ⟨rfl, by simp⟩
    refine ⟨_, [tokenAt line (c.offset + codeIndent) (.leafContent (c.rest.drop codeIndent) false)
      lead (literalFrom line c)], ?_, settled, .singleton rfl⟩
    simp [shown, codeLine, OpenLeaf.kept, Token.isEnd, tokenAt]
  case newCode =>
    intro isNone _
    subst isNone
    exact ⟨[], [_, _], rfl, .nil, .cons rfl (by simp [tokenAt]) (.singleton rfl)⟩
  case atxHeading =>
    intro heading _
    exact .of_close coherent rfl rfl (.cons rfl (by simp [tokenAt]) (.singleton rfl))
  case thematicBreak =>
    intro _
    exact .of_close coherent rfl rfl (.singleton rfl)
  case fenceOpen =>
    intro fence _
    exact .of_close coherent rfl rfl (.singleton rfl)

theorem openAll_own (line : Line) (containers : Containers) (markers : List Marker)
    {own : List Token} (owned : OwnTokens line.number own) :
    OwnTokens line.number (shown (openAll line containers markers).1 ++ own) := by
  induction markers generalizing containers with
  | nil => exact owned
  | cons marker rest ih =>
    obtain ⟨starts, here⟩ := openContainer_starts line [] containers marker
    have first : (openAll line containers (marker :: rest)).1 =
        [(openContainer line [] containers marker).1] ++
          (openAll line (openContainer line [] containers marker).2 rest).1 := rfl
    rw [first, shown_append, shown_of_isStart starts]
    refine .cons here ?_ (ih _)
    intro blank
    simp [blank, TokenKind.isStart] at starts

theorem shown_openFirst (line : Line) (lead : Text) (containers : Containers) {leaf : OpenLeaf}
    (depth : Nat) (marker : Marker) (coherent : leaf.Coherent) :
    ∃ token, shown (openFirst line lead containers leaf depth marker).1 = leaf.kept ++ [token] ∧
      token.position.line = line.number ∧ token.kind.isStart = true := by
  have closing := OpenLeaf.shown_close coherent
  obtain ⟨starts, here⟩ := openContainer_starts line lead (containers.take depth) marker
  have opening := shown_of_isStart starts
  refine openFirst_cases
    (motive := fun opened => ∃ token, shown opened.1 = leaf.kept ++ [token] ∧
      token.position.line = line.number ∧ token.kind.isStart = true)
    line lead containers leaf depth marker ?all ?sibling ?replaced ?other
  case all =>
    intro _
    exact ⟨_, by simp only [shown_append, closing, opening], here, starts⟩
  case sibling =>
    intro start item kind current inner _ _ _
    refine ⟨tokenAt line item.markerOffset
      (.newListItem (item.listItem start).geometry item.number?) lead
      (start.upTo (item.past start)), ?_, rfl, rfl⟩
    simp only [shown_append, closing, shown_closeContainers, List.append_nil]
    rfl
  case replaced =>
    intro start item kind current inner _ _ _
    exact ⟨_, by simp only [shown_append, closing, shown_closeContainers, List.append_nil, opening],
      here, starts⟩
  case other =>
    intro frame inner _ _
    exact ⟨_, by simp only [shown_append, closing, shown_closeContainers, List.append_nil, opening],
      here, starts⟩

theorem openedLine_parted (line : Line) (lead : Text) (containers : Containers)
    {leaf : OpenLeaf} (depth : Nat) (first : Marker) (later : List Marker) (c : Cursor)
    (coherent : leaf.Coherent) :
    (openedLine line lead containers leaf depth first later c).Parted leaf.kept line.number := by
  obtain ⟨token, opens, here, starts⟩ := shown_openFirst line lead containers depth first coherent
  obtain ⟨old, own, same, settled, owned⟩ := leafLine_parted line [] c
    (openAll line (openFirst line lead containers leaf depth first).2 later).2 .none true trivial
    (by simp)
  cases settled
  refine ⟨leaf.kept, token :: (shown (openAll line
    (openFirst line lead containers leaf depth first).2 later).1 ++ own), ?_, .refl _,
    .cons here ?_ (openAll_own line _ later owned)⟩
  · simp only [openedLine, shown_append, opens, List.append_assoc, List.cons_append,
      List.nil_append, same]
  · intro blank
    simp [blank, TokenKind.isStart] at starts

theorem unmatchedLine_parted (line : Line) (lead : Text) (c : Cursor) (containers : Containers)
    {leaf : OpenLeaf} (depth : Nat) (coherent : leaf.Coherent) :
    (unmatchedLine line lead c containers leaf depth).Parted leaf.kept line.number := by
  obtain ⟨old, own, same, settled, owned⟩ :=
    leafLine_parted line lead c (containers.take depth) .none false trivial (by simp)
  cases settled
  refine ⟨leaf.kept, own, ?_, .refl _, owned⟩
  simp only [unmatchedLine, shown_append, OpenLeaf.shown_close coherent, shown_closeContainers,
    List.append_assoc, same, List.nil_append]

theorem lineEffect_parted (containers : Containers) (leaf : OpenLeaf) (line : Line)
    (coherent : leaf.Coherent) :
    (lineEffect containers leaf line).Parted leaf.kept line.number := by
  refine lineEffect_cases (motive := fun effect => effect.Parted leaf.kept line.number) containers
    leaf line rfl ?fenced ?opened ?matched ?lazy ?unmatched
  case fenced =>
    intro fence isFence _
    subst isFence
    unfold fencedLine
    split
    · exact ⟨[], [], rfl, .nil, .nil _⟩
    · exact ⟨[], [_], rfl, .nil, .singleton rfl⟩
  case opened =>
    intro first later c _ _
    exact openedLine_parted line _ containers _ first later c coherent
  case matched =>
    intro _ noFence _
    exact leafLine_parted line _ _ containers leaf false coherent noFence
  case lazy =>
    intro _ _ _ _
    exact paragraphLine_parted line _ _ containers leaf true coherent
  case unmatched =>
    intro _ _ _
    exact unmatchedLine_parted line _ _ containers _ coherent

end Tokenizer

/-- A blank line is left behind by what follows it. -/
def Token.LeavesBlank (earlier later : Token) : Prop :=
  earlier.kind = .blankLine → earlier.position.line < later.position.line

theorem Settled.mem {kept old : List Token} (settled : Settled kept old) :
    ∀ token ∈ old, ∃ before ∈ kept, token.position = before.position := by
  induction settled with
  | nil => simp
  | cons same _ ih =>
    intro token member
    rcases List.mem_cons.mp member with rfl | later
    · exact ⟨_, List.mem_cons_self, same.1⟩
    · obtain ⟨before, isKept, position⟩ := ih token later
      exact ⟨before, List.mem_cons_of_mem _ isKept, position⟩

theorem Settled.pairwise {kept old : List Token} (settled : Settled kept old)
    (order : kept.Pairwise Token.LeavesBlank) : old.Pairwise Token.LeavesBlank := by
  induction settled with
  | nil => exact .nil
  | cons same rest ih =>
    obtain ⟨first, others⟩ := List.pairwise_cons.mp order
    refine List.pairwise_cons.mpr ⟨?_, ih others⟩
    intro token member blank
    obtain ⟨before, isKept, position⟩ := Settled.mem rest token member
    rw [same.1, position]
    exact first before isKept (same.2 blank)

theorem OwnTokens.pairwise {number : Nat} {tokens : List Token} (own : OwnTokens number tokens) :
    tokens.Pairwise Token.LeavesBlank :=
  own.blankLast.imp fun filled blank => absurd blank filled

theorem Tokenizer.Effect.Parted.pairwise {effect : Effect} {prior kept : List Token} {number : Nat}
    (parted : effect.Parted kept number)
    (order : (prior ++ kept).Pairwise Token.LeavesBlank)
    (upTo : ∀ token ∈ prior ++ kept, token.position.line < number) :
    (prior ++ (shown effect.written ++ effect.leaf.kept)).Pairwise Token.LeavesBlank ∧
      ∀ token ∈ prior ++ (shown effect.written ++ effect.leaf.kept),
        token.position.line ≤ number := by
  obtain ⟨old, own, same, settled, owned⟩ := parted
  obtain ⟨inPrior, inKept, across⟩ := List.pairwise_append.mp order
  rw [same]
  constructor
  · refine List.pairwise_append.mpr ⟨inPrior, List.pairwise_append.mpr
      ⟨settled.pairwise inKept, owned.pairwise, ?_⟩, ?_⟩
    · intro earlier isOld later isOwn _
      obtain ⟨before, isKept, position⟩ := settled.mem earlier isOld
      rw [position, owned.line later isOwn]
      exact upTo before (List.mem_append_right _ isKept)
    · intro earlier isPrior later member
      rcases List.mem_append.mp member with isOld | isOwn
      · obtain ⟨before, isKept, position⟩ := settled.mem later isOld
        rw [Token.LeavesBlank, position]
        exact across earlier isPrior before isKept
      · intro _
        rw [owned.line later isOwn]
        exact upTo earlier (List.mem_append_left _ isPrior)
  · intro token member
    rcases List.mem_append.mp member with isPrior | member
    · exact Nat.le_of_lt (upTo token (List.mem_append_left _ isPrior))
    · rcases List.mem_append.mp member with isOld | isOwn
      · obtain ⟨before, isKept, position⟩ := settled.mem token isOld
        rw [position]
        exact Nat.le_of_lt (upTo before (List.mem_append_right _ isKept))
      · exact Nat.le_of_eq (owned.line token isOwn)

namespace Tokenizer

theorem runFrom_leavesBlank (state : State) (lines : List Line) (prior : List Token)
    (coherent : state.leaf.Coherent)
    (ordered : lines.Pairwise fun earlier later => earlier.number < later.number)
    (order : (prior ++ state.leaf.kept).Pairwise Token.LeavesBlank)
    (ahead : ∀ line ∈ lines, ∀ token ∈ prior ++ state.leaf.kept,
      token.position.line < line.number) :
    (prior ++ shown (runFrom state lines)).Pairwise Token.LeavesBlank := by
  induction lines generalizing state prior with
  | nil =>
    rw [runFrom, finish, shown_append, OpenLeaf.shown_close coherent, shown_closeContainers,
      List.append_nil]
    exact order
  | cons line rest ih =>
    have next := (lineEffect_nests state.containers state.leaf line coherent).coherent
    obtain ⟨first, later⟩ := List.pairwise_cons.mp ordered
    obtain ⟨order, upTo⟩ := (lineEffect_parted state.containers state.leaf line coherent).pairwise
      order (ahead line List.mem_cons_self)
    rw [← List.append_assoc] at order upTo
    have others := ih (step state line).2 _ next later order (by
      intro other isLater token member
      exact Nat.lt_of_le_of_lt (upTo token member) (first other isLater))
    rw [runFrom, shown_append, ← List.append_assoc]
    exact others

end Tokenizer

/-- In the stream of a document, what follows a blank line stands on a later line or is an end. -/
theorem tokenize_leavesBlank (text : Text) (tabWidth : Nat) :
    (tokenize text tabWidth).Pairwise fun earlier later =>
      earlier.isEnd = false → later.isEnd = false → earlier.LeavesBlank later := by
  have order := Tokenizer.runFrom_leavesBlank .initial (Source.ofText text tabWidth).lines []
    trivial (Source.numbers_pairwise text tabWidth) .nil
    (by simp [OpenLeaf.kept, Tokenizer.State.initial])
  rw [List.nil_append, shown, List.pairwise_filter] at order
  exact order.imp fun leaves notEnd notEnd' => leaves (by simp [notEnd]) (by simp [notEnd'])

def Token.MayFill (token next : Token) : Prop :=
  token.opened?.isSome = true → next.isEnd = false

theorem mayFill_of_noStarts {tokens later : List Token}
    (noStarts : ∀ token ∈ tokens, token.opened? = none) (chain : later.IsChain Token.MayFill) :
    (tokens ++ later).IsChain Token.MayFill := by
  refine isChain_append_of_free ?_ chain
  intro token member next starts
  simp [noStarts token member] at starts

theorem Containers.close_noStarts (containers : Containers) (natural : Bool)
    (position : Position) : ∀ token ∈ containers.close natural position, token.opened? = none := by
  intro token member
  obtain ⟨frame, _, rfl⟩ := List.mem_map.mp member
  rfl

theorem OpenLeaf.close_noStarts {leaf : OpenLeaf} (coherent : leaf.Coherent) (natural : Bool)
    (position : Position) :
    ∀ token ∈ leaf.close natural position, token.opened? = Option.none := by
  intro token member
  exact (token.no_container_of_isOfLeaf (close_isOfLeaf coherent natural position token member)).1

theorem Token.not_isEnd_of_isStart {token : Token} (starts : token.kind.isStart = true) :
    token.isEnd = false := by
  have kept : token ∈ shown [token] := by
    rw [shown_of_isStart starts]
    exact List.mem_singleton_self token
  simpa using (List.mem_filter.mp kept).2

namespace Tokenizer

def Fills (later : List Token) : Prop :=
  later.IsChain Token.MayFill ∧ ∀ next ∈ later.head?, next.isEnd = false

theorem Fills.cons {token : Token} {later : List Token} (starts : token.kind.isStart = true)
    (fills : Fills later) : Fills (token :: later) := by
  constructor
  · exact List.isChain_cons.mpr ⟨fun next isNext _ => fills.2 next isNext, fills.1⟩
  · intro next isNext
    cases Option.some.inj isNext
    exact Token.not_isEnd_of_isStart starts

theorem openAll_fills (line : Line) (containers : Containers) (markers : List Marker)
    {later : List Token} (fills : Fills later) :
    Fills ((openAll line containers markers).1 ++ later) := by
  induction markers generalizing containers with
  | nil => exact fills
  | cons marker rest ih =>
    exact .cons (openContainer_starts line [] containers marker).1 (ih _)

theorem openFirst_split (line : Line) (lead : Text) (containers : Containers) {leaf : OpenLeaf}
    (depth : Nat) (marker : Marker) (coherent : leaf.Coherent) :
    ∃ closing token, (openFirst line lead containers leaf depth marker).1 = closing ++ [token] ∧
      (∀ ended ∈ closing, ended.opened? = none) ∧ token.kind.isStart = true := by
  have starts := (openContainer_starts line lead (containers.take depth) marker).1
  have closeLeaf := OpenLeaf.close_noStarts coherent
  have both {left right : List Token} (first : ∀ ended ∈ left, ended.opened? = none)
      (second : ∀ ended ∈ right, ended.opened? = none) :
      ∀ ended ∈ left ++ right, ended.opened? = none := by
    intro ended member
    rcases List.mem_append.mp member with before | after
    · exact first ended before
    · exact second ended after
  refine openFirst_cases
    (motive := fun opened => ∃ closing token, opened.1 = closing ++ [token] ∧
      (∀ ended ∈ closing, ended.opened? = none) ∧ token.kind.isStart = true)
    line lead containers leaf depth marker ?all ?sibling ?replaced ?other
  case all =>
    intro _
    exact ⟨_, _, rfl, closeLeaf _ _, starts⟩
  case sibling =>
    intro start item kind current inner _ _ _
    exact ⟨_, _, rfl, both (closeLeaf _ _) (Containers.close_noStarts _ _ _), rfl⟩
  case replaced =>
    intro start item kind current inner _ _ _
    exact ⟨_, _, rfl, both (both (closeLeaf _ _) (Containers.close_noStarts _ _ _))
      (Containers.close_noStarts _ _ _), starts⟩
  case other =>
    intro frame inner _ _
    exact ⟨_, _, rfl, both (closeLeaf _ _) (Containers.close_noStarts _ _ _), starts⟩

theorem leafLine_noStarts (line : Line) (lead : Text) (c : Cursor) (containers : Containers)
    (leaf : OpenLeaf) (opened : Bool) (coherent : leaf.Coherent)
    (noFence : ∀ fence, leaf ≠ .fencedCode fence) :
    ∀ token ∈ (leafLine line lead c containers leaf opened).written, token.opened? = none := by
  intro token member
  exact (token.no_container_of_isOfLeaf
    (leafLine_isOfLeaf line lead c containers leaf opened coherent noFence token member)).1

theorem openedLine_mayFill (line : Line) (lead : Text) (containers : Containers)
    {leaf : OpenLeaf} (depth : Nat) (first : Marker) (markers : List Marker) (c : Cursor)
    (coherent : leaf.Coherent) {later : List Token}
    (heads : (openedLine line lead containers leaf depth first markers c).leaf.Heads later)
    (chain : later.IsChain Token.MayFill) :
    ((openedLine line lead containers leaf depth first markers c).written ++ later).IsChain
      Token.MayFill := by
  obtain ⟨closing, token, split, noStarts, starts⟩ :=
    openFirst_split line lead containers depth first coherent
  obtain ⟨next, others, same, _, blank, filled⟩ := leafLine_first line [] c
    (openAll line (openFirst line lead containers leaf depth first).2 markers).2 true heads
  have last := mayFill_of_noStarts (leafLine_noStarts line [] c
    (openAll line (openFirst line lead containers leaf depth first).2 markers).2 .none true
    trivial (by simp)) chain
  have fills : Fills ((leafLine line [] c
      (openAll line (openFirst line lead containers leaf depth first).2 markers).2 .none
      true).written ++ later) := by
    refine ⟨last, ?_⟩
    intro found isFirst
    rw [same] at isFirst
    cases Option.some.inj isFirst
    cases isBlank : c.isBlank with
    | true => simp [Token.isEnd, blank isBlank]
    | false =>
      obtain ⟨kind, starts⟩ := filled isBlank
      simp [Token.isEnd, starts]
  simp only [openedLine, split, List.append_assoc]
  exact mayFill_of_noStarts noStarts (Fills.cons starts (openAll_fills line _ markers fills)).1

theorem unmatchedLine_mayFill (line : Line) (lead : Text) (c : Cursor) (containers : Containers)
    {leaf : OpenLeaf} (depth : Nat) (coherent : leaf.Coherent) {later : List Token}
    (chain : later.IsChain Token.MayFill) :
    ((unmatchedLine line lead c containers leaf depth).written ++ later).IsChain
      Token.MayFill := by
  simp only [unmatchedLine, List.append_assoc]
  exact mayFill_of_noStarts (OpenLeaf.close_noStarts coherent _ _)
    (mayFill_of_noStarts (Containers.close_noStarts _ _ _)
      (mayFill_of_noStarts (leafLine_noStarts line lead c (containers.take depth) .none false
        trivial (by simp)) chain))

theorem lineEffect_mayFill (containers : Containers) (leaf : OpenLeaf) (line : Line)
    (coherent : leaf.Coherent) {later : List Token}
    (heads : (lineEffect containers leaf line).leaf.Heads later)
    (chain : later.IsChain Token.MayFill) :
    ((lineEffect containers leaf line).written ++ later).IsChain Token.MayFill := by
  revert heads
  refine lineEffect_cases
    (motive := fun effect => effect.leaf.Heads later →
      (effect.written ++ later).IsChain Token.MayFill)
    containers leaf line rfl ?fenced ?opened ?matched ?lazy ?unmatched
  case fenced =>
    intro fence _ _ _
    refine mayFill_of_noStarts ?_ chain
    intro token member
    cases List.mem_singleton.mp member
    exact (Token.no_container_of_isOfLeaf (fencedLine_isOfLeaf line _ _ fence)).1
  case opened =>
    intro first markers c _ _ heads
    exact openedLine_mayFill line _ containers _ first markers c coherent heads chain
  case matched =>
    intro _ noFence _ _
    exact mayFill_of_noStarts
      (leafLine_noStarts line _ _ containers leaf false coherent noFence) chain
  case lazy =>
    intro _ _ _ _ _
    refine mayFill_of_noStarts ?_ chain
    intro token member
    exact (token.no_container_of_isOfLeaf
      (paragraphLine_isOfLeaf line _ _ containers true coherent token member)).1
  case unmatched =>
    intro _ _ _ _
    exact unmatchedLine_mayFill line _ _ containers _ coherent chain

theorem runFrom_mayFill (state : State) (lines : List Line) (coherent : state.leaf.Coherent) :
    (runFrom state lines).IsChain Token.MayFill := by
  induction lines generalizing state with
  | nil =>
    have closing := mayFill_of_noStarts
      (Containers.close_noStarts state.containers false state.reached) List.isChain_nil
    rw [List.append_nil] at closing
    exact mayFill_of_noStarts (OpenLeaf.close_noStarts coherent false state.reached) closing
  | cons line rest ih =>
    have next := (lineEffect_nests state.containers state.leaf line coherent).coherent
    exact lineEffect_mayFill state.containers state.leaf line coherent
      (runFrom_heads (step state line).2 rest next) (ih (step state line).2 next)

end Tokenizer

theorem tokenize_mayFill (text : Text) (tabWidth : Nat) :
    (tokenize text tabWidth).IsChain Token.MayFill :=
  Tokenizer.runFrom_mayFill .initial (Source.ofText text tabWidth).lines trivial

end BlockLint
