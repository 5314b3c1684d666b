import BlockLint.Proofs.BlockTree
import BlockLint.Proofs.NaturalEnds
import Mathlib.Data.List.Chain

/-!
Lists are as long as they can be: of two lists that stand side by side, or with only blank lines
between them, the second is of another type.

In the stream this shows right behind the end of a list. No blank line stands there, since a blank
line continues every list item, and no list of the same type, since its marker would have been a
further item. The tree has it from there.
-/
namespace BlockLint

namespace Block

def listKind? : Block → Option ListKind
  | .list kind _ => some kind
  | _ => none

def Apart (left right : Block) : Prop :=
  ∀ kind ∈ left.listKind?, ∀ kind' ∈ right.listKind?, kind.sameType kind' = false

end Block

/-- But for blank lines, neighbours are not two lists of one type. -/
def Separated (siblings : List Block) : Prop :=
  (siblings.filter (!·.isBlank)).IsChain Block.Apart

def Tidy (row : List Block) : Prop :=
  ∀ siblings, Siblings row siblings → Separated siblings

def Block.Tidy (block : Block) : Prop :=
  ∀ inner ∈ block.parts, BlockLint.Tidy inner

theorem Block.tidy_of_parts {block : Block} (none : block.parts = []) : block.Tidy := by
  simp [Block.Tidy, none]

theorem Tidy.of_mem {row : List Block} (tidy : Tidy row) {block : Block} (member : block ∈ row) :
    block.Tidy := by
  intro inner part siblings nested
  exact tidy siblings (.trans (.inside .root member part) nested)

theorem tidy_iff {row : List Block} :
    Tidy row ↔ Separated row ∧ ∀ block ∈ row, block.Tidy := by
  constructor
  · intro tidy
    exact ⟨tidy row .root, fun block member => tidy.of_mem member⟩
  · rintro ⟨separated, inside⟩ siblings nested
    suffices both : Separated siblings ∧ ∀ block ∈ siblings, block.Tidy from both.1
    induction nested with
    | root => exact ⟨separated, inside⟩
    | inside _ member part ih =>
      have tidy := ih.2 _ member _ part
      exact ⟨tidy _ .root, fun block within => tidy.of_mem within⟩

theorem tidy_nil : Tidy [] :=
  tidy_iff.mpr ⟨List.isChain_nil, by simp⟩

/-- The list at the end of a row, which blank lines may follow. -/
def recent? (row : List Block) : Option ListKind :=
  (row.filter (!·.isBlank)).getLast?.bind Block.listKind?

@[simp] theorem recent?_concat_blank (row : List Block) :
    recent? (row ++ [.blank]) = recent? row := by
  simp [recent?, Block.isBlank]

theorem recent?_concat {block : Block} (filled : block.isBlank = false) (row : List Block) :
    recent? (row ++ [block]) = block.listKind? := by
  simp [recent?, filled]

theorem Tidy.concat {row : List Block} {block : Block} (tidy : Tidy row) (inside : block.Tidy)
    (apart : ∀ kind ∈ recent? row, ∀ kind' ∈ block.listKind?, kind.sameType kind' = false) :
    Tidy (row ++ [block]) := by
  obtain ⟨separated, others⟩ := tidy_iff.mp tidy
  refine tidy_iff.mpr ⟨?_, ?_⟩
  · unfold Separated at separated ⊢
    cases isBlank : block.isBlank with
    | true => simpa [isBlank] using separated
    | false =>
      have last : [block].filter (!·.isBlank) = [block] := by simp [isBlank]
      rw [List.filter_append, last]
      refine separated.append (List.isChain_singleton block) ?_
      intro left isLast right isNext kind isList
      cases Option.some.inj isNext
      exact apart kind (Option.mem_bind_iff.mpr ⟨left, isLast, isList⟩)
  · intro other member
    rcases List.mem_append.mp member with earlier | new
    · exact others other earlier
    · cases List.mem_singleton.mp new
      exact inside

def ContainerKind.mayPrecede (container : ContainerKind) : TokenKind → Bool
  | .blankLine => !container.isList
  | .containerStart opened _ => !container.sameListType opened
  | _ => true

def Token.MayPrecede (token next : Token) : Prop :=
  ∀ container natural, token.kind = .containerEnd container natural →
    container.mayPrecede next.kind = true

namespace OpenBlock

theorem row_tidy {container : OpenBlock} (tidy : container.close.Tidy) : Tidy container.row := by
  cases container with
  | quote children => exact tidy children List.mem_cons_self
  | list kind done current => exact tidy current (List.mem_append_right done List.mem_cons_self)

theorem ofKind_tidy (container : ContainerKind) : (ofKind container).close.Tidy := by
  intro inner part
  cases container <;>
    · cases List.mem_singleton.mp part
      exact tidy_nil

theorem add_tidy {container : OpenBlock} {block : Block} (tidy : container.close.Tidy)
    (row : Tidy (container.row ++ [block])) : (container.add block).close.Tidy := by
  intro inner part
  cases container with
  | quote children =>
    cases List.mem_singleton.mp part
    exact row
  | list kind done current =>
    rcases List.mem_append.mp part with earlier | last
    · exact tidy inner (List.mem_append_left _ earlier)
    · cases List.mem_singleton.mp last
      exact row

theorem nextItem_tidy {kind : ListKind} {done : List (List Block)} {current : List Block}
    (tidy : (OpenBlock.list kind done current).close.Tidy) :
    (OpenBlock.list kind (done ++ [current]) []).close.Tidy := by
  intro inner part
  rcases List.mem_append.mp part with earlier | last
  · exact tidy inner earlier
  · cases List.mem_singleton.mp last
    exact tidy_nil

theorem isBlank_close (container : OpenBlock) : container.close.isBlank = false := by
  cases container <;> rfl

theorem kind_of_listKind? {container : OpenBlock} {kind : ListKind}
    (isList : container.close.listKind? = some kind) : container.kind = .list kind := by
  cases container with
  | quote children => cases isList
  | list kind' done current =>
    cases isList
    rfl

end OpenBlock

namespace Replay

/-- Blocks are tidy, and no open list is of the type of the one before it. -/
def TidyIn (root : List Block) : List OpenBlock → Prop
  | [] => BlockLint.Tidy root
  | innermost :: outer =>
    innermost.close.Tidy ∧
      (∀ kind ∈ recent? (row ⟨outer, root, none⟩), ∀ kind' ∈ innermost.close.listKind?,
        kind.sameType kind' = false) ∧
      TidyIn root outer

def Tidy (replay : Replay) : Prop :=
  TidyIn replay.root replay.stack

def Admits (replay : Replay) (next : Token) : Prop :=
  replay.lines = none → ∀ kind ∈ recent? replay.row,
    (ContainerKind.list kind).mayPrecede next.kind = true

theorem Tidy.add {replay : Replay} {block : Block} (tidy : replay.Tidy) (inside : block.Tidy)
    (apart : ∀ kind ∈ recent? replay.row, ∀ kind' ∈ block.listKind?,
      kind.sameType kind' = false) : (Replay.add block replay).Tidy := by
  obtain ⟨stack, root, lines⟩ := replay
  cases stack with
  | nil => exact BlockLint.Tidy.concat tidy inside apart
  | cons innermost outer =>
    obtain ⟨held, before, others⟩ := tidy
    refine ⟨OpenBlock.add_tidy held (.concat (OpenBlock.row_tidy held) inside apart), ?_, others⟩
    cases innermost <;> exact before

theorem step_tidy {replay : Replay} {nesting after : Nesting} {token : Token}
    (shown : replay.Shows nesting) (fits : nesting.next token.kind = some after)
    (tidy : replay.Tidy) (admits : replay.Admits token) :
    ∃ next, replay.step token = .ok next ∧ next.Shows after ∧
      next.Tidy ∧ ∀ later, token.MayPrecede later → next.Admits later := by
  have noneRecent {next : Replay} (none : recent? next.row = none) (later : Token) :
      next.Admits later := by
    intro _ kind isRecent
    rw [none] at isRecent
    cases isRecent
  refine step_cases shown fits ?containerStart ?newListItem ?containerEnd ?leafStart ?leafContent
    ?leafEnd ?blankLine
  case containerStart =>
    intro container item kind noLeaf
    refine ⟨⟨OpenBlock.ofKind_tidy container, ?_, tidy⟩, ?_⟩
    · intro earlier isRecent opened isList
      have allowed := admits noLeaf earlier isRecent
      rw [kind] at allowed
      cases container with
      | blockQuote => cases isList
      | list opened' =>
        cases isList
        simpa [ContainerKind.mayPrecede, ContainerKind.sameListType] using allowed
    · intro later _
      exact noneRecent (by simp [row, recent?]) later
  case newListItem =>
    intro _ _ kind done current outer _ stack _
    rw [Replay.Tidy, stack] at tidy
    obtain ⟨held, before, others⟩ := tidy
    exact ⟨⟨OpenBlock.nextItem_tidy held, before, others⟩, fun later _ => noneRecent rfl later⟩
  case containerEnd =>
    intro innermost outer natural kind stack _
    rw [Replay.Tidy, stack] at tidy
    obtain ⟨held, before, others⟩ := tidy
    refine ⟨Replay.Tidy.add others held before, ?_⟩
    intro later allowed _ recent isRecent
    rw [row_add, recent?_concat innermost.isBlank_close] at isRecent
    rw [← OpenBlock.kind_of_listKind? isRecent]
    exact allowed innermost.kind natural kind
  case leafStart =>
    intro _ _ _
    refine ⟨tidy, ?_⟩
    intro later _ noLeaf
    cases noLeaf
  case leafContent =>
    intro text _ lines _ _
    refine ⟨tidy, ?_⟩
    intro later _ noLeaf
    cases noLeaf
  case leafEnd =>
    intro kind _ lines _ _
    refine ⟨Replay.Tidy.add tidy (Block.tidy_of_parts rfl) (by simp [Block.listKind?]), ?_⟩
    intro later _
    exact noneRecent (by rw [row_add, recent?_concat rfl]; rfl) later
  case blankLine =>
    intro kind noLeaf
    refine ⟨Replay.Tidy.add tidy (Block.tidy_of_parts rfl) (by simp [Block.listKind?]), ?_⟩
    intro later _ _ recent isRecent
    rw [row_add, recent?_concat_blank] at isRecent
    have allowed := admits noLeaf recent isRecent
    rw [kind] at allowed
    cases allowed

theorem runFrom_tidy {replay : Replay} {nesting : Nesting} {tokens : List Token}
    (shown : replay.Shows nesting) (nests : nesting.replay tokens = some .closed)
    (chain : tokens.IsChain Token.MayPrecede) (tidy : replay.Tidy)
    (admits : ∀ next ∈ tokens.head?, replay.Admits next) :
    ∃ document, replay.runFrom tokens = .ok document ∧ BlockLint.Tidy document := by
  induction tokens generalizing replay nesting with
  | nil =>
    cases Option.some.inj nests
    have none := List.map_eq_nil_iff.mp shown.containers
    rw [Replay.Tidy, none] at tidy
    exact ⟨replay.root, by rw [runFrom, finish, none], tidy⟩
  | cons token rest ih =>
    obtain ⟨after, fits, others⟩ := Option.bind_eq_some_iff.mp nests
    obtain ⟨ahead, chain⟩ := List.isChain_cons.mp chain
    obtain ⟨next, taken, shows', tidy, follows⟩ :=
      step_tidy shown fits tidy (admits token rfl)
    obtain ⟨document, replayed, tidy⟩ := ih shows' others chain tidy
      fun later isNext => follows later (ahead later isNext)
    exact ⟨document, by rw [runFrom, taken]; exact replayed, tidy⟩

end Replay

theorem chain_of_noEnds {tokens later : List Token}
    (noEnds : ∀ token ∈ tokens, token.closed? = none)
    (chain : later.IsChain Token.MayPrecede) : (tokens ++ later).IsChain Token.MayPrecede := by
  refine isChain_append_of_free ?_ chain
  intro token member next container natural ends
  have none := noEnds token member
  simp [Token.closed?, ends] at none

namespace Containers

/-- Of containers that end together, the outermost stands right before `later`. -/
theorem close_chain (containers : Containers) (natural : Bool) (position : Position)
    {later : List Token} (chain : later.IsChain Token.MayPrecede)
    (allowed : ∀ outermost ∈ containers.head?, ∀ next ∈ later.head?,
      outermost.kind.mayPrecede next.kind = true) :
    (containers.close natural position ++ later).IsChain Token.MayPrecede := by
  induction containers generalizing later with
  | nil => exact chain
  | cons frame inner ih =>
    rw [close_cons, List.append_assoc]
    apply ih
    · refine List.isChain_cons.mpr ⟨?_, chain⟩
      rintro next isNext container flag ends
      cases ends
      exact allowed frame rfl next isNext
    · rintro outermost _ next isNext
      cases Option.some.inj isNext
      rfl

theorem continue?_of_matchFrom (c : Cursor) (containers : Containers) :
    ∀ frame ∈ (containers.drop (matchFrom c containers).depth).head?,
      frame.continue? (matchFrom c containers).cursor = none := by
  induction containers generalizing c with
  | nil =>
    intro frame isNext
    cases isNext
  | cons first inner ih =>
    intro frame isNext
    unfold matchFrom at isNext ⊢
    cases continued : first.continue? c with
    | none =>
      simp only [continued] at isNext ⊢
      cases Option.some.inj isNext
      exact continued
    | some next =>
      simp only [continued] at isNext ⊢
      exact ih next frame isNext

end Containers

theorem Frame.kind_of_blank {frame : Frame} {c : Cursor} (stops : frame.continue? c = none)
    (blank : c.isBlank = true) : frame.kind = .blockQuote := by
  cases frame with
  | blockQuote => rfl
  | list kind item => simp [continue?, ListItem.continue?, blank] at stops

namespace Tokenizer

theorem openFirst_chain (line : Line) (lead : Text) (containers : Containers) {leaf : OpenLeaf}
    (depth : Nat) (marker : Marker) (coherent : leaf.Coherent) {later : List Token}
    (chain : later.IsChain Token.MayPrecede) :
    ((openFirst line lead containers leaf depth marker).1 ++ later).IsChain Token.MayPrecede := by
  have closeLeaf (natural : Bool) (position : Position) {tokens : List Token}
      (chain : tokens.IsChain Token.MayPrecede) :
      (leaf.close natural position ++ tokens).IsChain Token.MayPrecede :=
    chain_of_noEnds (OpenLeaf.close_noEnds coherent natural position) chain
  have starting {token : Token} (starts : token.kind.isStart = true) :
      ([token] ++ later).IsChain Token.MayPrecede :=
    chain_of_noEnds (by simpa using Token.closed?_of_isStart starts) chain
  have opening := starting (openContainer_starts line lead (containers.take depth) marker).1
  refine openFirst_cases (motive := fun opened => (opened.1 ++ later).IsChain Token.MayPrecede)
    line lead containers leaf depth marker ?all ?sibling ?replaced ?other
  case all =>
    intro _
    rw [List.append_assoc]
    exact closeLeaf _ _ opening
  case sibling =>
    intro start item kind current inner _ _ _
    rw [List.append_assoc, List.append_assoc]
    refine closeLeaf _ _ (Containers.close_chain _ _ _ (starting rfl) ?_)
    intro outermost _ next isNext
    cases Option.some.inj isNext
    rfl
  case replaced =>
    intro start item kind current inner isItem _ otherType
    subst isItem
    rw [List.append_assoc, List.append_assoc, List.append_assoc]
    refine closeLeaf _ _ (Containers.close_chain _ _ _ (Containers.close_chain _ _ _ opening ?_) ?_)
    · intro outermost isOutermost next isNext
      cases Option.some.inj isOutermost
      cases Option.some.inj isNext
      exact congrArg (!·) otherType
    · intro outermost _ next isNext
      cases Option.some.inj isNext
      rfl
  case other =>
    intro frame inner _ noList
    rw [List.append_assoc, List.append_assoc]
    refine closeLeaf _ _ (Containers.close_chain _ _ _ opening ?_)
    intro outermost isOutermost next isNext
    cases Option.some.inj isOutermost
    cases Option.some.inj isNext
    cases frame with
    | blockQuote => cases marker <;> rfl
    | list kind current =>
      cases marker with
      | quote start after => rfl
      | item start item => exact absurd rfl (noList start item kind current rfl)

theorem unmatchedLine_chain (line : Line) (lead : Text) (c : Cursor) (containers : Containers)
    {leaf : OpenLeaf} (depth : Nat) (coherent : leaf.Coherent) {later : List Token}
    (stops : ∀ frame ∈ (containers.drop depth).head?, frame.continue? c = none)
    (heads : (unmatchedLine line lead c containers leaf depth).leaf.Heads later)
    (chain : later.IsChain Token.MayPrecede) :
    ((unmatchedLine line lead c containers leaf depth).written ++ later).IsChain
      Token.MayPrecede := by
  have last := chain_of_noEnds (leafLine_noEnds line lead c (containers.take depth) .none false
    trivial (by simp)) chain
  obtain ⟨first, others, same, _, blank, filled⟩ :=
    leafLine_first line lead c (containers.take depth) false heads
  simp only [unmatchedLine, List.append_assoc]
  refine chain_of_noEnds (OpenLeaf.close_noEnds coherent _ _) (Containers.close_chain _ _ _ last ?_)
  intro outermost isOutermost next isNext
  rw [same] at isNext
  cases Option.some.inj isNext
  cases isBlank : c.isBlank with
  | true =>
    rw [blank isBlank, Frame.kind_of_blank (stops outermost isOutermost) isBlank]
    rfl
  | false =>
    obtain ⟨kind, starts⟩ := filled isBlank
    rw [starts]
    rfl

theorem lineEffect_chain (containers : Containers) (leaf : OpenLeaf) (line : Line)
    (coherent : leaf.Coherent) {later : List Token}
    (heads : (lineEffect containers leaf line).leaf.Heads later)
    (chain : later.IsChain Token.MayPrecede) :
    ((lineEffect containers leaf line).written ++ later).IsChain Token.MayPrecede := by
  revert heads
  refine lineEffect_cases
    (motive := fun effect => effect.leaf.Heads later →
      (effect.written ++ later).IsChain Token.MayPrecede)
    containers leaf line rfl ?fenced ?opened ?matched ?lazy ?unmatched
  case fenced =>
    intro fence _ _ _
    refine chain_of_noEnds ?_ chain
    unfold fencedLine
    split <;> simp [Token.closed?, tokenAt]
  case opened =>
    intro first markers c _ _ _
    simp only [openedLine, List.append_assoc]
    exact openFirst_chain line _ containers _ first coherent
      (chain_of_noEnds (openAll_noEnds line _ markers)
        (chain_of_noEnds (leafLine_noEnds line [] c _ .none true trivial (by simp)) chain))
  case matched =>
    intro _ noFence _ _
    exact chain_of_noEnds (leafLine_noEnds line _ _ containers leaf false coherent noFence) chain
  case lazy =>
    intro _ _ _ _ _
    exact chain_of_noEnds (paragraphLine_noEnds line _ _ containers true coherent) chain
  case unmatched =>
    intro _ _ _ heads
    exact unmatchedLine_chain line _ _ containers _ coherent
      (Containers.continue?_of_matchFrom _ containers) heads chain

theorem runFrom_chain (state : State) (lines : List Line) (coherent : state.leaf.Coherent) :
    (runFrom state lines).IsChain Token.MayPrecede := by
  induction lines generalizing state with
  | nil =>
    have closing := Containers.close_chain state.containers false state.reached
      List.isChain_nil (by simp)
    rw [List.append_nil] at closing
    exact chain_of_noEnds (OpenLeaf.close_noEnds coherent false state.reached) closing
  | cons line rest ih =>
    have next := (lineEffect_nests state.containers state.leaf line coherent).coherent
    exact lineEffect_chain state.containers state.leaf line coherent
      (runFrom_heads (step state line).2 rest next) (ih (step state line).2 next)

end Tokenizer

/-- Every document has a tree. In each of its rows, and that of any quote or list item in it, lists
that only blank lines part are of different types. -/
theorem lists_maximal (text : Text) (tabWidth : Nat) :
    ∃ document, blocks (tokenize text tabWidth) = .ok document ∧
      ∀ siblings, Siblings document siblings → Separated siblings := by
  have nests := Tokenizer.replay_runFrom .initial (Source.ofText text tabWidth).lines trivial
  have chain := Tokenizer.runFrom_chain .initial (Source.ofText text tabWidth).lines trivial
  refine Replay.runFrom_tidy ⟨rfl, rfl⟩ nests chain tidy_nil ?_
  intro next _ _ kind isRecent
  cases isRecent

end BlockLint
