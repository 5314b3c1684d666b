import BlockLint.Proofs.Nesting
import Mathlib.Data.List.Chain

/-!
Which containers end by rule. The flag at the end of a container can be read off what follows it: a
blank line, or right behind it a list of another type. Whatever else follows has forced the end.

A paragraph's start is written long after the ends before it, so what a line writes is judged
together with the tokens to come.
-/
namespace BlockLint

def ContainerKind.givesWayTo (container opened : ContainerKind) : Bool :=
  container.isList && opened.isList && !container.sameListType opened

def TokenKind.isStart : TokenKind → Bool
  | .containerStart _ _ | .newListItem _ _ | .leafStart _ => true
  | _ => false

theorem Token.closed?_of_isStart {token : Token} (starts : token.kind.isStart = true) :
    token.closed? = none := by
  unfold Token.closed?
  split
  · rename_i ends
    simp [ends, TokenKind.isStart] at starts
  · rfl

def shown (tokens : List Token) : List Token :=
  tokens.filter (!·.isEnd)

@[simp] theorem shown_append (left right : List Token) :
    shown (left ++ right) = shown left ++ shown right :=
  List.filter_append ..

def pastEnds? (tokens : List Token) : Option Token :=
  tokens.find? (·.closed?.isNone)

/-- The end of a container, told by the tokens after it. -/
structure EndTold (line : Nat) (container : ContainerKind) (natural : Bool)
    (after : List Token) : Prop where
  byRule : natural = true ↔
    (∃ next, pastEnds? after = some next ∧ next.kind = .blankLine) ∨
      ∃ next opened item, after.head? = some next ∧ next.kind = .containerStart opened item ∧
        container.givesWayTo opened = true
  forced : natural = false → ∀ next, pastEnds? after = some next → next.kind.isStart = true
  sameLine : ∀ next, pastEnds? after = some next → next.position.line = line

/-- All ends of containers in `tokens` are told by what follows them. After the tokens comes
`later`. -/
def EndsTold : List Token → List Token → Prop
  | [], _ => True
  | token :: rest, later =>
    (∀ container natural, token.kind = .containerEnd container natural →
      EndTold token.position.line container natural (rest ++ later)) ∧ EndsTold rest later

namespace EndsTold

theorem append {left right later : List Token} (first : EndsTold left (right ++ later))
    (second : EndsTold right later) : EndsTold (left ++ right) later := by
  induction left with
  | nil => exact second
  | cons token rest ih =>
    obtain ⟨told, others⟩ := first
    refine ⟨?_, ih others⟩
    intro container natural ends
    simpa using told container natural ends

theorem of_noEnds {tokens : List Token} (noEnds : ∀ token ∈ tokens, token.closed? = none)
    (later : List Token) : EndsTold tokens later := by
  induction tokens with
  | nil => trivial
  | cons token rest ih =>
    refine ⟨?_, ih fun other member => noEnds other (List.mem_cons_of_mem _ member)⟩
    intro container natural ends
    have none := noEnds token List.mem_cons_self
    simp [Token.closed?, ends] at none

theorem told_of_split {before after later : List Token} {closing : Token}
    {container : ContainerKind} {natural : Bool}
    (told : EndsTold (before ++ closing :: after) later)
    (ends : closing.kind = .containerEnd container natural) :
    EndTold closing.position.line container natural (after ++ later) := by
  induction before with
  | nil => exact told.1 container natural ends
  | cons token before ih => exact ih told.2

end EndsTold

namespace Containers

theorem closed?_of_mem_close {containers : Containers} {natural : Bool} {position : Position}
    {token : Token} (member : token ∈ containers.close natural position) :
    token.closed?.isNone = false := by
  obtain ⟨frame, _, rfl⟩ := List.mem_map.mp member
  rfl

theorem pastEnds?_close (containers : Containers) (natural : Bool) (position : Position)
    (later : List Token) :
    pastEnds? (containers.close natural position ++ later) = pastEnds? later := by
  have none : (containers.close natural position).find? (·.closed?.isNone) = .none :=
    List.find?_eq_none.mpr fun token member => by simp [closed?_of_mem_close member]
  rw [pastEnds?, List.find?_append, none]
  rfl

theorem eq_nil_of_head?_close {containers : Containers} {natural : Bool} {position : Position}
    {later : List Token} {next : Token}
    (isFirst : (containers.close natural position ++ later).head? = some next)
    (notEnd : next.closed? = none) : containers = [] := by
  cases same : containers.close natural position with
  | nil => simpa [Containers.close] using same
  | cons token rest =>
    have member : token ∈ containers.close natural position := by simp [same]
    rw [same, List.cons_append, List.head?_cons] at isFirst
    have ends := closed?_of_mem_close member
    rw [Option.some.inj isFirst, notEnd] at ends
    contradiction

/-- Containers that end together. The outermost of them stands right before `later`, so it alone
could give way to what starts there. -/
theorem close_endsTold {containers : Containers} {natural : Bool} {position : Position}
    {later : List Token}
    (byRule : natural = true → ∃ next, pastEnds? later = some next ∧ next.kind = .blankLine)
    (forced : natural = false → ∀ next, pastEnds? later = some next → next.kind.isStart = true)
    (sameLine : ∀ next, pastEnds? later = some next → next.position.line = position.line)
    (stays : natural = false → ∀ outermost next opened item, containers.head? = some outermost →
      later.head? = some next → next.kind = .containerStart opened item →
        outermost.kind.givesWayTo opened = false) :
    EndsTold (containers.close natural position) later := by
  induction containers using List.reverseRecOn with
  | nil => trivial
  | append_singleton outer last ih =>
    have first : Containers.close (outer ++ [last]) natural position =
        endToken (.containerEnd last.kind natural) position ::
          Containers.close outer natural position := by
      simp [Containers.close]
    have past := pastEnds?_close outer natural position later
    rw [first]
    refine ⟨?_, ih ?_⟩
    · rintro container flag ends
      cases ends
      refine ⟨⟨fun isNatural => .inl (past ▸ byRule isNatural), ?_⟩, past ▸ forced,
        past ▸ sameLine⟩
      rintro (⟨next, isNext, blank⟩ | ⟨next, opened, item, isFirst, starts, givesWay⟩)
      · by_contra notNatural
        have starts := forced (by simpa using notNatural) next (past ▸ isNext)
        simp [blank, TokenKind.isStart] at starts
      · by_contra notNatural
        cases eq_nil_of_head?_close isFirst (by simp [Token.closed?, starts])
        have keeps := stays (by simpa using notNatural) last next opened item rfl isFirst starts
        simp [givesWay] at keeps
    · intro notNatural outermost next opened item isOutermost
      exact stays notNatural outermost next opened item (by simp [isOutermost])

theorem close_replaced_endsTold {kind : ListKind} {item : ListItem} {position : Position}
    {next : Token} {opened : ContainerKind} {geometry : Option ItemGeometry} (later : List Token)
    (sameLine : next.position.line = position.line)
    (starts : next.kind = .containerStart opened geometry)
    (givesWay : (ContainerKind.list kind).givesWayTo opened = true) :
    EndsTold (Containers.close [.list kind item] true position) (next :: later) := by
  have past : pastEnds? (next :: later) = some next := by
    simp [pastEnds?, Token.closed?, starts]
  refine ⟨?_, trivial⟩
  rintro container natural ends
  cases ends
  refine ⟨⟨fun _ => .inr ⟨next, opened, geometry, rfl, starts, givesWay⟩, fun _ => rfl⟩, ?_, ?_⟩
  · intro notNatural
    contradiction
  · intro found isNext
    cases past.symm.trans isNext
    exact sameLine

end Containers

def TokenKind.isOfLeaf : TokenKind → Bool
  | .leafStart _ | .leafContent _ _ | .leafEnd _ _ | .blankLine => true
  | _ => false

theorem Token.no_container_of_isOfLeaf {token : Token} (ofLeaf : token.kind.isOfLeaf = true) :
    token.opened? = none ∧ token.closed? = none := by
  unfold Token.opened? Token.closed?
  cases kind : token.kind with
  | containerStart | containerEnd | newListItem => simp [kind, TokenKind.isOfLeaf] at ofLeaf
  | _ => exact ⟨rfl, rfl⟩

theorem OpenLeaf.kind_of_mem_close {leaf : OpenLeaf} (coherent : leaf.Coherent) {natural : Bool}
    {position : Position} {token : Token} (member : token ∈ leaf.close natural position) :
    token.kind = .leafStart .paragraph ∨ (∃ text isLazy, token.kind = .leafContent text isLazy) ∨
      (∃ kind, token.kind = .leafEnd kind natural) ∨ token.kind = .blankLine := by
  cases leaf with
  | none => cases member
  | paragraph opening contents =>
    rcases List.mem_append.mp member with kept | last
    · rcases List.mem_cons.mp kept with rfl | content
      · exact .inl coherent.1
      · exact .inr (.inl (coherent.2 token content))
    · cases List.mem_singleton.mp last
      exact .inr (.inr (.inl ⟨_, rfl⟩))
  | indentedCode held =>
    rcases List.mem_cons.mp member with rfl | isBlank
    · exact .inr (.inr (.inl ⟨_, rfl⟩))
    · obtain ⟨blank, isHeld, rfl⟩ := List.mem_map.mp isBlank
      exact .inr (.inr (.inr (coherent blank isHeld)))
  | fencedCode fence =>
    cases List.mem_singleton.mp member
    exact .inr (.inr (.inl ⟨_, rfl⟩))

theorem OpenLeaf.close_isOfLeaf {leaf : OpenLeaf} (coherent : leaf.Coherent) (natural : Bool)
    (position : Position) :
    ∀ token ∈ leaf.close natural position, token.kind.isOfLeaf = true := by
  intro token member
  rcases kind_of_mem_close coherent member with kind | ⟨_, _, kind⟩ | ⟨_, kind⟩ | kind
  all_goals rw [kind]; rfl

theorem OpenLeaf.close_noEnds {leaf : OpenLeaf} (coherent : leaf.Coherent) (natural : Bool)
    (position : Position) :
    ∀ token ∈ leaf.close natural position, token.closed? = Option.none := by
  intro token member
  exact (token.no_container_of_isOfLeaf (close_isOfLeaf coherent natural position token member)).2

theorem isChain_append_of_free {R : Token → Token → Prop} {tokens later : List Token}
    (free : ∀ token ∈ tokens, ∀ next, R token next) (chain : later.IsChain R) :
    (tokens ++ later).IsChain R := by
  induction tokens with
  | nil => exact chain
  | cons token rest ih =>
    refine List.isChain_cons.mpr ⟨?_, ih fun other member => free other (.tail _ member)⟩
    intro next _
    exact free token List.mem_cons_self next

/-- A paragraph that is open is the next to be written, as itself or as a setext heading. -/
def OpenLeaf.Heads (leaf : OpenLeaf) (later : List Token) : Prop :=
  ∀ opening contents, leaf = .paragraph opening contents →
    ∃ kind others, later = { opening with kind := .leafStart kind } :: others

namespace Tokenizer

theorem paragraphLine_isOfLeaf (line : Line) (lead : Text) (c : Cursor) (containers : Containers)
    {leaf : OpenLeaf} (isLazy : Bool) (coherent : leaf.Coherent) :
    ∀ token ∈ (paragraphLine line lead c containers leaf isLazy).written,
      token.kind.isOfLeaf = true := by
  have closing := OpenLeaf.close_isOfLeaf coherent true (line.position c.offset)
  cases leaf with
  | paragraph opening contents => simp [paragraphLine]
  | none => exact closing
  | indentedCode held => exact closing
  | fencedCode fence => exact closing

theorem codeLine_isOfLeaf (line : Line) (lead : Text) (c : Cursor) (held : List HeldBlank) :
    ∀ token ∈ codeLine line lead c held, token.kind.isOfLeaf = true := by
  intro token member
  rcases List.mem_append.mp member with blank | code
  · obtain ⟨blank, _, rfl⟩ := List.mem_map.mp blank
    rfl
  · cases List.mem_singleton.mp code
    rfl

/-- After the markers of a line, containers neither start nor end. -/
theorem leafLine_isOfLeaf (line : Line) (lead : Text) (c : Cursor) (containers : Containers)
    (leaf : OpenLeaf) (opened : Bool) (coherent : leaf.Coherent)
    (noFence : ∀ fence, leaf ≠ .fencedCode fence) :
    ∀ token ∈ (leafLine line lead c containers leaf opened).written,
      token.kind.isOfLeaf = true := by
  have closing := OpenLeaf.close_isOfLeaf coherent true (line.position c.offset)
  have behind {tokens : List Token} (ofLeaf : ∀ token ∈ tokens, token.kind.isOfLeaf = true) :
      ∀ token ∈ leaf.close true (line.position c.offset) ++ tokens,
        token.kind.isOfLeaf = true := by
    intro token member
    rcases List.mem_append.mp member with old | new
    · exact closing token old
    · exact ofLeaf token new
  refine leafLine_cases
    (motive := fun effect => ∀ token ∈ effect.written, token.kind.isOfLeaf = true)
    line lead c containers leaf opened noFence ?held ?blank ?setext ?text ?moreCode ?newCode
    ?atxHeading ?thematicBreak ?fenceOpen
  case held => simp
  case blank =>
    intro _ _
    exact behind (by simp [TokenKind.isOfLeaf, tokenAt])
  case setext =>
    intro level opening contents isParagraph _ token member
    subst isParagraph
    rcases List.mem_append.mp member with kept | last
    · rcases List.mem_cons.mp kept with rfl | content
      · rfl
      · obtain ⟨text, isLazy, kind⟩ := coherent.2 token content
        rw [kind]
        rfl
    · cases List.mem_singleton.mp last
      rfl
  case text =>
    intro _
    exact paragraphLine_isOfLeaf line lead c containers false coherent
  case moreCode =>
    intro held _ _
    exact codeLine_isOfLeaf line lead c held
  case newCode =>
    intro _ _ token member
    rcases List.mem_cons.mp member with rfl | code
    · rfl
    · exact codeLine_isOfLeaf line [] c [] token code
  case atxHeading =>
    intro heading _
    exact behind (by simp [TokenKind.isOfLeaf, tokenAt, endToken])
  case thematicBreak =>
    intro _
    exact behind (by simp [TokenKind.isOfLeaf, tokenAt, endToken])
  case fenceOpen =>
    intro fence _
    exact behind (by simp [TokenKind.isOfLeaf, tokenAt])

theorem fencedLine_isOfLeaf (line : Line) (lead : Text) (c : Cursor) (fence : Fence) :
    (fencedLine line lead c fence).1.kind.isOfLeaf = true := by
  unfold fencedLine
  split <;> rfl

theorem paragraphLine_noEnds (line : Line) (lead : Text) (c : Cursor) (containers : Containers)
    {leaf : OpenLeaf} (isLazy : Bool) (coherent : leaf.Coherent) :
    ∀ token ∈ (paragraphLine line lead c containers leaf isLazy).written,
      token.closed? = none := by
  intro token member
  exact (token.no_container_of_isOfLeaf
    (paragraphLine_isOfLeaf line lead c containers isLazy coherent token member)).2

theorem leafLine_noEnds (line : Line) (lead : Text) (c : Cursor) (containers : Containers)
    (leaf : OpenLeaf) (opened : Bool) (coherent : leaf.Coherent)
    (noFence : ∀ fence, leaf ≠ .fencedCode fence) :
    ∀ token ∈ (leafLine line lead c containers leaf opened).written, token.closed? = none := by
  intro token member
  exact (token.no_container_of_isOfLeaf
    (leafLine_isOfLeaf line lead c containers leaf opened coherent noFence token member)).2

theorem leafLine_first (line : Line) (lead : Text) (c : Cursor) (containers : Containers)
    (opened : Bool) {later : List Token}
    (heads : (leafLine line lead c containers .none opened).leaf.Heads later) :
    ∃ next others, (leafLine line lead c containers .none opened).written ++ later =
        next :: others ∧ next.position.line = line.number ∧
      (c.isBlank = true → next.kind = .blankLine) ∧
      (c.isBlank = false → ∃ kind, next.kind = .leafStart kind) := by
  have notBlank {leafClass : LineClass} (found : LineClass.of c.rest false = leafClass)
      (other : leafClass ≠ .blank) : c.isBlank = false := by
    by_contra blank
    simp only [Cursor.isBlank, Bool.not_eq_false] at blank
    exact other (by rw [← found, LineClass.of, if_pos blank])
  revert heads
  refine leafLine_cases
    (motive := fun effect => effect.leaf.Heads later → ∃ next others,
      effect.written ++ later = next :: others ∧ next.position.line = line.number ∧
        (c.isBlank = true → next.kind = .blankLine) ∧
        (c.isBlank = false → ∃ kind, next.kind = .leafStart kind))
    line lead c containers .none opened (by simp) ?held ?blank ?setext ?text ?moreCode ?newCode
    ?atxHeading ?thematicBreak ?fenceOpen
  case held => simp
  case blank =>
    intro _ found _
    have blank := LineClass.isBlank_of_blank found
    exact ⟨_, _, rfl, rfl, fun _ => rfl, fun filled => by simp [Cursor.isBlank, blank] at filled⟩
  case setext => simp
  case text =>
    intro found heads
    obtain ⟨kind, others, same⟩ := heads _ _ rfl
    have filled : c.isBlank = false := by
      rcases found with isText | ⟨isParagraph, _⟩
      · exact notBlank isText (by simp)
      · simp [OpenLeaf.isParagraph] at isParagraph
    exact ⟨_, others, same, rfl, fun blank => by simp [filled] at blank, fun _ => ⟨kind, rfl⟩⟩
  case moreCode => simp
  case newCode =>
    intro _ found _
    have filled := notBlank found (by simp)
    exact ⟨_, _, rfl, rfl, fun blank => by simp [filled] at blank, fun _ => ⟨_, rfl⟩⟩
  case atxHeading =>
    intro heading found _
    have filled := notBlank found (by simp)
    exact ⟨_, _, rfl, rfl, fun blank => by simp [filled] at blank, fun _ => ⟨_, rfl⟩⟩
  case thematicBreak =>
    intro found _
    have filled := notBlank found (by simp)
    exact ⟨_, _, rfl, rfl, fun blank => by simp [filled] at blank, fun _ => ⟨_, rfl⟩⟩
  case fenceOpen =>
    intro fence found _
    have filled := notBlank found (by simp)
    exact ⟨_, _, rfl, rfl, fun blank => by simp [filled] at blank, fun _ => ⟨_, rfl⟩⟩

theorem openContainer_starts (line : Line) (lead : Text) (containers : Containers)
    (marker : Marker) :
    (openContainer line lead containers marker).1.kind.isStart = true ∧
      (openContainer line lead containers marker).1.position.line = line.number := by
  cases marker <;> exact ⟨rfl, rfl⟩

theorem openAll_noEnds (line : Line) (containers : Containers) (markers : List Marker) :
    ∀ token ∈ (openAll line containers markers).1, token.closed? = none := by
  induction markers generalizing containers with
  | nil => simp [openAll]
  | cons marker rest ih =>
    intro token member
    rcases List.mem_cons.mp member with rfl | later
    · exact Token.closed?_of_isStart (openContainer_starts line [] containers marker).1
    · exact ih _ token later

theorem pastEnds?_start {next : Token} (starts : next.kind.isStart = true) (later : List Token) :
    pastEnds? (next :: later) = some next := by
  simp [pastEnds?, Token.closed?_of_isStart starts]

theorem close_endsTold_of_start {containers : Containers} {position : Position} {next : Token}
    {later : List Token} (past : pastEnds? later = some next) (starts : next.kind.isStart = true)
    (sameLine : next.position.line = position.line)
    (stays : ∀ outermost first opened item, containers.head? = some outermost →
      later.head? = some first → first.kind = .containerStart opened item →
        outermost.kind.givesWayTo opened = false) :
    EndsTold (containers.close false position) later := by
  refine Containers.close_endsTold ?_ ?_ ?_ fun _ => stays
  · intro isNatural
    contradiction
  · intro _ found isNext
    cases past.symm.trans isNext
    exact starts
  · intro found isNext
    cases past.symm.trans isNext
    exact sameLine

theorem openFirst_endsTold (line : Line) (lead : Text) (containers : Containers)
    {leaf : OpenLeaf} (depth : Nat) (marker : Marker) (coherent : leaf.Coherent)
    (later : List Token) :
    EndsTold (openFirst line lead containers leaf depth marker).1 later := by
  have leafTold (natural : Bool) (position : Position) (tokens : List Token) :=
    EndsTold.of_noEnds (OpenLeaf.close_noEnds coherent natural position) tokens
  obtain ⟨starts, onLine⟩ := openContainer_starts line lead (containers.take depth) marker
  have opening : EndsTold [(openContainer line lead (containers.take depth) marker).1] later :=
    .of_noEnds (by simpa using Token.closed?_of_isStart starts) later
  refine openFirst_cases (motive := fun opened => EndsTold opened.1 later) line lead containers
    leaf depth marker ?all ?sibling ?replaced ?other
  case all =>
    intro _
    exact (leafTold true _ _).append opening
  case sibling =>
    intro start item kind current inner _ _ _
    generalize isItem : tokenAt line item.markerOffset
      (.newListItem (item.listItem start).geometry item.number?) lead
      (start.upTo (item.past start)) = next
    have startsItem : next.kind.isStart = true := by rw [← isItem]; rfl
    have inside : EndsTold (Containers.close inner false (line.position start.offset))
        (next :: later) :=
      close_endsTold_of_start (pastEnds?_start startsItem later) startsItem (by rw [← isItem]; rfl)
        (by
          intro outermost first opened geometry _ isFirst startsContainer
          cases Option.some.inj isFirst
          rw [← isItem] at startsContainer
          cases startsContainer)
    exact ((leafTold false _ _).append inside).append
      (.of_noEnds (by simpa using Token.closed?_of_isStart startsItem) later)
  case replaced =>
    intro start item kind current inner isItem _ otherType
    subst isItem
    have givesWay : (ContainerKind.list kind).givesWayTo (.list item.kind) = true := by
      simp [ContainerKind.givesWayTo, ContainerKind.isList, ContainerKind.sameListType, otherType]
    have past := pastEnds?_start starts later
    rw [← Containers.pastEnds?_close [.list kind current] true (line.position start.offset)] at past
    -- Right behind the inner containers ends the list, so none of them gives way.
    have inside : EndsTold (Containers.close inner false (line.position start.offset)) _ :=
      close_endsTold_of_start past starts onLine (by
        intro outermost first opened geometry _ isFirst startsContainer
        cases Option.some.inj isFirst
        cases startsContainer)
    exact (((leafTold false _ _).append inside).append
      (Containers.close_replaced_endsTold later rfl rfl givesWay)).append opening
  case other =>
    intro frame inner _ noList
    refine ((leafTold false _ _).append
      (close_endsTold_of_start (pastEnds?_start starts later) starts onLine ?_)).append opening
    intro outermost first opened geometry isOutermost isFirst startsContainer
    cases Option.some.inj isOutermost
    cases Option.some.inj isFirst
    cases marker with
    | quote start after =>
      cases startsContainer
      simp [ContainerKind.givesWayTo, ContainerKind.isList]
    | item start item =>
      cases frame with
      | blockQuote => rfl
      | list kind current => exact absurd rfl (noList start item kind current rfl)

theorem openedLine_endsTold (line : Line) (lead : Text) (containers : Containers)
    {leaf : OpenLeaf} (depth : Nat) (first : Marker) (markers : List Marker) (c : Cursor)
    (coherent : leaf.Coherent) (later : List Token) :
    EndsTold (openedLine line lead containers leaf depth first markers c).written later := by
  have opening := EndsTold.of_noEnds
    (openAll_noEnds line (openFirst line lead containers leaf depth first).2 markers)
  have last := EndsTold.of_noEnds (leafLine_noEnds line [] c
    (openAll line (openFirst line lead containers leaf depth first).2 markers).2 .none
    true trivial (by simp))
  exact ((openFirst_endsTold line lead containers depth first coherent _).append
    (opening _)).append (last later)

theorem unmatchedLine_endsTold (line : Line) (lead : Text) (c : Cursor) (containers : Containers)
    {leaf : OpenLeaf} (depth : Nat) (coherent : leaf.Coherent) {later : List Token}
    (heads : (unmatchedLine line lead c containers leaf depth).leaf.Heads later) :
    EndsTold (unmatchedLine line lead c containers leaf depth).written later := by
  have last := leafLine_noEnds line lead c (containers.take depth) .none false trivial
    (by simp)
  obtain ⟨next, others, same, onLine, blank, filled⟩ :=
    leafLine_first line lead c (containers.take depth) false heads
  have notEnd : next.closed? = none := by
    cases isBlank : c.isBlank with
    | true => simp [Token.closed?, blank isBlank]
    | false =>
      obtain ⟨kind, starts⟩ := filled isBlank
      simp [Token.closed?, starts]
  have past : pastEnds? (next :: others) = some next := by simp [pastEnds?, notEnd]
  rw [← same] at past
  have inside : EndsTold (Containers.close (containers.drop depth) c.isBlank
      (line.position c.offset)) ((leafLine line lead c (containers.take depth) .none
        false).written ++ later) := by
    refine Containers.close_endsTold ?_ ?_ ?_ ?_
    · intro isBlank
      exact ⟨next, past, blank isBlank⟩
    · intro isFilled found isNext
      cases past.symm.trans isNext
      obtain ⟨kind, starts⟩ := filled isFilled
      simp [starts, TokenKind.isStart]
    · intro found isNext
      cases past.symm.trans isNext
      exact onLine
    · intro isFilled outermost first opened item _ isFirst startsContainer
      rw [same] at isFirst
      cases Option.some.inj isFirst
      obtain ⟨kind, starts⟩ := filled isFilled
      simp [starts] at startsContainer
  exact ((EndsTold.of_noEnds (OpenLeaf.close_noEnds coherent c.isBlank _) _).append
    inside).append (.of_noEnds last later)

/-- The ends that a line writes are told by what the line goes on to write, up to the start of a
paragraph that it leaves open. -/
theorem lineEffect_endsTold (containers : Containers) (leaf : OpenLeaf) (line : Line)
    (coherent : leaf.Coherent) {later : List Token}
    (heads : (lineEffect containers leaf line).leaf.Heads later) :
    EndsTold (lineEffect containers leaf line).written later := by
  revert heads
  refine lineEffect_cases
    (motive := fun effect => effect.leaf.Heads later → EndsTold effect.written later) containers
    leaf line rfl ?fenced ?opened ?matched ?lazy ?unmatched
  case fenced =>
    intro fence _ _ _
    refine .of_noEnds ?_ later
    unfold fencedLine
    split <;> simp [Token.closed?, tokenAt]
  case opened =>
    intro first markers c _ _ _
    exact openedLine_endsTold line _ containers _ first markers c coherent later
  case matched =>
    intro _ noFence _ _
    exact .of_noEnds (leafLine_noEnds line _ _ containers leaf false coherent noFence) later
  case lazy =>
    intro _ _ _ _ _
    exact .of_noEnds (paragraphLine_noEnds line _ _ containers true coherent) later
  case unmatched =>
    intro _ _ _ heads
    exact unmatchedLine_endsTold line _ _ containers _ coherent heads

/-- The effect goes on with the paragraph, or writes it before all else. A paragraph that is written
is one still or has become a setext heading. -/
def Effect.KeepsParagraph (effect : Effect) (opening : Token) (contents : List Token) : Prop :=
  (effect.written = [] ∧ ∃ more, effect.leaf = .paragraph opening (contents ++ more)) ∨
    ∃ kind, (kind = .paragraph ∨ ∃ level, kind = .setextHeading level) ∧
      { opening with kind := .leafStart kind } :: contents <+: effect.written

theorem Effect.KeepsParagraph.of_close {effect : Effect} {opening : Token} {contents : List Token}
    {natural : Bool} {position : Position} (starts : opening.kind = .leafStart .paragraph)
    (closes : OpenLeaf.close (.paragraph opening contents) natural position <+: effect.written) :
    effect.KeepsParagraph opening contents := by
  refine .inr ⟨.paragraph, .inl rfl, ?_⟩
  rw [← starts]
  exact (List.prefix_append ..).trans closes

theorem leafLine_keepsParagraph (line : Line) (lead : Text) (c : Cursor) (containers : Containers)
    (opened : Bool) {opening : Token} {contents : List Token}
    (starts : opening.kind = .leafStart .paragraph) :
    (leafLine line lead c containers (.paragraph opening contents) opened).KeepsParagraph
      opening contents := by
  refine leafLine_cases (motive := fun effect => effect.KeepsParagraph opening contents) line lead c
    containers (.paragraph opening contents) opened (by simp) ?held ?blank ?setext ?text ?moreCode
    ?newCode ?atxHeading ?thematicBreak ?fenceOpen
  case held => simp
  case blank =>
    intro _ _
    exact .of_close starts (List.prefix_append ..)
  case setext =>
    intro level opening' contents' same _
    cases same
    exact .inr ⟨.setextHeading level, .inr ⟨level, rfl⟩, List.prefix_append ..⟩
  case text =>
    intro _
    exact .inl ⟨rfl, _, rfl⟩
  case moreCode => simp
  case newCode => simp
  case atxHeading =>
    intro heading _
    exact .of_close starts (List.prefix_append ..)
  case thematicBreak =>
    intro _
    exact .of_close starts (List.prefix_append ..)
  case fenceOpen =>
    intro fence _
    exact .of_close starts (List.prefix_append ..)

theorem close_prefix_openFirst (line : Line) (lead : Text) (containers : Containers)
    (leaf : OpenLeaf) (depth : Nat) (marker : Marker) :
    ∃ natural position,
      leaf.close natural position <+: (openFirst line lead containers leaf depth marker).1 := by
  refine openFirst_cases
    (motive := fun opened => ∃ natural position, leaf.close natural position <+: opened.1)
    line lead containers leaf depth marker ?all ?sibling ?replaced ?other
  case all =>
    intro _
    exact ⟨true, _, List.prefix_append ..⟩
  case sibling =>
    intro start item kind current inner _ _ _
    exact ⟨false, line.position start.offset, by simp only [List.append_assoc, List.prefix_append]⟩
  case replaced =>
    intro start item kind current inner _ _ _
    exact ⟨false, line.position start.offset, by simp only [List.append_assoc, List.prefix_append]⟩
  case other =>
    intro frame inner _ _
    exact ⟨false, line.position marker.start.offset,
      by simp only [List.append_assoc, List.prefix_append]⟩

theorem lineEffect_keepsParagraph (containers : Containers) (line : Line) {opening : Token}
    (contents : List Token) (starts : opening.kind = .leafStart .paragraph) :
    (lineEffect containers (.paragraph opening contents) line).KeepsParagraph opening contents := by
  refine lineEffect_cases (motive := fun effect => effect.KeepsParagraph opening contents)
    containers (.paragraph opening contents) line rfl ?fenced ?opened ?matched ?lazy ?unmatched
  case fenced => simp
  case opened =>
    intro first later c _ _
    obtain ⟨natural, position, closes⟩ := close_prefix_openFirst line
      ((containers.matchLine line.expanded).lead line.expanded) containers
      (.paragraph opening contents) (containers.matchLine line.expanded).depth first
    exact .of_close starts
      ((closes.trans (List.prefix_append ..)).trans (List.prefix_append ..))
  case matched =>
    intro _ _ _
    exact leafLine_keepsParagraph line _ _ containers false starts
  case lazy =>
    intro _ _ _ _
    exact .inl ⟨rfl, _, rfl⟩
  case unmatched =>
    intro _ _ _
    exact .of_close starts ((List.prefix_append ..).trans (List.prefix_append ..))

/-- However long a paragraph is, its start comes first among the tokens that follow. -/
theorem runFrom_heads (state : State) (lines : List Line) (coherent : state.leaf.Coherent) :
    state.leaf.Heads (runFrom state lines) := by
  induction lines generalizing state with
  | nil =>
    intro opening contents isParagraph
    rw [isParagraph] at coherent
    refine ⟨.paragraph, contents ++ [endToken (.leafEnd .paragraph false) state.reached] ++
      state.containers.close false state.reached, ?_⟩
    rw [← coherent.1, runFrom, finish, isParagraph]
    rfl
  | cons line rest ih =>
    intro opening contents isParagraph
    have next := (lineEffect_nests state.containers state.leaf line coherent).coherent
    rw [isParagraph] at coherent
    have keeps := lineEffect_keepsParagraph state.containers line contents coherent.1
    rw [← isParagraph] at keeps
    rcases keeps with ⟨none, more, stays⟩ | ⟨kind, _, others, written⟩
    · obtain ⟨kind, others, same⟩ := ih (step state line).2 next opening (contents ++ more) stays
      refine ⟨kind, others, ?_⟩
      simpa [runFrom, step, none] using same
    · exact ⟨kind, contents ++ others ++ runFrom (step state line).2 rest,
        by simp [runFrom, step, ← written]⟩

theorem runFrom_endsTold (state : State) (lines : List Line) (coherent : state.leaf.Coherent) :
    EndsTold (runFrom state lines) [] := by
  induction lines generalizing state with
  | nil =>
    have leafTold := EndsTold.of_noEnds (OpenLeaf.close_noEnds coherent false state.reached)
    refine (leafTold _).append (Containers.close_endsTold ?_ ?_ ?_ ?_)
    all_goals simp [pastEnds?]
  | cons line rest ih =>
    have next := (lineEffect_nests state.containers state.leaf line coherent).coherent
    have heads := runFrom_heads (step state line).2 rest next
    have written := lineEffect_endsTold state.containers state.leaf line coherent heads
    refine EndsTold.append ?_ (ih (step state line).2 next)
    simpa [step] using written

end Tokenizer

/-- At the end of a container in the stream of any document, the tokens after it tell whether it
ended by rule, what forced it if not, and that this stands on the same line. -/
theorem containerEnd_told {text : Text} {tabWidth : Nat} {before after : List Token}
    {closing : Token} {container : ContainerKind} {natural : Bool}
    (split : tokenize text tabWidth = before ++ closing :: after)
    (ends : closing.kind = .containerEnd container natural) :
    EndTold closing.position.line container natural after := by
  have told := Tokenizer.runFrom_endsTold Tokenizer.State.initial
    (Source.ofText text tabWidth).lines trivial
  change EndsTold (tokenize text tabWidth) [] at told
  rw [split] at told
  simpa using told.told_of_split ends

/-- The second line forces the quote to end, and the list around it gives way. -/
theorem containerEnd_told_replaced :
    let text : Text := ['-', ' ', '>', ' ', 'a', '\n', '1', '.', ' ', 'b']
    let start : Token :=
      ⟨.containerStart (.list (.ordered 1 '.')) (some ⟨1, 4, false⟩), ⟨2, 1⟩, [], ['1', '.', ' ']⟩
    let quoteEnd := endToken (.containerEnd .blockQuote false) ⟨2, 1⟩
    let listEnd := endToken (.containerEnd (.list (.bulleted '-')) true) ⟨2, 1⟩
    tokenize text 4 = (tokenize text 4).take 5 ++ quoteEnd :: listEnd :: start ::
        (tokenize text 4).drop 8 ∧
      EndTold 2 .blockQuote false (listEnd :: start :: (tokenize text 4).drop 8) ∧
      EndTold 2 (.list (.bulleted '-')) true (start :: (tokenize text 4).drop 8) := by
  intro text start quoteEnd listEnd
  have split : tokenize text 4 = (tokenize text 4).take 5 ++ quoteEnd :: listEnd :: start ::
      (tokenize text 4).drop 8 := by
    decide +kernel
  have inner : tokenize text 4 = ((tokenize text 4).take 5 ++ [quoteEnd]) ++ listEnd :: start ::
      (tokenize text 4).drop 8 := by
    simpa using split
  exact ⟨split, containerEnd_told split rfl, containerEnd_told inner rfl⟩

end BlockLint
