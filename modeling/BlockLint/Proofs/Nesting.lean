import BlockLint.Proofs.Tokenizer.Cases
import Mathlib.Data.List.Induction

/-!
Token streams are well nested. Replaying the stream of any lines never meets a token that does not
fit what is open, and leaves nothing open.

The invariant relates a tokenizer to the replay of what it has written: its containers are the open
ones, and so is its leaf, except that of a paragraph nothing is written before it ends.
-/
namespace BlockLint

/-- What is open at a place in a token stream: the containers, innermost first, and the leaf. -/
structure Nesting where
  containers : List ContainerKind
  leaf : Option LeafKind
deriving Repr, DecidableEq

namespace Nesting

def closed : Nesting :=
  ⟨[], none⟩

/-- What is open after a token, if the token fits what is open before it. -/
def next (nesting : Nesting) (kind : TokenKind) : Option Nesting :=
  match kind, nesting with
  | .containerStart container _, ⟨outer, none⟩ => some ⟨container :: outer, none⟩
  | .newListItem _ _, ⟨.list kind :: outer, none⟩ => some ⟨.list kind :: outer, none⟩
  | .containerEnd container _, ⟨innermost :: outer, none⟩ =>
    if container = innermost then some ⟨outer, none⟩ else none
  | .leafStart leaf, ⟨outer, none⟩ => some ⟨outer, some leaf⟩
  | .leafContent _ _, ⟨outer, some leaf⟩ => some ⟨outer, some leaf⟩
  | .leafEnd leaf _, ⟨outer, some started⟩ =>
    if leaf = started then some ⟨outer, none⟩ else none
  | .blankLine, ⟨outer, none⟩ => some ⟨outer, none⟩
  | _, _ => none

def replay (nesting : Nesting) : List Token → Option Nesting
  | [] => some nesting
  | token :: rest => (nesting.next token.kind).bind fun after => after.replay rest

inductive Step : Nesting → TokenKind → Nesting → Prop where
  | containerStart (container : ContainerKind) (item : Option ItemGeometry)
      (outer : List ContainerKind) :
      Step ⟨outer, none⟩ (.containerStart container item) ⟨container :: outer, none⟩
  | newListItem (item : ItemGeometry) (number : Option Nat) (kind : ListKind)
      (outer : List ContainerKind) :
      Step ⟨.list kind :: outer, none⟩ (.newListItem item number) ⟨.list kind :: outer, none⟩
  | containerEnd (container : ContainerKind) (natural : Bool) (outer : List ContainerKind) :
      Step ⟨container :: outer, none⟩ (.containerEnd container natural) ⟨outer, none⟩
  | leafStart (leaf : LeafKind) (outer : List ContainerKind) :
      Step ⟨outer, none⟩ (.leafStart leaf) ⟨outer, some leaf⟩
  | leafContent (text : Text) (isLazy : Bool) (leaf : LeafKind) (outer : List ContainerKind) :
      Step ⟨outer, some leaf⟩ (.leafContent text isLazy) ⟨outer, some leaf⟩
  | leafEnd (leaf : LeafKind) (natural : Bool) (outer : List ContainerKind) :
      Step ⟨outer, some leaf⟩ (.leafEnd leaf natural) ⟨outer, none⟩
  | blankLine (outer : List ContainerKind) : Step ⟨outer, none⟩ .blankLine ⟨outer, none⟩

theorem step_of_next {nesting after : Nesting} {kind : TokenKind}
    (fits : nesting.next kind = some after) : nesting.Step kind after := by
  unfold next at fits
  split at fits
  · cases fits
    exact .containerStart ..
  · cases fits
    exact .newListItem ..
  · split at fits
    · subst_vars
      cases fits
      exact .containerEnd ..
    · cases fits
  · cases fits
    exact .leafStart ..
  · cases fits
    exact .leafContent ..
  · split at fits
    · subst_vars
      cases fits
      exact .leafEnd ..
    · cases fits
  · cases fits
    exact .blankLine ..
  · cases fits

theorem replay_append {start middle last : Nesting} {left right : List Token}
    (first : start.replay left = some middle) (second : middle.replay right = some last) :
    start.replay (left ++ right) = some last := by
  induction left generalizing start with
  | nil =>
    cases Option.some.inj first
    exact second
  | cons token rest ih =>
    obtain ⟨after, fits, others⟩ := Option.bind_eq_some_iff.mp first
    exact Option.bind_eq_some_iff.mpr ⟨after, fits, ih others⟩

end Nesting

/-- Starts and ends fit, tokens stand where they may, and nothing stays open. -/
def WellNested (tokens : List Token) : Prop :=
  Nesting.closed.replay tokens = some Nesting.closed

instance (tokens : List Token) : Decidable (WellNested tokens) :=
  inferInstanceAs (Decidable (_ = _))

namespace OpenLeaf

/-- The kind of the leaf whose start is written. A paragraph's start is kept back. -/
def started? : OpenLeaf → Option LeafKind
  | .none | .paragraph _ _ => .none
  | .indentedCode _ => some .indentedCode
  | .fencedCode fence => some fence.leafKind

/-- What is kept back is the start and the contents of a paragraph, or blank lines. A fence is as
long as fences are. -/
def Coherent : OpenLeaf → Prop
  | .paragraph opening contents =>
    opening.kind = .leafStart .paragraph ∧
      ∀ token ∈ contents, ∃ text isLazy, token.kind = .leafContent text isLazy
  | .indentedCode held => ∀ blank ∈ held, blank.token.kind = .blankLine
  | .fencedCode fence => Fence.minLength ≤ fence.length
  | .none => True

end OpenLeaf

def Containers.kinds (containers : Containers) : List ContainerKind :=
  (containers.map Frame.kind).reverse

namespace Nesting

theorem replay_contents (outer : List ContainerKind) (leaf : LeafKind) (contents : List Token)
    (isContent : ∀ token ∈ contents, ∃ text isLazy, token.kind = .leafContent text isLazy) :
    replay ⟨outer, some leaf⟩ contents = some ⟨outer, some leaf⟩ := by
  induction contents with
  | nil => rfl
  | cons token rest ih =>
    obtain ⟨text, isLazy, kind⟩ := isContent token (List.mem_cons_self)
    simp only [replay, kind, next, Option.bind_some]
    exact ih fun later member => isContent later (List.mem_cons_of_mem _ member)

theorem replay_blanks (outer : List ContainerKind) (blanks : List Token)
    (isBlank : ∀ token ∈ blanks, token.kind = .blankLine) :
    replay ⟨outer, none⟩ blanks = some ⟨outer, none⟩ := by
  induction blanks with
  | nil => rfl
  | cons token rest ih =>
    simp only [replay, isBlank token (List.mem_cons_self), next, Option.bind_some]
    exact ih fun later member => isBlank later (List.mem_cons_of_mem _ member)

/-- Also a paragraph that a setext underline has turned into a heading. -/
theorem replay_paragraph (outer : List ContainerKind) (kind : LeafKind) (opening last : Token)
    (contents : List Token) (natural : Bool) (starts : opening.kind = .leafStart kind)
    (isContent : ∀ token ∈ contents, ∃ text isLazy, token.kind = .leafContent text isLazy)
    (ends : last.kind = .leafEnd kind natural) :
    replay ⟨outer, none⟩ (opening :: contents ++ [last]) = some ⟨outer, none⟩ := by
  have start : replay ⟨outer, none⟩ [opening] = some ⟨outer, some kind⟩ := by
    simp [replay, starts, next]
  have stop : replay ⟨outer, some kind⟩ [last] = some ⟨outer, none⟩ := by
    simp [replay, ends, next]
  exact replay_append (replay_append start (replay_contents outer kind contents isContent)) stop

theorem replay_closeLeaf {leaf : OpenLeaf} (coherent : leaf.Coherent)
    (outer : List ContainerKind) (natural : Bool) (position : Position) :
    replay ⟨outer, leaf.started?⟩ (leaf.close natural position) = some ⟨outer, none⟩ := by
  cases leaf with
  | none => rfl
  | paragraph opening contents =>
    exact replay_paragraph outer .paragraph opening _ contents natural coherent.1 coherent.2 rfl
  | indentedCode held =>
    have blanks := replay_blanks outer (held.map (·.token)) (by
      intro token member
      obtain ⟨blank, isHeld, rfl⟩ := List.mem_map.mp member
      exact coherent blank isHeld)
    simpa [OpenLeaf.close, OpenLeaf.started?, replay, endToken, next] using blanks
  | fencedCode fence => simp [OpenLeaf.close, OpenLeaf.started?, replay, endToken, next]

theorem replay_closeContainers (outer inner : Containers) (natural : Bool) (position : Position) :
    replay ⟨(outer ++ inner).kinds, none⟩ (inner.close natural position) =
      some ⟨outer.kinds, none⟩ := by
  -- From the innermost outwards, which is how they are closed.
  induction inner using List.reverseRecOn with
  | nil => simp [Containers.close, replay]
  | append_singleton inner last ih =>
    simpa [Containers.close, Containers.kinds, replay, endToken, next] using ih

end Nesting

namespace Containers

@[simp] theorem kinds_append (outer inner : Containers) :
    kinds (outer ++ inner) = kinds inner ++ kinds outer := by
  simp [kinds]

@[simp] theorem kinds_singleton (frame : Frame) : kinds [frame] = [frame.kind] := rfl

theorem kinds_mapItem (f : ListItem → ListItem) (containers : Containers) :
    kinds (containers.map (Frame.mapItem f)) = kinds containers := by
  have same : Frame.kind ∘ Frame.mapItem f = Frame.kind := by
    funext frame
    cases frame <;> rfl
  simp only [kinds, List.map_map, same]

@[simp] theorem kinds_markContent (containers : Containers) :
    containers.markContent.kinds = containers.kinds :=
  kinds_mapItem _ containers

@[simp] theorem kinds_closeEmptyItems (containers : Containers) :
    containers.closeEmptyItems.kinds = containers.kinds :=
  kinds_mapItem _ containers

end Containers

namespace Tokenizer

structure Effect.NestsFrom (effect : Effect) (start : Nesting) : Prop where
  replays : start.replay effect.written = some ⟨effect.containers.kinds, effect.leaf.started?⟩
  coherent : effect.leaf.Coherent

theorem paragraphLine_nests (line : Line) (lead : Text) (c : Cursor) (containers : Containers)
    (leaf : OpenLeaf) (isLazy : Bool) (coherent : leaf.Coherent) :
    (paragraphLine line lead c containers leaf isLazy).NestsFrom
      ⟨containers.kinds, leaf.started?⟩ := by
  have closing := Nesting.replay_closeLeaf coherent containers.kinds true (line.position c.offset)
  have started : (OpenLeaf.paragraph
      (tokenAt line (c.offset + c.indent) (.leafStart .paragraph) lead [])
      [tokenAt line (c.offset + c.indent) (.leafContent (paragraphText c.rest) isLazy) []
        (literalFrom line c)]).Coherent := by
    refine ⟨rfl, ?_⟩
    intro token member
    cases List.mem_singleton.mp member
    exact ⟨_, _, rfl⟩
  cases leaf with
  | paragraph opening contents =>
    refine ⟨by simp [paragraphLine, Nesting.replay, OpenLeaf.started?], coherent.1, ?_⟩
    intro token member
    rcases List.mem_append.mp member with earlier | new
    · exact coherent.2 token earlier
    · cases List.mem_singleton.mp new
      exact ⟨_, _, rfl⟩
  | none => exact ⟨by simpa [paragraphLine, OpenLeaf.started?] using closing, started⟩
  | indentedCode held => exact ⟨by simpa [paragraphLine, OpenLeaf.started?] using closing, started⟩
  | fencedCode fence => exact ⟨by simpa [paragraphLine, OpenLeaf.started?] using closing, started⟩

theorem replay_codeLine (outer : List ContainerKind) (line : Line) (lead : Text) (c : Cursor)
    (held : List HeldBlank) :
    Nesting.replay ⟨outer, some .indentedCode⟩ (codeLine line lead c held) =
      some ⟨outer, some .indentedCode⟩ := by
  apply Nesting.replay_contents
  intro token member
  rcases List.mem_append.mp member with blank | code
  · obtain ⟨blank, _, rfl⟩ := List.mem_map.mp blank
    exact ⟨_, _, rfl⟩
  · cases List.mem_singleton.mp code
    exact ⟨_, _, rfl⟩

theorem leafLine_nests (line : Line) (lead : Text) (c : Cursor) (containers : Containers)
    (leaf : OpenLeaf) (opened : Bool) (coherent : leaf.Coherent)
    (noFence : ∀ fence, leaf ≠ .fencedCode fence) :
    (leafLine line lead c containers leaf opened).NestsFrom ⟨containers.kinds, leaf.started?⟩ := by
  have closing := Nesting.replay_closeLeaf coherent containers.kinds true (line.position c.offset)
  have kept : (if opened then containers else containers.closeEmptyItems).kinds =
      containers.kinds := by
    split <;> simp
  refine leafLine_cases (motive := fun effect => effect.NestsFrom _) line lead c containers leaf
    opened noFence ?held ?blank ?setext ?text ?moreCode ?newCode ?atxHeading ?thematicBreak
    ?fenceOpen
  case held =>
    intro held isCode _
    subst isCode
    refine ⟨by simp [Nesting.replay, OpenLeaf.started?, kept], ?_⟩
    intro blank member
    rcases List.mem_append.mp member with earlier | new
    · exact coherent blank earlier
    · cases List.mem_singleton.mp new
      rfl
  case blank =>
    intro _ _
    exact ⟨Nesting.replay_append closing
      (by simp [Nesting.replay, Nesting.next, tokenAt, OpenLeaf.started?, kept]), trivial⟩
  case setext =>
    intro level opening contents isParagraph _
    subst isParagraph
    exact ⟨Nesting.replay_paragraph _ (.setextHeading level) _ _ contents true rfl coherent.2 rfl,
      trivial⟩
  case text =>
    intro _
    exact paragraphLine_nests line lead c containers leaf false coherent
  case moreCode =>
    intro held isCode _
    subst isCode
    exact ⟨by simpa [OpenLeaf.started?] using replay_codeLine containers.kinds line lead c held,
      by simp [OpenLeaf.Coherent]⟩
  case newCode =>
    intro isNone _
    subst isNone
    exact ⟨by simpa [Nesting.replay, Nesting.next, tokenAt, OpenLeaf.started?] using
      replay_codeLine containers.kinds line [] c [], by simp [OpenLeaf.Coherent]⟩
  case atxHeading =>
    intro heading _
    exact ⟨Nesting.replay_append closing
      (by simp [Nesting.replay, Nesting.next, tokenAt, endToken, OpenLeaf.started?]), trivial⟩
  case thematicBreak =>
    intro _
    exact ⟨Nesting.replay_append closing
      (by simp [Nesting.replay, Nesting.next, tokenAt, endToken, OpenLeaf.started?]), trivial⟩
  case fenceOpen =>
    intro fence found
    exact ⟨Nesting.replay_append closing
      (by simp [Nesting.replay, Nesting.next, tokenAt, OpenLeaf.started?]),
      Fence.minLength_le_of_open? (LineClass.of_fenceOpen found)⟩

theorem replay_openContainer (line : Line) (lead : Text) (containers : Containers)
    (marker : Marker) :
    Nesting.replay ⟨containers.kinds, none⟩ [(openContainer line lead containers marker).1] =
      some ⟨(openContainer line lead containers marker).2.kinds, none⟩ := by
  cases marker <;> simp [openContainer, Nesting.replay, Nesting.next, tokenAt, Frame.kind]

theorem replay_openAll (line : Line) (containers : Containers) (markers : List Marker) :
    Nesting.replay ⟨containers.kinds, none⟩ (openAll line containers markers).1 =
      some ⟨(openAll line containers markers).2.kinds, none⟩ := by
  induction markers generalizing containers with
  | nil => rfl
  | cons marker rest ih =>
    exact Nesting.replay_append (replay_openContainer line [] containers marker)
      (ih (openContainer line [] containers marker).2)

theorem replay_openFirst (line : Line) (lead : Text) (containers : Containers) (leaf : OpenLeaf)
    (depth : Nat) (marker : Marker) (coherent : leaf.Coherent) :
    Nesting.replay ⟨containers.kinds, leaf.started?⟩
        (openFirst line lead containers leaf depth marker).1 =
      some ⟨(openFirst line lead containers leaf depth marker).2.kinds, none⟩ := by
  have closeLeaf := Nesting.replay_closeLeaf coherent containers.kinds
  have opening := replay_openContainer line lead (containers.take depth) marker
  have split := List.take_append_drop depth containers
  have closeInner (kind : ListKind) (current : ListItem) (inner : Containers)
      (same : containers.drop depth = .list kind current :: inner) (position : Position) :
      Nesting.replay ⟨containers.kinds, none⟩ (inner.close false position) =
        some ⟨Containers.kinds (containers.take depth ++ [.list kind current]), none⟩ := by
    have closing := Nesting.replay_closeContainers
      (containers.take depth ++ [.list kind current]) inner false position
    rwa [List.append_assoc, List.singleton_append, ← same, split] at closing
  refine openFirst_cases
    (motive := fun opened => Nesting.replay _ opened.1 = some ⟨opened.2.kinds, none⟩)
    line lead containers leaf depth marker ?all ?sibling ?replaced ?other
  case all =>
    intro none
    have whole : containers.take depth = containers := by simpa [none] using split
    exact Nesting.replay_append (closeLeaf true _) (by rwa [whole] at opening ⊢)
  case sibling =>
    intro start item kind current inner _ same _
    refine Nesting.replay_append (Nesting.replay_append (closeLeaf false _)
      (closeInner kind current inner same _)) ?_
    simp [Nesting.replay, Nesting.next, tokenAt, Frame.kind]
  case replaced =>
    intro start item kind current inner _ same _
    have closeList := Nesting.replay_closeContainers (containers.take depth) [.list kind current]
      true (line.position start.offset)
    exact Nesting.replay_append (Nesting.replay_append (Nesting.replay_append (closeLeaf false _)
      (closeInner kind current inner same _)) closeList) opening
  case other =>
    intro frame inner same _
    have closeAll := Nesting.replay_closeContainers (containers.take depth) (frame :: inner)
      false (line.position marker.start.offset)
    rw [← same, split, same] at closeAll
    exact Nesting.replay_append (Nesting.replay_append (closeLeaf false _) closeAll) opening

theorem openedLine_nests (line : Line) (lead : Text) (containers : Containers) (leaf : OpenLeaf)
    (depth : Nat) (first : Marker) (later : List Marker) (c : Cursor) (coherent : leaf.Coherent) :
    (openedLine line lead containers leaf depth first later c).NestsFrom
      ⟨containers.kinds, leaf.started?⟩ := by
  have closing := replay_openFirst line lead containers leaf depth first coherent
  have opening := replay_openAll line
    (openFirst line lead containers leaf depth first).2 later
  have last := leafLine_nests line [] c
    (openAll line (openFirst line lead containers leaf depth first).2 later).2 .none true trivial
    (by simp)
  exact ⟨Nesting.replay_append (Nesting.replay_append closing opening) last.replays, last.coherent⟩

theorem unmatchedLine_nests (line : Line) (lead : Text) (c : Cursor) (containers : Containers)
    (leaf : OpenLeaf) (depth : Nat) (coherent : leaf.Coherent) :
    (unmatchedLine line lead c containers leaf depth).NestsFrom
      ⟨containers.kinds, leaf.started?⟩ := by
  have closeLeaf := Nesting.replay_closeLeaf coherent containers.kinds c.isBlank
    (line.position c.offset)
  have closeInner := Nesting.replay_closeContainers (containers.take depth)
    (containers.drop depth) c.isBlank (line.position c.offset)
  rw [List.take_append_drop] at closeInner
  have last := leafLine_nests line lead c (containers.take depth) .none false trivial (by simp)
  exact ⟨Nesting.replay_append (Nesting.replay_append closeLeaf closeInner) last.replays,
    last.coherent⟩

/-- What a line writes fits what is open, and tells what it leaves open. -/
theorem lineEffect_nests (containers : Containers) (leaf : OpenLeaf) (line : Line)
    (coherent : leaf.Coherent) :
    (lineEffect containers leaf line).NestsFrom ⟨containers.kinds, leaf.started?⟩ := by
  refine lineEffect_cases (motive := fun effect => effect.NestsFrom _) containers leaf line rfl
    ?fenced ?opened ?matched ?lazy ?unmatched
  case fenced =>
    intro fence isFence _
    subst isFence
    unfold fencedLine
    split
    · exact ⟨by simp [Nesting.replay, Nesting.next, tokenAt, OpenLeaf.started?], trivial⟩
    · exact ⟨by simp [Nesting.replay, Nesting.next, tokenAt, OpenLeaf.started?], coherent⟩
  case opened =>
    intro first later c _ _
    exact openedLine_nests line _ containers leaf _ first later c coherent
  case matched =>
    intro _ noFence _
    exact leafLine_nests line _ _ containers leaf false coherent noFence
  case lazy =>
    intro _ _ _ _
    exact paragraphLine_nests line _ _ containers leaf true coherent
  case unmatched =>
    intro _ _ _
    exact unmatchedLine_nests line _ _ containers leaf _ coherent

theorem replay_finish (state : State) (coherent : state.leaf.Coherent) :
    Nesting.replay ⟨state.containers.kinds, state.leaf.started?⟩ (finish state) =
      some Nesting.closed := by
  have closeLeaf := Nesting.replay_closeLeaf coherent state.containers.kinds false state.reached
  have closeAll := Nesting.replay_closeContainers [] state.containers false state.reached
  exact Nesting.replay_append closeLeaf closeAll

/-- The tokens that follow a state close what it holds open. -/
theorem replay_runFrom (state : State) (lines : List Line) (coherent : state.leaf.Coherent) :
    Nesting.replay ⟨state.containers.kinds, state.leaf.started?⟩ (runFrom state lines) =
      some Nesting.closed := by
  induction lines generalizing state with
  | nil => exact replay_finish state coherent
  | cons line rest ih =>
    have step := lineEffect_nests state.containers state.leaf line coherent
    exact Nesting.replay_append step.replays (ih (Tokenizer.step state line).2 step.coherent)

/-- The stream of any lines is well nested, whatever the lines hold and however they are
numbered. -/
theorem run_wellNested (lines : List Line) : WellNested (run lines) :=
  replay_runFrom State.initial lines trivial

end Tokenizer
end BlockLint
