import BlockLint.Proofs.Nesting

/-!
How the text of a line is shared out among tokens. The tokens that consume text take the line from
left to right, and the first of them has the lead. Tokens that consume none hold none.

The invariant counts what is written together with what is kept back: it holds the lines read so
far, each cut once and in order.
-/
namespace BlockLint

namespace Cursor

/-- The cursor stands in the text: what is left is the text from its offset on. -/
def In (c : Cursor) (text : Text) : Prop :=
  c.rest = text.drop c.offset

theorem start_in (text : Text) : (start text).In text :=
  rfl

theorem In.skip {c : Cursor} {text : Text} (inside : c.In text) (count : Nat) :
    (c.skip count).In text := by
  simp only [In, Cursor.skip] at inside ⊢
  rw [inside, List.drop_drop]

theorem upTo_skip_append (c : Cursor) (count : Nat) :
    c.upTo (c.skip count) ++ (c.skip count).rest = c.rest := by
  simp [upTo, skip]

end Cursor

/-- A block quote's marker is its sign, with a space if there is one. -/
theorem quoteMarker?_cases {c after : Cursor} (found : quoteMarker? c = some after) :
    (∃ rest, c.rest.drop c.indent = '>' :: ' ' :: rest ∧ after = c.skip (c.indent + 2)) ∨
      ∃ rest, c.rest.drop c.indent = '>' :: rest ∧ after = c.skip (c.indent + 1) := by
  unfold quoteMarker? at found
  split at found
  · contradiction
  · split at found
    · rename_i rest same
      exact .inl ⟨rest, same, (Option.some.inj found).symm⟩
    · rename_i rest _ same
      exact .inr ⟨rest, same, (Option.some.inj found).symm⟩
    · contradiction

theorem quoteMarker?_eq_skip {c after : Cursor} (found : quoteMarker? c = some after) :
    ∃ count, after = c.skip count := by
  rcases quoteMarker?_cases found with ⟨_, _, rfl⟩ | ⟨_, _, rfl⟩
  · exact ⟨_, rfl⟩
  · exact ⟨_, rfl⟩

/-- A line that continues an item gives it some of its spaces. -/
theorem ListItem.continue?_cases {item : ListItem} {c next : Cursor}
    (continues : item.continue? c = some next) :
    ∃ count, count ≤ c.indent ∧ next = c.skip count := by
  unfold ListItem.continue? at continues
  split at continues
  · exact ⟨_, Nat.min_le_left .., (Option.some.inj continues).symm⟩
  · split at continues
    · rename_i deep
      simp only [Bool.and_eq_true, decide_eq_true_eq] at deep
      exact ⟨_, deep.2, (Option.some.inj continues).symm⟩
    · contradiction

theorem Frame.continue?_eq_skip {frame : Frame} {c next : Cursor}
    (continues : frame.continue? c = some next) : ∃ count, next = c.skip count := by
  cases frame with
  | blockQuote => exact quoteMarker?_eq_skip continues
  | list kind item =>
    obtain ⟨count, _, rfl⟩ := ListItem.continue?_cases continues
    exact ⟨count, rfl⟩

namespace Containers

theorem matchFrom_in {c : Cursor} {text : Text} (inside : c.In text) (containers : Containers) :
    (matchFrom c containers).cursor.In text := by
  induction containers generalizing c with
  | nil => exact inside
  | cons frame inner ih =>
    unfold matchFrom
    split
    · exact inside
    · rename_i next continues
      obtain ⟨count, rfl⟩ := Frame.continue?_eq_skip continues
      exact ih (inside.skip count)

theorem lead_append_rest (containers : Containers) (text : Text) :
    (containers.matchLine text).lead text ++ (containers.matchLine text).cursor.rest = text := by
  have inside : (containers.matchLine text).cursor.In text :=
    matchFrom_in (Cursor.start_in text) containers
  rw [Match.lead, inside, List.take_append_drop]

end Containers

namespace Marker

def past : Marker → Cursor
  | .quote _ after => after
  | .item start found => found.past start

def literal (marker : Marker) : Text :=
  marker.start.upTo marker.past

theorem readAll_literals (inParagraph : Bool) (c : Cursor) :
    ((readAll inParagraph c).1.map literal).flatten ++ (readAll inParagraph c).2.rest = c.rest := by
  fun_induction readAll inParagraph c with
  | case1 | case2 | case3 => rfl
  | case4 inParagraph c _ _ _ after found markers last same ih =>
    obtain ⟨count, rfl⟩ := quoteMarker?_eq_skip found
    rw [same] at ih
    simp only [List.map_cons, List.flatten_cons, List.append_assoc, ih]
    exact c.upTo_skip_append count
  | case5 | case6 => rfl
  | case7 inParagraph c _ _ _ _ start _ _ markers last same ih =>
    rw [same] at ih
    simp only [List.map_cons, List.flatten_cons, List.append_assoc, ih]
    exact c.upTo_skip_append _

end Marker

structure Share where
  line : Nat
  lead : Text
  literal : Text
deriving Repr, DecidableEq

namespace Token

/-- All tokens consume text but the ends of containers, and ends of leaves without a literal. -/
def consumes (token : Token) : Bool :=
  match token.kind with
  | .containerEnd _ _ => false
  | .leafEnd _ _ => !token.literal.isEmpty
  | _ => true

def share (token : Token) : Share :=
  ⟨token.position.line, token.lead, token.literal⟩

end Token

/-- The shares of a stream, in order. A token that consumes nothing must hold nothing. -/
inductive SharedOut : List Token → List Share → Prop where
  | nil : SharedOut [] []
  | consumer {token : Token} {rest : List Token} {shares : List Share} :
      token.consumes = true → SharedOut rest shares →
        SharedOut (token :: rest) (token.share :: shares)
  | idle {token : Token} {rest : List Token} {shares : List Share} :
      token.consumes = false → token.sourceText = [] → SharedOut rest shares →
        SharedOut (token :: rest) shares

namespace SharedOut

theorem append {left right : List Token} {first second : List Share}
    (earlier : SharedOut left first) (later : SharedOut right second) :
    SharedOut (left ++ right) (first ++ second) := by
  induction earlier with
  | nil => exact later
  | consumer consumes _ ih => exact .consumer consumes ih
  | idle idle empty _ ih => exact .idle idle empty ih

theorem append_idle {left right : List Token} {shares : List Share}
    (earlier : SharedOut left shares) (later : SharedOut right []) :
    SharedOut (left ++ right) shares := by
  simpa using earlier.append later

theorem of_consumers {tokens : List Token} (all : ∀ token ∈ tokens, token.consumes = true) :
    SharedOut tokens (tokens.map Token.share) := by
  induction tokens with
  | nil => exact .nil
  | cons token rest ih =>
    exact .consumer (all token List.mem_cons_self)
      (ih fun later member => all later (List.mem_cons_of_mem _ member))

theorem endToken (kind : TokenKind) (position : Position)
    (isEnd : (BlockLint.endToken kind position).consumes = false) :
    SharedOut [BlockLint.endToken kind position] [] :=
  .idle isEnd rfl .nil

theorem closeContainers (containers : Containers) (natural : Bool) (position : Position) :
    SharedOut (containers.close natural position) [] := by
  unfold Containers.close
  induction containers.reverse with
  | nil => exact .nil
  | cons frame rest ih => exact .idle rfl rfl ih

end SharedOut

def HeldBlank.content (blank : HeldBlank) : Token :=
  { blank.token with
    kind := .leafContent (blank.rest.drop (min codeIndent (Text.spaces blank.rest))) false }

namespace OpenLeaf

def kept : OpenLeaf → List Token
  | .paragraph opening contents => opening :: contents
  | .indentedCode held => held.map (·.token)
  | .none | .fencedCode _ => []

theorem kept_consumes {leaf : OpenLeaf} (coherent : leaf.Coherent) :
    ∀ token ∈ leaf.kept, token.consumes = true := by
  intro token member
  cases leaf with
  | none => cases member
  | paragraph opening contents =>
    rcases List.mem_cons.mp member with rfl | content
    · simp [Token.consumes, coherent.1]
    · obtain ⟨text, isLazy, kind⟩ := coherent.2 token content
      simp [Token.consumes, kind]
  | indentedCode held =>
    obtain ⟨blank, isHeld, rfl⟩ := List.mem_map.mp member
    simp [Token.consumes, coherent blank isHeld]
  | fencedCode fence => cases member

theorem close_sharedOut {leaf : OpenLeaf} (coherent : leaf.Coherent) (natural : Bool)
    (position : Position) :
    SharedOut (leaf.close natural position) (leaf.kept.map Token.share) := by
  have kept := SharedOut.of_consumers (kept_consumes coherent)
  cases leaf with
  | none => exact .nil
  | paragraph opening contents =>
    exact kept.append_idle (.endToken (.leafEnd .paragraph natural) position rfl)
  | indentedCode held => exact .idle rfl rfl kept
  | fencedCode fence => exact .endToken _ position rfl

end OpenLeaf

/-- A line as tokens cut it: the first has the lead. -/
structure Cut where
  line : Nat
  lead : Text
  first : Text
  others : List Text
deriving Repr, DecidableEq

namespace Cut

def shares (cut : Cut) : List Share :=
  ⟨cut.line, cut.lead, cut.first⟩ :: cut.others.map fun literal => ⟨cut.line, [], literal⟩

def text (cut : Cut) : Text :=
  cut.lead ++ (cut.first ++ cut.others.flatten)

end Cut

namespace Tokenizer

/-- The effect hands out what the leaf had kept back, then the line as it is cut. Part of this may
be kept back again. -/
def Effect.Cuts (effect : Effect) (leaf : OpenLeaf) (cut : Cut) : Prop :=
  ∃ taken, SharedOut effect.written taken ∧
    taken ++ effect.leaf.kept.map Token.share = leaf.kept.map Token.share ++ cut.shares

theorem Effect.Cuts.of_close {effect : Effect} {leaf : OpenLeaf} {cut : Cut}
    {tokens : List Token} {taken : List Share} (coherent : leaf.Coherent) (natural : Bool)
    (position : Position) (written : effect.written = leaf.close natural position ++ tokens)
    (shared : SharedOut tokens taken)
    (same : taken ++ effect.leaf.kept.map Token.share = cut.shares) : effect.Cuts leaf cut :=
  ⟨leaf.kept.map Token.share ++ taken,
    written ▸ (OpenLeaf.close_sharedOut coherent natural position).append shared,
    by rw [List.append_assoc, same]⟩

def Effect.CutsLine (effect : Effect) (leaf : OpenLeaf) (line : Line) (lead rest : Text) : Prop :=
  ∃ cut : Cut, effect.Cuts leaf cut ∧ cut.line = line.number ∧ cut.lead = lead ∧
    cut.first ++ cut.others.flatten = rest

theorem paragraphLine_cuts (line : Line) (lead : Text) (c : Cursor) (containers : Containers)
    (leaf : OpenLeaf) (isLazy : Bool) (coherent : leaf.Coherent) :
    (paragraphLine line lead c containers leaf isLazy).CutsLine leaf line lead
      (literalFrom line c) := by
  cases leaf with
  | paragraph opening contents =>
    refine ⟨⟨line.number, lead, literalFrom line c, []⟩, ⟨[], .nil, ?_⟩, rfl, rfl, by simp⟩
    simp [paragraphLine, OpenLeaf.kept, Cut.shares, Token.share, tokenAt, Line.position]
  | _ =>
    refine ⟨⟨line.number, lead, [], [literalFrom line c]⟩,
      .of_close coherent true (line.position c.offset) (List.append_nil _).symm .nil ?_,
      rfl, rfl, by simp⟩
    simp [paragraphLine, OpenLeaf.kept, Cut.shares, Token.share, tokenAt, Line.position]

/-- Held blank lines become content without a change in what they hold. -/
theorem codeLine_sharedOut (line : Line) (lead : Text) (c : Cursor) (held : List HeldBlank) :
    SharedOut (codeLine line lead c held)
      (held.map (·.token.share) ++ [⟨line.number, lead, literalFrom line c⟩]) := by
  have consumers : ∀ token ∈ codeLine line lead c held, token.consumes = true := by
    intro token member
    rcases List.mem_append.mp member with blank | code
    · obtain ⟨blank, _, rfl⟩ := List.mem_map.mp blank
      rfl
    · cases List.mem_singleton.mp code
      rfl
  have shares : (codeLine line lead c held).map Token.share =
      held.map (·.token.share) ++ [⟨line.number, lead, literalFrom line c⟩] := by
    simp [codeLine, Token.share, tokenAt, Line.position, Function.comp_def]
  exact shares ▸ SharedOut.of_consumers consumers

theorem literalFrom_ne_nil (line : Line) {c : Cursor} (filled : c.rest ≠ []) :
    literalFrom line c ≠ [] := by
  simp [literalFrom, filled]

theorem leafLine_cuts (line : Line) (lead : Text) (c : Cursor) (containers : Containers)
    (leaf : OpenLeaf) (opened : Bool) (coherent : leaf.Coherent)
    (noFence : ∀ fence, leaf ≠ .fencedCode fence) :
    (leafLine line lead c containers leaf opened).CutsLine leaf line lead
      (literalFrom line c) := by
  refine leafLine_cases (motive := fun effect => effect.CutsLine leaf line lead _) line lead c
    containers leaf opened noFence ?held ?blank ?setext ?text ?moreCode ?newCode ?atxHeading
    ?thematicBreak ?fenceOpen
  case held =>
    intro held isCode _
    subst isCode
    refine ⟨⟨line.number, lead, literalFrom line c, []⟩, ⟨[], .nil, ?_⟩, rfl, rfl, by simp⟩
    simp [OpenLeaf.kept, Cut.shares, Token.share, tokenAt, Line.position]
  case blank =>
    intro _ _
    exact ⟨⟨line.number, lead, literalFrom line c, []⟩,
      .of_close coherent true _ rfl (.consumer rfl .nil) rfl, rfl, rfl, by simp⟩
  case setext =>
    intro level opening contents isParagraph underline
    subst isParagraph
    have notBlank : LineClass.of c.rest true ≠ .blank := by simp [underline]
    have filled : literalFrom line c ≠ [] :=
      literalFrom_ne_nil line (LineClass.rest_ne_nil notBlank)
    have kept := SharedOut.of_consumers fun token member =>
      OpenLeaf.kept_consumes coherent token (List.mem_cons_of_mem _ member)
    exact ⟨⟨line.number, lead, literalFrom line c, []⟩,
      ⟨_, .consumer rfl (kept.append (.consumer (by simpa [Token.consumes, tokenAt] using filled)
        .nil)), List.append_nil _⟩, rfl, rfl, by simp⟩
  case text =>
    intro _
    exact paragraphLine_cuts line lead c containers leaf false coherent
  case moreCode =>
    intro held isCode _
    subst isCode
    refine ⟨⟨line.number, lead, literalFrom line c, []⟩,
      ⟨_, codeLine_sharedOut line lead c held, ?_⟩, rfl, rfl, by simp⟩
    simp [OpenLeaf.kept, Cut.shares]
  case newCode =>
    intro isNone _
    subst isNone
    exact ⟨⟨line.number, lead, [], [literalFrom line c]⟩,
      ⟨_, .consumer rfl (codeLine_sharedOut line [] c []), rfl⟩, rfl, rfl, by simp⟩
  case atxHeading =>
    intro heading _
    have cut := c.upTo_skip_append heading.contentStart
    exact ⟨⟨line.number, lead, c.upTo (c.skip heading.contentStart),
        [literalFrom line (c.skip heading.contentStart)]⟩,
      .of_close coherent true _ rfl
        (.consumer rfl (.consumer rfl (.endToken _ line.endPosition rfl))) rfl,
      rfl, rfl, by simp [literalFrom, ← List.append_assoc, cut]⟩
  case thematicBreak =>
    intro _
    exact ⟨⟨line.number, lead, literalFrom line c, []⟩,
      .of_close coherent true _ rfl (.consumer rfl (.endToken _ line.endPosition rfl)) rfl,
      rfl, rfl, by simp⟩
  case fenceOpen =>
    intro fence _
    exact ⟨⟨line.number, lead, literalFrom line c, []⟩,
      .of_close coherent true _ rfl (.consumer rfl .nil) rfl, rfl, rfl, by simp⟩

theorem openContainer_sharedOut (line : Line) (lead : Text) (containers : Containers)
    (marker : Marker) :
    SharedOut [(openContainer line lead containers marker).1]
      [⟨line.number, lead, marker.literal⟩] := by
  cases marker with
  | quote start after => exact .consumer rfl .nil
  | item start item => exact .consumer rfl .nil

theorem openFirst_sharedOut (line : Line) (lead : Text) (containers : Containers)
    (leaf : OpenLeaf) (depth : Nat) (marker : Marker) (coherent : leaf.Coherent) :
    SharedOut (openFirst line lead containers leaf depth marker).1
      (leaf.kept.map Token.share ++ [⟨line.number, lead, marker.literal⟩]) := by
  have closeLeaf := OpenLeaf.close_sharedOut coherent
  have opening := openContainer_sharedOut line lead (containers.take depth) marker
  refine openFirst_cases (motive := fun opened => SharedOut opened.1 _) line lead containers leaf
    depth marker ?all ?sibling ?replaced ?other
  case all =>
    intro _
    exact (closeLeaf true _).append opening
  case sibling =>
    intro start item kind current inner isItem _ _
    subst isItem
    exact ((closeLeaf false _).append_idle (.closeContainers inner false _)).append
      (.consumer rfl .nil)
  case replaced =>
    intro start item kind current inner _ _ _
    exact (((closeLeaf false _).append_idle (.closeContainers inner false _)).append_idle
      (.closeContainers [.list kind current] true _)).append opening
  case other =>
    intro frame inner _ _
    exact ((closeLeaf false _).append_idle (.closeContainers (frame :: inner) false _)).append
      opening

theorem openAll_sharedOut (line : Line) (containers : Containers) (markers : List Marker) :
    SharedOut (openAll line containers markers).1
      (markers.map fun marker => ⟨line.number, [], marker.literal⟩) := by
  induction markers generalizing containers with
  | nil => exact .nil
  | cons marker rest ih =>
    exact (openContainer_sharedOut line [] containers marker).append
      (ih (openContainer line [] containers marker).2)

theorem openedLine_cuts (line : Line) (lead : Text) (containers : Containers) (leaf : OpenLeaf)
    (depth : Nat) (first : Marker) (later : List Marker) (c : Cursor) (coherent : leaf.Coherent) :
    (openedLine line lead containers leaf depth first later c).CutsLine leaf line lead
      (((first :: later).map Marker.literal).flatten ++ literalFrom line c) := by
  have opening := openFirst_sharedOut line lead containers leaf depth first coherent
  have nested := openAll_sharedOut line (openFirst line lead containers leaf depth first).2 later
  obtain ⟨cut, ⟨taken, shared, same⟩, number, noLead, text⟩ := leafLine_cuts line [] c
    (openAll line (openFirst line lead containers leaf depth first).2 later).2 .none true trivial
    (by simp)
  refine ⟨⟨line.number, lead, first.literal,
    later.map Marker.literal ++ cut.first :: cut.others⟩,
    ⟨_, (opening.append nested).append shared, ?_⟩, rfl, rfl, ?_⟩
  · have same : taken ++ (leafLine line [] c (openAll line
        (openFirst line lead containers leaf depth first).2 later).2 .none true).leaf.kept.map
        Token.share = cut.shares := same
    simp only [openedLine, List.append_assoc, same]
    simp [Cut.shares, number, noLead, Function.comp_def]
  · simp [← text]

theorem unmatchedLine_cuts (line : Line) (lead : Text) (c : Cursor) (containers : Containers)
    (leaf : OpenLeaf) (depth : Nat) (coherent : leaf.Coherent) :
    (unmatchedLine line lead c containers leaf depth).CutsLine leaf line lead
      (literalFrom line c) := by
  have closing := SharedOut.closeContainers (containers.drop depth) c.isBlank
    (line.position c.offset)
  obtain ⟨cut, ⟨taken, shared, same⟩, rest⟩ := leafLine_cuts line lead c (containers.take depth)
    .none false trivial (by simp)
  exact ⟨cut, .of_close coherent c.isBlank (line.position c.offset)
    (List.append_assoc ..) (closing.append shared) same, rest⟩

theorem fencedLine_cuts (line : Line) (lead : Text) (c : Cursor) (containers : Containers)
    (fence : Fence) (long : Fence.minLength ≤ fence.length) :
    Effect.CutsLine
      { written := [(fencedLine line lead c fence).1]
        containers
        leaf := (fencedLine line lead c fence).2 }
      (.fencedCode fence) line lead (literalFrom line c) := by
  refine ⟨⟨line.number, lead, literalFrom line c, []⟩, ?_, rfl, rfl, by simp⟩
  unfold fencedLine
  split
  · rename_i closes
    have filled := literalFrom_ne_nil line (Fence.rest_ne_nil_of_closes long closes)
    exact ⟨_, .consumer (by simpa [Token.consumes, tokenAt] using filled) .nil, rfl⟩
  · exact ⟨_, .consumer rfl .nil, rfl⟩

/-- A line is cut once: its lead first, then the rest of it with its ending. -/
theorem lineEffect_cuts (containers : Containers) (leaf : OpenLeaf) (line : Line)
    (coherent : leaf.Coherent) :
    (lineEffect containers leaf line).CutsLine leaf line
      ((containers.matchLine line.expanded).lead line.expanded)
      (literalFrom line (containers.matchLine line.expanded).cursor) := by
  refine lineEffect_cases (motive := fun effect => effect.CutsLine _ _ _ _) containers leaf line
    rfl ?fenced ?opened ?matched ?lazy ?unmatched
  case fenced =>
    intro fence isFence _
    subst isFence
    exact fencedLine_cuts line _ _ containers fence coherent
  case opened =>
    intro first later c markers _
    have cut := openedLine_cuts line ((containers.matchLine line.expanded).lead line.expanded)
      containers leaf (containers.matchLine line.expanded).depth first later c coherent
    have whole := Marker.readAll_literals
      ((containers.matchLine line.expanded).depth == containers.length && leaf.isParagraph)
      (containers.matchLine line.expanded).cursor
    rw [markers] at whole
    rwa [literalFrom, ← List.append_assoc, whole] at cut
  case matched =>
    intro _ noFence _
    exact leafLine_cuts line _ _ containers leaf false coherent noFence
  case lazy =>
    intro _ _ _ _
    exact paragraphLine_cuts line _ _ containers leaf true coherent
  case unmatched =>
    intro _ _ _
    exact unmatchedLine_cuts line _ _ containers leaf _ coherent

def leadsFrom (state : State) : List Line → List (Nat × Text)
  | [] => []
  | line :: rest =>
    (line.number, (state.containers.matchLine line.expanded).lead line.expanded) ::
      leadsFrom (step state line).2 rest

structure IsCut (line : Line) (cut : Cut) : Prop where
  number : cut.line = line.number
  text : cut.text = line.expanded ++ line.ending

/-- A run hands out what is kept back, then each line as it is cut. -/
theorem runFrom_sharedOut (state : State) (lines : List Line) (coherent : state.leaf.Coherent) :
    ∃ cuts : List Cut,
      SharedOut (runFrom state lines)
        (state.leaf.kept.map Token.share ++ cuts.flatMap Cut.shares) ∧
      List.Forall₂ IsCut lines cuts ∧
      cuts.map (fun cut => (cut.line, cut.lead)) = leadsFrom state lines := by
  induction lines generalizing state with
  | nil =>
    refine ⟨[], ?_, .nil, rfl⟩
    simpa [runFrom, finish] using
      (OpenLeaf.close_sharedOut coherent false state.reached).append_idle
        (.closeContainers state.containers false state.reached)
  | cons line rest ih =>
    have next := (lineEffect_nests state.containers state.leaf line coherent).coherent
    obtain ⟨cut, ⟨taken, written, same⟩, number, lead, text⟩ :=
      lineEffect_cuts state.containers state.leaf line coherent
    obtain ⟨cuts, others, areCuts, leads⟩ := ih (step state line).2 next
    refine ⟨cut :: cuts, ?_, .cons ⟨number, ?_⟩ areCuts, ?_⟩
    · have shared := written.append others
      simp only [step, ← List.append_assoc, same] at shared
      simpa [runFrom, step] using shared
    · rw [Cut.text, lead, text, literalFrom, ← List.append_assoc, Containers.lead_append_rest]
    · simp [leadsFrom, number, lead, leads]

end Tokenizer
end BlockLint
