import BlockLint.Proofs.Cursors

/-!
Two runs on lines that expand to the same texts. Structure is read off expanded text only, so both
runs go the same way. Their tokens differ at most in where they stand and in the endings that they
take along.

How places and endings of one run answer to those of the other is left open. Any relation will do
that holds between the lines of the two runs wherever a token can stand in them.
-/
namespace BlockLint

/-- Relates place and literal of a token to those of another token. Places answer to each other
whatever the literals. -/
structure Likeness where
  rel : Position → Text → Position → Text → Prop
  bare : ∀ {position position' : Position} {literal literal' : Text},
    rel position literal position' literal' → rel position [] position' []

/-- A token stands where a cursor can get to. It takes a piece of the line, or all from some place
on and the ending. -/
structure Line.Alike (like : Likeness) (line line' : Line) : Prop where
  expanded : line'.expanded = line.expanded
  piece : ∀ {c : Cursor} {literal : Text}, (Cursor.start line.expanded).Reaches c →
    literal <:+: line.expanded →
      like.rel (line.position c.offset) literal (line'.position c.offset) literal
  rest : ∀ {c : Cursor} {body : Text}, (Cursor.start line.expanded).Reaches c →
    body <:+ line.expanded →
      like.rel (line.position c.offset) (body ++ line.ending)
        (line'.position c.offset) (body ++ line'.ending)
  last : like.rel line.endPosition [] line'.endPosition []

structure Token.Alike (like : Likeness) (token token' : Token) : Prop where
  kind : token'.kind = token.kind
  lead : token'.lead = token.lead
  share : like.rel token.position token.literal token'.position token'.literal

inductive OpenLeaf.Alike (like : Likeness) : OpenLeaf → OpenLeaf → Prop where
  | none : Alike like .none .none
  | paragraph {opening opening' : Token} {contents contents' : List Token} :
      Token.Alike like opening opening' → List.Forall₂ (Token.Alike like) contents contents' →
        Alike like (.paragraph opening contents) (.paragraph opening' contents')
  | indentedCode {held held' : List HeldBlank} :
      List.Forall₂ (fun blank blank' =>
        Token.Alike like blank.token blank'.token ∧ blank'.rest = blank.rest) held held' →
        Alike like (.indentedCode held) (.indentedCode held')
  | fencedCode (fence : Fence) : Alike like (.fencedCode fence) (.fencedCode fence)

theorem Cursor.Reaches.rest_suffix {text : Text} {c : Cursor} (reaches : (start text).Reaches c) :
    c.rest <:+ text := by
  obtain ⟨passed, _, whole, _⟩ := reaches
  exact ⟨passed, whole.symm⟩

theorem Cursor.Reaches.upTo_infix {text : Text} {c : Cursor} (reaches : (start text).Reaches c)
    (later : Cursor) : c.upTo later <:+: text :=
  (List.take_prefix _ _).isInfix.trans reaches.rest_suffix.isInfix

section Closing

variable {like : Likeness} {leaf leaf' : OpenLeaf} {position position' : Position}

theorem endToken_alike (kind : TokenKind) (place : like.rel position [] position' []) :
    Token.Alike like (endToken kind position) (endToken kind position') :=
  ⟨rfl, rfl, place⟩

theorem OpenLeaf.isParagraph_alike (leaves : OpenLeaf.Alike like leaf leaf') :
    leaf'.isParagraph = leaf.isParagraph := by
  cases leaves <;> rfl

theorem OpenLeaf.close_alike (leaves : OpenLeaf.Alike like leaf leaf') (natural : Bool)
    (place : like.rel position [] position' []) :
    List.Forall₂ (Token.Alike like) (leaf.close natural position)
      (leaf'.close natural position') := by
  cases leaves with
  | none => exact .nil
  | paragraph opening contents =>
    exact .cons opening (List.rel_append contents (.cons (endToken_alike _ place) .nil))
  | @indentedCode held held' blanks =>
    have tokens : List.Forall₂ (Token.Alike like) (held.map (·.token)) (held'.map (·.token)) := by
      induction blanks with
      | nil => exact .nil
      | cons blank _ ih => exact .cons blank.1 ih
    refine .cons (endToken_alike _ ?_) tokens
    cases blanks with
    | nil => exact place
    | cons blank _ => exact like.bare blank.1.share
  | fencedCode fence => exact .cons (endToken_alike _ place) .nil

theorem Containers.close_alike (containers : Containers) (natural : Bool)
    (place : like.rel position [] position' []) :
    List.Forall₂ (Token.Alike like) (containers.close natural position)
      (containers.close natural position') := by
  unfold Containers.close
  induction containers.reverse with
  | nil => exact .nil
  | cons frame rest ih => exact .cons (endToken_alike _ place) ih

end Closing

namespace Tokenizer

structure Effect.Alike (like : Likeness) (effect effect' : Effect) : Prop where
  written : List.Forall₂ (Token.Alike like) effect.written effect'.written
  containers : effect'.containers = effect.containers
  leaf : OpenLeaf.Alike like effect.leaf effect'.leaf

section Line

variable {like : Likeness} {line line' : Line} {leaf leaf' : OpenLeaf} {c : Cursor}

theorem place_alike (alike : line.Alike like line')
    (reaches : (Cursor.start line.expanded).Reaches c) :
    like.rel (line.position c.offset) [] (line'.position c.offset) [] :=
  alike.piece reaches List.nil_infix

theorem pieceAt_alike (alike : line.Alike like line')
    (reaches : (Cursor.start line.expanded).Reaches c) {count : Nat} (few : count ≤ c.indent)
    (kind : TokenKind) (lead : Text) {literal : Text} (within : literal <:+: line.expanded) :
    Token.Alike like (tokenAt line (c.offset + count) kind lead literal)
      (tokenAt line' (c.offset + count) kind lead literal) :=
  ⟨rfl, rfl, alike.piece (reaches.trans (Cursor.reaches_skip_spaces few)) within⟩

theorem restAt_alike (alike : line.Alike like line')
    (reaches : (Cursor.start line.expanded).Reaches c) {count : Nat} (few : count ≤ c.indent)
    (kind : TokenKind) (lead : Text) :
    Token.Alike like (tokenAt line (c.offset + count) kind lead (literalFrom line c))
      (tokenAt line' (c.offset + count) kind lead (literalFrom line' c)) :=
  ⟨rfl, rfl, alike.rest (reaches.trans (Cursor.reaches_skip_spaces few)) reaches.rest_suffix⟩

theorem paragraphLine_alike (alike : line.Alike like line')
    (reaches : (Cursor.start line.expanded).Reaches c) (lead : Text) (containers : Containers)
    (isLazy : Bool) (leaves : OpenLeaf.Alike like leaf leaf') :
    (paragraphLine line lead c containers leaf isLazy).Alike like
      (paragraphLine line' lead c containers leaf' isLazy) := by
  have closing := OpenLeaf.close_alike leaves true (place_alike alike reaches)
  have content (lead : Text) := restAt_alike alike reaches (Nat.le_refl _)
    (.leafContent (paragraphText c.rest) isLazy) lead
  have started := OpenLeaf.Alike.paragraph
    (pieceAt_alike alike reaches (Nat.le_refl _) (.leafStart .paragraph) lead List.nil_infix)
    (.cons (content []) .nil)
  cases leaves with
  | paragraph opening contents =>
    exact ⟨.nil, rfl, .paragraph opening (List.rel_append contents (.cons (content lead) .nil))⟩
  | none => exact ⟨closing, rfl, started⟩
  | indentedCode held => exact ⟨closing, rfl, started⟩
  | fencedCode fence => exact ⟨closing, rfl, started⟩

theorem codeLine_alike (alike : line.Alike like line')
    (reaches : (Cursor.start line.expanded).Reaches c) (lead : Text)
    (isCode : codeIndent ≤ c.indent) {held held' : List HeldBlank}
    (blanks : List.Forall₂ (fun blank blank' =>
      Token.Alike like blank.token blank'.token ∧ blank'.rest = blank.rest) held held') :
    List.Forall₂ (Token.Alike like) (codeLine line lead c held) (codeLine line' lead c held') := by
  refine List.rel_append ?_ (.cons (restAt_alike alike reaches isCode _ lead) .nil)
  induction blanks with
  | nil => exact .nil
  | cons blank _ ih =>
    obtain ⟨same, rest⟩ := blank
    exact .cons ⟨by simp [rest], same.lead, same.share⟩ ih

theorem leafLine_alike (alike : line.Alike like line')
    (reaches : (Cursor.start line.expanded).Reaches c) (lead : Text) (containers : Containers)
    (opened : Bool) (leaves : OpenLeaf.Alike like leaf leaf') :
    (leafLine line lead c containers leaf opened).Alike like
      (leafLine line' lead c containers leaf' opened) := by
  have closing := OpenLeaf.close_alike leaves true (place_alike alike reaches)
  have rest {count : Nat} (few : count ≤ c.indent) (kind : TokenKind) :=
    restAt_alike alike reaches few kind lead
  have ends (kind : TokenKind) := endToken_alike kind alike.last
  have blank := rest (Nat.zero_le _) .blankLine
  unfold leafLine
  rw [OpenLeaf.isParagraph_alike leaves]
  cases found : LineClass.of c.rest leaf.isParagraph with
  | blank =>
    cases leaves with
    | none => exact ⟨.cons blank .nil, rfl, .none⟩
    | paragraph opening contents =>
      exact ⟨List.rel_append closing (.cons blank .nil), rfl, .none⟩
    | indentedCode blanks =>
      exact ⟨.nil, rfl, .indentedCode (List.rel_append blanks (.cons ⟨blank, rfl⟩ .nil))⟩
    | fencedCode fence => exact ⟨.cons blank .nil, rfl, .fencedCode fence⟩
  | setextUnderline level =>
    have underline := rest (Nat.le_refl _) (.leafEnd (.setextHeading level) true)
    cases leaves with
    | paragraph opening contents =>
      exact ⟨.cons ⟨rfl, opening.lead, opening.share⟩
        (List.rel_append contents (.cons underline .nil)), rfl, .none⟩
    | none => exact ⟨.nil, rfl, .none⟩
    | indentedCode blanks => exact ⟨.nil, rfl, .indentedCode blanks⟩
    | fencedCode fence => exact ⟨.nil, rfl, .fencedCode fence⟩
  | indented =>
    have isCode : codeIndent ≤ c.indent := LineClass.codeIndent_le found
    have start := pieceAt_alike alike reaches isCode (.leafStart .indentedCode) lead List.nil_infix
    have code := codeLine_alike alike reaches [] isCode .nil
    cases leaves with
    | paragraph opening contents =>
      exact paragraphLine_alike alike reaches lead containers false (.paragraph opening contents)
    | indentedCode blanks =>
      exact ⟨codeLine_alike alike reaches lead isCode blanks, rfl, .indentedCode .nil⟩
    | none => exact ⟨.cons start code, rfl, .indentedCode .nil⟩
    | fencedCode fence =>
      exact ⟨List.rel_append closing (.cons start code), rfl, .indentedCode .nil⟩
  | atxHeading heading =>
    obtain ⟨_, ahead, _⟩ := AtxHeading.parse?_reaches (LineClass.of_atxHeading found)
    have start := pieceAt_alike alike reaches (Nat.le_refl _)
      (.leafStart (.atxHeading heading.level)) lead
      (reaches.upTo_infix (c.skip heading.contentStart))
    have content := restAt_alike alike (reaches.trans ahead) (Nat.zero_le _)
      (.leafContent heading.text false) []
    exact ⟨List.rel_append closing (.cons start (.cons content (.cons (ends _) .nil))), rfl, .none⟩
  | thematicBreak =>
    have start := rest (Nat.le_refl _) (.leafStart .thematicBreak)
    exact ⟨List.rel_append closing (.cons start (.cons (ends _) .nil)), rfl, .none⟩
  | fenceOpen fence =>
    have indent := Fence.indent_of_open? (LineClass.of_fenceOpen found)
    have start := rest (Nat.le_of_eq indent) (.leafStart fence.leafKind)
    exact ⟨List.rel_append closing (.cons start .nil), rfl, .fencedCode fence⟩
  | text => exact paragraphLine_alike alike reaches lead containers false leaves

theorem fencedLine_alike (alike : line.Alike like line')
    (reaches : (Cursor.start line.expanded).Reaches c) (lead : Text) (fence : Fence) :
    Token.Alike like (fencedLine line lead c fence).1 (fencedLine line' lead c fence).1 ∧
      OpenLeaf.Alike like (fencedLine line lead c fence).2 (fencedLine line' lead c fence).2 := by
  unfold fencedLine
  split
  · exact ⟨restAt_alike alike reaches (Nat.le_refl _) _ lead, .none⟩
  · exact ⟨restAt_alike alike reaches (Nat.min_le_left _ _) _ lead, .fencedCode fence⟩

theorem markerAt_alike (alike : line.Alike like line')
    (reaches : (Cursor.start line.expanded).Reaches c) {marker : Marker} (read : marker.ReadAt c)
    (kind : TokenKind) (lead : Text) :
    Token.Alike like (tokenAt line marker.place kind lead marker.literal)
      (tokenAt line' marker.place kind lead marker.literal) := by
  rw [read.place]
  refine pieceAt_alike alike reaches (Nat.le_refl _) kind lead ?_
  rw [Marker.literal, read.start]
  exact reaches.upTo_infix marker.past

theorem openContainer_alike (alike : line.Alike like line')
    (reaches : (Cursor.start line.expanded).Reaches c) {marker : Marker} (read : marker.ReadAt c)
    (lead : Text) (containers : Containers) :
    Token.Alike like (openContainer line lead containers marker).1
        (openContainer line' lead containers marker).1 ∧
      (openContainer line' lead containers marker).2 =
        (openContainer line lead containers marker).2 := by
  cases marker with
  | quote start after => exact ⟨markerAt_alike alike reaches read _ lead, rfl⟩
  | item start item => exact ⟨markerAt_alike alike reaches read _ lead, rfl⟩

theorem openAll_alike (alike : line.Alike like line') {last : Cursor} {markers : List Marker}
    (run : Marker.Run c markers last) (reaches : (Cursor.start line.expanded).Reaches c)
    (containers : Containers) :
    List.Forall₂ (Token.Alike like) (openAll line containers markers).1
        (openAll line' containers markers).1 ∧
      (openAll line' containers markers).2 = (openAll line containers markers).2 := by
  induction run generalizing containers with
  | nil c => exact ⟨.nil, rfl⟩
  | cons read _ ih =>
    obtain ⟨token, opened⟩ := openContainer_alike alike reaches read [] containers
    obtain ⟨tokens, last⟩ := ih (reaches.trans read.reaches) (openContainer line [] containers _).2
    simp only [openAll, opened]
    exact ⟨.cons token tokens, last⟩

theorem openFirst_alike (alike : line.Alike like line')
    (reaches : (Cursor.start line.expanded).Reaches c) {marker : Marker} (read : marker.ReadAt c)
    (lead : Text) (containers : Containers) (depth : Nat)
    (leaves : OpenLeaf.Alike like leaf leaf') :
    List.Forall₂ (Token.Alike like) (openFirst line lead containers leaf depth marker).1
        (openFirst line' lead containers leaf' depth marker).1 ∧
      (openFirst line' lead containers leaf' depth marker).2 =
        (openFirst line lead containers leaf depth marker).2 := by
  have place := place_alike alike reaches
  rw [← read.start] at place
  have closeLeaf (natural : Bool) := OpenLeaf.close_alike leaves natural place
  have closeInner (inner : Containers) (natural : Bool) := inner.close_alike natural place
  obtain ⟨token, opened⟩ := openContainer_alike alike reaches read lead (containers.take depth)
  unfold openFirst
  cases containers.drop depth with
  | nil => exact ⟨List.rel_append (closeLeaf true) (.cons token .nil), opened⟩
  | cons frame inner =>
    have replacing := List.rel_append
      (List.rel_append (closeLeaf false) (closeInner (frame :: inner) false)) (.cons token .nil)
    cases frame with
    | blockQuote => cases marker <;> exact ⟨replacing, opened⟩
    | list kind current =>
      cases marker with
      | quote start after => exact ⟨replacing, opened⟩
      | item start item =>
        have closing := List.rel_append (closeLeaf false) (closeInner inner false)
        by_cases same : kind.sameType item.kind = true
        · simp only [same, if_true, and_true]
          exact List.rel_append closing (.cons (markerAt_alike alike reaches read _ lead) .nil)
        · simp only [same]
          exact ⟨List.rel_append (List.rel_append closing (closeInner [.list kind current] true))
            (.cons token .nil), opened⟩

theorem openedLine_alike (alike : line.Alike like line')
    (reaches : (Cursor.start line.expanded).Reaches c) {last : Cursor} {first : Marker}
    {later : List Marker} (run : Marker.Run c (first :: later) last) (lead : Text)
    (containers : Containers) (depth : Nat) (leaves : OpenLeaf.Alike like leaf leaf') :
    (openedLine line lead containers leaf depth first later last).Alike like
      (openedLine line' lead containers leaf' depth first later last) := by
  have atLast := reaches.trans run.reaches
  cases run with
  | cons read rest =>
    obtain ⟨closing, opened⟩ := openFirst_alike alike reaches read lead containers depth leaves
    obtain ⟨opening, nested⟩ := openAll_alike alike rest (reaches.trans read.reaches)
      (openFirst line lead containers leaf depth first).2
    have leafs := leafLine_alike alike atLast []
      (openAll line (openFirst line lead containers leaf depth first).2 later).2 true .none
    simp only [openedLine, opened, nested]
    exact ⟨List.rel_append (List.rel_append closing opening) leafs.written, leafs.containers,
      leafs.leaf⟩

theorem unmatchedLine_alike (alike : line.Alike like line')
    (reaches : (Cursor.start line.expanded).Reaches c) (lead : Text) (containers : Containers)
    (depth : Nat) (leaves : OpenLeaf.Alike like leaf leaf') :
    (unmatchedLine line lead c containers leaf depth).Alike like
      (unmatchedLine line' lead c containers leaf' depth) := by
  have place := place_alike alike reaches
  have closeLeaf := OpenLeaf.close_alike leaves c.isBlank place
  have closeInner := Containers.close_alike (containers.drop depth) c.isBlank place
  have last := leafLine_alike alike reaches lead (containers.take depth) false .none
  exact ⟨List.rel_append (List.rel_append closeLeaf closeInner) last.written, last.containers,
    last.leaf⟩

theorem lineEffect_alike (alike : line.Alike like line') (containers : Containers)
    (leaves : OpenLeaf.Alike like leaf leaf') :
    (lineEffect containers leaf line).Alike like (lineEffect containers leaf' line') := by
  have reaches := containers.matchLine_reaches line.expanded
  simp only [lineEffect, alike.expanded, OpenLeaf.isParagraph_alike leaves]
  generalize Containers.Match.lead _ line.expanded = lead
  generalize containers.matchLine line.expanded = found at reaches ⊢
  have run := Marker.readAll_run (found.depth == containers.length && leaf.isParagraph) found.cursor
  generalize Marker.readAll _ found.cursor = read at run ⊢
  obtain ⟨markers, c⟩ := read
  have atLast := reaches.trans run.reaches
  cases found.depth == containers.length with
  | false =>
    simp only [Bool.false_eq_true, if_false]
    cases markers with
    | cons first later =>
      exact openedLine_alike alike reaches run lead containers found.depth leaves
    | nil =>
      by_cases goesOn : (leaf.isParagraph && (LineClass.of c.rest false).continuesParagraph) = true
      · simp only [goesOn, if_true]
        exact paragraphLine_alike alike atLast lead containers true leaves
      · simp only [goesOn]
        exact unmatchedLine_alike alike atLast lead containers found.depth leaves
  | true =>
    simp only [if_true]
    have same := leaves
    cases leaves with
    | fencedCode fence =>
      obtain ⟨token, leaf⟩ := fencedLine_alike alike reaches lead fence
      exact ⟨.cons token .nil, rfl, leaf⟩
    | _ =>
      cases markers with
      | cons first later =>
        exact openedLine_alike alike reaches run lead containers found.depth same
      | nil => exact leafLine_alike alike atLast lead containers false same

end Line

/-- Where nothing is open, it does not matter where the last line ended. -/
structure State.Alike (like : Likeness) (state state' : State) : Prop where
  containers : state'.containers = state.containers
  leaf : OpenLeaf.Alike like state.leaf state'.leaf
  reached : like.rel state.reached [] state'.reached [] ∨
    state.containers = [] ∧ state.leaf = .none

variable {like : Likeness} {state state' : State}

theorem step_alike {line line' : Line} (alike : line.Alike like line')
    (states : State.Alike like state state') :
    List.Forall₂ (Token.Alike like) (step state line).1 (step state' line').1 ∧
      State.Alike like (step state line).2 (step state' line').2 := by
  have effects := lineEffect_alike alike state.containers states.leaf
  rw [← states.containers] at effects
  simp only [step, ← states.containers]
  exact ⟨effects.written, effects.containers, effects.leaf, .inl alike.last⟩

theorem finish_alike (states : State.Alike like state state') :
    List.Forall₂ (Token.Alike like) (finish state) (finish state') := by
  have leaves := states.leaf
  unfold finish
  rw [states.containers]
  rcases states.reached with place | ⟨noContainer, noLeaf⟩
  · exact List.rel_append (OpenLeaf.close_alike leaves false place)
      (Containers.close_alike state.containers false place)
  · rw [noLeaf] at leaves
    rw [noContainer, noLeaf]
    generalize state'.leaf = leaf' at leaves ⊢
    cases leaves
    exact .nil

theorem runFrom_alike {lines lines' : List Line}
    (alike : List.Forall₂ (Line.Alike like) lines lines')
    (states : State.Alike like state state') :
    List.Forall₂ (Token.Alike like) (runFrom state lines) (runFrom state' lines') := by
  induction alike generalizing state state' with
  | nil => exact finish_alike states
  | cons first _ ih =>
    obtain ⟨written, next⟩ := step_alike first states
    exact List.rel_append written (ih next)

end Tokenizer
end BlockLint
