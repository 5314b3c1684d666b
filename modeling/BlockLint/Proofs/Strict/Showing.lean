import BlockLint.Proofs.Strict.Machine
import BlockLint.Proofs.TabExpansion
import BlockLint.Proofs.Tokenizer.Cases

/-!
Between two lines a state of the tokenizer that works in place shows a state of the other one: the
tokens that are kept back with an open leaf are already in the stream, behind those that are
written. Each operation takes such a state to such a state, without a fault.
-/
namespace BlockLint

def OpenLeaf.held : OpenLeaf → List HeldBlank
  | .indentedCode held => held
  | _ => []

@[simp] theorem OpenLeaf.close_none (natural : Bool) (position : Position) :
    OpenLeaf.none.close natural position = [] :=
  rfl

namespace Strict

open Tokenizer (tokenAt literalFrom)

def Leaf.of (start : Nat) : OpenLeaf → Leaf
  | .none => .none
  | .paragraph _ _ => .paragraph start
  | .indentedCode _ => .indentedCode
  | .fencedCode fence => .fencedCode fence

@[simp] theorem Leaf.isParagraph_of (start : Nat) (leaf : OpenLeaf) :
    (Leaf.of start leaf).isParagraph = leaf.isParagraph := by
  cases leaf <;> rfl

namespace State

/-- Tokens are written, and those that the leaf keeps back stand behind them. -/
def showing (written : List Token) (containers : Containers) (leaf : OpenLeaf) (lead : Text)
    (reached : Position) : State where
  containers
  leaf := .of written.length leaf
  tokens := written ++ leaf.pending
  held := leaf.held
  lead
  reached

def after (written : List Token) (effect : Tokenizer.Effect) (reached : Position) : State :=
  showing (written ++ effect.written) effect.containers effect.leaf [] reached

@[simp] theorem showing_containers (written : List Token) (containers : Containers)
    (leaf : OpenLeaf) (lead : Text) (reached : Position) :
    (showing written containers leaf lead reached).containers = containers :=
  rfl

@[simp] theorem showing_isParagraph (written : List Token) (containers : Containers)
    (leaf : OpenLeaf) (lead : Text) (reached : Position) :
    (showing written containers leaf lead reached).leaf.isParagraph = leaf.isParagraph :=
  Leaf.isParagraph_of _ leaf

@[simp] theorem showing_leaf (written : List Token) (containers : Containers)
    (leaf : OpenLeaf) (lead : Text) (reached : Position) :
    (showing written containers leaf lead reached).leaf = .of written.length leaf :=
  rfl

section Writing

variable (written : List Token) (containers : Containers) (lead : Text) (reached : Position)

theorem emit_showing (leaf : OpenLeaf) (none : leaf.pending = []) (line : Line) (offset : Nat)
    (kind : TokenKind) (literal : Text) :
    (showing written containers leaf lead reached).emit line offset kind literal =
      showing (written ++ [tokenAt line offset kind lead literal]) containers leaf [] reached := by
  cases leaf with
  | paragraph opening contents => cases none
  | _ => simp [emit, showing, none, Leaf.of]

theorem emitEnd_showing (kind : TokenKind) (position : Position) :
    (showing written containers .none lead reached).emitEnd kind position =
      showing (written ++ [endToken kind position]) containers .none lead reached := by
  simp [emitEnd, showing, OpenLeaf.pending, Leaf.of]

theorem markContent_showing (leaf : OpenLeaf) :
    (showing written containers leaf lead reached).markContent =
      showing written containers.markContent leaf lead reached :=
  rfl

theorem closeLeaf_showing (leaf : OpenLeaf) (natural : Bool) (position : Position) :
    (showing written containers leaf lead reached).closeLeaf natural position =
      showing (written ++ leaf.close natural position) containers .none lead reached := by
  cases leaf <;>
    simp [closeLeaf, showing, Leaf.of, Leaf.kind?, OpenLeaf.close, OpenLeaf.pending, OpenLeaf.held]

theorem closeContainer_showing (leaf : OpenLeaf) (frame : Frame) (natural : Bool)
    (position : Position) :
    (showing written (containers ++ [frame]) leaf lead reached).closeContainer natural position =
      .ok (showing
        (written ++ leaf.close natural position ++
          Containers.close [frame] natural position) containers .none lead reached) := by
  unfold closeContainer
  rw [closeLeaf_showing]
  simp [showing, emitEnd, Containers.close, Leaf.of, OpenLeaf.pending]

end Writing

theorem closeContainers_showing (written : List Token) {containers : Containers} (lead : Text)
    (reached : Position) (natural : Bool) (position : Position) {count : Nat}
    (enough : count ≤ containers.length) :
    closeContainers natural position count (showing written containers .none lead reached) =
      .ok (showing
        (written ++
          Containers.close (containers.drop (containers.length - count)) natural position)
        (containers.take (containers.length - count)) .none lead reached) := by
  induction count generalizing written containers with
  | zero => simp [closeContainers, Containers.close]
  | succ count ih =>
    obtain rfl | ⟨outer, frame, rfl⟩ := containers.eq_nil_or_concat'
    · cases enough
    · have enough : count ≤ outer.length := by simpa using enough
      have depth : (outer ++ [frame]).length - (count + 1) = outer.length - count := by simp
      have inside : outer.length - count ≤ outer.length := by omega
      rw [closeContainers, closeContainer_showing, ok_bind, ih _ enough, depth,
        List.take_append_of_le_length inside, List.drop_append_of_le_length inside]
      simp [Containers.close, OpenLeaf.close]

theorem closeUnmatched_showing (written : List Token) {containers : Containers} (lead : Text)
    (reached : Position) (leaf : OpenLeaf) {depth : Nat} (within : depth ≤ containers.length)
    (natural : Bool) (position : Position) :
    (showing written containers leaf lead reached).closeUnmatched depth natural position =
      .ok (showing
        (written ++ leaf.close natural position ++
          Containers.close (containers.drop depth) natural position)
        (containers.take depth) .none lead reached) := by
  have count : containers.length - (containers.length - depth) = depth := by omega
  unfold closeUnmatched
  rw [closeLeaf_showing]
  change closeContainers natural position (containers.length - depth) _ = _
  rw [closeContainers_showing _ _ _ _ _ (Nat.sub_le _ _), count]

theorem literalAt_reached {line : Line} {c : Cursor}
    (reaches : (Cursor.start line.expanded).Reaches c) :
    literalAt line c.offset = .ok (literalFrom line c) := by
  rw [literalAt, cutFrom_reached reaches]
  rfl

theorem mapM_blankContent (held : List HeldBlank) :
    held.mapM blankContent = .ok (held.map HeldBlank.content) := by
  induction held with
  | nil => rfl
  | cons blank rest ih =>
    have text := cutFrom_spaces (Nat.min_le_right codeIndent (Text.spaces blank.rest))
    simp only [List.mapM_cons, blankContent, text, ok_bind, ih]
    rfl

section Leaves

variable (written : List Token) (containers : Containers) (lead : Text) (reached : Position)
  {line : Line} {c : Cursor} (reaches : (Cursor.start line.expanded).Reaches c)

include reaches

theorem paragraphLine_showing (leaf : OpenLeaf) (isLazy : Bool) :
    (showing written containers leaf lead reached).paragraphLine line c.offset isLazy =
      .ok (after written (Tokenizer.paragraphLine line lead c containers leaf isLazy) reached) := by
  have text := cutFrom_spaces (Nat.le_refl (Text.spaces c.rest))
  unfold paragraphLine
  simp only [cutFrom_reached reaches, ok_bind, literalAt_reached reaches, text, Text.drop_spaces,
    showing_isParagraph, closeLeaf_showing]
  cases leaf with
  | paragraph opening contents =>
    simp [OpenLeaf.isParagraph, after, showing, emit, markContent, Tokenizer.paragraphLine,
      paragraphText, Cursor.indent, OpenLeaf.pending, OpenLeaf.held, Leaf.of]
  | _ =>
    simp [OpenLeaf.isParagraph, after, showing, emit, markContent, Tokenizer.paragraphLine,
      paragraphText, Cursor.indent, OpenLeaf.pending, OpenLeaf.held, Leaf.of]

theorem setextUnderline_showing (opening : Token) (contents : List Token) (level : Nat) :
    (showing written containers (.paragraph opening contents) lead reached).setextUnderline line
        c.offset level =
      .ok (showing
        (written ++ ({ opening with kind := .leafStart (.setextHeading level) } :: contents ++
          [tokenAt line (c.offset + c.indent) (.leafEnd (.setextHeading level) true) lead
            (literalFrom line c)])) containers .none [] reached) := by
  simp [setextUnderline, showing, emit, Leaf.of, OpenLeaf.pending, OpenLeaf.held,
    literalAt_reached reaches, spacesAt_reached reaches]

theorem codeLine_showing (held : List HeldBlank) (isCode : codeIndent ≤ c.indent) :
    (showing written containers (.indentedCode held) lead reached).codeLine line c.offset =
      .ok (showing (written ++ Tokenizer.codeLine line lead c held) containers.markContent
        (.indentedCode []) [] reached) := by
  have text : cutFrom line.expanded (c.offset + codeIndent) = .ok (c.rest.drop codeIndent) :=
    cutFrom_reached (reaches.trans (Cursor.reaches_skip_spaces isCode))
  simp only [codeLine, showing, emit, markContent, Leaf.of, OpenLeaf.pending, OpenLeaf.held, text,
    literalAt_reached reaches, mapM_blankContent, ok_bind, List.append_nil, List.append_assoc]
  rfl

theorem blankLine_showing {leaf : OpenLeaf} (noCode : ∀ held, leaf ≠ .indentedCode held)
    (noFence : ∀ fence, leaf ≠ .fencedCode fence) :
    (showing written containers leaf lead reached).blankLine line c.offset =
      .ok (showing
        (written ++ (leaf.close true (line.position c.offset) ++
          [tokenAt line c.offset .blankLine lead (literalFrom line c)])) containers .none []
        reached) := by
  cases leaf with
  | indentedCode held => exact absurd rfl (noCode held)
  | fencedCode fence => exact absurd rfl (noFence fence)
  | none =>
    rw [blankLine, literalAt_reached reaches, ok_bind]
    exact congrArg Except.ok (emit_showing _ _ _ _ .none rfl _ _ _ _)
  | paragraph opening contents =>
    rw [blankLine, literalAt_reached reaches, ok_bind]
    simp only [showing_leaf, Leaf.of, closeLeaf_showing]
    rw [emit_showing _ _ _ _ .none rfl, List.append_assoc]

theorem blankLine_held (held : List HeldBlank) :
    (showing written containers (.indentedCode held) lead reached).blankLine line c.offset =
      .ok (showing written containers
        (.indentedCode (held ++
          [⟨tokenAt line c.offset .blankLine lead (literalFrom line c), c.rest⟩])) []
        reached) := by
  simp only [blankLine, literalAt_reached reaches, cutFrom_reached reaches, ok_bind, showing_leaf,
    Leaf.of]
  rfl

theorem atxHeading_showing (leaf : OpenLeaf) {heading : AtxHeading}
    (found : AtxHeading.parse? c.rest = some heading) :
    (showing written containers leaf lead reached).atxHeading line c.offset heading =
      .ok (showing
        (written ++ (leaf.close true (line.position c.offset) ++
          [tokenAt line (c.offset + c.indent) (.leafStart (.atxHeading heading.level)) lead
            (c.upTo (c.skip heading.contentStart)),
            tokenAt line (c.skip heading.contentStart).offset (.leafContent heading.text false) []
              (literalFrom line (c.skip heading.contentStart)),
            endToken (.leafEnd (.atxHeading heading.level) true) line.endPosition]))
        containers.markContent .none [] reached) := by
  obtain ⟨_, ahead, _⟩ := AtxHeading.parse?_reaches found
  have opening : cut c.rest 0 heading.contentStart =
      .ok (c.upTo (c.skip heading.contentStart)) := by
    obtain ⟨_, inRest, _⟩ := AtxHeading.parse?_reaches (c := .start c.rest) found
    simpa [Cursor.upTo, Cursor.skip] using cut_reached (.refl (.start c.rest)) inRest
  have content : literalAt line (c.offset + heading.contentStart) =
      .ok (literalFrom line (c.skip heading.contentStart)) :=
    literalAt_reached (reaches.trans ahead)
  simp only [atxHeading, cutFrom_reached reaches, opening, content, ok_bind, closeLeaf_showing,
    markContent_showing, emit_showing _ _ _ _ .none rfl, emitEnd_showing, Line.position_size,
    List.append_assoc]
  rfl

theorem thematicBreak_showing (leaf : OpenLeaf) :
    (showing written containers leaf lead reached).thematicBreak line c.offset =
      .ok (showing
        (written ++ (leaf.close true (line.position c.offset) ++
          [tokenAt line (c.offset + c.indent) (.leafStart .thematicBreak) lead (literalFrom line c),
            endToken (.leafEnd .thematicBreak true) line.endPosition]))
        containers.markContent .none [] reached) := by
  simp only [thematicBreak, literalAt_reached reaches, spacesAt_reached reaches, ok_bind,
    closeLeaf_showing, markContent_showing, emit_showing _ _ _ _ .none rfl, emitEnd_showing,
    Line.position_size, List.append_assoc]
  rfl

theorem openFence_showing (leaf : OpenLeaf) (fence : Fence) :
    (showing written containers leaf lead reached).openFence line c.offset fence =
      .ok (showing
        (written ++ (leaf.close true (line.position c.offset) ++
          [tokenAt line (c.offset + fence.indent) (.leafStart fence.leafKind) lead
            (literalFrom line c)])) containers.markContent (.fencedCode fence) [] reached) := by
  simp only [openFence, literalAt_reached reaches, ok_bind, closeLeaf_showing,
    markContent_showing, emit_showing _ _ _ _ .none rfl, List.append_assoc]
  rfl

theorem fencedLine_showing {fence : Fence} (plain : Text.Plain [fence.char]) :
    (showing written containers (.fencedCode fence) lead reached).fencedLine line c.offset fence =
      .ok (showing (written ++ [(Tokenizer.fencedLine line lead c fence).1]) containers
        (Tokenizer.fencedLine line lead c fence).2 [] reached) := by
  have text := cutFrom_spaces (Nat.min_le_left (Text.spaces c.rest) fence.indent)
  simp only [fencedLine, Tokenizer.fencedLine, cutFrom_reached reaches, literalAt_reached reaches,
    closesFence_eq plain, ok_bind]
  split
  · exact congrArg Except.ok (emit_showing written containers lead reached .none rfl _ _ _ _)
  · rw [text, ok_bind, emit_showing _ _ _ _ _ rfl]
    rfl

theorem leafLine_showing {leaf : OpenLeaf} {opened : Bool}
    (noFence : ∀ fence, leaf ≠ .fencedCode fence) (fresh : opened = true → leaf = .none) :
    (showing written containers leaf lead reached).leafLine line c.offset opened =
      .ok (after written (Tokenizer.leafLine line lead c containers leaf opened) reached) := by
  -- Behind a marker the line is not read as part of a paragraph, and then none is open.
  have inParagraph : (!opened && leaf.isParagraph) = leaf.isParagraph := by
    cases opened with
    | false => rfl
    | true =>
      rw [fresh rfl]
      rfl
  unfold leafLine
  rw [cutFrom_reached reaches, ok_bind, showing_isParagraph, inParagraph, lineClass_eq, ok_bind]
  refine Tokenizer.leafLine_cases (motive := fun effect => _ = Except.ok
    (after written effect reached)) line lead c containers leaf opened noFence ?held ?blank ?setext
    ?text ?moreCode ?newCode ?atxHeading ?thematicBreak ?fenceOpen
  case held =>
    intro held isCode found
    subst isCode
    rw [show LineClass.of c.rest (OpenLeaf.indentedCode held).isParagraph = _ from found]
    refine (blankLine_held written _ lead reached reaches held).trans ?_
    rw [after, List.append_nil]
    rfl
  case blank =>
    intro noCode found
    rw [found]
    exact blankLine_showing _ _ _ _ reaches noCode noFence
  case setext =>
    intro level opening contents isParagraph found
    subst isParagraph
    rw [show LineClass.of c.rest (OpenLeaf.paragraph opening contents).isParagraph = _ from found]
    exact setextUnderline_showing _ _ _ _ reaches opening contents level
  case text =>
    rintro (found | ⟨isParagraph, found⟩)
    · rw [found]
      exact paragraphLine_showing _ _ _ _ reaches leaf false
    · rw [isParagraph, found]
      cases leaf with
      | paragraph opening contents => exact paragraphLine_showing _ _ _ _ reaches _ false
      | _ => cases isParagraph
  case moreCode =>
    intro held isCode found
    subst isCode
    rw [show LineClass.of c.rest (OpenLeaf.indentedCode held).isParagraph = _ from found]
    exact codeLine_showing _ _ _ _ reaches held (LineClass.codeIndent_le found)
  case newCode =>
    intro isNone found
    subst isNone
    rw [show LineClass.of c.rest OpenLeaf.none.isParagraph = _ from found]
    have started := emit_showing written containers lead reached .none rfl line
      (c.offset + codeIndent) (.leafStart .indentedCode) []
    have code := codeLine_showing
      (written ++ [tokenAt line (c.offset + codeIndent) (.leafStart .indentedCode) lead []])
      containers [] reached reaches [] (LineClass.codeIndent_le found)
    simp only [showing_leaf, Leaf.of, closeLeaf_showing, OpenLeaf.close_none, List.append_nil,
      started]
    refine code.trans ?_
    simp only [after, List.append_assoc, List.singleton_append]
  case atxHeading =>
    intro heading found
    rw [found]
    exact atxHeading_showing _ _ _ _ reaches leaf (LineClass.of_atxHeading found)
  case thematicBreak =>
    intro found
    rw [found]
    exact thematicBreak_showing _ _ _ _ reaches leaf
  case fenceOpen =>
    intro fence found
    rw [found]
    exact openFence_showing _ _ _ _ reaches leaf fence

end Leaves

end State
end Strict
end BlockLint
