import BlockLint.Proofs.Shift
import BlockLint.Proofs.SourceLines
import BlockLint.Tokenizer
import Mathlib.Data.List.Forall2

/-!
Two runs side by side. The second reads the lines of the first behind a text that continues one more
container, outside of all others. Then both runs do the same: the second has the containers of the
first inside the additional one, and writes the same tokens, moved to the right.

The relation says nothing about leads.
-/
namespace BlockLint

/-- Characters of one byte and one column, none of which ends a line. -/
def Text.Plain (text : Text) : Prop :=
  ∀ c ∈ text, c.utf8Size = 1 ∧ c ∉ ['\t', '\n', '\r']

theorem Text.Plain.not_mem {text : Text} (plain : text.Plain) {c : Char}
    (special : c ∈ ['\t', '\n', '\r']) : c ∉ text :=
  fun member => (plain c member).2 special

theorem plain_of_isDigit {c : Char} (digit : c.isDigit = true) :
    c.utf8Size = 1 ∧ c ∉ ['\t', '\n', '\r'] := by
  refine ⟨?_, ?_⟩
  · simp only [Char.isDigit, Bool.and_eq_true, decide_eq_true_eq] at digit
    have small : c.val ≤ 0x7f := UInt32.le_trans digit.2 (by decide)
    simp [Char.utf8Size, small]
  · intro special
    simp only [List.mem_cons, List.not_mem_nil, or_false] at special
    rcases special with rfl | rfl | rfl <;> simp at digit

/-- `longer` is a line without tabs behind `front`. -/
structure Line.Behind (front : Text) (line longer : Line) : Prop where
  plain : front.Plain
  noTab : '\t' ∉ line.text
  number : longer.number = line.number
  text : longer.text = front ++ line.text
  ending : longer.ending = line.ending

namespace Expansion

theorem columns_shift (width seen column width' seen' more : Nat) {text : Text}
    (noTab : '\t' ∉ text) :
    (expandFrom width' seen' (column + more) text).columns =
      (expandFrom width seen column text).columns.map (· + more) := by
  induction text generalizing seen seen' column with
  | nil => rfl
  | cons c rest ih =>
    have isText : c ≠ '\t' := fun isTab => noTab (isTab ▸ List.mem_cons_self)
    have rest := ih (seen + 1) (column + 1) (seen' + 1)
      fun inRest => noTab (List.mem_cons_of_mem _ inRest)
    simp only [expandFrom, isText, if_false, Nat.add_right_comm column more 1, rest,
      List.map_append, List.map_replicate]

theorem columns_behind (width seen column : Nat) {front : Text} (plain : front.Plain)
    (text : Text) (offset : Nat) :
    (expandFrom width seen column (front ++ text)).columns[offset + front.length]? =
      (expandFrom width (seen + front.length) (column + front.length) text).columns[offset]? := by
  induction front generalizing seen column with
  | nil => simp
  | cons c front ih =>
    obtain ⟨one, isPlain⟩ := plain c List.mem_cons_self
    have isText : c ≠ '\t' := fun isTab => isPlain (by simp [isTab])
    have rest := ih (seen + 1) (column + 1) fun later member =>
      plain later (List.mem_cons_of_mem _ member)
    have head : (expandFrom width seen column (c :: front ++ text)).columns =
        column :: (expandFrom width (seen + 1) (column + 1) (front ++ text)).columns := by
      simp [expandFrom, isText, one]
    rw [head, List.length_cons, ← Nat.add_assoc, List.getElem?_cons_succ, rest,
      Nat.add_right_comm seen 1, Nat.add_right_comm column 1, Nat.add_assoc, Nat.add_assoc]

end Expansion

namespace Line.Behind

variable {front : Text} {line longer : Line}

theorem expanded (behind : line.Behind front longer) :
    longer.expanded = front ++ line.expanded := by
  have noTab : '\t' ∉ longer.text := by
    rw [behind.text]
    intro isTab
    rcases List.mem_append.mp isTab with inFront | inLine
    · exact behind.plain.not_mem (by simp) inFront
    · exact behind.noTab inLine
  rw [expanded_eq_text noTab, expanded_eq_text behind.noTab, behind.text]

theorem endColumn (behind : line.Behind front longer) :
    longer.endColumn = line.endColumn + front.length := by
  simp only [Line.endColumn, behind.text, List.length_append]
  omega

theorem column (behind : line.Behind front longer) (offset : Nat) :
    longer.column (offset + front.length) = line.column offset + front.length := by
  have moved := Expansion.columns_behind (max longer.tabWidth 1) 0 1 behind.plain line.text offset
  have shifted := Expansion.columns_shift (max line.tabWidth 1) 0 1 (max longer.tabWidth 1)
    (0 + front.length) front.length behind.noTab
  simp only [Line.column, Line.expansion, expandTabs, behind.text, moved, behind.endColumn,
    shifted, List.getElem?_map]
  cases (Expansion.expandFrom (max line.tabWidth 1) 0 1 line.text).columns[offset]? <;> rfl

end Line.Behind

def Position.shift (width : Nat) (position : Position) : Position :=
  { position with column := position.column + width }

def ItemGeometry.shift (width : Nat) (item : ItemGeometry) : ItemGeometry :=
  { item with
    markerColumn := item.markerColumn + width
    contentColumn := item.contentColumn + width }

def TokenKind.shift (width : Nat) : TokenKind → TokenKind
  | .containerStart container item =>
    .containerStart container (item.map (ItemGeometry.shift width))
  | .newListItem item number => .newListItem (item.shift width) number
  | kind => kind

/-- The same token further right, with any lead. -/
structure Token.Moved (width : Nat) (token moved : Token) : Prop where
  kind : moved.kind = token.kind.shift width
  position : moved.position = token.position.shift width
  literal : moved.literal = token.literal

inductive OpenLeaf.Moved (width : Nat) : OpenLeaf → OpenLeaf → Prop where
  | none : Moved width .none .none
  | paragraph {opening opening' : Token} {contents contents' : List Token} :
      Token.Moved width opening opening' → List.Forall₂ (Token.Moved width) contents contents' →
        Moved width (.paragraph opening contents) (.paragraph opening' contents')
  | indentedCode {held held' : List HeldBlank} :
      List.Forall₂ (fun blank blank' =>
        Token.Moved width blank.token blank'.token ∧ blank'.rest = blank.rest) held held' →
        Moved width (.indentedCode held) (.indentedCode held')
  | fencedCode (fence : Fence) : Moved width (.fencedCode fence) (.fencedCode fence)

namespace Line.Behind

variable {front : Text} {line longer : Line}

theorem position (behind : line.Behind front longer) {offset offset' : Nat}
    (same : offset' = offset + front.length) :
    longer.position offset' = (line.position offset).shift front.length := by
  simp only [Line.position, Position.shift, same, behind.number, behind.column]

theorem endPosition (behind : line.Behind front longer) :
    longer.endPosition = line.endPosition.shift front.length := by
  simp only [Line.endPosition, Position.shift, behind.number, behind.endColumn]

end Line.Behind

theorem endToken_moved {width : Nat} {kind : TokenKind} {position position' : Position}
    (sameKind : kind.shift width = kind) (same : position' = position.shift width) :
    Token.Moved width (endToken kind position) (endToken kind position') :=
  ⟨sameKind.symm, same, rfl⟩

theorem OpenLeaf.close_moved {width : Nat} {leaf leaf' : OpenLeaf}
    (moved : OpenLeaf.Moved width leaf leaf') (natural : Bool) {position position' : Position}
    (same : position' = position.shift width) :
    List.Forall₂ (Token.Moved width) (leaf.close natural position)
      (leaf'.close natural position') := by
  cases moved with
  | none => exact .nil
  | paragraph opening contents =>
    exact .cons opening (List.rel_append contents (.cons (endToken_moved rfl same) .nil))
  | @indentedCode held held' blanks =>
    have tokens : List.Forall₂ (Token.Moved width) (held.map (·.token)) (held'.map (·.token)) := by
      induction blanks with
      | nil => exact .nil
      | cons blank _ ih => exact .cons blank.1 ih
    refine .cons (endToken_moved rfl ?_) tokens
    cases blanks with
    | nil => exact same
    | cons blank _ => exact blank.1.position
  | fencedCode fence => exact .cons (endToken_moved rfl same) .nil

theorem OpenLeaf.isParagraph_moved {width : Nat} {leaf leaf' : OpenLeaf}
    (moved : OpenLeaf.Moved width leaf leaf') : leaf'.isParagraph = leaf.isParagraph := by
  cases moved <;> rfl

theorem ListItem.geometry_shift (width : Nat) (item : ListItem) :
    (item.shift width).geometry = item.geometry.shift width := by
  simp [ListItem.geometry, ListItem.shift, ItemGeometry.shift, Nat.add_right_comm]

theorem Frame.kind_shift (width : Nat) (frame : Frame) : (frame.shift width).kind = frame.kind := by
  cases frame <;> rfl

theorem Containers.close_moved {width : Nat} (containers : Containers) (natural : Bool)
    {position position' : Position} (same : position' = position.shift width) :
    List.Forall₂ (Token.Moved width) (containers.close natural position)
      ((containers.shift width).close natural position') := by
  simp only [Containers.close, Containers.shift, ← List.map_reverse]
  induction containers.reverse with
  | nil => exact .nil
  | cons frame rest ih =>
    have kind := Frame.kind_shift width frame
    exact .cons ⟨by simp [endToken, kind, TokenKind.shift], same, rfl⟩ ih

/-- A container that lines with content and blank lines leave as it is. -/
structure Frame.Settled (frame : Frame) : Prop where
  markContent : frame.mapItem ListItem.markContent = frame
  closeIfEmpty : frame.mapItem ListItem.closeIfEmpty = frame

namespace Containers

variable {outer : Frame}

theorem markContent_around (settled : outer.Settled) (width : Nat) (containers : Containers) :
    markContent (outer :: containers.shift width) =
      outer :: (containers.markContent).shift width := by
  have commutes : ∀ frame : Frame, (frame.shift width).mapItem ListItem.markContent =
      (frame.mapItem ListItem.markContent).shift width := by
    intro frame
    cases frame <;> rfl
  simp [markContent, shift, settled.markContent, commutes]

theorem markContent_markContent (containers : Containers) :
    containers.markContent.markContent = containers.markContent := by
  have again : ∀ frame : Frame, (frame.mapItem ListItem.markContent).mapItem ListItem.markContent =
      frame.mapItem ListItem.markContent := by
    intro frame
    cases frame <;> rfl
  simp [markContent, again]

theorem closeEmptyItems_around (settled : outer.Settled) (width : Nat) (containers : Containers) :
    closeEmptyItems (outer :: containers.shift width) =
      outer :: (containers.closeEmptyItems).shift width := by
  have commutes : ∀ frame : Frame, (frame.shift width).mapItem ListItem.closeIfEmpty =
      (frame.mapItem ListItem.closeIfEmpty).shift width := by
    intro frame
    cases frame with
    | blockQuote => rfl
    | list kind item =>
      simp only [Frame.shift, Frame.mapItem, ListItem.closeIfEmpty, ListItem.shift]
      split <;> rfl
  simp [closeEmptyItems, shift, settled.closeIfEmpty, commutes]

theorem take_around (width depth : Nat) (containers : Containers) :
    List.take (depth + 1) (outer :: containers.shift width) =
      outer :: shift width (containers.take depth) := by
  simp [shift, List.map_take]

theorem drop_around (width depth : Nat) (containers : Containers) :
    List.drop (depth + 1) (outer :: containers.shift width) =
      shift width (containers.drop depth) := by
  simp [shift, List.map_drop]

end Containers

structure Line.Inside (outer : Frame) (front : Text) (line longer : Line) : Prop
    extends Line.Behind front line longer where
  continues : outer.continue? (Cursor.start longer.expanded) =
    some ((Cursor.start line.expanded).shift front.length)

namespace Tokenizer

/-- The second effect is the first one inside the additional container `outer`. -/
structure Effect.Moved (outer : Frame) (width : Nat) (effect effect' : Effect) : Prop where
  written : List.Forall₂ (Token.Moved width) effect.written effect'.written
  containers : effect'.containers = outer :: effect.containers.shift width
  leaf : OpenLeaf.Moved width effect.leaf effect'.leaf

variable {front : Text} {line longer : Line} {outer : Frame} {leaf leaf' : OpenLeaf}

theorem tokenAt_moved (behind : line.Behind front longer) (kind : TokenKind) (lead lead' : Text)
    {offset offset' : Nat} {literal literal' : Text}
    (sameOffset : offset' = offset + front.length) (sameLiteral : literal' = literal) :
    Token.Moved front.length (tokenAt line offset kind lead literal)
      (tokenAt longer offset' (kind.shift front.length) lead' literal') :=
  ⟨rfl, behind.position sameOffset, sameLiteral⟩

theorem literalFrom_shift (behind : line.Behind front longer) (c : Cursor) (width : Nat) :
    literalFrom longer (c.shift width) = literalFrom line c := by
  simp only [literalFrom, behind.ending, Cursor.shift_rest]

theorem paragraphLine_moved (behind : line.Behind front longer) (settled : outer.Settled)
    (lead lead' : Text) (c : Cursor) (containers : Containers) (isLazy : Bool)
    (moved : OpenLeaf.Moved front.length leaf leaf') :
    (paragraphLine line lead c containers leaf isLazy).Moved outer front.length
      (paragraphLine longer lead' (c.shift front.length)
        (outer :: containers.shift front.length) leaf' isLazy) := by
  have here : (c.shift front.length).offset + (c.shift front.length).indent =
      c.offset + c.indent + front.length := Nat.add_right_comm ..
  have content (lead lead' : Text) :=
    tokenAt_moved behind (.leafContent (paragraphText c.rest) isLazy) lead lead' here
      (literalFrom_shift behind c front.length)
  have opening : Token.Moved front.length
      (tokenAt line (c.offset + c.indent) (.leafStart .paragraph) lead [])
      (tokenAt longer _ (.leafStart .paragraph) lead' []) :=
    tokenAt_moved behind (.leafStart .paragraph) lead lead' here rfl
  have closing := OpenLeaf.close_moved moved true
    (behind.position (Cursor.shift_offset front.length c))
  have around := Containers.markContent_around settled front.length containers
  cases moved with
  | paragraph opening contents =>
    exact ⟨.nil, around,
      .paragraph opening (List.rel_append contents (.cons (content lead lead') .nil))⟩
  | none => exact ⟨closing, around, .paragraph opening (.cons (content [] []) .nil)⟩
  | indentedCode held => exact ⟨closing, around, .paragraph opening (.cons (content [] []) .nil)⟩
  | fencedCode fence => exact ⟨closing, around, .paragraph opening (.cons (content [] []) .nil)⟩

theorem codeLine_moved (behind : line.Behind front longer) (lead lead' : Text) (c : Cursor)
    {held held' : List HeldBlank}
    (blanks : List.Forall₂ (fun blank blank' =>
      Token.Moved front.length blank.token blank'.token ∧ blank'.rest = blank.rest) held held') :
    List.Forall₂ (Token.Moved front.length) (codeLine line lead c held)
      (codeLine longer lead' (c.shift front.length) held') := by
  refine List.rel_append ?_ (.cons ?_ .nil)
  · induction blanks with
    | nil => exact .nil
    | @cons blank blank' _ _ moved _ ih =>
      exact .cons ⟨by simp [moved.2, TokenKind.shift], moved.1.position, moved.1.literal⟩ ih
  · exact tokenAt_moved behind (.leafContent (c.rest.drop codeIndent) false) lead lead'
      (Nat.add_right_comm ..) (literalFrom_shift behind c front.length)

theorem leafLine_moved (behind : line.Behind front longer) (settled : outer.Settled)
    (lead lead' : Text) (c : Cursor) (containers : Containers) (opened : Bool)
    (moved : OpenLeaf.Moved front.length leaf leaf') :
    (leafLine line lead c containers leaf opened).Moved outer front.length
      (leafLine longer lead' (c.shift front.length) (outer :: containers.shift front.length) leaf'
        opened) := by
  have here := Cursor.shift_offset front.length c
  have inside : (c.shift front.length).offset + (c.shift front.length).indent =
      c.offset + c.indent + front.length := Nat.add_right_comm ..
  have atCode : (c.shift front.length).offset + codeIndent =
      c.offset + codeIndent + front.length := Nat.add_right_comm ..
  have whole := literalFrom_shift behind c front.length
  have closing := OpenLeaf.close_moved moved true (behind.position here)
  have marked := Containers.markContent_around settled front.length containers
  have kept : (if opened then outer :: containers.shift front.length
      else Containers.closeEmptyItems (outer :: containers.shift front.length)) =
      outer :: (if opened then containers else containers.closeEmptyItems).shift front.length := by
    cases opened with
    | true => rfl
    | false => exact Containers.closeEmptyItems_around settled front.length containers
  have blank := tokenAt_moved behind .blankLine lead lead' here whole
  unfold leafLine
  rw [Cursor.shift_rest, OpenLeaf.isParagraph_moved moved]
  cases LineClass.of c.rest leaf.isParagraph with
  | blank =>
    cases moved with
    | none => exact ⟨.cons blank .nil, kept, .none⟩
    | paragraph opening contents =>
      exact ⟨List.rel_append closing (.cons blank .nil), kept, .none⟩
    | indentedCode blanks =>
      exact ⟨.nil, kept, .indentedCode (List.rel_append blanks (.cons ⟨blank, rfl⟩ .nil))⟩
    | fencedCode fence => exact ⟨.cons blank .nil, kept, .fencedCode fence⟩
  | setextUnderline level =>
    cases moved with
    | paragraph opening contents =>
      refine ⟨.cons ⟨rfl, opening.position, opening.literal⟩
        (List.rel_append contents (.cons ?_ .nil)), rfl, .none⟩
      exact tokenAt_moved behind (.leafEnd (.setextHeading level) true) lead lead' inside whole
    | none => exact ⟨.nil, rfl, .none⟩
    | indentedCode blanks => exact ⟨.nil, rfl, .indentedCode blanks⟩
    | fencedCode fence => exact ⟨.nil, rfl, .fencedCode fence⟩
  | indented =>
    have start := tokenAt_moved behind (.leafStart .indentedCode) lead lead' atCode
      (rfl : ([] : Text) = [])
    cases moved with
    | paragraph opening contents =>
      exact paragraphLine_moved behind settled lead lead' c containers false
        (.paragraph opening contents)
    | indentedCode blanks =>
      exact ⟨codeLine_moved behind lead lead' c blanks, marked, .indentedCode .nil⟩
    | none =>
      exact ⟨.cons start (codeLine_moved behind [] [] c .nil), marked, .indentedCode .nil⟩
    | fencedCode fence =>
      exact ⟨List.rel_append closing (.cons start (codeLine_moved behind [] [] c .nil)), marked,
        .indentedCode .nil⟩
  | atxHeading heading =>
    have content := Cursor.shift_skip front.length heading.contentStart c
    have rest := literalFrom_shift behind (c.skip heading.contentStart) front.length
    have marker := Cursor.shift_upTo front.length c (c.skip heading.contentStart)
    have start := tokenAt_moved behind (.leafStart (.atxHeading heading.level)) lead lead' inside
      marker
    have text := tokenAt_moved behind (.leafContent heading.text false) [] []
      (Cursor.shift_offset front.length (c.skip heading.contentStart)) rest
    simp only [content]
    exact ⟨List.rel_append closing
      (.cons start (.cons text (.cons (endToken_moved rfl behind.endPosition) .nil))),
      marked, .none⟩
  | thematicBreak =>
    have start := tokenAt_moved behind (.leafStart .thematicBreak) lead lead' inside whole
    exact ⟨List.rel_append closing
      (.cons start (.cons (endToken_moved rfl behind.endPosition) .nil)), marked, .none⟩
  | fenceOpen fence =>
    have start := tokenAt_moved behind (.leafStart fence.leafKind) lead lead'
      (Nat.add_right_comm c.offset front.length fence.indent) whole
    exact ⟨List.rel_append closing (.cons start .nil), marked, .fencedCode fence⟩
  | text => exact paragraphLine_moved behind settled lead lead' c containers false moved

theorem fencedLine_moved (behind : line.Behind front longer) (lead lead' : Text) (c : Cursor)
    (fence : Fence) :
    Token.Moved front.length (fencedLine line lead c fence).1
        (fencedLine longer lead' (c.shift front.length) fence).1 ∧
      OpenLeaf.Moved front.length (fencedLine line lead c fence).2
        (fencedLine longer lead' (c.shift front.length) fence).2 := by
  have whole := literalFrom_shift behind c front.length
  unfold fencedLine
  rw [Cursor.shift_rest]
  split
  · exact ⟨tokenAt_moved behind (.leafEnd fence.leafKind true) lead lead' (Nat.add_right_comm ..)
      whole, .none⟩
  · exact ⟨tokenAt_moved behind (.leafContent _ false) lead lead' (Nat.add_right_comm ..) whole,
      .fencedCode fence⟩

theorem openContainer_moved (behind : line.Behind front longer) (settled : outer.Settled)
    (lead lead' : Text) (containers : Containers) (marker : Marker) :
    Token.Moved front.length (openContainer line lead containers marker).1
        (openContainer longer lead' (outer :: containers.shift front.length)
          (marker.shift front.length)).1 ∧
      (openContainer longer lead' (outer :: containers.shift front.length)
          (marker.shift front.length)).2 =
        outer :: (openContainer line lead containers marker).2.shift front.length := by
  have marked := Containers.markContent_around settled front.length containers
  cases marker with
  | quote start after =>
    refine ⟨tokenAt_moved behind (.containerStart .blockQuote none) lead lead'
      (Nat.add_right_comm ..) (Cursor.shift_upTo ..), ?_⟩
    simp only [openContainer, Marker.shift, marked, Containers.shift_append]
    rfl
  | item start item =>
    have opened := ItemStart.shift_listItem front.length item start
    have past := ItemStart.shift_past front.length item start
    simp only [openContainer, Marker.shift, opened, past, marked, ListItem.geometry_shift]
    refine ⟨tokenAt_moved behind
      (.containerStart (.list item.kind) (some (item.listItem start).geometry)) lead lead' rfl
      (Cursor.shift_upTo ..), ?_⟩
    simp only [Containers.shift_append]
    rfl

theorem openAll_moved (behind : line.Behind front longer) (settled : outer.Settled)
    (containers : Containers) (markers : List Marker) :
    List.Forall₂ (Token.Moved front.length) (openAll line containers markers).1
        (openAll longer (outer :: containers.shift front.length)
          (markers.map (Marker.shift front.length))).1 ∧
      (openAll longer (outer :: containers.shift front.length)
          (markers.map (Marker.shift front.length))).2 =
        outer :: (openAll line containers markers).2.shift front.length := by
  induction markers generalizing containers with
  | nil => exact ⟨.nil, rfl⟩
  | cons marker rest ih =>
    obtain ⟨token, opened⟩ := openContainer_moved behind settled [] [] containers marker
    obtain ⟨tokens, last⟩ := ih (openContainer line [] containers marker).2
    rw [← opened] at tokens last
    exact ⟨.cons token tokens, last⟩

/-- The additional container is outermost and continued, so it is one more that the line matches. -/
theorem openFirst_moved (behind : line.Behind front longer) (settled : outer.Settled)
    (lead lead' : Text) (containers : Containers) (depth : Nat) (marker : Marker)
    (moved : OpenLeaf.Moved front.length leaf leaf') :
    List.Forall₂ (Token.Moved front.length) (openFirst line lead containers leaf depth marker).1
        (openFirst longer lead' (outer :: containers.shift front.length) leaf' (depth + 1)
          (marker.shift front.length)).1 ∧
      (openFirst longer lead' (outer :: containers.shift front.length) leaf' (depth + 1)
          (marker.shift front.length)).2 =
        outer :: (openFirst line lead containers leaf depth marker).2.shift front.length := by
  have place : longer.position (marker.shift front.length).start.offset =
      (line.position marker.start.offset).shift front.length :=
    behind.position (by rw [Marker.start_shift, Cursor.shift_offset])
  have closeLeaf (natural : Bool) := OpenLeaf.close_moved moved natural place
  have closeInner (inner : Containers) (natural : Bool) := inner.close_moved natural place
  obtain ⟨token, opened⟩ := openContainer_moved behind settled lead lead' (containers.take depth)
    marker
  unfold openFirst
  rw [Containers.take_around, Containers.drop_around]
  cases containers.drop depth with
  | nil => exact ⟨List.rel_append (closeLeaf true) (.cons token .nil), opened⟩
  | cons frame inner =>
    have replacing := List.rel_append
      (List.rel_append (closeLeaf false) (closeInner (frame :: inner) false)) (.cons token .nil)
    cases frame with
    | blockQuote => cases marker <;> exact ⟨replacing, opened⟩
    | list kind current =>
      cases marker with
      | quote start after => exact ⟨replacing, opened⟩
      | item start item =>
        have closing := List.rel_append (closeLeaf false) (closeInner inner false)
        have geometry := ListItem.geometry_shift front.length (item.listItem start)
        have listItem := ItemStart.shift_listItem front.length item start
        have past := ItemStart.shift_past front.length item start
        have sibling := tokenAt_moved behind
          (.newListItem (item.listItem start).geometry item.number?) lead lead'
          (rfl : item.markerOffset + front.length = _)
          (Cursor.shift_upTo front.length start (item.past start))
        by_cases same : kind.sameType item.kind = true
        · simp only [Marker.shift, Containers.shift, List.map_cons, Frame.shift, Frame.mapItem]
          have same' : kind.sameType (item.shift front.length).kind = true := same
          simp only [same, same', if_true, listItem, past, geometry]
          refine ⟨List.rel_append closing (.cons sibling .nil), ?_⟩
          simp [Frame.mapItem]
        · have same' : ¬ kind.sameType (item.shift front.length).kind = true := same
          have ending := closeInner [.list kind current] true
          simp only [Marker.shift, Containers.shift, List.map_cons, Frame.shift, Frame.mapItem]
          simp only [same, same']
          exact ⟨List.rel_append (List.rel_append closing ending) (.cons token .nil), opened⟩

theorem openedLine_moved (behind : line.Behind front longer) (settled : outer.Settled)
    (lead lead' : Text) (containers : Containers) (depth : Nat) (first : Marker)
    (later : List Marker) (c : Cursor) (moved : OpenLeaf.Moved front.length leaf leaf') :
    (openedLine line lead containers leaf depth first later c).Moved outer front.length
      (openedLine longer lead' (outer :: containers.shift front.length) leaf' (depth + 1)
        (first.shift front.length) (later.map (Marker.shift front.length))
        (c.shift front.length)) := by
  obtain ⟨closing, opened⟩ :=
    openFirst_moved behind settled lead lead' containers depth first moved
  obtain ⟨opening, nested⟩ := openAll_moved behind settled
    (openFirst line lead containers leaf depth first).2 later
  have last := leafLine_moved behind settled [] [] c
    (openAll line (openFirst line lead containers leaf depth first).2 later).2 true .none
  rw [← opened] at opening nested
  rw [← nested] at last
  exact ⟨List.rel_append (List.rel_append closing opening) last.written, last.containers,
    last.leaf⟩

theorem unmatchedLine_moved (behind : line.Behind front longer) (settled : outer.Settled)
    (lead lead' : Text) (c : Cursor) (containers : Containers) (depth : Nat)
    (moved : OpenLeaf.Moved front.length leaf leaf') :
    (unmatchedLine line lead c containers leaf depth).Moved outer front.length
      (unmatchedLine longer lead' (c.shift front.length) (outer :: containers.shift front.length)
        leaf' (depth + 1)) := by
  have here := behind.position (Cursor.shift_offset front.length c)
  have closeLeaf := OpenLeaf.close_moved moved c.isBlank here
  have closeInner := Containers.close_moved (containers.drop depth) c.isBlank here
  have last := leafLine_moved behind settled lead lead' c (containers.take depth) false .none
  unfold unmatchedLine
  rw [Containers.take_around, Containers.drop_around]
  exact ⟨List.rel_append (List.rel_append closeLeaf closeInner) last.written, last.containers,
    last.leaf⟩

/-- The additional container takes the front of the line, and the others see the line as before. -/
theorem matchLine_around (inside : line.Inside outer front longer) (containers : Containers) :
    Containers.matchLine (outer :: containers.shift front.length) longer.expanded =
      ⟨(containers.matchLine line.expanded).depth + 1,
        (containers.matchLine line.expanded).cursor.shift front.length⟩ := by
  simp only [Containers.matchLine, Containers.matchFrom, inside.continues,
    Containers.matchFrom_shift]

theorem lineEffect_moved (inside : line.Inside outer front longer) (settled : outer.Settled)
    (containers : Containers) (moved : OpenLeaf.Moved front.length leaf leaf') :
    (lineEffect containers leaf line).Moved outer front.length
      (lineEffect (outer :: containers.shift front.length) leaf' longer) := by
  have behind := inside.toBehind
  have matching := matchLine_around inside containers
  have all : ∀ depth, (depth + 1 == containers.length + 1) = (depth == containers.length) := by
    intro depth
    rw [Bool.eq_iff_iff]
    simp
  have paragraph := OpenLeaf.isParagraph_moved moved
  simp only [lineEffect, matching, List.length_cons, Containers.shift_length, all, paragraph,
    Marker.readAll_shift]
  generalize containers.matchLine line.expanded = found
  generalize found.lead line.expanded = lead
  generalize Containers.Match.lead _ longer.expanded = lead'
  cases found.depth == containers.length with
  | false =>
    simp only [Bool.false_and, Bool.false_eq_true, if_false]
    generalize Marker.readAll false found.cursor = read
    obtain ⟨markers, c⟩ := read
    cases markers with
    | cons first later =>
      exact openedLine_moved behind settled lead lead' containers found.depth first later c moved
    | nil =>
      by_cases goesOn : (leaf.isParagraph && (LineClass.of c.rest false).continuesParagraph) = true
      · simp only [List.map_nil, Cursor.shift_rest, goesOn, if_true]
        exact paragraphLine_moved behind settled lead lead' c containers true moved
      · simp only [List.map_nil, Cursor.shift_rest, goesOn]
        exact unmatchedLine_moved behind settled lead lead' c containers found.depth moved
  | true =>
    simp only [Bool.true_and, if_true]
    have same := moved
    cases moved with
    | fencedCode fence =>
      obtain ⟨token, leaf⟩ := fencedLine_moved behind lead lead' found.cursor fence
      exact ⟨.cons token .nil, rfl, leaf⟩
    | _ =>
      generalize Marker.readAll _ found.cursor = read
      obtain ⟨markers, c⟩ := read
      cases markers with
      | cons first later =>
        exact openedLine_moved behind settled lead lead' containers found.depth first later c same
      | nil => exact leafLine_moved behind settled lead lead' c containers false same

end Tokenizer
end BlockLint
