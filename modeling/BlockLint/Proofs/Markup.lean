import BlockLint.Html
import Mathlib.Data.List.Basic

/-!
The written form of a document is well formed. Its elements nest, and no text of the document can
write a tag: angle brackets stand in the tags that were written and nowhere else, ampersands start
entities, and the value of an attribute ends at the quote after it.
-/
namespace BlockLint.Html

def reserved : List Char := ['<', '>', '&', '"']

def Harmless (text : Text) : Prop :=
  ∀ c ∈ text, c ∉ reserved

theorem harmless_of_all {text : Text} (all : text.all (!reserved.contains ·) = true) :
    Harmless text := by
  intro c member
  have apart := List.all_eq_true.mp all c member
  simpa using apart

theorem Harmless.append {left right : Text} (first : Harmless left) (second : Harmless right) :
    Harmless (left ++ right) := by
  intro c member
  rcases List.mem_append.mp member with inLeft | inRight
  · exact first c inLeft
  · exact second c inRight

theorem Harmless.not_mem {text : Text} (harmless : Harmless text) {c : Char}
    (special : c ∈ reserved) : c ∉ text :=
  fun member => harmless c member special

theorem ofNat_harmless (n : Nat) : Harmless (Text.ofNat n) := by
  intro c member special
  have digit := Nat.isDigit_of_mem_toDigits (by decide) (by decide) member
  have none : ∀ c ∈ reserved, c.isDigit = false := by simp [reserved, Char.isDigit]
  simp [none c special] at digit

def entities : List Text := ["&amp;", "&lt;", "&gt;", "&quot;"]

/-- Every ampersand of the text starts an entity. -/
def Escaped (text : Text) : Prop :=
  ∀ before after, text = before ++ '&' :: after → ∃ entity ∈ entities, entity <+: '&' :: after

theorem Escaped.append {left right : Text} (first : Escaped left) (second : Escaped right) :
    Escaped (left ++ right) := by
  intro before after split
  rcases List.append_eq_append_iff.mp split with ⟨front, rfl, same⟩ | ⟨back, rfl, same⟩
  · exact second front after same
  · cases back with
    | nil => exact second [] after same.symm
    | cons c back =>
      cases same
      obtain ⟨entity, isEntity, starts⟩ := first before back rfl
      exact ⟨entity, isEntity, starts.trans (List.prefix_append _ _)⟩

theorem escaped_of_not_mem {text : Text} (none : '&' ∉ text) : Escaped text := by
  rintro before after rfl
  simp at none

theorem Harmless.escaped {text : Text} (harmless : Harmless text) : Escaped text :=
  escaped_of_not_mem (harmless.not_mem (by decide))

theorem escaped_flatMap {escape : Char → Text} (each : ∀ c, Escaped (escape c)) (text : Text) :
    Escaped (text.flatMap escape) := by
  induction text with
  | nil => exact escaped_of_not_mem List.not_mem_nil
  | cons c rest ih =>
    rw [List.flatMap_cons]
    exact (each c).append ih

theorem entity_eq {entity : Text} (isEntity : entity ∈ entities) :
    ∃ name, entity = '&' :: name ∧ Harmless name := by
  simp only [entities, List.mem_cons, List.not_mem_nil, or_false] at isEntity
  rcases isEntity with rfl | rfl | rfl | rfl
  · exact ⟨['a', 'm', 'p', ';'], rfl, harmless_of_all rfl⟩
  · exact ⟨['l', 't', ';'], rfl, harmless_of_all rfl⟩
  · exact ⟨['g', 't', ';'], rfl, harmless_of_all rfl⟩
  · exact ⟨['q', 'u', 'o', 't', ';'], rfl, harmless_of_all rfl⟩

theorem entity_escaped {entity : Text} (isEntity : entity ∈ entities) : Escaped entity := by
  obtain ⟨name, rfl, harmless⟩ := entity_eq isEntity
  rintro before after split
  cases before with
  | nil =>
    cases split
    exact ⟨_, isEntity, List.prefix_refl _⟩
  | cons c before =>
    cases split
    exact absurd (List.mem_append_right _ List.mem_cons_self) (harmless.not_mem (by decide))

theorem not_mem_entity {entity : Text} (isEntity : entity ∈ entities) {c : Char}
    (special : c ∈ reserved) (other : c ≠ '&') : c ∉ entity := by
  obtain ⟨name, rfl, harmless⟩ := entity_eq isEntity
  rw [List.mem_cons, not_or]
  exact ⟨other, harmless.not_mem special⟩

theorem escapeChar_cases (c : Char) :
    escapeChar c ∈ entities ∨ escapeChar c = [c] ∧ c ≠ '&' ∧ c ≠ '<' ∧ c ≠ '>' := by
  unfold escapeChar
  by_cases ampersand : c = '&'
  · simp [ampersand, entities]
  by_cases less : c = '<'
  · simp [less, entities]
  by_cases greater : c = '>'
  · simp [greater, entities]
  simp [ampersand, less, greater]

theorem escapeChar_escaped (c : Char) : Escaped (escapeChar c) := by
  rcases escapeChar_cases c with isEntity | ⟨same, ampersand, _⟩
  · exact entity_escaped isEntity
  · rw [same]
    exact escaped_of_not_mem (by simpa using Ne.symm ampersand)

theorem not_mem_escapeChar {bracket : Char} (isBracket : bracket = '<' ∨ bracket = '>')
    (c : Char) : bracket ∉ escapeChar c := by
  rcases escapeChar_cases c with isEntity | ⟨same, _, less, greater⟩
  · apply not_mem_entity isEntity
    · rcases isBracket with rfl | rfl <;> decide
    · rcases isBracket with rfl | rfl <;> decide
  · rw [same, List.mem_singleton]
    rintro rfl
    rcases isBracket with rfl | rfl
    · exact less rfl
    · exact greater rfl

theorem escapeText_escaped (text : Text) : Escaped (escapeText text) :=
  escaped_flatMap escapeChar_escaped text

theorem not_mem_escapeText {bracket : Char} (isBracket : bracket = '<' ∨ bracket = '>')
    (text : Text) : bracket ∉ escapeText text := by
  intro member
  obtain ⟨c, _, inside⟩ := List.mem_flatMap.mp member
  exact not_mem_escapeChar isBracket c inside

theorem escapeAttribute_escaped (value : Text) : Escaped (escapeAttribute value) := by
  refine escaped_flatMap (fun c => ?_) value
  split
  · exact entity_escaped (by simp [entities])
  · exact escapeChar_escaped c

theorem not_mem_escapeAttribute {special : Char}
    (isSpecial : special = '<' ∨ special = '>' ∨ special = '"') (value : Text) :
    special ∉ escapeAttribute value := by
  intro member
  obtain ⟨c, _, inside⟩ := List.mem_flatMap.mp member
  split at inside
  · refine not_mem_entity (c := special) ?_ ?_ ?_ inside
    · simp [entities]
    · rcases isSpecial with rfl | rfl | rfl <;> decide
    · rcases isSpecial with rfl | rfl | rfl <;> decide
  · rename_i noQuote
    rcases isSpecial with rfl | rfl | rfl
    · exact not_mem_escapeChar (.inl rfl) c inside
    · exact not_mem_escapeChar (.inr rfl) c inside
    · rcases escapeChar_cases c with isEntity | ⟨same, _⟩
      · exact not_mem_entity isEntity (by decide) (by decide) inside
      · rw [same, List.mem_singleton] at inside
        exact noQuote inside.symm

namespace Element

theorem name_harmless (element : Element) : Harmless element.name := by
  cases element with
  | heading level => exact Harmless.append (harmless_of_all rfl) (ofNat_harmless level)
  | _ => exact harmless_of_all rfl

/-- There are no attributes, or there is one whose value stands in quotes and holds none. -/
def Quoted (element : Element) : Prop :=
  element.attributes = [] ∨
    ∃ key value, element.attributes = ' ' :: key ++ '=' :: '"' :: value ++ ['"'] ∧
      Harmless key ∧ Escaped value ∧ '<' ∉ value ∧ '>' ∉ value ∧ '"' ∉ value

theorem quoted (element : Element) : element.Quoted := by
  cases element with
  | orderedList start =>
    by_cases one : start = 1
    · exact .inl (if_pos one)
    · have harmless := ofNat_harmless start
      exact .inr ⟨['s', 't', 'a', 'r', 't'], Text.ofNat start, if_neg one, harmless_of_all rfl,
        harmless.escaped, harmless.not_mem (by decide), harmless.not_mem (by decide),
        harmless.not_mem (by decide)⟩
  | code language =>
    cases language with
    | none => exact .inl rfl
    | some language =>
      have front : Harmless ['l', 'a', 'n', 'g', 'u', 'a', 'g', 'e', '-'] := harmless_of_all rfl
      have apart {special : Char} (isSpecial : special = '<' ∨ special = '>' ∨ special = '"')
          (isReserved : special ∈ reserved) : special ∉ ['l', 'a', 'n', 'g', 'u', 'a', 'g', 'e',
            '-'] ++ escapeAttribute language := by
        rw [List.mem_append, not_or]
        exact ⟨front.not_mem isReserved, not_mem_escapeAttribute isSpecial language⟩
      exact .inr ⟨['c', 'l', 'a', 's', 's'], _, rfl, harmless_of_all rfl,
        front.escaped.append (escapeAttribute_escaped language), apart (.inl rfl) (by decide),
        apart (.inr (.inl rfl)) (by decide), apart (.inr (.inr rfl)) (by decide)⟩
  | _ => exact .inl rfl

theorem attributes_escaped (element : Element) : Escaped element.attributes := by
  rcases element.quoted with none | ⟨key, value, same, harmless, escaped, _⟩
  · rw [none]
    exact escaped_of_not_mem List.not_mem_nil
  · rw [same]
    have space : Harmless [' '] := harmless_of_all rfl
    have front : Escaped (' ' :: key ++ ['=', '"']) :=
      (space.append harmless).escaped.append (escaped_of_not_mem (by decide))
    simpa using (front.append escaped).append (escaped_of_not_mem (by decide))

theorem not_mem_attributes {bracket : Char} (isBracket : bracket = '<' ∨ bracket = '>')
    (element : Element) : bracket ∉ element.attributes := by
  rcases element.quoted with none | ⟨key, value, same, harmless, _, less, greater, _⟩
  · simp [none]
  · rw [same]
    have inKey : bracket ∉ key :=
      harmless.not_mem (by rcases isBracket with rfl | rfl <;> decide)
    rcases isBracket with rfl | rfl <;> simp [inKey, less, greater]

end Element

namespace Piece

def isTag : Piece → Bool
  | .text _ => false
  | _ => true

def body : Piece → Text
  | .opening element => element.name ++ element.attributes
  | .closing element => '/' :: element.name
  | .thematicBreak => ['h', 'r', ' ', '/']
  | .text _ => []

theorem write_of_isTag {piece : Piece} (isTag : piece.isTag = true) :
    piece.write = '<' :: piece.body ++ ['>'] := by
  cases piece with
  | text content => cases isTag
  | _ => rfl

theorem not_mem_body {bracket : Char} (isBracket : bracket = '<' ∨ bracket = '>')
    (piece : Piece) : bracket ∉ piece.body := by
  have special : bracket ∈ reserved ∧ bracket ≠ '/' := by
    rcases isBracket with rfl | rfl <;> decide
  cases piece with
  | opening element =>
    rw [body, List.mem_append, not_or]
    exact ⟨element.name_harmless.not_mem special.1, element.not_mem_attributes isBracket⟩
  | closing element =>
    rw [body, List.mem_cons, not_or]
    exact ⟨special.2, element.name_harmless.not_mem special.1⟩
  | thematicBreak => rcases isBracket with rfl | rfl <;> decide
  | text content => exact List.not_mem_nil

theorem write_escaped (piece : Piece) : Escaped piece.write := by
  have bracket {c : Char} (other : c ≠ '&') : Escaped [c] :=
    escaped_of_not_mem (by simpa using Ne.symm other)
  cases piece with
  | opening element =>
    exact (((bracket (by decide)).append element.name_harmless.escaped).append
      element.attributes_escaped).append (bracket (by decide))
  | closing element =>
    have start : Escaped ['<', '/'] := escaped_of_not_mem (by decide)
    exact (start.append element.name_harmless.escaped).append (bracket (by decide))
  | thematicBreak =>
    have whole : Escaped ['<', 'h', 'r', ' ', '/', '>'] := escaped_of_not_mem (by decide)
    exact whole
  | text content => exact escapeText_escaped content

end Piece

@[simp] theorem write_cons (piece : Piece) (rest : List Piece) :
    write (piece :: rest) = piece.write ++ write rest :=
  List.flatMap_cons

theorem write_escaped (pieces : List Piece) : Escaped (write pieces) := by
  induction pieces with
  | nil => exact escaped_of_not_mem List.not_mem_nil
  | cons piece rest ih => exact piece.write_escaped.append ih

/-- The character between `before` and `after` was written as part of a tag. -/
def InTag (pieces : List Piece) (before : Text) (c : Char) (after : Text) : Prop :=
  ∃ earlier tag later front back, pieces = earlier ++ tag :: later ∧ tag.isTag = true ∧
    tag.write = front ++ c :: back ∧ before = write earlier ++ front ∧ after = back ++ write later

theorem bracket_inTag {bracket : Char} (isBracket : bracket = '<' ∨ bracket = '>')
    {pieces : List Piece} {before after : Text}
    (split : write pieces = before ++ bracket :: after) : InTag pieces before bracket after := by
  induction pieces generalizing before with
  | nil => simp [write] at split
  | cons piece rest ih =>
    have later {front : Text} (same : write rest = front ++ bracket :: after) :
        InTag (piece :: rest) (piece.write ++ front) bracket after := by
      obtain ⟨earlier, tag, later, inFront, inBack, rfl, isTag, whole, rfl, rest⟩ := ih same
      exact ⟨piece :: earlier, tag, later, inFront, inBack, rfl, isTag, whole,
        by rw [write_cons, List.append_assoc], rest⟩
    rw [write_cons] at split
    rcases List.append_eq_append_iff.mp split with ⟨front, rfl, same⟩ | ⟨back, whole, same⟩
    · exact later same
    · cases back with
      | nil =>
        rw [List.append_nil] at whole
        rw [← whole, ← List.append_nil piece.write]
        exact later same.symm
      | cons c back =>
        cases same
        cases isTag : piece.isTag with
        | true => exact ⟨[], piece, rest, before, back, rfl, isTag, whole, rfl, rfl⟩
        | false =>
          cases piece with
          | text content =>
            have inText : bracket ∈ escapeText content := by
              rw [show escapeText content = _ from whole]
              simp
            exact absurd inText (not_mem_escapeText isBracket content)
          | _ => cases isTag

/-- Each element ends where it should, after all that it holds. -/
inductive Balanced : List Piece → Prop where
  | nil : Balanced []
  | text (content : Text) {rest : List Piece} : Balanced rest → Balanced (.text content :: rest)
  | thematicBreak {rest : List Piece} : Balanced rest → Balanced (.thematicBreak :: rest)
  | element (element : Element) {inside rest : List Piece} : Balanced inside → Balanced rest →
      Balanced (.opening element :: inside ++ .closing element :: rest)

namespace Balanced

theorem append {left right : List Piece} (first : Balanced left) (second : Balanced right) :
    Balanced (left ++ right) := by
  induction first with
  | nil => exact second
  | text content _ ih => exact .text content ih
  | thematicBreak _ ih => exact .thematicBreak ih
  | element element inside _ _ ih =>
    have whole := Balanced.element element inside ih
    simpa using whole

theorem enclose (element : Element) {pieces : List Piece} (inside : Balanced pieces) :
    Balanced (Piece.enclose element pieces) :=
  .element element inside .nil

theorem texts (contents : List Text) : Balanced (contents.map .text) := by
  induction contents with
  | nil => exact .nil
  | cons content rest ih => exact .text content ih

theorem leafPieces (kind : LeafKind) (lines : List Text) (tight : Bool) :
    Balanced (leafPieces kind lines tight) := by
  have code (language : Option Text) : Balanced (Piece.enclose .preformatted
      (Piece.enclose (.code language) (lines.map fun line => .text (line ++ ['\n'])))) := by
    have lines := texts (lines.map (· ++ ['\n']))
    rw [List.map_map] at lines
    exact (lines.enclose _).enclose _
  cases kind with
  | paragraph =>
    cases tight with
    | true => exact .text _ .nil
    | false => exact (Balanced.text _ .nil).enclose _
  | atxHeading level => exact (Balanced.text _ .nil).enclose _
  | setextHeading level => exact (Balanced.text _ .nil).enclose _
  | thematicBreak => exact .thematicBreak .nil
  | indentedCode => exact code _
  | fencedCode fence length info => exact code _

end Balanced

mutual

theorem blockPieces_balanced (tight : Bool) :
    (block : Block) → Balanced (blockPieces tight block)
  | .quote children => (allPieces_balanced false children).enclose .blockQuote
  | .list kind items => (itemPieces_balanced (isTight items) items).enclose (listElement kind)
  | .leaf kind lines => .leafPieces kind lines tight
  | .blank => .nil

theorem allPieces_balanced (tight : Bool) : (row : List Block) → Balanced (allPieces tight row)
  | [] => .nil
  | block :: rest => (blockPieces_balanced tight block).append (allPieces_balanced tight rest)

theorem itemPieces_balanced (tight : Bool) :
    (items : List (List Block)) → Balanced (itemPieces tight items)
  | [] => .nil
  | item :: rest =>
    ((allPieces_balanced tight item).enclose .item).append (itemPieces_balanced tight rest)

end

/-- The pieces nest, and what they are written as can be read in one way only. -/
structure WellFormed (pieces : List Piece) : Prop where
  balanced : Balanced pieces
  tags : ∀ piece ∈ pieces, piece.isTag = true →
    piece.write = '<' :: piece.body ++ ['>'] ∧ '<' ∉ piece.body ∧ '>' ∉ piece.body
  brackets : ∀ before c after, write pieces = before ++ c :: after → c = '<' ∨ c = '>' →
    InTag pieces before c after
  ampersands : Escaped (write pieces)
  attributes : ∀ element, .opening element ∈ pieces → element.Quoted

/-- Whatever the tokens hold, what they are rendered to is well formed. -/
theorem render_wellFormed {tokens : List Token} {html : Text}
    (rendered : render tokens = .ok html) :
    ∃ document, blocks tokens = .ok document ∧ html = write (allPieces false document) ∧
      WellFormed (allPieces false document) := by
  unfold render at rendered
  cases built : blocks tokens with
  | error e =>
    rw [built] at rendered
    cases rendered
  | ok document =>
    rw [built] at rendered
    cases rendered
    exact ⟨document, rfl, rfl,
      { balanced := allPieces_balanced false document
        tags := fun piece _ isTag => ⟨Piece.write_of_isTag isTag,
          piece.not_mem_body (.inl rfl), piece.not_mem_body (.inr rfl)⟩
        brackets := fun before c after split isBracket => bracket_inTag isBracket split
        ampersands := write_escaped _
        attributes := fun element _ => element.quoted }⟩

/-- Neither the info string of a fence nor a line of the code gets out of its place. -/
theorem render_wellFormed_fence :
    let kind := LeafKind.fencedCode '~' 3 ['"', '>', '<', 'p']
    let kinds : List TokenKind :=
      [.leafStart kind, .leafContent ['<', '/', 'p', 'r', 'e', '>', '&'] false, .leafEnd kind true]
    let tokens : List Token := kinds.map (⟨·, ⟨1, 1⟩, [], []⟩)
    let html : Text :=
      "<pre><code class=\"language-&quot;&gt;&lt;p\">&lt;/pre&gt;&amp;\n</code></pre>"
    render tokens = .ok html ∧
      ∃ document, blocks tokens = .ok document ∧ html = write (allPieces false document) ∧
        WellFormed (allPieces false document) := by
  intro kind kinds tokens html
  have rendered : render tokens = .ok html := by rfl
  exact ⟨rendered, render_wellFormed rendered⟩

end BlockLint.Html
