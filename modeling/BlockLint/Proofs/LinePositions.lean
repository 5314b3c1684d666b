import BlockLint.Proofs.Cursors
import BlockLint.Proofs.TabExpansion
import Mathlib.Data.Set.Function
import Mathlib.Order.Interval.Set.Defs

/-!
Lines and positions of a document. The spans of the lines tile the document, each holds the text of
its line and the line's ending, and only the last line may lack one. Within a line, columns and the
places between characters are in one order, one for one, so a position can be told from its byte.
-/
namespace BlockLint

namespace Span

/-- The spans follow each other from `start` to `stop`, and none is empty. -/
def Tile (start stop : Nat) : List Span → Prop
  | [] => start = stop
  | span :: rest => span.start = start ∧ span.start < span.stop ∧ Tile span.stop stop rest

/-- The bytes of `text` in the span are those of `part`. -/
def Cuts (span : Span) (text part : Text) : Prop :=
  ∃ before after, text = before ++ part ++ after ∧ Text.size before = span.start ∧
    Text.size (before ++ part) = span.stop

end Span

namespace Text

theorem size_pos {text : Text} (filled : text ≠ []) : 0 < size text := by
  cases text with
  | nil => exact absurd rfl filled
  | cons c rest =>
    have first := Char.utf8Size_pos c
    rw [size_cons]
    omega

theorem size_take_lt {text : Text} {short long : Nat} (less : short < long)
    (inside : long ≤ text.length) : size (text.take short) < size (text.take long) := by
  have between : (text.take long).drop short ≠ [] := by
    refine List.ne_nil_of_length_pos ?_
    rw [List.length_drop, List.length_take]
    omega
  have parts := List.take_append_drop short (text.take long)
  rw [List.take_take, Nat.min_eq_left (Nat.le_of_lt less)] at parts
  rw [← parts, size_append]
  have some := size_pos between
  omega

end Text

namespace Line

/-- The bytes of the document at which a character of the line starts, and the one at which its
text ends. -/
def boundaries (line : Line) : Set Nat :=
  {place | line.span.start ≤ place ∧ Text.isBoundary line.text (place - line.span.start) = true}

def columns (line : Line) : Set Nat :=
  Set.Icc 1 line.endColumn

section
variable (line : Line)

theorem documentOffset_strictMonoOn : StrictMonoOn line.documentOffset line.columns := by
  rintro left ⟨low, _⟩ right ⟨_, high⟩ less
  have shorter : left - 1 < right - 1 := by omega
  have inside : right - 1 ≤ line.text.length := by
    rw [endColumn] at high
    omega
  exact Nat.add_lt_add_left (Text.size_take_lt shorter inside) _

theorem documentOffset_mem (column : Nat) : line.documentOffset column ∈ line.boundaries := by
  have boundary := Text.isBoundary_append (line.text.take (column - 1))
    (line.text.drop (column - 1))
  rw [List.take_append_drop] at boundary
  refine ⟨Nat.le_add_right _ _, ?_⟩
  rwa [documentOffset, Nat.add_sub_cancel_left]

theorem documentOffset_surjOn : Set.SurjOn line.documentOffset line.columns line.boundaries := by
  rintro place ⟨low, boundary⟩
  obtain ⟨front, whole, size⟩ := Text.exists_front_of_isBoundary boundary
  refine ⟨front.length + 1, ⟨Nat.le_add_left _ _, ?_⟩, ?_⟩
  · rw [endColumn, whole, List.length_append]
    omega
  · rw [documentOffset, Nat.add_sub_cancel, whole, List.take_left, size]
    omega

theorem documentOffset_bijOn : Set.BijOn line.documentOffset line.columns line.boundaries :=
  ⟨fun column _ => line.documentOffset_mem column, line.documentOffset_strictMonoOn.injOn,
    line.documentOffset_surjOn⟩

theorem documentOffset_of_endColumn_le {column : Nat} (past : line.endColumn ≤ column) :
    line.documentOffset column = line.span.start + Text.size line.text := by
  rw [documentOffset, List.take_of_length_le]
  rw [endColumn] at past
  omega

end

theorem splitEnding_noNewline {raw body : Text} (noNewline : '\n' ∉ body)
    (isRaw : raw = body ∨ raw = body ++ ['\n']) : '\n' ∉ (splitEnding raw).1 := by
  have whole := splitEnding_append raw
  rcases isRaw with rfl | rfl
  · intro inside
    exact noNewline (whole ▸ List.mem_append_left _ inside)
  · have ends := ends_splitEnding (body ++ ['\n'])
    generalize (splitEnding (body ++ ['\n'])).1 = text at whole ends ⊢
    generalize (splitEnding (body ++ ['\n'])).2 = ending at whole ends
    cases ends with
    | returned =>
      have ended : (text ++ ['\r']) ++ ['\n'] = body ++ ['\n'] := by simpa using whole
      have same : text ++ ['\r'] = body := List.append_cancel_right ended
      intro inside
      exact noNewline (same ▸ List.mem_append_left _ inside)
    | newline _ =>
      rwa [List.append_cancel_right whole]
    | none notLast =>
      rw [List.append_nil] at whole
      exact absurd (by rw [whole]; simp) notLast

theorem splitEnding_ne_nil (body : Text) : (splitEnding (body ++ ['\n'])).2 ≠ [] := by
  intro none
  have whole := splitEnding_append (body ++ ['\n'])
  have ends := ends_splitEnding (body ++ ['\n'])
  rw [none, List.append_nil] at whole
  rw [none, whole] at ends
  cases ends with
  | none notLast => exact notLast (by simp)

end Line

namespace Source

namespace Tiling

variable {raws : List Text}

theorem ne_nil (tiling : Tiling raws) : ∀ raw ∈ raws, raw ≠ [] := by
  induction tiling with
  | nil => simp
  | last _ filled => simpa using filled
  | cons _ _ ih => simpa using ih

theorem exists_body (tiling : Tiling raws) :
    ∀ raw ∈ raws, ∃ body, '\n' ∉ body ∧ (raw = body ∨ raw = body ++ ['\n']) := by
  induction tiling with
  | nil => simp
  | @last body noNewline _ =>
    intro raw member
    cases List.mem_singleton.mp member
    exact ⟨body, noNewline, .inl rfl⟩
  | @cons body rest noNewline _ ih =>
    intro raw member
    rcases List.mem_cons.mp member with rfl | later
    · exact ⟨body, noNewline, .inr rfl⟩
    · exact ih raw later

theorem exists_ended (tiling : Tiling raws) :
    ∀ raw ∈ raws.dropLast, ∃ body, raw = body ++ ['\n'] := by
  induction tiling with
  | nil => simp
  | last _ _ => simp
  | @cons body rest _ _ ih =>
    intro raw member
    cases rest with
    | nil => cases member
    | cons first others =>
      rcases List.mem_cons.mp member with rfl | later
      · exact ⟨body, rfl⟩
      · exact ih raw later

end Tiling

section
variable (tabWidth : Nat) {raws : List Text}

theorem layOut_tile (filled : ∀ raw ∈ raws, raw ≠ []) (number start : Nat) :
    Span.Tile start (start + Text.size raws.flatten)
      ((layOut tabWidth number start raws).map Line.span) := by
  induction raws generalizing number start with
  | nil => rfl
  | cons raw rest ih =>
    have some := Text.size_pos (filled raw List.mem_cons_self)
    have others := ih (fun raw later => filled raw (List.mem_cons_of_mem _ later)) (number + 1)
      (start + Text.size raw)
    refine ⟨rfl, ?_, ?_⟩
    · change start < start + Text.size raw
      omega
    · rwa [List.flatten_cons, Text.size_append, ← Nat.add_assoc]

theorem exists_raw {number start : Nat} {line : Line}
    (isLine : line ∈ layOut tabWidth number start raws) :
    ∃ raw ∈ raws, Line.splitEnding raw = (line.text, line.ending) := by
  induction raws generalizing number start with
  | nil => cases isLine
  | cons raw rest ih =>
    rcases List.mem_cons.mp isLine with rfl | later
    · exact ⟨raw, List.mem_cons_self, rfl⟩
    · obtain ⟨raw', member, cut⟩ := ih later
      exact ⟨raw', List.mem_cons_of_mem _ member, cut⟩

theorem dropLast_layOut (number start : Nat) :
    (layOut tabWidth number start raws).dropLast =
      layOut tabWidth number start raws.dropLast := by
  induction raws generalizing number start with
  | nil => rfl
  | cons raw rest ih =>
    cases rest with
    | nil => rfl
    | cons next others => exact congrArg (_ :: ·) (ih (number + 1) (start + Text.size raw))

end

section
variable {text : Text} {tabWidth : Nat} {line : Line}

theorem span_cuts (isLine : line ∈ (ofText text tabWidth).lines) :
    line.span.Cuts text (line.text ++ line.ending) := by
  obtain ⟨stop, before, after, whole, start⟩ := layOut_spans tabWidth 1 0 _ line isLine
  rw [flatten_rawLines] at whole
  rw [Nat.zero_add] at start
  refine ⟨before, after, whole, start.symm, ?_⟩
  rw [Text.size_append, stop, start]

theorem line_ends (isLine : line ∈ (ofText text tabWidth).lines) :
    Line.Ends line.text line.ending ∧ '\n' ∉ line.text := by
  obtain ⟨raw, member, cut⟩ := exists_raw tabWidth isLine
  obtain ⟨body, noNewline, isRaw⟩ := (rawLines_tiling text).exists_body raw member
  have ends := Line.ends_splitEnding raw
  have clear := Line.splitEnding_noNewline noNewline isRaw
  rw [cut] at ends clear
  exact ⟨ends, clear⟩

theorem ending_ne_nil (isEarlier : line ∈ (ofText text tabWidth).lines.dropLast) :
    line.ending ≠ [] := by
  rw [ofText, dropLast_layOut] at isEarlier
  obtain ⟨raw, member, cut⟩ := exists_raw tabWidth isEarlier
  obtain ⟨body, rfl⟩ := (rawLines_tiling text).exists_ended raw member
  have filled := Line.splitEnding_ne_nil body
  rwa [cut] at filled

theorem offset?_number (isLine : line ∈ (ofText text tabWidth).lines) (column : Nat) :
    (ofText text tabWidth).offset? ⟨line.number, column⟩ = some (line.documentOffset column) := by
  rw [offset?, line?_number isLine]
  rfl

end

/-- The lines are numbered from 1 and tile the document. Each holds its text and its ending, which
only the last may lack. On each, columns go up with the bytes between its characters, and every such
byte has its column. -/
theorem ofText_tiles (text : Text) (tabWidth : Nat) :
    let source := ofText text tabWidth
    source.lines.map Line.number = List.range' 1 source.length ∧
      Span.Tile 0 (Text.size text) (source.lines.map Line.span) ∧
      (∀ line ∈ source.lines, line.span.Cuts text (line.text ++ line.ending) ∧
        Line.Ends line.text line.ending ∧ '\n' ∉ line.text) ∧
      (∀ line ∈ source.lines.dropLast, line.ending ≠ []) ∧
      ∀ line ∈ source.lines, ∃ place : Nat → Nat,
        (∀ column, source.offset? ⟨line.number, column⟩ = some (place column)) ∧
        StrictMonoOn place line.columns ∧ Set.BijOn place line.columns line.boundaries ∧
        (∀ column, line.endColumn ≤ column →
          place column = line.span.start + Text.size line.text) ∧
        place 0 = line.span.start := by
  intro source
  refine ⟨?_, ?_, ?_, fun line => ending_ne_nil, ?_⟩
  · have numbers := layOut_numbers tabWidth 1 0 (rawLines text)
    have count := congrArg List.length numbers
    rw [List.length_map, List.length_range'] at count
    rw [← count] at numbers
    exact numbers
  · have tile := layOut_tile tabWidth (rawLines_tiling text).ne_nil 1 0
    rwa [flatten_rawLines, Nat.zero_add] at tile
  · intro line isLine
    exact ⟨span_cuts isLine, line_ends isLine⟩
  · intro line isLine
    exact ⟨line.documentOffset, offset?_number isLine, line.documentOffset_strictMonoOn,
      line.documentOffset_bijOn, fun column => line.documentOffset_of_endColumn_le, rfl⟩

-- A return before a returned line, a line without ending, and columns before and behind it.
example :
    let source := ofText ['é', '\r', '\r', '\n', 'b', '\r'] 4
    (source.lines.map fun line => (line.text, line.ending, line.span)) =
        [(['é', '\r'], ['\r', '\n'], ⟨0, 5⟩), (['b', '\r'], [], ⟨5, 7⟩)] ∧
      ([0, 1, 2, 3, 4].map fun column => source.offset? ⟨1, column⟩) =
        [some 0, some 0, some 2, some 3, some 3] := by
  decide

end Source
end BlockLint
