import BlockLint.Proofs.Embedding
import BlockLint.Proofs.Shares
import Mathlib.Data.List.TakeWhile

/-!
Cursors stand between characters. Spaces and markers are plain, so a cursor that has moved over them
has passed as many bytes as characters. It never stands inside a character or past the end.
-/
namespace BlockLint

namespace Text

theorem Plain.nil : Plain [] := by
  simp [Plain]

theorem Plain.cons {c : Char} {rest : Text} (isPlain : c.utf8Size = 1 ∧ c ∉ ['\t', '\n', '\r'])
    (others : rest.Plain) : Plain (c :: rest) := by
  intro d member
  rcases List.mem_cons.mp member with rfl | later
  · exact isPlain
  · exact others d later

theorem Plain.append {left right : Text} (first : left.Plain) (second : right.Plain) :
    Plain (left ++ right) := by
  intro c member
  rcases List.mem_append.mp member with inLeft | inRight
  · exact first c inLeft
  · exact second c inRight

theorem Plain.size_eq_length {text : Text} (plain : text.Plain) : text.size = text.length := by
  induction text with
  | nil => rfl
  | cons c rest ih =>
    have one := (plain c List.mem_cons_self).1
    have others := ih fun later member => plain later (List.mem_cons_of_mem _ member)
    simp only [size_cons, List.length_cons, one, others]
    omega

theorem length_le_size (text : Text) : text.length ≤ text.size := by
  induction text with
  | nil => exact Nat.le_refl _
  | cons c rest ih =>
    have one := Char.utf8Size_pos c
    simp only [List.length_cons, size_cons]
    omega

theorem Plain.replicate {sign : Char} (plain : Plain [sign]) (count : Nat) :
    Plain (List.replicate count sign) := by
  intro c member
  rw [List.eq_of_mem_replicate member]
  exact plain sign List.mem_cons_self

theorem replicate_plain (count : Nat) : Plain (List.replicate count ' ') :=
  .replicate (.cons (by decide) .nil) count

theorem take_length_takeWhile (p : Char → Bool) (text : Text) :
    text.take (text.takeWhile p).length = text.takeWhile p :=
  (List.prefix_iff_eq_take.mp (List.takeWhile_prefix p)).symm

theorem drop_length_takeWhile (p : Char → Bool) (text : Text) :
    text.drop (text.takeWhile p).length = text.dropWhile p := by
  have whole := List.take_append_drop (text.takeWhile p).length text
  rw [take_length_takeWhile] at whole
  exact List.append_cancel_left (whole.trans List.takeWhile_append_dropWhile.symm)

theorem takeWhile_eq_replicate (sign : Char) (text : Text) :
    text.takeWhile (· == sign) = List.replicate (text.takeWhile (· == sign)).length sign := by
  refine List.eq_replicate_iff.mpr ⟨rfl, ?_⟩
  intro c member
  simpa using List.mem_takeWhile_imp member

theorem run_append_drop (sign : Char) (text : Text) :
    List.replicate (text.takeWhile (· == sign)).length sign ++
      text.drop (text.takeWhile (· == sign)).length = text := by
  rw [← takeWhile_eq_replicate, drop_length_takeWhile]
  exact List.takeWhile_append_dropWhile

theorem takeWhile_replicate_append {sign : Char} {rest : Text} (stops : rest.head? ≠ some sign)
    (count : Nat) :
    (List.replicate count sign ++ rest).takeWhile (· == sign) = List.replicate count sign := by
  have none : rest.takeWhile (· == sign) = [] := by
    cases rest with
    | nil => rfl
    | cons c rest =>
      have other : c ≠ sign := by simpa using stops
      simp [other]
  rw [List.takeWhile_append_of_pos (by simp), none, List.append_nil]

theorem head?_dropWhile_ne (sign : Char) (text : Text) :
    (text.dropWhile (· == sign)).head? ≠ some sign := by
  intro isSign
  have other := List.head?_dropWhile_not (· == sign) text
  simp [isSign] at other

theorem spaces_le_length (text : Text) : spaces text ≤ text.length :=
  (List.takeWhile_prefix _).length_le

theorem take_spaces {text : Text} {count : Nat} (few : count ≤ spaces text) :
    text.take count = List.replicate count ' ' := by
  have all : text.take (spaces text) = List.replicate (spaces text) ' ' := by
    rw [spaces, take_length_takeWhile]
    exact takeWhile_eq_replicate ' ' text
  have taken := congrArg (List.take count) all
  rwa [List.take_take, Nat.min_eq_left few, List.take_replicate, Nat.min_eq_left few] at taken

theorem drop_spaces (text : Text) : text.drop (spaces text) = dropSpaces text :=
  drop_length_takeWhile (· == ' ') text

theorem seek_append (front back : Text) : seek (front ++ back) front.size = back := by
  induction front with
  | nil =>
    cases back with
    | nil => rfl
    | cons c rest => simp [seek, Char.utf8Size_pos c]
  | cons c front ih =>
    have past : ¬ c.utf8Size + size front < c.utf8Size := by omega
    simp [seek, past, ih]

theorem isBoundary_append (front back : Text) :
    isBoundary (front ++ back) front.size = true := by
  induction front with
  | nil => cases back <;> rfl
  | cons c front ih => simp [isBoundary, ih]

/-- A boundary lies between what stands before it and what `seek` finds there. -/
theorem exists_front_of_isBoundary {text : Text} {offset : Nat}
    (boundary : isBoundary text offset = true) :
    ∃ front, text = front ++ seek text offset ∧ size front = offset := by
  induction text generalizing offset with
  | nil =>
    have start : offset = 0 := by simpa [isBoundary] using boundary
    exact ⟨[], rfl, start.symm⟩
  | cons c rest ih =>
    simp only [isBoundary, Bool.or_eq_true, beq_iff_eq, Bool.and_eq_true, decide_eq_true_eq]
      at boundary
    rcases boundary with rfl | ⟨past, later⟩
    · exact ⟨[], by simp [seek, Char.utf8Size_pos c], rfl⟩
    · obtain ⟨front, whole, size⟩ := ih later
      refine ⟨c :: front, ?_, ?_⟩
      · rw [seek, if_neg (Nat.not_lt_of_le past), List.cons_append, ← whole]
      · rw [size_cons, size]
        omega

end Text

namespace Cursor

/-- From a cursor to a later one there are plain characters only. -/
def Reaches (c later : Cursor) : Prop :=
  ∃ passed : Text, passed.Plain ∧ c.rest = passed ++ later.rest ∧
    later.offset = c.offset + passed.length

namespace Reaches

theorem refl (c : Cursor) : c.Reaches c :=
  ⟨[], .nil, rfl, rfl⟩

theorem trans {first second third : Cursor} (left : first.Reaches second)
    (right : second.Reaches third) : first.Reaches third := by
  obtain ⟨passed, plain, rest, offset⟩ := left
  obtain ⟨further, plain', rest', offset'⟩ := right
  refine ⟨passed ++ further, plain.append plain', by simp [rest, rest'], ?_⟩
  simp only [offset', offset, List.length_append]
  omega

theorem passed {c later : Cursor} (reaches : c.Reaches later) :
    (c.upTo later).Plain ∧ c.rest = c.upTo later ++ later.rest := by
  obtain ⟨passed, plain, rest, offset⟩ := reaches
  have passedOver : c.upTo later = passed := by simp [upTo, rest, offset]
  rw [passedOver]
  exact ⟨plain, rest⟩

theorem size_upTo {c later : Cursor} (reaches : c.Reaches later) :
    c.offset + Text.size (c.upTo later) = later.offset := by
  obtain ⟨plain, _⟩ := reaches.passed
  obtain ⟨_, _, rest, offset⟩ := reaches
  rw [plain.size_eq_length, upTo, rest]
  simp [offset]

end Reaches

@[simp] theorem skip_skip (c : Cursor) (count further : Nat) :
    (c.skip count).skip further = c.skip (count + further) := by
  simp [skip, Nat.add_assoc]

theorem reaches_skip {c : Cursor} {passed rest : Text} (plain : passed.Plain)
    (same : c.rest = passed ++ rest) : c.Reaches (c.skip passed.length) :=
  ⟨passed, plain, by simp [skip, same], rfl⟩

theorem reaches_skip_spaces {c : Cursor} {count : Nat} (few : count ≤ c.indent) :
    c.Reaches (c.skip count) := by
  have split := List.take_append_drop count c.rest
  rw [Text.take_spaces few] at split
  simpa using reaches_skip (Text.replicate_plain count) split.symm

theorem reaches_skip_run {sign : Char} (plain : Text.Plain [sign]) (c : Cursor) :
    c.Reaches (c.skip (c.rest.takeWhile (· == sign)).length) := by
  refine reaches_skip ?_ List.takeWhile_append_dropWhile.symm
  rw [Text.takeWhile_eq_replicate]
  exact plain.replicate _

end Cursor

theorem quoteMarker?_reaches {c after : Cursor} (found : quoteMarker? c = some after) :
    c.Reaches after ∧ c.offset + c.indent < after.offset := by
  have indented := Cursor.reaches_skip_spaces (Nat.le_refl c.indent)
  have bare : Text.Plain ['>'] := .cons (by decide) .nil
  have spaced : Text.Plain ['>', ' '] := bare.append (.cons (by decide) .nil)
  rcases quoteMarker?_cases found with ⟨rest, same, rfl⟩ | ⟨rest, same, rfl⟩
  · have past : (c.skip c.indent).rest = ['>', ' '] ++ rest := same
    exact ⟨by simpa using indented.trans (Cursor.reaches_skip spaced past),
      by simp only [Cursor.skip]; omega⟩
  · have past : (c.skip c.indent).rest = ['>'] ++ rest := same
    exact ⟨by simpa using indented.trans (Cursor.reaches_skip bare past),
      by simp only [Cursor.skip]; omega⟩

namespace ListKind

/-- A list marker is a bullet, or a number and the sign after it. -/
theorem marker?_cases {text : Text} {kind : ListKind} {width : Nat}
    (found : marker? text = some (kind, width)) :
    (∃ bullet rest, bullet ∈ bullets ∧ text = [bullet] ++ rest ∧ kind = .bulleted bullet ∧
        width = 1) ∨
      ∃ digits delimiter rest, digits ≠ [] ∧ digits.length ≤ maxDigits ∧
        (∀ digit ∈ digits, digit.isDigit = true) ∧ delimiter ∈ delimiters ∧
        text = digits ++ [delimiter] ++ rest ∧ kind = .ordered (Text.valueOf digits) delimiter ∧
        width = digits.length + 1 := by
  unfold marker? at found
  split at found
  · contradiction
  · rename_i c rest
    split at found
    · rename_i isBullet
      cases found
      exact .inl ⟨c, rest, isBullet, rfl, rfl, rfl⟩
    · simp only at found
      split at found
      · contradiction
      · rename_i bounded
        split at found
        · rename_i delimiter after same
          split at found
          · rename_i isDelimiter
            cases found
            have whole := List.take_append_drop
              ((c :: rest).takeWhile Char.isDigit).length (c :: rest)
            rw [Text.take_length_takeWhile, same] at whole
            refine .inr ⟨_, delimiter, after, ?_, by omega,
              fun digit member => List.mem_takeWhile_imp member, isDelimiter, ?_, rfl, rfl⟩
            · rintro none
              simp [none] at bounded
            · rw [List.append_assoc]
              exact whole.symm
          · contradiction
        · contradiction

theorem marker?_append {text : Text} {kind : ListKind} {width : Nat}
    (found : marker? text = some (kind, width)) :
    ∃ mark rest : Text, mark.Plain ∧ text = mark ++ rest ∧ mark.length = width := by
  rcases marker?_cases found with ⟨bullet, rest, isBullet, same, _, rfl⟩ |
    ⟨digits, delimiter, rest, _, _, areDigits, isDelimiter, same, _, rfl⟩
  · refine ⟨[bullet], rest, .cons ?_ .nil, same, rfl⟩
    simp only [bullets, List.mem_cons, List.not_mem_nil, or_false] at isBullet
    rcases isBullet with rfl | rfl | rfl <;> decide
  · refine ⟨digits ++ [delimiter], rest, .append ?_ (.cons ?_ .nil), same, by simp⟩
    · intro digit member
      exact plain_of_isDigit (areDigits digit member)
    · simp only [delimiters, List.mem_cons, List.not_mem_nil, or_false] at isDelimiter
      rcases isDelimiter with rfl | rfl <;> decide

end ListKind

theorem ItemStart.marker?_of_find? {c : Cursor} {item : ItemStart} (found : find? c = some item) :
    ∃ width, ListKind.marker? (c.rest.drop c.indent) = some (item.kind, width) := by
  unfold find? at found
  split at found
  · contradiction
  · split at found
    · contradiction
    · rename_i kind width marked
      simp only at found
      repeat' split at found
      all_goals first
        | contradiction
        | cases found
          exact ⟨width, marked⟩

theorem ItemStart.find?_reaches {c : Cursor} {item : ItemStart} (found : find? c = some item) :
    item.markerOffset = c.offset + c.indent ∧ c.Reaches (item.past c) ∧
      item.markerOffset < (item.past c).offset := by
  unfold find? at found
  split at found
  · contradiction
  · split at found
    · contradiction
    · rename_i kind width marked
      obtain ⟨mark, rest, plain, same, length⟩ := ListKind.marker?_append marked
      obtain ⟨moves, _⟩ := ListKind.marker?_width_pos marked
      have past : (c.skip c.indent).rest = mark ++ rest := same
      have marker := (Cursor.reaches_skip_spaces (Nat.le_refl c.indent)).trans
        (Cursor.reaches_skip plain past)
      rw [Cursor.skip_skip, length] at marker
      have lands {item : ItemStart} {taken : Nat}
          (few : taken ≤ Text.spaces (c.rest.drop (c.indent + width)))
          (stop : item.consumedEnd = c.offset + (c.indent + width) + taken) :
          c.Reaches (item.past c) ∧ c.offset + c.indent < (item.past c).offset := by
        have count : item.consumedEnd - c.offset = c.indent + width + taken := by omega
        have gap : (c.skip (c.indent + width)).Reaches _ := Cursor.reaches_skip_spaces few
        rw [ItemStart.past, count]
        refine ⟨by simpa using marker.trans gap, ?_⟩
        simp only [Cursor.skip]
        omega
      simp only at found
      split at found
      · cases Option.some.inj found
        exact ⟨rfl, lands (Nat.zero_le _) rfl⟩
      · split at found
        · contradiction
        · rename_i some
          split at found
          · cases Option.some.inj found
            exact ⟨rfl, lands (Nat.le_refl _) rfl⟩
          · cases Option.some.inj found
            exact ⟨rfl, lands (Nat.pos_of_ne_zero some) rfl⟩

theorem AtxHeading.content_reaches (c : Cursor) :
    let level := ((c.rest.drop c.indent).takeWhile (· == '#')).length
    c.Reaches (c.skip (c.indent + level + Text.spaces ((c.rest.drop c.indent).drop level))) := by
  intro level
  have hash : Text.Plain ['#'] := .cons (by decide) .nil
  have opened := (Cursor.reaches_skip_spaces (Nat.le_refl c.indent)).trans
    (Cursor.reaches_skip_run hash (c.skip c.indent))
  rw [Cursor.skip_skip] at opened
  have gap : (c.skip (c.indent + level)).Reaches
      ((c.skip (c.indent + level)).skip (Text.spaces (c.rest.drop (c.indent + level)))) :=
    Cursor.reaches_skip_spaces (Nat.le_refl _)
  rw [Cursor.skip_skip] at gap
  rw [List.drop_drop]
  exact opened.trans gap

theorem AtxHeading.parse?_reaches {c : Cursor} {heading : AtxHeading}
    (found : parse? c.rest = some heading) :
    c.indent ≤ heading.contentStart ∧ c.Reaches (c.skip heading.contentStart) ∧
      heading.text = dropClosing (c.rest.drop heading.contentStart) := by
  unfold parse? at found
  simp only at found
  split at found
  · contradiction
  · split at found
    · contradiction
    · split at found
      · contradiction
      · obtain rfl := Option.some.inj found
        dsimp only
        refine ⟨?_, content_reaches c, rfl⟩
        rw [Nat.add_assoc]
        exact Nat.le_add_right _ _

theorem Frame.continue?_reaches {frame : Frame} {c next : Cursor}
    (continues : frame.continue? c = some next) : c.Reaches next := by
  cases frame with
  | blockQuote => exact (quoteMarker?_reaches continues).1
  | list kind item =>
    obtain ⟨count, few, rfl⟩ := ListItem.continue?_cases continues
    exact Cursor.reaches_skip_spaces few

namespace Containers

theorem matchFrom_reaches (c : Cursor) (containers : Containers) :
    c.Reaches (matchFrom c containers).cursor := by
  induction containers generalizing c with
  | nil => exact .refl c
  | cons frame inner ih =>
    unfold matchFrom
    split
    · exact .refl c
    · rename_i next continues
      exact (Frame.continue?_reaches continues).trans (ih next)

theorem matchFrom_depth_le (c : Cursor) (containers : Containers) :
    (matchFrom c containers).depth ≤ containers.length := by
  induction containers generalizing c with
  | nil => exact Nat.le_refl 0
  | cons frame inner ih =>
    unfold matchFrom
    split
    · exact Nat.zero_le _
    · rename_i next _
      exact Nat.succ_le_succ (ih next)

theorem matchLine_reaches (containers : Containers) (text : Text) :
    (Cursor.start text).Reaches (containers.matchLine text).cursor :=
  matchFrom_reaches (Cursor.start text) containers

end Containers

namespace Marker

def place : Marker → Nat
  | .quote start _ => start.offset + start.indent
  | .item _ found => found.markerOffset

structure ReadAt (marker : Marker) (c : Cursor) : Prop where
  start : marker.start = c
  place : marker.place = c.offset + c.indent
  reaches : c.Reaches marker.past
  past : marker.place < marker.past.offset

/-- Markers read one after another, each where the one before it ends. -/
inductive Run : Cursor → List Marker → Cursor → Prop where
  | nil (c : Cursor) : Run c [] c
  | cons {c last : Cursor} {marker : Marker} {rest : List Marker} :
      marker.ReadAt c → Run marker.past rest last → Run c (marker :: rest) last

theorem Run.reaches {c last : Cursor} {markers : List Marker} (run : Run c markers last) :
    c.Reaches last := by
  induction run with
  | nil c => exact .refl c
  | cons read _ ih => exact read.reaches.trans ih

theorem readAll_run (inParagraph : Bool) (c : Cursor) :
    Run c (readAll inParagraph c).1 (readAll inParagraph c).2 := by
  fun_induction readAll inParagraph c with
  | case1 | case2 | case3 => exact .nil _
  | case4 inParagraph c _ _ _ after found markers last same ih =>
    obtain ⟨reaches, past⟩ := quoteMarker?_reaches found
    rw [same] at ih
    exact .cons ⟨rfl, rfl, reaches, past⟩ ih
  | case5 | case6 => exact .nil _
  | case7 inParagraph c _ _ _ _ start found _ markers last same ih =>
    obtain ⟨place, reaches, past⟩ := ItemStart.find?_reaches found
    rw [same] at ih
    exact .cons ⟨rfl, place, reaches, past⟩ ih

theorem readAt_of_readAll {inParagraph : Bool} {c last : Cursor} {marker : Marker}
    {rest : List Marker} (read : readAll inParagraph c = (marker :: rest, last)) :
    marker.ReadAt c := by
  have run := readAll_run inParagraph c
  rw [read] at run
  cases run with
  | cons readAt _ => exact readAt

theorem readAll_past {inParagraph : Bool} {c last : Cursor} {marker : Marker} {rest : List Marker}
    (read : readAll inParagraph c = (marker :: rest, last)) :
    readAll false marker.past = (rest, last) := by
  rw [readAll_eq] at read
  repeat' split at read
  all_goals cases read
  all_goals rfl

end Marker

namespace Tokenizer

theorem openContainer_token (line : Line) (lead : Text) (containers : Containers)
    (marker : Marker) :
    ∃ container item, (openContainer line lead containers marker).1 =
      tokenAt line marker.place (.containerStart container item) lead marker.literal := by
  cases marker <;> exact ⟨_, _, rfl⟩

end Tokenizer
end BlockLint
