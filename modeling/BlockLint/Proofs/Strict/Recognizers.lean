import BlockLint.Block.LineClass
import BlockLint.Block.MarkerRun
import BlockLint.Proofs.Cursors

/-!
Reading with byte offsets. A text is cut only between two of its characters, and every other cut is
a fault.

The recognizers here look at bytes and cut where they have counted characters, so they depend on
what was counted: spaces, hashes, digits and fence signs are one byte each. No cut is a fault then,
and each recognizer answers as its counterpart on cursors.
-/
namespace BlockLint

theorem Text.isBlank_iff (text : Text) : isBlank text = true ↔ size text ≤ spaces text := by
  induction text with
  | nil => simp [isBlank, spaces]
  | cons c rest ih =>
    by_cases isSpace : c = ' '
    · subst isSpace
      have one : ' '.utf8Size = 1 := rfl
      have blank : isBlank (' ' :: rest) = isBlank rest := by simp [isBlank]
      have more : spaces (' ' :: rest) = spaces rest + 1 := by simp [spaces]
      rw [blank, ih, more, size_cons, one]
      omega
    · have some := Char.utf8Size_pos c
      simp [isBlank, spaces, isSpace]
      omega

theorem Text.spaces_dropSpaces (text : Text) : spaces (dropSpaces text) = 0 := by
  induction text with
  | nil => rfl
  | cons c rest ih =>
    by_cases isSpace : c = ' '
    · simpa [dropSpaces, isSpace] using ih
    · simp [dropSpaces, spaces, isSpace]

theorem Text.dropSpaces_dropSpaces (text : Text) :
    dropSpaces (dropSpaces text) = dropSpaces text := by
  rw [← drop_spaces (dropSpaces text), spaces_dropSpaces, List.drop_zero]

namespace Strict

inductive Fault where
  /-- A cut inside a character, past the end, or back. -/
  | badCut (text : Text) (offset : Nat)
  /-- A marker that leads no further in its line, or out of it. -/
  | standstill (offset : Nat)
  /-- A container is to end, and none is open. -/
  | noContainer
  /-- An item is to go on with a list, and the innermost container is none. -/
  | noList
  /-- An underline makes a heading, and no paragraph is open. -/
  | noParagraph
  /-- The marker of an item opens something else than a list. -/
  | noListMarker
  /-- A token is to change that was never written. -/
  | noToken (index : Nat)
deriving Repr, DecidableEq

def cutFrom (text : Text) (offset : Nat) : Except Fault Text :=
  if Text.isBoundary text offset then .ok (Text.seek text offset) else .error (.badCut text offset)

/-- The characters that end within the first `count` bytes. -/
def firstBytes : Nat → Text → Text
  | _, [] => []
  | count, c :: rest =>
    if count < c.utf8Size then [] else c :: firstBytes (count - c.utf8Size) rest

def cut (text : Text) (start stop : Nat) : Except Fault Text :=
  if start ≤ stop && Text.isBoundary text stop then do
    let rest ← cutFrom text start
    .ok (firstBytes (stop - start) rest)
  else .error (.badCut text stop)

/-- The number of spaces from a byte on. A byte inside a character is no space. -/
def spacesAt (text : Text) (offset : Nat) : Nat :=
  if Text.isBoundary text offset then Text.spaces (Text.seek text offset) else 0

def charAt? (text : Text) (offset : Nat) : Option Char :=
  if Text.isBoundary text offset then (Text.seek text offset).head? else none

def isBlankFrom (text : Text) (offset : Nat) : Bool :=
  Text.size text ≤ offset + spacesAt text offset

@[simp] theorem ok_bind {α β : Type} (a : α) (next : α → Except Fault β) :
    (Except.ok a >>= next) = next a :=
  rfl

/-- Cuts are made between characters, and nowhere else. -/
theorem cutFrom_eq_ok_iff {text rest : Text} {offset : Nat} :
    cutFrom text offset = .ok rest ↔
      ∃ front : Text, text = front ++ rest ∧ front.size = offset := by
  constructor
  · intro done
    unfold cutFrom at done
    split at done
    · rename_i boundary
      cases Except.ok.inj done
      exact Text.exists_front_of_isBoundary boundary
    · cases done
  · rintro ⟨front, rfl, rfl⟩
    rw [cutFrom, Text.isBoundary_append, Text.seek_append]
    rfl

theorem firstBytes_append (front back : Text) :
    firstBytes front.size (front ++ back) = front := by
  induction front with
  | nil =>
    cases back with
    | nil => rfl
    | cons c rest => simp [firstBytes, Char.utf8Size_pos c]
  | cons c front ih =>
    have past : ¬ c.utf8Size + Text.size front < c.utf8Size := by omega
    simp [firstBytes, past, ih]

section Reached

variable {text : Text} {c : Cursor} (reaches : (Cursor.start text).Reaches c)

include reaches

theorem exists_front : ∃ front : Text, text = front ++ c.rest ∧ c.offset = front.size := by
  have size := reaches.size_upTo
  obtain ⟨_, rest⟩ := reaches.passed
  rw [Cursor.start_offset, Nat.zero_add] at size
  exact ⟨_, rest, size.symm⟩

theorem isBoundary_reached : Text.isBoundary text c.offset = true := by
  obtain ⟨front, rfl, offset⟩ := exists_front reaches
  rw [offset, Text.isBoundary_append]

theorem seek_reached : Text.seek text c.offset = c.rest := by
  obtain ⟨front, rfl, offset⟩ := exists_front reaches
  rw [offset, Text.seek_append]

theorem size_reached : Text.size text = c.offset + Text.size c.rest := by
  obtain ⟨front, rfl, offset⟩ := exists_front reaches
  rw [offset, Text.size_append]

theorem cutFrom_reached : cutFrom text c.offset = .ok c.rest := by
  obtain ⟨front, whole, offset⟩ := exists_front reaches
  exact cutFrom_eq_ok_iff.mpr ⟨front, whole, offset.symm⟩

theorem spacesAt_reached : spacesAt text c.offset = c.indent := by
  simp [spacesAt, isBoundary_reached reaches, seek_reached reaches, Cursor.indent]

theorem charAt?_reached : charAt? text c.offset = c.rest.head? := by
  simp [charAt?, isBoundary_reached reaches, seek_reached reaches]

theorem isBlankFrom_reached : isBlankFrom text c.offset = c.isBlank := by
  rw [Bool.eq_iff_iff, Cursor.isBlank, Text.isBlank_iff, isBlankFrom, decide_eq_true_eq,
    spacesAt_reached reaches, size_reached reaches, Cursor.indent]
  omega

theorem cut_reached {later : Cursor} (further : c.Reaches later) :
    cut text c.offset later.offset = .ok (c.upTo later) := by
  have stop := isBoundary_reached (reaches.trans further)
  have size := further.size_upTo
  obtain ⟨_, rest⟩ := further.passed
  have ordered : c.offset ≤ later.offset := by omega
  have count : later.offset - c.offset = Text.size (c.upTo later) := by omega
  simp only [cut, ordered, stop, decide_true, Bool.and_self, if_true, cutFrom_reached reaches,
    ok_bind, count]
  rw [rest, firstBytes_append]

end Reached

def quoteMarker? (text : Text) (offset : Nat) : Option Nat :=
  let place := offset + spacesAt text offset
  if codeIndent ≤ spacesAt text offset then none
  else if charAt? text place != some '>' then none
  else if charAt? text (place + 1) == some ' ' then some (place + 2)
  else some (place + 1)

theorem quoteMarker?_eq {text : Text} {c : Cursor} (reaches : (Cursor.start text).Reaches c) :
    quoteMarker? text c.offset = (BlockLint.quoteMarker? c).map Cursor.offset := by
  have indented := Cursor.reaches_skip_spaces (Nat.le_refl c.indent)
  have sign : charAt? text (c.offset + c.indent) = (c.rest.drop c.indent).head? :=
    charAt?_reached (reaches.trans indented)
  unfold quoteMarker? BlockLint.quoteMarker?
  simp only [spacesAt_reached reaches, sign]
  split
  · rfl
  · cases same : c.rest.drop c.indent with
    | nil => rfl
    | cons first tail =>
      by_cases isQuote : first = '>'
      · subst isQuote
        have bare : Text.Plain ['>'] := .cons (by decide) .nil
        have past : (c.skip c.indent).rest = ['>'] ++ tail := same
        have gap := charAt?_reached (reaches.trans (indented.trans (Cursor.reaches_skip bare past)))
        simp only [Cursor.skip, List.length_singleton, same, List.drop_one, List.tail_cons] at gap
        simp only [gap]
        cases tail with
        | nil => rfl
        | cons second tail =>
          by_cases isSpace : second = ' '
          · subst isSpace
            rfl
          · simp [isSpace, Cursor.skip, Nat.add_assoc]
      · simp [isQuote]

/-- The start of an item as it is told by offsets. Its kind could be any container's. -/
structure ItemStart where
  kind : ContainerKind
  number : Option Nat
  markerOffset : Nat
  markerEnd : Nat
  consumedEnd : Nat
  contentIndent : Nat
  empty : Bool
deriving Repr, DecidableEq

namespace ItemStart

def canInterruptParagraph (start : ItemStart) : Bool :=
  !start.empty && start.number.all (· == 1)

def listItem (start : ItemStart) (offset : Nat) : ListItem where
  markerOffset := start.markerOffset
  contentOffset := offset + start.contentIndent
  contentIndent := start.contentIndent
  contentPending := start.empty
  hasContent := false
  closed := false

/-- The kind of the list marker at a byte, its number, and the byte past it. -/
def marker? (text : Text) (place : Nat) :
    Except Fault (Option (ContainerKind × Option Nat × Nat)) :=
  match charAt? text place with
  | none => .ok none
  | some first =>
    if first ∈ ListKind.bullets then .ok (some (.list (.bulleted first), none, place + 1))
    else do
      let digits := ((← cutFrom text place).takeWhile Char.isDigit).length
      if digits = 0 ∨ ListKind.maxDigits < digits then .ok none
      else
        match charAt? text (place + digits) with
        | none => .ok none
        | some delimiter =>
          if delimiter ∈ ListKind.delimiters then do
            let number := Text.valueOf (← cut text place (place + digits))
            .ok (some (.list (.ordered number delimiter), some number, place + digits + 1))
          else .ok none

theorem marker?_eq {text : Text} {c : Cursor} (reaches : (Cursor.start text).Reaches c) :
    marker? text c.offset = .ok ((ListKind.marker? c.rest).map fun (kind, width) =>
      (.list kind, kind.number?, c.offset + width)) := by
  have digitsReach : c.Reaches (c.skip (c.rest.takeWhile Char.isDigit).length) := by
    refine Cursor.reaches_skip ?_ List.takeWhile_append_dropWhile.symm
    intro digit member
    exact plain_of_isDigit (List.mem_takeWhile_imp member)
  have delimiter := charAt?_reached (reaches.trans digitsReach)
  have number := cut_reached reaches digitsReach
  simp only [Cursor.skip, Cursor.upTo, Nat.add_sub_cancel_left, Text.take_length_takeWhile]
    at delimiter number
  unfold marker? ListKind.marker?
  rw [charAt?_reached reaches]
  cases same : c.rest with
  | nil => rfl
  | cons first rest =>
    dsimp only [List.head?_cons]
    split
    · rfl
    · rw [cutFrom_reached reaches, ok_bind, same]
      rw [same] at delimiter number
      split
      · rfl
      · rw [delimiter]
        cases (first :: rest).drop ((first :: rest).takeWhile Char.isDigit).length with
        | nil => rfl
        | cons sign after =>
          dsimp only [List.head?_cons]
          split
          · rw [number, ok_bind]
            rfl
          · rfl

def ofCursor (item : BlockLint.ItemStart) : ItemStart where
  kind := .list item.kind
  number := item.number?
  markerOffset := item.markerOffset
  markerEnd := item.markerEnd
  consumedEnd := item.consumedEnd
  contentIndent := item.contentIndent
  empty := item.empty

def find? (text : Text) (offset : Nat) : Except Fault (Option ItemStart) :=
  let place := offset + spacesAt text offset
  if codeIndent ≤ spacesAt text offset then .ok none
  else do
    match ← marker? text place with
    | none => .ok none
    | some (kind, number, markerEnd) =>
      let gap := spacesAt text markerEnd
      let width := markerEnd - offset
      let found (consumedEnd contentIndent : Nat) (empty : Bool) : ItemStart :=
        { kind, number, markerOffset := place, markerEnd, consumedEnd, contentIndent, empty }
      if isBlankFrom text markerEnd then .ok (some (found markerEnd (width + 1) true))
      else if gap = 0 then .ok none
      else if gap ≤ BlockLint.ItemStart.maxGap then
        .ok (some (found (markerEnd + gap) (width + gap) false))
      else .ok (some (found (markerEnd + 1) (width + 1) false))

theorem ofCursor_canInterruptParagraph (item : BlockLint.ItemStart) :
    (ofCursor item).canInterruptParagraph = item.canInterruptParagraph :=
  rfl

theorem find?_eq {text : Text} {c : Cursor} (reaches : (Cursor.start text).Reaches c) :
    find? text c.offset = .ok ((BlockLint.ItemStart.find? c).map ofCursor) := by
  have indented := Cursor.reaches_skip_spaces (Nat.le_refl c.indent)
  have marker := marker?_eq (reaches.trans indented)
  unfold find? BlockLint.ItemStart.find?
  simp only [spacesAt_reached reaches]
  split
  · rfl
  · simp only [Cursor.skip] at marker
    rw [marker, ok_bind]
    cases marked : ListKind.marker? (c.rest.drop c.indent) with
    | none => rfl
    | some found =>
      obtain ⟨kind, width⟩ := found
      obtain ⟨mark, rest, plain, same, length⟩ := ListKind.marker?_append marked
      subst length
      have past : (c.skip c.indent).rest = mark ++ rest := same
      have stop := reaches.trans (indented.trans (Cursor.reaches_skip plain past))
      rw [Cursor.skip_skip] at stop
      have gap : spacesAt text (c.offset + c.indent + mark.length) =
          Text.spaces (c.rest.drop (c.indent + mark.length)) := by
        rw [Nat.add_assoc]
        exact spacesAt_reached stop
      have blank : isBlankFrom text (c.offset + c.indent + mark.length) =
          Text.isBlank (c.rest.drop (c.indent + mark.length)) := by
        rw [Nat.add_assoc]
        exact isBlankFrom_reached stop
      have width : c.offset + c.indent + mark.length - c.offset = c.indent + mark.length := by
        omega
      simp only [Option.map_some, gap, blank, width]
      split
      · simp [ofCursor, BlockLint.ItemStart.number?, Nat.add_assoc]
      · split
        · rfl
        · split
          · simp [ofCursor, BlockLint.ItemStart.number?, Nat.add_assoc]
          · simp [ofCursor, BlockLint.ItemStart.number?, Nat.add_assoc]

end ItemStart

theorem cutFrom_spaces {text : Text} {count : Nat} (few : count ≤ Text.spaces text) :
    cutFrom text count = .ok (text.drop count) := by
  simpa [Cursor.skip] using cutFrom_reached (Cursor.reaches_skip_spaces (c := .start text) few)

theorem cutFrom_run {sign : Char} (plain : Text.Plain [sign]) (text : Text) :
    cutFrom text (text.takeWhile (· == sign)).length =
      .ok (text.drop (text.takeWhile (· == sign)).length) := by
  simpa [Cursor.skip] using cutFrom_reached (Cursor.reaches_skip_run plain (.start text))

def setextLevel? (rest : Text) : Except Fault (Option Nat) :=
  if codeIndent ≤ Text.spaces rest then .ok none
  else do
    match Text.dropTail (· == ' ') (← cutFrom rest (Text.spaces rest)) with
    | [] => .ok none
    | first :: body =>
      if first = '=' then .ok (if body.all (· == first) then some 1 else none)
      else if first = '-' then .ok (if body.all (· == first) then some 2 else none)
      else .ok none

theorem setextLevel?_eq (rest : Text) :
    setextLevel? rest = .ok (BlockLint.setextLevel? rest) := by
  unfold setextLevel? BlockLint.setextLevel?
  split
  · rfl
  · rw [cutFrom_spaces (Nat.le_refl _), ok_bind, Text.drop_spaces]
    cases Text.dropTail (· == ' ') (Text.dropSpaces rest) with
    | nil => rfl
    | cons first body =>
      dsimp only
      cases body.all (· == first) with
      | true =>
        repeat' split
        all_goals rfl
      | false => simp

def isThematicBreak (rest : Text) : Except Fault Bool :=
  if codeIndent ≤ Text.spaces rest then .ok false
  else do
    match ← cutFrom rest (Text.spaces rest) with
    | [] => .ok false
    | sign :: body =>
      .ok (breakSigns.contains sign && body.all (fun c => c == sign || c == ' ') &&
        minBreakSigns ≤ (sign :: body).count sign)

theorem isThematicBreak_eq (rest : Text) :
    isThematicBreak rest = .ok (BlockLint.isThematicBreak rest) := by
  unfold isThematicBreak BlockLint.isThematicBreak
  split
  · rfl
  · rw [cutFrom_spaces (Nat.le_refl _), ok_bind, Text.drop_spaces]
    cases Text.dropSpaces rest <;> rfl

def atxHeading? (rest : Text) : Except Fault (Option AtxHeading) :=
  let indent := Text.spaces rest
  if codeIndent ≤ indent then .ok none
  else do
    let body ← cutFrom rest indent
    let level := (body.takeWhile (· == '#')).length
    if level = 0 ∨ AtxHeading.maxLevel < level then .ok none
    else do
      let after ← cutFrom body level
      if !after.isEmpty && after.head? != some ' ' then .ok none
      else do
        let contentStart := indent + level + Text.spaces after
        let content ← cutFrom rest contentStart
        .ok (some { level, contentStart, text := AtxHeading.dropClosing content })

theorem atxHeading?_eq (rest : Text) :
    atxHeading? rest = .ok (AtxHeading.parse? rest) := by
  have hash : Text.Plain ['#'] := .cons (by decide) .nil
  have content := cutFrom_reached (AtxHeading.content_reaches (.start rest))
  simp only [Cursor.skip, Cursor.indent, Cursor.start_rest, Cursor.start_offset,
    Nat.zero_add] at content
  unfold atxHeading? AtxHeading.parse?
  dsimp only
  split
  · rfl
  · rw [cutFrom_spaces (Nat.le_refl _), ok_bind]
    split
    · rfl
    · rw [cutFrom_run hash, ok_bind]
      split
      · rfl
      · rw [content, ok_bind]

def fence? (rest : Text) : Except Fault (Option Fence) :=
  let indent := Text.spaces rest
  if codeIndent ≤ indent then .ok none
  else do
    match ← cutFrom rest indent with
    | [] => .ok none
    | char :: after =>
      let length := ((char :: after).takeWhile (· == char)).length
      if char != Fence.backtick && char != Fence.tilde then .ok none
      else if length < Fence.minLength then .ok none
      else do
        let tail ← cutFrom (char :: after) length
        let info := Text.dropTail (· == ' ') (Text.dropSpaces tail)
        if char == Fence.backtick && info.contains Fence.backtick then .ok none
        else .ok (some { char, length, indent, info })

theorem plain_of_isSign {char : Char} (isSign : char ≠ Fence.backtick → char = Fence.tilde) :
    Text.Plain [char] := by
  refine .cons ?_ .nil
  by_cases isTick : char = Fence.backtick
  · subst isTick
    decide
  · rw [isSign isTick]
    decide

theorem fence?_eq (rest : Text) : fence? rest = .ok (Fence.open? rest) := by
  unfold fence? Fence.open?
  dsimp only
  split
  · rfl
  · rw [cutFrom_spaces (Nat.le_refl _), ok_bind]
    cases rest.drop (Text.spaces rest) with
    | nil => rfl
    | cons char after =>
      dsimp only
      split
      · rfl
      · rename_i isSign
        have plain : Text.Plain [char] := plain_of_isSign (by simpa using isSign)
        split
        · rfl
        · rw [cutFrom_run plain, ok_bind]
          exact (apply_ite Except.ok _ _ _).symm

def closesFence (fence : Fence) (rest : Text) : Except Fault Bool :=
  if codeIndent ≤ Text.spaces rest then .ok false
  else do
    let body ← cutFrom rest (Text.spaces rest)
    let length := (body.takeWhile (· == fence.char)).length
    if length < fence.length then .ok false
    else do
      let tail ← cutFrom body length
      .ok (Text.isBlank tail)

theorem closesFence_eq {fence : Fence} (plain : Text.Plain [fence.char]) (rest : Text) :
    closesFence fence rest = .ok (fence.closes rest) := by
  unfold closesFence Fence.closes
  dsimp only
  split
  · rfl
  · rw [cutFrom_spaces (Nat.le_refl _), ok_bind, Text.drop_spaces]
    split
    · rename_i short
      simp [Nat.not_le_of_lt short]
    · rename_i long
      rw [cutFrom_run plain, ok_bind]
      simp [Nat.le_of_not_lt long]

def lineClass (rest : Text) (paragraphOpen : Bool) : Except Fault LineClass :=
  if Text.spaces rest = Text.size rest then .ok .blank
  else if codeIndent ≤ Text.spaces rest then .ok .indented
  else do
    match ← (if paragraphOpen then setextLevel? rest else .ok none) with
    | some level => .ok (.setextUnderline level)
    | none =>
      match ← atxHeading? rest with
      | some heading => .ok (.atxHeading heading)
      | none =>
        if ← isThematicBreak rest then .ok .thematicBreak
        else
          match ← fence? rest with
          | some fence => .ok (.fenceOpen fence)
          | none => .ok .text

theorem lineClass_eq (rest : Text) (paragraphOpen : Bool) :
    lineClass rest paragraphOpen = .ok (LineClass.of rest paragraphOpen) := by
  have blank : Text.spaces rest = Text.size rest ↔ Text.isBlank rest = true := by
    have some := (Text.spaces_le_length rest).trans (Text.length_le_size rest)
    rw [Text.isBlank_iff]
    omega
  have underline : (if paragraphOpen then setextLevel? rest else .ok none) =
      .ok (if paragraphOpen then BlockLint.setextLevel? rest else none) := by
    split
    · exact setextLevel?_eq rest
    · rfl
  unfold lineClass LineClass.of
  simp only [blank, underline, atxHeading?_eq, isThematicBreak_eq, fence?_eq, ok_bind]
  repeat' split
  all_goals simp_all

theorem setextLevel?_dropSpaces {rest : Text} (shallow : ¬ codeIndent ≤ Text.spaces rest) :
    BlockLint.setextLevel? (Text.dropSpaces rest) = BlockLint.setextLevel? rest := by
  have noSpaces : ¬ codeIndent ≤ 0 := by decide
  simp [BlockLint.setextLevel?, shallow, noSpaces, Text.spaces_dropSpaces,
    Text.dropSpaces_dropSpaces]

theorem isThematicBreak_dropSpaces {rest : Text} (shallow : ¬ codeIndent ≤ Text.spaces rest) :
    BlockLint.isThematicBreak (Text.dropSpaces rest) = BlockLint.isThematicBreak rest := by
  have noSpaces : ¬ codeIndent ≤ 0 := by decide
  simp [BlockLint.isThematicBreak, shallow, noSpaces, Text.spaces_dropSpaces,
    Text.dropSpaces_dropSpaces]

inductive Marker where
  | quote (after : Nat)
  | item (start : ItemStart)
deriving Repr, DecidableEq

namespace Marker

def stop : Marker → Nat
  | .quote after => after
  | .item start => start.consumedEnd

def next? (inParagraph : Bool) (text : Text) (offset : Nat) : Except Fault (Option Marker) :=
  if codeIndent ≤ spacesAt text offset then .ok none
  else do
    let rest ← cutFrom text (offset + spacesAt text offset)
    match ← (if inParagraph then setextLevel? rest else .ok none) with
    | some _ => .ok none
    | none =>
      if ← isThematicBreak rest then .ok none
      else
        match quoteMarker? text offset with
        | some after => .ok (some (.quote after))
        | none =>
          match ← ItemStart.find? text offset with
          | none => .ok none
          | some start =>
            if inParagraph && !start.canInterruptParagraph then .ok none
            else .ok (some (.item start))

def ofCursor : BlockLint.Marker → Marker
  | .quote _ after => .quote after.offset
  | .item _ found => .item (.ofCursor found)

theorem ofCursor_stop {marker : BlockLint.Marker} {c : Cursor} (read : marker.ReadAt c) :
    (ofCursor marker).stop = marker.past.offset := by
  cases marker with
  | quote start after => rfl
  | item start item =>
    have place := read.place
    have past := read.past
    cases read.start
    simp only [BlockLint.Marker.place, BlockLint.Marker.past, BlockLint.Marker.start,
      BlockLint.ItemStart.past, Cursor.skip] at place past ⊢
    change item.consumedEnd = _
    omega

/-- The marker at a byte is the first of those at the cursor there. -/
theorem next?_eq (inParagraph : Bool) {text : Text} {c : Cursor}
    (reaches : (Cursor.start text).Reaches c) :
    next? inParagraph text c.offset =
      .ok ((BlockLint.Marker.readAll inParagraph c).1.head?.map ofCursor) := by
  rw [BlockLint.Marker.readAll_eq]
  unfold next?
  simp only [spacesAt_reached reaches]
  split
  · rfl
  · rename_i shallow
    have rest : cutFrom text (c.offset + c.indent) = .ok (Text.dropSpaces c.rest) := by
      rw [← Text.drop_spaces]
      exact cutFrom_reached (reaches.trans (Cursor.reaches_skip_spaces (Nat.le_refl c.indent)))
    rw [rest, ok_bind, setextLevel?_eq, setextLevel?_dropSpaces shallow, isThematicBreak_eq,
      isThematicBreak_dropSpaces shallow, quoteMarker?_eq reaches, ItemStart.find?_eq reaches]
    have underline : (if inParagraph then .ok (BlockLint.setextLevel? c.rest) else .ok none :
        Except Fault _) = .ok (if inParagraph then BlockLint.setextLevel? c.rest else none) :=
      (apply_ite Except.ok _ _ _).symm
    have isUnderline : (inParagraph && (BlockLint.setextLevel? c.rest).isSome) =
        (if inParagraph then BlockLint.setextLevel? c.rest else none).isSome := by
      cases inParagraph <;> rfl
    rw [underline, isUnderline, ok_bind]
    cases if inParagraph then BlockLint.setextLevel? c.rest else none with
    | some level => rfl
    | none =>
      simp only [ok_bind, Option.isSome_none, Bool.false_eq_true, if_false]
      split
      · rfl
      · cases BlockLint.quoteMarker? c with
        | some after => rfl
        | none =>
          cases BlockLint.ItemStart.find? c with
          | none => rfl
          | some start =>
            simp only [Option.map_none, Option.map_some]
            rw [ItemStart.ofCursor_canInterruptParagraph]
            cases inParagraph && !start.canInterruptParagraph <;> rfl

end Marker

/-- The byte past a container's share of a line, if the line continues it. -/
def continue? (text : Text) (offset : Nat) : Frame → Option Nat
  | .blockQuote => quoteMarker? text offset
  | .list _ item =>
    let indent := spacesAt text offset
    if isBlankFrom text offset then some (offset + min indent item.contentIndent)
    else if !item.closed && item.contentIndent ≤ indent then some (offset + item.contentIndent)
    else none

def matchFrom (text : Text) (offset : Nat) : Containers → Nat × Nat
  | [] => (0, offset)
  | frame :: inner =>
    match continue? text offset frame with
    | none => (0, offset)
    | some next =>
      let (depth, stop) := matchFrom text next inner
      (depth + 1, stop)

theorem continue?_eq {text : Text} {c : Cursor} (reaches : (Cursor.start text).Reaches c)
    (frame : Frame) :
    continue? text c.offset frame = (frame.continue? c).map Cursor.offset := by
  cases frame with
  | blockQuote => exact quoteMarker?_eq reaches
  | list kind item =>
    simp only [continue?, Frame.continue?, ListItem.continue?, spacesAt_reached reaches,
      isBlankFrom_reached reaches]
    split
    · rfl
    · split <;> rfl

theorem matchFrom_eq {text : Text} {c : Cursor} (reaches : (Cursor.start text).Reaches c)
    (containers : Containers) :
    matchFrom text c.offset containers =
      ((containers.matchFrom c).depth, (containers.matchFrom c).cursor.offset) := by
  induction containers generalizing c with
  | nil => rfl
  | cons frame inner ih =>
    unfold matchFrom Containers.matchFrom
    rw [continue?_eq reaches]
    cases continues : frame.continue? c with
    | none => rfl
    | some next =>
      have reaches := reaches.trans (Frame.continue?_reaches continues)
      simp only [Option.map_some, ih reaches]

end Strict
end BlockLint
