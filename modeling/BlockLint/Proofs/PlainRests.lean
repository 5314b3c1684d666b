import BlockLint.Proofs.Strict.Recognizers

/-!
Rests of lines that are text. Two readers look at what is left of a line: one takes markers off it
as long as there are any, the other tells what kind of leaf the remainder belongs to. Together they
leave no gap: where the first stops and the second finds text, no block starts.
-/
namespace BlockLint

/-- No block quote, thematic break, heading or code fence starts at the cursor. -/
structure Cursor.Unmarked (c : Cursor) : Prop where
  noQuote : quoteMarker? c = none
  noBreak : isThematicBreak c.rest = false
  noHeading : AtxHeading.parse? c.rest = none
  noFence : Fence.open? c.rest = none

namespace LineClass

theorem of_eq_indented_iff {rest : Text} {paragraphOpen : Bool} :
    LineClass.of rest paragraphOpen = .indented ↔
      Text.isBlank rest = false ∧ codeIndent ≤ Text.spaces rest := by
  constructor
  · intro found
    refine ⟨?_, codeIndent_le found⟩
    cases blank : Text.isBlank rest with
    | false => rfl
    | true => simp [LineClass.of, blank] at found
  · rintro ⟨filled, deep⟩
    simp [LineClass.of, filled, deep]

theorem of_eq_text_iff {rest : Text} {paragraphOpen : Bool} :
    LineClass.of rest paragraphOpen = .text ↔
      Text.isBlank rest = false ∧ ¬ codeIndent ≤ Text.spaces rest ∧
        (paragraphOpen = true → setextLevel? rest = none) ∧ AtxHeading.parse? rest = none ∧
        isThematicBreak rest = false ∧ Fence.open? rest = none := by
  constructor
  · intro found
    unfold LineClass.of at found
    repeat' split at found
    all_goals simp_all
  · rintro ⟨filled, shallow, noUnderline, noHeading, noBreak, noFence⟩
    cases paragraphOpen <;>
      simp_all [LineClass.of]

theorem continuesParagraph_iff {lineClass : LineClass} :
    lineClass.continuesParagraph = true ↔ lineClass = .text ∨ lineClass = .indented := by
  cases lineClass <;> simp [continuesParagraph]

end LineClass

namespace Marker

/-- Why no marker is read. -/
theorem readAll_eq_nil_iff {inParagraph : Bool} {c : Cursor} :
    readAll inParagraph c = ([], c) ↔
      codeIndent ≤ c.indent ∨ (inParagraph = true ∧ (setextLevel? c.rest).isSome = true) ∨
        isThematicBreak c.rest = true ∨
        quoteMarker? c = none ∧ ∀ item, ItemStart.find? c = some item →
          inParagraph = true ∧ item.canInterruptParagraph = false := by
  rw [readAll_eq]
  by_cases deep : codeIndent ≤ c.indent
  · simp [deep]
  by_cases underline : (inParagraph && (setextLevel? c.rest).isSome) = true
  · obtain ⟨isInside, isUnderline⟩ := Bool.and_eq_true_iff.mp underline
    simp [deep, isInside, isUnderline]
  by_cases isBreak : isThematicBreak c.rest = true
  · simp [deep, underline, isBreak]
  rw [if_neg deep, if_neg underline, if_neg isBreak]
  cases quoteMarker? c with
  | some after => simp_all
  | none =>
    cases ItemStart.find? c with
    | none => simp
    | some item =>
      cases inParagraph <;> cases weak : item.canInterruptParagraph <;> simp_all

theorem readAll_last {inParagraph : Bool} {c last : Cursor} {first : Marker} {later : List Marker}
    (found : readAll inParagraph c = (first :: later, last)) :
    readAll false last = ([], last) := by
  have settled {after last : Cursor} {markers : List Marker}
      (same : readAll false after = (markers, last))
      (stops : markers = [] ∨ readAll false last = ([], last)) :
      readAll false last = ([], last) := by
    rcases stops with rfl | stops
    · cases readAll_nil same
      exact same
    · exact stops
  have stops (inParagraph : Bool) (c : Cursor) : (readAll inParagraph c).1 = [] ∨
      readAll false (readAll inParagraph c).2 = ([], (readAll inParagraph c).2) := by
    fun_induction readAll inParagraph c with
    | case4 inParagraph c deep underline isBreak after isQuote markers last same ih =>
      rw [same] at ih
      exact .inr (settled same ih)
    | case7 inParagraph c deep underline isBreak noQuote start isItem strong markers last same ih =>
      rw [same] at ih
      exact .inr (settled same ih)
    | _ => exact .inl rfl
  have either := stops inParagraph c
  rw [found] at either
  exact either.resolve_left (List.cons_ne_nil _ _)

end Marker

namespace Cursor

variable {c : Cursor}

/-- What is text for the reader of leaves, behind all markers, starts nothing else. Only under a
paragraph may it look like a list item, one that cannot interrupt the paragraph. -/
theorem unmarked_of_text {inParagraph : Bool} (stops : Marker.readAll inParagraph c = ([], c))
    (isText : LineClass.of c.rest inParagraph = .text) :
    c.Unmarked ∧ ∀ item, ItemStart.find? c = some item →
      inParagraph = true ∧ item.canInterruptParagraph = false := by
  obtain ⟨_, shallow, noUnderline, noHeading, noBreak, noFence⟩ :=
    LineClass.of_eq_text_iff.mp isText
  rcases Marker.readAll_eq_nil_iff.mp stops with deep | ⟨isInside, isUnderline⟩ | isBreak |
    ⟨noQuote, weak⟩
  · exact absurd deep shallow
  · simp [noUnderline isInside] at isUnderline
  · simp [noBreak] at isBreak
  · exact ⟨⟨noQuote, noBreak, noHeading, noFence⟩, weak⟩

/-- The rest goes on with a paragraph, even if its line does not continue all containers. -/
def GoesOn (c : Cursor) : Prop :=
  c.isBlank = false ∧ (codeIndent ≤ c.indent ∨ c.Unmarked ∧ ItemStart.find? c = none)

theorem goesOn_iff :
    c.GoesOn ↔ Marker.readAll false c = ([], c) ∧
      (LineClass.of c.rest false).continuesParagraph = true := by
  constructor
  · rintro ⟨filled, deep | ⟨unmarked, noItem⟩⟩
    · have indented : LineClass.of c.rest false = .indented :=
        LineClass.of_eq_indented_iff.mpr ⟨filled, deep⟩
      exact ⟨Marker.readAll_eq_nil_iff.mpr (.inl deep), by rw [indented]; rfl⟩
    · refine ⟨Marker.readAll_eq_nil_iff.mpr (.inr (.inr (.inr ⟨unmarked.noQuote, ?_⟩))), ?_⟩
      · intro item found
        simp [noItem] at found
      · by_cases deep : codeIndent ≤ c.indent
        · rw [LineClass.of_eq_indented_iff.mpr ⟨filled, deep⟩]
          rfl
        · rw [LineClass.of_eq_text_iff.mpr ⟨filled, deep, by simp, unmarked.noHeading,
            unmarked.noBreak, unmarked.noFence⟩]
          rfl
  · rintro ⟨stops, continues⟩
    rcases LineClass.continuesParagraph_iff.mp continues with isText | indented
    · obtain ⟨unmarked, weak⟩ := unmarked_of_text stops isText
      refine ⟨(LineClass.of_eq_text_iff.mp isText).1, .inr ⟨unmarked, ?_⟩⟩
      cases found : ItemStart.find? c with
      | none => rfl
      | some item => exact absurd (weak item found).1 Bool.false_ne_true
    · obtain ⟨filled, deep⟩ := LineClass.of_eq_indented_iff.mp indented
      exact ⟨filled, .inl deep⟩

end Cursor

section
variable {c : Cursor} (shallow : ¬ codeIndent ≤ c.indent)
include shallow

theorem quoteMarker?_dropSpaces :
    quoteMarker? (.start (Text.dropSpaces c.rest)) = none ↔ quoteMarker? c = none := by
  have flat : (Cursor.start (Text.dropSpaces c.rest)).indent = 0 := Text.spaces_dropSpaces c.rest
  have noSpaces : ¬ codeIndent ≤ 0 := by decide
  simp only [quoteMarker?, shallow, flat, noSpaces, if_false, Cursor.start_rest, List.drop_zero]
  rw [Cursor.indent, Text.drop_spaces]
  split <;> simp

theorem AtxHeading.parse?_dropSpaces :
    parse? (Text.dropSpaces c.rest) = none ↔ parse? c.rest = none := by
  have noSpaces : ¬ codeIndent ≤ 0 := by decide
  have isShallow : ¬ codeIndent ≤ Text.spaces c.rest := shallow
  simp only [parse?, isShallow, noSpaces, if_false, Text.spaces_dropSpaces, List.drop_zero,
    Text.drop_spaces]
  repeat' split
  all_goals simp

theorem Fence.open?_dropSpaces :
    open? (Text.dropSpaces c.rest) = none ↔ open? c.rest = none := by
  have noSpaces : ¬ codeIndent ≤ 0 := by decide
  have isShallow : ¬ codeIndent ≤ Text.spaces c.rest := shallow
  simp only [open?, isShallow, noSpaces, if_false, Text.spaces_dropSpaces, List.drop_zero,
    Text.drop_spaces]
  repeat' split
  all_goals simp

/-- Without its indent an item is found as well, of the same kind, and empty or not as before. -/
theorem ItemStart.find?_dropSpaces {item : ItemStart}
    (found : find? (.start (Text.dropSpaces c.rest)) = some item) :
    ∃ own, find? c = some own ∧ own.kind = item.kind ∧ own.empty = item.empty := by
  have flat : (Cursor.start (Text.dropSpaces c.rest)).indent = 0 := Text.spaces_dropSpaces c.rest
  have noSpaces : ¬ codeIndent ≤ 0 := by decide
  have behind (width : Nat) :
      c.rest.drop (c.indent + width) = (Text.dropSpaces c.rest).drop width := by
    rw [← List.drop_drop, Cursor.indent, Text.drop_spaces]
  have marker : ListKind.marker? (c.rest.drop c.indent) =
      ListKind.marker? (Text.dropSpaces c.rest) := by
    rw [Cursor.indent, Text.drop_spaces]
  simp only [find?, flat, noSpaces, if_false, Cursor.start_rest, List.drop_zero, Nat.zero_add]
    at found
  simp only [find?, shallow, if_false, behind, marker]
  split at found
  · cases found
  · rename_i kind width isMarker
    split at found
    · rename_i blank
      cases found
      exact ⟨_, if_pos blank, rfl, rfl⟩
    · rename_i filled
      rw [if_neg filled]
      split at found
      · cases found
      · rename_i gap
        rw [if_neg gap]
        split at found
        · rename_i narrow
          cases found
          exact ⟨_, if_pos narrow, rfl, rfl⟩
        · rename_i wide
          cases found
          exact ⟨_, if_neg wide, rfl, rfl⟩

theorem Cursor.Unmarked.dropSpaces (unmarked : c.Unmarked) :
    (Cursor.start (Text.dropSpaces c.rest)).Unmarked where
  noQuote := (quoteMarker?_dropSpaces shallow).mpr unmarked.noQuote
  noBreak := (Strict.isThematicBreak_dropSpaces shallow).trans unmarked.noBreak
  noHeading := (AtxHeading.parse?_dropSpaces shallow).mpr unmarked.noHeading
  noFence := (Fence.open?_dropSpaces shallow).mpr unmarked.noFence

end
end BlockLint
