import BlockLint.Proofs.Cursors
import BlockLint.Proofs.SourceLines
import Mathlib.Data.List.Forall2

/-!
Expanded text. It holds no tabs, the characters of the line and spaces, and every place in it has a
column. Expansion keeps the ending of a line apart from its text.
-/
namespace BlockLint

namespace Expansion

theorem mem_text {width seen column : Nat} {text : Text} {c : Char}
    (member : c ∈ (expandFrom width seen column text).text) : c = ' ' ∨ c ∈ text ∧ c ≠ '\t' := by
  induction text generalizing seen column with
  | nil => cases member
  | cons d rest ih =>
    unfold expandFrom at member
    split at member
    · rcases List.mem_append.mp member with filled | later
      · exact .inl (List.eq_of_mem_replicate filled)
      · exact (ih later).imp_right fun found => ⟨List.mem_cons_of_mem _ found.1, found.2⟩
    · rename_i isText
      rcases List.mem_cons.mp member with rfl | later
      · exact .inr ⟨List.mem_cons_self, isText⟩
      · exact (ih later).imp_right fun found => ⟨List.mem_cons_of_mem _ found.1, found.2⟩

theorem text_ne_nil {width : Nat} (seen column : Nat) {text : Text} (positive : 0 < width)
    (filled : text ≠ []) : (expandFrom width seen column text).text ≠ [] := by
  cases text with
  | nil => exact absurd rfl filled
  | cons c rest =>
    have fill := Nat.mod_lt seen positive
    unfold expandFrom
    split
    · simp only [ne_eq, List.append_eq_nil_iff, List.replicate_eq_nil_iff]
      omega
    · simp

theorem getLast?_of_text {width seen column : Nat} {text : Text} {c : Char} (positive : 0 < width)
    (last : (expandFrom width seen column text).text.getLast? = some c) (notSpace : c ≠ ' ') :
    text.getLast? = some c := by
  induction text generalizing seen column with
  | nil => cases last
  | cons d rest ih =>
    have later {seen' : Nat} (found :
        (expandFrom width seen' (column + 1) rest).text.getLast? = some c) :
        (d :: rest).getLast? = some c := by
      rw [List.getLast?_cons, ih found, Option.getD_some]
    unfold expandFrom at last
    split at last
    · rw [List.getLast?_append] at last
      cases found : (expandFrom width (seen + (width - seen % width)) (column + 1)
          rest).text.getLast? with
      | some e =>
        rw [found, Option.some_or] at last
        exact later (found.trans last)
      | none =>
        rw [found, Option.none_or] at last
        exact absurd (List.eq_of_mem_replicate (List.mem_of_getLast? last)) notSpace
    · rw [List.getLast?_cons] at last
      cases found : (expandFrom width (seen + 1) (column + 1) rest).text.getLast? with
      | some e =>
        rw [found, Option.getD_some] at last
        exact later (found.trans last)
      | none =>
        rw [found, Option.getD_none] at last
        have none : rest = [] := by
          by_contra some
          exact text_ne_nil _ _ positive some (List.getLast?_eq_none_iff.mp found)
        rw [none]
        exact last

/-- Each byte of the expanded text has a column, and the end has the one past the last. -/
theorem columns_size (width seen column : Nat) (text : Text) :
    (expandFrom width seen column text).columns[
      Text.size (expandFrom width seen column text).text]? = some (column + text.length) := by
  induction text generalizing seen column with
  | nil => rfl
  | cons c rest ih =>
    have pass (count size : Nat) (columns : List Nat) :
        (List.replicate count column ++ columns)[count + size]? = columns[size]? := by
      rw [List.getElem?_append_right (by simp)]
      simp
    have more : column + (c :: rest).length = column + 1 + rest.length := by
      simp only [List.length_cons]
      omega
    unfold expandFrom
    split
    · simp only [Text.size_append, (Text.replicate_plain _).size_eq_length, List.length_replicate,
        pass, ih, more]
    · simp only [Text.size_cons, pass, ih, more]

theorem columns_left (width seen column : Nat) {left right : Text} (noTab : '\t' ∉ left ++ right) :
    (expandFrom width seen column (left ++ right)).columns[Text.size left]? =
      some (column + left.length) := by
  induction left generalizing seen column with
  | nil =>
    cases right with
    | nil => rfl
    | cons c rest =>
      have isText : c ≠ '\t' := fun isTab => noTab (isTab ▸ List.mem_cons_self)
      obtain ⟨more, size⟩ := Nat.exists_eq_succ_of_ne_zero (Nat.ne_of_gt (Char.utf8Size_pos c))
      simp [expandFrom, isText, size, List.replicate_succ]
  | cons c left ih =>
    have isText : c ≠ '\t' := fun isTab => noTab (isTab ▸ List.mem_cons_self)
    have rest := ih (seen + 1) (column + 1) fun inRest => noTab (List.mem_cons_of_mem _ inRest)
    simp only [List.cons_append, expandFrom, isText, if_false, Text.size_cons, List.length_cons]
    rw [List.getElem?_append_right (by simp), List.length_replicate, Nat.add_sub_cancel_left, rest]
    congr 1
    omega

end Expansion

theorem mem_expandTabs {text : Text} {tabWidth : Nat} {c : Char}
    (member : c ∈ (expandTabs text tabWidth).text) : c = ' ' ∨ c ∈ text ∧ c ≠ '\t' :=
  Expansion.mem_text member

namespace Line

theorem position_size (line : Line) :
    line.position (Text.size line.expanded) = line.endPosition := by
  have last := Expansion.columns_size (max line.tabWidth 1) 0 1 line.text
  simp only [position, column, expanded, expansion, expandTabs, last, Option.getD_some,
    endPosition, endColumn, Nat.add_comm]

theorem column_left {line : Line} {left right : Text} (noTab : '\t' ∉ line.text)
    (same : line.text = left ++ right) : line.column (Text.size left) = left.length + 1 := by
  rw [same] at noTab
  have column := Expansion.columns_left (max line.tabWidth 1) 0 1 noTab
  simp only [Line.column, expansion, expandTabs, same, column, Option.getD_some, Nat.add_comm]

/-- A text and the ending with which it makes up a raw line. -/
inductive Ends (text : Text) : Text → Prop where
  | returned : Ends text ['\r', '\n']
  | newline : text.getLast? ≠ some '\r' → Ends text ['\n']
  | none : text.getLast? ≠ some '\n' → Ends text []

theorem ends_splitEnding (raw : Text) : Ends (splitEnding raw).1 (splitEnding raw).2 := by
  unfold splitEnding
  split
  · exact .returned
  · rename_i before notReturn same
    refine .newline fun last => ?_
    rw [List.getLast?_reverse] at last
    obtain ⟨rest, rfl⟩ := List.head?_eq_some_iff.mp last
    exact notReturn rest rfl
  · rename_i _ notNewline
    refine .none fun last => ?_
    rw [List.getLast?_eq_head?_reverse] at last
    obtain ⟨rest, same⟩ := List.head?_eq_some_iff.mp last
    exact notNewline rest same

theorem splitEnding_of_ends {text ending : Text} (ends : Ends text ending) :
    splitEnding (text ++ ending) = (text, ending) := by
  obtain ⟨back, rfl⟩ : ∃ back, text = back.reverse := ⟨text.reverse, by simp⟩
  cases ends with
  | returned => simp [splitEnding]
  | newline noReturn =>
    cases back with
    | nil => rfl
    | cons c back =>
      have notReturn : c ≠ '\r' := by simpa using noReturn
      simp [splitEnding, notReturn]
  | none noNewline =>
    cases back with
    | nil => rfl
    | cons c back =>
      have notNewline : c ≠ '\n' := by simpa using noNewline
      simp [splitEnding, notNewline]

theorem Ends.expandTabs {text ending : Text} (ends : Ends text ending) (tabWidth : Nat) :
    Ends (BlockLint.expandTabs text tabWidth).text ending := by
  have positive : 0 < max tabWidth 1 := by omega
  cases ends with
  | returned => exact .returned
  | newline noReturn =>
    exact .newline fun last => noReturn (Expansion.getLast?_of_text positive last (by decide))
  | none noNewline =>
    exact .none fun last => noNewline (Expansion.getLast?_of_text positive last (by decide))

end Line

namespace Source

def expandedText (source : Source) : Text :=
  source.lines.flatMap fun line => line.expanded ++ line.ending

def expandRaw (tabWidth : Nat) (raw : Text) : Text :=
  (expandTabs (Line.splitEnding raw).1 tabWidth).text ++ (Line.splitEnding raw).2

theorem expandedText_ofText (text : Text) (tabWidth : Nat) :
    (ofText text tabWidth).expandedText =
      ((rawLines text).map (expandRaw tabWidth)).flatten := by
  have lines (number start : Nat) (raws : List Text) :
      (layOut tabWidth number start raws).map (fun line => line.expanded ++ line.ending) =
        raws.map (expandRaw tabWidth) := by
    induction raws generalizing number start with
    | nil => rfl
    | cons raw rest ih => exact congrArg (expandRaw tabWidth raw :: ·) (ih _ _)
  rw [expandedText, List.flatMap, ofText, lines]

theorem Tiling.map_expandRaw {raws : List Text} (tiling : Tiling raws) (tabWidth : Nat) :
    Tiling (raws.map (expandRaw tabWidth)) := by
  have positive : 0 < max tabWidth 1 := by omega
  have noNewline {body : Text} (none : '\n' ∉ body) : '\n' ∉ (expandTabs body tabWidth).text := by
    intro member
    rcases mem_expandTabs member with space | ⟨member, _⟩
    · exact absurd space (by decide)
    · exact none member
  induction tiling with
  | nil => exact .nil
  | @last body none filled =>
    have ends : Line.Ends body [] := .none fun last => none (List.mem_of_getLast? last)
    have split := Line.splitEnding_of_ends ends
    rw [List.append_nil] at split
    have raw : expandRaw tabWidth body = (expandTabs body tabWidth).text := by
      simp [expandRaw, split]
    rw [List.map_singleton, raw]
    exact .last (noNewline none) (Expansion.text_ne_nil _ _ positive filled)
  | @cons body rest none _ ih =>
    have whole := Line.splitEnding_append (body ++ ['\n'])
    have ends := Line.ends_splitEnding (body ++ ['\n'])
    rw [List.map_cons, expandRaw]
    generalize Line.splitEnding (body ++ ['\n']) = cut at whole ends ⊢
    obtain ⟨text, ending⟩ := cut
    cases ends with
    | returned =>
      have split : text ++ ['\r'] = body := by
        apply (List.append_left_inj ['\n']).mp
        simpa using whole
      have noneInText : '\n' ∉ text := fun member => none (split ▸ List.mem_append_left _ member)
      have noneBefore : '\n' ∉ (expandTabs text tabWidth).text ++ ['\r'] := by
        simpa using noNewline noneInText
      simpa using Tiling.cons noneBefore ih
    | newline =>
      obtain rfl : text = body := List.append_cancel_right whole
      exact .cons (noNewline none) ih
    | none noLast =>
      simp only [List.append_nil] at whole
      simp [whole] at noLast

end Source

structure Line.Expanded (line line' : Line) : Prop where
  number : line'.number = line.number
  text : line'.text = line.expanded
  ending : line'.ending = line.ending

theorem Line.Expanded.noTab {line line' : Line} (same : line.Expanded line') :
    '\t' ∉ line'.text := by
  intro isTab
  rw [same.text] at isTab
  rcases mem_expandTabs isTab with space | ⟨_, notTab⟩
  · exact absurd space (by decide)
  · exact notTab rfl

namespace Source

theorem layOut_expandRaw (tabWidth tabWidth' number start start' : Nat) (raws : List Text) :
    List.Forall₂ Line.Expanded (layOut tabWidth number start raws)
      (layOut tabWidth' number start' (raws.map (expandRaw tabWidth))) := by
  induction raws generalizing number start start' with
  | nil => exact .nil
  | cons raw rest ih =>
    have split : Line.splitEnding (expandRaw tabWidth raw) = _ :=
      Line.splitEnding_of_ends ((Line.ends_splitEnding raw).expandTabs tabWidth)
    refine .cons ⟨rfl, ?_, ?_⟩ (ih _ _ _)
    · simp only [Line.ofRaw, split, Line.expanded, Line.expansion]
    · simp only [Line.ofRaw, split]

theorem lines_expandedText (text : Text) (tabWidth tabWidth' : Nat) :
    List.Forall₂ Line.Expanded (ofText text tabWidth).lines
      (ofText (ofText text tabWidth).expandedText tabWidth').lines := by
  have raws := ((rawLines_tiling text).map_expandRaw tabWidth).rawLines_flatten
  rw [expandedText_ofText]
  unfold ofText
  rw [raws]
  exact layOut_expandRaw tabWidth tabWidth' 1 0 0 (rawLines text)

end Source
end BlockLint
