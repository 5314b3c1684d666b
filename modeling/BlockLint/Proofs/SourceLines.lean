import BlockLint.Source
import Mathlib.Data.List.Induction

/-!
A document and its lines. Lines give the document back, their numbers count them, and a text
without tabs is its own expansion.
-/
namespace BlockLint

namespace Source

theorem flatten_prepend (c : Char) (lines : List Text) :
    (prepend c lines).flatten = c :: lines.flatten := by
  cases lines with
  | nil => rfl
  | cons first rest =>
    simp only [prepend]
    split <;> simp

theorem flatten_rawLines (text : Text) : (rawLines text).flatten = text := by
  induction text with
  | nil => rfl
  | cons c rest ih =>
    change (prepend c (rawLines rest)).flatten = c :: rest
    rw [flatten_prepend, ih]

/-- Texts each of which ends in its only newline. The last may have none, and then is not empty. -/
inductive Tiling : List Text → Prop where
  | nil : Tiling []
  | last {body : Text} : '\n' ∉ body → body ≠ [] → Tiling [body]
  | cons {body : Text} {rest : List Text} :
      '\n' ∉ body → Tiling rest → Tiling ((body ++ ['\n']) :: rest)

theorem rawLines_append {body text first : Text} {rest : List Text} (noNewline : '\n' ∉ body)
    (lines : rawLines text = first :: rest) :
    rawLines (body ++ text) = (body ++ first) :: rest := by
  induction body with
  | nil => exact lines
  | cons c body ih =>
    have differs : c ≠ '\n' := fun same => noNewline (same ▸ List.mem_cons_self)
    have later := ih fun member => noNewline (List.mem_cons_of_mem _ member)
    change prepend c (rawLines (body ++ text)) = _
    rw [later]
    exact if_neg differs

namespace Tiling

theorem behind {front first : Text} {rest : List Text} (noNewline : '\n' ∉ front)
    (tiling : Tiling (first :: rest)) : Tiling ((front ++ first) :: rest) := by
  cases tiling with
  | last noneInBody filled => exact .last (by simp [noNewline, noneInBody]) (by simp [filled])
  | cons noneInBody others =>
    rw [← List.append_assoc]
    exact .cons (by simp [noNewline, noneInBody]) others

theorem map_behind {front : Text} {lines : List Text} (noNewline : '\n' ∉ front)
    (tiling : Tiling lines) : Tiling (lines.map (front ++ ·)) := by
  induction tiling with
  | nil => exact .nil
  | last noneInBody filled => exact (Tiling.last noneInBody filled).behind noNewline
  | cons noneInBody _ ih => exact (Tiling.cons noneInBody ih).behind noNewline

/-- A text is cut in one way only. -/
theorem rawLines_flatten {lines : List Text} (tiling : Tiling lines) :
    rawLines lines.flatten = lines := by
  induction tiling with
  | nil => rfl
  | @last body noNewline filled =>
    have single : rawLines [body.getLast filled] = [[body.getLast filled]] := rfl
    have noneBefore : '\n' ∉ body.dropLast := fun member =>
      noNewline (List.dropLast_subset body member)
    have whole := rawLines_append noneBefore single
    rw [List.dropLast_concat_getLast filled] at whole
    simpa using whole
  | @cons body rest noNewline _ ih =>
    have newline : rawLines ('\n' :: rest.flatten) = ['\n'] :: rest := by
      change prepend '\n' (rawLines rest.flatten) = _
      rw [ih]
      cases rest <;> rfl
    rw [List.flatten_cons, List.append_assoc]
    exact rawLines_append noNewline newline

end Tiling

theorem rawLines_tiling (text : Text) : Tiling (rawLines text) := by
  induction text with
  | nil => exact .nil
  | cons c rest ih =>
    change Tiling (prepend c (rawLines rest))
    by_cases newline : c = '\n'
    · subst newline
      cases same : rawLines rest with
      | nil => exact .cons List.not_mem_nil .nil
      | cons first others => exact .cons List.not_mem_nil (same ▸ ih)
    · have noNewline : '\n' ∉ [c] := by simpa using Ne.symm newline
      cases same : rawLines rest with
      | nil => exact .last noNewline (by simp)
      | cons first others =>
        rw [prepend, if_neg newline]
        exact (same ▸ ih).behind noNewline

end Source

namespace Line

theorem splitEnding_append (raw : Text) : (splitEnding raw).1 ++ (splitEnding raw).2 = raw := by
  unfold splitEnding
  split
  · rename_i before same
    have whole := congrArg List.reverse same
    simp_all
  · rename_i before _ same
    have whole := congrArg List.reverse same
    simp_all
  · simp

theorem splitEnding_behind {front : Text} (noNewline : '\n' ∉ front) (noReturn : '\r' ∉ front)
    (raw : Text) :
    splitEnding (front ++ raw) = (front ++ (splitEnding raw).1, (splitEnding raw).2) := by
  obtain ⟨back, rfl⟩ : ∃ back, front = back.reverse := ⟨front.reverse, by simp⟩
  obtain ⟨tail, rfl⟩ : ∃ tail, raw = tail.reverse := ⟨raw.reverse, by simp⟩
  simp only [List.mem_reverse] at noNewline noReturn
  simp only [splitEnding, ← List.reverse_append, List.reverse_reverse]
  -- The ending is at most two characters, so these and what is left of the front decide.
  rcases tail with _ | ⟨c, _ | ⟨d, tail⟩⟩
  · cases back with
    | nil => rfl
    | cons c back =>
      simp only [List.nil_append]
      split <;> simp_all
  · cases back with
    | nil => rfl
    | cons d back =>
      simp only [List.cons_append, List.nil_append]
      split <;> split <;> simp_all
  · simp only [List.cons_append]
    by_cases newline : c = '\n'
    · subst newline
      by_cases isReturn : d = '\r'
      · subst isReturn
        simp
      · simp [isReturn]
    · simp [newline]

end Line

theorem Expansion.expandFrom_text (width seen column : Nat) {text : Text} (noTab : '\t' ∉ text) :
    (expandFrom width seen column text).text = text := by
  induction text generalizing seen column with
  | nil => rfl
  | cons c rest ih =>
    have isText : c ≠ '\t' := fun isTab => noTab (isTab ▸ List.mem_cons_self)
    simp only [expandFrom, isText, if_false, List.cons.injEq, true_and]
    exact ih _ _ fun inRest => noTab (List.mem_cons_of_mem _ inRest)

theorem Line.expanded_eq_text {line : Line} (noTab : '\t' ∉ line.text) :
    line.expanded = line.text :=
  Expansion.expandFrom_text _ _ _ noTab

namespace Source

theorem layOut_numbers (tabWidth number start : Nat) (raws : List Text) :
    (layOut tabWidth number start raws).map Line.number = List.range' number raws.length := by
  induction raws generalizing number start with
  | nil => rfl
  | cons raw rest ih => simp [layOut, ih, Line.ofRaw, List.range']

theorem layOut_texts (tabWidth number start : Nat) (raws : List Text) :
    (layOut tabWidth number start raws).map (fun line => line.text ++ line.ending) = raws := by
  induction raws generalizing number start with
  | nil => rfl
  | cons raw rest ih => simp [layOut, ih, Line.ofRaw, Line.splitEnding_append]

theorem layOut_spans (tabWidth number start : Nat) (raws : List Text) :
    ∀ line ∈ layOut tabWidth number start raws,
      line.span.stop = line.span.start + Text.size (line.text ++ line.ending) ∧
      ∃ before after, raws.flatten = before ++ (line.text ++ line.ending) ++ after ∧
        line.span.start = start + Text.size before := by
  induction raws generalizing number start with
  | nil => simp [layOut]
  | cons raw rest ih =>
    intro line isLine
    rcases List.mem_cons.mp isLine with rfl | later
    · have whole := Line.splitEnding_append raw
      refine ⟨?_, [], rest.flatten, ?_, rfl⟩
      · simp [Line.ofRaw, whole, -Text.size_append]
      · simp [Line.ofRaw, whole]
    · obtain ⟨stop, before, after, text, begin⟩ := ih _ _ line later
      refine ⟨stop, raw ++ before, after, ?_, ?_⟩
      · simp [text]
      · rw [begin, Text.size_append, Nat.add_assoc]

theorem numbers_nodup (text : Text) (tabWidth : Nat) :
    ((ofText text tabWidth).lines.map Line.number).Nodup := by
  rw [ofText, layOut_numbers]
  exact List.nodup_range'

theorem numbers_pairwise (text : Text) (tabWidth : Nat) :
    (ofText text tabWidth).lines.Pairwise fun earlier later => earlier.number < later.number := by
  have numbers := layOut_numbers tabWidth 1 0 (rawLines text)
  refine List.pairwise_map.mp (numbers ▸ ?_)
  exact List.pairwise_lt_range'

theorem line?_number {text : Text} {tabWidth : Nat} {line : Line}
    (isLine : line ∈ (ofText text tabWidth).lines) :
    (ofText text tabWidth).line? line.number = some line := by
  obtain ⟨index, found⟩ := List.mem_iff_getElem?.mp isLine
  have number := congrArg (·[index]?) (layOut_numbers tabWidth 1 0 (rawLines text))
  change ((ofText text tabWidth).lines.map Line.number)[index]? = _ at number
  rw [List.getElem?_map, found, Option.map_some] at number
  obtain ⟨_, same⟩ := List.getElem?_eq_some_iff.mp number.symm
  rw [List.getElem_range'] at same
  rw [← same, Nat.one_mul, Nat.add_comm, line?, found]

theorem flatMap_lines (text : Text) (tabWidth : Nat) :
    (ofText text tabWidth).lines.flatMap (fun line => line.text ++ line.ending) = text := by
  rw [List.flatMap, ofText, layOut_texts, flatten_rawLines]

theorem noTab_of_mem_lines {text : Text} {tabWidth : Nat} {line : Line} (noTab : '\t' ∉ text)
    (isLine : line ∈ (ofText text tabWidth).lines) : '\t' ∉ line.text := by
  intro isTab
  rw [← flatMap_lines text tabWidth] at noTab
  exact noTab (List.mem_flatMap.mpr ⟨line, isLine, List.mem_append_left _ isTab⟩)

theorem flatMap_expanded {text : Text} (tabWidth : Nat) (noTab : '\t' ∉ text) :
    (ofText text tabWidth).lines.flatMap (fun line => line.expanded ++ line.ending) = text := by
  have same : (ofText text tabWidth).lines.map (fun line => line.expanded ++ line.ending) =
      (ofText text tabWidth).lines.map fun line => line.text ++ line.ending :=
    List.map_congr_left fun line isLine => by
      rw [Line.expanded_eq_text (noTab_of_mem_lines noTab isLine)]
  have texts := flatMap_lines text tabWidth
  rwa [List.flatMap, ← same] at texts

end Source
end BlockLint
