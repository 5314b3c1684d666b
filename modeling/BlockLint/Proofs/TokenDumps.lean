import BlockLint.Proofs.LintRuns
import BlockLint.Proofs.OneLineTokens
import BlockLint.Proofs.Paths
import BlockLint.Proofs.RoundTrip

/-!
Tokens of several files as text. Each file's part of the output has the lines that it should have,
the path and then one line for each token. But no newline ends the part, so the next path stands on
the line of the last token. The output is made of these lines only if no file but the last has
tokens.
-/
namespace BlockLint

namespace Text

/-- The lines of a text. A newline at the end starts no further line. -/
def lines (text : Text) : List Text :=
  let parts := split '\n' text
  if parts.getLast? = some [] then parts.dropLast else parts

theorem lines_cons (c : Char) (rest : Text) :
    lines (c :: rest) =
      if c = '\n' then [] :: lines rest
      else (c :: (lines rest).headD []) :: (lines rest).tail := by
  have parts : split '\n' (c :: rest) = prependPart '\n' c (split '\n' rest) := rfl
  unfold lines
  rw [parts]
  cases found : split '\n' rest with
  | nil => exact absurd found (split_ne_nil _ _)
  | cons part others =>
    by_cases isEnd : c = '\n'
    · simp only [prependPart, isEnd, if_true, List.getLast?_cons_cons, List.dropLast_cons_cons]
      split <;> rfl
    · cases others with
      | nil => cases part <;> simp [prependPart, isEnd]
      | cons next others =>
        simp only [prependPart, isEnd, if_false, List.getLast?_cons_cons, List.dropLast_cons_cons]
        split <;> rfl

theorem lines_ne_nil {text : Text} (filled : text ≠ []) : lines text ≠ [] := by
  cases text with
  | nil => exact absurd rfl filled
  | cons c rest =>
    rw [lines_cons]
    split <;> exact List.cons_ne_nil _ _

theorem lines_append_newline {line : Text} (oneLine : line.OneLine) (rest : Text) :
    lines (line ++ '\n' :: rest) = line :: lines rest := by
  induction line with
  | nil => rw [List.nil_append, lines_cons, if_pos rfl]
  | cons c line ih =>
    have differ : c ≠ '\n' := fun same => oneLine (same ▸ List.mem_cons_self)
    have later := ih fun member => oneLine (List.mem_cons_of_mem c member)
    rw [List.cons_append, lines_cons, if_neg differ, later]
    rfl

theorem lines_of_oneLine {line : Text} (oneLine : line.OneLine) (filled : line ≠ []) :
    lines line = [line] := by
  induction line with
  | nil => exact absurd rfl filled
  | cons c rest ih =>
    have differ : c ≠ '\n' := fun same => oneLine (same ▸ List.mem_cons_self)
    rw [lines_cons, if_neg differ]
    cases rest with
    | nil => rfl
    | cons d rest =>
      rw [ih (fun member => oneLine (List.mem_cons_of_mem c member)) (List.cons_ne_nil _ _)]
      rfl

theorem length_lines_append_le (left right : Text) :
    (lines (left ++ right)).length ≤ (lines left).length + (lines right).length := by
  induction left with
  | nil => exact Nat.le_add_left _ _
  | cons c left ih =>
    rw [List.cons_append, lines_cons, lines_cons]
    split
    · simp only [List.length_cons]
      omega
    · simp only [List.length_cons, List.length_tail]
      omega

/-- A text that does not end its last line shares this line with what follows. -/
theorem length_lines_glued {line right : Text} (oneLine : line.OneLine) (filled : line ≠ [])
    (follows : right ≠ []) : (lines (line ++ right)).length = (lines right).length := by
  have some := List.length_pos_of_ne_nil (lines_ne_nil follows)
  induction line with
  | nil => exact absurd rfl filled
  | cons c rest ih =>
    have differ : c ≠ '\n' := fun same => oneLine (same ▸ List.mem_cons_self)
    rw [List.cons_append, lines_cons, if_neg differ, List.length_cons, List.length_tail]
    cases rest with
    | nil => exact Nat.sub_add_cancel some
    | cons d rest =>
      rw [ih (fun member => oneLine (List.mem_cons_of_mem c member)) (List.cons_ne_nil _ _)]
      exact Nat.sub_add_cancel some

end Text

section
variable {texts : List Text} (oneLine : ∀ text ∈ texts, text.OneLine ∧ text ≠ [])
include oneLine

theorem Text.lines_join : Text.lines (Text.join ['\n'] texts) = texts := by
  induction texts with
  | nil => rfl
  | cons text rest ih =>
    obtain ⟨single, filled⟩ := oneLine text List.mem_cons_self
    have later := ih fun other member => oneLine other (List.mem_cons_of_mem _ member)
    cases rest with
    | nil =>
      exact (congrArg lines (List.append_nil text)).trans (lines_of_oneLine single filled)
    | cons next rest =>
      exact (lines_append_newline single _).trans (congrArg (text :: ·) later)

theorem Text.length_lines_join_glued {right : Text} (some : texts ≠ []) (follows : right ≠ []) :
    (Text.lines (Text.join ['\n'] texts ++ right)).length + 1 =
      texts.length + (Text.lines right).length := by
  induction texts with
  | nil => exact absurd rfl some
  | cons text rest ih =>
    obtain ⟨single, filled⟩ := oneLine text List.mem_cons_self
    cases rest with
    | nil =>
      have join : Text.join ['\n'] [text] = text := List.append_nil text
      rw [join, length_lines_glued single filled follows, List.length_singleton, Nat.add_comm]
    | cons next rest =>
      have later := ih (fun other member => oneLine other (List.mem_cons_of_mem _ member))
        (List.cons_ne_nil _ _)
      have join : Text.join ['\n'] (text :: next :: rest) ++ right =
          text ++ '\n' :: (Text.join ['\n'] (next :: rest) ++ right) := by
        simp [Text.join, List.intercalate]
      rw [join, lines_append_newline single]
      simp only [List.length_cons] at later ⊢
      omega

end

theorem Token.display_ne_nil (token : Token) : token.display ≠ [] :=
  List.cons_ne_nil _ _

def FilePath.header (path : FilePath) : Text :=
  "==> " ++ path ++ " <=="

theorem FilePath.oneLine_header {path : FilePath} (oneLine : Text.OneLine path) :
    (header path).OneLine :=
  ((Text.oneLine_of_all rfl).append oneLine).append (Text.oneLine_of_all rfl)

namespace Token

/-- The lines that show the tokens of a file, below its path if there are `many` files. -/
def shownLines (many : Bool) (path : FilePath) (tokens : List Token) : List Text :=
  (if many then [FilePath.header path] else []) ++ tokens.map display

def shown (path : FilePath) (tokens : List Token) : Text :=
  FilePath.header path ++ '\n' :: dump tokens

section
variable {path : FilePath} (onePath : Text.OneLine path) {tokens : List Token}
  (oneLine : ∀ token ∈ tokens, token.display.OneLine)
include oneLine

theorem oneLine_displays : ∀ text ∈ tokens.map display, text.OneLine ∧ text ≠ [] := by
  intro text member
  obtain ⟨token, isToken, rfl⟩ := List.mem_map.mp member
  exact ⟨oneLine token isToken, token.display_ne_nil⟩

theorem lines_dump : Text.lines (dump tokens) = tokens.map display :=
  Text.lines_join (oneLine_displays oneLine)

include onePath

theorem lines_shown : Text.lines (shown path tokens) = shownLines true path tokens := by
  rw [shown, Text.lines_append_newline (FilePath.oneLine_header onePath), lines_dump oneLine]
  rfl

/-- Behind the tokens of a file, further text goes on with the line of the last one. -/
theorem length_lines_shown_append (some : tokens ≠ []) (follows : Text) (filled : follows ≠ []) :
    (Text.lines (shown path tokens ++ follows)).length + 1 =
      (shownLines true path tokens).length + (Text.lines follows).length := by
  have glued := Text.length_lines_join_glued (oneLine_displays oneLine)
    (fun none => some (List.map_eq_nil_iff.mp none)) filled
  have below : (Text.lines (dump tokens ++ follows)).length + 1 =
      tokens.length + (Text.lines follows).length := by
    simpa [dump] using glued
  have front : shown path tokens ++ follows =
      FilePath.header path ++ '\n' :: (dump tokens ++ follows) := by
    simp [shown]
  rw [front, Text.lines_append_newline (FilePath.oneLine_header onePath)]
  simp only [shownLines, List.length_cons, List.length_append, List.length_map, if_true,
    List.length_nil]
  omega

end

section
variable {tokens : FilePath → List Token}

theorem shown_ne_nil (path : FilePath) (tokens : List Token) : shown path tokens ≠ [] :=
  List.cons_ne_nil _ _

theorem length_lines_flatMap_shown_le {files : List FilePath}
    (onePath : ∀ path ∈ files, Text.OneLine path)
    (oneLine : ∀ path, ∀ token ∈ tokens path, token.display.OneLine) :
    (Text.lines (files.flatMap fun path => shown path (tokens path))).length ≤
      (files.flatMap fun path => shownLines true path (tokens path)).length := by
  induction files with
  | nil => exact Nat.le_refl _
  | cons path rest ih =>
    obtain ⟨ofPath, ofRest⟩ := List.forall_mem_cons.mp onePath
    have later := ih ofRest
    have together := Text.length_lines_append_le (shown path (tokens path))
      (rest.flatMap fun path => shown path (tokens path))
    rw [lines_shown ofPath (oneLine path)] at together
    simp only [List.flatMap_cons, List.length_append] at together later ⊢
    omega

/-- They have just the lines that they should if all tokens are those of the last file. -/
theorem lines_flatMap_shown_iff {files : List FilePath}
    (onePath : ∀ path ∈ files, Text.OneLine path)
    (oneLine : ∀ path, ∀ token ∈ tokens path, token.display.OneLine) :
    Text.lines (files.flatMap fun path => shown path (tokens path)) =
        files.flatMap (fun path => shownLines true path (tokens path)) ↔
      ∀ path ∈ files.dropLast, tokens path = [] := by
  induction files with
  | nil => simp [Text.lines, Text.split]
  | cons path rest ih =>
    obtain ⟨ofPath, ofRest⟩ := List.forall_mem_cons.mp onePath
    cases rest with
    | nil => simpa using lines_shown ofPath (oneLine path)
    | cons next rest =>
      have atMost := length_lines_flatMap_shown_le ofRest oneLine
      have filled : (next :: rest).flatMap (fun path => shown path (tokens path)) ≠ [] := by
        simp [shown_ne_nil]
      rw [List.dropLast_cons_cons, List.forall_mem_cons, ← ih ofRest,
        List.flatMap_cons (x := path), List.flatMap_cons (x := path)]
      revert atMost filled
      generalize (next :: rest).flatMap (fun path => shown path (tokens path)) = follows
      generalize (next :: rest).flatMap (fun path => shownLines true path (tokens path)) = expected
      intro atMost filled
      by_cases none : tokens path = []
      · have only : shown path [] ++ follows = FilePath.header path ++ '\n' :: follows := by
          simp [shown, dump, Text.join]
        rw [none, only, Text.lines_append_newline (FilePath.oneLine_header ofPath)]
        simp [shownLines]
      · have glued := length_lines_shown_append ofPath (oneLine path) none follows filled
        constructor
        · intro same
          have sameLength := congrArg List.length same
          rw [List.length_append] at sameLength
          omega
        · rintro ⟨isNone, _⟩
          exact absurd isNone none

end
end Token

/-- Only an empty document has no tokens. -/
theorem tokenize_eq_nil_iff {text : Text} {tabWidth : Nat} :
    tokenize text tabWidth = [] ↔ text = [] := by
  constructor
  · intro none
    obtain ⟨cuts, shared, areCuts, _⟩ :=
      Tokenizer.run_led _ (Source.numbers_nodup text tabWidth)
    have texts := shared.flatMap_sourceText fun _ => true
    rw [List.filter_eq_self.mpr fun _ _ => rfl, List.filter_eq_self.mpr fun _ _ => rfl,
      Tokenizer.flatMap_cuts areCuts] at texts
    change (tokenize text tabWidth).flatMap Token.sourceText = _ at texts
    rw [none] at texts
    rw [← Source.flatMap_lines text tabWidth]
    apply List.flatMap_eq_nil_iff.mpr
    intro line isLine
    obtain ⟨noText, noEnding⟩ := List.append_eq_nil_iff.mp
      (List.flatMap_eq_nil_iff.mp texts.symm line isLine)
    rw [noEnding, List.append_nil]
    by_contra filled
    exact Expansion.text_ne_nil 0 1 (Nat.le_max_right line.tabWidth 1) filled noText
  · rintro rfl
    rfl

namespace World

section
variable {world : World} {options : Options} {settings : Settings} {files : List FilePath}

theorem view_tokens (noHtml : options.showHtml = false) (format : options.format = .text)
    (tabWidth : Nat) (many : Bool) (path : FilePath) (text : Text) :
    view options tabWidth many path text =
      if many then Token.shown path (tokenize text tabWidth)
      else Token.dump (tokenize text tabWidth) := by
  have ending : " <==\n".toList = " <==".toList ++ ['\n'] := rfl
  cases many with
  | false => simp [view, noHtml, format]
  | true => simp [view, noHtml, format, Token.shown, FilePath.header, ending]

theorem select_of_sorted {paths : List FilePath} {ignore : IgnoreSet}
    (isIgnore : settings.ignoreSet = .ok ignore)
    (all : ∀ path ∈ paths, (world.files.entry? path).isSome = true)
    (own : paths.flatMap world.files.filesOf = paths)
    (sorted : paths.Pairwise fun a b => SortKey.le (FilePath.key a) (FilePath.key b) = true)
    (distinct : FilePath.dropRepeats paths = paths)
    (kept : paths.filter (!ignore.ignores ·) = paths) :
    world.select settings paths = .ok paths := by
  have inOrder : FilePath.sort paths = paths := List.mergeSort_of_pairwise sorted
  refine select_eq_ok_iff.mpr ⟨ignore, paths, isIgnore, ?_, kept.symm⟩
  rw [FileSystem.collect_of_isSome all, own, inOrder, distinct]

theorem run_tokens {texts : FilePath → Text} (showTokens : options.showTokens = true)
    (merged : world.settings options = .ok settings)
    (selected : world.select settings options.paths = .ok files)
    (readable : ∀ path ∈ files, world.files.textAt path = .ok (texts path)) :
    ∃ outcome, world.run options = .ok outcome ∧ outcome.status = .clean ∧ outcome.errors = [] ∧
      outcome.output = files.flatMap fun path =>
        view options settings.tabWidth (decide (1 < files.length)) path (texts path) := by
  have ran : world.run options = .ok (world.inspect options settings.tabWidth files) := by
    simp [run, merged, selected, showTokens]
  have errors : (world.inspect options settings.tabWidth files).errors = [] := by
    apply List.flatMap_eq_nil_iff.mpr
    intro path isFile
    simp only [readable path isFile]
  have status : (world.inspect options settings.tabWidth files).status =
      ExitStatus.ofRun (!(world.inspect options settings.tabWidth files).errors.isEmpty) false :=
    rfl
  rw [errors] at status
  refine ⟨_, ran, status, errors, ?_⟩
  apply List.flatMap_congr
  intro path isFile
  simp only [readable path isFile]

end

/-- A run that shows the tokens of files writes them one after another. Each file's part has the
lines that it should have, and the output has them exactly if all files but the last are empty. -/
theorem run_tokens_lines_iff {world : World} {options : Options} {settings : Settings}
    {files : List FilePath} {texts : FilePath → Text} (showTokens : options.showTokens = true)
    (noHtml : options.showHtml = false) (format : options.format = .text)
    (merged : world.settings options = .ok settings)
    (selected : world.select settings options.paths = .ok files)
    (readable : ∀ path ∈ files, world.files.textAt path = .ok (texts path))
    (onePath : ∀ path ∈ files, '\n' ∉ path) :
    let many := decide (1 < files.length)
    let shown := fun path => view options settings.tabWidth many path (texts path)
    let lines := fun path => Token.shownLines many path (tokenize (texts path) settings.tabWidth)
    ∃ outcome, world.run options = .ok outcome ∧ outcome.status = .clean ∧ outcome.errors = [] ∧
      outcome.output = files.flatMap shown ∧
      (∀ path ∈ files, Text.lines (shown path) = lines path) ∧
      (Text.lines outcome.output = files.flatMap lines ↔
        ∀ path ∈ files.dropLast, texts path = []) := by
  intro many shown lines
  have oneLine := fun path => tokenize_oneLine (texts path) settings.tabWidth
  have parts : ∀ path ∈ files, Text.lines (shown path) = lines path := by
    intro path isFile
    simp only [shown, lines, view_tokens noHtml format]
    cases many with
    | false => exact Token.lines_dump (oneLine path)
    | true => exact Token.lines_shown (onePath path isFile) (oneLine path)
  obtain ⟨outcome, ran, status, errors, output⟩ :=
    run_tokens showTokens merged selected readable
  refine ⟨outcome, ran, status, errors, output, parts, ?_⟩
  rw [output]
  by_cases several : 1 < files.length
  · have isMany : many = true := decide_eq_true several
    have whole := Token.lines_flatMap_shown_iff onePath oneLine
    simp only [tokenize_eq_nil_iff] at whole
    simpa only [lines, view_tokens noHtml format, isMany, decide_eq_true several, if_true]
      using whole
  · have noneBefore : files.dropLast = [] :=
      List.eq_nil_of_length_eq_zero (by rw [List.length_dropLast]; omega)
    have all : Text.lines (files.flatMap shown) = files.flatMap lines := by
      rcases files with _ | ⟨path, _ | ⟨next, rest⟩⟩
      · rfl
      · simpa using parts path List.mem_cons_self
      · simp at several
    simp [noneBefore, all, shown, many]

/-- Behind an empty file, the tokens of another stand on lines of their own. -/
theorem run_tokens_lines_iff_empty :
    let root : Entry := .folder [("a.md", .file "".toUTF8), ("b.md", .file "x".toUTF8)]
    let world : World := ⟨⟨root, []⟩, ⟨[]⟩⟩
    let options : Options := { paths := ["a.md", "b.md"], showTokens := true }
    world.select {} options.paths = .ok options.paths ∧
      ∃ outcome, world.run options = .ok outcome ∧ Text.lines outcome.output =
        ["==> a.md <==", "==> b.md <==", "[1:1] start-para", "[1:1] text(\"x\") \"x\"",
          "[1:2] end-para:forced"] := by
  intro root world options
  let texts (path : FilePath) : Text := if path = "a.md".toList then [] else ['x']
  have merged : world.settings options = .ok {} := by decide +kernel
  have selected : world.select {} options.paths = .ok options.paths :=
    select_of_sorted rfl (by decide +kernel) (by decide +kernel) (by decide +kernel)
      (by decide +kernel) (by decide +kernel)
  have readable : ∀ path ∈ options.paths, world.files.textAt path = .ok (texts path) := by
    decide +kernel
  obtain ⟨outcome, ran, _, _, _, _, lines⟩ :=
    run_tokens_lines_iff rfl rfl rfl merged selected readable (by decide +kernel)
  exact ⟨selected, outcome, ran, (lines.mpr (by decide +kernel)).trans (by decide +kernel)⟩

/-- The path of a second file stands on the line of the first one's last token. -/
theorem run_tokens_header_glued :
    let root : Entry := .folder [("a.md", .file "x".toUTF8), ("b.md", .file "y".toUTF8)]
    let world : World := ⟨⟨root, []⟩, ⟨[]⟩⟩
    let options : Options := { paths := ["a.md", "b.md"], showTokens := true }
    world.select {} options.paths = .ok options.paths ∧
      world.files.textAt "a.md" = .ok "x" ∧ world.files.textAt "b.md" = .ok "y" ∧
      ∃ outcome, world.run options = .ok outcome ∧
        Text.lines outcome.output =
          ["==> a.md <==", "[1:1] start-para", "[1:1] text(\"x\") \"x\"",
            "[1:2] end-para:forced==> b.md <==", "[1:1] start-para", "[1:1] text(\"y\") \"y\"",
            "[1:2] end-para:forced"] ∧
        Text.lines outcome.output ≠
          Token.shownLines true "a.md" (tokenize "x" 4) ++
            Token.shownLines true "b.md" (tokenize "y" 4) := by
  intro root world options
  let texts (path : FilePath) : Text := if path = "a.md".toList then ['x'] else ['y']
  have merged : world.settings options = .ok {} := by decide +kernel
  have selected : world.select {} options.paths = .ok options.paths :=
    select_of_sorted rfl (by decide +kernel) (by decide +kernel) (by decide +kernel)
      (by decide +kernel) (by decide +kernel)
  have readable : ∀ path ∈ options.paths, world.files.textAt path = .ok (texts path) := by
    decide +kernel
  obtain ⟨outcome, ran, _, _, output⟩ := run_tokens rfl merged selected readable
  refine ⟨selected, by decide +kernel, by decide +kernel, outcome, ran, ?_⟩
  rw [output]
  decide +kernel

end World
end BlockLint
