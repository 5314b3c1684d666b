import BlockLint.Proofs.Paths
import BlockLint.Proofs.TomlStrings
import BlockLint.Proofs.WrittenFiles
import BlockLint.Settings

/-!
Settings that are saved load as they were. Each value of the document reads back up to the
character that follows it, so the lines of the document do, and loading changes nothing of
settings that pass the check and have nothing to expand.
-/
namespace BlockLint

namespace Toml

open Settings (writeItem writeList writeField)

inductive Ends : Text → Prop where
  | comma (rest : Text) : Ends (',' :: rest)
  | bracket (rest : Text) : Ends (']' :: rest)
  | feed (rest : Text) : Ends ('\n' :: rest)

def gaps : List Char :=
  ['\t', '\n', '\r', ' ', '#', ']']

theorem not_mem_gaps {p : Char → Bool} {c : Char} (holds : p c = true)
    (fails : gaps.all (!p ·) = true) : c ∉ gaps := by
  intro member
  have none := List.all_eq_true.mp fails c member
  simp [holds] at none

theorem skipTrivia_of_not_mem {c : Char} (visible : c ∉ gaps) (rest : Text) :
    skipTrivia false (c :: rest) = some (c :: rest) := by
  simp_all [gaps, skipTrivia, isBreak, isBlankChar]

theorem skipBlanks_of_not_mem {c : Char} (visible : c ∉ gaps) (rest : Text) :
    skipBlanks (c :: rest) = c :: rest := by
  simp_all [gaps, skipBlanks, isBlankChar]

/-- The text stands for the value, whatever ends it. -/
structure Reads (depth : Nat) (written : Text) (value : Value) : Prop where
  starts : ∃ c body, written = c :: body ∧ c ∉ gaps
  read : ∀ rest, Ends rest → readValue depth (written ++ rest) = some (value, rest)

section
variable {depth : Nat} {written : Text} {value : Value} (reads : Reads depth written value)
include reads

theorem Reads.skipTrivia_eq (rest : Text) :
    skipTrivia false (written ++ rest) = some (written ++ rest) := by
  obtain ⟨c, body, rfl, visible⟩ := reads.starts
  exact skipTrivia_of_not_mem visible _

theorem Reads.skipBlanks_eq (rest : Text) : skipBlanks (written ++ rest) = written ++ rest := by
  obtain ⟨c, body, rfl, visible⟩ := reads.starts
  exact skipBlanks_of_not_mem visible _

theorem Reads.head?_ne (rest : Text) : (written ++ rest).head? ≠ some ']' := by
  obtain ⟨c, body, rfl, visible⟩ := reads.starts
  simp_all [gaps]

end

theorem exists_writeString (text : Text) :
    ∃ quote body, writeString text = quote :: body ∧ (quote = '"' ∨ quote = '\'') := by
  unfold writeString
  cases StringForm.choose text with
  | basic => exact ⟨_, _, rfl, .inl rfl⟩
  | literal => exact ⟨_, _, rfl, .inr rfl⟩
  | longBasic => exact ⟨_, _, rfl, .inl rfl⟩
  | longLiteral => exact ⟨_, _, rfl, .inr rfl⟩

theorem reads_writeString (depth : Nat) (text : Text) :
    Reads depth (writeString text) (.string text) := by
  obtain ⟨quote, body, shape, isQuote⟩ := exists_writeString text
  constructor
  · refine ⟨quote, body, shape, ?_⟩
    rcases isQuote with rfl | rfl <;> decide
  · intro rest ends
    have read : readString (writeString text ++ rest) = some (text, rest) := by
      apply readString_writeString <;> cases ends <;> simp
    rw [shape, List.cons_append] at read ⊢
    rcases isQuote with rfl | rfl <;> simp [readValue, read]

section
variable {α : Type} {item : Text → Option (α × Text)} {fuel : Nat} {text start after rest : Text}
  {first : α}

theorem readItems_close (skipped : skipTrivia false text = some (']' :: rest)) :
    readItems ']' item (fuel + 1) text = some ([], rest) := by
  simp [readItems, skipped]

theorem readItems_last (skipped : skipTrivia false text = some start)
    (more : start.head? ≠ some ']') (read : item start = some (first, ']' :: rest)) :
    readItems ']' item (fuel + 1) text = some ([first], rest) := by
  have closes : skipTrivia false (']' :: rest) = some (']' :: rest) := rfl
  simp [readItems, skipped, more, read, closes]

theorem readItems_comma (skipped : skipTrivia false text = some start)
    (more : start.head? ≠ some ']') (read : item start = some (first, ',' :: rest))
    {items : List α} (others : readItems ']' item fuel rest = some (items, after)) :
    readItems ']' item (fuel + 1) text = some (first :: items, after) := by
  have divides : skipTrivia false (',' :: rest) = some (',' :: rest) := rfl
  simp [readItems, skipped, more, read, divides, others]

end

theorem readItems_lines {depth fuel : Nat} (items : List Text) (enough : items.length < fuel)
    (rest : Text) :
    readItems ']' (readValue depth) fuel ('\n' :: (items.flatMap writeItem ++ ']' :: rest)) =
      some (items.map .string, rest) := by
  induction items generalizing fuel with
  | nil =>
    obtain ⟨fuel, rfl⟩ : ∃ n, fuel = n + 1 := ⟨fuel - 1, by omega⟩
    exact readItems_close rfl
  | cons first items ih =>
    obtain ⟨fuel, rfl⟩ : ∃ n, fuel = n + 1 := ⟨fuel - 1, by omega⟩
    have reads := reads_writeString depth first
    let others : Text := '\n' :: (items.flatMap writeItem ++ ']' :: rest)
    have line : writeItem first ++ (items.flatMap writeItem ++ ']' :: rest) =
        ' ' :: ' ' :: ' ' :: ' ' :: (writeString first ++ ',' :: others) := by
      simp [writeItem, others]
    have skipped : skipTrivia false ('\n' :: ((first :: items).flatMap writeItem ++ ']' :: rest)) =
        some (writeString first ++ ',' :: others) := by
      rw [List.flatMap_cons, List.append_assoc, line]
      exact reads.skipTrivia_eq _
    apply readItems_comma skipped (reads.head?_ne _) (reads.read _ (.comma _))
    exact ih (Nat.lt_of_succ_lt_succ enough)

theorem length_le_flatMap_writeItem (items : List Text) :
    items.length ≤ (items.flatMap writeItem).length := by
  induction items with
  | nil => simp
  | cons first items ih =>
    have long : 1 ≤ (writeItem first).length := by simp [writeItem]
    rw [List.flatMap_cons, List.length_append, List.length_cons]
    omega

theorem readValue_bracket {depth : Nat} {text rest : Text} {items : List Value}
    (read : readItems ']' (readValue depth) (text.length + 1) text = some (items, rest)) :
    readValue (depth + 1) ('[' :: text) = some (.array items, rest) := by
  simp [readValue, read]

theorem reads_writeList (depth : Nat) (items : List Text) :
    Reads (depth + 1) (writeList items) (.array (items.map .string)) := by
  constructor
  · rcases items with _ | ⟨first, _ | ⟨second, others⟩⟩ <;> exact ⟨'[', _, rfl, by decide⟩
  · intro rest ends
    rcases items with _ | ⟨first, _ | ⟨second, others⟩⟩
    · exact readValue_bracket (readItems_close rfl)
    · have reads := reads_writeString depth first
      have line : writeList [first] ++ rest = '[' :: (writeString first ++ ']' :: rest) := by
        simp [writeList]
      rw [line]
      apply readValue_bracket
      exact readItems_last (reads.skipTrivia_eq _) (reads.head?_ne _) (reads.read _ (.bracket _))
    · have lines : writeList (first :: second :: others) ++ rest =
          '[' :: '\n' :: ((first :: second :: others).flatMap writeItem ++ ']' :: rest) := by
        simp [writeList]
      rw [lines]
      apply readValue_bracket
      apply readItems_lines
      have short := length_le_flatMap_writeItem (first :: second :: others)
      simp only [List.length_cons, List.length_append] at short ⊢
      omega

/-! Numerals -/

theorem isDigit_of_mem_ofNat {n : Nat} {c : Char} (member : c ∈ Text.ofNat n) :
    c.isDigit = true :=
  Nat.isDigit_of_mem_toDigits (by decide) (by decide) member

theorem ne_of_isDigit {c other : Char} (digit : c.isDigit = true)
    (noDigit : other.isDigit = false) : c ≠ other := by
  rintro rfl
  cases digit.symm.trans noDigit

theorem ofNat_of_lt {n : Nat} (small : n < 10) : Text.ofNat n = [Nat.digitChar n] := by
  rw [Text.ofNat, Nat.toDigits_eq_if (by decide), if_pos small]

theorem ofNat_of_le {n : Nat} (large : 10 ≤ n) :
    Text.ofNat n = Text.ofNat (n / 10) ++ [Nat.digitChar (n % 10)] := by
  rw [Text.ofNat, Nat.toDigits_eq_if (by decide), if_neg (by omega)]
  rfl

theorem valueOf_ofNat (n : Nat) : valueOf 10 (Text.ofNat n) = n := by
  have digit : ∀ d < 10, digitValue (Nat.digitChar d) = d := by decide
  induction n using Nat.strongRecOn with
  | ind n ih =>
    by_cases small : n < 10
    · rw [ofNat_of_lt small]
      simp [valueOf, digit n small]
    · have before := ih (n / 10) (by omega)
      rw [valueOf] at before
      rw [ofNat_of_le (by omega), valueOf, List.foldl_append, before]
      have last := digit (n % 10) (by omega)
      simp only [List.foldl_cons, List.foldl_nil, last]
      omega

theorem exists_ofNat {n : Nat} (positive : 1 ≤ n) :
    ∃ c digits, Text.ofNat n = c :: digits ∧ c ≠ '0' := by
  have digit : ∀ d < 10, 1 ≤ d → Nat.digitChar d ≠ '0' := by decide
  induction n using Nat.strongRecOn with
  | ind n ih =>
    by_cases small : n < 10
    · exact ⟨_, [], ofNat_of_lt small, digit n small positive⟩
    · obtain ⟨c, digits, shape, noZero⟩ := ih (n / 10) (by omega) (by omega)
      refine ⟨c, digits ++ [Nat.digitChar (n % 10)], ?_, noZero⟩
      rw [ofNat_of_le (by omega), shape, List.cons_append]

theorem decimal?_ofNat {n : Nat} (positive : 1 ≤ n) :
    decimal? (Text.ofNat n) = some (Text.ofNat n) := by
  obtain ⟨c, rest, shape, noZero⟩ := exists_ofNat positive
  have noScore : '_' ∉ Text.ofNat n := fun member => by cases isDigit_of_mem_ofNat member
  have notEmpty : Text.ofNat n ≠ [] := shape ▸ List.cons_ne_nil c rest
  have noLeading : (Text.ofNat n).head? ≠ some '0' := by
    rw [shape]
    simpa using noZero
  rw [decimal?, if_neg fun leading => noLeading leading.1, digits?, Text.split_of_not_mem noScore]
  have digits : ∀ c ∈ Text.ofNat n, c.isDigit = true := fun _ => isDigit_of_mem_ofNat
  simp [notEmpty, List.all_eq_true.mpr digits]

theorem integer?_ofNat {n : Nat} (positive : 1 ≤ n) (small : n < Nat.pow 2 128) :
    integer? (Text.ofNat n) = some (n : Int) := by
  obtain ⟨c, rest, shape, noZero⟩ := exists_ofNat positive
  have digit : c.isDigit = true := isDigit_of_mem_ofNat (shape ▸ List.mem_cons_self)
  have noPlus : c ≠ '+' := ne_of_isDigit digit rfl
  have noMinus : c ≠ '-' := ne_of_isDigit digit rfl
  have unsigned : splitSign (Text.ofNat n) = (none, Text.ofNat n) := by
    rw [shape]
    simp [splitSign, noPlus, noMinus]
  have magnitude : magnitude? false (Text.ofNat n) = some n := by
    have decimal := decimal?_ofNat positive
    have value := valueOf_ofNat n
    rw [shape] at decimal value ⊢
    simp [magnitude?, noZero, decimal, value]
  have range : inRange n = true := by
    simp only [inRange, Bool.and_eq_true, decide_eq_true_eq]
    constructor
    · omega
    · exact Int.ofNat_lt.mpr small
  simp [integer?, unsigned, magnitude, range]

theorem isScalarChar_of_isDigit {c : Char} (digit : c.isDigit = true) : isScalarChar c = true := by
  simp [isScalarChar, Char.isAlphanum, digit]

theorem readScalar_ofNat {n : Nat} (positive : 1 ≤ n) (small : n < Nat.pow 2 128) {rest : Text}
    (ends : Ends rest) : readScalar (Text.ofNat n ++ rest) = some (.integer n, rest) := by
  have digits : ∀ c ∈ Text.ofNat n, isScalarChar c = true :=
    fun _ member => isScalarChar_of_isDigit (isDigit_of_mem_ofNat member)
  have taken : (Text.ofNat n ++ rest).takeWhile isScalarChar = Text.ofNat n := by
    rw [List.takeWhile_append_of_pos digits]
    cases ends <;> simp [isScalarChar]
  have left : (Text.ofNat n ++ rest).dropWhile isScalarChar = rest := by
    rw [List.dropWhile_append_of_pos digits]
    cases ends <;> rfl
  have scalar : scalar? (Text.ofNat n) = some (.integer n) := by
    rw [scalar?, integer?_ofNat positive small]
  rw [readScalar, taken, left]
  cases ends <;> simp [scalar]

theorem reads_ofNat (depth : Nat) {n : Nat} (positive : 1 ≤ n) (small : n < Nat.pow 2 128) :
    Reads depth (Text.ofNat n) (.integer n) := by
  obtain ⟨c, digits, shape, _⟩ := exists_ofNat positive
  have digit : c.isDigit = true := isDigit_of_mem_ofNat (shape ▸ List.mem_cons_self)
  constructor
  · exact ⟨c, digits, shape, not_mem_gaps digit rfl⟩
  · intro rest ends
    have read := readScalar_ofNat positive small ends
    rw [shape, List.cons_append] at read ⊢
    have noBracket : c ≠ '[' := ne_of_isDigit digit rfl
    have noBrace : c ≠ '\x7b' := ne_of_isDigit digit rfl
    have noDouble : c ≠ '"' := ne_of_isDigit digit rfl
    have noSingle : c ≠ '\'' := ne_of_isDigit digit rfl
    simp [readValue, noBracket, noBrace, noDouble, noSingle, read]

/-! Lines of a document -/

def isBare (key : Text) : Bool :=
  !key.isEmpty && key.all isKeyChar

theorem exists_of_isBare {key : Text} (bare : isBare key = true) :
    ∃ c others, key = c :: others ∧ c ∉ gaps ∧ c ≠ '[' := by
  cases key with
  | nil => cases bare
  | cons c others =>
    have isKey : isKeyChar c = true := by
      simp only [isBare, List.all_cons, Bool.and_eq_true] at bare
      exact bare.2.1
    refine ⟨c, others, rfl, not_mem_gaps isKey rfl, ?_⟩
    rintro rfl
    cases isKey

theorem readKey_append {key : Text} (bare : isBare key = true) (rest : Text) :
    readKey (key ++ ' ' :: '=' :: rest) = some (⟨[], key⟩, '=' :: rest) := by
  have plain : ∀ c ∈ key, isKeyChar c = true := by
    simp only [isBare, Bool.and_eq_true] at bare
    exact List.all_eq_true.mp bare.2
  have taken : (key ++ ' ' :: '=' :: rest).takeWhile isKeyChar = key := by
    rw [List.takeWhile_append_of_pos plain]
    simp [isKeyChar]
  have left : (key ++ ' ' :: '=' :: rest).dropWhile isKeyChar = ' ' :: '=' :: rest := by
    rw [List.dropWhile_append_of_pos plain]
    rfl
  obtain ⟨c, others, rfl, visible, _⟩ := exists_of_isBare bare
  rw [readKey, maxDepth, readKeyWith, List.cons_append, skipBlanks_of_not_mem visible,
    ← List.cons_append, readSimpleKey, taken, left]
  rfl

theorem readStatements_writeField {key written : Text} {value : Value} (bare : isBare key = true)
    (reads : Reads maxDepth written value) (fuel : Nat) (rest : Text) :
    readStatements (fuel + 1) (writeField key written ++ rest) =
      (readStatements fuel rest).map (.assign ⟨[], key⟩ value :: ·) := by
  have line : writeField key written ++ rest =
      key ++ ' ' :: '=' :: ' ' :: (written ++ '\n' :: rest) := by
    simp [writeField]
  have field : readField (readValue maxDepth) (writeField key written ++ rest) =
      some ((⟨[], key⟩, value), '\n' :: rest) := by
    have blank : skipBlanks (' ' :: (written ++ '\n' :: rest)) = written ++ '\n' :: rest :=
      reads.skipBlanks_eq _
    rw [line, readField, readKey_append bare]
    simp only [blank, reads.read _ (.feed rest)]
    rfl
  have ended : endLine? ('\n' :: rest) = some rest := rfl
  obtain ⟨c, others, rfl, visible, noBracket⟩ := exists_of_isBare bare
  rw [line] at field ⊢
  have statement : readStatement (c :: (others ++ ' ' :: '=' :: ' ' :: (written ++ '\n' :: rest))) =
      some (.assign ⟨[], c :: others⟩ value, '\n' :: rest) := by
    rw [List.cons_append] at field
    simp [readStatement, noBracket, field]
  rw [List.cons_append, readStatements, skipTrivia_of_not_mem visible]
  simp only [statement, ended]

end Toml

namespace Settings

open Toml

def fields (settings : Settings) : Toml.Fields :=
  [("tab_width", .integer settings.tabWidth),
    ("disabled_rules", .array (settings.disabledRules.map .string)),
    ("ignore", .array (settings.ignore.map .string))]

theorem parse?_write {settings : Settings} (positive : 1 ≤ settings.tabWidth)
    (small : settings.tabWidth < Nat.pow 2 63) :
    Toml.parse? settings.write = some settings.fields := by
  have width := reads_ofNat maxDepth positive (Nat.lt_trans small (by decide))
  have rules : Reads maxDepth _ _ := reads_writeList 79 settings.disabledRules
  have ignore : Reads maxDepth _ _ := reads_writeList 79 settings.ignore
  have unmarked : dropMark settings.write = settings.write := rfl
  obtain ⟨fuel, enough⟩ : ∃ n, settings.write.length + 1 = n + 1 + 1 + 1 + 1 := by
    refine ⟨settings.write.length - 3, ?_⟩
    have long : 3 ≤ settings.write.length := by simp [write, writeField]
    omega
  have lines : settings.write = writeField "tab_width" (Text.ofNat settings.tabWidth) ++
      (writeField "disabled_rules" (writeList settings.disabledRules) ++
        (writeField "ignore" (writeList settings.ignore) ++ [])) := by
    simp [write]
  rw [Toml.parse?, unmarked, enough, lines, readStatements_writeField rfl width,
    readStatements_writeField rfl rules, readStatements_writeField rfl ignore]
  have ended : readStatements (fuel + 1) [] = some [] := rfl
  simp only [ended, Option.map_some]
  rfl

theorem mapM_text? (texts : List Text) : (texts.map Value.string).mapM text? = some texts := by
  induction texts with
  | nil => rfl
  | cons text texts ih =>
    rw [List.map_cons, List.mapM_cons, ih]
    rfl

theorem ofFields?_fields {settings : Settings} (small : settings.tabWidth < Nat.pow 2 63) :
    ofFields? settings.fields = some settings := by
  have width : natural? (.integer settings.tabWidth) = some settings.tabWidth := by
    have inRange : 0 ≤ (settings.tabWidth : Int) ∧
        (settings.tabWidth : Int) < (Nat.pow 2 64 : Nat) := by
      constructor
      · omega
      · exact Int.ofNat_lt.mpr (Nat.lt_trans small (by decide))
    rw [natural?, if_pos inRange]
    rfl
  have first : fieldOr settings.fields "tab_width" natural? defaultTabWidth =
    some settings.tabWidth := width
  have second : fieldOr settings.fields "disabled_rules" texts? [] = some settings.disabledRules :=
    mapM_text? _
  have third : fieldOr settings.fields "ignore" texts? [] = some settings.ignore := mapM_text? _
  rw [ofFields?, first, second, third]
  rfl

/-! Loading -/

theorem variables?_of_not_mem (environment : Environment) {text : Text} (noDollar : '$' ∉ text) :
    Expansion.variables? environment text = some text := by
  induction text with
  | nil => simp [Expansion.variables?]
  | cons c rest ih =>
    simp only [List.mem_cons, not_or] at noDollar
    have other : c ≠ '$' := Ne.symm noDollar.1
    rw [Expansion.variables?]
    · rw [ih noDollar.2]
      rfl
    all_goals simp [other]

theorem expand?_eq (environment : Environment) {text : Text} (noDollar : '$' ∉ text)
    (noTilde : text.head? ≠ some '~') : Expansion.expand? environment text = some text := by
  have kept : Expansion.tilde environment text = text := by
    unfold Expansion.tilde
    split
    · exact absurd rfl noTilde
    · exact absurd rfl noTilde
    · rfl
  simp [Expansion.expand?, variables?_of_not_mem environment noDollar, noTilde, kept]

theorem expandIgnore_eq (environment : Environment) {settings : Settings}
    (noDollar : ∀ p ∈ settings.ignore, '$' ∉ p)
    (noTilde : ∀ p ∈ settings.ignore, p.head? ≠ some '~') :
    settings.expandIgnore environment = settings := by
  have kept : ∀ p ∈ settings.ignore, (Expansion.expand? environment p).getD p = p := by
    intro p member
    rw [expand?_eq environment (noDollar p member) (noTilde p member)]
    rfl
  rw [expandIgnore, List.map_congr_left kept, List.map_id']

theorem exists_mapM_compilePattern {patterns : List Text}
    (valid : ∀ p ∈ patterns, ∃ glob, Glob.parse p = .ok glob) :
    ∃ globs, patterns.mapM compilePattern = .ok globs := by
  induction patterns with
  | nil => exact ⟨[], rfl⟩
  | cons pattern patterns ih =>
    obtain ⟨glob, parsed⟩ := valid pattern List.mem_cons_self
    obtain ⟨globs, others⟩ := ih fun p member => valid p (List.mem_cons_of_mem _ member)
    refine ⟨glob :: globs, ?_⟩
    rw [List.mapM_cons, compilePattern, parsed, others]
    rfl

theorem validate_eq_ok {settings : Settings} (positive : 1 ≤ settings.tabWidth)
    (valid : ∀ p ∈ settings.ignore, ∃ glob, Glob.parse p = .ok glob) :
    settings.validate = .ok () := by
  obtain ⟨globs, compiled⟩ := exists_mapM_compilePattern valid
  rw [validate, if_neg (by omega), ignoreSet, compiled]
  rfl

/-- Settings that are saved where a file can be written load as they were, if they pass the check
and no pattern has anything to expand. -/
theorem load_save (environment : Environment) (files : FileSystem) (path : FilePath)
    (settings : Settings) (positive : 1 ≤ settings.tabWidth)
    (small : settings.tabWidth ≤ Nat.pow 2 63 - 1)
    (valid : ∀ p ∈ settings.ignore, ∃ glob, Glob.parse p = .ok glob)
    (noDollar : ∀ p ∈ settings.ignore, '$' ∉ p)
    (noTilde : ∀ p ∈ settings.ignore, p.head? ≠ some '~') (writable : files.Writable path) :
    ∃ saved, settings.save files path = .ok saved ∧
      load environment saved path = .ok (some settings) := by
  obtain ⟨prepared, _, made, free⟩ := writable
  obtain ⟨saved, written⟩ := FileSystem.exists_write free settings.write
  refine ⟨saved, ?_, ?_⟩
  · rw [save, made]
    exact written
  · have parsed : parse? settings.write = some settings := by
      rw [parse?, parse?_write positive (by omega), Option.bind_some]
      exact ofFields?_fields (by omega)
    rw [load, FileSystem.entry?_write written]
    simp only [Entry.read_text, parsed, expandIgnore_eq environment noDollar noTilde,
      validate_eq_ok positive valid]

/-- A rule with quotes, a backslash, breaks and control characters, saved in a new folder. -/
theorem load_save_escaped :
    let files : FileSystem := ⟨.folder [], []⟩
    let settings : Settings :=
      { tabWidth := Nat.pow 2 63 - 1
        disabledRules := [['"', '\'', '\\', '\n', '\r', '\x00', 'é'], []]
        ignore := [['a', '/', '*', '*', '/', '?', '*']] }
    ∃ saved, settings.save files "nested/config.toml" = .ok saved ∧
      load ⟨[]⟩ saved "nested/config.toml" = .ok (some settings) := by
  intro files settings
  apply load_save
  · decide
  · decide
  · intro p member
    cases List.mem_singleton.mp member
    refine ⟨⟨[.char 'a', .char '/', .anyFolders, .anyChar, .anyRun]⟩, ?_⟩
    simp [Glob.parse, Glob.parseFrom, Glob.startsComponent, Except.map]
  · decide
  · decide
  · exact ⟨_, _, rfl, rfl⟩

end Settings
end BlockLint
