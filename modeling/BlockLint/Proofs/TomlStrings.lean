import BlockLint.Toml.StringForm

/-!
Strings of TOML read back as they were written. In double quotes any text can be written, since
each character that may not stand there has an escape. In single quotes there are no escapes, and
the writer chooses that form only for texts that need none.

In the long forms up to two quotes in a row stand for themselves. So the reader of a long form is
followed together with the quotes that were just written and not yet read.
-/
namespace BlockLint.Toml

@[simp] theorem prepend_some (start text after : Text) :
    prepend start (some (text, after)) = some (start ++ text, after) := rfl

@[simp] theorem prepend_nil (found : Option (Text × Text)) : prepend [] found = found := by
  cases found <;> rfl

theorem prepend_prepend (first second : Text) (found : Option (Text × Text)) :
    prepend first (prepend second found) = prepend (first ++ second) found := by
  cases found with
  | none => rfl
  | some found => simp [prepend]

section
open StringForm

theorem hexValue?_hexDigit : ∀ d < 16, hexValue? (hexDigit d) = some d := by decide

theorem hexDigit_visible :
    ∀ d < 16, isBlankChar (hexDigit d) = false ∧ hexDigit d ≠ '\n' ∧ hexDigit d ≠ '\r' := by
  decide

theorem charOf?_toNat (c : Char) : charOf? c.toNat = some c := by
  have valid : c.toNat.isValidChar := c.valid
  rw [charOf?, if_pos valid, Char.ofNat_toNat]

theorem exists_escapeChar {c : Char} (noQuote : c ≠ '"') :
    ∃ first more, escapeChar c = first :: more ∧ first ≠ '"' ∧ first ≠ '\n' ∧ first ≠ '\r' := by
  unfold escapeChar
  repeat' split
  case isFalse.isFalse.isFalse.isFalse.isFalse.isFalse.isFalse noFeed _ noReturn _ _ =>
    exact ⟨c, [], rfl, noQuote, noFeed, noReturn⟩
  all_goals exact ⟨'\\', _, rfl, by decide⟩

/-- What the readers of both forms in double quotes do alike. -/
structure ReadsEscapes (read : Pending → Text → Option (Text × Text)) : Prop where
  slash : ∀ rest, read .plain ('\\' :: rest) = read .slash rest
  decoded : ∀ {pending next : Pending} {c : Char} {start : Text},
    decode pending c = some (next, start) → isBlankChar c = false ∧ c ≠ '\n' ∧ c ≠ '\r' →
      ∀ rest, read pending (c :: rest) = prepend start (read next rest)
  plain : ∀ {c : Char}, isPlain c = true → c ≠ '"' → c ≠ '\\' →
    ∀ rest, read .plain (c :: rest) = prepend [c] (read .plain rest)

theorem readBasic_readsEscapes : ReadsEscapes readBasic where
  slash rest := by simp [readBasic]
  decoded := by
    intro pending next c start decoded _ rest
    have waits : pending ≠ .plain := by
      rintro rfl
      cases decoded
    rw [readBasic, if_neg waits, decoded]
  plain := by
    intro c isPlain noQuote noSlash rest
    rw [readBasic, if_pos rfl, if_neg noQuote, if_neg noSlash, if_pos isPlain]

theorem readLongBasic_readsEscapes : ReadsEscapes readLongBasic where
  slash rest := by simp [readLongBasic, settle]
  decoded := by
    intro pending next c start decoded visible rest
    obtain ⟨noBlank, noFeed, noReturn⟩ := visible
    have noBreak : isBreak c rest = false := by simp [isBreak, noFeed, noReturn]
    cases pending with
    | plain => cases decoded
    | gap crossed => cases decoded
    | slash => simp [readLongBasic, settle, noBlank, noBreak, decoded]
    | code left value => simp [readLongBasic, settle, decoded]
  plain := by
    intro c isPlain noQuote noSlash rest
    simp [readLongBasic, settle, isPlain, noQuote, noSlash]

section
variable {read : Pending → Text → Option (Text × Text)} (reads : ReadsEscapes read)
include reads

theorem ReadsEscapes.read_code {c : Char} (control : isControl c = true) (rest : Text) :
    read .plain
        (['\\', 'u', '0', '0', hexDigit (c.toNat / 16), hexDigit (c.toNat % 16)] ++ rest) =
      prepend [c] (read .plain rest) := by
  have high : c.toNat / 16 < 16 := by
    simp only [isControl, Bool.or_eq_true, decide_eq_true_eq, beq_iff_eq] at control
    omega
  have low : c.toNat % 16 < 16 := Nat.mod_lt _ (by decide)
  have ofLetter : decode .slash 'u' = some (.code 4 0, []) := rfl
  have ofFirst : decode (.code 4 0) '0' = some (.code 3 0, []) := rfl
  have ofSecond : decode (.code 3 0) '0' = some (.code 2 0, []) := rfl
  have ofHigh : decode (.code 2 0) (hexDigit (c.toNat / 16)) =
      some (.code 1 (c.toNat / 16), []) := by
    simp [decode, hexValue?_hexDigit _ high]
  have ofLow : decode (.code 1 (c.toNat / 16)) (hexDigit (c.toNat % 16)) =
      some (.plain, [c]) := by
    simp [decode, hexValue?_hexDigit _ low, Nat.div_add_mod', charOf?_toNat]
  calc
    _ = read .slash (['u', '0', '0', hexDigit (c.toNat / 16), hexDigit (c.toNat % 16)] ++ rest) :=
      reads.slash _
    _ = read (.code 4 0) (['0', '0', hexDigit (c.toNat / 16), hexDigit (c.toNat % 16)] ++ rest) :=
      (reads.decoded ofLetter (by decide) _).trans (prepend_nil _)
    _ = read (.code 3 0) (['0', hexDigit (c.toNat / 16), hexDigit (c.toNat % 16)] ++ rest) :=
      (reads.decoded ofFirst (by decide) _).trans (prepend_nil _)
    _ = read (.code 2 0) ([hexDigit (c.toNat / 16), hexDigit (c.toNat % 16)] ++ rest) :=
      (reads.decoded ofSecond (by decide) _).trans (prepend_nil _)
    _ = read (.code 1 (c.toNat / 16)) ([hexDigit (c.toNat % 16)] ++ rest) :=
      (reads.decoded ofHigh (hexDigit_visible _ high) _).trans (prepend_nil _)
    _ = prepend [c] (read .plain rest) := reads.decoded ofLow (hexDigit_visible _ low) rest

theorem ReadsEscapes.read_escapeChar {c : Char} (noQuote : c ≠ '"') (rest : Text) :
    read .plain (escapeChar c ++ rest) = prepend [c] (read .plain rest) := by
  have letter {letter d : Char} (escaped : decode .slash letter = some (.plain, [d]))
      (visible : isBlankChar letter = false ∧ letter ≠ '\n' ∧ letter ≠ '\r') :
      read .plain (['\\', letter] ++ rest) = prepend [d] (read .plain rest) :=
    (reads.slash _).trans (reads.decoded escaped visible rest)
  unfold escapeChar
  repeat' split
  case isFalse.isFalse.isFalse.isFalse.isFalse.isFalse.isTrue control =>
    exact reads.read_code control rest
  case isFalse.isFalse.isFalse.isFalse.isFalse.isFalse.isFalse noSlash noControl =>
    exact reads.plain (by simp [isPlain, noControl]) noQuote noSlash rest
  all_goals
    subst c
    exact letter rfl (by decide)

theorem ReadsEscapes.read_quote (rest : Text) :
    read .plain ('\\' :: '"' :: rest) = prepend ['"'] (read .plain rest) :=
  (reads.slash _).trans (reads.decoded rfl (by decide) rest)

end

theorem readBasic_escape (text rest : Text) :
    readBasic .plain (escape false 0 0 text ++ '"' :: rest) = some (text, rest) := by
  induction text with
  | nil => simp [escape, readBasic]
  | cons c text ih =>
    by_cases isQuote : c = '"'
    · subst isQuote
      have written : escape false 0 0 ('"' :: text) = '\\' :: '"' :: escape false 0 0 text := by
        simp [escape]
      rw [written, List.cons_append, List.cons_append, readBasic_readsEscapes.read_quote, ih]
      rfl
    · have written : escape false 0 0 (c :: text) = escapeChar c ++ escape false 0 0 text := by
        simp [escape, isQuote]
      rw [written, List.append_assoc, readBasic_readsEscapes.read_escapeChar isQuote, ih]
      rfl

theorem readLiteral_append {text : Text} (plain : ∀ c ∈ text, isPlain c = true ∧ c ≠ '\'')
    (rest : Text) : readLiteral (text ++ '\'' :: rest) = some (text, rest) := by
  induction text with
  | nil => simp [readLiteral]
  | cons c text ih =>
    obtain ⟨⟨isPlain, noQuote⟩, later⟩ := List.forall_mem_cons.mp plain
    rw [List.cons_append, readLiteral, if_neg noQuote, if_pos isPlain, ih later]
    rfl

/-- What the readers of both long forms do alike: three quotes end the string, fewer are part of
it. -/
structure ReadsQuotes (quote : Char) (read : Text → Option (Text × Text)) : Prop where
  close : ∀ after, read (quote :: quote :: quote :: after) = some (closeLong quote after)
  alone : ∀ rest, (∀ after, rest ≠ quote :: quote :: after) →
    read (quote :: rest) = prepend [quote] (read rest)

theorem readLongBasic_readsQuotes : ReadsQuotes '"' (readLongBasic .plain) where
  close after := by simp [readLongBasic, settle]
  alone := by
    intro rest fewer
    rw [readLongBasic]
    · simp [settle]
    · exact fewer

theorem readLongLiteral_readsQuotes : ReadsQuotes '\'' readLongLiteral where
  close after := by simp [readLongLiteral]
  alone := by
    intro rest fewer
    rw [readLongLiteral]
    · simp
    · exact fewer

section
variable {quote : Char} {read : Text → Option (Text × Text)} (reads : ReadsQuotes quote read)
  {quotes : Nat} (few : quotes ≤ 2)
include reads few

theorem ReadsQuotes.read_close {rest : Text} (ends : rest.head? ≠ some quote) :
    read (List.replicate quotes quote ++ quote :: quote :: quote :: rest) =
      some (List.replicate quotes quote, rest) := by
  have none : rest.takeWhile (· == quote) = [] := by
    cases rest with
    | nil => rfl
    | cons c rest =>
      have differ : c ≠ quote := by simpa using ends
      simp [differ]
  have cases : quotes = 0 ∨ quotes = 1 ∨ quotes = 2 := by omega
  rcases cases with rfl | rfl | rfl
  · simp [reads.close, closeLong, none]
  · simp [reads.close, closeLong, none]
  · simp [reads.close, closeLong, none, List.replicate]

theorem ReadsQuotes.read_quotes {c : Char} (differ : c ≠ quote) (rest : Text) :
    read (List.replicate quotes quote ++ c :: rest) =
      prepend (List.replicate quotes quote) (read (c :: rest)) := by
  have cases : quotes = 0 ∨ quotes = 1 ∨ quotes = 2 := by omega
  have one := reads.alone (c :: rest) (by simp [differ])
  have two := reads.alone (quote :: c :: rest) (by simp [differ])
  rcases cases with rfl | rfl | rfl
  · simp
  · simpa using one
  · simp [List.replicate, two, one, prepend_prepend]

end

theorem replicate_append_cons (n : Nat) (c : Char) (rest : Text) :
    List.replicate n c ++ c :: rest = List.replicate (n + 1) c ++ rest := by
  simp [List.replicate_succ']

/-- `quotes` quotes were just written, as part of the text. -/
theorem readLongBasic_escape {quotes : Nat} (few : quotes ≤ 2) (text : Text) {rest : Text}
    (ends : rest.head? ≠ some '"') :
    readLongBasic .plain (List.replicate quotes '"' ++ (escape true 2 quotes text ++
        '"' :: '"' :: '"' :: rest)) = some (List.replicate quotes '"' ++ text, rest) := by
  -- A quote is part of the text or of the end, depending on what follows. So the induction keeps
  -- the quotes in front of the text that no other character has settled yet.
  induction text generalizing quotes with
  | nil => simpa [escape] using readLongBasic_readsQuotes.read_close few ends
  | cons c text ih =>
    have later := ih (Nat.zero_le 2)
    simp only [List.replicate_zero, List.nil_append] at later
    by_cases isQuote : c = '"'
    · subst isQuote
      by_cases room : quotes < 2
      · have written : escape true 2 quotes ('"' :: text) =
            '"' :: escape true 2 (quotes + 1) text := by
          simp [escape, room]
        rw [written, List.cons_append, replicate_append_cons, replicate_append_cons]
        exact ih room
      · have written : escape true 2 quotes ('"' :: text) =
            '\\' :: '"' :: escape true 2 0 text := by
          simp [escape, room]
        rw [written, List.cons_append, List.cons_append,
          readLongBasic_readsQuotes.read_quotes few (by decide),
          readLongBasic_readsEscapes.read_quote, later]
        rfl
    · by_cases isFeed : c = '\n'
      · subst isFeed
        have written : escape true 2 quotes ('\n' :: text) = '\n' :: escape true 2 0 text := by
          simp [escape]
        have read (more : Text) :
            readLongBasic .plain ('\n' :: more) = prepend ['\n'] (readLongBasic .plain more) := by
          simp [readLongBasic, settle, isBreak]
        rw [written, List.cons_append, readLongBasic_readsQuotes.read_quotes few (by decide), read,
          later]
        rfl
      · have written : escape true 2 quotes (c :: text) = escapeChar c ++ escape true 2 0 text := by
          simp [escape, isQuote, isFeed]
        obtain ⟨first, more, isEscape, differ, _⟩ := exists_escapeChar isQuote
        have read := readLongBasic_readsEscapes.read_escapeChar isQuote
          (escape true 2 0 text ++ '"' :: '"' :: '"' :: rest)
        rw [written, List.append_assoc, isEscape, List.cons_append,
          readLongBasic_readsQuotes.read_quotes few differ, ← List.cons_append, ← isEscape, read,
          later]
        rfl

theorem isPlain_or_feed {c : Char} (noCode : needsCode c = false) :
    isPlain c = true ∨ c = '\n' := by
  simp only [needsCode, Bool.and_eq_false_iff, bne_eq_false_iff_eq] at noCode
  rcases noCode with (noControl | isTab) | isFeed
  · exact .inl (by simp [isPlain, noControl])
  · exact .inl (by simp [isPlain, isTab])
  · exact .inr isFeed

theorem holdsTriple_cons {quote c : Char} {text : Text}
    (noTriple : holdsTriple quote (c :: text) = false) : holdsTriple quote text = false := by
  rcases text with _ | ⟨a, _ | ⟨b, rest⟩⟩
  · rfl
  · rfl
  · rw [holdsTriple, Bool.or_eq_false_iff] at noTriple
    exact noTriple.2

theorem holdsTriple_append {quote : Char} (front : Text) {text : Text}
    (noTriple : holdsTriple quote (front ++ text) = false) : holdsTriple quote text = false := by
  induction front with
  | nil => exact noTriple
  | cons c front ih => exact ih (holdsTriple_cons noTriple)

theorem readLongLiteral_append {quotes : Nat} (few : quotes ≤ 2) {text : Text}
    (noTriple : holdsTriple '\'' (List.replicate quotes '\'' ++ text) = false)
    (plain : ∀ c ∈ text, needsCode c = false) {rest : Text} (ends : rest.head? ≠ some '\'') :
    readLongLiteral (List.replicate quotes '\'' ++ (text ++ '\'' :: '\'' :: '\'' :: rest)) =
      some (List.replicate quotes '\'' ++ text, rest) := by
  induction text generalizing quotes with
  | nil => simpa using readLongLiteral_readsQuotes.read_close few ends
  | cons c text ih =>
    obtain ⟨noCode, later⟩ := List.forall_mem_cons.mp plain
    by_cases isQuote : c = '\''
    · subst isQuote
      have room : quotes ≠ 2 := by
        rintro rfl
        simp [List.replicate, holdsTriple] at noTriple
      rw [replicate_append_cons] at noTriple
      rw [List.cons_append, replicate_append_cons, replicate_append_cons]
      exact ih (by omega) noTriple later
    · have behind : holdsTriple '\'' text = false := by
        apply holdsTriple_append (List.replicate quotes '\'' ++ [c])
        simpa using noTriple
      have read (more : Text) :
          readLongLiteral (c :: more) = prepend [c] (readLongLiteral more) := by
        have stands : (isPlain c || isBreak c more) = true := by
          rcases isPlain_or_feed noCode with plain | isFeed
          · simp [plain]
          · simp [isBreak, isFeed]
        rw [readLongLiteral.eq_def]
        simp [isQuote, stands]
      have rest := ih (Nat.zero_le 2) behind later
      simp only [List.replicate_zero, List.nil_append] at rest
      rw [List.cons_append, readLongLiteral_readsQuotes.read_quotes few isQuote, read, rest]
      rfl

theorem dropBreak_leadingBreak {text body : Text}
    (starts : '\n' ∉ text → body.head? ≠ some '\n' ∧ body.head? ≠ some '\r') :
    dropBreak (leadingBreak text ++ body) = body := by
  by_cases broken : '\n' ∈ text
  · simp [leadingBreak, broken, dropBreak]
  · obtain ⟨noFeed, noReturn⟩ := starts broken
    simp only [leadingBreak, List.contains_iff_mem, broken, if_false, List.nil_append]
    unfold dropBreak
    split <;> simp_all

theorem readString_of_short {text : Text} (noDouble : ∀ after, text ≠ '"' :: '"' :: '"' :: after)
    (noSingle : ∀ after, text ≠ '\'' :: '\'' :: '\'' :: after) :
    readString text = readShortString text := by
  rw [readString]
  · exact noDouble
  · exact noSingle

section
variable {rest : Text}

theorem readString_basic (text : Text) (ends : rest.head? ≠ some '"') :
    readString (write .basic text ++ rest) = some (text, rest) := by
  have written : write .basic text ++ rest = '"' :: (escape false 0 0 text ++ '"' :: rest) := by
    simp [write]
  rw [written, readString_of_short]
  · exact readBasic_escape text rest
  · intro after same
    cases text with
    | nil => simp_all [escape]
    | cons c text =>
      by_cases isQuote : c = '"'
      · simp [escape, isQuote] at same
      · obtain ⟨first, more, isEscape, differ, _⟩ := exists_escapeChar isQuote
        simp [escape, isQuote, isEscape, differ] at same
  · simp

theorem readString_literal {text : Text} (plain : ∀ c ∈ text, isPlain c = true ∧ c ≠ '\'')
    (ends : rest.head? ≠ some '\'') :
    readString (write .literal text ++ rest) = some (text, rest) := by
  have written : write .literal text ++ rest = '\'' :: (text ++ '\'' :: rest) := by
    simp [write]
  rw [written, readString_of_short]
  · exact readLiteral_append plain rest
  · simp
  · intro after same
    cases text with
    | nil => simp_all
    | cons c text =>
      have differ := (plain c List.mem_cons_self).2
      simp [differ] at same

theorem readString_longBasic (text : Text) (ends : rest.head? ≠ some '"') :
    readString (write .longBasic text ++ rest) = some (text, rest) := by
  have written : write .longBasic text ++ rest = '"' :: '"' :: '"' ::
      (leadingBreak text ++ (escape true 2 0 text ++ '"' :: '"' :: '"' :: rest)) := by
    simp [write]
  rw [written, readString, dropBreak_leadingBreak]
  · simpa using readLongBasic_escape (Nat.zero_le 2) text ends
  · intro noFeed
    cases text with
    | nil => simp [escape]
    | cons c text =>
      have unbroken : c ≠ '\n' := fun same => noFeed (same ▸ List.mem_cons_self)
      by_cases isQuote : c = '"'
      · simp [escape, isQuote]
      · obtain ⟨first, more, isEscape, _, differ⟩ := exists_escapeChar isQuote
        simpa [escape, isQuote, unbroken, isEscape] using differ

theorem readString_longLiteral {text : Text} (plain : ∀ c ∈ text, needsCode c = false)
    (noTriple : holdsTriple '\'' text = false) (ends : rest.head? ≠ some '\'') :
    readString (write .longLiteral text ++ rest) = some (text, rest) := by
  have written : write .longLiteral text ++ rest = '\'' :: '\'' :: '\'' ::
      (leadingBreak text ++ (text ++ '\'' :: '\'' :: '\'' :: rest)) := by
    simp [write]
  rw [written, readString, dropBreak_leadingBreak]
  · simpa using readLongLiteral_append (Nat.zero_le 2) noTriple plain ends
  · intro noFeed
    cases text with
    | nil => simp
    | cons c text =>
      have unbroken : c ≠ '\n' := fun same => noFeed (same ▸ List.mem_cons_self)
      have noReturn : c ≠ '\r' := by
        rintro rfl
        exact absurd (plain _ List.mem_cons_self) (by decide)
      simp [unbroken, noReturn]

end

theorem choose_literal {text : Text} (chosen : choose text = .literal) :
    (∀ c ∈ text, needsCode c = false) ∧ '\n' ∉ text ∧ '\'' ∉ text := by
  simp only [choose] at chosen
  repeat' split at chosen
  case isFalse.isTrue => simp_all
  all_goals cases chosen

theorem choose_longLiteral {text : Text} (chosen : choose text = .longLiteral) :
    (∀ c ∈ text, needsCode c = false) ∧ holdsTriple '\'' text = false := by
  simp only [choose] at chosen
  repeat' split at chosen
  case isFalse.isFalse.isFalse.isTrue => simp_all
  all_goals cases chosen

/-- A string reads back, if what follows it does not start with a quote. -/
theorem readString_writeString (text : Text) {rest : Text} (noDouble : rest.head? ≠ some '"')
    (noSingle : rest.head? ≠ some '\'') :
    readString (writeString text ++ rest) = some (text, rest) := by
  unfold writeString
  cases chosen : choose text with
  | basic => exact readString_basic text noDouble
  | longBasic => exact readString_longBasic text noDouble
  | literal =>
    obtain ⟨noCode, noFeed, noQuote⟩ := choose_literal chosen
    apply readString_literal _ noSingle
    intro c member
    have plain := (isPlain_or_feed (noCode c member)).resolve_right
      fun isFeed => noFeed (isFeed ▸ member)
    exact ⟨plain, fun isQuote => noQuote (isQuote ▸ member)⟩
  | longLiteral =>
    obtain ⟨noCode, noTriple⟩ := choose_longLiteral chosen
    exact readString_longLiteral noCode noTriple noSingle

end

end BlockLint.Toml
