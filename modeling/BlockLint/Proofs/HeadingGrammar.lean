import BlockLint.Proofs.MarkerGrammar
import Mathlib.Data.List.DropRight

/-!
The grammar of ATX headings. A heading is up to three spaces, one to six hashes, and then a space or
the end of the line. Its text is what follows, without the spaces around it and without the hashes
that close it.

The grammar tells how a closing sequence is spelled, and not where to look for one. It leaves one
text to every content, and that is the text which remains when the ends are cut off.
-/
namespace BlockLint

namespace Text

structure Trimmed (text : Text) : Prop where
  starts : text.head? ≠ some ' '
  ends : text.getLast? ≠ some ' '

theorem trimmed_nil : Trimmed [] := by
  constructor <;> simp

theorem head?_ne_of_append {front back : Text} {sign : Char}
    (starts : (front ++ back).head? ≠ some sign) : front.head? ≠ some sign := by
  cases front with
  | nil => simp
  | cons c rest => exact starts

theorem getLast?_append_replicate (front : Text) (sign : Char) {count : Nat} (some : 1 ≤ count) :
    (front ++ List.replicate count sign).getLast? = Option.some sign := by
  have filled : count ≠ 0 := by omega
  simp [List.getLast?_replicate, filled]

theorem dropTail_append_replicate {front : Text} {sign : Char}
    (stops : front.getLast? ≠ some sign) (count : Nat) :
    dropTail (· == sign) (front ++ List.replicate count sign) = front := by
  induction count with
  | zero =>
    rw [List.replicate_zero, List.append_nil]
    apply List.rdropWhile_eq_self_iff.mpr
    intro filled isSign
    apply stops
    rw [List.getLast?_eq_some_getLast filled, beq_iff_eq.mp isSign]
  | succ count ih =>
    rw [List.replicate_succ', ← List.append_assoc]
    exact (List.rdropWhile_concat_pos (· == sign) _ sign (by simp)).trans ih

theorem exists_dropTail (sign : Char) (text : Text) :
    ∃ count, text = dropTail (· == sign) text ++ List.replicate count sign ∧
      (dropTail (· == sign) text).getLast? ≠ some sign := by
  have whole : dropTail (· == sign) text ++ text.rtakeWhile (· == sign) = text :=
    List.rdropWhile_append_rtakeWhile
  have run : text.rtakeWhile (· == sign) =
      List.replicate (text.rtakeWhile (· == sign)).length sign := by
    apply List.eq_replicate_iff.mpr
    constructor
    · rfl
    · intro c member
      simpa using List.mem_rtakeWhile_imp member
  refine ⟨_, run ▸ whole.symm, ?_⟩
  intro isLast
  have filled : dropTail (· == sign) text ≠ [] := by
    intro isEmpty
    rw [isEmpty] at isLast
    cases isLast
  apply List.rdropWhile_last_not (· == sign) text filled
  rw [List.getLast?_eq_some_getLast filled] at isLast
  exact beq_iff_eq.mpr (Option.some.inj isLast)

end Text

namespace AtxHeading

def IsClosing (closing : Text) : Prop :=
  ∃ hashes spaces, 1 ≤ hashes ∧
    closing = List.replicate hashes '#' ++ List.replicate spaces ' '

/-- The content ends with a closing sequence, which spaces set off from the text unless it is all
there is. -/
def Closed (content text : Text) : Prop :=
  text.Trimmed ∧ ∃ gap closing, IsClosing closing ∧
    content = text ++ List.replicate gap ' ' ++ closing ∧ (1 ≤ gap ∨ closing = content)

def Unclosed (content text : Text) : Prop :=
  text.Trimmed ∧ ∃ spaces, content = text ++ List.replicate spaces ' '

/-- The text of a heading with this content. A closing sequence is left out wherever there is
one. -/
def IsTextOf (content text : Text) : Prop :=
  Closed content text ∨ (∀ other, ¬ Closed content other) ∧ Unclosed content text

variable {content text : Text}

/-- The three cuts at the end of a content: its last spaces, its last hashes, and the spaces in
front of these. -/
theorem dropClosing_pieces {bare : Text} {hashes : Nat} (noHash : bare.getLast? ≠ some '#')
    (noSpace : (bare ++ List.replicate hashes '#').getLast? ≠ some ' ') (spaces : Nat) :
    dropClosing (bare ++ List.replicate hashes '#' ++ List.replicate spaces ' ') =
      if bare = [] then []
      else if 1 ≤ hashes ∧ bare.getLast? = some ' ' then Text.dropTail (· == ' ') bare
      else bare ++ List.replicate hashes '#' := by
  have longer : bare.length < (bare ++ List.replicate hashes '#').length ↔ 1 ≤ hashes := by
    simp only [List.length_append, List.length_replicate]
    omega
  simp only [dropClosing, Text.dropTail_append_replicate noSpace,
    Text.dropTail_append_replicate noHash, List.isEmpty_iff, longer, Bool.and_eq_true,
    decide_eq_true_eq, beq_iff_eq]

theorem dropClosing_of_closed (closed : Closed content text) : dropClosing content = text := by
  obtain ⟨trimmed, gap, _, ⟨hashes, spaces, many, rfl⟩, rfl, apart⟩ := closed
  have noSpace : (text ++ List.replicate gap ' ' ++ List.replicate hashes '#').getLast? ≠
      some ' ' := by
    rw [Text.getLast?_append_replicate _ '#' many]
    decide
  rw [← List.append_assoc]
  rcases apart with wide | alone
  · have space := Text.getLast?_append_replicate text ' ' wide
    have noHash : (text ++ List.replicate gap ' ').getLast? ≠ some '#' := by
      rw [space]
      decide
    have filled : text ++ List.replicate gap ' ' ≠ [] := by
      intro isEmpty
      simp [isEmpty] at space
    rw [dropClosing_pieces noHash noSpace, if_neg filled, if_pos ⟨many, space⟩]
    exact Text.dropTail_append_replicate trimmed.ends gap
  · have isEmpty : text ++ List.replicate gap ' ' = [] := List.self_eq_append_left.mp alone
    have noHash : (text ++ List.replicate gap ' ').getLast? ≠ some '#' := by
      rw [isEmpty]
      simp
    rw [dropClosing_pieces noHash noSpace, if_pos isEmpty]
    exact (List.append_eq_nil_iff.mp isEmpty).1.symm

theorem dropClosing_of_unclosed (none : ∀ other, ¬ Closed content other)
    (unclosed : Unclosed content text) : dropClosing content = text := by
  obtain ⟨trimmed, spaces, rfl⟩ := unclosed
  obtain ⟨hashes, whole, noHash⟩ := Text.exists_dropTail '#' text
  generalize Text.dropTail (· == '#') text = bare at whole noHash
  subst whole
  rw [dropClosing_pieces noHash trimmed.ends]
  split
  · rename_i isEmpty
    subst isEmpty
    cases hashes with
    | zero => rfl
    | succ hashes =>
      exfalso
      apply none []
      exact ⟨Text.trimmed_nil, 0, _, ⟨hashes + 1, spaces, by omega, rfl⟩, rfl, .inr rfl⟩
  · split
    · rename_i filled apart
      exfalso
      obtain ⟨gap, split, noSpace⟩ := Text.exists_dropTail ' ' bare
      generalize Text.dropTail (· == ' ') bare = other at split noSpace
      subst split
      have wide : 1 ≤ gap := by
        apply Nat.pos_of_ne_zero
        rintro rfl
        exact noSpace (by simpa using apart.2)
      have starts : other.head? ≠ some ' ' :=
        Text.head?_ne_of_append (Text.head?_ne_of_append trimmed.starts)
      apply none other
      exact ⟨⟨starts, noSpace⟩, gap, _, ⟨hashes, spaces, apart.1, rfl⟩,
        List.append_assoc .., .inl wide⟩
    · rfl

/-- Cutting off the ends gives the text, and there is no other text. -/
theorem isTextOf_iff (starts : content.head? ≠ some ' ') :
    IsTextOf content text ↔ dropClosing content = text := by
  constructor
  · rintro (closed | ⟨none, unclosed⟩)
    · exact dropClosing_of_closed closed
    · exact dropClosing_of_unclosed none unclosed
  · rintro rfl
    by_cases someClosed : ∃ other, Closed content other
    · obtain ⟨other, closed⟩ := someClosed
      left
      rwa [dropClosing_of_closed closed]
    · have none : ∀ other, ¬ Closed content other := not_exists.mp someClosed
      obtain ⟨spaces, whole, ends⟩ := Text.exists_dropTail ' ' content
      have trimmed : (Text.dropTail (· == ' ') content).Trimmed :=
        ⟨Text.head?_ne_of_append (whole ▸ starts), ends⟩
      have unclosed : Unclosed content (Text.dropTail (· == ' ') content) :=
        ⟨trimmed, spaces, whole⟩
      right
      rw [dropClosing_of_unclosed none unclosed]
      exact ⟨none, unclosed⟩

end AtxHeading

/-- The line of an ATX heading: the indent, the hashes and what follows. -/
structure HeadingSite where
  indent : Nat
  level : Nat
  after : Text

namespace HeadingSite

def opening (site : HeadingSite) : Text :=
  List.replicate site.indent ' ' ++ List.replicate site.level '#'

def Spells (site : HeadingSite) (rest : Text) : Prop :=
  rest = site.opening ++ site.after

/-- One to six hashes open a heading if they are indented by less than code and no word adjoins
them. -/
structure Opens (site : HeadingSite) : Prop where
  shallow : site.indent ≤ 3
  positive : 1 ≤ site.level
  few : site.level ≤ 6
  apart : site.after = [] ∨ site.after.head? = some ' '

/-- What a heading tells of its line. The content starts behind all the spaces that follow the
hashes, and it has no other text. -/
structure Tells (site : HeadingSite) (heading : AtxHeading) : Prop where
  level : heading.level = site.level
  content : ∃ gap content, site.after = List.replicate gap ' ' ++ content ∧
    content.head? ≠ some ' ' ∧
    heading.contentStart = Text.size (site.opening ++ List.replicate gap ' ') ∧
    AtxHeading.IsTextOf content heading.text ∧
    ∀ other, AtxHeading.IsTextOf content other → other = heading.text

def heading (site : HeadingSite) : AtxHeading where
  level := site.level
  contentStart := site.indent + site.level + Text.spaces site.after
  text := AtxHeading.dropClosing (Text.dropSpaces site.after)

variable {site : HeadingSite} {rest : Text}

theorem size_opening (site : HeadingSite) (gap : Nat) :
    Text.size (site.opening ++ List.replicate gap ' ') = site.indent + site.level + gap := by
  have hashes : Text.Plain (List.replicate site.level '#') :=
    .replicate (.cons (by decide) .nil) site.level
  have plain : Text.Plain (site.opening ++ List.replicate gap ' ') :=
    ((Text.replicate_plain site.indent).append hashes).append (Text.replicate_plain gap)
  rw [plain.size_eq_length]
  simp only [opening, List.length_append, List.length_replicate]

theorem tells_iff {heading : AtxHeading} : site.Tells heading ↔ heading = site.heading := by
  constructor
  · rintro ⟨level, gap, content, same, starts, contentStart, isText, _⟩
    have isGap : Text.spaces site.after = gap := by
      rw [same, Text.spaces_replicate_append starts]
    have isContent : Text.dropSpaces site.after = content := by
      rw [← Text.drop_spaces, isGap, same]
      exact List.drop_left' List.length_replicate
    have text := (AtxHeading.isTextOf_iff starts).mp isText
    rw [size_opening] at contentStart
    calc heading
        = ⟨heading.level, heading.contentStart, heading.text⟩ := rfl
      _ = ⟨site.level, site.indent + site.level + gap, AtxHeading.dropClosing content⟩ := by
          rw [level, contentStart, text]
      _ = site.heading := by
          rw [HeadingSite.heading, isGap, isContent]
  · rintro rfl
    have starts : (Text.dropSpaces site.after).head? ≠ some ' ' :=
      Text.head?_dropWhile_ne ' ' site.after
    have whole : List.replicate (Text.spaces site.after) ' ' ++
        site.after.drop (Text.spaces site.after) = site.after := Text.run_append_drop ' ' site.after
    rw [Text.drop_spaces] at whole
    constructor
    · rfl
    · refine ⟨_, _, whole.symm, starts, (site.size_opening _).symm,
        (AtxHeading.isTextOf_iff starts).mpr rfl, ?_⟩
      intro other isText
      exact ((AtxHeading.isTextOf_iff starts).mp isText).symm

theorem Opens.parse?_eq (opens : site.Opens) (spells : site.Spells rest) :
    AtxHeading.parse? rest = some site.heading := by
  obtain ⟨shallow, positive, few, apart⟩ := opens
  have whole : rest = List.replicate site.indent ' ' ++
      (List.replicate site.level '#' ++ site.after) := by
    rw [← List.append_assoc]
    exact spells
  have indent : Text.spaces rest = site.indent := by
    rw [whole]
    apply Text.spaces_replicate_append
    obtain ⟨more, same⟩ := Nat.exists_eq_add_of_le' positive
    simp [same, List.replicate_succ]
  have body : rest.drop site.indent = List.replicate site.level '#' ++ site.after := by
    rw [whole]
    exact List.drop_left' List.length_replicate
  have level : ((List.replicate site.level '#' ++ site.after).takeWhile (· == '#')).length =
      site.level := by
    rw [Text.takeWhile_replicate_append, List.length_replicate]
    rcases apart with isEnd | isSpace
    · simp [isEnd]
    · simp [isSpace]
  have after : (List.replicate site.level '#' ++ site.after).drop site.level = site.after :=
    List.drop_left' List.length_replicate
  have content : rest.drop (site.indent + site.level + Text.spaces site.after) =
      Text.dropSpaces site.after := by
    rw [← List.drop_drop, ← List.drop_drop, body, after, Text.drop_spaces]
  have noCode : ¬ codeIndent ≤ site.indent := by
    simp only [codeIndent]
    omega
  have fits : ¬ (site.level = 0 ∨ AtxHeading.maxLevel < site.level) := by
    simp only [AtxHeading.maxLevel]
    omega
  have isApart : (!site.after.isEmpty && site.after.head? != some ' ') = false := by
    rcases apart with isEnd | isSpace
    · simp [isEnd]
    · simp [isSpace]
  simp only [AtxHeading.parse?, indent, body, level, after, content, noCode, fits, isApart,
    if_false, Bool.false_eq_true]
  rfl

theorem exists_of_parse? {heading : AtxHeading} (found : AtxHeading.parse? rest = some heading) :
    ∃ site : HeadingSite, site.Spells rest ∧ site.Opens := by
  unfold AtxHeading.parse? at found
  dsimp only at found
  split at found
  · contradiction
  · rename_i noCode
    split at found
    · contradiction
    · rename_i fits
      split at found
      · contradiction
      · rename_i isApart
        simp only [codeIndent, AtxHeading.maxLevel] at noCode fits
        have spaces : List.replicate (Text.spaces rest) ' ' ++ rest.drop (Text.spaces rest) =
            rest := Text.run_append_drop ' ' rest
        have hashes := Text.run_append_drop '#' (rest.drop (Text.spaces rest))
        generalize ((rest.drop (Text.spaces rest)).takeWhile (· == '#')).length = level
          at fits isApart hashes
        generalize (rest.drop (Text.spaces rest)).drop level = after at isApart hashes
        have some : 1 ≤ level ∧ level ≤ 6 := by omega
        refine ⟨⟨Text.spaces rest, level, after⟩, ?_, Nat.le_of_not_lt noCode, some.1, some.2, ?_⟩
        · rw [Spells, opening, List.append_assoc, hashes, spaces]
        · by_cases isEnd : after = []
          · exact .inl isEnd
          · right
            simpa [isEnd] using isApart

end HeadingSite

/-- A text is read as a heading exactly if hashes open one there, and the heading tells how the text
goes on. -/
theorem AtxHeading.parse?_grammar (rest : Text) :
    ((∃ heading, parse? rest = some heading) ↔
      ∃ site : HeadingSite, site.Spells rest ∧ site.Opens) ∧
    ∀ heading, parse? rest = some heading ↔
      ∃ site : HeadingSite, site.Spells rest ∧ site.Opens ∧ site.Tells heading := by
  constructor
  · constructor
    · rintro ⟨heading, found⟩
      exact HeadingSite.exists_of_parse? found
    · rintro ⟨site, spells, opens⟩
      exact ⟨site.heading, opens.parse?_eq spells⟩
  · intro heading
    constructor
    · intro found
      obtain ⟨site, spells, opens⟩ := HeadingSite.exists_of_parse? found
      refine ⟨site, spells, opens, HeadingSite.tells_iff.mpr ?_⟩
      exact Option.some.inj (found.symm.trans (opens.parse?_eq spells))
    · rintro ⟨site, spells, opens, tells⟩
      rw [HeadingSite.tells_iff.mp tells]
      exact opens.parse?_eq spells

-- Of two groups of hashes only the last closes the heading.
example : AtxHeading.parse? [' ', '#', '#', ' ', 'a', ' ', '#', ' ', '#', '#', ' '] =
    some ⟨2, 4, ['a', ' ', '#']⟩ := by
  decide

end BlockLint
