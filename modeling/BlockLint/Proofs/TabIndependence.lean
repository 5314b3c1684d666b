import BlockLint.Proofs.Correspondence
import BlockLint.Proofs.TabExpansion

/-!
Tokens depend on a line only through its number and its expanded text. Tabs, tab widths and endings
show in columns and at the ends of literals, never in the structure.

Columns of a line with tabs are told by the columns of the expanded line: the same byte of expanded
text has a column in both.
-/
namespace BlockLint

/-- One number and one expanded text, whatever the tabs, the tab widths and the endings. -/
structure Line.SameExpansion (line line' : Line) : Prop where
  number : line'.number = line.number
  expanded : line'.expanded = line.expanded

/-- Both literals are the same piece of the line, with the line's own ending in both or in
neither. -/
def Line.SameLiteral (line line' : Line) (literal literal' : Text) : Prop :=
  ∃ body, body <:+: line.expanded ∧
    (literal = body ∧ literal' = body ∨
      literal = body ++ line.ending ∧ literal' = body ++ line'.ending)

/-- Both positions are of the same place in the expanded text. -/
def Line.SamePlace (line line' : Line) (position position' : Position) : Prop :=
  ∃ left right, line.expanded = left ++ right ∧
    position = line.position (Text.size left) ∧ position' = line'.position (Text.size left)

def Likeness.ofLines (lines lines' : List Line) : Likeness where
  rel position literal position' literal' :=
    ∃ line line', (line, line') ∈ lines.zip lines' ∧
      line.SamePlace line' position position' ∧ line.SameLiteral line' literal literal'
  bare := by
    rintro position position' literal literal' ⟨line, line', pair, place, _⟩
    exact ⟨line, line', pair, place, [], List.nil_infix, .inl ⟨rfl, rfl⟩⟩

theorem Line.SamePlace.of_reaches {line : Line} (line' : Line) {c : Cursor}
    (reaches : (Cursor.start line.expanded).Reaches c) :
    line.SamePlace line' (line.position c.offset) (line'.position c.offset) := by
  have size := reaches.size_upTo
  rw [Cursor.start_offset, Nat.zero_add] at size
  exact ⟨_, c.rest, reaches.passed.2, by rw [size], by rw [size]⟩

theorem Line.SameExpansion.alike {lines lines' : List Line} {line line' : Line}
    (same : line.SameExpansion line') (pair : (line, line') ∈ lines.zip lines') :
    line.Alike (.ofLines lines lines') line' := by
  refine ⟨same.expanded, ?_, ?_, ?_⟩
  · intro c literal reaches within
    exact ⟨line, line', pair, .of_reaches line' reaches, literal, within, .inl ⟨rfl, rfl⟩⟩
  · intro c body reaches within
    exact ⟨line, line', pair, .of_reaches line' reaches, body, within.isInfix, .inr ⟨rfl, rfl⟩⟩
  · refine ⟨line, line', pair, ?_, [], List.nil_infix, .inl ⟨rfl, rfl⟩⟩
    refine ⟨line.expanded, [], (List.append_nil _).symm, line.position_size.symm, ?_⟩
    rw [← same.expanded]
    exact line'.position_size.symm

theorem run_alike {lines lines' : List Line}
    (same : List.Forall₂ Line.SameExpansion lines lines') :
    List.Forall₂ (Token.Alike (.ofLines lines lines')) (Tokenizer.run lines)
      (Tokenizer.run lines') := by
  obtain ⟨length, pairs⟩ := List.forall₂_iff_zip.mp same
  have alike : List.Forall₂ (Line.Alike (.ofLines lines lines')) lines lines' :=
    List.forall₂_iff_zip.mpr ⟨length, fun pair => (pairs pair).alike pair⟩
  exact Tokenizer.runFrom_alike alike ⟨rfl, .none, .inr ⟨rfl, rfl⟩⟩

/-- The token of a line and that of the expanded line. The column of the second is that of a
character of expanded text, and the first has the column of that character's first byte. -/
structure Token.Expanded (line : Line) (token token' : Token) : Prop where
  kind : token'.kind = token.kind
  number : token'.position.line = token.position.line
  lead : token'.lead = token.lead
  literal : token'.literal = token.literal
  column : token.position.column =
    line.column (Text.size (line.expanded.take (token'.position.column - 1)))

theorem Token.Alike.expanded {lines lines' : List Line} {token token' : Token}
    (same : List.Forall₂ Line.Expanded lines lines')
    (alike : Token.Alike (.ofLines lines lines') token token') :
    ∃ line ∈ lines, token.position.line = line.number ∧ Token.Expanded line token token' := by
  obtain ⟨line, line', pair, ⟨left, right, whole, place, place'⟩, body, _, literals⟩ := alike.share
  have expanded := (List.forall₂_iff_zip.mp same).2 pair
  have column : token'.position.column = left.length + 1 := by
    rw [place']
    exact Line.column_left expanded.noTab (expanded.text.trans whole)
  refine ⟨line, (List.of_mem_zip pair).1, by rw [place]; rfl,
    alike.kind, ?_, alike.lead, ?_, ?_⟩
  · rw [place, place']
    exact expanded.number
  · rw [expanded.ending] at literals
    rcases literals with ⟨first, second⟩ | ⟨first, second⟩
    · rw [first, second]
    · rw [first, second]
  · rw [column, whole, Nat.add_sub_cancel, List.take_left, place]
    rfl

structure Token.SameButEnding (lines lines' : List Line) (token token' : Token) : Prop where
  kind : token'.kind = token.kind
  number : token'.position.line = token.position.line
  lead : token'.lead = token.lead
  literal : ∃ line line', (line, line') ∈ lines.zip lines' ∧ token.position.line = line.number ∧
    line.SameLiteral line' token.literal token'.literal

theorem Token.Alike.sameButEnding {lines lines' : List Line} {token token' : Token}
    (same : List.Forall₂ Line.SameExpansion lines lines')
    (alike : Token.Alike (.ofLines lines lines') token token') :
    Token.SameButEnding lines lines' token token' := by
  obtain ⟨line, line', pair, ⟨left, _, _, place, place'⟩, literal⟩ := alike.share
  have number := ((List.forall₂_iff_zip.mp same).2 pair).number
  refine ⟨alike.kind, ?_, alike.lead, line, line', pair, ?_, literal⟩
  · rw [place, place']
    exact number
  · rw [place]
    rfl

/-- Runs on lines of the same numbers and expanded texts agree token by token in all but columns and
endings. So do the tokens of a document and those of the document with its tabs expanded, and their
columns tell the same bytes of expanded text. -/
theorem tokens_of_expansion :
    (∀ lines lines' : List Line, List.Forall₂ Line.SameExpansion lines lines' →
      List.Forall₂ (Token.SameButEnding lines lines') (Tokenizer.run lines)
        (Tokenizer.run lines')) ∧
    ∀ (text : Text) (tabWidth tabWidth' : Nat),
      List.Forall₂ (fun token token' =>
        ∃ line, (Source.ofText text tabWidth).line? token.position.line = some line ∧
          Token.Expanded line token token')
        (tokenize text tabWidth)
        (tokenize (Source.ofText text tabWidth).expandedText tabWidth') := by
  constructor
  · intro lines lines' same
    exact (run_alike same).imp fun token token' alike => alike.sameButEnding same
  · intro text tabWidth tabWidth'
    have lines := Source.lines_expandedText text tabWidth tabWidth'
    have same : List.Forall₂ Line.SameExpansion _ _ := lines.imp fun line line' expanded =>
      ⟨expanded.number, (Line.expanded_eq_text expanded.noTab).trans expanded.text⟩
    refine (run_alike same).imp fun token token' alike => ?_
    obtain ⟨line, isLine, number, expanded⟩ := alike.expanded lines
    exact ⟨line, number ▸ Source.line?_number isLine, expanded⟩

theorem tokens_of_expansion_returned :
    let lines : List Line := [⟨1, ⟨0, 5⟩, ['-', '\t', 'b'], ['\r', '\n'], 4⟩]
    let lines' : List Line := [⟨1, ⟨0, 6⟩, ['-', ' ', ' ', ' ', 'b'], ['\n'], 8⟩]
    List.Forall₂ Line.SameExpansion lines lines' ∧
      List.Forall₂ (Token.SameButEnding lines lines') (Tokenizer.run lines)
        (Tokenizer.run lines') ∧
      List.Forall₂ (fun token token' =>
        ∃ line, (Source.ofText ['-', '\t', 'b', '\r', '\n'] 4).line? token.position.line =
          some line ∧ Token.Expanded line token token')
        (tokenize ['-', '\t', 'b', '\r', '\n'] 4)
        (tokenize ['-', ' ', ' ', ' ', 'b', '\r', '\n'] 2) := by
  intro lines lines'
  obtain ⟨runs, documents⟩ := tokens_of_expansion
  have same : List.Forall₂ Line.SameExpansion lines lines' := .cons ⟨rfl, by decide⟩ .nil
  have expanded : (Source.ofText ['-', '\t', 'b', '\r', '\n'] 4).expandedText =
      ['-', ' ', ' ', ' ', 'b', '\r', '\n'] := by decide
  exact ⟨same, runs lines lines' same, expanded ▸ documents ['-', '\t', 'b', '\r', '\n'] 4 2⟩

end BlockLint
