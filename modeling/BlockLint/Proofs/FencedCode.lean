import BlockLint.Proofs.CodeStarts

/-!
Fenced code is taken as it stands. From the line of the fence on, each line that continues the
containers around it is one content of the code, whatever it looks like, until one closes the fence.
A line that does not continue them ends the code, and so does the end of the document.

One line either adds a content or ends the code. The contents of a run are then got by induction on
the lines.
-/
namespace BlockLint

namespace Fence

/-- The line belongs to the code behind the fence, and the token is its content. -/
structure Holds (fence : Fence) (containers : Containers) (line : Line) (content : Token) :
    Prop where
  rest : ∃ rest, containers.rest? line = some rest ∧ fence.closes rest = false ∧
    content.kind = .leafContent (rest.drop (min (Text.spaces rest) fence.indent)) false
  place : content.position.line = line.number

/-- The token ends the code behind the fence before the lines that follow, or on the first of
them. -/
structure Ends (fence : Fence) (containers : Containers) (stop : Token) (later : List Line) :
    Prop where
  kind : ∃ natural, stop.kind = .leafEnd fence.leafKind natural
  closes : stop.literal ≠ [] ↔ ∃ line rest, later.head? = some line ∧
    containers.rest? line = some rest ∧ fence.closes rest = true ∧
    stop.position.line = line.number
  leaves : stop.literal = [] → ∀ line, later.head? = some line → containers.rest? line = none

theorem ends_of_leaves (fence : Fence) {containers : Containers} (natural : Bool)
    (position : Position) {later : List Line}
    (leaves : ∀ line, later.head? = some line → containers.rest? line = none) :
    fence.Ends containers (endToken (.leafEnd fence.leafKind natural) position) later where
  kind := ⟨natural, rfl⟩
  closes := by
    constructor
    · intro written
      exact absurd rfl written
    · rintro ⟨line, rest, isNext, continues, _⟩
      rw [leaves line isNext] at continues
      cases continues
  leaves := fun _ => leaves

end Fence

namespace Tokenizer

/-- A line while a fence is open is a content of the code or ends it. -/
theorem lineEffect_fenced (containers : Containers) {fence : Fence}
    (coherent : (OpenLeaf.fencedCode fence).Coherent) (line : Line) :
    (∃ content, lineEffect containers (.fencedCode fence) line =
        ⟨[content], containers, .fencedCode fence⟩ ∧ fence.Holds containers line content) ∨
      ∃ stop rest, (lineEffect containers (.fencedCode fence) line).written = stop :: rest ∧
        ∀ later, fence.Ends containers stop (line :: later) := by
  generalize matching : containers.matchLine line.expanded = found
  have continued (all : found.depth = containers.length) :
      containers.rest? line = some found.cursor.rest := by
    simp only [Containers.rest?, matching, all, if_true]
  have missed (missing : found.depth ≠ containers.length) (natural : Bool) (position : Position)
      (later : List Line) : fence.Ends containers
        (endToken (.leafEnd fence.leafKind natural) position) (line :: later) := by
    refine fence.ends_of_leaves natural position ?_
    intro next isNext
    cases isNext
    simp only [Containers.rest?, matching, missing, if_false]
  refine lineEffect_cases
    (motive := fun effect => (∃ content, effect = ⟨[content], containers, .fencedCode fence⟩ ∧
        fence.Holds containers line content) ∨
      ∃ stop rest, effect.written = stop :: rest ∧
        ∀ later, fence.Ends containers stop (line :: later))
    containers (.fencedCode fence) line matching ?fenced ?opened ?matched ?lazy ?unmatched
  case fenced =>
    intro _ same all
    cases same
    cases closes : fence.closes found.cursor.rest with
    | true =>
      have written : literalFrom line found.cursor ≠ [] := by
        intro nothing
        exact Fence.rest_ne_nil_of_closes coherent closes (List.append_eq_nil_iff.mp nothing).1
      simp only [fencedLine, closes, if_true]
      refine .inr ⟨_, _, rfl, fun later => ⟨⟨true, rfl⟩, ?_, fun none => absurd none written⟩⟩
      exact ⟨fun _ => ⟨line, _, rfl, continued all, closes, rfl⟩, fun _ => written⟩
    | false =>
      simp only [fencedLine, closes, Bool.false_eq_true, if_false]
      exact .inl ⟨_, rfl, ⟨_, continued all, closes, rfl⟩, rfl⟩
  case opened =>
    intro first later c _ noFence
    -- Inside the fence no markers are looked for, so this line has left a container.
    have missing : found.depth ≠ containers.length := fun all => noFence all fence rfl
    obtain ⟨natural, position, ⟨rest, closes⟩⟩ := close_prefix_openFirst line
      (found.lead line.expanded) containers (.fencedCode fence) found.depth first
    simp only [openedLine, ← closes, OpenLeaf.close, List.cons_append]
    exact .inr ⟨_, _, rfl, missed missing natural position⟩
  case matched =>
    intro _ noFence _
    exact absurd rfl (noFence fence)
  case lazy =>
    intro _ _ isParagraph
    cases isParagraph
  case unmatched =>
    intro missing _ _
    exact .inr ⟨_, _, rfl, missed missing found.cursor.isBlank (line.position found.cursor.offset)⟩

/-- While a fence is open, the lines that follow are contents up to the end of the code. -/
theorem runFrom_fenced {state : State} {fence : Fence} (isFence : state.leaf = .fencedCode fence)
    (coherent : state.leaf.Coherent) (lines : List Line) :
    ∃ inside later contents stop rest, lines = inside ++ later ∧
      runFrom state lines = contents ++ stop :: rest ∧
      List.Forall₂ (fence.Holds state.containers) inside contents ∧
      fence.Ends state.containers stop later := by
  rw [isFence] at coherent
  induction lines generalizing state with
  | nil =>
    rw [runFrom, finish, isFence]
    exact ⟨[], [], [], _, _, rfl, rfl, .nil, fence.ends_of_leaves false state.reached (by simp)⟩
  | cons line later ih =>
    rw [runFrom]
    simp only [step, isFence]
    rcases lineEffect_fenced state.containers coherent line with ⟨content, effect, holds⟩ |
      ⟨stop, rest, written, ends⟩
    · have stays : (⟨state.containers, .fencedCode fence, line.endPosition⟩ : State).leaf =
          .fencedCode fence := rfl
      obtain ⟨inside, others, contents, stop, rest, rfl, tokens, each, ends⟩ := ih stays
      rw [effect]
      exact ⟨line :: inside, others, content :: contents, stop, rest, rfl, by simp [tokens],
        .cons holds each, ends⟩
    · rw [written]
      exact ⟨[], line :: later, [], stop, _, rfl, rfl, .nil, ends later⟩

/-- Behind a fence the code is what the lines are, one content for each line, up to the line that
closes the fence or leaves its containers. -/
theorem fenced_code_raw {text : Text} {tabWidth : Nat} {before after : List Token}
    {opening : Token} {sign : Char} {length : Nat} {info : Text}
    (split : tokenize text tabWidth = before ++ opening :: after)
    (isFence : opening.kind = .leafStart (.fencedCode sign length info)) :
    ∃ earlier line inside later fence contents stop rest,
      (Source.ofText text tabWidth).lines = earlier ++ line :: (inside ++ later) ∧
      line.number = opening.position.line ∧
      writtenFrom .initial (earlier ++ [line]) = before ++ [opening] ∧
      Fence.open? (pastMarkers (stateAfter .initial earlier).containers
        (stateAfter .initial earlier).leaf line).rest = some fence ∧
      fence.leafKind = .fencedCode sign length info ∧
      after = contents ++ stop :: rest ∧
      List.Forall₂ (fence.Holds (stateAfter .initial (earlier ++ [line])).containers)
        inside contents ∧
      contents.map (·.position.line) =
        List.range' (opening.position.line + 1) contents.length ∧
      fence.Ends (stateAfter .initial (earlier ++ [line])).containers stop later := by
  have initial : State.initial.leaf.Coherent := trivial
  obtain ⟨earlier, line, others, back, lines, starts, written, rfl⟩ :=
    exists_codeLine split (by rw [isFence]; rfl)
  have onLine := starts.onLine
  generalize isOpen : (stateAfter .initial (earlier ++ [line])).leaf = leaf at starts
  cases starts with
  | indented => cases isFence
  | @fenced fence lead opens =>
    obtain ⟨inside, later, contents, stop, rest, rfl, tokens, each, ends⟩ := runFrom_fenced isOpen
      (stateAfter_coherent .initial initial (earlier ++ [line])) others
    refine ⟨earlier, line, inside, later, fence, contents, stop, rest, lines, onLine.symm, written,
      opens, ?_, tokens, each, ?_, ends⟩
    · exact TokenKind.leafStart.inj isFence
    · rw [places_of_forall₂ (fun _ _ holds => holds.place) each, Source.numbers_behind lines,
        each.length_eq, onLine]

theorem fenced_code_raw_quoted_hash :
    ∃ opening after, tokenize ['>', ' ', '~', '~', '~', '\n', '>', ' ', '#', ' ', 'a', '\n', '>',
        ' ', '~', '~', '~'] 4 =
      [⟨.containerStart .blockQuote none, ⟨1, 1⟩, [], ['>', ' ']⟩] ++ opening :: after ∧
    opening.kind = .leafStart (.fencedCode '~' 3 []) ∧
    ∃ (fence : Fence) (containers : Containers) (inside later : List Line) (contents : List Token)
        (stop : Token) (rest : List Token),
      fence.leafKind = .fencedCode '~' 3 [] ∧ after = contents ++ stop :: rest ∧
      List.Forall₂ (fence.Holds containers) inside contents ∧
      contents.map (·.position.line) = List.range' 2 contents.length ∧
      fence.Ends containers stop later := by
  have tokens : tokenize ['>', ' ', '~', '~', '~', '\n', '>', ' ', '#', ' ', 'a', '\n', '>', ' ',
        '~', '~', '~'] 4 =
      [⟨.containerStart .blockQuote none, ⟨1, 1⟩, [], ['>', ' ']⟩] ++
        ⟨.leafStart (.fencedCode '~' 3 []), ⟨1, 3⟩, [], ['~', '~', '~', '\n']⟩ ::
        [⟨.leafContent ['#', ' ', 'a'] false, ⟨2, 3⟩, ['>', ' '], ['#', ' ', 'a', '\n']⟩,
          ⟨.leafEnd (.fencedCode '~' 3 []) true, ⟨3, 3⟩, ['>', ' '], ['~', '~', '~']⟩,
          ⟨.containerEnd .blockQuote false, ⟨3, 6⟩, [], []⟩] := by
    decide +kernel
  obtain ⟨_, _, inside, later, fence, contents, stop, rest, _, _, _, _, kind, behind, each, places,
    ends⟩ := fenced_code_raw tokens rfl
  exact ⟨_, _, tokens, rfl, fence, _, inside, later, contents, stop, rest, kind, behind, each,
    places, ends⟩

end Tokenizer
end BlockLint
