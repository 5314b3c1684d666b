import BlockLint.Linter
import BlockLint.Proofs.NaturalEnds
import BlockLint.Proofs.OutermostLists
import BlockLint.Proofs.Scan
import Mathlib.Data.List.Basic

/-!
What is found about blank lines around lists. The rule walks over the tokens with a state, and it
judges the end of a list only at the token after it. All that it finds can be read off the stream,
list by list: from the token before an outermost list, and from those around its end.
-/
namespace BlockLint

namespace TokenKind

def isContent : TokenKind → Bool
  | .leafStart _ | .leafContent _ _ | .newListItem _ _ => true
  | _ => false

def isMarkerOrText : TokenKind → Bool
  | .containerStart _ _ => true
  | kind => kind.isContent

def opensBlock : TokenKind → Bool
  | .leafStart _ | .containerStart _ _ => true
  | _ => false

end TokenKind

/-- The last token that is not the end of a block. -/
def nearest? (before : List Token) : Option Token :=
  (shown before).getLast?

def lastFilledLine (before : List Token) : Nat :=
  ((before.filter (·.kind.isMarkerOrText)).getLast?.map (·.position.line)).getD 0

theorem nearest?_concat (before : List Token) (token : Token) :
    nearest? (before ++ [token]) = if token.isEnd then nearest? before else some token := by
  cases isEnd : token.isEnd <;> simp [nearest?, shown, isEnd]

theorem lastFilledLine_concat (before : List Token) (token : Token) :
    lastFilledLine (before ++ [token]) =
      if token.kind.isMarkerOrText then token.position.line else lastFilledLine before := by
  cases shows : token.kind.isMarkerOrText <;> simp [lastFilledLine, shows]

namespace ListPlace

def upToEnd (list : ListPlace) (extent : Extent) : List Token :=
  list.before ++ list.start :: extent.inside

def earlyFinding (list : ListPlace) : Finding :=
  ⟨list.start.position, some "before list"⟩

/-- On the last line of the list that holds a marker or a text, under the list's first marker. -/
def lateFinding (list : ListPlace) (extent : Extent) : Finding :=
  ⟨⟨lastFilledLine (list.upToEnd extent), list.start.position.column⟩, some "after list"⟩

def early (list : ListPlace) : List Finding :=
  if (nearest? list.before).any (·.kind.isContent) then [list.earlyFinding] else []

def late (list : ListPlace) : List Finding :=
  match list.extent? with
  | none => []
  | some extent =>
    if extent.later.head?.any (·.kind.opensBlock) &&
        !(nearest? (list.upToEnd extent)).any (·.kind == .blankLine) then
      [list.lateFinding extent]
    else []

end ListPlace

namespace Rule

def Previous.of : Option Token → Previous
  | none => .nothing
  | some token =>
    match token.kind with
    | .blankLine => .blank
    | .containerStart _ _ => .containerStart
    | .leafStart _ | .leafContent _ _ | .newListItem _ _ => .content
    | .containerEnd _ _ | .leafEnd _ _ => .nothing

theorem Previous.of_eq_content (token : Option Token) :
    (Previous.of token == .content) = token.any (·.kind.isContent) := by
  rcases token with _ | ⟨kind, _⟩
  · rfl
  · cases kind <;> rfl

theorem Previous.of_eq_blank (token : Option Token) :
    (Previous.of token == .blank) = token.any (·.kind == .blankLine) := by
  rcases token with _ | ⟨kind, _⟩
  · rfl
  · cases kind <;> rfl

def EndedList.owed (list : EndedList) (tokens : List Token) : List Finding :=
  match tokens.head? with
  | none => []
  | some next =>
    if ListBlanks.separated list next.kind then []
    else [⟨⟨list.lastLine, list.column⟩, some "after list"⟩]

namespace ListBlanks

/-- The state after tokens of which the last ended no outermost list. -/
def seen (before : List Token) (listColumn : Nat) : ListBlanks where
  containers := (Outline.empty.after before).containers
  previous := Previous.of (nearest? before)
  lastLine := lastFilledLine before
  listColumn
  ended := none

theorem next_containerStart (state : ListBlanks) (token : Token) {container : ContainerKind}
    {item : Option ItemGeometry} {outermost : Bool}
    (starts : token.kind = .containerStart container item)
    (isOutermost : (container.isList && !state.insideList) = outermost) :
    state.next token =
      ({ containers := container :: state.containers
         previous := .containerStart
         lastLine := token.position.line
         listColumn := if outermost then token.position.column else state.listColumn
         ended := none },
        state.afterList token.kind ++
          if outermost && state.previous == .content then
            [⟨token.position, some "before list"⟩]
          else []) := by
  subst isOutermost
  unfold next
  rw [starts]
  rfl

theorem next_containerEnd (state : ListBlanks) (token : Token) {container : ContainerKind}
    {natural outermost : Bool} (ends : token.kind = .containerEnd container natural)
    (isOutermost : (state.containers.head?.any ContainerKind.isList &&
      !state.containers.tail.any ContainerKind.isList) = outermost) :
    state.next token =
      ({ state with
          containers := state.containers.tail
          ended :=
            if outermost then
              some
                { lastLine := state.lastLine
                  column := state.listColumn
                  blankBefore := state.previous == .blank
                  natural }
            else none },
        state.afterList token.kind) := by
  unfold next
  rw [ends]
  cases outermost with
  | false => exact if_neg (Bool.eq_false_iff.mp isOutermost)
  | true => exact if_pos isOutermost

/-- The token after a list tells what is owed, and then counts as if no list had ended. -/
theorem next_ended (state : ListBlanks) (list : EndedList) (token : Token) (rest : List Token) :
    next { state with ended := some list } token =
      ((next { state with ended := none } token).1,
        list.owed (token :: rest) ++ (next { state with ended := none } token).2) := by
  obtain ⟨kind, position, lead, literal⟩ := token
  cases kind with
  | containerStart container item => rfl
  | containerEnd container natural =>
    rw [next_containerEnd _ _ rfl rfl, next_containerEnd _ _ rfl rfl]
    exact congrArg (Prod.mk _) (List.append_nil _).symm
  | _ => exact congrArg (Prod.mk _) (List.append_nil _).symm

theorem findings_ended (state : ListBlanks) (list : EndedList) (tokens : List Token) :
    Plugin.findings next { state with ended := some list } tokens =
      list.owed tokens ++
        Plugin.findings next { state with ended := none } tokens := by
  cases tokens with
  | nil => rfl
  | cons token rest =>
    rw [Plugin.findings, Plugin.findings, next_ended state list token rest, List.append_assoc]

theorem seen_concat (before : List Token) (token : Token) (column : Nat) :
    seen (before ++ [token]) column =
      { containers := ((Outline.empty.after before).next token.kind).containers
        previous := Previous.of (if token.isEnd then nearest? before else some token)
        lastLine :=
          if token.kind.isMarkerOrText then token.position.line else lastFilledLine before
        listColumn := column
        ended := none } := by
  rw [seen, nearest?_concat, lastFilledLine_concat, Outline.after_append]
  rfl

theorem next_of_start {before : List Token} {token : Token} (column : Nat) (after : List Token)
    (starts : token.startsList = true)
    (outside : (Outline.empty.after before).insideList = false) :
    (seen before column).next token =
      (seen (before ++ [token]) token.position.column, ListPlace.early ⟨before, token, after⟩) := by
  obtain ⟨kind, position, lead, literal⟩ := token
  cases kind with
  | containerStart container item =>
    have isList : container.isList = true := starts
    have outermost : (container.isList && !(seen before column).insideList) = true := by
      rw [isList]
      exact congrArg (!·) outside
    rw [seen_concat, ListPlace.early, ← Previous.of_eq_content,
      next_containerStart _ _ rfl outermost]
    rfl
  | _ => cases starts

theorem next_of_end {before : List Token} {token : Token} (column : Nat)
    {container closed : ContainerKind} {natural : Bool} {outer : List ContainerKind}
    (ends : token.kind = .containerEnd closed natural)
    (same : (Outline.empty.after before).containers = container :: outer)
    (isList : container.isList = true) (outermost : outer.any ContainerKind.isList = false) :
    (seen before column).next token =
      ({ seen (before ++ [token]) column with
          ended := some
            { lastLine := lastFilledLine before
              column
              blankBefore := (nearest? before).any (·.kind == .blankLine)
              natural } }, []) := by
  have isOutermost : ((seen before column).containers.head?.any ContainerKind.isList &&
      !(seen before column).containers.tail.any ContainerKind.isList) = true := by
    simp [seen, same, isList, outermost]
  obtain ⟨kind, position, lead, literal⟩ := token
  cases ends
  rw [seen_concat, ← Previous.of_eq_blank, next_containerEnd _ _ rfl isOutermost]
  rfl

def turns (before : List Token) (token : Token) : Bool :=
  match token.kind with
  | .containerStart container _ =>
    container.isList && !(Outline.empty.after before).insideList
  | .containerEnd _ _ =>
    (Outline.empty.after before).containers.head?.any ContainerKind.isList &&
      !(Outline.empty.after before).containers.tail.any ContainerKind.isList
  | _ => false

theorem next_of_other {before : List Token} {token : Token} (column : Nat)
    (stays : turns before token = false) :
    (seen before column).next token = (seen (before ++ [token]) column, []) := by
  obtain ⟨kind, position, lead, literal⟩ := token
  rw [seen_concat]
  cases kind with
  | containerStart container item =>
    have nested : (container.isList && !(seen before column).insideList) = false := stays
    rw [next_containerStart _ _ rfl nested]
    rfl
  | containerEnd container natural =>
    have nested : ((seen before column).containers.head?.any ContainerKind.isList &&
      !(seen before column).containers.tail.any ContainerKind.isList) = false := stays
    rw [next_containerEnd _ _ rfl nested]
    rfl
  | _ => rfl

/-- What is found at the end of a list in which `depth` containers are open. Here the mark of the
end counts, too. -/
def lateFrom (before : List Token) (column depth : Nat) (tokens : List Token) : List Finding :=
  match extent? depth tokens with
  | none => []
  | some extent =>
    EndedList.owed
      { lastLine := lastFilledLine (before ++ extent.inside)
        column
        blankBefore := (nearest? (before ++ extent.inside)).any (·.kind == .blankLine)
        natural := extent.close.closed?.any (·.2) } extent.later

theorem lateFrom_cons {before rest : List Token} {token : Token} {depth depth' : Nat}
    (column : Nat) (stays : token.kind.depthAfter depth = some depth') :
    lateFrom before column depth (token :: rest) =
      lateFrom (before ++ [token]) column depth' rest := by
  rw [lateFrom, lateFrom, extent?_of_stays stays]
  cases extent? depth' rest with
  | none => rfl
  | some extent =>
    simp only [Option.map_some, Extent.behind, List.append_assoc, List.singleton_append]

def found (list : ListPlace) : List Finding :=
  list.early ++ lateFrom (list.before ++ [list.start]) list.start.position.column 0 list.after

theorem turns_of_outside {before : List Token} {token : Token}
    (outside : (Outline.empty.after before).insideList = false)
    (noList : token.startsList = false) : turns before token = false := by
  obtain ⟨kind, position, lead, literal⟩ := token
  cases kind with
  | containerStart container item =>
    have isQuote : container.isList = false := noList
    simp [turns, isQuote]
  | containerEnd container natural =>
    unfold Outline.insideList at outside
    cases same : (Outline.empty.after before).containers with
    | nil => simp [turns, same]
    | cons innermost outer =>
      rw [same, List.any_cons, Bool.or_eq_false_iff] at outside
      simp [turns, same, outside.1]
  | _ => rfl

theorem outside_concat {before : List Token} {token : Token}
    (outside : (Outline.empty.after before).insideList = false)
    (noList : token.startsList = false) :
    (Outline.empty.after (before ++ [token])).insideList = false := by
  unfold Outline.insideList at outside ⊢
  rw [Outline.after_append, Outline.after_cons, Outline.after_nil, Outline.next_containers]
  obtain ⟨kind, position, lead, literal⟩ := token
  cases kind with
  | containerStart container item =>
    have isQuote : container.isList = false := noList
    simpa [TokenKind.containersAfter, isQuote] using outside
  | containerEnd container natural =>
    cases same : (Outline.empty.after before).containers with
    | nil => rfl
    | cons innermost outer =>
      rw [same, List.any_cons, Bool.or_eq_false_iff] at outside
      exact outside.2
  | _ => exact outside

theorem turns_of_inside {before : List Token} {token : Token} {inner outer : List ContainerKind}
    {container : ContainerKind} {depth : Nat}
    (same : (Outline.empty.after before).containers = inner ++ container :: outer)
    (isList : container.isList = true)
    (stays : token.kind.depthAfter inner.length = some depth) : turns before token = false := by
  obtain ⟨kind, position, lead, literal⟩ := token
  cases kind with
  | containerStart opened item => simp [turns, Outline.insideList, same, isList]
  | containerEnd closed natural =>
    cases inner with
    | nil => cases stays
    | cons innermost inner => simp [turns, same, isList]
  | _ => rfl

/-- The rule finds for each outermost list what is found for it alone. While a list is open, there
is also what that list has still to come. -/
theorem findings_seen (before : List Token) (column : Nat) (tokens : List Token) :
    ((Outline.empty.after before).insideList = false →
      Plugin.findings next (seen before column) tokens =
        (outermostFrom before tokens).flatMap found) ∧
    ∀ inner container outer,
      (Outline.empty.after before).containers = inner ++ container :: outer →
      container.isList = true → outer.any ContainerKind.isList = false →
      Plugin.findings next (seen before column) tokens =
        lateFrom before column inner.length tokens ++
          (outermostFrom before tokens).flatMap found := by
  induction tokens generalizing before column with
  | nil => exact ⟨fun _ => rfl, fun _ _ _ _ _ _ => rfl⟩
  | cons token rest ih =>
    have concat : (Outline.empty.after (before ++ [token])).containers =
        token.kind.containersAfter (Outline.empty.after before).containers := by
      rw [Outline.after_append]
      exact Outline.next_containers _ _
    constructor
    · intro outside
      cases starts : token.startsList with
      | true =>
        obtain ⟨container, item, kind, isList⟩ : ∃ container item,
            token.kind = .containerStart container item ∧ container.isList = true := by
          unfold Token.startsList Token.opened? at starts
          split at starts
          · rename_i container item kind
            exact ⟨container, item, kind, starts⟩
          · cases starts
        rw [kind] at concat
        rw [Plugin.findings, next_of_start column rest starts outside, outermostFrom,
          if_pos (by simp [starts, outside]), List.flatMap_cons,
          (ih (before ++ [token]) token.position.column).2 [] container _ concat isList outside]
        exact (List.append_assoc ..).symm
      | false =>
        rw [Plugin.findings, next_of_other column (turns_of_outside outside starts), outermostFrom,
          if_neg (by simp [starts])]
        exact (ih (before ++ [token]) column).1 (outside_concat outside starts)
    · intro inner container outer same isList outermost
      have inside : (Outline.empty.after before).insideList = true := by
        simp [Outline.insideList, same, isList]
      rw [Plugin.findings, outermostFrom, if_neg (by simp [inside])]
      rw [same] at concat
      rcases token.kind.containersAfter_cases inner outer container with
        ⟨ends, rfl, remain, closed, natural, kind⟩ | ⟨inner', stays, remain⟩
      · have outside : (Outline.empty.after (before ++ [token])).insideList = false := by
          rw [Outline.insideList, concat, remain]
          exact outermost
        rw [next_of_end column kind same isList outermost, findings_ended, lateFrom,
          extent?_of_ends ends, ← (ih (before ++ [token]) column).1 outside]
        simp only [List.append_nil, Token.closed?, kind]
        rfl
      · rw [next_of_other column (turns_of_inside same isList stays), lateFrom_cons column stays]
        exact (ih (before ++ [token]) column).2 inner' container outer (concat.trans remain) isList
          outermost

theorem findings_initial (tokens : List Token) :
    Plugin.findings next initial tokens = (outermostLists tokens).flatMap found :=
  (findings_seen [] 0 tokens).1 rfl

theorem answers_scan (source : Source) (tokens : List Token) :
    listBlanks.Answers (Registered.calls ⟨listBlanks, true⟩ source tokens)
      ((outermostLists tokens).flatMap found) := by
  have quiet (state : ListBlanks) :
      Plugin.Answers { listBlanks with state } [.finish source.length] ([] ++ []) :=
    .cons rfl (.nil _)
  have answers : listBlanks.Answers (tokens.map .token ++ [.finish source.length])
      (Plugin.findings next initial tokens) :=
    Plugin.answers_tokens listBlanks (fun _ _ => rfl) quiet initial tokens
  have started : listBlanks.respond .start = (listBlanks, .ok []) := rfl
  rw [← findings_initial]
  exact .cons started answers

end ListBlanks
end Rule

theorem tokenize_endsTold (text : Text) (tabWidth : Nat) :
    EndsTold (tokenize text tabWidth) [] :=
  Tokenizer.runFrom_endsTold .initial (Source.ofText text tabWidth).lines trivial

/-- An outermost list of a document ends in it. Around it no list is open. -/
theorem exists_extent_of_outermost {text : Text} {tabWidth : Nat} {list : ListPlace}
    (member : list ∈ outermostLists (tokenize text tabWidth)) :
    ∃ extent container natural outer, list.extent? = some extent ∧
      extent.close.kind = .containerEnd container natural ∧
      outer.any ContainerKind.isList = false ∧
      Nesting.replay ⟨outer, none⟩ extent.later = some .closed ∧
      EndTold extent.close.position.line container natural extent.later := by
  obtain ⟨split, starts, outside⟩ := mem_outermostLists.mp member
  have nests := tokenize_wellNested text tabWidth
  rw [WellNested, split] at nests
  obtain ⟨middle, first, second⟩ := Nesting.exists_replay_append nests
  obtain ⟨after, fits, others⟩ := Option.bind_eq_some_iff.mp second
  have shown : (Outline.empty.after list.before).Shows middle := Outline.shows_after ⟨rfl, rfl⟩ first
  rw [Outline.insideList, shown.containers] at outside
  generalize kind : list.start.kind = startKind at fits
  cases Nesting.step_of_next fits with
  | containerStart container item outer =>
    have isOpen : (Nesting.mk (container :: outer) none).containers = [] ++ container :: outer := rfl
    obtain ⟨extent, natural, found, ends, closes⟩ := Nesting.exists_extent others isOpen
    have told := tokenize_endsTold text tabWidth
    rw [split, extent?_split found, ← List.cons_append, ← List.append_assoc] at told
    have told := told.told_of_split ends
    rw [List.append_nil] at told
    exact ⟨extent, container, natural, outer, found, ends, outside, closes, told⟩
  | _ => simp [Token.startsList, Token.opened?, kind] at starts

/-- At the end of an outermost list, the token after it decides, and the mark of the end adds
nothing. -/
theorem separated_eq (ended : Rule.EndedList) {line : Nat} {container : ContainerKind}
    {outer : List ContainerKind} {next : Token} {rest : List Token}
    (told : EndTold line container ended.natural (next :: rest))
    (nests : Nesting.replay ⟨outer, none⟩ (next :: rest) = some .closed)
    (outermost : outer.any ContainerKind.isList = false) :
    Rule.ListBlanks.separated ended next.kind = !(next.kind.opensBlock && !ended.blankBefore) := by
  obtain ⟨after, fits, _⟩ := Option.bind_eq_some_iff.mp nests
  generalize isNext : next.kind = kind at fits
  cases Nesting.step_of_next fits with
  | containerStart => simp [Rule.ListBlanks.separated, TokenKind.opensBlock]
  | containerEnd => simp [Rule.ListBlanks.separated, TokenKind.opensBlock]
  | blankLine => simp [Rule.ListBlanks.separated, TokenKind.opensBlock]
  | newListItem item number kind outer => simp [ContainerKind.isList] at outermost
  | leafStart leaf outer =>
    have forced : ended.natural = false := by
      by_contra natural
      rcases told.byRule.mp (by simpa using natural) with
        ⟨blank, past, isBlank⟩ | ⟨first, opened, item, isFirst, starts, _⟩
      · rw [Tokenizer.pastEnds?_start (by rw [isNext]; rfl)] at past
        cases Option.some.inj past
        simp [isNext] at isBlank
      · cases Option.some.inj isFirst
        simp [isNext] at starts
    simp [Rule.ListBlanks.separated, TokenKind.opensBlock, forced]

theorem owed_eq (ended : Rule.EndedList) {line : Nat} {container : ContainerKind}
    {outer : List ContainerKind} {later : List Token}
    (told : EndTold line container ended.natural later)
    (nests : Nesting.replay ⟨outer, none⟩ later = some .closed)
    (outermost : outer.any ContainerKind.isList = false) :
    ended.owed later =
      if later.head?.any (·.kind.opensBlock) && !ended.blankBefore then
        [⟨⟨ended.lastLine, ended.column⟩, some "after list"⟩]
      else [] := by
  cases later with
  | nil => rfl
  | cons next rest =>
    have separated := separated_eq ended told nests outermost
    by_cases reported : (next.kind.opensBlock && !ended.blankBefore) = true
    · rw [reported] at separated
      exact (if_neg (Bool.eq_false_iff.mp separated)).trans (if_pos reported).symm
    · rw [Bool.eq_false_iff.mpr reported] at separated
      exact (if_pos separated).trans (if_neg reported).symm

theorem found_eq {text : Text} {tabWidth : Nat} {list : ListPlace}
    (member : list ∈ outermostLists (tokenize text tabWidth)) :
    Rule.ListBlanks.found list = list.early ++ list.late := by
  obtain ⟨extent, container, natural, outer, found, ends, outermost, closes, told⟩ :=
    exists_extent_of_outermost member
  have marked : extent.close.closed?.any (·.2) = natural := by
    simp [Token.closed?, ends]
  have prior : list.before ++ [list.start] ++ extent.inside = list.upToEnd extent := by
    simp [ListPlace.upToEnd]
  rw [Rule.ListBlanks.found, Rule.ListBlanks.lateFrom,
    show extent? 0 list.after = some extent from found, ListPlace.late, found]
  simp only [prior, marked]
  exact congrArg (list.early ++ ·) (owed_eq ⟨_, _, _, natural⟩ told closes outermost)

theorem builtinRules_reliable {plugin : Plugin} (builtin : plugin ∈ builtinRules) :
    plugin.Reliable := by
  rcases mem_builtinRules.mp builtin with rfl | rfl | rfl
  all_goals exact ⟨fun _ _ _ => ⟨_, rfl⟩, fun _ _ => ⟨_, rfl⟩, fun _ _ => ⟨_, rfl⟩⟩

theorem builtin_answers (source : Source) (tokens : List Token) :
    ∀ registered ∈ Registry.builtin.plugins,
      ∃ findings, registered.plugin.Answers (registered.calls source tokens) findings := by
  intro registered member
  obtain ⟨plugin, isRule, rfl⟩ := List.mem_map.mp member
  exact (builtinRules_reliable isRule).answers _

theorem builtin_ruleIds : (Registry.builtin.plugins.map Registered.ruleId).Nodup := by
  decide +kernel

theorem exists_lintText (text : Text) (tabWidth : Nat) :
    ∃ violations, ((Linter.builtin tabWidth).lintText text).2 = .ok violations ∧
      violations.filter (·.ruleId == ("MD032" : Text)) =
        Violation.sort
          (((outermostLists (tokenize text tabWidth)).flatMap fun list =>
            list.early ++ list.late).map
              (Rule.listBlanks.info.violation (Source.ofText text tabWidth))) := by
  obtain ⟨violations, outcome, own, _⟩ := Registry.scan_answered builtin_ruleIds
    (builtin_answers (Source.ofText text tabWidth) (tokenize text tabWidth))
  refine ⟨violations, outcome, ?_⟩
  have same : (outermostLists (tokenize text tabWidth)).flatMap Rule.ListBlanks.found =
      (outermostLists (tokenize text tabWidth)).flatMap fun list => list.early ++ list.late :=
    List.flatMap_congr fun list member => found_eq member
  rw [← same]
  exact own ⟨Rule.listBlanks, true⟩ (by simp [Registry.builtin, builtinRules]) _
    (Rule.ListBlanks.answers_scan _ _)

/-- Every outermost list of a document has its end, and the violations about blank lines around
lists are what is found at the starts and the ends of the outermost lists. -/
theorem lintText_listBlanks (text : Text) (tabWidth : Nat) :
    (∀ list ∈ outermostLists (tokenize text tabWidth), ∃ extent, list.extent? = some extent) ∧
    ∃ violations, ((Linter.builtin tabWidth).lintText text).2 = .ok violations ∧
      violations.filter (·.ruleId == ("MD032" : Text)) =
        Violation.sort
          (((outermostLists (tokenize text tabWidth)).flatMap fun list =>
            list.early ++ list.late).map
              (Rule.listBlanks.info.violation (Source.ofText text tabWidth))) := by
  refine ⟨?_, exists_lintText text tabWidth⟩
  intro list member
  obtain ⟨extent, _, _, _, found, _⟩ := exists_extent_of_outermost member
  exact ⟨extent, found⟩

/-- The list is set off neither from the paragraph nor from the heading, and the list inside it does
not count. -/
theorem lintText_listBlanks_nested :
    let text : Text := ['a', '\n', '-', ' ', '1', '.', ' ', 'b', '\n', '#', ' ', 'c']
    let source := Source.ofText text 4
    let start : Token :=
      ⟨.containerStart (.list (.bulleted '-')) (some ⟨1, 3, false⟩), ⟨2, 1⟩, [], ['-', ' ']⟩
    let list : ListPlace := ⟨(tokenize text 4).take 3, start, (tokenize text 4).drop 4⟩
    (list ∈ outermostLists (tokenize text 4) ∧ ∃ extent, list.extent? = some extent) ∧
    ∃ violations, ((Linter.builtin 4).lintText text).2 = .ok violations ∧
      violations.filter (·.ruleId == ("MD032" : Text)) =
        [Rule.listBlanks.info.violation source ⟨⟨2, 1⟩, some "before list"⟩,
          Rule.listBlanks.info.violation source ⟨⟨2, 1⟩, some "after list"⟩] := by
  intro text source start list
  obtain ⟨ends, violations, linted, reported⟩ := lintText_listBlanks text 4
  have member : list ∈ outermostLists (tokenize text 4) := by decide +kernel
  have all : ((outermostLists (tokenize text 4)).flatMap fun list => list.early ++ list.late) =
      [⟨⟨2, 1⟩, some "before list"⟩, ⟨⟨2, 1⟩, some "after list"⟩] := by
    decide +kernel
  rw [all] at reported
  refine ⟨⟨member, ends list member⟩, violations, linted, reported.trans ?_⟩
  exact List.mergeSort_of_pairwise (by decide +kernel)

end BlockLint
