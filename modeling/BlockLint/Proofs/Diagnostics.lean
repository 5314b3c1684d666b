import BlockLint.Proofs.ListSeparation
import BlockLint.Proofs.PositionOrder
import BlockLint.Proofs.VisiblePlaces

/-!
Diagnostics point at the offending byte. Every violation of the built-in rules has its place in the
document: the first tab of a line, the first hash of a heading that lacks its space, the marker of a
list that follows a paragraph too closely.
-/
namespace BlockLint

/-- Byte `place` of the document cuts the line into `front` and `back`. -/
structure Line.CutAt (text : Text) (line : Line) (place : Nat) (front back : Text) : Prop where
  parts : line.text = front ++ back
  document : ∃ before after, text = before ++ (line.text ++ line.ending) ++ after ∧
    Text.size before = line.span.start ∧ place = Text.size (before ++ front)

namespace Source

variable {text : Text} {tabWidth : Nat} {line : Line}

theorem offset?_cut (isLine : line ∈ (ofText text tabWidth).lines) {front back : Text}
    (parts : line.text = front ++ back) :
    ∃ place, (ofText text tabWidth).offset? ⟨line.number, front.length + 1⟩ = some place ∧
      line.CutAt text place front back := by
  obtain ⟨_, before, after, document, start⟩ := layOut_spans tabWidth 1 0 _ line isLine
  rw [flatten_rawLines] at document
  refine ⟨Text.size (before ++ front), ?_, parts, before, after, document, by omega, rfl⟩
  simp [offset?, line?_number isLine, Line.documentOffset, parts, start]

theorem offset?_le (isLine : line ∈ (ofText text tabWidth).lines) {position : Position}
    (number : position.line = line.number) :
    ∃ place, (ofText text tabWidth).offset? position = some place ∧ place ≤ Text.size text := by
  obtain ⟨_, before, after, document, start⟩ := layOut_spans tabWidth 1 0 _ line isLine
  rw [flatten_rawLines] at document
  refine ⟨line.documentOffset position.column, ?_, ?_⟩
  · simp [offset?, number, line?_number isLine]
  · have whole := congrArg Text.size
      (List.take_append_drop (position.column - 1) line.text)
    rw [document, Line.documentOffset, start]
    simp only [Text.size_append] at whole ⊢
    omega

end Source

namespace Violation

theorem key_le {earlier later : Violation} (rule : earlier.ruleId = later.ruleId)
    (le : earlier.position ≤ later.position) : SortKey.le earlier.key later.key = true := by
  have number {m n : Nat} (le : m ≤ n) (differ : m ≠ n) : lexicographic Nat.ble [m] [n] = true := by
    rw [lexicographic, if_neg differ]
    exact Nat.ble_eq_true_of_le le
  unfold SortKey.le key
  rw [rule]
  rcases le with before | ⟨sameLine, before⟩
  · rw [lexicographic, if_neg (by simpa using Nat.ne_of_lt before)]
    exact number (Nat.le_of_lt before) (Nat.ne_of_lt before)
  · rw [lexicographic, if_pos (by rw [sameLine])]
    by_cases sameColumn : earlier.position.column = later.position.column
    · rw [lexicographic, if_pos (by rw [sameColumn]), lexicographic, if_pos rfl]
      rfl
    · rw [lexicographic, if_neg (by simpa using sameColumn)]
      exact number before sameColumn

theorem sort_of_ascending (info : Metadata) (source : Source) {findings : List Finding}
    (ascending : findings.Pairwise fun earlier later => earlier.position ≤ later.position) :
    sort (findings.map (info.violation source)) = findings.map (info.violation source) := by
  apply List.mergeSort_of_pairwise
  refine List.pairwise_map.mpr (ascending.imp ?_)
  intro earlier later le
  exact key_le rfl le

end Violation

def Token.content? (token : Token) : Option Text :=
  match token.kind with
  | .leafContent text _ => some text
  | _ => none

def paragraphContentsFrom (before : List Token) : List Token → List Token
  | [] => []
  | token :: rest =>
    if token.content?.isSome && (Nesting.closed.replay before).any (·.leaf == some .paragraph) then
      token :: paragraphContentsFrom (before ++ [token]) rest
    else paragraphContentsFrom (before ++ [token]) rest

/-- The contents of paragraphs: where each of them stands, a paragraph is open. -/
def paragraphContents (tokens : List Token) : List Token :=
  paragraphContentsFrom [] tokens

theorem paragraphContentsFrom_sublist (before tokens : List Token) :
    (paragraphContentsFrom before tokens).Sublist tokens := by
  induction tokens generalizing before with
  | nil => exact .slnil
  | cons token rest ih =>
    unfold paragraphContentsFrom
    split
    · exact (ih _).cons_cons token
    · exact (ih _).cons token

namespace Rule

def tabFinding? (line : Line) : Option Finding :=
  (firstTab? line.text).map fun column => ⟨⟨line.number, column⟩, none⟩

theorem hardTabs_answers (source : Source) (tokens : List Token) :
    hardTabs.Answers (Registered.calls ⟨hardTabs, true⟩ source tokens)
      (source.lines.filterMap tabFinding?) := by
  have done : hardTabs.Answers [.finish source.length] ([] ++ []) := .cons rfl (.nil _)
  have reads (lines : List Line) :
      hardTabs.Answers (lines.map (fun line => .line line.number line.text) ++
        [.finish source.length]) (lines.flatMap fun line => (tabFinding? line).toList) := by
    induction lines with
    | nil => exact done
    | cons line rest ih => exact .cons rfl ih
  have started : hardTabs.respond .start = (hardTabs, .ok []) := rfl
  have calls : Registered.calls ⟨hardTabs, true⟩ source tokens =
      .start :: source.lines.map (fun line => .line line.number line.text) ++ [] ++
        [.finish source.length] := rfl
  rw [calls, List.append_nil, List.filterMap_eq_flatMap_toList]
  exact .cons started (reads source.lines)

/-- One to six hashes, and then a character that is neither a hash nor white space. -/
def LacksSpace (text : Text) : Prop :=
  ∃ count c rest, 1 ≤ count ∧ count ≤ 6 ∧ text = List.replicate count '#' ++ c :: rest ∧ c ≠ '#' ∧
    Text.isWhiteSpace c = false

theorem lacksSpace_iff {text : Text} : lacksSpace text = true ↔ LacksSpace text := by
  constructor
  · intro lacks
    simp only [lacksSpace, Bool.and_eq_true, decide_eq_true_eq] at lacks
    obtain ⟨⟨some, few⟩, next⟩ := lacks
    split at next
    · rename_i c rest same
      have whole := Text.run_append_drop '#' text
      rw [same] at whole
      refine ⟨_, c, rest, some, few, whole.symm, ?_, by simpa using next⟩
      have last := Text.head?_dropWhile_ne '#' text
      rw [← Text.drop_length_takeWhile, same] at last
      simpa using last
    · cases next
  · rintro ⟨count, c, rest, some, few, rfl, notHash, notWhite⟩
    have hashes : (List.replicate count '#' ++ c :: rest).takeWhile (· == '#') =
        List.replicate count '#' :=
      Text.takeWhile_replicate_append (by simpa using notHash) count
    simp [lacksSpace, hashes, some, few, notWhite]

instance (text : Text) : Decidable (LacksSpace text) :=
  decidable_of_iff _ lacksSpace_iff

def spaceFinding? (token : Token) : Option Finding :=
  (token.content?.filter lacksSpace).map fun content => ⟨token.position, some content⟩

-- The rule's own state tells whether the leaf that is open is a paragraph.
theorem findings_atxSpace {nesting last : Nesting} {before tokens : List Token}
    (reached : Nesting.closed.replay before = some nesting)
    (nests : nesting.replay tokens = some last) :
    Plugin.findings atxSpaceToken (nesting.leaf == some .paragraph) tokens =
      (paragraphContentsFrom before tokens).filterMap spaceFinding? := by
  induction tokens generalizing nesting before with
  | nil => rfl
  | cons token rest ih =>
    obtain ⟨after, fits, others⟩ := Option.bind_eq_some_iff.mp nests
    have next : Nesting.closed.replay (before ++ [token]) = some after :=
      Nesting.replay_append reached (by simp [Nesting.replay, fits])
    have later := ih next others
    rw [Plugin.findings, paragraphContentsFrom]
    obtain ⟨kind, position, lead, literal⟩ := token
    cases Nesting.step_of_next fits with
    | containerStart container item outer => exact later
    | newListItem item number kind outer => exact later
    | containerEnd container natural outer => exact later
    | leafStart leaf outer => cases leaf <;> exact later
    | leafContent text isLazy leaf outer =>
      by_cases isParagraph : leaf = .paragraph
      · subst isParagraph
        rw [if_pos (by simp [Token.content?, reached]), List.filterMap_cons]
        cases lacks : lacksSpace text <;>
          simp [atxSpaceToken, spaceFinding?, Token.content?, Option.filter, lacks, ← later]
      · have other : (some leaf == some LeafKind.paragraph) = false := by simpa using isParagraph
        rw [if_neg (by simp [Token.content?, reached, isParagraph]), ← later]
        simp [atxSpaceToken, other]
    | leafEnd leaf natural outer => exact later
    | blankLine outer => exact later

theorem atxSpace_answers (source : Source) {tokens : List Token} (nests : WellNested tokens) :
    atxSpace.Answers (Registered.calls ⟨atxSpace, true⟩ source tokens)
      ((paragraphContents tokens).filterMap spaceFinding?) := by
  have quiet (state : Bool) :
      Plugin.Answers { atxSpace with state } [.finish source.length] ([] ++ []) :=
    .cons rfl (.nil _)
  have answers : atxSpace.Answers (tokens.map .token ++ [.finish source.length])
      (Plugin.findings atxSpaceToken false tokens) :=
    Plugin.answers_tokens atxSpace (fun _ _ => rfl) quiet false tokens
  have started : atxSpace.respond .start = (atxSpace, .ok []) := rfl
  have found : Plugin.findings atxSpaceToken false tokens =
      (paragraphContents tokens).filterMap spaceFinding? :=
    findings_atxSpace rfl nests
  rw [← found]
  exact .cons started answers

theorem tabFinding?_line {line : Line} {finding : Finding}
    (found : tabFinding? line = some finding) : finding.position.line = line.number := by
  obtain ⟨column, _, rfl⟩ := Option.map_eq_some_iff.mp found
  rfl

theorem spaceFinding?_position {token : Token} {finding : Finding}
    (found : spaceFinding? token = some finding) : finding.position = token.position := by
  obtain ⟨content, _, rfl⟩ := Option.map_eq_some_iff.mp found
  rfl

end Rule

theorem tabs_ascending (text : Text) (tabWidth : Nat) :
    ((Source.ofText text tabWidth).lines.filterMap Rule.tabFinding?).Pairwise fun earlier later =>
      earlier.position ≤ later.position := by
  refine List.pairwise_filterMap.mpr ((Source.numbers_pairwise text tabWidth).imp ?_)
  intro line line' lt earlier found later found'
  rw [← Rule.tabFinding?_line found, ← Rule.tabFinding?_line found'] at lt
  exact .inl lt

theorem tokenize_onLines {text : Text} {tabWidth : Nat} {token : Token}
    (member : token ∈ tokenize text tabWidth) :
    ∃ line ∈ (Source.ofText text tabWidth).lines, token.position.line = line.number := by
  obtain ⟨low, high, ascends⟩ := tokenize_ascends text tabWidth
  obtain ⟨line, isLine, offset, position⟩ := (ascends.has_of_mem token member).2
  exact ⟨line, isLine, by rw [position]; rfl⟩

theorem spaces_ascending (text : Text) (tabWidth : Nat) :
    ((paragraphContents (tokenize text tabWidth)).filterMap Rule.spaceFinding?).Pairwise
      fun earlier later => earlier.position ≤ later.position := by
  obtain ⟨low, high, ascends⟩ := tokenize_ascends text tabWidth
  have ordered := ascends.pairwise.sublist (paragraphContentsFrom_sublist [] _)
  refine List.pairwise_filterMap.mpr (ordered.imp ?_)
  intro token token' le earlier found later found'
  rwa [Rule.spaceFinding?_position found, Rule.spaceFinding?_position found']

/-- Every text is linted, and this is what each rule finds in it. -/
theorem lintText_byRule (text : Text) (tabWidth : Nat) :
    let source := Source.ofText text tabWidth
    let tokens := tokenize text tabWidth
    ∃ violations, ((Linter.builtin tabWidth).lintText text).2 = .ok violations ∧
      violations.filter (·.ruleId == ("MD010" : Text)) =
        (source.lines.filterMap Rule.tabFinding?).map (Rule.hardTabs.info.violation source) ∧
      violations.filter (·.ruleId == ("MD018" : Text)) =
        ((paragraphContents tokens).filterMap Rule.spaceFinding?).map
          (Rule.atxSpace.info.violation source) ∧
      violations.filter (·.ruleId == ("MD032" : Text)) =
        Violation.sort (((outermostLists tokens).flatMap fun list => list.early ++ list.late).map
          (Rule.listBlanks.info.violation source)) ∧
      ∀ violation ∈ violations, violation.ruleId = ("MD010" : Text) ∨
        violation.ruleId = ("MD018" : Text) ∨ violation.ruleId = ("MD032" : Text) := by
  intro source tokens
  obtain ⟨violations, outcome, own, owned⟩ := Registry.scan_answered builtin_ruleIds
    (builtin_answers source tokens)
  obtain ⟨violations', outcome', lists⟩ := exists_lintText text tabWidth
  cases outcome.symm.trans outcome'
  have tabs := own ⟨Rule.hardTabs, true⟩ (by simp [Registry.builtin, builtinRules]) _
    (Rule.hardTabs_answers source tokens)
  have spaces := own ⟨Rule.atxSpace, true⟩ (by simp [Registry.builtin, builtinRules]) _
    (Rule.atxSpace_answers source (tokenize_wellNested text tabWidth))
  rw [Violation.sort_of_ascending _ _ (tabs_ascending text tabWidth)] at tabs
  rw [Violation.sort_of_ascending _ _ (spaces_ascending text tabWidth)] at spaces
  refine ⟨violations, outcome, tabs, spaces, lists, ?_⟩
  intro violation member
  obtain ⟨registered, isRegistered, _, rule⟩ := owned violation member
  obtain ⟨plugin, isRule, rfl⟩ := List.mem_map.mp isRegistered
  rcases mem_builtinRules.mp isRule with rfl | rfl | rfl
  · exact .inl rule
  · exact .inr (.inl rule)
  · exact .inr (.inr rule)

theorem exists_lastFilled {before : List Token} {token : Token} (member : token ∈ before)
    (filled : token.kind.isMarkerOrText = true) :
    ∃ last ∈ before, lastFilledLine before = last.position.line := by
  have some : before.filter (·.kind.isMarkerOrText) ≠ [] :=
    List.ne_nil_of_mem (List.mem_filter.mpr ⟨member, filled⟩)
  refine ⟨_, (List.mem_filter.mp (List.getLast_mem some)).1, ?_⟩
  rw [lastFilledLine, List.getLast?_eq_some_getLast some]
  rfl

theorem Token.exists_of_startsList {token : Token} (starts : token.startsList = true) :
    ∃ kind item, token.kind = .containerStart (.list kind) item := by
  obtain ⟨kind, position, lead, literal⟩ := token
  cases kind with
  | containerStart container item =>
    cases container with
    | blockQuote => cases starts
    | list kind => exact ⟨kind, item, rfl⟩
  | _ => cases starts

theorem ListPlace.found_cases {list : ListPlace} {finding : Finding}
    (found : finding ∈ list.early ++ list.late) :
    finding = list.earlyFinding ∨
      ∃ extent, list.extent? = some extent ∧ finding = list.lateFinding extent := by
  rcases List.mem_append.mp found with isEarly | isLate
  · unfold early at isEarly
    split at isEarly
    · exact .inl (List.mem_singleton.mp isEarly)
    · cases isEarly
  · unfold late at isLate
    split at isLate
    · cases isLate
    · rename_i extent isExtent
      split at isLate
      · exact .inr ⟨extent, isExtent, List.mem_singleton.mp isLate⟩
      · cases isLate

theorem exists_token_of_found {text : Text} {tabWidth : Nat} {list : ListPlace}
    (member : list ∈ outermostLists (tokenize text tabWidth)) {finding : Finding}
    (found : finding ∈ list.early ++ list.late) :
    ∃ token ∈ tokenize text tabWidth, finding.position.line = token.position.line := by
  obtain ⟨split, starts, _⟩ := mem_outermostLists.mp member
  rcases list.found_cases found with rfl | ⟨extent, isExtent, rfl⟩
  · exact ⟨list.start, by simp [split], rfl⟩
  · obtain ⟨kind, item, isStart⟩ := Token.exists_of_startsList starts
    have inList : list.start ∈ list.upToEnd extent := by simp [ListPlace.upToEnd]
    obtain ⟨last, isLast, line⟩ := exists_lastFilled inList (by rw [isStart]; rfl)
    refine ⟨last, ?_, line⟩
    have whole : tokenize text tabWidth = list.upToEnd extent ++ extent.close :: extent.later := by
      simp [split, extent?_split isExtent, ListPlace.upToEnd]
    rw [whole]
    exact List.mem_append_left _ isLast

theorem forall₂_filter_filterMap {α β : Type} {R : α → β → Prop} {p : α → Bool} {f : α → Option β}
    {items : List α}
    (picked : ∀ item ∈ items, p item = true → ∃ found, f item = some found ∧ R item found)
    (passed : ∀ item ∈ items, p item = false → f item = none) :
    List.Forall₂ R (items.filter p) (items.filterMap f) := by
  induction items with
  | nil => exact .nil
  | cons item rest ih =>
    obtain ⟨here, others⟩ := List.forall_mem_cons.mp picked
    obtain ⟨here', others'⟩ := List.forall_mem_cons.mp passed
    cases isPicked : p item with
    | true =>
      obtain ⟨found, isFound, related⟩ := here isPicked
      rw [List.filter_cons_of_pos isPicked, List.filterMap_cons_some isFound]
      exact .cons related (ih others others')
    | false =>
      rw [List.filter_cons_of_neg (by simp [isPicked]), List.filterMap_cons_none (here' isPicked)]
      exact ih others others'

namespace Rule

theorem firstTab?_eq_none {line : Text} (absent : '\t' ∉ line) : firstTab? line = none := by
  simp only [firstTab?, Option.map_eq_none_iff, List.findIdx?_eq_none_iff, beq_eq_false_iff_ne]
  rintro c member rfl
  exact absent member

theorem exists_firstTab {line : Text} (isTab : '\t' ∈ line) :
    ∃ front back, line = front ++ '\t' :: back ∧ '\t' ∉ front ∧
      firstTab? line = some (front.length + 1) := by
  obtain ⟨front, back, rfl, absent⟩ := List.eq_append_cons_of_mem isTab
  have before := Option.map_eq_none_iff.mp (firstTab?_eq_none absent)
  refine ⟨front, back, rfl, absent, ?_⟩
  simp [firstTab?, List.findIdx?_append, before, List.findIdx?_cons]

end Rule

section
variable {text : Text} {tabWidth : Nat}

theorem tabs_located :
    List.Forall₂ (fun line violation => ∃ place front back, violation.offset = some place ∧
        line.CutAt text place front ('\t' :: back) ∧ '\t' ∉ front)
      ((Source.ofText text tabWidth).lines.filter Line.hasTabs)
      (((Source.ofText text tabWidth).lines.filterMap Rule.tabFinding?).map
        (Rule.hardTabs.info.violation (Source.ofText text tabWidth))) := by
  rw [List.map_filterMap]
  apply forall₂_filter_filterMap
  · intro line isLine hasTabs
    obtain ⟨front, back, parts, none, first⟩ :=
      Rule.exists_firstTab (List.contains_iff_mem.mp hasTabs)
    obtain ⟨place, offset, cut⟩ := Source.offset?_cut isLine parts
    exact ⟨_, by rw [Rule.tabFinding?, first]; rfl, place, front, back, offset, cut, none⟩
  · intro line _ noTabs
    have absent : '\t' ∉ line.text := by simpa [Line.hasTabs] using noTabs
    rw [Rule.tabFinding?, Rule.firstTab?_eq_none absent]
    rfl

/-- Where a text without spaces stands in an expanded line, it stands in the document. -/
theorem exists_place {line : Line} (isLine : line ∈ (Source.ofText text tabWidth).lines)
    {left mark right : Text} (filled : mark ≠ []) (visible : ∀ c ∈ mark, c ≠ ' ')
    (whole : line.expanded = left ++ mark ++ right) :
    ∃ place front back,
      (Source.ofText text tabWidth).offset? (line.position (Text.size left)) = some place ∧
        line.CutAt text place front (mark ++ back) ∧
        (expandTabs front line.tabWidth).text = left := by
  obtain ⟨front, back, parts, isLeft, column⟩ := Line.exists_mark filled visible whole
  rw [List.append_assoc] at parts
  obtain ⟨place, offset, cut⟩ := Source.offset?_cut isLine parts
  rw [Line.position, column]
  exact ⟨place, front, back, offset, cut, isLeft⟩

theorem Token.kind_of_content? {token : Token} {content : Text}
    (holds : token.content? = some content) :
    ∃ isLazy, token.kind = .leafContent content isLazy := by
  obtain ⟨kind, position, lead, literal⟩ := token
  cases kind with
  | leafContent text isLazy =>
    cases holds
    exact ⟨isLazy, rfl⟩
  | _ => cases holds

theorem Rule.LacksSpace.exists_tail {content : Text} (lacks : Rule.LacksSpace content) :
    ∃ tail, content = ['#'] ++ tail := by
  obtain ⟨count, c, rest, some, _, rfl, _⟩ := lacks
  obtain ⟨count, rfl⟩ := Nat.exists_eq_add_of_le some
  exact ⟨_, by rw [Nat.add_comm, List.replicate_succ]; rfl⟩

theorem spaces_located :
    List.Forall₂ (fun token violation => ∃ content, token.content? = some content ∧
        ∃ line ∈ (Source.ofText text tabWidth).lines, line.number = token.position.line ∧
          ∃ place front back right, violation.offset = some place ∧
            line.CutAt text place front ('#' :: back) ∧
            line.expanded = (expandTabs front line.tabWidth).text ++ content ++ right)
      ((paragraphContents (tokenize text tabWidth)).filter fun token =>
        token.content?.any fun content => decide (Rule.LacksSpace content))
      (((paragraphContents (tokenize text tabWidth)).filterMap Rule.spaceFinding?).map
        (Rule.atxSpace.info.violation (Source.ofText text tabWidth))) := by
  rw [List.map_filterMap]
  apply forall₂_filter_filterMap
  · intro token member lacks
    cases holds : token.content? with
    | none => simp [holds] at lacks
    | some content =>
      have lacks : Rule.LacksSpace content := by simpa [holds] using lacks
      obtain ⟨isLazy, isContent⟩ := Token.kind_of_content? holds
      obtain ⟨line, isLine, left, right, whole, position⟩ := (tokenize_allStand text tabWidth token
        ((paragraphContentsFrom_sublist [] _).mem member)).content content isLazy isContent
      obtain ⟨tail, starts⟩ := lacks.exists_tail
      obtain ⟨place, front, back, offset, cut, rfl⟩ := exists_place isLine (List.cons_ne_nil '#' [])
        (by simp) (show line.expanded = left ++ ['#'] ++ (tail ++ right) by simp [whole, starts])
      rw [← position] at offset
      refine ⟨Rule.atxSpace.info.violation _ ⟨token.position, content⟩, ?_, content, rfl, line,
        isLine, ?_, place, front, back, right, offset, cut, whole⟩
      · simp [Rule.spaceFinding?, holds, Option.filter, Rule.lacksSpace_iff.mpr lacks]
      · rw [position]
        rfl
  · intro token _ spaced
    cases holds : token.content? with
    | none => simp [Rule.spaceFinding?, holds]
    | some content =>
      have spaced : ¬ Rule.LacksSpace content := by simpa [holds] using spaced
      simp [Rule.spaceFinding?, holds, Option.filter, mt Rule.lacksSpace_iff.mp spaced]

theorem list_located {list : ListPlace} (member : list ∈ outermostLists (tokenize text tabWidth)) :
    ∃ kind item, list.start.kind = .containerStart (.list kind) (some item) ∧
      ∃ line ∈ (Source.ofText text tabWidth).lines, line.number = list.start.position.line ∧
        ∃ place front mark back,
          (Source.ofText text tabWidth).offset? list.start.position = some place ∧
          line.CutAt text place front (mark ++ back) ∧ kind.Marks mark ∧
          item.markerColumn = Text.size (expandTabs front line.tabWidth).text + 1 := by
  obtain ⟨split, starts, _⟩ := mem_outermostLists.mp member
  obtain ⟨kind, geometry, isStart⟩ := Token.exists_of_startsList starts
  obtain ⟨line, isLine, left, mark, right, whole, marks, position, column⟩ :=
    (tokenize_allStand text tabWidth list.start (by simp [split])).marker kind geometry isStart
  obtain ⟨item, rfl, isColumn⟩ := Option.map_eq_some_iff.mp column
  obtain ⟨place, front, back, offset, cut, rfl⟩ := exists_place isLine marks.ne_nil marks.visible
    whole
  rw [← position] at offset
  refine ⟨kind, item, isStart, line, isLine, ?_, place, front, mark, back, offset, cut, marks,
    isColumn⟩
  rw [position]
  rfl

end

/-- Every violation has its byte in the document. There is one for each line with a tab, at the
first of them, and one for each line of a paragraph that would be a heading but for the space, at
its first hash. One that tells of a list too close to what is above stands at the list's marker. -/
theorem violations_located (text : Text) (tabWidth : Nat) :
    let source := Source.ofText text tabWidth
    let tokens := tokenize text tabWidth
    ∃ violations, ((Linter.builtin tabWidth).lintText text).2 = .ok violations ∧
      (∀ violation ∈ violations,
        ∃ place, violation.offset = some place ∧ place ≤ Text.size text) ∧
      List.Forall₂
        (fun line violation => ∃ place front back, violation.offset = some place ∧
          line.CutAt text place front ('\t' :: back) ∧ '\t' ∉ front)
        (source.lines.filter Line.hasTabs)
        (violations.filter (·.ruleId == ("MD010" : Text))) ∧
      List.Forall₂
        (fun token violation => ∃ content, token.content? = some content ∧
          ∃ line ∈ source.lines, line.number = token.position.line ∧
            ∃ place front back right, violation.offset = some place ∧
              line.CutAt text place front ('#' :: back) ∧
              line.expanded = (expandTabs front line.tabWidth).text ++ content ++ right)
        ((paragraphContents tokens).filter fun token =>
          token.content?.any fun content => decide (Rule.LacksSpace content))
        (violations.filter (·.ruleId == ("MD018" : Text))) ∧
      ∀ violation ∈ violations, violation.ruleId = ("MD032" : Text) →
        violation.extra = some ("before list" : Text) →
        ∃ list ∈ outermostLists tokens, violation.position = list.start.position ∧
          ∃ kind item, list.start.kind = .containerStart (.list kind) (some item) ∧
            ∃ line ∈ source.lines, line.number = list.start.position.line ∧
              ∃ place front mark back, violation.offset = some place ∧
                line.CutAt text place front (mark ++ back) ∧ kind.Marks mark ∧
                item.markerColumn = Text.size (expandTabs front line.tabWidth).text + 1 := by
  intro source tokens
  obtain ⟨violations, outcome, tabs, spaces, lists, rules⟩ := lintText_byRule text tabWidth
  have ofRule {violation : Violation} (member : violation ∈ violations) {rule : Text}
      (isRule : violation.ruleId = rule) : violation ∈ violations.filter (·.ruleId == rule) :=
    List.mem_filter.mpr ⟨member, beq_iff_eq.mpr isRule⟩
  have ofLists {violation : Violation} (member : violation ∈ violations)
      (isRule : violation.ruleId = ("MD032" : Text)) :
      ∃ finding, ∃ list ∈ outermostLists tokens, finding ∈ list.early ++ list.late ∧
        violation = Rule.listBlanks.info.violation source finding := by
    have found := ofRule member isRule
    rw [lists, Violation.sort, mem_sortByKey] at found
    obtain ⟨finding, isFinding, rfl⟩ := List.mem_map.mp found
    obtain ⟨list, isList, isFound⟩ := List.mem_flatMap.mp isFinding
    exact ⟨finding, list, isList, isFound, rfl⟩
  refine ⟨violations, outcome, ?_, tabs ▸ tabs_located, spaces ▸ spaces_located, ?_⟩
  · intro violation member
    rcases rules violation member with isRule | isRule | isRule
    · have found := ofRule member isRule
      rw [tabs] at found
      obtain ⟨finding, isFinding, rfl⟩ := List.mem_map.mp found
      obtain ⟨line, isLine, isFound⟩ := List.mem_filterMap.mp isFinding
      exact Source.offset?_le isLine (Rule.tabFinding?_line isFound)
    · have found := ofRule member isRule
      rw [spaces] at found
      obtain ⟨finding, isFinding, rfl⟩ := List.mem_map.mp found
      obtain ⟨token, isContent, isFound⟩ := List.mem_filterMap.mp isFinding
      obtain ⟨line, isLine, number⟩ :=
        tokenize_onLines ((paragraphContentsFrom_sublist [] _).mem isContent)
      rw [← Rule.spaceFinding?_position isFound] at number
      exact Source.offset?_le isLine number
    · obtain ⟨finding, list, isList, isFound, rfl⟩ := ofLists member isRule
      obtain ⟨token, isToken, same⟩ := exists_token_of_found isList isFound
      obtain ⟨line, isLine, number⟩ := tokenize_onLines isToken
      exact Source.offset?_le isLine (same.trans number)
  · intro violation member isRule isEarly
    obtain ⟨finding, list, isList, isFound, rfl⟩ := ofLists member isRule
    rcases list.found_cases isFound with rfl | ⟨extent, _, rfl⟩
    · exact ⟨list, isList, rfl, list_located isList⟩
    · exact absurd isEarly (by simp [Metadata.violation, ListPlace.lateFinding])

-- Two bytes and a line ending before the quote's marker, one character for the tab behind it.
example :
    let text : Text := ['é', '\r', '\n', '>', '\t', '#', 'b']
    (paragraphContents (tokenize text 4)).map (fun token =>
        (token.content?, token.position, (Source.ofText text 4).offset? token.position)) =
      [(some ['é'], ⟨1, 1⟩, some 0), (some ['#', 'b'], ⟨2, 3⟩, some 6)] := by
  decide +kernel

end BlockLint
