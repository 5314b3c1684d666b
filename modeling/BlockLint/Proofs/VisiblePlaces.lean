import BlockLint.Proofs.TokenPlaces

/-!
What stands at the position of a token, in a document with tabs too. Block structure is read off
the expanded lines, where a tab is some spaces. All other characters stay themselves, so a text
without spaces that is found in the expanded line is found in the line as it was written, and the
column of its first byte there is its column here.

Content starts with a space only in code, and list markers hold none.
-/
namespace BlockLint

theorem Text.exists_behind_spaces {count : Nat} {rest left right : Text} {c : Char}
    (visible : c ≠ ' ') (split : List.replicate count ' ' ++ rest = left ++ c :: right) :
    ∃ later, left = List.replicate count ' ' ++ later ∧ rest = later ++ c :: right := by
  rcases List.append_eq_append_iff.mp split with ⟨later, isLeft, isRest⟩ | ⟨gap, spaces, isRight⟩
  · exact ⟨later, isLeft, isRest⟩
  · cases gap with
    | nil => exact ⟨[], by simpa using spaces.symm, by simpa using isRight.symm⟩
    | cons d gap =>
      cases isRight
      have space : c ∈ List.replicate count ' ' := by simp [spaces]
      exact absurd (List.eq_of_mem_replicate space) visible

namespace Expansion

theorem exists_front {width seen column : Nat} {text left right : Text} {c : Char}
    (visible : c ≠ ' ') (split : (expandFrom width seen column text).text = left ++ c :: right) :
    ∃ front back, text = front ++ c :: back ∧ (expandFrom width seen column front).text = left ∧
      (∃ seen' column', (expandFrom width seen' column' (c :: back)).text = c :: right) ∧
      (expandFrom width seen column text).columns[Text.size left]? =
        some (column + front.length) := by
  induction text generalizing seen column left with
  | nil => simp [expandFrom] at split
  | cons d rest ih =>
    have pass (count size : Nat) (columns : List Nat) :
        (List.replicate count column ++ columns)[count + size]? = columns[size]? := by
      rw [List.getElem?_append_right (by simp)]
      simp
    have next (front : Text) : column + (d :: front).length = column + 1 + front.length := by
      simp only [List.length_cons]
      omega
    by_cases isTab : d = '\t'
    · have filled := split
      simp only [expandFrom, isTab, if_true] at filled
      obtain ⟨later, rfl, inRest⟩ := Text.exists_behind_spaces visible filled
      obtain ⟨front, back, rfl, isLeft, isRight, place⟩ := ih inRest
      refine ⟨d :: front, back, rfl, ?_, isRight, ?_⟩
      · simp [expandFrom, isTab, isLeft]
      · simp only [expandFrom, if_true, Text.size_append, List.length_replicate,
          (Text.replicate_plain _).size_eq_length, pass, place, ← next, isTab]
    · have same := split
      simp only [expandFrom, isTab, if_false] at same
      cases left with
      | nil =>
        obtain ⟨rfl, _⟩ := List.cons.inj same
        refine ⟨[], rest, rfl, rfl, ⟨seen, column, split⟩, ?_⟩
        obtain ⟨more, size⟩ := Nat.exists_eq_succ_of_ne_zero (Nat.ne_of_gt (Char.utf8Size_pos d))
        simp [expandFrom, isTab, size, List.replicate_succ]
      | cons e left =>
        obtain ⟨rfl, inRest⟩ := List.cons.inj same
        obtain ⟨front, back, rfl, isLeft, isRight, place⟩ := ih inRest
        refine ⟨d :: front, back, rfl, ?_, isRight, ?_⟩
        · simp [expandFrom, isTab, isLeft]
        · simp only [expandFrom, isTab, if_false, Text.size_cons, pass, place, next]

theorem prefix_of_visible {width seen column : Nat} (positive : 0 < width) {text mark right : Text}
    (visible : ∀ c ∈ mark, c ≠ ' ')
    (split : (expandFrom width seen column text).text = mark ++ right) : mark <+: text := by
  induction mark generalizing seen column text with
  | nil => exact List.nil_prefix
  | cons c mark ih =>
    have isVisible := visible c List.mem_cons_self
    cases text with
    | nil => simp [expandFrom] at split
    | cons d rest =>
      unfold expandFrom at split
      split at split
      · rw [← List.nil_append (c :: mark ++ right)] at split
        obtain ⟨later, isNil, _⟩ := Text.exists_behind_spaces isVisible split
        have fill := Nat.mod_lt seen positive
        simp only [List.nil_eq, List.append_eq_nil_iff, List.replicate_eq_nil_iff] at isNil
        omega
      · obtain ⟨rfl, isRest⟩ := List.cons.inj split
        exact (List.prefix_cons_inj d).mpr
          (ih (fun e member => visible e (List.mem_cons_of_mem _ member)) isRest)

/-- A text without spaces comes from itself, and where it starts has its column. -/
theorem exists_mark {width seen column : Nat} (positive : 0 < width)
    {text left mark right : Text} (filled : mark ≠ []) (visible : ∀ c ∈ mark, c ≠ ' ')
    (split : (expandFrom width seen column text).text = left ++ mark ++ right) :
    ∃ front back, text = front ++ mark ++ back ∧ (expandFrom width seen column front).text = left ∧
      (expandFrom width seen column text).columns[Text.size left]? =
        some (column + front.length) := by
  obtain ⟨c, rest, rfl⟩ := List.exists_cons_of_ne_nil filled
  rw [List.append_assoc] at split
  obtain ⟨front, back, rfl, isLeft, ⟨seen', column', later⟩, place⟩ :=
    exists_front (visible c List.mem_cons_self) split
  obtain ⟨back', same⟩ := prefix_of_visible positive visible later
  exact ⟨front, back', by rw [List.append_assoc, same], isLeft, place⟩

end Expansion

namespace Line

theorem exists_mark {line : Line} {left mark right : Text} (filled : mark ≠ [])
    (visible : ∀ c ∈ mark, c ≠ ' ') (split : line.expanded = left ++ mark ++ right) :
    ∃ front back, line.text = front ++ mark ++ back ∧
      (expandTabs front line.tabWidth).text = left ∧
      line.column (Text.size left) = front.length + 1 := by
  have positive : 0 < max line.tabWidth 1 := by omega
  obtain ⟨front, back, same, isLeft, place⟩ := Expansion.exists_mark positive filled visible split
  refine ⟨front, back, same, isLeft, ?_⟩
  simp only [column, expansion, expandTabs, place, Option.getD_some, Nat.add_comm]

end Line

namespace ListKind

inductive Marks : ListKind → Text → Prop where
  | bullet {bullet : Char} : bullet ∈ bullets → Marks (.bulleted bullet) [bullet]
  | number {digits : Text} {delimiter : Char} : digits ≠ [] → (∀ digit ∈ digits, digit.isDigit) →
      delimiter ∈ delimiters →
        Marks (.ordered (Text.valueOf digits) delimiter) (digits ++ [delimiter])

theorem Marks.ne_nil {kind : ListKind} {mark : Text} (marks : kind.Marks mark) : mark ≠ [] := by
  cases marks <;> simp

theorem Marks.visible {kind : ListKind} {mark : Text} (marks : kind.Marks mark) :
    ∀ c ∈ mark, c ≠ ' ' := by
  rintro c member rfl
  cases marks with
  | bullet isBullet =>
    cases List.mem_singleton.mp member
    exact absurd isBullet (by decide)
  | number _ areDigits isDelimiter =>
    rcases List.mem_append.mp member with inDigits | isLast
    · exact absurd (areDigits _ inDigits) (by decide)
    · cases List.mem_singleton.mp isLast
      exact absurd isDelimiter (by decide)

theorem marks_of_marker? {text : Text} {kind : ListKind} {width : Nat}
    (found : marker? text = some (kind, width)) :
    ∃ mark rest, kind.Marks mark ∧ text = mark ++ rest := by
  rcases marker?_cases found with ⟨bullet, rest, isBullet, same, rfl, _⟩ |
    ⟨digits, delimiter, rest, filled, _, areDigits, isDelimiter, same, rfl, _⟩
  · exact ⟨[bullet], rest, .bullet isBullet, same⟩
  · exact ⟨digits ++ [delimiter], rest, .number filled areDigits isDelimiter, same⟩

end ListKind

namespace Marker

def StandsIn (line : Line) : Marker → Prop
  | .quote _ _ => True
  | .item _ found => ∃ left mark right, line.expanded = left ++ mark ++ right ∧
      found.kind.Marks mark ∧ found.markerOffset = Text.size left

theorem standsIn_of_find? {line : Line} {c : Cursor} {item : ItemStart}
    (reaches : (Cursor.start line.expanded).Reaches c) (found : ItemStart.find? c = some item) :
    StandsIn line (.item c item) := by
  have place := (ItemStart.find?_reaches found).1
  obtain ⟨passed, plain, whole, offset⟩ := reaches.trans
    (Cursor.reaches_skip_spaces (Nat.le_refl c.indent))
  obtain ⟨_, marked⟩ := ItemStart.marker?_of_find? found
  obtain ⟨mark, rest, marks, same⟩ := ListKind.marks_of_marker? marked
  refine ⟨passed, mark, rest, ?_, marks, ?_⟩
  · rw [List.append_assoc, ← same]
    exact whole
  · rw [place, plain.size_eq_length]
    simpa [Cursor.skip] using offset

theorem readAll_standsIn {line : Line} (inParagraph : Bool) {c : Cursor}
    (reaches : (Cursor.start line.expanded).Reaches c) :
    ∀ marker ∈ (readAll inParagraph c).1, marker.StandsIn line := by
  fun_induction readAll inParagraph c with
  | case1 | case2 | case3 | case5 | case6 => simp
  | case4 inParagraph c _ _ _ after found markers last same ih =>
    rw [same] at ih
    refine List.forall_mem_cons.mpr ⟨trivial, ?_⟩
    exact ih (reaches.trans (quoteMarker?_reaches found).1)
  | case7 inParagraph c _ _ _ _ start found _ markers last same ih =>
    rw [same] at ih
    refine List.forall_mem_cons.mpr ⟨standsIn_of_find? reaches found, ?_⟩
    exact ih (reaches.trans (ItemStart.find?_reaches found).2.1)

end Marker

/-- Content stands at its position in one of the lines, and so does the marker of a list. -/
structure Token.Stands (lines : List Line) (token : Token) : Prop where
  content : ∀ content isLazy, token.kind = .leafContent content isLazy →
    ∃ line ∈ lines, ∃ left right, line.expanded = left ++ content ++ right ∧
      token.position = line.position (Text.size left)
  marker : ∀ kind geometry, token.kind = .containerStart (.list kind) geometry →
    ∃ line ∈ lines, ∃ left mark right, line.expanded = left ++ mark ++ right ∧ kind.Marks mark ∧
      token.position = line.position (Text.size left) ∧
      geometry.map (·.markerColumn) = some (Text.size left + 1)

def TokenKind.isSilent : TokenKind → Bool
  | .leafContent _ _ | .containerStart (.list _) _ => false
  | _ => true

theorem Token.Stands.of_silent (lines : List Line) {token : Token}
    (silent : token.kind.isSilent = true) : token.Stands lines := by
  constructor
  · intro content isLazy isContent
    simp [isContent, TokenKind.isSilent] at silent
  · intro kind geometry starts
    simp [starts, TokenKind.isSilent] at silent

def AllStand (lines : List Line) (tokens : List Token) : Prop :=
  ∀ token ∈ tokens, token.Stands lines

namespace AllStand

variable {lines : List Line} {left right : List Token}

theorem nil : AllStand lines [] := by
  simp [AllStand]

theorem append (first : AllStand lines left) (second : AllStand lines right) :
    AllStand lines (left ++ right) :=
  List.forall_mem_append.mpr ⟨first, second⟩

theorem single {token : Token} (stands : token.Stands lines) : AllStand lines [token] :=
  List.forall_mem_singleton.mpr stands

theorem closeContainers (containers : Containers) (natural : Bool) (position : Position) :
    AllStand lines (containers.close natural position) := by
  intro token member
  obtain ⟨frame, _, rfl⟩ := List.mem_map.mp member
  exact .of_silent lines rfl

theorem closeLeaf {leaf : OpenLeaf} (coherent : leaf.Coherent)
    (kept : AllStand lines leaf.taken) (natural : Bool) (position : Position) :
    AllStand lines (leaf.close natural position) := by
  cases leaf with
  | none => exact nil
  | paragraph opening contents => exact append kept (single (.of_silent lines rfl))
  | indentedCode held =>
    refine List.forall_mem_cons.mpr ⟨.of_silent lines rfl, ?_⟩
    intro token member
    obtain ⟨blank, isHeld, rfl⟩ := List.mem_map.mp member
    exact .of_silent lines (by rw [coherent blank isHeld]; rfl)
  | fencedCode fence => exact single (.of_silent lines rfl)

end AllStand

namespace Tokenizer

variable {lines : List Line} {line : Line} {c : Cursor}

theorem tokenAt_stands (member : line ∈ lines) (reaches : (Cursor.start line.expanded).Reaches c)
    {count : Nat} (few : count ≤ c.indent) {content : Text} (here : content <+: c.rest.drop count)
    (isLazy : Bool) (lead literal : Text) :
    (tokenAt line (c.offset + count) (.leafContent content isLazy) lead literal).Stands lines := by
  obtain ⟨passed, plain, whole, offset⟩ := reaches.trans (Cursor.reaches_skip_spaces few)
  obtain ⟨right, same⟩ := here
  constructor
  · rintro content' isLazy' ⟨⟩
    refine ⟨line, member, passed, right, ?_, ?_⟩
    · rw [List.append_assoc, same]
      exact whole
    · rw [plain.size_eq_length, ← Nat.zero_add passed.length]
      exact congrArg line.position offset
  · rintro kind geometry ⟨⟩

def Effect.AllStand (lines : List Line) (effect : Effect) : Prop :=
  BlockLint.AllStand lines effect.written ∧ BlockLint.AllStand lines effect.leaf.taken

theorem Effect.AllStand.behind {effect : Effect} {tokens : List Token}
    (before : BlockLint.AllStand lines tokens) (stand : effect.AllStand lines) :
    Effect.AllStand lines { effect with written := tokens ++ effect.written } :=
  ⟨before.append stand.1, stand.2⟩

theorem paragraphLine_allStand (member : line ∈ lines)
    (reaches : (Cursor.start line.expanded).Reaches c) (lead : Text) (containers : Containers)
    {leaf : OpenLeaf} (isLazy : Bool) (coherent : leaf.Coherent)
    (kept : AllStand lines leaf.taken) :
    (paragraphLine line lead c containers leaf isLazy).AllStand lines := by
  have closing := kept.closeLeaf coherent true (line.position c.offset)
  have whole : paragraphText c.rest <+: c.rest.drop c.indent := by
    rw [Cursor.indent, Text.drop_spaces]
    exact List.prefix_refl _
  have content (lead : Text) := AllStand.single (tokenAt_stands member reaches (Nat.le_refl _) whole
    isLazy lead (literalFrom line c))
  have start : (tokenAt line (c.offset + c.indent) (.leafStart .paragraph) lead []).Stands lines :=
    .of_silent lines rfl
  have started := (AllStand.single start).append (content [])
  cases leaf with
  | paragraph opening contents => exact ⟨.nil, kept.append (content lead)⟩
  | none => exact ⟨closing, started⟩
  | indentedCode held => exact ⟨closing, started⟩
  | fencedCode fence => exact ⟨closing, started⟩

theorem codeLine_allStand (member : line ∈ lines)
    (reaches : (Cursor.start line.expanded).Reaches c) (lead : Text) (held : List HeldBlank)
    (kept : AllStand lines (held.map HeldBlank.content)) (isCode : codeIndent ≤ c.indent) :
    AllStand lines (codeLine line lead c held) :=
  kept.append (.single (tokenAt_stands member reaches isCode (List.prefix_refl _) false lead _))

theorem leafLine_allStand (member : line ∈ lines)
    (reaches : (Cursor.start line.expanded).Reaches c) (lead : Text) (containers : Containers)
    {leaf : OpenLeaf} (opened : Bool) (coherent : leaf.Coherent)
    (noFence : ∀ fence, leaf ≠ .fencedCode fence) (kept : AllStand lines leaf.taken) :
    (leafLine line lead c containers leaf opened).AllStand lines := by
  have closing := kept.closeLeaf coherent true (line.position c.offset)
  have silent {token : Token} (isSilent : token.kind.isSilent = true) :=
    AllStand.single (Token.Stands.of_silent lines isSilent)
  refine leafLine_cases (motive := fun effect => effect.AllStand lines) line lead c containers leaf
    opened noFence ?held ?blank ?setext ?text ?moreCode ?newCode ?atxHeading ?thematicBreak
    ?fenceOpen
  case held =>
    intro held isCode isBlank
    subst isCode
    have blank := AllStand.single (tokenAt_stands member reaches (Nat.zero_le _)
      (Text.drop_prefix_of_isBlank (LineClass.isBlank_of_blank isBlank)
        (min codeIndent (Text.spaces c.rest))) false lead (literalFrom line c))
    refine ⟨.nil, ?_⟩
    rw [OpenLeaf.taken, List.map_append]
    exact kept.append blank
  case blank =>
    intro _ _
    exact ⟨closing.append (silent rfl), .nil⟩
  case setext =>
    intro level opening contents isParagraph _
    subst isParagraph
    obtain ⟨_, others⟩ := List.forall_mem_cons.mp kept
    exact ⟨((silent rfl).append others).append (silent rfl), .nil⟩
  case text =>
    intro _
    exact paragraphLine_allStand member reaches lead containers false coherent kept
  case moreCode =>
    intro held isCode indented
    subst isCode
    exact ⟨codeLine_allStand member reaches lead held kept (LineClass.codeIndent_le indented), .nil⟩
  case newCode =>
    intro _ indented
    have code := codeLine_allStand member reaches [] [] .nil (LineClass.codeIndent_le indented)
    exact ⟨(silent rfl).append code, .nil⟩
  case atxHeading =>
    intro heading found
    obtain ⟨_, ahead, isText⟩ := AtxHeading.parse?_reaches (LineClass.of_atxHeading found)
    have here : heading.text <+: (c.skip heading.contentStart).rest.drop 0 :=
      isText ▸ AtxHeading.dropClosing_prefix _
    have content := AllStand.single (tokenAt_stands member (reaches.trans ahead) (Nat.zero_le _)
      here false [] (literalFrom line (c.skip heading.contentStart)))
    exact ⟨closing.append ((silent rfl).append (content.append (silent rfl))), .nil⟩
  case thematicBreak =>
    intro _
    exact ⟨closing.append ((silent rfl).append (silent rfl)), .nil⟩
  case fenceOpen =>
    intro fence _
    exact ⟨closing.append (silent rfl), .nil⟩

theorem freshLine_allStand (member : line ∈ lines)
    (reaches : (Cursor.start line.expanded).Reaches c) (lead : Text) (containers : Containers)
    (opened : Bool) : (leafLine line lead c containers .none opened).AllStand lines :=
  leafLine_allStand member reaches lead containers opened trivial (by simp) .nil

theorem openContainer_stands (member : line ∈ lines) (lead : Text) (containers : Containers)
    {marker : Marker} (here : marker.StandsIn line) :
    (openContainer line lead containers marker).1.Stands lines := by
  cases marker with
  | quote start after => exact .of_silent lines rfl
  | item start item =>
    obtain ⟨left, mark, right, whole, marks, offset⟩ := here
    constructor
    · rintro content isLazy ⟨⟩
    · rintro kind geometry ⟨⟩
      refine ⟨line, member, left, mark, right, whole, marks, ?_, ?_⟩
      · exact congrArg line.position offset
      · exact congrArg (some <| · + 1) offset

theorem openAll_allStand (member : line ∈ lines) (containers : Containers) {markers : List Marker}
    (here : ∀ marker ∈ markers, marker.StandsIn line) :
    AllStand lines (openAll line containers markers).1 := by
  induction markers generalizing containers with
  | nil => exact .nil
  | cons marker rest ih =>
    obtain ⟨first, others⟩ := List.forall_mem_cons.mp here
    exact (AllStand.single (openContainer_stands member [] containers first)).append (ih _ others)

theorem openFirst_allStand (member : line ∈ lines) (lead : Text) (containers : Containers)
    {leaf : OpenLeaf} (depth : Nat) (coherent : leaf.Coherent) (kept : AllStand lines leaf.taken)
    {marker : Marker} (here : marker.StandsIn line) :
    AllStand lines (openFirst line lead containers leaf depth marker).1 := by
  have closing := kept.closeLeaf coherent
  have opening := AllStand.single
    (openContainer_stands member lead (containers.take depth) here)
  refine openFirst_cases (motive := fun opened => AllStand lines opened.1) line lead containers leaf
    depth marker ?all ?sibling ?replaced ?other
  case all =>
    intro _
    exact (closing true _).append opening
  case sibling =>
    intro start item kind current inner _ _ _
    exact ((closing false _).append (.closeContainers inner false _)).append
      (.single (.of_silent lines rfl))
  case replaced =>
    intro start item kind current inner _ _ _
    exact (((closing false _).append (.closeContainers inner false _)).append
      (.closeContainers [.list kind current] true _)).append opening
  case other =>
    intro frame inner _ _
    exact ((closing false _).append (.closeContainers (frame :: inner) false _)).append opening

theorem openedLine_allStand (member : line ∈ lines)
    (reaches : (Cursor.start line.expanded).Reaches c) (lead : Text) (containers : Containers)
    {leaf : OpenLeaf} (depth : Nat) (coherent : leaf.Coherent) (kept : AllStand lines leaf.taken)
    {first : Marker} {later : List Marker}
    (here : ∀ marker ∈ first :: later, marker.StandsIn line) :
    (openedLine line lead containers leaf depth first later c).AllStand lines := by
  obtain ⟨isFirst, areLater⟩ := List.forall_mem_cons.mp here
  have opening := (openFirst_allStand member lead containers depth coherent kept isFirst).append
    (openAll_allStand member (openFirst line lead containers leaf depth first).2 areLater)
  exact .behind opening (freshLine_allStand member reaches [] _ true)

theorem lineEffect_allStand (member : line ∈ lines) (containers : Containers) {leaf : OpenLeaf}
    (coherent : leaf.Coherent) (kept : AllStand lines leaf.taken) :
    (lineEffect containers leaf line).AllStand lines := by
  have reaches := containers.matchLine_reaches line.expanded
  have closing := kept.closeLeaf coherent
  refine lineEffect_cases (motive := fun effect => effect.AllStand lines) containers leaf line rfl
    ?fenced ?opened ?matched ?lazy ?unmatched
  case fenced =>
    intro fence _ _
    unfold fencedLine
    split
    · exact ⟨.single (.of_silent lines rfl), .nil⟩
    · exact ⟨.single (tokenAt_stands member reaches (Nat.min_le_left _ _) (List.prefix_refl _) false
        _ _), .nil⟩
  case opened =>
    intro first later c markers _
    have here := Marker.readAll_standsIn
      ((containers.matchLine line.expanded).depth == containers.length && leaf.isParagraph) reaches
    have run := Marker.readAll_run
      ((containers.matchLine line.expanded).depth == containers.length && leaf.isParagraph)
      (containers.matchLine line.expanded).cursor
    rw [markers] at here run
    exact openedLine_allStand member (reaches.trans run.reaches) _ containers _ coherent kept here
  case matched =>
    intro _ noFence _
    exact leafLine_allStand member reaches _ containers false coherent noFence kept
  case lazy =>
    intro _ _ _ _
    exact paragraphLine_allStand member reaches _ containers true coherent kept
  case unmatched =>
    intro _ _ _
    exact .behind ((closing _ _).append (.closeContainers _ _ _))
      (freshLine_allStand member reaches _ _ false)

theorem runFrom_allStand {all : List Line} (state : State) (lines : List Line)
    (within : ∀ line ∈ lines, line ∈ all) (coherent : state.leaf.Coherent)
    (kept : AllStand all state.leaf.taken) : AllStand all (runFrom state lines) := by
  induction lines generalizing state with
  | nil => exact (kept.closeLeaf coherent _ _).append (.closeContainers _ _ _)
  | cons line rest ih =>
    obtain ⟨first, others⟩ := List.forall_mem_cons.mp within
    obtain ⟨written, left⟩ := lineEffect_allStand first state.containers coherent kept
    have next := (lineEffect_nests state.containers state.leaf line coherent).coherent
    exact written.append (ih (step state line).2 others next left)

end Tokenizer

theorem tokenize_allStand (text : Text) (tabWidth : Nat) :
    AllStand (Source.ofText text tabWidth).lines (tokenize text tabWidth) :=
  Tokenizer.runFrom_allStand .initial _ (fun _ => id) trivial .nil

end BlockLint
