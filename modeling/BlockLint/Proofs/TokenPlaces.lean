import BlockLint.Proofs.Cursors

/-!
Positions are exact. In a document without tabs, the text that a token consumes starts where the
texts of the tokens before it end, and its position is there or behind some spaces. At the position
of content stands the content.

Three ways of counting meet here: columns, bytes, and text handed out. A cursor ties them together,
because as many characters as bytes are to its left.
-/
namespace BlockLint

/-- The literal of the token starts at byte `start` of the document. From there spaces lead to its
position, and content stands where its position says. -/
structure Token.Located (text : Text) (source : Source) (start : Nat) (token : Token) : Prop where
  literal : token.literal ≠ [] → ∃ place, source.offset? token.position = some place ∧
    start ≤ place ∧ place ≤ start + Text.size token.literal ∧
    ∃ left right, text = left ++ List.replicate (place - start) ' ' ++ right ∧
      Text.size left = start
  content : ∀ content isLazy, token.kind = .leafContent content isLazy →
    ∃ place, source.offset? token.position = some place ∧
      ∃ left right, text = left ++ content ++ right ∧ Text.size left = place

structure Line.Of (text : Text) (source : Source) (line : Line) : Prop where
  found : source.line? line.number = some line
  noTab : '\t' ∉ line.text
  around : ∃ before after, text = before ++ (line.text ++ line.ending) ++ after ∧
    Text.size before = line.span.start
  stop : line.span.stop = line.span.start + Text.size (line.text ++ line.ending)

theorem Expansion.columns_head (width seen column : Nat) {text : Text} (noTab : '\t' ∉ text) :
    (expandFrom width seen column text).columns[0]? = some column := by
  cases text with
  | nil => rfl
  | cons c rest =>
    have isText : c ≠ '\t' := fun isTab => noTab (isTab ▸ List.mem_cons_self)
    obtain ⟨more, size⟩ := Nat.exists_eq_succ_of_ne_zero (Nat.ne_of_gt (Char.utf8Size_pos c))
    simp [expandFrom, isText, size, List.replicate_succ]

namespace Line

theorem column_eq {line : Line} {front rest : Text} (noTab : '\t' ∉ line.text)
    (plain : front.Plain) (same : line.text = front ++ rest) :
    line.column front.length = front.length + 1 := by
  have noTabRest : '\t' ∉ rest := fun isTab => noTab (same ▸ List.mem_append_right _ isTab)
  have behind := Expansion.columns_behind (max line.tabWidth 1) 0 1 plain rest 0
  rw [Expansion.columns_head _ _ _ noTabRest, Nat.zero_add, ← same] at behind
  simp only [column, expansion, expandTabs, behind, Option.getD_some]
  omega

theorem Of.offset? {text : Text} {source : Source} {line : Line} (of : line.Of text source)
    {front rest : Text} (plain : front.Plain) (same : line.text = front ++ rest) :
    source.offset? (line.position front.length) = some (line.span.start + front.length) := by
  have column := column_eq of.noTab plain same
  have size := plain.size_eq_length
  have found := of.found
  simp [Source.offset?, Line.position, found, documentOffset, column, same, size]

end Line

inductive Takes (text : Text) (source : Source) : Nat → List Token → Nat → Prop where
  | nil (start : Nat) : Takes text source start [] start
  | cons {start stop : Nat} {token : Token} {rest : List Token} :
      token.Located text source (start + Text.size token.lead) →
        Takes text source (start + Text.size token.sourceText) rest stop →
          Takes text source start (token :: rest) stop

namespace Takes

variable {text : Text} {source : Source} {start middle stop : Nat} {left right : List Token}

theorem append (first : Takes text source start left middle)
    (second : Takes text source middle right stop) :
    Takes text source start (left ++ right) stop := by
  induction first with
  | nil => exact second
  | cons located _ ih => exact .cons located (ih second)

theorem located {token : Token} (takes : Takes text source start (left ++ token :: right) stop) :
    token.Located text source
      (start + Text.size (left.flatMap Token.sourceText) + Text.size token.lead) := by
  induction left generalizing start with
  | nil =>
    cases takes with
    | cons located _ => simpa using located
  | cons first others ih =>
    cases takes with
    | cons _ rest => simpa [Nat.add_assoc] using ih rest

theorem endToken (start : Nat) {kind : TokenKind} (position : Position)
    (noContent : ∀ content isLazy, kind ≠ .leafContent content isLazy) :
    Takes text source start [BlockLint.endToken kind position] start := by
  refine .cons ⟨?_, ?_⟩ (.nil start)
  · intro filled
    exact absurd rfl filled
  · intro content isLazy isContent
    exact absurd isContent (noContent content isLazy)

theorem closeContainers (start : Nat) (containers : Containers) (natural : Bool)
    (position : Position) :
    Takes text source start (containers.close natural position) start := by
  unfold Containers.close
  induction containers.reverse with
  | nil => exact .nil start
  | cons frame rest ih => exact (endToken start position (by simp)).append ih

end Takes

theorem Token.Located.withKind {text : Text} {source : Source} {start : Nat} {token : Token}
    (located : token.Located text source start) {kind : TokenKind}
    (noContent : ∀ content isLazy, kind ≠ .leafContent content isLazy) :
    Token.Located text source start { token with kind } := by
  refine ⟨located.literal, ?_⟩
  intro content isLazy isContent
  exact absurd isContent (noContent content isLazy)

namespace OpenLeaf

/-- The tokens that are kept back. Held blank lines count as lines of the code, which says more of
them than that they are blank. -/
def taken : OpenLeaf → List Token
  | .paragraph opening contents => opening :: contents
  | .indentedCode held => held.map HeldBlank.content
  | .none | .fencedCode _ => []

variable {text : Text} {source : Source} {start stop : Nat}

theorem held_takes {held : List HeldBlank} (coherent : (indentedCode held).Coherent)
    (takes : Takes text source start (held.map HeldBlank.content) stop) :
    Takes text source start (held.map (·.token)) stop := by
  induction held generalizing start with
  | nil => exact takes
  | cons blank rest ih =>
    cases takes with
    | cons located later =>
      have isBlank := coherent blank List.mem_cons_self
      have others : (indentedCode rest).Coherent := fun other member =>
        coherent other (List.mem_cons_of_mem _ member)
      exact .cons (located.withKind (by simp [isBlank])) (ih others later)

theorem close_takes {leaf : OpenLeaf} (coherent : leaf.Coherent)
    (takes : Takes text source start leaf.taken stop) (natural : Bool) (position : Position) :
    Takes text source start (leaf.close natural position) stop := by
  cases leaf with
  | none => exact takes
  | paragraph opening contents => exact takes.append (.endToken stop position (by simp))
  | indentedCode held =>
    exact (Takes.endToken start _ (by simp)).append (held_takes coherent takes)
  | fencedCode fence => exact takes.append (.endToken stop position (by simp))

end OpenLeaf

theorem Text.dropTail_prefix (p : Char → Bool) (text : Text) : text.dropTail p <+: text := by
  rw [← List.reverse_suffix, dropTail, List.reverse_reverse]
  exact List.dropWhile_suffix p

theorem AtxHeading.dropClosing_prefix (raw : Text) : dropClosing raw <+: raw := by
  have bare := Text.dropTail_prefix (· == ' ') raw
  unfold dropClosing
  dsimp only
  split
  · exact List.nil_prefix
  · split
    · exact ((Text.dropTail_prefix _ _).trans (Text.dropTail_prefix _ _)).trans bare
    · exact bare

theorem Text.drop_prefix_of_isBlank {text : Text} (blank : isBlank text = true) (count : Nat) :
    text.drop count <+: text := by
  have spaces : text = List.replicate text.length ' ' := by
    refine List.eq_replicate_iff.mpr ⟨rfl, ?_⟩
    intro c member
    simpa using List.all_eq_true.mp blank c member
  rw [spaces, List.drop_replicate]
  exact List.prefix_replicate_iff.mpr (by simp)

namespace Tokenizer

variable {text : Text} {source : Source} {line : Line} {low base : Nat}

theorem literalFrom_size (of : line.Of text source) {c : Cursor}
    (reaches : (Cursor.start line.expanded).Reaches c) :
    line.span.start + c.offset + Text.size (literalFrom line c) = line.span.stop := by
  obtain ⟨passed, plain, whole, offset⟩ := reaches
  simp only [Cursor.start_rest, Line.expanded_eq_text of.noTab] at whole
  simp only [Cursor.start_offset, Nat.zero_add] at offset
  rw [of.stop, literalFrom, whole]
  simp only [Text.size_append, plain.size_eq_length, offset]
  omega

theorem tokenAt_located (of : line.Of text source) {c : Cursor}
    (reaches : (Cursor.start line.expanded).Reaches c) {count : Nat} (few : count ≤ c.indent)
    (kind : TokenKind) (lead : Text) {literal : Text}
    (room : literal ≠ [] → count ≤ Text.size literal)
    (content : ∀ content isLazy, kind = .leafContent content isLazy →
      content <+: c.rest.drop count) :
    (tokenAt line (c.offset + count) kind lead literal).Located text source
      (line.span.start + c.offset) := by
  obtain ⟨passed, plain, whole, offset⟩ := reaches
  obtain ⟨before, after, document, size⟩ := of.around
  have spaces : c.rest = List.replicate count ' ' ++ c.rest.drop count := by
    rw [← Text.take_spaces few, List.take_append_drop]
  simp only [Cursor.start_rest, Line.expanded_eq_text of.noTab] at whole
  simp only [Cursor.start_offset, Nat.zero_add] at offset
  have passedSize : Text.size passed = c.offset := by rw [plain.size_eq_length, offset]
  have front : line.text = (passed ++ List.replicate count ' ') ++ c.rest.drop count := by
    rw [List.append_assoc, ← spaces, whole]
  have place := of.offset? (plain.append (Text.replicate_plain count)) front
  rw [List.length_append, List.length_replicate, ← offset, ← Nat.add_assoc] at place
  refine ⟨?_, ?_⟩
  · intro filled
    refine ⟨_, place, Nat.le_add_right _ _, Nat.add_le_add_left (room filled) _,
      before ++ passed, c.rest.drop count ++ line.ending ++ after, ?_, ?_⟩
    · rw [document, front, Nat.add_sub_cancel_left]
      simp only [List.append_assoc]
    · rw [Text.size_append, size, passedSize]
  · intro found isLazy isContent
    obtain ⟨rest, starts⟩ := content found isLazy isContent
    refine ⟨_, place, before ++ passed ++ List.replicate count ' ',
      rest ++ line.ending ++ after, ?_, ?_⟩
    · rw [document, front, ← starts]
      simp only [List.append_assoc]
    · rw [Text.size_append, Text.size_append, size, passedSize,
        (Text.replicate_plain count).size_eq_length, List.length_replicate]

theorem tokenAt_takes (of : line.Of text source) {c : Cursor}
    (reaches : (Cursor.start line.expanded).Reaches c) {count : Nat} (few : count ≤ c.indent)
    (kind : TokenKind) {lead literal : Text} (room : literal ≠ [] → count ≤ Text.size literal)
    (content : ∀ content isLazy, kind = .leafContent content isLazy →
      content <+: c.rest.drop count)
    (behind : base + Text.size lead = line.span.start + c.offset) :
    Takes text source base [tokenAt line (c.offset + count) kind lead literal]
      (line.span.start + c.offset + Text.size literal) := by
  have located := tokenAt_located of reaches few kind lead room content
  rw [← behind] at located ⊢
  rw [Nat.add_assoc, ← Text.size_append]
  exact .cons located (.nil _)

theorem startAt_takes (of : line.Of text source) {c : Cursor}
    (reaches : (Cursor.start line.expanded).Reaches c) {count : Nat} (few : count ≤ c.indent)
    (leaf : LeafKind) {lead : Text}
    (behind : base + Text.size lead = line.span.start + c.offset) :
    Takes text source base [tokenAt line (c.offset + count) (.leafStart leaf) lead []]
      (line.span.start + c.offset) :=
  tokenAt_takes of reaches few _ (absurd rfl) (by simp) behind

theorem restAt_takes (of : line.Of text source) {c : Cursor}
    (reaches : (Cursor.start line.expanded).Reaches c) {count : Nat} (few : count ≤ c.indent)
    (kind : TokenKind) {lead : Text}
    (content : ∀ content isLazy, kind = .leafContent content isLazy →
      content <+: c.rest.drop count)
    (behind : base + Text.size lead = line.span.start + c.offset) :
    Takes text source base [tokenAt line (c.offset + count) kind lead (literalFrom line c)]
      line.span.stop := by
  have inRest : count ≤ Text.size (literalFrom line c) := by
    have spaces : c.indent ≤ c.rest.length := Text.spaces_le_length c.rest
    have bytes := Text.length_le_size c.rest
    rw [literalFrom, Text.size_append]
    omega
  rw [← literalFrom_size of reaches]
  exact tokenAt_takes of reaches few kind (fun _ => inRest) content behind

/-- What the effect writes is located from byte `start` on, and what it keeps back from there to
byte `stop`. -/
def Effect.Takes (text : Text) (source : Source) (start : Nat) (effect : Effect) (stop : Nat) :
    Prop :=
  ∃ middle, BlockLint.Takes text source start effect.written middle ∧
    BlockLint.Takes text source middle effect.leaf.taken stop

theorem Effect.Takes.of_written {effect : Effect} {stop : Nat} (none : effect.leaf.taken = [])
    (written : BlockLint.Takes text source low effect.written stop) :
    effect.Takes text source low stop :=
  ⟨stop, written, none ▸ .nil stop⟩

theorem Effect.Takes.behind {effect : Effect} {tokens : List Token} {stop : Nat}
    (before : BlockLint.Takes text source low tokens base)
    (takes : effect.Takes text source base stop) :
    Effect.Takes text source low { effect with written := tokens ++ effect.written } stop := by
  obtain ⟨middle, written, kept⟩ := takes
  exact ⟨middle, before.append written, kept⟩

theorem paragraphLine_takes (of : line.Of text source) {c : Cursor}
    (reaches : (Cursor.start line.expanded).Reaches c) {lead : Text} (containers : Containers)
    {leaf : OpenLeaf} (isLazy : Bool) (coherent : leaf.Coherent)
    (kept : BlockLint.Takes text source low leaf.taken base)
    (behind : base + Text.size lead = line.span.start + c.offset) :
    (paragraphLine line lead c containers leaf isLazy).Takes text source low line.span.stop := by
  have closing := OpenLeaf.close_takes coherent kept true (line.position c.offset)
  have content {base : Nat} (lead : Text)
      (behind : base + Text.size lead = line.span.start + c.offset) :
      BlockLint.Takes text source base
        [tokenAt line (c.offset + c.indent) (.leafContent (paragraphText c.rest) isLazy) lead
          (literalFrom line c)] line.span.stop := by
    refine restAt_takes of reaches (Nat.le_refl _) _ ?_ behind
    intro content isLazy isContent
    cases isContent
    rw [Cursor.indent, Text.drop_spaces]
    exact List.prefix_refl _
  have started := (startAt_takes of reaches (Nat.le_refl _) .paragraph behind).append
    (content [] rfl)
  cases leaf with
  | paragraph opening contents => exact ⟨low, .nil low, kept.append (content lead behind)⟩
  | none => exact ⟨base, closing, started⟩
  | indentedCode held => exact ⟨base, closing, started⟩
  | fencedCode fence => exact ⟨base, closing, started⟩

theorem codeLine_takes (of : line.Of text source) {c : Cursor}
    (reaches : (Cursor.start line.expanded).Reaches c) (lead : Text) (held : List HeldBlank)
    (kept : BlockLint.Takes text source low (held.map HeldBlank.content) base)
    (behind : base + Text.size lead = line.span.start + c.offset)
    (isCode : codeIndent ≤ c.indent) :
    BlockLint.Takes text source low (codeLine line lead c held) line.span.stop := by
  refine kept.append (restAt_takes of reaches isCode _ ?_ behind)
  intro content isLazy isContent
  cases isContent
  exact List.prefix_refl _

theorem leafLine_takes (of : line.Of text source) {c : Cursor}
    (reaches : (Cursor.start line.expanded).Reaches c) {lead : Text} (containers : Containers)
    {leaf : OpenLeaf} (opened : Bool) (coherent : leaf.Coherent)
    (noFence : ∀ fence, leaf ≠ .fencedCode fence)
    (kept : BlockLint.Takes text source low leaf.taken base)
    (behind : base + Text.size lead = line.span.start + c.offset) :
    (leafLine line lead c containers leaf opened).Takes text source low line.span.stop := by
  have closing := OpenLeaf.close_takes coherent kept true (line.position c.offset)
  have rest {count : Nat} (few : count ≤ c.indent) (kind : TokenKind)
      (noContent : ∀ content isLazy, kind ≠ .leafContent content isLazy) :=
    restAt_takes of reaches few kind
      (fun content isLazy isContent => absurd isContent (noContent content isLazy)) behind
  refine leafLine_cases (motive := fun effect => effect.Takes text source low line.span.stop) line
    lead c containers leaf opened noFence ?held ?blank ?setext ?text ?moreCode ?newCode ?atxHeading
    ?thematicBreak ?fenceOpen
  case held =>
    intro held isCode isBlank
    subst isCode
    have blank := restAt_takes of reaches (Nat.zero_le _)
      (.leafContent (c.rest.drop (min codeIndent (Text.spaces c.rest))) false) (by
        intro content isLazy isContent
        cases isContent
        exact Text.drop_prefix_of_isBlank (LineClass.isBlank_of_blank isBlank) _) behind
    refine ⟨low, .nil low, ?_⟩
    rw [OpenLeaf.taken, List.map_append]
    exact kept.append blank
  case blank =>
    intro _ _
    exact .of_written rfl (closing.append (rest (Nat.zero_le _) .blankLine (by simp)))
  case setext =>
    intro level opening contents isParagraph _
    subst isParagraph
    have heading : BlockLint.Takes text source low
        ({ opening with kind := .leafStart (.setextHeading level) } :: contents) base := by
      cases kept with
      | cons located others => exact .cons (located.withKind (by simp)) others
    exact .of_written rfl (heading.append (rest (Nat.le_refl _) _ (by simp)))
  case text =>
    intro _
    exact paragraphLine_takes of reaches containers false coherent kept behind
  case moreCode =>
    intro held isCode indented
    subst isCode
    exact .of_written rfl
      (codeLine_takes of reaches lead held kept behind (LineClass.codeIndent_le indented))
  case newCode =>
    intro isNone indented
    subst isNone
    have isCode : codeIndent ≤ c.indent := LineClass.codeIndent_le indented
    have start := startAt_takes of reaches isCode .indentedCode behind
    have code := codeLine_takes of reaches [] [] (.nil _) rfl isCode
    exact .of_written rfl (kept.append (start.append code))
  case atxHeading =>
    intro heading found
    obtain ⟨indent, ahead, isText⟩ := AtxHeading.parse?_reaches (LineClass.of_atxHeading found)
    have size := ahead.size_upTo
    have room : c.indent ≤ Text.size (c.upTo (c.skip heading.contentStart)) := by
      simp only [Cursor.skip] at size ⊢
      omega
    have start := tokenAt_takes of reaches (Nat.le_refl _)
      (.leafStart (.atxHeading heading.level)) (fun _ => room) (by simp) behind
    rw [Nat.add_assoc, size] at start
    have content : BlockLint.Takes text source
        (line.span.start + (c.skip heading.contentStart).offset)
        [tokenAt line (c.skip heading.contentStart).offset (.leafContent heading.text false) []
          (literalFrom line (c.skip heading.contentStart))] line.span.stop := by
      refine restAt_takes of (reaches.trans ahead) (Nat.zero_le _) _ ?_ rfl
      intro content isLazy isContent
      cases isContent
      exact isText ▸ AtxHeading.dropClosing_prefix _
    exact .of_written rfl (closing.append ((start.append content).append
      (.endToken _ _ (by simp))))
  case thematicBreak =>
    intro _
    exact .of_written rfl (closing.append ((rest (Nat.le_refl _) _ (by simp)).append
      (.endToken _ _ (by simp))))
  case fenceOpen =>
    intro fence found
    have indent : fence.indent = c.indent := Fence.indent_of_open? (LineClass.of_fenceOpen found)
    exact .of_written rfl (closing.append (rest (Nat.le_of_eq indent) _ (by simp)))

theorem markerAt_takes (of : line.Of text source) {c : Cursor}
    (reaches : (Cursor.start line.expanded).Reaches c) {marker : Marker} (read : marker.ReadAt c)
    (lead : Text) (behind : base + Text.size lead = line.span.start + c.offset) (kind : TokenKind)
    (noContent : ∀ content isLazy, kind ≠ .leafContent content isLazy) :
    BlockLint.Takes text source base [tokenAt line marker.place kind lead marker.literal]
      (line.span.start + marker.past.offset) := by
  have size := read.reaches.size_upTo
  have place := read.place
  have past := read.past
  have room : c.indent ≤ Text.size (c.upTo marker.past) := by omega
  have takes := tokenAt_takes of reaches (Nat.le_refl _) kind (fun _ => room)
    (fun content isLazy isContent => absurd isContent (noContent content isLazy)) behind
  rw [Nat.add_assoc, size] at takes
  rwa [Marker.literal, read.start, place]

theorem openAll_takes (of : line.Of text source) {c last : Cursor} {markers : List Marker}
    (run : Marker.Run c markers last) (reaches : (Cursor.start line.expanded).Reaches c)
    (containers : Containers) :
    BlockLint.Takes text source (line.span.start + c.offset) (openAll line containers markers).1
      (line.span.start + last.offset) := by
  induction run generalizing containers with
  | nil c => exact .nil _
  | @cons c last marker rest read _ ih =>
    obtain ⟨container, item, token⟩ := openContainer_token line [] containers marker
    have first := markerAt_takes of reaches read [] rfl (.containerStart container item) (by simp)
    rw [← token] at first
    exact first.append (ih (reaches.trans read.reaches) _)

theorem openFirst_takes (of : line.Of text source) {c : Cursor}
    (reaches : (Cursor.start line.expanded).Reaches c) {marker : Marker} (read : marker.ReadAt c)
    {lead : Text} (containers : Containers) {leaf : OpenLeaf} (depth : Nat)
    (coherent : leaf.Coherent) (kept : BlockLint.Takes text source low leaf.taken base)
    (behind : base + Text.size lead = line.span.start + c.offset) :
    BlockLint.Takes text source low (openFirst line lead containers leaf depth marker).1
      (line.span.start + marker.past.offset) := by
  have closing := OpenLeaf.close_takes coherent kept
  obtain ⟨container, item, token⟩ := openContainer_token line lead (containers.take depth) marker
  have opening := markerAt_takes of reaches read lead behind (.containerStart container item)
    (by simp)
  rw [← token] at opening
  refine openFirst_cases
    (motive := fun opened => BlockLint.Takes text source low opened.1
      (line.span.start + marker.past.offset)) line lead containers leaf depth marker
    ?all ?sibling ?replaced ?other
  case all =>
    intro _
    exact (closing true _).append opening
  case sibling =>
    intro start found kind current inner isItem _ _
    subst isItem
    have next := markerAt_takes of reaches read lead behind
      (.newListItem (found.listItem start).geometry found.number?) (by simp)
    exact ((closing false _).append (.closeContainers base inner false _)).append next
  case replaced =>
    intro start found kind current inner isItem _ _
    exact (((closing false _).append (.closeContainers base inner false _)).append
      (.closeContainers base [.list kind current] true _)).append opening
  case other =>
    intro frame inner _ _
    exact ((closing false _).append (.closeContainers base (frame :: inner) false _)).append
      opening

theorem openedLine_takes (of : line.Of text source) {c last : Cursor}
    (reaches : (Cursor.start line.expanded).Reaches c) {first : Marker} {later : List Marker}
    (run : Marker.Run c (first :: later) last) {lead : Text} (containers : Containers)
    {leaf : OpenLeaf} (depth : Nat) (coherent : leaf.Coherent)
    (kept : BlockLint.Takes text source low leaf.taken base)
    (behind : base + Text.size lead = line.span.start + c.offset) :
    (openedLine line lead containers leaf depth first later last).Takes text source low
      line.span.stop := by
  have reachesLast := reaches.trans run.reaches
  cases run with
  | cons read rest =>
    have opening := (openFirst_takes of reaches read containers depth coherent kept behind).append
      (openAll_takes of rest (reaches.trans read.reaches)
        (openFirst line lead containers leaf depth first).2)
    exact .behind opening (leafLine_takes of reachesLast _ true trivial (by simp) (.nil _) rfl)

theorem unmatchedLine_takes (of : line.Of text source) {c : Cursor}
    (reaches : (Cursor.start line.expanded).Reaches c) {lead : Text} (containers : Containers)
    {leaf : OpenLeaf} (depth : Nat) (coherent : leaf.Coherent)
    (kept : BlockLint.Takes text source low leaf.taken base)
    (behind : base + Text.size lead = line.span.start + c.offset) :
    (unmatchedLine line lead c containers leaf depth).Takes text source low line.span.stop := by
  have closing := (OpenLeaf.close_takes coherent kept c.isBlank (line.position c.offset)).append
    (.closeContainers base (containers.drop depth) c.isBlank (line.position c.offset))
  exact .behind closing (leafLine_takes of reaches _ false trivial (by simp) (.nil _) behind)

theorem fencedLine_takes (of : line.Of text source) {c : Cursor}
    (reaches : (Cursor.start line.expanded).Reaches c) {lead : Text} (containers : Containers)
    (fence : Fence) (behind : base + Text.size lead = line.span.start + c.offset) :
    Effect.Takes text source base
      { written := [(fencedLine line lead c fence).1]
        containers
        leaf := (fencedLine line lead c fence).2 } line.span.stop := by
  unfold fencedLine
  split
  · exact .of_written rfl (restAt_takes of reaches (Nat.le_refl _) _ (by simp) behind)
  · refine .of_written rfl (restAt_takes of reaches (Nat.min_le_left _ _) _ ?_ behind)
    intro content isLazy isContent
    cases isContent
    exact List.prefix_refl _

/-- A line goes on where what is kept back stops. -/
theorem lineEffect_takes (of : line.Of text source) (containers : Containers) {leaf : OpenLeaf}
    (coherent : leaf.Coherent)
    (kept : BlockLint.Takes text source low leaf.taken line.span.start) :
    (lineEffect containers leaf line).Takes text source low line.span.stop := by
  have reaches := containers.matchLine_reaches line.expanded
  have behind : line.span.start +
      Text.size ((containers.matchLine line.expanded).lead line.expanded) =
        line.span.start + (containers.matchLine line.expanded).cursor.offset := by
    have size := reaches.size_upTo
    rw [Cursor.start_offset, Nat.zero_add] at size
    exact congrArg (line.span.start + ·) size
  refine lineEffect_cases (motive := fun effect => effect.Takes text source low line.span.stop)
    containers leaf line rfl ?fenced ?opened ?matched ?lazy ?unmatched
  case fenced =>
    intro fence isFence _
    subst isFence
    cases kept
    exact fencedLine_takes of reaches containers fence behind
  case opened =>
    intro first later c markers _
    have run := Marker.readAll_run
      ((containers.matchLine line.expanded).depth == containers.length && leaf.isParagraph)
      (containers.matchLine line.expanded).cursor
    rw [markers] at run
    exact openedLine_takes of reaches run containers _ coherent kept behind
  case matched =>
    intro _ noFence _
    exact leafLine_takes of reaches containers false coherent noFence kept behind
  case lazy =>
    intro _ _ _ _
    exact paragraphLine_takes of reaches containers true coherent kept behind
  case unmatched =>
    intro _ _ _
    exact unmatchedLine_takes of reaches containers _ coherent kept behind

theorem finish_takes {state : State} {stop : Nat} (coherent : state.leaf.Coherent)
    (kept : BlockLint.Takes text source low state.leaf.taken stop) :
    BlockLint.Takes text source low (finish state) stop :=
  (OpenLeaf.close_takes coherent kept false state.reached).append
    (.closeContainers stop state.containers false state.reached)

/-- The lines that follow a state, laid out from where what it keeps back stops. -/
theorem runFrom_takes (state : State) {tabWidth number start : Nat} {raws : List Text}
    (areLines : ∀ line ∈ Source.layOut tabWidth number start raws, line.Of text source)
    (coherent : state.leaf.Coherent)
    (kept : BlockLint.Takes text source low state.leaf.taken start) :
    ∃ stop, BlockLint.Takes text source low
      (runFrom state (Source.layOut tabWidth number start raws)) stop := by
  induction raws generalizing state number start low with
  | nil => exact ⟨start, finish_takes coherent kept⟩
  | cons raw rest ih =>
    let line := Line.ofRaw number ⟨start, start + Text.size raw⟩ raw tabWidth
    obtain ⟨middle, written, keptNext⟩ := lineEffect_takes
      (areLines line List.mem_cons_self) state.containers coherent kept
    have coherentNext := (lineEffect_nests state.containers state.leaf line coherent).coherent
    obtain ⟨stop, others⟩ := ih (step state line).2
      (fun other later => areLines other (List.mem_cons_of_mem _ later)) coherentNext keptNext
    exact ⟨stop, written.append others⟩

end Tokenizer

theorem Source.lines_of {text : Text} (tabWidth : Nat) (noTab : '\t' ∉ text) :
    ∀ line ∈ (ofText text tabWidth).lines, line.Of text (ofText text tabWidth) := by
  intro line isLine
  obtain ⟨stop, before, after, document, start⟩ := layOut_spans tabWidth 1 0 _ line isLine
  rw [flatten_rawLines] at document
  exact ⟨line?_number isLine, noTab_of_mem_lines noTab isLine,
    ⟨before, after, document, by omega⟩, stop⟩

/-- In a document without tabs the literal of a token starts where the texts of the tokens before
it and its lead end. The token's position is there or behind spaces of the literal. At the position
of content stands its text. -/
theorem offset?_position_tokenize {text : Text} (tabWidth : Nat) (noTab : '\t' ∉ text)
    {before after : List Token} {token : Token}
    (stream : tokenize text tabWidth = before ++ token :: after) :
    let start := Text.size (before.flatMap Token.sourceText) + Text.size token.lead
    (token.literal ≠ [] →
      ∃ place, (Source.ofText text tabWidth).offset? token.position = some place ∧
        start ≤ place ∧ place ≤ start + Text.size token.literal ∧
        ∃ left right, text = left ++ List.replicate (place - start) ' ' ++ right ∧
          Text.size left = start) ∧
    ∀ content isLazy, token.kind = .leafContent content isLazy →
      ∃ place, (Source.ofText text tabWidth).offset? token.position = some place ∧
        ∃ left right, text = left ++ content ++ right ∧ Text.size left = place := by
  intro start
  obtain ⟨stop, takes⟩ := Tokenizer.runFrom_takes .initial
    (Source.lines_of tabWidth noTab) trivial (.nil 0)
  change Takes text _ 0 (tokenize text tabWidth) stop at takes
  rw [stream] at takes
  have located := takes.located
  rw [Nat.zero_add] at located
  exact ⟨located.literal, located.content⟩

/-- Columns count characters, places count bytes. -/
theorem offset?_position_tokenize_quoted :
    let text : Text := ['é', '\n', '>', ' ', ' ', ' ', 'b']
    let content : Token := ⟨.leafContent ['b'] false, ⟨2, 5⟩, [], [' ', ' ', 'b']⟩
    content ∈ tokenize text 4 ∧
      (∃ place, (Source.ofText text 4).offset? ⟨2, 5⟩ = some place ∧ 5 ≤ place ∧ place ≤ 8 ∧
        ∃ left right, text = left ++ List.replicate (place - 5) ' ' ++ right ∧
          Text.size left = 5) ∧
      ∃ place, (Source.ofText text 4).offset? ⟨2, 5⟩ = some place ∧
        ∃ left right, text = left ++ ['b'] ++ right ∧ Text.size left = place := by
  intro text content
  have stream : tokenize text 4 =
      (tokenize text 4).take 5 ++ content :: (tokenize text 4).drop 6 := by decide +kernel
  have size : Text.size (((tokenize text 4).take 5).flatMap Token.sourceText) = 5 := by
    decide +kernel
  have noTab : '\t' ∉ text := by decide
  obtain ⟨literal, isContent⟩ := offset?_position_tokenize 4 noTab stream
  rw [size] at literal
  exact ⟨by rw [stream]; simp, literal (by decide), isContent ['b'] false rfl⟩

end BlockLint
