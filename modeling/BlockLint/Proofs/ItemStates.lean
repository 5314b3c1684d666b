import BlockLint.Proofs.ItemMarkers
import BlockLint.Proofs.OutermostLists

/-!
The items of open lists. Between two lines every list but the innermost has content in its item, and
the innermost may wait for its first content. A blank line ends that waiting, and from then on the
item holds blank lines only.

What changes an item is told for one line: marking content, closing what is empty, and opening
another item. That the marks come in time is a matter of the line's rest: a marker or a leaf behind
an item is content, and where nothing is left of the line the item stays empty.
-/
namespace BlockLint

namespace ListItem

/-- The item waits for its content as long as it has none. -/
structure Sound (item : ListItem) : Prop where
  pending : item.contentPending = true ↔ item.hasContent = false
  closed : item.closed = true → item.hasContent = false
  low : 2 ≤ item.contentIndent
  high : item.contentIndent ≤ 17

structure Filled (item : ListItem) : Prop extends item.Sound where
  hasContent : item.hasContent = true
  notPending : item.contentPending = false
  notClosed : item.closed = false

theorem Sound.filled {item : ListItem} (sound : item.Sound) (hasContent : item.hasContent = true) :
    item.Filled where
  toSound := sound
  hasContent := hasContent
  notPending := by
    by_contra pending
    rw [Bool.not_eq_false] at pending
    rw [sound.pending.mp pending] at hasContent
    cases hasContent
  notClosed := by
    by_contra closed
    rw [Bool.not_eq_false] at closed
    rw [sound.closed closed] at hasContent
    cases hasContent

theorem Filled.markContent {item : ListItem} (filled : item.Filled) : item.markContent = item := by
  obtain ⟨_, hasContent, notPending, _⟩ := filled
  cases item
  simp_all [ListItem.markContent]

theorem Filled.closeIfEmpty {item : ListItem} (filled : item.Filled) :
    item.closeIfEmpty = item := by
  rw [ListItem.closeIfEmpty, if_pos filled.hasContent]

theorem markContent_filled {item : ListItem} (low : 2 ≤ item.contentIndent)
    (high : item.contentIndent ≤ 17) (notClosed : item.closed = false) :
    item.markContent.Filled where
  pending := by simp [ListItem.markContent]
  closed := by simp [ListItem.markContent, notClosed]
  low := low
  high := high
  hasContent := rfl
  notPending := rfl
  notClosed := notClosed

theorem Sound.closeIfEmpty {item : ListItem} (sound : item.Sound) : item.closeIfEmpty.Sound := by
  by_cases hasContent : item.hasContent = true
  · rw [ListItem.closeIfEmpty, if_pos hasContent]
    exact sound
  · rw [ListItem.closeIfEmpty, if_neg hasContent]
    exact ⟨sound.pending, fun _ => by simpa using hasContent, sound.low, sound.high⟩

end ListItem

/-- An item that has just been started has no content, whatever follows its marker. -/
theorem ItemStart.FoundAt.listItem_sound {item : ItemStart} {c : Cursor} (found : item.FoundAt c)
    (empty : item.empty = true) : (item.listItem c).Sound where
  pending := by simp [ItemStart.listItem, empty]
  closed := by simp [ItemStart.listItem]
  low := by
    have low := found.low
    simp only [ItemStart.listItem]
    omega
  high := found.high

theorem ItemStart.FoundAt.listItem_filled {item : ItemStart} {c : Cursor}
    (found : item.FoundAt c) : (item.listItem c).markContent.Filled := by
  have low := found.low
  refine ListItem.markContent_filled ?_ found.high rfl
  simp only [ItemStart.listItem]
  omega

namespace Containers

def Filled (containers : Containers) : Prop :=
  ∀ kind item, .list kind item ∈ containers → item.Filled

theorem mapItem_eq_self {containers : Containers} {f : ListItem → ListItem}
    (same : ∀ kind item, .list kind item ∈ containers → f item = item) :
    containers.map (Frame.mapItem f) = containers := by
  have each : ∀ frame ∈ containers, Frame.mapItem f frame = frame := by
    intro frame member
    cases frame with
    | blockQuote => rfl
    | list kind item => rw [Frame.mapItem, same kind item member]
  exact (List.map_congr_left each).trans (List.map_id' containers)

theorem Filled.markContent {containers : Containers} (filled : containers.Filled) :
    containers.markContent = containers :=
  mapItem_eq_self fun kind item member => (filled kind item member).markContent

theorem Filled.closeEmptyItems {containers : Containers} (filled : containers.Filled) :
    containers.closeEmptyItems = containers :=
  mapItem_eq_self fun kind item member => (filled kind item member).closeIfEmpty

theorem exists_of_mem_mapItem {containers : Containers} {f : ListItem → ListItem} {kind : ListKind}
    {item : ListItem} (member : .list kind item ∈ containers.map (Frame.mapItem f)) :
    ∃ before, .list kind before ∈ containers ∧ item = f before := by
  obtain ⟨frame, isOpen, same⟩ := List.mem_map.mp member
  cases frame with
  | blockQuote => cases same
  | list _ before =>
    cases same
    exact ⟨before, isOpen, rfl⟩

theorem Filled.concat {outer : Containers} {frame : Frame} (filled : outer.Filled)
    (last : ∀ kind item, frame = .list kind item → item.Filled) :
    Containers.Filled (outer ++ [frame]) := by
  intro kind item member
  rcases List.mem_append.mp member with inOuter | isLast
  · exact filled kind item inOuter
  · exact last kind item (List.mem_singleton.mp isLast).symm

theorem isBlank_matchFrom {c : Cursor} (blank : c.isBlank = true) (containers : Containers) :
    (matchFrom c containers).cursor.isBlank = true := by
  obtain ⟨passed, _, whole, _⟩ := matchFrom_reaches c containers
  simp only [Cursor.isBlank, Text.isBlank, whole, List.all_append, Bool.and_eq_true] at blank
  exact blank.2

theorem isBlank_of_closed (c : Cursor) (containers : Containers) {kind : ListKind}
    {item : ListItem} (continued : .list kind item ∈ containers.take (matchFrom c containers).depth)
    (closed : item.closed = true) : (matchFrom c containers).cursor.isBlank = true := by
  induction containers generalizing c with
  | nil => simp at continued
  | cons frame inner ih =>
    unfold matchFrom at continued ⊢
    cases continues : frame.continue? c with
    | none => simp [continues] at continued
    | some next =>
      simp only [continues, List.take_succ_cons] at continued ⊢
      rcases List.mem_cons.mp continued with rfl | later
      · refine isBlank_matchFrom ?_ inner
        simp only [Frame.continue?, ListItem.continue?, closed] at continues
        split at continues
        · rename_i blank
          cases Option.some.inj continues
          exact Text.isBlank_drop_of_isBlank blank _
        · simp at continues
      · exact ih next later

theorem notClosed_of_continued {containers : Containers} {line : Line} {found : Match}
    (matching : containers.matchLine line.expanded = found)
    (filled : found.cursor.isBlank = false) {kind : ListKind} {item : ListItem}
    (continued : .list kind item ∈ containers.take found.depth) : item.closed = false := by
  by_contra closed
  subst matching
  have blank := isBlank_of_closed (.start line.expanded) containers continued
    (by simpa using closed)
  change (containers.matchLine line.expanded).cursor.isBlank = true at blank
  rw [filled] at blank
  cases blank

end Containers

namespace Tokenizer

structure ItemsSound (containers : Containers) (leaf : OpenLeaf) : Prop where
  sound : ∀ kind item, .list kind item ∈ containers → item.Sound
  outer : ∀ kind item, .list kind item ∈ containers.dropLast → item.Filled
  innermost : ∀ kind item, containers.getLast? = some (.list kind item) →
    item.hasContent = false → leaf = .none

theorem itemsSound_of_filled {containers : Containers} (filled : containers.Filled)
    (leaf : OpenLeaf) : ItemsSound containers leaf where
  sound := fun kind item member => (filled kind item member).toSound
  outer := fun kind item member => filled kind item (List.dropLast_subset _ member)
  innermost := by
    intro kind item isLast empty
    have hasContent := (filled kind item (List.mem_of_getLast? isLast)).hasContent
    rw [empty] at hasContent
    cases hasContent

namespace ItemsSound

variable {containers : Containers} {leaf : OpenLeaf}

theorem filled (sound : ItemsSound containers leaf) (isOpen : leaf ≠ .none) :
    containers.Filled := by
  intro kind item member
  rcases List.eq_nil_or_concat containers with rfl | ⟨outer, last, rfl⟩
  · cases member
  · rw [List.concat_eq_append] at sound member
    rcases List.mem_append.mp member with inOuter | isLast
    · exact sound.outer kind item (by rwa [List.dropLast_concat])
    · have same := List.mem_singleton.mp isLast
      subst same
      refine (sound.sound kind item member).filled ?_
      by_contra empty
      exact isOpen (sound.innermost kind item (by simp) (by simpa using empty))

theorem closeEmptyItems (sound : ItemsSound containers leaf) :
    ItemsSound containers.closeEmptyItems .none where
  sound := by
    intro kind item member
    obtain ⟨before, wasOpen, rfl⟩ := Containers.exists_of_mem_mapItem member
    exact (sound.sound kind before wasOpen).closeIfEmpty
  outer := by
    intro kind item member
    rw [Containers.closeEmptyItems, ← List.map_dropLast] at member
    obtain ⟨before, wasOpen, rfl⟩ := Containers.exists_of_mem_mapItem member
    have filled := sound.outer kind before wasOpen
    rw [filled.closeIfEmpty]
    exact filled
  innermost := fun _ _ _ _ => rfl

theorem filled_take (sound : ItemsSound containers leaf) {depth : Nat}
    (less : depth < containers.length) : Containers.Filled (containers.take depth) := by
  intro kind item member
  refine sound.outer kind item ?_
  rw [List.dropLast_eq_take]
  exact List.take_subset_take_left containers (by omega) member

end ItemsSound

/-- The rest of a line. Where it is blank, it is told what happens to the items, and where it is
not, that they can be marked. -/
theorem leafLine_itemsSound (line : Line) (lead : Text) (c : Cursor) (containers : Containers)
    (leaf : OpenLeaf) (opened : Bool) (noFence : ∀ fence, leaf ≠ .fencedCode fence)
    (open_ : leaf ≠ .none → containers.Filled)
    (blank : c.isBlank = true →
      ItemsSound (if opened then containers else containers.closeEmptyItems) .none)
    (marked : c.isBlank = false → containers.markContent.Filled) :
    ItemsSound (leafLine line lead c containers leaf opened).containers
      (leafLine line lead c containers leaf opened).leaf := by
  have notBlank {inParagraph : Bool} {leafClass : LineClass}
      (found : LineClass.of c.rest inParagraph = leafClass) (other : leafClass ≠ .blank) :
      c.isBlank = false := by
    by_contra isBlank
    simp only [Cursor.isBlank, Bool.not_eq_false] at isBlank
    exact other (by rw [← found, LineClass.of, if_pos isBlank])
  have content {inParagraph : Bool} {leafClass : LineClass} (kept : OpenLeaf)
      (found : LineClass.of c.rest inParagraph = leafClass) (other : leafClass ≠ .blank) :
      ItemsSound containers.markContent kept :=
    itemsSound_of_filled (marked (notBlank found other)) kept
  refine leafLine_cases (motive := fun effect => ItemsSound effect.containers effect.leaf) line lead
    c containers leaf opened noFence ?held ?blank ?setext ?text ?moreCode ?newCode ?atxHeading
    ?thematicBreak ?fenceOpen
  case held =>
    intro held isCode _
    have filled := open_ (by simp [isCode])
    rw [filled.closeEmptyItems, ite_self]
    exact itemsSound_of_filled filled _
  case blank =>
    intro _ isBlank
    exact blank (LineClass.isBlank_of_blank isBlank)
  case setext =>
    intro level opening contents isParagraph _
    exact itemsSound_of_filled (open_ (by simp [isParagraph])) _
  case text =>
    intro isText
    have same : (paragraphLine line lead c containers leaf false).containers =
        containers.markContent := by
      cases leaf <;> rfl
    rw [same]
    rcases isText with isText | ⟨_, indented⟩
    · exact content _ isText (by simp)
    · exact content _ indented (by simp)
  case moreCode =>
    intro held _ isCode
    exact content _ isCode (by simp)
  case newCode =>
    intro _ isCode
    exact content _ isCode (by simp)
  case atxHeading =>
    intro heading isHeading
    exact content _ isHeading (by simp)
  case thematicBreak =>
    intro isBreak
    exact content _ isBreak (by simp)
  case fenceOpen =>
    intro fence isFence
    exact content _ isFence (by simp)

/-- Inside a line the innermost container is that of the last marker, and those around it have
content. -/
def OpenedBy (marker : Marker) (containers : Containers) : Prop :=
  ∃ (outer : Containers) (frame : Frame), containers = outer ++ [frame] ∧ outer.Filled ∧
    marker.Opens frame

namespace OpenedBy

variable {marker : Marker} {containers : Containers} {c : Cursor}

theorem markContent (opened : OpenedBy marker containers) (found : marker.FoundAt c) :
    containers.markContent.Filled := by
  obtain ⟨outer, frame, rfl, filled, opens⟩ := opened
  have split : Containers.markContent (outer ++ [frame]) =
      outer ++ [frame.mapItem ListItem.markContent] := by
    rw [Containers.markContent, List.map_append]
    exact congrArg (· ++ _) filled.markContent
  rw [split]
  refine filled.concat ?_
  intro kind item isList
  cases opens with
  | quote start after => cases isList
  | item start started listKind =>
    cases isList
    cases found with
    | item isItem => exact (ItemStart.foundAt_of_find? isItem).listItem_filled

theorem itemsSound (opened : OpenedBy marker containers) (found : marker.FoundAt c)
    (blank : marker.past.isBlank = true) : ItemsSound containers .none := by
  obtain ⟨outer, frame, rfl, filled, opens⟩ := opened
  constructor
  case sound =>
    intro kind item member
    rcases List.mem_append.mp member with inOuter | isLast
    · exact (filled kind item inOuter).toSound
    · have same := List.mem_singleton.mp isLast
      subst same
      cases opens with
      | item start started =>
        cases found with
        | item isItem =>
          have foundAt := ItemStart.foundAt_of_find? isItem
          exact foundAt.listItem_sound (foundAt.empty.trans blank)
  case outer =>
    intro kind item member
    rw [List.dropLast_concat] at member
    exact filled kind item member
  case innermost =>
    intro _ _ _ _
    rfl

end OpenedBy

theorem openContainer_openedBy (line : Line) (lead : Text) {containers : Containers}
    (filled : containers.markContent.Filled) (marker : Marker) :
    OpenedBy marker (openContainer line lead containers marker).2 := by
  obtain ⟨frame, same, opens⟩ := openContainer_opens line lead containers marker
  exact ⟨_, frame, same, filled, opens⟩

theorem openAll_openedBy (line : Line) {containers : Containers} {marker : Marker}
    {later : List Marker} {c last : Cursor} (opened : OpenedBy marker containers)
    (found : marker.FoundAt c) (read : Marker.readAll false marker.past = (later, last)) :
    OpenedBy (later.getLastD marker) (openAll line containers later).2 ∧
      (later.getLastD marker).past = last ∧ ∃ start, (later.getLastD marker).FoundAt start := by
  induction later generalizing containers marker c with
  | nil => exact ⟨opened, (Marker.readAll_nil read).symm, c, found⟩
  | cons next later ih =>
    obtain ⟨nextFound, _⟩ := Marker.foundAt_of_readAll read
    have nextOpened := openContainer_openedBy line [] (opened.markContent found) next
    rw [List.getLastD_cons]
    exact ih nextOpened nextFound (Marker.readAll_past read)

theorem openFirst_openedBy (line : Line) (lead : Text) {containers : Containers} (leaf : OpenLeaf)
    {depth : Nat} (marker : Marker)
    (matched : Containers.Filled (Containers.markContent (containers.take depth)))
    (less : depth < containers.length → Containers.Filled (containers.take depth)) :
    OpenedBy marker (openFirst line lead containers leaf depth marker).2 := by
  have opening := openContainer_openedBy line lead matched marker
  refine openFirst_cases (motive := fun opened => OpenedBy marker opened.2) line lead containers
    leaf depth marker ?all ?sibling ?replaced ?other
  case all =>
    intro _
    exact opening
  case sibling =>
    intro start item kind current inner isItem rest _
    subst isItem
    have short : depth < containers.length := by
      by_contra long
      rw [List.drop_of_length_le (by omega)] at rest
      cases rest
    exact ⟨_, _, rfl, less short, .item start item kind⟩
  case replaced =>
    intro start item kind current inner _ _ _
    exact opening
  case other =>
    intro frame inner _ _
    exact opening

/-- A line with content leaves no closed item behind, so what it continues can be marked. -/
theorem ItemsSound.marked {containers : Containers} {leaf : OpenLeaf} {line : Line}
    {found : Containers.Match} (sound : ItemsSound containers leaf)
    (matching : containers.matchLine line.expanded = found)
    (filled : found.cursor.isBlank = false) :
    Containers.Filled (Containers.markContent (containers.take found.depth)) := by
  intro kind item member
  obtain ⟨before, continued, rfl⟩ := Containers.exists_of_mem_mapItem member
  have beforeSound := sound.sound kind before (List.mem_of_mem_take continued)
  exact ListItem.markContent_filled beforeSound.low beforeSound.high
    (Containers.notClosed_of_continued matching filled continued)

theorem settled_openedBy {containers : Containers} {leaf : OpenLeaf} {line : Line}
    {found : Containers.Match} (sound : ItemsSound containers leaf)
    (matching : containers.matchLine line.expanded = found) {inParagraph : Bool} {first : Marker}
    {later : List Marker} {c : Cursor}
    (read : Marker.readAll inParagraph found.cursor = (first :: later, c)) :
    OpenedBy (later.getLastD first)
        (settled line (found.lead line.expanded) containers leaf found.depth first later) ∧
      (later.getLastD first).past = c ∧ ∃ start, (later.getLastD first).FoundAt start := by
  obtain ⟨isFound, _⟩ := Marker.foundAt_of_readAll read
  have opening := openFirst_openedBy line (found.lead line.expanded) leaf first
    (sound.marked matching isFound.filled) sound.filled_take
  exact openAll_openedBy line opening isFound (Marker.readAll_past read)

/-- A line keeps the items sound. -/
theorem lineEffect_itemsSound {containers : Containers} {leaf : OpenLeaf} (line : Line)
    (sound : ItemsSound containers leaf) :
    ItemsSound (lineEffect containers leaf line).containers
      (lineEffect containers leaf line).leaf := by
  generalize matching : containers.matchLine line.expanded = found
  have depth : found.depth ≤ containers.length :=
    matching ▸ Containers.matchFrom_depth_le (.start line.expanded) containers
  refine lineEffect_cases (motive := fun effect => ItemsSound effect.containers effect.leaf)
    containers leaf line matching ?fenced ?opened ?matched ?lazy ?unmatched
  case fenced =>
    intro fence isFence _
    exact itemsSound_of_filled (sound.filled (by simp [isFence])) _
  case opened =>
    intro first later c read _
    obtain ⟨opened, past, start, isFound⟩ := settled_openedBy sound matching read
    refine leafLine_itemsSound line [] c _ .none true (by simp) (by simp) ?_ ?_
    · intro blank
      exact opened.itemsSound isFound (by rwa [past])
    · intro _
      exact opened.markContent isFound
  case matched =>
    intro all noFence _
    refine leafLine_itemsSound line _ _ containers leaf false noFence sound.filled ?_ ?_
    · intro _
      exact sound.closeEmptyItems
    · intro filled
      have marked := sound.marked matching filled
      rwa [all, List.take_length] at marked
  case lazy =>
    intro _ _ isParagraph _
    have filled := sound.filled (by rintro rfl; cases isParagraph)
    have same : (paragraphLine line (found.lead line.expanded) found.cursor containers leaf
        true).containers = containers.markContent := by
      cases leaf <;> rfl
    rw [same, filled.markContent]
    exact itemsSound_of_filled filled _
  case unmatched =>
    intro missing _ _
    have filled := sound.filled_take (Nat.lt_of_le_of_ne depth missing)
    refine leafLine_itemsSound line _ _ _ .none false (by simp) (by simp) ?_ ?_
    · intro _
      rw [filled.closeEmptyItems, ite_self]
      exact itemsSound_of_filled filled _
    · intro _
      rw [filled.markContent]
      exact filled

/-- So do any lines. -/
theorem stateAfter_itemsSound (state : State) (sound : ItemsSound state.containers state.leaf)
    (lines : List Line) :
    ItemsSound (stateAfter state lines).containers (stateAfter state lines).leaf := by
  induction lines generalizing state with
  | nil => exact sound
  | cons line rest ih => exact ih (step state line).2 (lineEffect_itemsSound line sound)

theorem initial_itemsSound (lines : List Line) :
    ItemsSound (stateAfter .initial lines).containers (stateAfter .initial lines).leaf := by
  refine stateAfter_itemsSound .initial (itemsSound_of_filled ?_ _) lines
  intro kind item member
  cases member

end Tokenizer

/-- An item of the list ends with the token: the next item follows, or the list ends. -/
def TokenKind.LeavesItem (kind : ListKind) : TokenKind → Prop
  | .newListItem _ _ => True
  | .containerEnd container _ => container = .list kind
  | _ => False

theorem TokenKind.LeavesItem.notBlank {kind : ListKind} {token : TokenKind}
    (leaves : token.LeavesItem kind) : token ≠ .blankLine := by
  rintro rfl
  exact leaves

theorem Containers.exists_close {containers : Containers} {frame : Frame}
    (innermost : containers.getLast? = some frame) (natural : Bool) (position : Position) :
    ∃ rest, containers.close natural position =
      endToken (.containerEnd frame.kind natural) position :: rest := by
  obtain ⟨outer, rfl⟩ := List.getLast?_eq_some_iff.mp innermost
  exact ⟨Containers.close outer natural position, by simp [close]⟩

namespace Tokenizer

section
variable {containers : Containers} {kind : ListKind} {item : ListItem}
  (innermost : containers.getLast? = some (.list kind item))
include innermost

theorem innermost_of_drop {depth : Nat} {frame : Frame} {inner : Containers}
    (rest : containers.drop depth = frame :: inner) :
    (frame :: inner).getLast? = some (.list kind item) ∧
      (inner = [] ∧ frame = .list kind item ∨ inner.getLast? = some (.list kind item)) := by
  have last := List.getLast?_drop (l := containers) (i := depth)
  have short : ¬ containers.length ≤ depth := by
    intro long
    rw [List.drop_of_length_le long] at rest
    cases rest
  rw [rest, if_neg short, innermost] at last
  refine ⟨last, ?_⟩
  rcases List.eq_nil_or_concat inner with rfl | ⟨front, frame', rfl⟩
  · exact .inl ⟨rfl, Option.some.inj last⟩
  · rw [List.getLast?_cons, List.concat_eq_append, List.getLast?_concat] at last
    rw [List.concat_eq_append, List.getLast?_concat]
    exact .inr last

/-- The first marker of a line ends an item, or stands inside it. -/
theorem openFirst_item (line : Line) (lead : Text) (depth : Nat) (marker : Marker) :
    ∃ next rest, (openFirst line lead containers .none depth marker).1 = next :: rest ∧
      next.kind ≠ .blankLine ∧ (next.kind.LeavesItem kind ∨ containers.drop depth = []) := by
  have ends {inner : Containers} (isInner : inner.getLast? = some (.list kind item))
      (natural : Bool) (position : Position) (later : List Token) :
      ∃ next rest, inner.close natural position ++ later = next :: rest ∧
        next.kind ≠ .blankLine ∧ (next.kind.LeavesItem kind ∨ containers.drop depth = []) := by
    obtain ⟨rest, closing⟩ := Containers.exists_close isInner natural position
    rw [closing]
    exact ⟨_, _, rfl, by simp [endToken], .inl rfl⟩
  refine openFirst_cases
    (motive := fun opened => ∃ next rest, opened.1 = next :: rest ∧ next.kind ≠ .blankLine ∧
      (next.kind.LeavesItem kind ∨ containers.drop depth = []))
    line lead containers .none depth marker ?all ?sibling ?replaced ?other
  case all =>
    intro none
    exact ⟨_, _, rfl, (Marker.Starts.container lead (containers.take depth) marker).notBlank,
      .inr none⟩
  case sibling =>
    intro start started listKind current inner _ rest _
    rcases (innermost_of_drop innermost rest).2 with ⟨rfl, _⟩ | isInner
    · exact ⟨_, _, rfl, by simp [tokenAt], .inl trivial⟩
    · exact ends isInner _ _ _
  case replaced =>
    intro start started listKind current inner _ rest _
    rcases (innermost_of_drop innermost rest).2 with ⟨rfl, isList⟩ | isInner
    · cases isList
      exact ⟨_, _, rfl, by simp [endToken], .inl rfl⟩
    · simp only [OpenLeaf.close, List.nil_append, List.append_assoc]
      exact ends isInner _ _ _
  case other =>
    intro frame inner rest _
    exact ends (innermost_of_drop innermost rest).1 _ _ _

/-- What a line does to an item in which no leaf is open. -/
theorem lineEffect_item (line : Line) {later : List Token}
    (heads : (lineEffect containers .none line).leaf.Heads later) :
    (∃ token, lineEffect containers .none line = ⟨[token], containers.closeEmptyItems, .none⟩ ∧
      token.kind = .blankLine) ∨
    ∃ next rest, (lineEffect containers .none line).written ++ later = next :: rest ∧
      next.kind ≠ .blankLine ∧ (next.kind.LeavesItem kind ∨ item.closed = false) := by
  generalize matching : containers.matchLine line.expanded = found
  have depth : found.depth ≤ containers.length :=
    matching ▸ Containers.matchFrom_depth_le (.start line.expanded) containers
  have notClosed (all : found.depth = containers.length) (filled : found.cursor.isBlank = false) :
      item.closed = false := by
    have continued : .list kind item ∈ containers.take found.depth := by
      rw [all, List.take_length]
      exact List.mem_of_getLast? innermost
    exact Containers.notClosed_of_continued matching filled continued
  revert heads
  refine lineEffect_cases
    (motive := fun effect => effect.leaf.Heads later →
      (∃ token, effect = ⟨[token], containers.closeEmptyItems, .none⟩ ∧
        token.kind = .blankLine) ∨
      ∃ next rest, effect.written ++ later = next :: rest ∧ next.kind ≠ .blankLine ∧
        (next.kind.LeavesItem kind ∨ item.closed = false))
    containers .none line matching ?fenced ?opened ?matched ?lazy ?unmatched
  case fenced => simp
  case opened =>
    intro first markers c read _ _
    obtain ⟨next, rest, opens, notBlank, leaves⟩ := openFirst_item innermost line
      (found.lead line.expanded) found.depth first
    refine .inr ⟨next, _, by simp only [openedLine, opens, List.cons_append]; rfl, notBlank, ?_⟩
    refine leaves.imp_right fun none => ?_
    have all : containers.length ≤ found.depth := List.drop_eq_nil_iff.mp none
    exact notClosed (by omega) (Marker.foundAt_of_readAll read).1.filled
  case matched =>
    intro all _ _ heads
    cases blank : found.cursor.isBlank with
    | true =>
      rw [leafLine_of_blank line _ containers false blank]
      exact .inl ⟨_, rfl, rfl⟩
    | false =>
      obtain ⟨next, rest, same, _, _, filled⟩ := leafLine_first line (found.lead line.expanded)
        found.cursor containers false heads
      obtain ⟨leaf, starts⟩ := filled blank
      exact .inr ⟨next, rest, same, by simp [starts], .inr (notClosed all blank)⟩
  case lazy =>
    intro _ _ isParagraph
    cases isParagraph
  case unmatched =>
    intro missing _ _ _
    have last : (containers.drop found.depth).getLast? = some (.list kind item) := by
      rw [List.getLast?_drop, if_neg (by omega), innermost]
    obtain ⟨rest, closing⟩ := Containers.exists_close last found.cursor.isBlank
      (line.position found.cursor.offset)
    simp only [unmatchedLine, OpenLeaf.close, List.nil_append, closing, List.cons_append]
    exact .inr ⟨_, _, rfl, by simp [endToken], .inl rfl⟩

end

section
variable {state : State} {kind : ListKind} {item : ListItem}

/-- The tokens go on with a blank line that empties the item, or with one that is not blank. -/
theorem runFrom_item (innermost : state.containers.getLast? = some (.list kind item))
    (noLeaf : state.leaf = .none) (lines : List Line) :
    (∃ line later blank next, lines = line :: later ∧
      runFrom state lines = blank :: runFrom next later ∧ blank.kind = .blankLine ∧
      next.containers.getLast? = some (.list kind item.closeIfEmpty) ∧ next.leaf = .none) ∨
    ∃ stop rest, runFrom state lines = stop :: rest ∧ stop.kind ≠ .blankLine ∧
      (stop.kind.LeavesItem kind ∨ item.closed = false) := by
  cases lines with
  | nil =>
    obtain ⟨rest, closing⟩ := Containers.exists_close innermost false state.reached
    rw [runFrom, finish, noLeaf, closing]
    exact .inr ⟨_, _, rfl, by simp [endToken], .inl rfl⟩
  | cons line later =>
    have coherent := (lineEffect_nests state.containers .none line trivial).coherent
    have heads := runFrom_heads (step state line).2 later (by rw [step, noLeaf]; exact coherent)
    rw [runFrom]
    simp only [step, noLeaf] at heads ⊢
    refine (lineEffect_item innermost line heads).imp_left ?_
    rintro ⟨blank, effect, isBlank⟩
    rw [effect]
    refine ⟨line, later, blank, ⟨state.containers.closeEmptyItems, .none, line.endPosition⟩, rfl,
      rfl, isBlank, ?_, rfl⟩
    rw [Containers.closeEmptyItems, List.getLast?_map, innermost]
    rfl

/-- A closed item holds nothing but blank lines until it ends. -/
theorem runFrom_closed (innermost : state.containers.getLast? = some (.list kind item))
    (noLeaf : state.leaf = .none) (closed : item.closed = true) (lines : List Line) :
    ∃ blanks stop rest, runFrom state lines = blanks ++ stop :: rest ∧
      (∀ blank ∈ blanks, blank.kind = .blankLine) ∧ stop.kind.LeavesItem kind := by
  induction lines generalizing state item with
  | nil =>
    rcases runFrom_item innermost noLeaf [] with ⟨_, _, _, _, lines, _⟩ |
      ⟨stop, rest, tokens, _, leaves⟩
    · cases lines
    · exact ⟨[], stop, rest, tokens, by simp, leaves.resolve_right (by simp [closed])⟩
  | cons line later ih =>
    rcases runFrom_item innermost noLeaf (line :: later) with
      ⟨_, _, blank, next, lines, tokens, isBlank, stays, noLeaf⟩ | ⟨stop, rest, tokens, _, leaves⟩
    · cases lines
      have isClosed : item.closeIfEmpty.closed = true := by
        rw [ListItem.closeIfEmpty]
        split
        · exact closed
        · rfl
      obtain ⟨blanks, stop, rest, others, areBlank, leaves⟩ := ih stays noLeaf isClosed
      refine ⟨blank :: blanks, stop, rest, by simp [tokens, others], ?_, leaves⟩
      exact List.forall_mem_cons.mpr ⟨isBlank, areBlank⟩
    · exact ⟨[], stop, rest, tokens, by simp, leaves.resolve_right (by simp [closed])⟩

/-- A blank line closes an item that has no content. -/
theorem runFrom_waiting (innermost : state.containers.getLast? = some (.list kind item))
    (noLeaf : state.leaf = .none) (waiting : item.hasContent = false) {lines : List Line}
    {blank : Token} {after : List Token} (tokens : runFrom state lines = blank :: after)
    (isBlank : blank.kind = .blankLine) :
    ∃ blanks stop rest, after = blanks ++ stop :: rest ∧
      (∀ blank ∈ blanks, blank.kind = .blankLine) ∧ stop.kind.LeavesItem kind := by
  rcases runFrom_item innermost noLeaf lines with ⟨_, later, _, next, _, same, _, stays, noLeaf⟩ |
    ⟨stop, rest, same, notBlank, _⟩
  · rw [tokens] at same
    cases same
    exact runFrom_closed stays noLeaf (by simp [ListItem.closeIfEmpty, waiting]) later
  · rw [tokens] at same
    cases same
    exact absurd isBlank notBlank

end

theorem exists_waiting_of_written {containers : Containers} {leaf : OpenLeaf} {line : Line}
    (sound : ItemsSound containers leaf) (coherent : leaf.Coherent)
    {front back later after : List Token} {start first : Token}
    (written : (lineEffect containers leaf line).written = front ++ start :: back)
    (starts : start.kind.startsItem = true)
    (heads : (lineEffect containers leaf line).leaf.Heads later)
    (follows : back ++ later = first :: after) (isBlank : first.kind = .blankLine) :
    ∃ (outer : Containers) (kind : ListKind) (item : ListItem),
      (lineEffect containers leaf line).containers = outer ++ [.list kind item] ∧
      item.hasContent = false ∧ (lineEffect containers leaf line).leaf = .none ∧
      back = [first] ∧ after = later := by
  obtain ⟨marker, markers, c, others, place, item, inner, opening, last, read, split, _, opens,
    _, rfl, sameContainers, sameLeaf, isLast⟩ := exists_item_of_written rfl coherent written starts
  obtain ⟨⟨outer, frame, settles, _, innermost⟩, _⟩ := settled_openedBy sound rfl read
  rw [settles] at isLast
  rw [sameLeaf] at heads
  cases opens with
  | cons isNext _ =>
    cases follows
    exact absurd isBlank isNext.notBlank
  | nil =>
    have isInnermost : markers.getLastD marker = .item place item := by
      have last := congrArg List.getLast? split
      rwa [List.getLast?_concat, List.getLast?_cons, Option.some.injEq,
        ← List.getLastD_eq_getLast?] at last
    rw [isInnermost] at innermost
    have blank : c.isBlank = true := by
      subst isLast
      by_contra filled
      obtain ⟨next, rest, tokens, _, _, isLeaf⟩ := leafLine_first line [] c _ true heads
      rw [List.nil_append, tokens] at follows
      cases follows
      obtain ⟨kind, isStart⟩ := isLeaf (by simpa using filled)
      rw [isBlank] at isStart
      cases isStart
    rw [leafLine_of_blank line [] _ true blank] at isLast
    subst isLast
    cases follows
    cases innermost with
    | item _ _ kind =>
      exact ⟨outer, kind, item.listItem place, sameContainers, rfl, sameLeaf, rfl, rfl⟩

theorem exists_waiting {lines : List Line} {before after : List Token} {start first : Token}
    (split : run lines = before ++ start :: first :: after)
    (starts : start.kind.startsItem = true) (isBlank : first.kind = .blankLine) :
    ∃ state kind item outer later, state.containers.getLast? = some (.list kind item) ∧
      state.leaf = .none ∧ item.hasContent = false ∧ runFrom state later = after ∧
      Nesting.closed.replay (before ++ [start]) = some ⟨.list kind :: outer, none⟩ := by
  have initial : State.initial.leaf.Coherent := trivial
  obtain ⟨earlier, line, later, front, back, _, written, rfl, follows⟩ :=
    exists_line_of_item initial split starts
  have sound := initial_itemsSound earlier
  have heads := runFrom_heads _ later (stateAfter_coherent .initial initial (earlier ++ [line]))
  have replay := replay_writtenFrom .initial initial (earlier ++ [line])
  rw [stateAfter_concat] at follows heads replay
  obtain ⟨outer, kind, item, innermost, waiting, noLeaf, rfl, rest⟩ := exists_waiting_of_written
    sound (stateAfter_coherent .initial initial earlier) written starts heads follows.symm isBlank
  refine ⟨(step (stateAfter .initial earlier) line).2, kind, item, outer.kinds, later,
    by simp [step, innermost], noLeaf, waiting, rest.symm, ?_⟩
  have kinds : (step (stateAfter .initial earlier) line).2.containers.kinds =
      .list kind :: outer.kinds := by
    simp [step, innermost, Frame.kind]
  have noStart : (step (stateAfter .initial earlier) line).2.leaf.started? = none :=
    congrArg OpenLeaf.started? noLeaf
  rw [writtenFrom_concat, written, List.append_cons, ← List.append_assoc, kinds, noStart] at replay
  obtain ⟨middle, toStart, ofBlank⟩ := Nesting.exists_replay_append replay
  obtain ⟨last, fits, done⟩ := Option.bind_eq_some_iff.mp ofBlank
  rw [isBlank] at fits
  cases Nesting.step_of_next fits
  cases done
  rw [List.append_assoc]
  exact toStart

/-- Between two lines the items of the open lists are sound, and an item whose first two blocks are
blank lines holds nothing but blank lines. -/
theorem items_sound (lines : List Line) :
    ItemsSound (stateAfter .initial lines).containers (stateAfter .initial lines).leaf ∧
    ∀ before start first second after, run lines = before ++ start :: first :: second :: after →
      start.kind.startsItem = true → first.kind = .blankLine → second.kind = .blankLine →
      ∃ kind outer blanks stop rest,
        Nesting.closed.replay (before ++ [start]) = some ⟨.list kind :: outer, none⟩ ∧
        after = blanks ++ stop :: rest ∧ (∀ blank ∈ blanks, blank.kind = .blankLine) ∧
        stop.kind.LeavesItem kind := by
  refine ⟨initial_itemsSound lines, ?_⟩
  intro before start first second after split starts firstBlank secondBlank
  obtain ⟨state, kind, item, outer, later, innermost, noLeaf, waiting, tokens, replay⟩ :=
    exists_waiting split starts firstBlank
  obtain ⟨blanks, stop, rest, same, areBlank, leaves⟩ :=
    runFrom_waiting innermost noLeaf waiting tokens secondBlank
  exact ⟨kind, outer, blanks, stop, rest, replay, same, areBlank, leaves⟩

end Tokenizer
end BlockLint
