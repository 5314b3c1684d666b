import BlockLint.Proofs.Strict.Showing
import BlockLint.Proofs.Tokenizer.Progress

/-!
The tokenizer that works in place never stops at a fault, and writes the tokens of the tokenizer
that only ever adds to what it has written.

It opens containers marker by marker, where the other first reads all markers. So the loop over the
markers is followed along the list that was read.
-/
namespace BlockLint

def OpenLeaf.PlainFence : OpenLeaf → Prop
  | .fencedCode fence => Text.Plain [fence.char]
  | _ => True

namespace Strict

open Tokenizer (tokenAt openContainer openAll openFirst)

namespace State

/-- An item on a line that leaves off at `frame`. All inside of it ends, and then it goes on with
the item or ends too. -/
theorem openItem_unmatched (written : List Token) (lead : Text) (reached : Position)
    (leaf : OpenLeaf) (outer inner : Containers) (frame : Frame) (line : Line) (offset : Nat)
    (start : ItemStart) :
    let position := line.position offset
    let ended := written ++ leaf.close false position ++ Containers.close inner false position
    (showing written (outer ++ frame :: inner) leaf lead reached).openMarker line outer.length true
        offset (.item start) =
      if frame.kind.sameListType start.kind then
        (showing ended (outer ++ [frame]) .none lead reached).nextItem line offset start
      else
        (showing (ended ++ Containers.close [frame] frame.kind.isList position) outer .none lead
          reached).openList line offset start := by
  intro position ended
  have within : outer.length + 1 ≤ (outer ++ frame :: inner).length := by simp
  have deeper : (outer ++ frame :: inner).drop (outer.length + 1) = inner := by simp
  have further : (outer ++ frame :: inner).take (outer.length + 1) = outer ++ [frame] := by
    rw [List.take_length_add_append]
    rfl
  have first : (outer ++ frame :: inner)[outer.length]? = some frame := by
    rw [List.getElem?_append_right (Nat.le_refl _), Nat.sub_self]
    rfl
  simp only [openMarker, showing_containers, first, Option.map_some, Option.any_some, Bool.true_and,
    if_true, closeUnmatched_showing _ _ _ _ within, ok_bind, deeper, further]
  split
  · rw [closeLeaf_showing, OpenLeaf.close_none, List.append_nil]
  · simp only [closeContainer_showing, ok_bind, closeLeaf_showing, OpenLeaf.close_none,
      List.append_nil, ended, position]

theorem cut_marker {text : Text} {c : Cursor} (reaches : (Cursor.start text).Reaches c)
    {marker : BlockLint.Marker} (read : marker.ReadAt c) :
    cut text c.offset (Marker.ofCursor marker).stop = .ok marker.literal := by
  rw [Marker.ofCursor_stop read, cut_reached reaches read.reaches, BlockLint.Marker.literal,
    read.start]

section Markers

variable (written : List Token) (containers : Containers) (lead : Text) (reached : Position)
  {line : Line} {c : Cursor} (reaches : (Cursor.start line.expanded).Reaches c)

include reaches

theorem openQuote_showing {after : Cursor} (read : (BlockLint.Marker.quote c after).ReadAt c) :
    (showing written containers .none lead reached).openQuote line c.offset after.offset =
      .ok (showing (written ++ [(openContainer line lead containers (.quote c after)).1])
        (openContainer line lead containers (.quote c after)).2 .none [] reached) := by
  have literal : cut line.expanded c.offset after.offset = _ := cut_marker reaches read
  unfold openQuote
  rw [literal, ok_bind, spacesAt_reached reaches, markContent_showing,
    emit_showing _ _ _ _ .none rfl]
  rfl

theorem openList_showing {item : BlockLint.ItemStart}
    (read : (BlockLint.Marker.item c item).ReadAt c) :
    (showing written containers .none lead reached).openList line c.offset (.ofCursor item) =
      .ok (showing (written ++ [(openContainer line lead containers (.item c item)).1])
        (openContainer line lead containers (.item c item)).2 .none [] reached) := by
  have literal : cut line.expanded c.offset item.consumedEnd = .ok (c.upTo (item.past c)) :=
    cut_marker reaches read
  simp only [openList, ItemStart.ofCursor, literal, ok_bind, markContent_showing,
    emit_showing _ _ _ _ .none rfl]
  rfl

theorem nextItem_showing {item : BlockLint.ItemStart}
    (read : (BlockLint.Marker.item c item).ReadAt c) (kind : ListKind) (current : ListItem) :
    (showing written (containers ++ [.list kind current]) .none lead reached).nextItem line
        c.offset (.ofCursor item) =
      .ok (showing
        (written ++ [tokenAt line item.markerOffset
          (.newListItem (item.listItem c).geometry item.number?) lead (c.upTo (item.past c))])
        (containers ++ [.list kind (item.listItem c)]) .none [] reached) := by
  have literal : cut line.expanded c.offset (ItemStart.ofCursor item).consumedEnd =
      .ok (c.upTo (item.past c)) := cut_marker reaches read
  have set : (showing written (containers ++ [.list kind current]) .none lead
      reached).containers.setLastItem? ((ItemStart.ofCursor item).listItem c.offset) =
        some (containers ++ [.list kind (item.listItem c)]) := by
    simp only [showing, Containers.setLastItem?, List.getLast?_concat, List.dropLast_concat]
    rfl
  have emitted := emit_showing written (containers ++ [.list kind (item.listItem c)]) lead reached
    .none rfl line item.markerOffset (.newListItem (item.listItem c).geometry item.number?)
    (c.upTo (item.past c))
  unfold nextItem
  simp only [set, literal, ok_bind]
  exact congrArg Except.ok emitted

theorem openMarker_showing (leaf : OpenLeaf) {marker : BlockLint.Marker} (read : marker.ReadAt c)
    (depth : Nat) :
    (showing written containers leaf lead reached).openMarker line depth false c.offset
        (.ofCursor marker) =
      .ok (showing
        (written ++ leaf.close true (line.position c.offset) ++
          [(openContainer line lead containers marker).1])
        (openContainer line lead containers marker).2 .none [] reached) := by
  cases marker with
  | quote start after =>
    cases read.start
    simp only [Marker.ofCursor, openMarker, Bool.false_eq_true, if_false, ok_bind,
      closeLeaf_showing]
    exact openQuote_showing _ _ _ _ reaches read
  | item start item =>
    cases read.start
    simp only [Marker.ofCursor, openMarker, Bool.false_and, Bool.false_eq_true, if_false, ok_bind,
      closeLeaf_showing]
    exact openList_showing _ _ _ _ reaches read

theorem openMarker_unmatched (leaf : OpenLeaf) {marker : BlockLint.Marker}
    (read : marker.ReadAt c) (outer inner : Containers) (frame : Frame) :
    (showing written (outer ++ frame :: inner) leaf lead reached).openMarker line outer.length true
        c.offset (.ofCursor marker) =
      .ok (showing
        (written ++ (openFirst line lead (outer ++ frame :: inner) leaf outer.length marker).1)
        (openFirst line lead (outer ++ frame :: inner) leaf outer.length marker).2 .none []
        reached) := by
  have rest : (outer ++ frame :: inner).drop outer.length = frame :: inner := by simp
  have upTo : (outer ++ frame :: inner).take outer.length = outer := by simp
  have item (start : ItemStart) := openItem_unmatched written lead reached leaf outer inner frame
    line c.offset start
  refine Tokenizer.openFirst_cases (motive := fun opened => _ = Except.ok
    (showing (written ++ opened.1) opened.2 .none [] reached)) line lead _ leaf _ marker
    ?all ?sibling ?replaced ?other
  case all =>
    intro none
    rw [rest] at none
    cases none
  case sibling =>
    intro cursor found kind current others isItem isList same
    subst isItem
    obtain rfl : cursor = c := read.start
    rw [rest] at isList
    cases isList
    refine (item _).trans ((if_pos same).trans ?_)
    rw [nextItem_showing _ _ _ _ reaches read, upTo]
    simp only [List.append_assoc]
  case replaced =>
    intro cursor found kind current others isItem isList differs
    subst isItem
    obtain rfl : cursor = c := read.start
    rw [rest] at isList
    cases isList
    refine (item _).trans ((if_neg (Bool.eq_false_iff.mp differs)).trans ?_)
    rw [openList_showing _ _ _ _ reaches read, upTo]
    simp only [List.append_assoc, Frame.kind, ContainerKind.isList]
  case other =>
    -- A quote marker ends `frame` with all inside of it. An item ends the inside first, and then
    -- looks at `frame`, which is a quote here.
    intro frame' others isFrame noList
    rw [rest] at isFrame
    cases isFrame
    cases marker with
    | quote cursor after =>
      obtain rfl : cursor = c := read.start
      have within : outer.length ≤ (outer ++ frame :: inner).length := by simp
      simp only [Marker.ofCursor, openMarker, if_true, closeUnmatched_showing _ _ _ _ within,
        ok_bind, closeLeaf_showing, rest, upTo, OpenLeaf.close_none, List.append_nil]
      rw [openQuote_showing _ _ _ _ reaches read]
      simp only [List.append_assoc, BlockLint.Marker.start]
    | item cursor found =>
      obtain rfl : cursor = c := read.start
      cases frame with
      | list kind current => exact absurd rfl (noList _ _ kind current rfl)
      | blockQuote =>
        refine (item _).trans ((if_neg (by simp [Frame.kind, ContainerKind.sameListType])).trans ?_)
        rw [openList_showing _ _ _ _ reaches read, upTo, Containers.close_cons .blockQuote inner]
        simp only [List.append_assoc, BlockLint.Marker.start, Frame.kind, ContainerKind.isList]

theorem openMarker_first {containers : Containers} (leaf : OpenLeaf) {marker : BlockLint.Marker}
    (read : marker.ReadAt c) {depth : Nat} (within : depth ≤ containers.length) :
    (showing written containers leaf lead reached).openMarker line depth
        (!(depth == containers.length)) c.offset (.ofCursor marker) =
      .ok (showing (written ++ (openFirst line lead containers leaf depth marker).1)
        (openFirst line lead containers leaf depth marker).2 .none [] reached) := by
  cases rest : containers.drop depth with
  | nil =>
    have all : depth = containers.length :=
      Nat.le_antisymm within (List.drop_eq_nil_iff.mp rest)
    subst all
    simp only [beq_self_eq_true, Bool.not_true, openMarker_showing _ _ _ _ reaches leaf read]
    simp [openFirst, read.start]
  | cons frame inner =>
    have whole := List.take_append_drop depth containers
    have length : (containers.take depth).length = depth := List.length_take_of_le within
    have some : (depth == containers.length) = false := by
      refine beq_false_of_ne ?_
      rintro rfl
      simp at rest
    rw [rest] at whole
    have unmatched := openMarker_unmatched written lead reached reaches leaf read
      (containers.take depth) inner frame
    rw [whole, length] at unmatched
    rwa [some]

end Markers

theorem stop_bounds {text : Text} {c : Cursor} (reaches : (Cursor.start text).Reaches c)
    {marker : BlockLint.Marker} (read : marker.ReadAt c) :
    c.offset < (Marker.ofCursor marker).stop ∧ (Marker.ofCursor marker).stop ≤ Text.size text := by
  have place := read.place
  have past := read.past
  rw [Marker.ofCursor_stop read, size_reached (reaches.trans read.reaches)]
  omega

section Rounds

variable {line : Line} {depth : Nat} {allMatched : Bool} (state : State) {offset : Nat}
  (opened unmatched : Bool)

theorem openMarkers_of_none
    (none : Marker.next? (!opened && allMatched && state.leaf.isParagraph) line.expanded offset =
      .ok none) :
    openMarkers line depth allMatched ⟨state, offset, opened, unmatched⟩ =
      .ok ⟨state, offset, opened, unmatched⟩ := by
  rw [openMarkers, none]
  rfl

theorem openMarkers_of_some {marker : Marker} {next : State}
    (found : Marker.next? (!opened && allMatched && state.leaf.isParagraph) line.expanded offset =
      .ok (some marker))
    (opens : state.openMarker line depth unmatched offset marker = .ok next)
    (moves : offset < marker.stop ∧ marker.stop ≤ Text.size line.expanded) :
    openMarkers line depth allMatched ⟨state, offset, opened, unmatched⟩ =
      openMarkers line depth allMatched ⟨next, marker.stop, true, false⟩ := by
  rw [openMarkers, found, ok_bind]
  simp only [opens, ok_bind, moves, and_self, dif_pos]

end Rounds

theorem openMarkers_later {line : Line} (depth : Nat) (allMatched : Bool) (reached : Position)
    {markers : List BlockLint.Marker} (written : List Token) (containers : Containers)
    {c last : Cursor} (reaches : (Cursor.start line.expanded).Reaches c)
    (read : BlockLint.Marker.readAll false c = (markers, last)) :
    openMarkers line depth allMatched
        ⟨showing written containers .none [] reached, c.offset, true, false⟩ =
      .ok ⟨showing (written ++ (openAll line containers markers).1)
        (openAll line containers markers).2 .none [] reached, last.offset, true, false⟩ := by
  -- Behind the first marker no leaf is open and no lead is left, so all rounds start alike.
  induction markers generalizing c written containers with
  | nil =>
    have next := Marker.next?_eq false reaches
    rw [read] at next
    cases BlockLint.Marker.readAll_nil read
    rw [openMarkers_of_none _ true false next]
    simp [openAll]
  | cons marker rest ih =>
    have readAt := BlockLint.Marker.readAt_of_readAll read
    have next := Marker.next?_eq false reaches
    rw [read] at next
    have opens := openMarker_showing written containers [] reached reaches .none readAt depth
    rw [openMarkers_of_some _ true false next opens (stop_bounds reaches readAt),
      Marker.ofCursor_stop readAt,
      ih _ _ (reaches.trans readAt.reaches) (BlockLint.Marker.readAll_past read)]
    simp [openAll]

/-- All markers of a line, if there are some. `depth` containers go on. -/
theorem openMarkers_showing {line : Line} (written : List Token) {containers : Containers}
    (leaf : OpenLeaf) (lead : Text) (reached : Position) {depth : Nat}
    (within : depth ≤ containers.length) {first : BlockLint.Marker}
    {later : List BlockLint.Marker} {c last : Cursor}
    (reaches : (Cursor.start line.expanded).Reaches c)
    (read : BlockLint.Marker.readAll (depth == containers.length && leaf.isParagraph) c =
      (first :: later, last)) :
    openMarkers line depth (depth == containers.length)
        ⟨showing written containers leaf lead reached, c.offset, false,
          !(depth == containers.length)⟩ =
      .ok ⟨showing
        (written ++ (openFirst line lead containers leaf depth first).1 ++
          (openAll line (openFirst line lead containers leaf depth first).2 later).1)
        (openAll line (openFirst line lead containers leaf depth first).2 later).2 .none []
        reached, last.offset, true, false⟩ := by
  have readAt := BlockLint.Marker.readAt_of_readAll read
  have next := Marker.next?_eq (depth == containers.length && leaf.isParagraph) reaches
  rw [read] at next
  rw [openMarkers_of_some _ false _ (by simpa using next)
    (openMarker_first written lead reached reaches leaf readAt within)
    (stop_bounds reaches readAt), Marker.ofCursor_stop readAt,
    openMarkers_later _ _ _ _ _ (reaches.trans readAt.reaches)
      (BlockLint.Marker.readAll_past read)]

section Lines

variable (written : List Token) {containers : Containers} {leaf : OpenLeaf} (lead : Text)
  (reached : Position) {line : Line} {c : Cursor}
  (reaches : (Cursor.start line.expanded).Reaches c)

include reaches

theorem goesOn_showing :
    (showing written containers leaf lead reached).goesOn line c.offset =
      .ok (leaf.isParagraph && (LineClass.of c.rest false).continuesParagraph) := by
  simp only [goesOn, cutFrom_reached reaches, isBlankFrom_reached reaches, lineClass_eq, ok_bind,
    showing_isParagraph]
  cases blank : c.isBlank with
  | true =>
    have isBlank : LineClass.of c.rest false = .blank := if_pos blank
    simp [isBlank, LineClass.continuesParagraph]
  | false => cases leaf.isParagraph <;> rfl

theorem settle_unmatched {depth : Nat} (within : depth ≤ containers.length) :
    settle line depth ⟨showing written containers leaf lead reached, c.offset, false, true⟩ =
      .ok (after written
        (if leaf.isParagraph && (LineClass.of c.rest false).continuesParagraph then
          Tokenizer.paragraphLine line lead c containers leaf true
        else Tokenizer.unmatchedLine line lead c containers leaf depth) reached) := by
  dsimp only [settle]
  rw [goesOn_showing _ _ _ reaches, ok_bind]
  split
  · exact paragraphLine_showing _ _ _ _ reaches leaf true
  · rw [isBlankFrom_reached reaches, closeUnmatched_showing _ _ _ leaf within, ok_bind,
      leafLine_showing _ _ _ _ reaches (by simp) (by simp)]
    simp only [after, Tokenizer.unmatchedLine, List.append_assoc]

end Lines

theorem takeLine_of_noFence (written : List Token) {containers : Containers} {leaf : OpenLeaf}
    (lead : Text) (reached : Position) (line : Line) {depth : Nat} (offset : Nat)
    (noFence : depth = containers.length → ∀ fence, leaf ≠ .fencedCode fence) :
    (showing written containers leaf lead reached).takeLine line depth offset =
      openMarkers line depth (depth == containers.length)
          ⟨showing written containers leaf lead reached, offset, false,
            !(depth == containers.length)⟩ >>= settle line depth := by
  unfold takeLine
  simp only [showing_containers, showing_leaf]
  split
  · rename_i fence isFence
    by_cases all : depth = containers.length
    · cases leaf with
      | fencedCode other => exact absurd rfl (noFence all other)
      | _ => simp [all, Leaf.of] at isFence
    · simp [all] at isFence
  · rfl

theorem takeLine_showing (written : List Token) (containers : Containers) {leaf : OpenLeaf}
    (plain : leaf.PlainFence) (reached : Position)
    (line : Line) {found : Containers.Match}
    (matching : containers.matchLine line.expanded = found) :
    (showing written containers leaf (found.lead line.expanded) reached).takeLine line found.depth
        found.cursor.offset =
      .ok (after written (Tokenizer.lineEffect containers leaf line) reached) := by
  have reaches : (Cursor.start line.expanded).Reaches found.cursor :=
    matching ▸ containers.matchLine_reaches line.expanded
  have within : found.depth ≤ containers.length :=
    matching ▸ Containers.matchFrom_depth_le (.start line.expanded) containers
  have next {inParagraph : Bool}
      (none : BlockLint.Marker.readAll inParagraph found.cursor = ([], found.cursor)) :
      Marker.next? inParagraph line.expanded found.cursor.offset = .ok Option.none := by
    rw [Marker.next?_eq inParagraph reaches, none]
    rfl
  refine Tokenizer.lineEffect_cases (motive := fun effect => _ = Except.ok
    (after written effect reached)) containers leaf line matching ?fenced ?opened ?matched ?lazy
    ?unmatched
  case fenced =>
    intro fence isFence all
    subst isFence
    simp only [takeLine, showing_containers, showing_leaf, all, beq_self_eq_true, if_true, Leaf.of]
    exact fencedLine_showing _ _ _ _ reaches plain
  case opened =>
    intro first later c markers noFence
    have run := BlockLint.Marker.readAll_run (found.depth == containers.length && leaf.isParagraph)
      found.cursor
    rw [markers] at run
    rw [takeLine_of_noFence _ _ _ _ _ noFence,
      openMarkers_showing written leaf _ reached within reaches markers, ok_bind]
    dsimp only [settle]
    rw [leafLine_showing _ _ _ _ (reaches.trans run.reaches) (by simp) (by simp)]
    simp only [after, Tokenizer.openedLine, List.append_assoc]
  case matched =>
    intro all noFence markers
    rw [takeLine_of_noFence _ _ _ _ _ fun _ => noFence, all, beq_self_eq_true,
      openMarkers_of_none _ _ _ (next (by simpa using markers)), ok_bind]
    exact leafLine_showing _ _ _ _ reaches noFence (by simp)
  case lazy =>
    intro some markers isParagraph continues
    rw [takeLine_of_noFence _ _ _ _ _ fun all => absurd all some, beq_false_of_ne some,
      openMarkers_of_none _ _ _ (next (by simpa using markers)), ok_bind, Bool.not_false,
      settle_unmatched _ _ _ reaches within]
    simp [isParagraph, continues]
  case unmatched =>
    intro some markers ends
    rw [takeLine_of_noFence _ _ _ _ _ fun all => absurd all some, beq_false_of_ne some,
      openMarkers_of_none _ _ _ (next (by simpa using markers)), ok_bind, Bool.not_false,
      settle_unmatched _ _ _ reaches within, ends]
    rfl

theorem step_showing (written : List Token) (containers : Containers) {leaf : OpenLeaf}
    (plain : leaf.PlainFence) (lead : Text)
    (reached : Position) (line : Line) :
    (showing written containers leaf lead reached).step line =
      .ok (after written (Tokenizer.lineEffect containers leaf line) line.endPosition) := by
  have start : (Cursor.start line.expanded).Reaches (.start line.expanded) := .refl _
  have found : matchFrom line.expanded 0 containers = _ := matchFrom_eq start containers
  have taken : cut line.expanded 0 (containers.matchLine line.expanded).cursor.offset =
      .ok ((containers.matchLine line.expanded).lead line.expanded) :=
    cut_reached start (containers.matchLine_reaches line.expanded)
  unfold step
  rw [showing_containers, found]
  exact (congrArg (· >>= _) taken).trans
    (takeLine_showing written containers plain line.endPosition line rfl)

end State

theorem plain_of_open? {rest : Text} {fence : Fence} (found : Fence.open? rest = some fence) :
    Text.Plain [fence.char] := by
  obtain ⟨char, _, _, isSign, _, same⟩ := Fence.open?_cases found
  rw [same]
  exact plain_of_isSign fun isOther => isSign.resolve_left isOther

theorem paragraphLine_plainFence (line : Line) (lead : Text) (c : Cursor)
    (containers : Containers) (leaf : OpenLeaf) (isLazy : Bool) :
    (Tokenizer.paragraphLine line lead c containers leaf isLazy).leaf.PlainFence := by
  cases leaf <;> trivial

theorem leafLine_plainFence (line : Line) (lead : Text) (c : Cursor) (containers : Containers)
    (leaf : OpenLeaf) (opened : Bool) (noFence : ∀ fence, leaf ≠ .fencedCode fence) :
    (Tokenizer.leafLine line lead c containers leaf opened).leaf.PlainFence := by
  refine Tokenizer.leafLine_cases (motive := fun effect => effect.leaf.PlainFence) line lead c
    containers leaf opened noFence ?held ?blank ?setext ?text ?moreCode ?newCode ?atxHeading
    ?thematicBreak ?fenceOpen
  case text =>
    intro _
    exact paragraphLine_plainFence line lead c containers leaf false
  case fenceOpen =>
    intro fence found
    exact plain_of_open? (LineClass.of_fenceOpen found)
  all_goals
    intros
    trivial

/-- A line opens no other fences, and keeps none but the one that was open. -/
theorem lineEffect_plainFence (containers : Containers) {leaf : OpenLeaf}
    (plain : leaf.PlainFence) (line : Line) :
    (Tokenizer.lineEffect containers leaf line).leaf.PlainFence := by
  refine Tokenizer.lineEffect_cases (motive := fun effect => effect.leaf.PlainFence) containers
    leaf line rfl ?fenced ?opened ?matched ?lazy ?unmatched
  case fenced =>
    intro fence isFence _
    subst isFence
    unfold Tokenizer.fencedLine
    split
    · trivial
    · exact plain
  case opened =>
    intro first later c _ _
    exact leafLine_plainFence line [] c _ .none true (by simp)
  case matched =>
    intro _ noFence _
    exact leafLine_plainFence line _ _ containers leaf false noFence
  case lazy =>
    intro _ _ _ _
    exact paragraphLine_plainFence line _ _ containers leaf true
  case unmatched =>
    intro _ _ _
    exact leafLine_plainFence line _ _ _ .none false (by simp)

namespace State

/-- Lines are read without a fault, and what is shown after them is what the other tokenizer has
written and holds open. -/
theorem foldlM_showing (written : List Token) (state : Tokenizer.State)
    (plain : state.leaf.PlainFence) (lines : List Line) :
    lines.foldlM step (showing written state.containers state.leaf [] state.reached) =
      .ok (showing (written ++ Tokenizer.writtenFrom state lines)
        (Tokenizer.stateAfter state lines).containers (Tokenizer.stateAfter state lines).leaf []
        (Tokenizer.stateAfter state lines).reached) := by
  induction lines generalizing written state with
  | nil =>
    rw [Tokenizer.writtenFrom, List.append_nil]
    rfl
  | cons line rest ih =>
    have next := lineEffect_plainFence state.containers plain line
    rw [List.foldlM_cons, step_showing _ _ plain, ok_bind]
    refine (ih _ (Tokenizer.step state line).2 next).trans ?_
    rw [List.append_assoc]
    rfl

theorem runFrom_eq_foldlM (state : State) (lines : List Line) :
    state.runFrom lines = lines.foldlM step state >>= finish := by
  induction lines generalizing state with
  | nil => rfl
  | cons line rest ih =>
    rw [runFrom, List.foldlM_cons, bind_assoc]
    exact congrArg (step state line >>= ·) (funext ih)

theorem runFrom_showing (written : List Token) (state : Tokenizer.State)
    (plain : state.leaf.PlainFence) (lines : List Line) :
    (showing written state.containers state.leaf [] state.reached).runFrom lines =
      .ok (written ++ Tokenizer.runFrom state lines) := by
  have ends (written : List Token) (last : Tokenizer.State) :=
    closeUnmatched_showing written [] last.reached last.leaf (Nat.zero_le last.containers.length)
      false last.reached
  rw [runFrom_eq_foldlM, foldlM_showing _ _ plain, ok_bind, finish]
  refine (congrArg (· >>= _) (ends _ (Tokenizer.stateAfter state lines))).trans ?_
  simp [showing, OpenLeaf.pending, Tokenizer.runFrom_eq, Tokenizer.finish]

end State

/-- Whatever the lines, the tokenizer that works in place meets no fault: it cuts lines between
characters only, each marker leads further in its line, and containers, lists, paragraphs and tokens
are there where it needs them. Its tokens are the tokens of the lines. -/
theorem run_eq_ok (lines : List Line) : run lines = .ok (Tokenizer.run lines) :=
  State.runFrom_showing [] .initial trivial lines

end Strict
end BlockLint
