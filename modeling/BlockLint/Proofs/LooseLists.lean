import BlockLint.Html
import BlockLint.Proofs.BlankLines
import BlockLint.Proofs.ItemMarkers
import BlockLint.Proofs.ListMaximality
import BlockLint.Proofs.TokenTrees

/-!
Loose lists. A list is rendered loose exactly if one of its own blank lines has something behind it
in the list. The blank line that stands for the rest of a marker's line does not count, and neither
does one that was recorded in a container inside the list, even where the next thing is a further
item of the list.
-/
namespace BlockLint

namespace TokenKind

def isNewItem : TokenKind → Bool
  | .newListItem _ _ => true
  | _ => false

theorem startsItem_of_isNewItem {kind : TokenKind} (isItem : kind.isNewItem = true) :
    kind.startsItem = true := by
  cases kind <;> first | rfl | cases isItem

end TokenKind

/-- A blank line behind these tokens of a list counts: no container is open inside the list, and the
last token is not the marker of an item. -/
structure CountsBlank (before : List Token) : Prop where
  own : Closed before
  notMarked : ∃ last, before.getLast? = some last ∧ last.kind.isNewItem = false

/-- A blank line counts among the tokens of a list. -/
def HasBlank (inside : List Token) : Prop :=
  ∃ before blank after, inside = before ++ blank :: after ∧ blank.kind = .blankLine ∧
    CountsBlank before

/-- A blank line counts, and something else than blank lines follows it in the list. -/
def SetsApart (inside : List Token) : Prop :=
  ∃ before blank after, inside = before ++ blank :: after ∧ blank.kind = .blankLine ∧
    CountsBlank before ∧ ∃ token ∈ after, token.kind ≠ .blankLine

def HidesBlanks (tokens : List Token) : Prop :=
  ∀ before blank after, tokens = before ++ blank :: after → blank.kind = .blankLine →
    ¬ Closed before

section
variable {inside written : List Token}

theorem Closed.of_append (closed : Closed inside) (all : Closed (inside ++ written)) :
    Closed written := by
  rw [Closed, depthFrom_append, show depthFrom 0 inside = some 0 from closed] at all
  exact all

theorem hasBlank_append_iff (closed : Closed inside) (hides : HidesBlanks written) :
    HasBlank (inside ++ written) ↔ HasBlank inside := by
  constructor
  · rintro ⟨before, blank, after, split, isBlank, counts⟩
    rcases Tokenizer.split_append split with ⟨back, found, _⟩ | ⟨front, rfl, found⟩
    · exact ⟨before, blank, back, found, isBlank, counts⟩
    · exact absurd (closed.of_append counts.own) (hides front blank after found isBlank)
  · rintro ⟨before, blank, after, rfl, isBlank, counts⟩
    exact ⟨before, blank, after ++ written, by simp, isBlank, counts⟩

/-- Whatever is no blank line tells that the list goes on behind the blank lines before it. -/
theorem setsApart_append_iff (closed : Closed inside) (hides : HidesBlanks written)
    (filled : ∃ token ∈ written, token.kind ≠ .blankLine) :
    SetsApart (inside ++ written) ↔ HasBlank inside := by
  constructor
  · rintro ⟨before, blank, after, split, isBlank, counts, _⟩
    exact (hasBlank_append_iff closed hides).mp ⟨before, blank, after, split, isBlank, counts⟩
  · rintro ⟨before, blank, after, rfl, isBlank, counts⟩
    obtain ⟨token, member, other⟩ := filled
    exact ⟨before, blank, after ++ written, by simp, isBlank, counts, token,
      List.mem_append_right _ member, other⟩

theorem setsApart_concat_blank {blank : Token} (isBlank : blank.kind = .blankLine) :
    SetsApart (inside ++ [blank]) ↔ SetsApart inside := by
  constructor
  · rintro ⟨before, found, after, split, foundBlank, counts, token, member, other⟩
    rcases Tokenizer.split_append split with ⟨back, isInside, rfl⟩ | ⟨front, _, isLast⟩
    · rcases List.mem_append.mp member with inBack | isLast
      · exact ⟨before, found, back, isInside, foundBlank, counts, token, inBack, other⟩
      · cases List.mem_singleton.mp isLast
        exact absurd isBlank other
    · cases front with
      | nil =>
        cases isLast
        cases member
      | cons _ front => simp at isLast
  · rintro ⟨before, found, after, rfl, foundBlank, counts, token, member, other⟩
    exact ⟨before, found, after ++ [blank], by simp, foundBlank, counts, token,
      List.mem_append_left _ member, other⟩

theorem hasBlank_concat_blank {blank : Token} (isBlank : blank.kind = .blankLine) :
    HasBlank (inside ++ [blank]) ↔ HasBlank inside ∨ CountsBlank inside := by
  constructor
  · rintro ⟨before, found, after, split, foundBlank, counts⟩
    rcases Tokenizer.split_append split with ⟨back, isInside, _⟩ | ⟨front, rfl, isLast⟩
    · exact .inl ⟨before, found, back, isInside, foundBlank, counts⟩
    · cases front with
      | nil =>
        rw [List.append_nil] at counts
        exact .inr counts
      | cons _ front => simp at isLast
  · rintro (⟨before, found, after, rfl, foundBlank, counts⟩ | counts)
    · exact ⟨before, found, after ++ [blank], by simp, foundBlank, counts⟩
    · exact ⟨inside, blank, [], rfl, isBlank, counts⟩

end

theorem hidesBlanks_of_not_mem {tokens : List Token}
    (none : ∀ token ∈ tokens, token.kind ≠ .blankLine) : HidesBlanks tokens := by
  rintro before blank after rfl isBlank
  exact absurd isBlank (none blank (by simp))

theorem hidesBlanks_container {opening closing : Token} {inside : List Token}
    {container : ContainerKind} {item : Option ItemGeometry} {natural : Bool}
    (opens : opening.kind = .containerStart container item) (closed : Closed inside)
    (closes : closing.kind = .containerEnd container natural) :
    HidesBlanks (opening :: inside ++ [closing]) := by
  intro before blank after whole isBlank own
  rw [List.cons_append] at whole
  cases before with
  | nil =>
    cases whole
    rw [opens] at isBlank
    cases isBlank
  | cons first before =>
    obtain ⟨isFirst, split⟩ := List.cons.inj whole
    rcases Tokenizer.split_append split with ⟨back, rfl, _⟩ | ⟨front, _, isLast⟩
    · rw [Closed, depthFrom_append] at closed
      obtain ⟨depth, reached, _⟩ := Option.bind_eq_some_iff.mp closed
      have deeper := depthFrom_succ reached
      rw [Closed, depthFrom, ← isFirst, opens] at own
      cases deeper.symm.trans own
    · cases front with
      | nil =>
        cases isLast
        rw [closes] at isBlank
        cases isBlank
      | cons _ front => simp at isLast

namespace Html

theorem itemIsTight_nil (isLast : Bool) : itemIsTight [] isLast = true := by
  cases isLast <;> rfl

def itemBody (item : List Block) : List Block :=
  if item.head?.any Block.isBlank then item.tail else item

theorem itemIsTight_eq (item : List Block) (isLast : Bool) :
    itemIsTight item isLast =
      (!((itemBody item).reverse.dropWhile Block.isBlank).any Block.isBlank &&
        (isLast || ((itemBody item).reverse.dropWhile Block.isBlank).length ==
          (itemBody item).length)) := by
  cases item with
  | nil => rfl
  | cons first rest => cases first <;> rfl

theorem itemBody_concat {item : List Block} {block : Block}
    (filled : item ≠ [] ∨ block.isBlank = false) :
    itemBody (item ++ [block]) = itemBody item ++ [block] := by
  cases item with
  | nil => simp [itemBody, filled.resolve_left (· rfl)]
  | cons first rest => cases isBlank : first.isBlank <;> simp [itemBody, isBlank]

theorem dropWhile_keeps (row : List Block) :
    (!(row.dropWhile Block.isBlank).any Block.isBlank &&
        (row.dropWhile Block.isBlank).length == row.length) = !row.any Block.isBlank := by
  cases row with
  | nil => rfl
  | cons first rest =>
    cases isBlank : first.isBlank with
    | false => simp [isBlank]
    | true =>
      have shorter := (List.dropWhile_suffix Block.isBlank (l := rest)).length_le
      have less : ((rest.dropWhile Block.isBlank).length == rest.length + 1) = false := by
        simp only [beq_eq_false_iff_ne]
        omega
      simp [isBlank, less]

/-- No blank line may stand in an item that another one follows. -/
theorem itemIsTight_false (item : List Block) :
    itemIsTight item false = !(itemBody item).any Block.isBlank := by
  have keeps := dropWhile_keeps (itemBody item).reverse
  rw [List.length_reverse, List.any_reverse] at keeps
  rw [itemIsTight_eq, Bool.false_or, keeps]

/-- A block behind an item's blank lines sets them apart as a further item does. -/
theorem itemIsTight_concat {block : Block} (notBlank : block.isBlank = false) (item : List Block)
    (isLast : Bool) : itemIsTight (item ++ [block]) isLast = itemIsTight item false := by
  rw [itemIsTight_false, itemIsTight_eq, itemBody_concat (.inr notBlank), List.reverse_concat,
    List.dropWhile_cons_of_neg (by simp [notBlank])]
  simp [notBlank]

theorem itemIsTight_concat_blank (item : List Block) :
    itemIsTight (item ++ [.blank]) true = itemIsTight item true := by
  cases item with
  | nil => rfl
  | cons first rest =>
    have filled : first :: rest ≠ [] := by simp
    rw [itemIsTight_eq, itemIsTight_eq, itemBody_concat (.inl filled), List.reverse_concat,
      List.dropWhile_cons_of_pos rfl]
    simp

/-- Only a blank line right behind the marker does not count. -/
theorem itemIsTight_blank_false (item : List Block) :
    itemIsTight (item ++ [.blank]) false = item.isEmpty := by
  cases item with
  | nil => rfl
  | cons first rest =>
    have filled : first :: rest ≠ [] := by simp
    rw [itemIsTight_false, itemBody_concat (.inl filled)]
    simp [Block.isBlank]

theorem isTight_concat (done : List (List Block)) (current : List Block) :
    isTight (done ++ [current]) =
      (done.all (itemIsTight · false) && itemIsTight current true) := by
  induction done with
  | nil => simp [isTight]
  | cons item rest ih =>
    have notLast : (rest ++ [current]).isEmpty = false := by simp
    rw [List.cons_append, isTight, notLast, ih, List.all_cons, Bool.and_assoc]

end Html

/-- What the tokens of an open list tell of its items: whether the list is loose, whether it will be
if it goes on, and whether its current item holds something. -/
structure TellsItems (done : List (List Block)) (current : List Block) (inside : List Token) :
    Prop where
  loose : (done.all (Html.itemIsTight · false) && Html.itemIsTight current true) = false ↔
    SetsApart inside
  looseIfMore : (done.all (Html.itemIsTight · false) && Html.itemIsTight current false) = false ↔
    HasBlank inside
  filled : CountsBlank inside ↔ current ≠ []

def OpenBlock.Told (inside : List Token) : OpenBlock → Prop
  | .quote _ => True
  | .list _ done current => TellsItems done current inside

namespace TellsItems

variable {done : List (List Block)} {current : List Block} {inside : List Token}

theorem start : TellsItems [] [] [] := by
  have noBlank : ¬ HasBlank [] := by
    rintro ⟨before, blank, after, split, _⟩
    simp at split
  constructor
  case loose =>
    refine ⟨fun loose => by simp [Html.itemIsTight_nil] at loose, ?_⟩
    rintro ⟨before, blank, after, split, isBlank, counts, _⟩
    exact absurd ⟨before, blank, after, split, isBlank, counts⟩ noBlank
  case looseIfMore =>
    exact ⟨fun loose => by simp [Html.itemIsTight_nil] at loose, fun found => absurd found noBlank⟩
  case filled =>
    refine ⟨?_, fun filled => absurd rfl filled⟩
    rintro ⟨_, last, isLast, _⟩
    cases isLast

theorem block (tells : TellsItems done current inside) {block : Block} {written : List Token}
    {last : Token} (notBlank : block.isBlank = false) (closed : Closed inside)
    (hides : HidesBlanks written) (all : Closed (inside ++ written))
    (isLast : written.getLast? = some last) (ends : last.isEnd = true) :
    TellsItems done (current ++ [block]) (inside ++ written) := by
  have other : last.kind ≠ .blankLine ∧ last.kind.isNewItem = false := by
    obtain ⟨kind, position, lead, literal⟩ := last
    cases kind with
    | containerEnd container natural => exact ⟨by simp, rfl⟩
    | leafEnd leaf natural => exact ⟨by simp, rfl⟩
    | _ => cases ends
  have member := List.mem_of_getLast? isLast
  constructor
  case loose =>
    rw [Html.itemIsTight_concat notBlank, setsApart_append_iff closed hides ⟨last, member, other.1⟩]
    exact tells.looseIfMore
  case looseIfMore =>
    rw [Html.itemIsTight_concat notBlank, hasBlank_append_iff closed hides]
    exact tells.looseIfMore
  case filled =>
    refine ⟨fun _ => by simp, fun _ => ⟨all, last, ?_, other.2⟩⟩
    rw [List.getLast?_append, isLast]
    rfl

theorem blank (tells : TellsItems done current inside) {token : Token}
    (isBlank : token.kind = .blankLine) (all : Closed (inside ++ [token])) :
    TellsItems done (current ++ [.blank]) (inside ++ [token]) := by
  constructor
  case loose =>
    rw [Html.itemIsTight_concat_blank, setsApart_concat_blank isBlank]
    exact tells.loose
  case looseIfMore =>
    rw [Html.itemIsTight_blank_false, hasBlank_concat_blank isBlank, ← tells.looseIfMore,
      tells.filled]
    cases current with
    | nil => simp [Html.itemIsTight_nil]
    | cons first rest => simp
  case filled =>
    refine ⟨fun _ => by simp, fun _ => ⟨all, token, List.getLast?_concat, ?_⟩⟩
    rw [isBlank]
    rfl

theorem item (tells : TellsItems done current inside) {token : Token}
    (isItem : token.kind.isNewItem = true) (closed : Closed inside) :
    TellsItems (done ++ [current]) [] (inside ++ [token]) := by
  have notBlank : token.kind ≠ .blankLine := by
    intro blank
    rw [blank] at isItem
    cases isItem
  have hides : HidesBlanks [token] :=
    hidesBlanks_of_not_mem (List.forall_mem_singleton.mpr notBlank)
  have items (isLast : Bool) : ((done ++ [current]).all (Html.itemIsTight · false) &&
      Html.itemIsTight [] isLast) =
      (done.all (Html.itemIsTight · false) && Html.itemIsTight current false) := by
    simp [Html.itemIsTight_nil]
  constructor
  case loose =>
    rw [items, setsApart_append_iff closed hides ⟨token, List.mem_singleton_self token, notBlank⟩]
    exact tells.looseIfMore
  case looseIfMore =>
    rw [items, hasBlank_append_iff closed hides]
    exact tells.looseIfMore
  case filled =>
    refine ⟨?_, fun filled => absurd rfl filled⟩
    rintro ⟨_, last, isLast, other⟩
    rw [List.getLast?_concat] at isLast
    cases isLast
    rw [isItem] at other
    cases other

end TellsItems

theorem Fills.told {container : OpenBlock} {tokens : List Token}
    (fills : Fills container tokens) : container.Told tokens := by
  induction fills with
  | start container =>
    cases container with
    | blockQuote => trivial
    | list kind => exact .start
  | @blank container tokens token fills isBlank ih =>
    have all := (Fills.blank fills isBlank).closed
    cases container with
    | quote children => trivial
    | list kind done current => exact TellsItems.blank ih isBlank all
  | @leaf container tokens contents opening closing opened kind lines natural fills starts tells
      ends ih =>
    have all := (Fills.leaf fills starts tells ends).closed
    have none : ∀ token ∈ opening :: contents ++ [closing], token.kind ≠ .blankLine := by
      intro token member blank
      have inLeaf := inLeaf_of_leaf starts tells ends token member
      rw [blank] at inLeaf
      cases inLeaf
    cases container with
    | quote children => trivial
    | list kind' done current =>
      exact TellsItems.block ih rfl fills.closed (hidesBlanks_of_not_mem none) all
        List.getLast?_concat (by simp [Token.isEnd, ends])
  | @item kind done current tokens token _ _ fills isItem ih =>
    exact TellsItems.item ih (by rw [isItem]; rfl) fills.closed
  | @container container inner tokens inside opening closing _ _ fills opens innerFills closes ih =>
    have all := (Fills.container fills opens innerFills closes).closed
    cases container with
    | quote children => trivial
    | list kind done current =>
      exact TellsItems.block ih inner.isBlank_close fills.closed
        (hidesBlanks_container opens innerFills.closed closes) all List.getLast?_concat
        (by simp [Token.isEnd, closes])

/-- The tokens of a list tell whether it is loose. -/
theorem ListSpan.Holds.isTight_iff {span : ListSpan} {list : ListKind × List (List Block)}
    (holds : span.Holds list) : Html.isTight list.2 = false ↔ SetsApart span.inside := by
  obtain ⟨done, current, same, fills⟩ := holds.fills
  have tells : TellsItems done current span.inside := fills.told
  rw [same, Html.isTight_concat]
  exact tells.loose

namespace Html

/-- The pieces of a block right inside an item. Paragraphs of a tight list stand without tags. -/
def childPieces (tight : Bool) : Block → List Piece
  | .leaf .paragraph lines =>
    let content := [Piece.text (Text.trimEnd (Text.join ['\n'] lines))]
    if tight then content else Piece.enclose .paragraph content
  | block => blockPieces false block

def listPieces (tight : Bool) (kind : ListKind) (items : List (List Block)) : List Piece :=
  Piece.enclose (listElement kind)
    (items.flatMap fun item => Piece.enclose .item (item.flatMap (childPieces tight)))

theorem blockPieces_eq (tight : Bool) (block : Block) :
    blockPieces tight block = childPieces tight block := by
  cases block with
  | leaf kind lines => cases kind <;> rfl
  | _ => rfl

theorem allPieces_eq (tight : Bool) (row : List Block) :
    allPieces tight row = row.flatMap (childPieces tight) := by
  induction row with
  | nil => rfl
  | cons block rest ih => rw [allPieces, blockPieces_eq, ih, List.flatMap_cons]

theorem itemPieces_eq (tight : Bool) (items : List (List Block)) :
    itemPieces tight items =
      items.flatMap fun item => Piece.enclose .item (item.flatMap (childPieces tight)) := by
  induction items with
  | nil => rfl
  | cons item rest ih => rw [itemPieces, allPieces_eq, ih, List.flatMap_cons]

theorem blockPieces_list (tight : Bool) (kind : ListKind) (items : List (List Block)) :
    blockPieces tight (.list kind items) = listPieces (isTight items) kind items := by
  rw [blockPieces, itemPieces_eq]
  rfl

theorem infix_enclose {pieces inside : List Piece} (element : Element)
    (found : pieces <:+: inside) : pieces <:+: Piece.enclose element inside := by
  exact found.trans ⟨[.opening element], [.closing element], rfl⟩

mutual

theorem lists_shown (tight : Bool) : (block : Block) → ∀ list ∈ block.lists,
    listPieces (isTight list.2) list.1 list.2 <:+: blockPieces tight block
  | .quote children => by
    intro list member
    exact infix_enclose .blockQuote (rowLists_shown false children list member)
  | .list kind items => by
    intro list member
    rcases List.mem_cons.mp member with rfl | inside
    · exact ⟨[], [], by simp [blockPieces_list]⟩
    · exact infix_enclose (listElement kind) (itemLists_shown (isTight items) items list inside)
  | .leaf kind lines => by
    intro list member
    cases member
  | .blank => by
    intro list member
    cases member

theorem rowLists_shown (tight : Bool) : (row : List Block) → ∀ list ∈ rowLists row,
    listPieces (isTight list.2) list.1 list.2 <:+: allPieces tight row
  | [] => by
    intro list member
    cases member
  | block :: rest => by
    intro list member
    rcases List.mem_append.mp member with inBlock | inRest
    · exact (lists_shown tight block list inBlock).trans (List.prefix_append _ _).isInfix
    · exact (rowLists_shown tight rest list inRest).trans (List.suffix_append _ _).isInfix

theorem itemLists_shown (tight : Bool) : (items : List (List Block)) → ∀ list ∈ itemLists items,
    listPieces (isTight list.2) list.1 list.2 <:+: itemPieces tight items
  | [] => by
    intro list member
    cases member
  | item :: rest => by
    intro list member
    rcases List.mem_append.mp member with inItem | inRest
    · exact (infix_enclose .item (rowLists_shown tight item list inItem)).trans
        (List.prefix_append _ _).isInfix
    · exact (itemLists_shown tight rest list inRest).trans (List.suffix_append _ _).isInfix

end

theorem write_infix {pieces all : List Piece} (found : pieces <:+: all) :
    write pieces <:+: write all := by
  obtain ⟨before, after, rfl⟩ := found
  exact ⟨write before, write after, by simp only [write, List.flatMap_append]⟩

end Html

theorem listSpans_split {tokens : List Token} {span : ListSpan} (member : span ∈ listSpans tokens) :
    ∃ before after, tokens = before ++ span.start :: (span.inside ++ after) := by
  induction tokens with
  | nil => cases member
  | cons token rest ih =>
    have later (inRest : span ∈ listSpans rest) :
        ∃ before after, token :: rest = before ++ span.start :: (span.inside ++ after) := by
      obtain ⟨before, after, rfl⟩ := ih inRest
      exact ⟨token :: before, after, rfl⟩
    unfold listSpans at member
    split at member
    · rcases List.mem_append.mp member with here | inRest
      · obtain ⟨extent, found, rfl⟩ := Option.map_eq_some_iff.mp (Option.mem_toList.mp here)
        exact ⟨[], extent.close :: extent.later, by rw [extent?_split found]; rfl⟩
      · exact later inRest
    · exact later member

def Source.IsWhite (source : Source) (number : Nat) : Prop :=
  ∃ line, source.line? number = some line ∧ ∀ c ∈ line.text, c = ' ' ∨ c = '\t'

theorem isBlank_of_white {line : Line} (white : ∀ c ∈ line.text, c = ' ' ∨ c = '\t') {c : Cursor}
    (reaches : (Cursor.start line.expanded).Reaches c) : c.isBlank = true := by
  obtain ⟨passed, _, same, _⟩ := reaches
  refine List.all_eq_true.mpr ?_
  intro found member
  have inLine : found ∈ line.expanded := by
    rw [show line.expanded = passed ++ c.rest from same]
    exact List.mem_append_right _ member
  rcases mem_expandTabs inLine with space | ⟨inText, notTab⟩
  · simpa using space
  · simpa using (white found inText).resolve_right notTab

/-- A blank line right behind the marker of an item is the rest of the marker's line. -/
theorem not_isWhite_of_marker {text : Text} {tabWidth : Nat} {before after : List Token}
    {marker blank : Token} (split : tokenize text tabWidth = before ++ marker :: blank :: after)
    (starts : marker.kind.startsItem = true) (isBlank : blank.kind = .blankLine) :
    ¬ (Source.ofText text tabWidth).IsWhite blank.position.line := by
  rintro ⟨white, found, onlyWhite⟩
  have nothingOpen : Tokenizer.State.initial.leaf.Coherent := trivial
  obtain ⟨earlier, line, later, front, back, lines, written, _, isAfter⟩ :=
    Tokenizer.exists_line_of_item nothingOpen split starts
  have coherent := Tokenizer.stateAfter_coherent .initial nothingOpen earlier
  obtain ⟨first, more, c, _, _, _, _, opening, last, read, _, _, _, opens, isBack, _, sameLeaf,
    isLast⟩ := Tokenizer.exists_item_of_written rfl coherent written starts
  have here : blank.position.line = line.number := by
    rw [isBack] at isAfter
    cases opening with
    | nil =>
      have heads := Tokenizer.runFrom_heads (Tokenizer.stateAfter .initial (earlier ++ [line]))
        later (Tokenizer.stateAfter_coherent .initial nothingOpen _)
      rw [Tokenizer.stateAfter_concat] at heads isAfter
      rw [show (Tokenizer.step _ line).2.leaf = last.leaf from sameLeaf, isLast] at heads
      obtain ⟨next, others, same, onLine, _⟩ := Tokenizer.leafLine_first line [] c _ true heads
      rw [List.nil_append, isLast, same] at isAfter
      rw [(List.cons.inj isAfter).1]
      exact onLine
    | cons other opening =>
      obtain ⟨container, item, kind⟩ := opens other List.mem_cons_self
      rw [(List.cons.inj isAfter).1, kind] at isBlank
      cases isBlank
  have isLine : line ∈ (Source.ofText text tabWidth).lines := by
    rw [lines]
    exact List.mem_append_right _ List.mem_cons_self
  rw [here, Source.line?_number isLine] at found
  rw [← Option.some.inj found] at onlyWhite
  have nothing := isBlank_of_white onlyWhite
    (Containers.matchLine_reaches (Tokenizer.stateAfter .initial earlier).containers line.expanded)
  rw [(Marker.foundAt_of_readAll read).1.filled] at nothing
  cases nothing

theorem setsApart_of_white {text : Text} {tabWidth : Nat} {span : ListSpan}
    (member : span ∈ listSpans (tokenize text tabWidth))
    (starts : span.start.kind.startsItem = true) {front after : List Token} {blank item : Token}
    (split : span.inside = front ++ blank :: item :: after) (own : Closed front)
    (isBlank : blank.kind = .blankLine) (isItem : item.kind.isNewItem = true)
    (white : (Source.ofText text tabWidth).IsWhite blank.position.line) :
    SetsApart span.inside := by
  obtain ⟨before, later, whole⟩ := listSpans_split member
  rw [split] at whole
  refine ⟨front, blank, item :: after, split, isBlank, ⟨own, ?_⟩, item, List.mem_cons_self, ?_⟩
  · -- Right behind a marker, the blank line would be the rest of the marker's line.
    rcases List.eq_nil_or_concat' front with rfl | ⟨front, last, rfl⟩
    · exact absurd white (not_isWhite_of_marker whole starts isBlank)
    · refine ⟨last, List.getLast?_concat, ?_⟩
      by_contra marked
      rw [Bool.not_eq_false] at marked
      have around : tokenize text tabWidth =
          (before ++ span.start :: front) ++ last :: blank :: (item :: after ++ later) := by
        rw [whole]
        simp
      exact not_isWhite_of_marker around (TokenKind.startsItem_of_isNewItem marked) isBlank white
  · intro blankItem
    rw [blankItem] at isItem
    cases isItem

/-- The lists of any document are those of its stream, one for one and in order. Each is rendered
loose exactly if its own tokens set something apart by a blank line. A line of spaces and tabs right
before one of its further items does so. -/
theorem lists_rendered (text : Text) (tabWidth : Nat) :
    ∃ document html, blocks (tokenize text tabWidth) = .ok document ∧
      Html.render (tokenize text tabWidth) = .ok html ∧
      List.Forall₂ (fun span list => span.Holds list ∧
          Html.write (Html.listPieces (Html.isTight list.2) list.1 list.2) <:+: html ∧
          (Html.isTight list.2 = false ↔ SetsApart span.inside) ∧
          ∀ front blank item after, span.inside = front ++ blank :: item :: after →
            Closed front → blank.kind = .blankLine → item.kind.isNewItem = true →
            (Source.ofText text tabWidth).IsWhite blank.position.line →
            Html.isTight list.2 = false)
        (listSpans (tokenize text tabWidth)) (rowLists document) := by
  obtain ⟨document, built, fills⟩ := exists_fills (tokenize_wellNested text tabWidth)
  refine ⟨document, Html.write (Html.allPieces false document), built, ?_, ?_⟩
  · rw [Html.render, built]
  · have each := fills.lists_hold
    refine List.forall₂_iff_get.mpr ⟨each.length_eq, ?_⟩
    intro index inSpans inLists
    have holds := each.get inSpans inLists
    have isSpan := List.get_mem (listSpans (tokenize text tabWidth)) ⟨index, inSpans⟩
    have isList := List.get_mem (rowLists document) ⟨index, inLists⟩
    obtain ⟨geometry, starts⟩ := holds.starts
    refine ⟨holds, Html.write_infix (Html.rowLists_shown false document _ isList),
      holds.isTight_iff, ?_⟩
    intro front blank item after split own isBlank isItem white
    exact holds.isTight_iff.mpr
      (setsApart_of_white isSpan (by rw [starts]; rfl) split own isBlank isItem white)

/-- The blank line between the items was recorded in the list inside the first one, so the outer
list is tight. -/
theorem inner_blank_passed_over :
    let text : Text := "- a\n  - b\n\n- c".toList
    let tokens := tokenize text 4
    let start : Token :=
      ⟨.containerStart (.list (.bulleted '-')) (some ⟨1, 3, false⟩), ⟨1, 1⟩, [], ['-', ' ']⟩
    let before := (tokens.drop 1).take 9
    let item : Token := ⟨.newListItem ⟨1, 3, false⟩ none, ⟨4, 1⟩, [], ['-', ' ']⟩
    let after := (tokens.drop 11).take 3
    let blank : Token := ⟨.blankLine, ⟨3, 1⟩, [], ['\n']⟩
    ⟨start, before ++ item :: after⟩ ∈ listSpans tokens ∧ Closed before ∧
      item.kind.isNewItem = true ∧ (shown before).getLast? = some blank ∧
      (Source.ofText text 4).IsWhite blank.position.line ∧
      Html.render tokens = .ok "<ul><li>a<ul><li>b</li></ul></li><li>c</li></ul>".toList := by
  intro text tokens start before item after blank
  have white : (Source.ofText text 4).IsWhite 3 :=
    ⟨⟨3, ⟨10, 11⟩, [], ['\n'], 4⟩, by decide +kernel, by simp⟩
  exact ⟨by decide +kernel, by decide +kernel, rfl, by decide +kernel, white, by decide +kernel⟩

end BlockLint
