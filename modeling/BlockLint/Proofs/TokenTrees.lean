import BlockLint.Proofs.BlockTree
import BlockLint.Proofs.OutermostLists
import Mathlib.Data.List.Forall2

/-!
The tokens of a tree. What stands between the start and the end of a container in a stream is told
by a grammar, block by block, and a replay of the stream builds the tree that the grammar tells. So
each list of a document has its place in the stream, and there are no other lists.
-/
namespace BlockLint

def Token.Tells (token : Token) (text : Text) : Prop :=
  ∃ isLazy, token.kind = .leafContent text isLazy

/-- The tokens that stand in an open container. The last constructor takes in a container that has
ended, with all that stands in it. -/
inductive Fills : OpenBlock → List Token → Prop where
  | start (container : ContainerKind) : Fills (.ofKind container) []
  | blank {container : OpenBlock} {tokens : List Token} {token : Token} :
      Fills container tokens → token.kind = .blankLine →
        Fills (container.add .blank) (tokens ++ [token])
  | leaf {container : OpenBlock} {tokens contents : List Token} {opening closing : Token}
      {opened kind : LeafKind} {lines : List Text} {natural : Bool} :
      Fills container tokens → opening.kind = .leafStart opened →
      List.Forall₂ Token.Tells contents lines → closing.kind = .leafEnd kind natural →
        Fills (container.add (.leaf kind lines)) (tokens ++ (opening :: contents ++ [closing]))
  | item {kind : ListKind} {done : List (List Block)} {current : List Block} {tokens : List Token}
      {token : Token} {item : ItemGeometry} {number : Option Nat} :
      Fills (.list kind done current) tokens → token.kind = .newListItem item number →
        Fills (.list kind (done ++ [current]) []) (tokens ++ [token])
  | container {container inner : OpenBlock} {tokens inside : List Token} {opening closing : Token}
      {item : Option ItemGeometry} {natural : Bool} :
      Fills container tokens → opening.kind = .containerStart inner.kind item →
      Fills inner inside → closing.kind = .containerEnd inner.kind natural →
        Fills (container.add inner.close) (tokens ++ (opening :: inside ++ [closing]))

/-- The tokens that stand in the document and in the containers which are open, outermost first. -/
inductive Stacked (root : List Block) : List OpenBlock → List Token → Prop where
  | root {tokens : List Token} : Fills (.quote root) tokens → Stacked root [] tokens
  | inside {innermost : OpenBlock} {outer : List OpenBlock} {before inside : List Token}
      {opening : Token} {item : Option ItemGeometry} :
      Stacked root outer before → opening.kind = .containerStart innermost.kind item →
      Fills innermost inside → Stacked root (innermost :: outer) (before ++ opening :: inside)

namespace Replay

inductive Built : Replay → List Token → Prop where
  | between {stack : List OpenBlock} {root : List Block} {tokens : List Token} :
      Stacked root stack tokens → Built ⟨stack, root, none⟩ tokens
  | inLeaf {stack : List OpenBlock} {root : List Block} {tokens contents : List Token}
      {opening : Token} {opened : LeafKind} {lines : List Text} :
      Stacked root stack tokens → opening.kind = .leafStart opened →
      List.Forall₂ Token.Tells contents lines →
        Built ⟨stack, root, some lines⟩ (tokens ++ opening :: contents)

theorem Built.stacked {replay : Replay} {tokens : List Token} (built : replay.Built tokens)
    (noLeaf : replay.lines = none) : Stacked replay.root replay.stack tokens := by
  cases built with
  | between stacked => exact stacked
  | inLeaf => cases noLeaf

theorem built_add {replay : Replay} {tokens written : List Token} {block : Block}
    (stacked : Stacked replay.root replay.stack tokens) (noLeaf : replay.lines = none)
    (fits : ∀ container filled, Fills container filled →
      Fills (container.add block) (filled ++ written)) :
    (add block replay).Built (tokens ++ written) := by
  obtain ⟨stack, root, lines⟩ := replay
  cases noLeaf
  cases stacked with
  | root fills => exact .between (.root (fits _ _ fills))
  | inside outer opens fills =>
    rw [List.append_assoc, List.cons_append]
    exact .between (.inside outer (by rw [OpenBlock.kind_add]; exact opens) (fits _ _ fills))

theorem step_built {replay : Replay} {nesting after : Nesting} {token : Token}
    {tokens : List Token} (shown : replay.Shows nesting)
    (fits : nesting.next token.kind = some after) (built : replay.Built tokens) :
    ∃ next, replay.step token = .ok next ∧ next.Shows after ∧ next.Built (tokens ++ [token]) := by
  refine step_cases shown fits ?containerStart ?newListItem ?containerEnd ?leafStart ?leafContent
    ?leafEnd ?blankLine
  case containerStart =>
    intro container item kind noLeaf
    have opens : token.kind = .containerStart (OpenBlock.ofKind container).kind item := by
      rw [OpenBlock.kind_ofKind, kind]
    have opened := Stacked.inside (built.stacked noLeaf) opens (.start container)
    obtain ⟨stack, root, lines⟩ := replay
    cases noLeaf
    exact .between opened
  case newListItem =>
    intro item number kind done current outer isItem stack noLeaf
    have stacked := built.stacked noLeaf
    obtain ⟨_, root, lines⟩ := replay
    cases noLeaf
    cases stack
    cases stacked with
    | inside outer opens fills =>
      rw [List.append_assoc, List.cons_append]
      exact .between (.inside outer opens (.item fills isItem))
  case containerEnd =>
    intro innermost outer natural ends stack noLeaf
    have stacked := built.stacked noLeaf
    obtain ⟨_, root, lines⟩ := replay
    cases noLeaf
    cases stack
    cases stacked with
    | inside outside opens fills =>
      rw [List.append_assoc]
      exact built_add outside rfl fun container filled isFilled =>
        .container isFilled opens fills ends
  case leafStart =>
    intro kind starts noLeaf
    have stacked := built.stacked noLeaf
    exact .inLeaf stacked starts .nil
  case leafContent =>
    intro text isLazy lines kind isOpen
    obtain ⟨stack, root, _⟩ := replay
    cases isOpen
    cases built with
    | inLeaf stacked starts contents =>
      rw [List.append_assoc, List.cons_append]
      exact .inLeaf stacked starts (List.rel_append contents (.cons ⟨isLazy, kind⟩ .nil))
  case leafEnd =>
    intro kind natural lines ends isOpen
    obtain ⟨stack, root, _⟩ := replay
    cases isOpen
    cases built with
    | inLeaf stacked starts contents =>
      rw [List.append_assoc]
      have noLeaf : (⟨stack, root, none⟩ : Replay).lines = none := rfl
      exact built_add stacked noLeaf fun container filled isFilled =>
        .leaf isFilled starts contents ends
  case blankLine =>
    intro blank noLeaf
    exact built_add (built.stacked noLeaf) noLeaf fun container filled isFilled =>
      .blank isFilled blank

theorem runFrom_built {replay : Replay} {nesting : Nesting} {tokens later : List Token}
    (shown : replay.Shows nesting) (nests : nesting.replay later = some .closed)
    (built : replay.Built tokens) :
    ∃ document, replay.runFrom later = .ok document ∧
      Fills (.quote document) (tokens ++ later) := by
  induction later generalizing replay nesting tokens with
  | nil =>
    cases Option.some.inj nests
    have noLeaf : replay.lines = none := by simpa [Nesting.closed] using shown.leaf
    have none := List.map_eq_nil_iff.mp shown.containers
    have stacked := built.stacked noLeaf
    rw [none] at stacked
    cases stacked with
    | root fills =>
      rw [List.append_nil]
      exact ⟨replay.root, by rw [runFrom, finish, none], fills⟩
  | cons token rest ih =>
    obtain ⟨after, fits, others⟩ := Option.bind_eq_some_iff.mp nests
    obtain ⟨next, taken, shows', builds⟩ := step_built shown fits built
    obtain ⟨document, replayed, fills⟩ := ih shows' others builds
    refine ⟨document, ?_, ?_⟩
    · rw [runFrom, taken]
      exact replayed
    · rw [List.append_assoc] at fills
      exact fills

end Replay

/-- A well nested stream is that of its document. -/
theorem exists_fills {tokens : List Token} (nests : WellNested tokens) :
    ∃ document, blocks tokens = .ok document ∧ Fills (.quote document) tokens :=
  Replay.runFrom_built ⟨rfl, rfl⟩ nests (.between (.root (.start .blockQuote)))

def depthFrom (depth : Nat) : List Token → Option Nat
  | [] => some depth
  | token :: rest => (token.kind.depthAfter depth).bind (depthFrom · rest)

theorem depthFrom_append (depth : Nat) (left right : List Token) :
    depthFrom depth (left ++ right) = (depthFrom depth left).bind (depthFrom · right) := by
  induction left generalizing depth with
  | nil => rfl
  | cons token rest ih =>
    rw [List.cons_append, depthFrom, depthFrom, Option.bind_assoc]
    exact congrArg _ (funext ih)

theorem TokenKind.depthAfter_succ {kind : TokenKind} {depth last : Nat}
    (stays : kind.depthAfter depth = some last) :
    kind.depthAfter (depth + 1) = some (last + 1) := by
  cases kind with
  | containerEnd container natural =>
    cases depth with
    | zero => cases stays
    | succ depth =>
      cases stays
      rfl
  | _ =>
    cases stays
    rfl

theorem depthFrom_succ {depth last : Nat} {tokens : List Token}
    (stays : depthFrom depth tokens = some last) :
    depthFrom (depth + 1) tokens = some (last + 1) := by
  induction tokens generalizing depth with
  | nil =>
    cases stays
    rfl
  | cons token rest ih =>
    obtain ⟨next, first, others⟩ := Option.bind_eq_some_iff.mp stays
    exact Option.bind_eq_some_iff.mpr ⟨next + 1, TokenKind.depthAfter_succ first, ih others⟩

namespace TokenKind

def isInLeaf : TokenKind → Bool
  | .leafStart _ | .leafContent _ _ | .leafEnd _ _ => true
  | _ => false

theorem depthAfter_of_isInLeaf {kind : TokenKind} (inLeaf : kind.isInLeaf = true) (depth : Nat) :
    kind.depthAfter depth = some depth := by
  cases kind <;> first | rfl | cases inLeaf

end TokenKind

theorem depthFrom_inLeaf {tokens : List Token}
    (inLeaf : ∀ token ∈ tokens, token.kind.isInLeaf = true) (depth : Nat) :
    depthFrom depth tokens = some depth := by
  induction tokens with
  | nil => rfl
  | cons token rest ih =>
    rw [depthFrom, TokenKind.depthAfter_of_isInLeaf (inLeaf token List.mem_cons_self)]
    exact ih fun other member => inLeaf other (List.mem_cons_of_mem _ member)

theorem Token.Tells.inLeaf {contents : List Token} {lines : List Text}
    (tells : List.Forall₂ Token.Tells contents lines) :
    ∀ token ∈ contents, token.kind.isInLeaf = true := by
  induction tells with
  | nil => simp
  | cons first _ ih =>
    intro token member
    rcases List.mem_cons.mp member with rfl | later
    · obtain ⟨isLazy, kind⟩ := first
      rw [kind]
      rfl
    · exact ih token later

theorem inLeaf_of_leaf {opening closing : Token} {contents : List Token} {opened kind : LeafKind}
    {lines : List Text} {natural : Bool} (starts : opening.kind = .leafStart opened)
    (tells : List.Forall₂ Token.Tells contents lines)
    (ends : closing.kind = .leafEnd kind natural) :
    ∀ token ∈ opening :: contents ++ [closing], token.kind.isInLeaf = true := by
  refine List.forall_mem_append.mpr ⟨List.forall_mem_cons.mpr ⟨?_, Token.Tells.inLeaf tells⟩,
    List.forall_mem_singleton.mpr ?_⟩
  · rw [starts]
    rfl
  · rw [ends]
    rfl

/-- Every container that is opened among the tokens is closed among them. -/
def Closed (tokens : List Token) : Prop :=
  depthFrom 0 tokens = some 0

instance (tokens : List Token) : Decidable (Closed tokens) :=
  inferInstanceAs (Decidable (_ = _))

theorem Closed.append {left right : List Token} (first : Closed left) (second : Closed right) :
    Closed (left ++ right) := by
  rw [Closed, depthFrom_append, show depthFrom 0 left = some 0 from first]
  exact second

theorem closed_singleton {token : Token} (stays : token.kind.depthAfter 0 = some 0) :
    Closed [token] := by
  rw [Closed, depthFrom, stays]
  rfl

theorem closed_container {opening closing : Token} {inside : List Token}
    {container : ContainerKind} {item : Option ItemGeometry} {natural : Bool}
    (opens : opening.kind = .containerStart container item) (closed : Closed inside)
    (closes : closing.kind = .containerEnd container natural) :
    Closed (opening :: inside ++ [closing]) := by
  have deeper := depthFrom_succ closed
  rw [Closed, List.cons_append, depthFrom, opens]
  change depthFrom 1 (inside ++ [closing]) = _
  rw [depthFrom_append, deeper]
  change depthFrom 1 [closing] = _
  rw [depthFrom, closes]
  rfl

theorem Fills.closed {container : OpenBlock} {tokens : List Token}
    (fills : Fills container tokens) : Closed tokens := by
  induction fills with
  | start container => rfl
  | blank _ kind ih => exact ih.append (closed_singleton (by rw [kind]; rfl))
  | leaf _ starts tells ends ih =>
    exact ih.append (depthFrom_inLeaf (inLeaf_of_leaf starts tells ends) 0)
  | item _ kind ih => exact ih.append (closed_singleton (by rw [kind]; rfl))
  | container _ opens _ closes ih inner => exact ih.append (closed_container opens inner closes)

theorem extent?_append {depth last : Nat} {inside : List Token}
    (stays : depthFrom depth inside = some last) (rest : List Token) :
    extent? depth (inside ++ rest) =
      (extent? last rest).map fun extent => { extent with inside := inside ++ extent.inside } := by
  induction inside generalizing depth with
  | nil =>
    cases stays
    simp
  | cons token inside ih =>
    obtain ⟨next, first, others⟩ := Option.bind_eq_some_iff.mp stays
    rw [List.cons_append, extent?_of_stays first, ih others, Option.map_map]
    rfl

/-- A list in a stream: its start, and what stands between that and its end. -/
structure ListSpan where
  start : Token
  inside : List Token
deriving Repr, DecidableEq

def listSpans : List Token → List ListSpan
  | [] => []
  | token :: rest =>
    if token.startsList then
      ((extent? 0 rest).map fun extent => ⟨token, extent.inside⟩).toList ++ listSpans rest
    else listSpans rest

theorem listSpans_noStart {tokens : List Token}
    (noStart : ∀ token ∈ tokens, token.startsList = false) (rest : List Token) :
    listSpans (tokens ++ rest) = listSpans rest := by
  induction tokens with
  | nil => rfl
  | cons token tokens ih =>
    rw [List.cons_append, listSpans, noStart token List.mem_cons_self, if_neg Bool.false_ne_true]
    exact ih fun other member => noStart other (List.mem_cons_of_mem _ member)

theorem listSpans_eq_nil {tokens : List Token}
    (noStart : ∀ token ∈ tokens, token.startsList = false) : listSpans tokens = [] := by
  have alone := listSpans_noStart noStart []
  rwa [List.append_nil] at alone

theorem noStart_of_kind {token : Token}
    (other : ∀ container item, token.kind ≠ .containerStart container item) :
    ∀ found ∈ [token], found.startsList = false := by
  intro found member
  cases List.mem_singleton.mp member
  unfold Token.startsList Token.opened?
  split
  · rename_i container item kind
    exact absurd kind (other container item)
  · rfl

theorem noStart_of_leaf {opening closing : Token} {contents : List Token} {opened kind : LeafKind}
    {lines : List Text} {natural : Bool} (starts : opening.kind = .leafStart opened)
    (tells : List.Forall₂ Token.Tells contents lines)
    (ends : closing.kind = .leafEnd kind natural) :
    ∀ token ∈ opening :: contents ++ [closing], token.startsList = false := by
  intro token member
  have inLeaf := inLeaf_of_leaf starts tells ends token member
  refine noStart_of_kind ?_ token (List.mem_singleton_self token)
  intro container item kind
  rw [kind] at inLeaf
  cases inLeaf

theorem listSpans_container {opening closing : Token} {inside : List Token}
    {container : ContainerKind} {item : Option ItemGeometry} {natural : Bool}
    (opens : opening.kind = .containerStart container item) (closed : Closed inside)
    (closes : closing.kind = .containerEnd container natural)
    (splits : ∀ rest, listSpans (inside ++ rest) = listSpans inside ++ listSpans rest)
    (rest : List Token) :
    listSpans (opening :: inside ++ [closing] ++ rest) =
      (if container.isList then [⟨opening, inside⟩] else []) ++ listSpans inside ++
        listSpans rest := by
  have found : extent? 0 (inside ++ closing :: rest) = some ⟨inside, closing, rest⟩ := by
    rw [extent?_append closed, extent?_of_ends (by rw [closes]; rfl)]
    simp
  have noStart : ∀ found ∈ [closing], found.startsList = false :=
    noStart_of_kind (by simp [closes])
  have inner : listSpans (inside ++ closing :: rest) = listSpans inside ++ listSpans rest := by
    rw [splits]
    exact congrArg _ (listSpans_noStart noStart rest)
  have starts : opening.startsList = container.isList := by
    simp [Token.startsList, Token.opened?, opens]
  rw [List.append_assoc, List.cons_append, List.singleton_append, listSpans, starts, found, inner]
  cases container.isList <;> rfl

theorem listSpans_append_noStart {tokens chunk : List Token}
    (splits : ∀ rest, listSpans (tokens ++ rest) = listSpans tokens ++ listSpans rest)
    (noStart : ∀ token ∈ chunk, token.startsList = false) (rest : List Token) :
    listSpans (tokens ++ chunk ++ rest) = listSpans (tokens ++ chunk) ++ listSpans rest := by
  rw [List.append_assoc, splits, splits, listSpans_noStart noStart, listSpans_eq_nil noStart,
    List.append_nil]

theorem Fills.listSpans_append {container : OpenBlock} {tokens : List Token}
    (fills : Fills container tokens) (rest : List Token) :
    listSpans (tokens ++ rest) = listSpans tokens ++ listSpans rest := by
  induction fills generalizing rest with
  | start container => rfl
  | blank _ kind ih => exact listSpans_append_noStart ih (noStart_of_kind (by simp [kind])) rest
  | leaf _ starts tells ends ih =>
    exact listSpans_append_noStart ih (noStart_of_leaf starts tells ends) rest
  | item _ kind ih => exact listSpans_append_noStart ih (noStart_of_kind (by simp [kind])) rest
  | container _ opens inner closes ih inside =>
    have chunk := listSpans_container opens inner.closed closes inside
    have alone := chunk []
    rw [List.append_nil] at alone
    rw [List.append_assoc, ih, ih, chunk, alone]
    simp only [listSpans, List.append_nil, List.append_assoc]

mutual

def Block.lists : Block → List (ListKind × List (List Block))
  | .quote children => rowLists children
  | .list kind items => (kind, items) :: itemLists items
  | .leaf _ _ | .blank => []

def rowLists : List Block → List (ListKind × List (List Block))
  | [] => []
  | block :: rest => block.lists ++ rowLists rest

def itemLists : List (List Block) → List (ListKind × List (List Block))
  | [] => []
  | item :: rest => rowLists item ++ itemLists rest

end

theorem rowLists_append (left right : List Block) :
    rowLists (left ++ right) = rowLists left ++ rowLists right := by
  induction left with
  | nil => rfl
  | cons block rest ih => rw [List.cons_append, rowLists, rowLists, ih, List.append_assoc]

theorem itemLists_append (left right : List (List Block)) :
    itemLists (left ++ right) = itemLists left ++ itemLists right := by
  induction left with
  | nil => rfl
  | cons item rest ih => rw [List.cons_append, itemLists, itemLists, ih, List.append_assoc]

namespace OpenBlock

def lists : OpenBlock → List (ListKind × List (List Block))
  | .quote children => rowLists children
  | .list _ done current => itemLists (done ++ [current])

theorem lists_add (block : Block) (container : OpenBlock) :
    (container.add block).lists = container.lists ++ block.lists := by
  cases container with
  | quote children => simp only [add, lists, rowLists_append, rowLists, List.append_nil]
  | list kind done current =>
    simp only [add, lists, itemLists_append, itemLists, rowLists_append, rowLists, List.append_nil,
      List.append_assoc]

end OpenBlock

/-- The list of the document whose tokens stand in the span. -/
structure ListSpan.Holds (span : ListSpan) (list : ListKind × List (List Block)) : Prop where
  starts : ∃ item, span.start.kind = .containerStart (.list list.1) item
  fills : ∃ done current, list.2 = done ++ [current] ∧ Fills (.list list.1 done current) span.inside

/-- The lists in a container and in its tokens are the same, in one order. -/
theorem Fills.lists_hold {container : OpenBlock} {tokens : List Token}
    (fills : Fills container tokens) :
    List.Forall₂ ListSpan.Holds (listSpans tokens) container.lists := by
  induction fills with
  | start container => cases container <;> exact .nil
  | blank fills kind ih =>
    rw [fills.listSpans_append, OpenBlock.lists_add,
      listSpans_eq_nil (noStart_of_kind (by simp [kind]))]
    exact List.rel_append ih .nil
  | leaf fills starts tells ends ih =>
    rw [fills.listSpans_append, OpenBlock.lists_add,
      listSpans_eq_nil (noStart_of_leaf starts tells ends)]
    exact List.rel_append ih .nil
  | @item kind done current _ _ _ _ fills isItem ih =>
    have same : (OpenBlock.list kind (done ++ [current]) []).lists =
        (OpenBlock.list kind done current).lists := by
      simp only [OpenBlock.lists, itemLists_append, itemLists, rowLists, List.append_nil]
    rw [fills.listSpans_append, same, listSpans_eq_nil (noStart_of_kind (by simp [isItem])),
      List.append_nil]
    exact ih
  | @container container inner tokens inside opening closing item _ fills opens innerFills closes
      ih innerHolds =>
    have chunk := listSpans_container opens innerFills.closed closes innerFills.listSpans_append []
    rw [List.append_nil] at chunk
    rw [fills.listSpans_append, OpenBlock.lists_add, chunk]
    refine List.rel_append ih ?_
    simp only [listSpans, List.append_nil]
    cases inner with
    | quote children => exact innerHolds
    | list kind done current =>
      exact .cons ⟨⟨item, opens⟩, done, current, rfl, innerFills⟩ innerHolds

end BlockLint
