import BlockLint.Proofs.Growth
import BlockLint.Proofs.UnseparatedLists
import Mathlib.Data.List.Induction

/-!
The line on which the end of a list is reported. Every line of a document leaves a token on it that
ends no block, with one exception: a closing fence and a setext underline are the end of their leaf
and nothing else. The rule follows the tokens that end no block, so it takes the line above such a
line for the last of the list, and it is right about all others.
-/
namespace BlockLint

/-- The end of a leaf that has a line of its own: a closing fence or a setext underline. -/
def Token.takesLine (token : Token) : Bool :=
  token.isEnd && !token.sourceText.isEmpty

def isClosingLine (tokens : List Token) (number : Nat) : Bool :=
  tokens.any fun token => token.takesLine && token.position.line == number

def lastLine (tokens : List Token) : Nat :=
  (tokens.getLast?.map (·.position.line)).getD 0

theorem lastLine_concat (tokens : List Token) (token : Token) :
    lastLine (tokens ++ [token]) = token.position.line := by
  simp [lastLine]

theorem lastLine_congr (before : List Token) {left right : List Token}
    (same : left.map (·.position) = right.map (·.position)) :
    lastLine (before ++ left) = lastLine (before ++ right) := by
  have lines (tokens : List Token) :
      lastLine tokens = ((tokens.map (·.position)).getLast?.map (·.line)).getD 0 := by
    rw [lastLine, List.getLast?_map, Option.map_map]
    rfl
  rw [lines, lines, List.map_append, List.map_append, same]

theorem TokenKind.isMarkerOrText_eq (token : Token) :
    token.kind.isMarkerOrText = (!token.isEnd && token.kind != .blankLine) := by
  obtain ⟨kind, position, lead, literal⟩ := token
  cases kind <;> rfl

/-- Where no blank line comes last, the last token that ends no block is a marker or a text. -/
theorem lastFilledLine_eq {before : List Token}
    (filled : (nearest? before).any (·.kind == .blankLine) = false) :
    lastFilledLine before = lastLine (shown before) := by
  induction before using List.reverseRecOn with
  | nil => rfl
  | append_singleton before token ih =>
    rw [nearest?_concat] at filled
    rw [lastFilledLine_concat, TokenKind.isMarkerOrText_eq, shown_append]
    cases isEnd : token.isEnd with
    | true =>
      rw [isEnd, if_pos rfl] at filled
      simpa [shown, isEnd] using ih filled
    | false =>
      rw [isEnd] at filled
      have notBlank : (token.kind != .blankLine) = true := by
        simpa using filled
      have single : shown [token] = [token] := by simp [shown, isEnd]
      rw [single, lastLine_concat, notBlank]
      rfl

theorem Token.takesLine_of_not_isEnd {token : Token} (shows : token.isEnd = false) :
    token.takesLine = false := by
  rw [takesLine, shows, Bool.false_and]

@[simp] theorem endToken_takesLine (kind : TokenKind) (position : Position) :
    (endToken kind position).takesLine = false := by
  simp [Token.takesLine, endToken, Token.sourceText]

def NoneTakesLine (tokens : List Token) : Prop :=
  ∀ token ∈ tokens, token.takesLine = false

theorem NoneTakesLine.nil : NoneTakesLine [] := by
  simp [NoneTakesLine]

theorem NoneTakesLine.cons {token : Token} {rest : List Token} (first : token.takesLine = false)
    (others : NoneTakesLine rest) : NoneTakesLine (token :: rest) :=
  List.forall_mem_cons.mpr ⟨first, others⟩

theorem NoneTakesLine.append {left right : List Token} (first : NoneTakesLine left)
    (second : NoneTakesLine right) : NoneTakesLine (left ++ right) := by
  intro token member
  rcases List.mem_append.mp member with before | after
  · exact first token before
  · exact second token after

theorem OpenLeaf.close_noneTakesLine {leaf : OpenLeaf} (coherent : leaf.Coherent) (natural : Bool)
    (position : Position) : NoneTakesLine (leaf.close natural position) := by
  intro token member
  have kept (isKept : token ∈ leaf.kept) : token.takesLine = false :=
    Token.takesLine_of_not_isEnd (kept_not_end coherent token isKept)
  cases leaf with
  | none => cases member
  | paragraph opening contents =>
    rcases List.mem_append.mp member with isKept | isEnd
    · exact kept isKept
    · cases List.mem_singleton.mp isEnd
      exact endToken_takesLine _ _
  | indentedCode held =>
    rcases List.mem_cons.mp member with rfl | isKept
    · exact endToken_takesLine _ _
    · exact kept isKept
  | fencedCode fence =>
    cases List.mem_singleton.mp member
    exact endToken_takesLine _ _

theorem Containers.close_noneTakesLine (containers : Containers) (natural : Bool)
    (position : Position) : NoneTakesLine (containers.close natural position) := by
  intro token member
  obtain ⟨frame, _, rfl⟩ := List.mem_map.mp member
  exact endToken_takesLine _ _

theorem NoneTakesLine.of_isStart {token : Token} (starts : token.kind.isStart = true) :
    NoneTakesLine [token] := by
  intro other member
  cases List.mem_singleton.mp member
  exact Token.takesLine_of_not_isEnd (Token.not_isEnd_of_isStart starts)

namespace Tokenizer

/-- What a line leaves last. Either that is a token of its own, or the line is the end of the leaf
that was open, and no leaf is open after it. -/
inductive Effect.Leaves (leaf : OpenLeaf) (number : Nat) (effect : Effect) : Prop where
  | shows (seen : List Token) (last : Token)
      (all : shown effect.written ++ effect.leaf.kept = seen ++ [last])
      (here : last.position.line = number) (none : NoneTakesLine effect.written)
  | closes (wasOpen : leaf ≠ .none) (closed : effect.leaf = .none)
      (places : (shown effect.written).map (·.position) = leaf.kept.map (·.position))
      (front : List Token) (last : Token) (all : effect.written = front ++ [last])
      (none : NoneTakesLine front) (taken : last.takesLine = true)
      (here : last.position.line = number)

theorem Effect.Leaves.of_close {leaf : OpenLeaf} (coherent : leaf.Coherent) {natural : Bool}
    {position : Position} {effect : Effect} {number : Nat} {tokens seen : List Token}
    {last : Token} (written : effect.written = leaf.close natural position ++ tokens)
    (all : shown tokens ++ effect.leaf.kept = seen ++ [last])
    (here : last.position.line = number) (none : NoneTakesLine tokens) :
    effect.Leaves leaf number := by
  refine .shows (leaf.kept ++ seen) last ?_ here ?_
  · rw [written, shown_append, OpenLeaf.shown_close coherent, List.append_assoc, all,
      List.append_assoc]
  · rw [written]
    exact (OpenLeaf.close_noneTakesLine coherent _ _).append none

theorem Effect.Leaves.behind {leaf : OpenLeaf} {number : Nat} {effect : Effect}
    (leaves : effect.Leaves .none number) {before : List Token} (none : NoneTakesLine before) :
    ({ effect with written := before ++ effect.written } : Effect).Leaves leaf number := by
  cases leaves with
  | shows seen last all here free =>
    refine .shows (shown before ++ seen) last ?_ here (none.append free)
    rw [shown_append, List.append_assoc, all, List.append_assoc]
  | closes wasOpen => exact absurd rfl wasOpen

theorem paragraphLine_leaves (line : Line) (lead : Text) (c : Cursor) (containers : Containers)
    (leaf : OpenLeaf) (isLazy : Bool) (coherent : leaf.Coherent) :
    (paragraphLine line lead c containers leaf isLazy).Leaves leaf line.number := by
  have started (effect : Effect)
      (written : effect.written = leaf.close true (line.position c.offset))
      (opens : effect.leaf = .paragraph
        (tokenAt line (c.offset + c.indent) (.leafStart .paragraph) lead [])
        [tokenAt line (c.offset + c.indent) (.leafContent (paragraphText c.rest) isLazy) []
          (literalFrom line c)]) : effect.Leaves leaf line.number := by
    have all : shown [] ++ effect.leaf.kept =
        [tokenAt line (c.offset + c.indent) (.leafStart .paragraph) lead []] ++
          [tokenAt line (c.offset + c.indent) (.leafContent (paragraphText c.rest) isLazy) []
            (literalFrom line c)] := by
      rw [opens]
      rfl
    exact .of_close coherent (written.trans (List.append_nil _).symm) all rfl .nil
  cases leaf with
  | paragraph opening contents =>
    exact .shows (opening :: contents) _ rfl rfl .nil
  | none => exact started _ rfl rfl
  | indentedCode held => exact started _ rfl rfl
  | fencedCode fence => exact started _ rfl rfl

theorem codeLine_noneTakesLine (line : Line) (lead : Text) (c : Cursor) (held : List HeldBlank) :
    NoneTakesLine (codeLine line lead c held) := by
  refine .append ?_ (.cons rfl .nil)
  intro token member
  obtain ⟨blank, _, rfl⟩ := List.mem_map.mp member
  rfl

theorem takesLine_of_literal {line : Line} {offset : Nat} {leaf : LeafKind} {natural : Bool}
    {lead : Text} {c : Cursor} (filled : c.rest ≠ []) :
    (tokenAt line offset (.leafEnd leaf natural) lead (literalFrom line c)).takesLine = true := by
  simp [Token.takesLine, Token.isEnd, tokenAt, Token.sourceText, literalFrom, filled]

theorem leafLine_leaves (line : Line) (lead : Text) (c : Cursor) (containers : Containers)
    (leaf : OpenLeaf) (opened : Bool) (coherent : leaf.Coherent)
    (noFence : ∀ fence, leaf ≠ .fencedCode fence) :
    (leafLine line lead c containers leaf opened).Leaves leaf line.number := by
  refine leafLine_cases (motive := fun effect => effect.Leaves leaf line.number) line lead c
    containers leaf opened noFence ?held ?blank ?setext ?text ?moreCode ?newCode ?atxHeading
    ?thematicBreak ?fenceOpen
  case held =>
    intro held isCode _
    have all : shown [] ++ OpenLeaf.kept (.indentedCode
        (held ++ [⟨tokenAt line c.offset .blankLine lead (literalFrom line c), c.rest⟩])) =
        held.map (·.token) ++ [tokenAt line c.offset .blankLine lead (literalFrom line c)] := by
      simp [OpenLeaf.kept, shown]
    exact .shows _ _ all rfl .nil
  case blank =>
    intro _ _
    exact .of_close coherent rfl (List.nil_append _).symm rfl (.cons rfl .nil)
  case setext =>
    intro level opening contents isParagraph found
    subst isParagraph
    have contentsShown : shown contents = contents := List.filter_eq_self.mpr fun token member => by
      simp [OpenLeaf.kept_not_end coherent token (List.mem_cons_of_mem _ member)]
    have filled : LineClass.of c.rest true ≠ .blank := by simp [found]
    refine .closes (by simp) rfl ?_ _ _ rfl (.cons rfl fun token member => ?_)
      (takesLine_of_literal (LineClass.rest_ne_nil filled)) rfl
    · have headed : shown ({ opening with kind := .leafStart (.setextHeading level) } :: contents ++
          [tokenAt line (c.offset + c.indent) (.leafEnd (.setextHeading level) true) lead
            (literalFrom line c)]) =
          { opening with kind := .leafStart (.setextHeading level) } :: shown contents :=
        (shown_append _ _).trans (List.append_nil _)
      rw [headed, contentsShown]
      rfl
    · exact Token.takesLine_of_not_isEnd
        (OpenLeaf.kept_not_end coherent token (List.mem_cons_of_mem _ member))
  case text =>
    intro _
    exact paragraphLine_leaves line lead c containers leaf false coherent
  case moreCode =>
    intro held isCode _
    have all : shown (codeLine line lead c held) ++ OpenLeaf.kept (.indentedCode []) =
        shown (codeLine line lead c held).dropLast ++
          [tokenAt line (c.offset + codeIndent) (.leafContent (c.rest.drop codeIndent) false) lead
            (literalFrom line c)] := by
      simp [codeLine, OpenLeaf.kept, shown, Token.isEnd, tokenAt]
    exact .shows _ _ all rfl (codeLine_noneTakesLine line lead c held)
  case newCode =>
    intro _ _
    exact .shows [_] _ rfl rfl (.cons rfl (codeLine_noneTakesLine line [] c []))
  case atxHeading =>
    intro heading _
    exact .of_close coherent rfl (List.singleton_append (l := [_])).symm rfl
      (.cons rfl (.cons rfl (.cons (endToken_takesLine _ _) .nil)))
  case thematicBreak =>
    intro _
    exact .of_close coherent rfl (List.nil_append _).symm rfl
      (.cons rfl (.cons (endToken_takesLine _ _) .nil))
  case fenceOpen =>
    intro fence _
    exact .of_close coherent rfl (List.nil_append _).symm rfl (.cons rfl .nil)

theorem openAll_noneTakesLine (line : Line) (containers : Containers) (markers : List Marker) :
    NoneTakesLine (openAll line containers markers).1 := by
  induction markers generalizing containers with
  | nil => exact .nil
  | cons marker rest ih =>
    exact (NoneTakesLine.of_isStart (openContainer_starts line [] containers marker).1).append
      (ih _)

theorem openFirst_noneTakesLine (line : Line) (lead : Text) (containers : Containers)
    {leaf : OpenLeaf} (depth : Nat) (marker : Marker) (coherent : leaf.Coherent) :
    NoneTakesLine (openFirst line lead containers leaf depth marker).1 := by
  refine openFirst_tokens (p := NoneTakesLine) (fun _ _ => .append) line lead containers leaf depth
    marker (OpenLeaf.close_noneTakesLine coherent) Containers.close_noneTakesLine ?_ ?_
  · intro outer
    exact .of_isStart (openContainer_starts line lead outer marker).1
  · intro start item _
    exact .of_isStart rfl

theorem lineEffect_leaves (containers : Containers) (leaf : OpenLeaf) (line : Line)
    (coherent : leaf.Coherent) :
    (lineEffect containers leaf line).Leaves leaf line.number := by
  refine lineEffect_cases (motive := fun effect => effect.Leaves leaf line.number) containers leaf
    line rfl ?fenced ?opened ?matched ?lazy ?unmatched
  case fenced =>
    intro fence isFence _
    subst isFence
    unfold fencedLine
    split
    · rename_i closes
      exact .closes (by simp) rfl rfl [] _ rfl .nil
        (takesLine_of_literal (Fence.rest_ne_nil_of_closes coherent closes)) rfl
    · exact .shows [] _ rfl rfl (.cons rfl .nil)
  case opened =>
    intro first later c _ _
    exact (leafLine_leaves line [] c _ .none true trivial (by simp)).behind
      ((openFirst_noneTakesLine line _ containers _ first coherent).append
        (openAll_noneTakesLine line _ later))
  case matched =>
    intro _ noFence _
    exact leafLine_leaves line _ _ containers leaf false coherent noFence
  case lazy =>
    intro _ _ _ _
    exact paragraphLine_leaves line _ _ containers leaf true coherent
  case unmatched =>
    intro _ _ _
    exact (leafLine_leaves line _ _ _ .none false trivial (by simp)).behind
      ((OpenLeaf.close_noneTakesLine coherent _ _).append (Containers.close_noneTakesLine _ _ _))

theorem Effect.Leaves.taken {leaf : OpenLeaf} {number : Nat} {effect : Effect}
    (leaves : effect.Leaves leaf number) :
    ∀ token ∈ effect.written, token.takesLine = true → token.position.line = number := by
  intro token member takes
  cases leaves with
  | shows seen last all here none =>
    rw [none token member] at takes
    cases takes
  | closes wasOpen closed places front last all none taken here =>
    rw [all] at member
    rcases List.mem_append.mp member with before | isLast
    · rw [none token before] at takes
      cases takes
    · cases List.mem_singleton.mp isLast
      exact here

/-- After a line: the last token that ends no block is on the line, or above it if the line is a
closing one, and then no leaf is open. `prior` is all that is written. -/
structure LastSeen (prior : List Token) (leaf : OpenLeaf) (number : Nat) : Prop where
  last : lastLine (shown prior ++ leaf.kept) + (isClosingLine prior number).toNat = number
  none : leaf ≠ .none → isClosingLine prior number = false
  upTo : ∀ token ∈ prior, token.takesLine = true → token.position.line ≤ number

theorem isClosingLine_eq_false {tokens : List Token} {number : Nat}
    (other : ∀ token ∈ tokens, token.takesLine = true → token.position.line ≠ number) :
    isClosingLine tokens number = false := by
  refine List.any_eq_false.mpr ?_
  intro token member both
  obtain ⟨takes, here⟩ := Bool.and_eq_true_iff.mp both
  exact other token member takes (by simpa using here)

theorem LastSeen.step {prior : List Token} {leaf : OpenLeaf} {number : Nat} {effect : Effect}
    (seen : LastSeen prior leaf number) (leaves : effect.Leaves leaf (number + 1)) :
    LastSeen (prior ++ effect.written) effect.leaf (number + 1) := by
  have upTo : ∀ token ∈ prior ++ effect.written, token.takesLine = true →
      token.position.line ≤ number + 1 := by
    intro token member takes
    rcases List.mem_append.mp member with before | isWritten
    · exact Nat.le_succ_of_le (seen.upTo token before takes)
    · exact Nat.le_of_eq (leaves.taken token isWritten takes)
  cases leaves with
  | shows tokens last all here none =>
    have notClosing : isClosingLine (prior ++ effect.written) (number + 1) = false := by
      refine isClosingLine_eq_false ?_
      intro token member takes
      rcases List.mem_append.mp member with before | isWritten
      · have above := seen.upTo token before takes
        omega
      · rw [none token isWritten] at takes
        cases takes
    refine ⟨?_, fun _ => notClosing, upTo⟩
    rw [shown_append, List.append_assoc, all, ← List.append_assoc, lastLine_concat, here, notClosing]
    rfl
  | closes wasOpen closed places front last all none taken here =>
    have closing : isClosingLine (prior ++ effect.written) (number + 1) = true := by
      refine List.any_eq_true.mpr ⟨last, ?_, ?_⟩
      · rw [all]
        simp
      · simp [taken, here]
    have before := seen.last
    rw [seen.none wasOpen] at before
    refine ⟨?_, fun isOpen => absurd closed isOpen, upTo⟩
    rw [closing, closed, shown_append, List.append_assoc]
    have same : (shown effect.written ++ OpenLeaf.kept .none).map (·.position) =
        leaf.kept.map (·.position) := by
      rw [← places]
      exact congrArg _ (List.append_nil _)
    rw [lastLine_congr _ same]
    exact congrArg (· + 1) before

theorem lastSeen_after {lines : List Line}
    (numbers : lines.map Line.number = List.range' 1 lines.length) :
    LastSeen (writtenFrom .initial lines) (stateAfter .initial lines).leaf lines.length := by
  induction lines using List.reverseRecOn with
  | nil => exact ⟨rfl, fun isOpen => absurd rfl isOpen, by simp [writtenFrom]⟩
  | append_singleton lines line ih =>
    rw [List.map_append, List.length_append, List.length_singleton, List.range'_concat] at numbers
    obtain ⟨earlier, own⟩ := List.append_inj numbers (by simp)
    have number : line.number = lines.length + 1 := by
      rw [List.singleton_inj.mp own]
      omega
    have leaves := lineEffect_leaves (stateAfter .initial lines).containers
      (stateAfter .initial lines).leaf line (stateAfter_coherent .initial trivial lines)
    rw [number] at leaves
    rw [writtenFrom_concat, stateAfter_concat, List.length_append, List.length_singleton]
    exact (ih earlier).step leaves

theorem exists_line_of_takesLine (state : State) (lines : List Line)
    (coherent : state.leaf.Coherent) :
    ∀ token ∈ runFrom state lines, token.takesLine = true →
      ∃ line ∈ lines, token.position.line = line.number := by
  intro token member takes
  induction lines generalizing state with
  | nil =>
    have none := ((OpenLeaf.close_noneTakesLine coherent false state.reached).append
      (Containers.close_noneTakesLine state.containers false state.reached)) token member
    rw [none] at takes
    cases takes
  | cons line rest ih =>
    rcases List.mem_append.mp member with isWritten | later
    · exact ⟨line, List.mem_cons_self,
        (lineEffect_leaves state.containers state.leaf line coherent).taken token isWritten takes⟩
    · obtain ⟨found, isLater, here⟩ := ih (step state line).2
        (lineEffect_nests state.containers state.leaf line coherent).coherent later
      exact ⟨found, List.mem_cons_of_mem _ isLater, here⟩

/-- The ends of containers that a line writes: what was kept back stands before them, then only such
ends, and none after them. -/
def Effect.EndsFirst (leaf : OpenLeaf) (number : Nat) (effect : Effect) : Prop :=
  (∀ token ∈ effect.written, token.closed? = none) ∨
    ∃ natural position ends rest,
      effect.written = leaf.close natural position ++ (ends ++ rest) ∧
      (∀ ended ∈ ends, ended.isEnd = true ∧ ended.position.line = number) ∧
      ∀ token ∈ rest, token.closed? = none

theorem close_ends (containers : Containers) (natural : Bool) (line : Line) (offset : Nat) :
    ∀ ended ∈ containers.close natural (line.position offset),
      ended.isEnd = true ∧ ended.position.line = line.number := by
  intro ended member
  obtain ⟨frame, _, rfl⟩ := List.mem_map.mp member
  exact ⟨rfl, rfl⟩

theorem exists_ends_openFirst (line : Line) (lead : Text) (containers : Containers)
    (leaf : OpenLeaf) (depth : Nat) (marker : Marker) :
    ∃ natural position ends token,
      (openFirst line lead containers leaf depth marker).1 =
        leaf.close natural position ++ (ends ++ [token]) ∧
      (∀ ended ∈ ends, ended.isEnd = true ∧ ended.position.line = line.number) ∧
      token.closed? = none := by
  have opens := Token.closed?_of_isStart
    (openContainer_starts line lead (containers.take depth) marker).1
  refine openFirst_cases
    (motive := fun opened => ∃ natural position ends token,
      opened.1 = leaf.close natural position ++ (ends ++ [token]) ∧
      (∀ ended ∈ ends, ended.isEnd = true ∧ ended.position.line = line.number) ∧
      token.closed? = none)
    line lead containers leaf depth marker ?all ?sibling ?replaced ?other
  case all =>
    intro _
    exact ⟨_, _, [], _, rfl, by simp, opens⟩
  case sibling =>
    intro start item kind current inner _ _ _
    exact ⟨_, _, _, _, List.append_assoc .., close_ends inner false line start.offset, rfl⟩
  case replaced =>
    intro start item kind current inner _ _ _
    refine ⟨false, line.position start.offset,
      Containers.close inner false (line.position start.offset) ++
        Containers.close [.list kind current] true (line.position start.offset), _,
      by simp only [List.append_assoc], ?_, opens⟩
    intro ended member
    rcases List.mem_append.mp member with first | last
    · exact close_ends _ _ _ _ ended first
    · exact close_ends _ _ _ _ ended last
  case other =>
    intro frame inner _ _
    exact ⟨_, _, _, _, List.append_assoc .., close_ends (frame :: inner) false line _, opens⟩

theorem openedLine_endsFirst (line : Line) (lead : Text) (containers : Containers)
    (leaf : OpenLeaf) (depth : Nat) (first : Marker) (later : List Marker) (c : Cursor) :
    (openedLine line lead containers leaf depth first later c).EndsFirst leaf line.number := by
  obtain ⟨natural, position, ends, token, written, isEnds, opens⟩ :=
    exists_ends_openFirst line lead containers leaf depth first
  have all : (openedLine line lead containers leaf depth first later c).written =
      leaf.close natural position ++ (ends ++ token ::
        ((openAll line (openFirst line lead containers leaf depth first).2 later).1 ++
          (leafLine line [] c (openAll line
            (openFirst line lead containers leaf depth first).2 later).2 .none true).written)) := by
    simp only [openedLine, written, List.append_assoc, List.cons_append, List.nil_append]
  refine .inr ⟨natural, position, ends, _, all, isEnds, List.forall_mem_cons.mpr ⟨opens, ?_⟩⟩
  exact List.forall_mem_append.mpr ⟨openAll_noEnds line _ later,
    leafLine_noEnds line [] c _ .none true trivial (by simp)⟩

theorem lineEffect_endsFirst (containers : Containers) (leaf : OpenLeaf) (line : Line)
    (coherent : leaf.Coherent) :
    (lineEffect containers leaf line).EndsFirst leaf line.number := by
  refine lineEffect_cases (motive := fun effect => effect.EndsFirst leaf line.number) containers
    leaf line rfl ?fenced ?opened ?matched ?lazy ?unmatched
  case fenced =>
    intro fence _ _
    refine .inl fun token member => ?_
    cases List.mem_singleton.mp member
    exact (Token.no_container_of_isOfLeaf (fencedLine_isOfLeaf line _ _ fence)).2
  case opened =>
    intro first later c _ _
    exact openedLine_endsFirst line _ containers leaf _ first later c
  case matched =>
    intro _ noFence _
    exact .inl (leafLine_noEnds line _ _ containers leaf false coherent noFence)
  case lazy =>
    intro _ _ _ _
    exact .inl (paragraphLine_noEnds line _ _ containers true coherent)
  case unmatched =>
    intro _ _ _
    exact .inr ⟨_, _, _, _, List.append_assoc .., close_ends _ _ line _,
      leafLine_noEnds line _ _ _ .none false trivial (by simp)⟩

theorem shown_eq_nil_of_ends {ends : List Token} (all : ∀ ended ∈ ends, ended.isEnd = true) :
    shown ends = [] :=
  List.filter_eq_nil_iff.mpr fun ended member => by simp [all ended member]

/-- Before the end of a container, the line has written what was kept back, and only ends. -/
theorem Effect.EndsFirst.before {leaf : OpenLeaf} {number : Nat} {effect : Effect}
    (endsFirst : effect.EndsFirst leaf number) (coherent : leaf.Coherent)
    {front back : List Token} {close : Token} (split : effect.written = front ++ close :: back)
    (closes : close.closed? ≠ none) :
    shown front = leaf.kept ∧ close.position.line = number := by
  rcases endsFirst with noEnds | ⟨natural, position, ends, rest, written, isEnds, noEnds⟩
  · exact absurd (noEnds close (by simp [split])) closes
  · rw [split] at written
    rcases split_append written.symm with ⟨_, isLeaf, _⟩ | ⟨inner, rfl, others⟩
    · have ofLeaf := OpenLeaf.close_isOfLeaf coherent natural position close (by simp [isLeaf])
      exact absurd (Token.no_container_of_isOfLeaf ofLeaf).2 closes
    · rcases split_append others with ⟨_, isEnd, _⟩ | ⟨_, _, isRest⟩
      · have only : shown inner = [] := by
          refine shown_eq_nil_of_ends fun ended member => (isEnds ended ?_).1
          rw [isEnd]
          exact List.mem_append_left _ member
        rw [shown_append, OpenLeaf.shown_close coherent, only, List.append_nil]
        exact ⟨rfl, (isEnds close (by simp [isEnd])).2⟩
      · exact absurd (noEnds close (by simp [isRest])) closes

/-- At the end of the document nothing but ends follows the end of a container. -/
theorem isEnd_of_finish {state : State} (coherent : state.leaf.Coherent) {front after : List Token}
    {close : Token} (split : finish state = front ++ close :: after)
    (closes : close.closed? ≠ none) : ∀ token ∈ after, token.isEnd = true := by
  rcases split_append split with ⟨_, isLeaf, _⟩ | ⟨inner, _, isEnd⟩
  · have ofLeaf := OpenLeaf.close_isOfLeaf coherent false state.reached close (by simp [isLeaf])
    exact absurd (Token.no_container_of_isOfLeaf ofLeaf).2 closes
  · intro token member
    have ended : token ∈ Containers.close state.containers false state.reached := by
      rw [isEnd]
      exact List.mem_append_right _ (List.mem_cons_of_mem _ member)
    obtain ⟨frame, _, rfl⟩ := List.mem_map.mp ended
    rfl

end Tokenizer

theorem Source.numbers_eq (text : Text) (tabWidth : Nat) :
    (ofText text tabWidth).lines.map Line.number =
      List.range' 1 (ofText text tabWidth).lines.length := by
  have numbers := layOut_numbers tabWidth 1 0 (rawLines text)
  have length := congrArg List.length numbers
  rw [List.length_map, List.length_range'] at length
  rw [ofText, numbers, length]

theorem numbers_split {earlier later : List Line}
    (numbers : (earlier ++ later).map Line.number = List.range' 1 (earlier ++ later).length) :
    earlier.map Line.number = List.range' 1 earlier.length ∧
      later.map Line.number = List.range' (earlier.length + 1) later.length := by
  rw [List.map_append, List.length_append, ← List.range'_append_1, Nat.add_comm 1] at numbers
  exact List.append_inj numbers (by simp)

theorem isClosingLine_append (left right : List Token) (number : Nat) :
    isClosingLine (left ++ right) number =
      (isClosingLine left number || isClosingLine right number) :=
  List.any_append

theorem isClosingLine_earlier {earlier later : List Line}
    (numbers : (earlier ++ later).map Line.number = List.range' 1 (earlier ++ later).length) :
    isClosingLine (Tokenizer.run (earlier ++ later)) earlier.length =
      isClosingLine (Tokenizer.writtenFrom .initial earlier) earlier.length := by
  have coherent := Tokenizer.stateAfter_coherent .initial trivial earlier
  have none : isClosingLine (Tokenizer.runFrom (Tokenizer.stateAfter .initial earlier) later)
      earlier.length = false := by
    refine Tokenizer.isClosingLine_eq_false ?_
    intro token member takes
    obtain ⟨line, isLater, here⟩ := Tokenizer.exists_line_of_takesLine _ later coherent token member
      takes
    have isNumber : line.number ∈ List.range' (earlier.length + 1) later.length := by
      rw [← (numbers_split numbers).2]
      exact List.mem_map_of_mem isLater
    have bounds := List.mem_range'_1.mp isNumber
    omega
  rw [Tokenizer.run, Tokenizer.runFrom_append, isClosingLine_append, none, Bool.or_false]

theorem ListPlace.exists_of_mem_late {list : ListPlace} {finding : Finding}
    (found : finding ∈ list.late) :
    ∃ extent next later, list.extent? = some extent ∧ extent.later = next :: later ∧
      next.kind.opensBlock = true ∧
      (nearest? (list.upToEnd extent)).any (·.kind == .blankLine) = false ∧
      finding = list.lateFinding extent := by
  unfold late at found
  cases same : list.extent? with
  | none =>
    rw [same] at found
    cases found
  | some extent =>
    rw [same] at found
    simp only at found
    split at found
    · rename_i reported
      obtain ⟨opens, filled⟩ := Bool.and_eq_true_iff.mp reported
      cases follows : extent.later with
      | nil => simp [follows] at opens
      | cons next later =>
        rw [follows] at opens
        exact ⟨extent, next, later, rfl, follows, opens, by simpa using filled,
          List.mem_singleton.mp found⟩
    · cases found

theorem Token.isStart_of_opensBlock {token : Token} (opens : token.kind.opensBlock = true) :
    token.kind.isStart = true := by
  obtain ⟨kind, position, lead, literal⟩ := token
  cases kind <;> first | rfl | cases opens

/-- The last marker or text before the end of an outermost list stands right above the block that
follows the list, but for a closing line between them. -/
theorem lastFilledLine_upToEnd {text : Text} {tabWidth : Nat} {list : ListPlace}
    (member : list ∈ outermostLists (tokenize text tabWidth)) {extent : Extent} {next : Token}
    {later : List Token} (found : list.extent? = some extent)
    (follows : extent.later = next :: later) (opens : next.kind.opensBlock = true)
    (filled : (nearest? (list.upToEnd extent)).any (·.kind == .blankLine) = false) :
    lastFilledLine (list.upToEnd extent) +
        (isClosingLine (tokenize text tabWidth) (next.position.line - 1)).toNat + 1 =
      next.position.line := by
  have starts := Token.isStart_of_opensBlock opens
  obtain ⟨split, _, _⟩ := mem_outermostLists.mp member
  obtain ⟨extent', container, natural, _, found', ends, _, _, told⟩ :=
    exists_extent_of_outermost member
  cases found.symm.trans found'
  have closes : extent.close.closed? ≠ none := by simp [Token.closed?, ends]
  rw [follows] at told
  have sameLine := told.sameLine next (Tokenizer.pastEnds?_start starts later)
  rw [extent?_split found, follows] at split
  have whole : Tokenizer.runFrom .initial (Source.ofText text tabWidth).lines =
      list.upToEnd extent ++ extent.close :: next :: later := by
    refine Eq.trans split ?_
    simp [ListPlace.upToEnd]
  rcases Tokenizer.exists_line_of_split whole with
    ⟨earlier, line, rest, front, back, lines, written, before, _⟩ | ⟨front, _, finished⟩
  · have coherent := Tokenizer.stateAfter_coherent .initial trivial earlier
    have numbers := Source.numbers_eq text tabWidth
    rw [lines] at numbers
    obtain ⟨first, second⟩ := numbers_split numbers
    have number : line.number = earlier.length + 1 := (List.cons.inj second).1
    obtain ⟨keptBack, here⟩ := (Tokenizer.lineEffect_endsFirst _ _ line coherent).before coherent
      written closes
    have seen := (Tokenizer.lastSeen_after first).last
    have below : next.position.line = earlier.length + 1 := by
      rw [sameLine, here, number]
    have closing := isClosingLine_earlier numbers
    rw [← lines] at closing
    rw [below, Nat.add_sub_cancel, lastFilledLine_eq filled, before, shown_append, keptBack]
    rw [← closing] at seen
    exact congrArg (· + 1) seen
  · have coherent := Tokenizer.stateAfter_coherent .initial trivial
      (Source.ofText text tabWidth).lines
    have isEnd := Tokenizer.isEnd_of_finish coherent finished closes next List.mem_cons_self
    rw [Token.not_isEnd_of_isStart starts] at isEnd
    cases isEnd

/-- In every text, the end of an outermost list is reported right above the block that follows it,
or two lines above that block if the line between is a closing one. -/
theorem late_findings_above (text : Text) (tabWidth : Nat) :
    ∃ violations, ((Linter.builtin tabWidth).lintText text).2 = .ok violations ∧
      violations.filter (·.ruleId == ("MD032" : Text)) =
        Violation.sort
          (((outermostLists (tokenize text tabWidth)).flatMap fun list =>
            list.early ++ list.late).map
              (Rule.listBlanks.info.violation (Source.ofText text tabWidth))) ∧
      ∀ list ∈ outermostLists (tokenize text tabWidth), ∀ finding ∈ list.late,
        ∃ extent next later, list.extent? = some extent ∧ extent.later = next :: later ∧
          finding.extra = some "after list" ∧
          finding.position.column = list.start.position.column ∧
          finding.position.line +
              (if isClosingLine (tokenize text tabWidth) (next.position.line - 1) then 2 else 1) =
            next.position.line := by
  obtain ⟨violations, linted, reported⟩ := exists_lintText text tabWidth
  refine ⟨violations, linted, reported, ?_⟩
  intro list member finding isLate
  obtain ⟨extent, next, later, found, follows, opens, filled, rfl⟩ :=
    ListPlace.exists_of_mem_late isLate
  have line := lastFilledLine_upToEnd member found follows opens filled
  refine ⟨extent, next, later, found, follows, rfl, rfl, ?_⟩
  cases closing : isClosingLine (tokenize text tabWidth) (next.position.line - 1) with
  | _ =>
    rw [closing] at line
    exact line

/-- The closing fence is the last line of the list, and the heading follows right below it, but the
code above the fence is reported. -/
theorem closing_fence_passed_over :
    let text : Text := "- ```\n  x\n  ```\n# b".toList
    let tokens := tokenize text 4
    let start : Token :=
      ⟨.containerStart (.list (.bulleted '-')) (some ⟨1, 3, false⟩), ⟨1, 1⟩, [], ['-', ' ']⟩
    let list : ListPlace := ⟨[], start, tokens.drop 1⟩
    list ∈ outermostLists tokens ∧
      (list.extent?.bind (·.later.head?)).map (·.position) = some ⟨4, 1⟩ ∧
      ∃ violations, ((Linter.builtin 4).lintText text).2 = .ok violations ∧
        violations.filter (·.ruleId == ("MD032" : Text)) =
          [Rule.listBlanks.info.violation (Source.ofText text 4) ⟨⟨2, 1⟩, some "after list"⟩] := by
  intro text tokens start list
  obtain ⟨violations, linted, reported⟩ := exists_lintText text 4
  have all : ((outermostLists tokens).flatMap fun list => list.early ++ list.late) =
      [⟨⟨2, 1⟩, some "after list"⟩] := by
    decide +kernel
  rw [all] at reported
  exact ⟨by decide +kernel, by decide +kernel, violations, linted,
    reported.trans (List.mergeSort_of_pairwise (List.pairwise_singleton _ _))⟩

end BlockLint
