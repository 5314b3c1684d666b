import BlockLint.Proofs.Shares
import BlockLint.Proofs.SourceLines

/-!
Tokens give the document back. The texts of the tokens of a line make up that line, and so the
texts of all tokens make up a document without tabs. The lead of a line stands with the first token
of the line that consumes text, and nowhere else.
-/
namespace BlockLint

def Share.text (share : Share) : Text :=
  share.lead ++ share.literal

namespace SharedOut

theorem flatMap_sourceText {tokens : List Token} {shares : List Share}
    (shared : SharedOut tokens shares) (chosen : Nat → Bool) :
    (tokens.filter (chosen ·.position.line)).flatMap Token.sourceText =
      (shares.filter (chosen ·.line)).flatMap Share.text := by
  induction shared with
  | nil => rfl
  | @consumer token rest shares _ _ ih =>
    have line : token.share.line = token.position.line := rfl
    have text : token.share.text = token.sourceText := rfl
    simp only [List.filter_cons, line]
    split
    · simp only [List.flatMap_cons, ih, text]
    · exact ih
  | @idle token rest shares _ empty _ ih =>
    simp only [List.filter_cons]
    split
    · simp only [List.flatMap_cons, empty, List.nil_append, ih]
    · exact ih

theorem sourceText_eq_nil {tokens : List Token} {shares : List Share}
    (shared : SharedOut tokens shares) {token : Token} (member : token ∈ tokens)
    (isIdle : token.consumes = false) : token.sourceText = [] := by
  induction shared with
  | nil => cases member
  | consumer consumes _ ih =>
    rcases List.mem_cons.mp member with rfl | later
    · simp [consumes] at isIdle
    · exact ih later
  | idle _ empty _ ih =>
    rcases List.mem_cons.mp member with rfl | later
    · exact empty
    · exact ih later

end SharedOut

namespace Cut

theorem line_of_mem_shares {cut : Cut} {share : Share} (member : share ∈ cut.shares) :
    share.line = cut.line := by
  rcases List.mem_cons.mp member with rfl | other
  · rfl
  · obtain ⟨literal, _, rfl⟩ := List.mem_map.mp other
    rfl

theorem flatMap_shares (cut : Cut) : cut.shares.flatMap Share.text = cut.text := by
  simp [shares, text, Share.text, List.flatMap, Function.comp_def]

theorem filter_shares (chosen : Nat → Bool) (cuts : List Cut) :
    (cuts.flatMap shares).filter (chosen ·.line) =
      (cuts.filter (chosen ·.line)).flatMap shares := by
  induction cuts with
  | nil => rfl
  | cons cut rest ih =>
    have all : cut.shares.filter (chosen ·.line) = if chosen cut.line then cut.shares else [] := by
      split
      · rename_i isChosen
        exact List.filter_eq_self.mpr fun share member => line_of_mem_shares member ▸ isChosen
      · rename_i notChosen
        exact List.filter_eq_nil_iff.mpr fun share member => line_of_mem_shares member ▸ notChosen
    simp only [List.flatMap_cons, List.filter_append, all, ih, List.filter_cons]
    split <;> simp

theorem filter_line {cuts : List Cut} (distinct : (cuts.map line).Nodup) {cut : Cut}
    (member : cut ∈ cuts) : cuts.filter (·.line == cut.line) = [cut] := by
  induction cuts with
  | nil => cases member
  | cons first rest ih =>
    obtain ⟨fresh, others⟩ := List.nodup_cons.mp distinct
    rcases List.mem_cons.mp member with rfl | later
    · have none : rest.filter (·.line == cut.line) = [] :=
        List.filter_eq_nil_iff.mpr fun other isOther same =>
          fresh (List.mem_map.mpr ⟨other, isOther, by simpa using same⟩)
      simp [none]
    · have differs : first.line ≠ cut.line := fun same =>
        fresh (List.mem_map.mpr ⟨cut, later, same.symm⟩)
      simp [differs, ih others later]

end Cut

/-- The token is the first of its line to consume text. `before` are the tokens to its left. -/
def Token.opensLine (before : List Token) (token : Token) : Bool :=
  token.consumes && before.all fun earlier =>
    !(earlier.consumes && earlier.position.line == token.position.line)

/-- In a stream after `before`, the lead of a line stands with the token that opens the line, and
other tokens have none. -/
def Led (leadOf : Nat → Text) : List Token → List Token → Prop
  | _, [] => True
  | before, token :: rest =>
    token.lead = (if token.opensLine before then leadOf token.position.line else []) ∧
      Led leadOf (before ++ [token]) rest

namespace Led

theorem lead_eq {leadOf : Nat → Text} {before left right : List Token} {token : Token}
    (led : Led leadOf before (left ++ token :: right)) :
    token.lead =
      if token.opensLine (before ++ left) then leadOf token.position.line else [] := by
  induction left generalizing before with
  | nil => simpa using led.1
  | cons first left ih => simpa using ih led.2

def Untouched (before : List Token) (cuts : List Cut) : Prop :=
  ∀ cut ∈ cuts, ∀ earlier ∈ before, earlier.consumes = true → earlier.position.line ≠ cut.line

theorem Untouched.snoc {before : List Token} {cuts : List Cut} {token : Token}
    (untouched : Untouched before cuts)
    (apart : ∀ cut ∈ cuts, token.consumes = true → token.position.line ≠ cut.line) :
    Untouched (before ++ [token]) cuts := by
  intro cut isCut earlier member
  rcases List.mem_append.mp member with old | new
  · exact untouched cut isCut earlier old
  · cases List.mem_singleton.mp new
    exact apart cut isCut

/-- Induction on the stream. `pieces` is what tokens still have to take of the line of which the
first token stands in `before`, and `cuts` are the lines after it. -/
theorem of_sharedOut (leadOf : Nat → Text) {tokens before : List Token} {shares : List Share}
    (shared : SharedOut tokens shares) {line : Nat} {pieces : List Text} {cuts : List Cut}
    (same : shares = pieces.map (⟨line, [], ·⟩) ++ cuts.flatMap Cut.shares)
    (entered : pieces ≠ [] → ∃ earlier ∈ before,
      earlier.consumes = true ∧ earlier.position.line = line)
    (untouched : Untouched before cuts) (distinct : (cuts.map Cut.line).Nodup)
    (leads : ∀ cut ∈ cuts, leadOf cut.line = cut.lead) : Led leadOf before tokens := by
  induction shared generalizing before line pieces cuts with
  | nil => trivial
  | @idle token rest shares isIdle empty _ ih =>
    refine ⟨?_, ih same ?_ (untouched.snoc ?_) distinct leads⟩
    · simp [Token.opensLine, isIdle, (List.append_eq_nil_iff.mp empty).1]
    · intro some
      obtain ⟨earlier, member, rest⟩ := entered some
      exact ⟨earlier, List.mem_append_left _ member, rest⟩
    · intro _ _ consumes
      simp [consumes] at isIdle
  | @consumer token rest shares consumes _ ih =>
    cases pieces with
    | cons piece pieces =>
      obtain ⟨share, others⟩ := List.cons.inj same
      obtain ⟨earlier, member, earlierConsumes, earlierLine⟩ := entered (by simp)
      have number : token.position.line = line := congrArg Share.line share
      have lead : token.lead = [] := congrArg Share.lead share
      have follows : token.opensLine before = false := by
        simp only [Token.opensLine, consumes, Bool.true_and, List.all_eq_false]
        exact ⟨earlier, member, by simp [earlierConsumes, earlierLine, number]⟩
      refine ⟨by simp [follows, lead], ih others (fun _ => ⟨token, by simp, consumes, number⟩)
        (untouched.snoc ?_) distinct leads⟩
      intro cut isCut _
      rw [number, ← earlierLine]
      exact untouched cut isCut earlier member earlierConsumes
    | nil =>
      cases cuts with
      | nil => cases same
      | cons cut cuts =>
        obtain ⟨share, others⟩ := List.cons.inj same
        obtain ⟨fresh, distinct⟩ := List.nodup_cons.mp distinct
        have number : token.position.line = cut.line := congrArg Share.line share
        have lead : token.lead = cut.lead := congrArg Share.lead share
        have opens : token.opensLine before = true := by
          simp only [Token.opensLine, consumes, Bool.true_and, List.all_eq_true]
          intro earlier member
          have apart := untouched cut List.mem_cons_self earlier member
          cases earlierConsumes : earlier.consumes with
          | false => rfl
          | true => simpa [number] using apart earlierConsumes
        refine ⟨by simp [opens, lead, number, leads cut List.mem_cons_self],
          ih others (fun _ => ⟨token, by simp, consumes, number⟩) (Untouched.snoc ?_ ?_) distinct
            fun later isLater => leads later (List.mem_cons_of_mem _ isLater)⟩
        · exact fun later isLater => untouched later (List.mem_cons_of_mem _ isLater)
        · intro later isLater _ same
          exact fresh (List.mem_map.mpr ⟨later, isLater, by rw [← same, number]⟩)

end Led

def Cut.leadOf (cuts : List Cut) (number : Nat) : Text :=
  ((cuts.find? (·.line == number)).map Cut.lead).getD []

theorem Cut.leadOf_line {cuts : List Cut} (distinct : (cuts.map Cut.line).Nodup) {cut : Cut}
    (member : cut ∈ cuts) : leadOf cuts cut.line = cut.lead := by
  have only := Cut.filter_line distinct member
  rw [leadOf, ← List.head?_filter, only]
  rfl

namespace Tokenizer

/-- What a run of lines with distinct numbers hands out, and where their leads stand. -/
theorem run_led (lines : List Line) (distinct : (lines.map Line.number).Nodup) :
    ∃ cuts : List Cut,
      SharedOut (run lines) (cuts.flatMap Cut.shares) ∧ List.Forall₂ IsCut lines cuts ∧
        cuts.map (fun cut => (cut.line, cut.lead)) = leadsFrom State.initial lines ∧
        (cuts.map Cut.line).Nodup ∧
        ∀ leadOf : Nat → Text, (∀ cut ∈ cuts, leadOf cut.line = cut.lead) →
          Led leadOf [] (run lines) := by
  obtain ⟨cuts, shared, areCuts, leads⟩ := runFrom_sharedOut State.initial lines trivial
  have numbers : cuts.map Cut.line = lines.map Line.number := by
    clear shared leads distinct
    induction areCuts with
    | nil => rfl
    | cons isCut _ ih => simp [isCut.number, ih]
  rw [← numbers] at distinct
  have start : cuts.flatMap Cut.shares =
      ([] : List Text).map (⟨0, [], ·⟩) ++ cuts.flatMap Cut.shares := rfl
  exact ⟨cuts, shared, areCuts, leads, distinct, fun leadOf =>
    .of_sharedOut leadOf shared start (by simp) (by simp [Led.Untouched]) distinct⟩

theorem exists_isCut {lines : List Line} {cuts : List Cut}
    (areCuts : List.Forall₂ IsCut lines cuts) {line : Line} (member : line ∈ lines) :
    ∃ cut ∈ cuts, IsCut line cut := by
  induction areCuts with
  | nil => cases member
  | @cons first cut _ _ isCut _ ih =>
    rcases List.mem_cons.mp member with rfl | later
    · exact ⟨cut, List.mem_cons_self, isCut⟩
    · obtain ⟨cut, isLater, isCut⟩ := ih later
      exact ⟨cut, List.mem_cons_of_mem _ isLater, isCut⟩

theorem flatMap_cuts {lines : List Line} {cuts : List Cut}
    (areCuts : List.Forall₂ IsCut lines cuts) :
    (cuts.flatMap Cut.shares).flatMap Share.text =
      lines.flatMap fun line => line.expanded ++ line.ending := by
  induction areCuts with
  | nil => rfl
  | cons isCut _ ih =>
    simp only [List.flatMap_cons, List.flatMap_append, ih, Cut.flatMap_shares, isCut.text]

end Tokenizer

/-- A stream in which leads stand with the tokens that open lines has at most one lead to a line,
and no text of the line comes before it. -/
theorem Led.earlier_empty {leadOf : Nat → Text} {tokens : List Token} {shares : List Share}
    (shared : SharedOut tokens shares) (led : Led leadOf [] tokens)
    {before after : List Token} {token : Token} (split : tokens = before ++ token :: after)
    (hasLead : token.lead ≠ []) :
    ∀ earlier ∈ before, earlier.position.line = token.position.line →
      earlier.sourceText = [] := by
  subst split
  intro earlier member sameLine
  have opens : token.opensLine before = true := by
    have lead := led.lead_eq
    by_contra follows
    simp [follows] at lead
    exact hasLead lead
  simp only [Token.opensLine, Bool.and_eq_true, List.all_eq_true] at opens
  have isIdle : earlier.consumes = false := by simpa [sameLine] using opens.2 earlier member
  exact shared.sourceText_eq_nil (List.mem_append_left _ member) isIdle

/-- The tokens of a line make up the line as expanded with its ending, so those of a document
without tabs make up the document. A line has at most one lead, and no text before it. -/
theorem sourceText_tokenize (text : Text) (tabWidth : Nat) :
    (∀ line ∈ (Source.ofText text tabWidth).lines,
      ((tokenize text tabWidth).filter (·.position.line == line.number)).flatMap
        Token.sourceText = line.expanded ++ line.ending) ∧
    ('\t' ∉ text → (tokenize text tabWidth).flatMap Token.sourceText = text) ∧
    (∀ number, ((tokenize text tabWidth).filter fun token =>
      token.position.line == number && !token.lead.isEmpty).length ≤ 1) ∧
    (∀ before token after, tokenize text tabWidth = before ++ token :: after → token.lead ≠ [] →
      ∀ earlier ∈ before, earlier.position.line = token.position.line →
        earlier.sourceText = []) := by
  obtain ⟨cuts, shared, areCuts, _, distinct, leads⟩ :=
    Tokenizer.run_led _ (Source.numbers_nodup text tabWidth)
  have led := leads (Cut.leadOf cuts) fun cut => Cut.leadOf_line distinct
  change SharedOut (tokenize text tabWidth) _ at shared
  have noneBefore : ∀ before token after, tokenize text tabWidth = before ++ token :: after →
      token.lead ≠ [] → ∀ earlier ∈ before, earlier.position.line = token.position.line →
        earlier.sourceText = [] :=
    fun before token after split => led.earlier_empty shared split
  refine ⟨?_, ?_, ?_, noneBefore⟩
  · intro line isLine
    obtain ⟨cut, member, isCut⟩ := Tokenizer.exists_isCut areCuts isLine
    have texts := shared.flatMap_sourceText (· == line.number)
    rw [Cut.filter_shares (· == line.number), ← isCut.number,
      Cut.filter_line distinct member] at texts
    simpa [Cut.flatMap_shares, isCut.text, isCut.number] using texts
  · intro noTab
    have texts := shared.flatMap_sourceText fun _ => true
    rw [List.filter_eq_self.mpr fun _ _ => rfl, List.filter_eq_self.mpr fun _ _ => rfl,
      Tokenizer.flatMap_cuts areCuts, Source.flatMap_expanded tabWidth noTab] at texts
    exact texts
  · intro number
    generalize same : List.filter _ (tokenize text tabWidth) = found
    rcases found with _ | ⟨first, _ | ⟨second, others⟩⟩
    · exact Nat.zero_le 1
    · exact Nat.le_refl 1
    · obtain ⟨before, after, whole, _, firstHas, rest⟩ := List.filter_eq_cons_iff.mp same
      obtain ⟨between, last, isAfter, _, secondHas, _⟩ := List.filter_eq_cons_iff.mp rest
      simp only [Bool.and_eq_true, beq_iff_eq, Bool.not_eq_true', List.isEmpty_eq_false_iff]
        at firstHas secondHas
      have empty := noneBefore (before ++ first :: between) second last
        (by simp [whole, isAfter]) secondHas.2 first (by simp)
        (firstHas.1.trans secondHas.1.symm)
      exact absurd (List.append_eq_nil_iff.mp empty).1 firstHas.2

/-- The second line ends the paragraph before the heading takes the lead. -/
theorem sourceText_tokenize_quoted_heading :
    let text : Text := ['>', ' ', 'a', '\n', '>', ' ', '#', ' ', 'b', '\n']
    ((tokenize text 4).filter (·.position.line == 2)).flatMap Token.sourceText =
        ['>', ' ', '#', ' ', 'b', '\n'] ∧
      (tokenize text 4).flatMap Token.sourceText = text ∧
      ((tokenize text 4).filter fun token =>
        token.position.line == 2 && !token.lead.isEmpty).length ≤ 1 ∧
      ∃ before token after earlier, tokenize text 4 = before ++ token :: after ∧
        token.lead = ['>', ' '] ∧ earlier ∈ before ∧
        earlier.position.line = token.position.line ∧ earlier.sourceText = [] := by
  intro text
  obtain ⟨lines, whole, atMostOne, noneBefore⟩ := sourceText_tokenize text 4
  refine ⟨lines ⟨2, ⟨4, 10⟩, ['>', ' ', '#', ' ', 'b'], ['\n'], 4⟩ (by decide), whole (by decide),
    atMostOne 2, (tokenize text 4).take 4,
    ⟨.leafStart (.atxHeading 1), ⟨2, 3⟩, ['>', ' '], ['#', ' ']⟩, (tokenize text 4).drop 5,
    endToken (.leafEnd .paragraph true) ⟨2, 3⟩, ?_⟩
  have split : tokenize text 4 = (tokenize text 4).take 4 ++
      ⟨.leafStart (.atxHeading 1), ⟨2, 3⟩, ['>', ' '], ['#', ' ']⟩ :: (tokenize text 4).drop 5 := by
    decide +kernel
  have member : endToken (.leafEnd .paragraph true) ⟨2, 3⟩ ∈ (tokenize text 4).take 4 := by
    decide +kernel
  exact ⟨split, rfl, member, rfl, noneBefore _ _ _ split (by simp) _ member rfl⟩

end BlockLint
