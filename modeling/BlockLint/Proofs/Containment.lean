import BlockLint.Proofs.InnerDocument

/-!
Documents quoted and itemized. Putting a document into a block quote or into a list item puts its
tokens between the start and the end of that container, and changes nothing else but columns and
leads.
-/
namespace BlockLint

/-- The text with `mark` before its first line and `front` before every other. -/
def hang (mark front text : Text) : Text :=
  match Source.rawLines text with
  | [] => []
  | first :: rest => mark ++ first ++ rest.flatMap (front ++ ·)

namespace Source

theorem rawLines_hang {mark front text first : Text} {rest : List Text} (plainMark : mark.Plain)
    (plainFront : front.Plain) (lines : rawLines text = first :: rest) :
    rawLines (hang mark front text) = (mark ++ first) :: rest.map (front ++ ·) := by
  have whole : hang mark front text = ((mark ++ first) :: rest.map (front ++ ·)).flatten := by
    simp [hang, lines, List.flatMap]
  have tiling := rawLines_tiling text
  rw [lines] at tiling
  rw [whole]
  refine (Tiling.behind (plainMark.not_mem (by simp)) ?_).rawLines_flatten
  have others := plainFront.not_mem (by simp : '\n' ∈ ['\t', '\n', '\r'])
  cases tiling with
  | last noNewline filled => exact .last noNewline filled
  | cons noNewline tiling => exact .cons noNewline (tiling.map_behind others)

theorem ofRaw_behind {front raw : Text} (plain : front.Plain) (noTab : '\t' ∉ raw)
    (tabWidth number : Nat) (span span' : Span) :
    (Line.ofRaw number span raw tabWidth).Behind front
      (Line.ofRaw number span' (front ++ raw) tabWidth) := by
  have ending := Line.splitEnding_behind (plain.not_mem (by simp)) (plain.not_mem (by simp)) raw
  have inText : '\t' ∉ (Line.splitEnding raw).1 := by
    intro isTab
    rw [← Line.splitEnding_append raw] at noTab
    exact noTab (List.mem_append_left _ isTab)
  exact ⟨plain, inText, rfl, by simp [Line.ofRaw, ending], by simp [Line.ofRaw, ending]⟩

theorem layOut_behind {front : Text} {raws : List Text} (plain : front.Plain)
    (noTab : ∀ raw ∈ raws, '\t' ∉ raw) (tabWidth number start start' : Nat) :
    List.Forall₂ (Line.Behind front) (layOut tabWidth number start raws)
      (layOut tabWidth number start' (raws.map (front ++ ·))) := by
  induction raws generalizing number start start' with
  | nil => exact .nil
  | cons raw rest ih =>
    exact .cons (ofRaw_behind plain (noTab raw List.mem_cons_self) ..)
      (ih (fun later member => noTab later (List.mem_cons_of_mem _ member)) ..)

theorem exists_first {text : Text} (tabWidth : Nat) (filled : text ≠ []) :
    ∃ first, (ofText text tabWidth).lines.head? = some first := by
  cases lines : rawLines text with
  | nil =>
    have whole := flatten_rawLines text
    rw [lines] at whole
    exact absurd whole.symm filled
  | cons raw rest => exact ⟨_, by rw [ofText, lines, layOut, List.head?_cons]⟩

theorem first_number {text : Text} {tabWidth : Nat} {first : Line}
    (isFirst : (ofText text tabWidth).lines.head? = some first) : first.number = 1 := by
  unfold ofText at isFirst
  cases lines : rawLines text with
  | nil => simp [lines, layOut] at isFirst
  | cons raw rest =>
    simp only [lines, layOut, List.head?_cons, Option.some.injEq] at isFirst
    rw [← isFirst]
    rfl

end Source

/-- Where a mark opens a container that every line behind `front` continues, a text that hangs
behind mark and front is the inner document in that container. -/
theorem tokenize_hang {mark front text : Text} {outer : Frame} {start : Token} {first : Line}
    (tabWidth : Nat) (noTab : '\t' ∉ text) (plainMark : mark.Plain) (plainFront : front.Plain)
    (sameWidth : mark.length = front.length) (settled : outer.Settled)
    (isFirst : (Source.ofText text tabWidth).lines.head? = some first)
    (opens : ∀ longer, first.Behind mark longer → Tokenizer.Opens outer mark start first longer)
    (continues : ∀ line longer, Line.Behind front line longer → line.Inside outer front longer) :
    ∃ last, (Source.ofText (hang mark front text) tabWidth).lines.getLast? = some last ∧
      tokenize (hang mark front text) tabWidth =
        start :: embed front (tokenize text tabWidth) ++
          [endToken (.containerEnd outer.kind false) last.endPosition] := by
  cases lines : Source.rawLines text with
  | nil => simp [Source.ofText, lines, Source.layOut] at isFirst
  | cons raw raws =>
    have noTabs : ∀ later ∈ raw :: raws, '\t' ∉ later := by
      intro later member isTab
      rw [← Source.flatten_rawLines text, lines] at noTab
      exact noTab (List.mem_flatten.mpr ⟨later, member, isTab⟩)
    have hanging := Source.rawLines_hang plainMark plainFront lines
    have numbers := Source.numbers_nodup text tabWidth
    simp only [Source.ofText, lines, Source.layOut, List.head?_cons, Option.some.injEq]
      at isFirst numbers
    subst isFirst
    have behind := Source.layOut_behind plainFront
      (fun later member => noTabs later (List.mem_cons_of_mem _ member)) tabWidth 2
      (0 + Text.size raw) (0 + Text.size (mark ++ raw))
    have inside := behind.imp continues
    have opening := opens _ (Source.ofRaw_behind plainMark (noTabs raw List.mem_cons_self)
      tabWidth 1 _ ⟨0, 0 + Text.size (mark ++ raw)⟩)
    simp only [tokenize, Source.tokens, Source.ofText, lines, hanging, Source.layOut]
    refine ⟨_, ?_, Tokenizer.run_inside opening sameWidth inside settled rfl numbers⟩
    rw [List.getLast?_cons, List.getLastD_eq_getLast?]

theorem Line.Behind.position_zero {mark : Text} {line longer : Line}
    (behind : line.Behind mark longer) (filled : mark ≠ []) :
    longer.position 0 = ⟨line.number, 1⟩ := by
  obtain ⟨c, rest, rfl⟩ := List.exists_cons_of_ne_nil filled
  obtain ⟨one, isPlain⟩ := behind.plain c List.mem_cons_self
  have isText : c ≠ '\t' := fun isTab => isPlain (by simp [isTab])
  simp [Line.position, Line.column, Line.expansion, expandTabs, behind.number, behind.text,
    Expansion.expandFrom, one, isText]

def quoteFront : Text := ['>', ' ']

theorem quoteFront_plain : quoteFront.Plain := by
  intro c member
  simp only [quoteFront, List.mem_cons, List.not_mem_nil, or_false] at member
  rcases member with rfl | rfl <;> decide

theorem quoteMarker?_quoteFront (text : Text) :
    quoteMarker? (Cursor.start (quoteFront ++ text)) = some ((Cursor.start text).shift 2) := by
  rfl

theorem readAll_quoteFront (text : Text) :
    Marker.readAll false (Cursor.start (quoteFront ++ text)) =
      (.quote (Cursor.start (quoteFront ++ text)) ((Cursor.start text).shift 2) ::
          (Marker.readAll false ((Cursor.start text).shift 2)).1,
        (Marker.readAll false ((Cursor.start text).shift 2)).2) := by
  have indent : (Cursor.start (quoteFront ++ text)).indent = 0 := rfl
  have noBreak : isThematicBreak (quoteFront ++ text) = false := rfl
  rw [Marker.readAll_eq]
  simp [indent, noBreak, quoteMarker?_quoteFront, codeIndent]

/-- The tokens of a quoted document are those of the document in a block quote. -/
theorem tokenize_quoted {text : Text} (tabWidth : Nat) (filled : text ≠ []) (noTab : '\t' ∉ text) :
    ∃ last,
      (Source.ofText (hang quoteFront quoteFront text) tabWidth).lines.getLast? = some last ∧
      tokenize (hang quoteFront quoteFront text) tabWidth =
        { kind := .containerStart .blockQuote none, position := ⟨1, 1⟩, lead := []
          literal := quoteFront } ::
          embed quoteFront (tokenize text tabWidth) ++
            [endToken (.containerEnd .blockQuote false) last.endPosition] := by
  obtain ⟨first, isFirst⟩ := Source.exists_first tabWidth filled
  have settled : Frame.blockQuote.Settled := ⟨rfl, rfl⟩
  refine tokenize_hang tabWidth noTab quoteFront_plain quoteFront_plain rfl settled isFirst
    (fun longer behind => ?_) fun line longer behind => ⟨behind, ?_⟩
  · have one := Source.first_number isFirst
    have place := behind.position_zero (by decide)
    have read := readAll_quoteFront first.expanded
    rw [← behind.expanded] at read
    rw [one] at place
    have opening : Tokenizer.openContainer longer [] []
          (.quote (Cursor.start longer.expanded) ((Cursor.start first.expanded).shift 2)) =
        (⟨.containerStart .blockQuote none, ⟨1, 1⟩, [], quoteFront⟩, [.blockQuote]) := by
      rw [behind.expanded, ← place]
      rfl
    exact .of_marker behind settled read opening rfl (.inl rfl) one.symm
  · rw [behind.expanded]
    exact quoteMarker?_quoteFront line.expanded

theorem tokenize_quoted_item :
    let text : Text := ['-', ' ', 'a', '\n', 'b', '\n', '\n', '#', ' ', 'c']
    text ≠ [] ∧ '\t' ∉ text ∧
      tokenize ['>', ' ', '-', ' ', 'a', '\n', '>', ' ', 'b', '\n', '>', ' ', '\n',
          '>', ' ', '#', ' ', 'c'] 4 =
        ⟨.containerStart .blockQuote none, ⟨1, 1⟩, [], ['>', ' ']⟩ ::
          embed ['>', ' '] (tokenize text 4) ++
            [endToken (.containerEnd .blockQuote false) ⟨4, 6⟩] := by
  intro text
  have filled : text ≠ [] := by decide
  have noTab : '\t' ∉ text := by decide
  obtain ⟨last, isLast, tokens⟩ := tokenize_quoted 4 filled noTab
  have known : (Source.ofText (hang quoteFront quoteFront text) 4).lines.getLast? =
      some ⟨4, ⟨13, 18⟩, ['>', ' ', '#', ' ', 'c'], [], 4⟩ := by decide
  cases known.symm.trans isLast
  exact ⟨filled, noTab, tokens⟩

/-- A bullet, or up to nine digits with a sign after them, and the kind of list that it opens. -/
inductive ListMarker : Text → ListKind → Prop where
  | bullet {sign : Char} : sign ∈ ['-', '+', '*'] → ListMarker [sign] (.bulleted sign)
  | number {digits : Text} {sign : Char} : digits ≠ [] → digits.length ≤ 9 →
      (∀ c ∈ digits, c.isDigit = true) → sign ∈ ['.', ')'] →
        ListMarker (digits ++ [sign]) (.ordered (Text.valueOf digits) sign)

namespace ListMarker

variable {mark : Text} {kind : ListKind}

theorem exists_head (marker : ListMarker mark kind) :
    ∃ c rest, mark = c :: rest ∧ c ≠ ' ' ∧ c ≠ '>' := by
  cases marker with
  | @bullet sign isBullet =>
    refine ⟨sign, [], rfl, ?_, ?_⟩
    · rintro rfl
      simp at isBullet
    · rintro rfl
      simp at isBullet
  | @number digits sign filled _ allDigits _ =>
    obtain ⟨c, rest, rfl⟩ := List.exists_cons_of_ne_nil filled
    have digit := allDigits c List.mem_cons_self
    refine ⟨c, rest ++ [sign], rfl, ?_, ?_⟩
    · rintro rfl
      simp at digit
    · rintro rfl
      simp at digit

theorem plain (marker : ListMarker mark kind) : (mark ++ [' ']).Plain := by
  intro c member
  rcases List.mem_append.mp member with inMark | isSpace
  · cases marker with
    | bullet isBullet =>
      cases List.mem_singleton.mp inMark
      simp only [List.mem_cons, List.not_mem_nil, or_false] at isBullet
      rcases isBullet with rfl | rfl | rfl <;> decide
    | number _ _ allDigits isSign =>
      rcases List.mem_append.mp inMark with inDigits | inSign
      · exact plain_of_isDigit (allDigits c inDigits)
      · cases List.mem_singleton.mp inSign
        simp only [List.mem_cons, List.not_mem_nil, or_false] at isSign
        rcases isSign with rfl | rfl <;> decide
  · cases List.mem_singleton.mp isSpace
    decide

theorem marker?_eq (marker : ListMarker mark kind) (rest : Text) :
    ListKind.marker? (mark ++ rest) = some (kind, mark.length) := by
  cases marker with
  | bullet isBullet => exact if_pos isBullet
  | @number digits sign filled short allDigits isSign =>
    have notDigit : sign.isDigit = false := by
      simp only [List.mem_cons, List.not_mem_nil, or_false] at isSign
      rcases isSign with rfl | rfl <;> rfl
    have taken : (digits ++ [sign] ++ rest).takeWhile Char.isDigit = digits := by
      rw [List.append_assoc, List.takeWhile_append_of_pos allDigits]
      simp [notDigit]
    have dropped : (digits ++ [sign] ++ rest).drop digits.length = sign :: rest := by
      simp
    obtain ⟨c, more, rfl⟩ := List.exists_cons_of_ne_nil filled
    have notBullet : c ∉ ListKind.bullets := by
      intro isBullet
      have digit := allDigits c List.mem_cons_self
      simp only [ListKind.bullets, List.mem_cons, List.not_mem_nil, or_false] at isBullet
      rcases isBullet with rfl | rfl | rfl <;> simp at digit
    have fits : ¬ ((c :: more).length = 0 ∨ ListKind.maxDigits < (c :: more).length) := by
      simp only [ListKind.maxDigits, List.length_cons] at short ⊢
      omega
    have isDelimiter : sign ∈ ListKind.delimiters := isSign
    simp only [List.cons_append] at taken dropped ⊢
    simp only [ListKind.marker?, notBullet, if_false, taken, fits, dropped, isDelimiter, if_true]
    simp

theorem spaces_eq_zero (marker : ListMarker mark kind) (rest : Text) :
    Text.spaces (mark ++ rest) = 0 := by
  obtain ⟨c, more, rfl, notSpace, _⟩ := marker.exists_head
  simp [Text.spaces, notSpace]

def itemStart (mark : Text) (kind : ListKind) : ItemStart where
  kind := kind
  markerOffset := 0
  markerEnd := mark.length
  consumedEnd := mark.length + 1
  contentIndent := mark.length + 1
  empty := false

theorem find?_eq (marker : ListMarker mark kind) {c : Char} (notSpace : c ≠ ' ') (after : Text) :
    ItemStart.find? (Cursor.start (mark ++ ' ' :: c :: after)) = some (itemStart mark kind) := by
  have indent : (Cursor.start (mark ++ ' ' :: c :: after)).indent = 0 := marker.spaces_eq_zero _
  have gap : Text.spaces (' ' :: c :: after) = 1 := by simp [Text.spaces, notSpace]
  have filled : Text.isBlank (' ' :: c :: after) = false := by simp [Text.isBlank, notSpace]
  simp [ItemStart.find?, indent, codeIndent, marker.marker?_eq, filled, gap, ItemStart.maxGap,
    itemStart]

theorem readAll_eq (marker : ListMarker mark kind) {c : Char} (notSpace : c ≠ ' ') (after : Text)
    (noBreak : isThematicBreak (mark ++ ' ' :: c :: after) = false) :
    Marker.readAll false (Cursor.start (mark ++ ' ' :: c :: after)) =
      (.item (Cursor.start (mark ++ ' ' :: c :: after)) (itemStart mark kind) ::
          (Marker.readAll false ((Cursor.start (c :: after)).shift (mark.length + 1))).1,
        (Marker.readAll false ((Cursor.start (c :: after)).shift (mark.length + 1))).2) := by
  have indent : (Cursor.start (mark ++ ' ' :: c :: after)).indent = 0 := marker.spaces_eq_zero _
  have noQuote : quoteMarker? (Cursor.start (mark ++ ' ' :: c :: after)) = none := by
    obtain ⟨sign, more, rfl, _, notQuote⟩ := marker.exists_head
    rw [List.cons_append] at indent ⊢
    simp [quoteMarker?, indent, notQuote]
  have past : (itemStart mark kind).past (Cursor.start (mark ++ ' ' :: c :: after)) =
      (Cursor.start (c :: after)).shift (mark.length + 1) := by
    simp [ItemStart.past, itemStart, Cursor.skip, Cursor.shift]
  rw [Marker.readAll_eq]
  simp [indent, codeIndent, noBreak, noQuote, marker.find?_eq notSpace after, past]

def openItem (mark : Text) (hasContent : Bool) : ListItem where
  markerOffset := 0
  contentOffset := mark.length + 1
  contentIndent := mark.length + 1
  contentPending := false
  hasContent := hasContent
  closed := false

theorem openContainer_eq (mark : Text) (kind : ListKind) {line : Line} {rest : Text}
    (expanded : line.expanded = mark ++ ' ' :: rest) :
    Tokenizer.openContainer line [] []
        (.item (Cursor.start line.expanded) (itemStart mark kind)) =
      (⟨.containerStart (.list kind) (some ⟨1, mark.length + 2, false⟩), line.position 0, [],
        mark ++ [' ']⟩, [.list kind (openItem mark false)]) := by
  have literal : (mark ++ ' ' :: rest).take (mark.length + 1) = mark ++ [' '] := by
    rw [List.take_length_add_append]
    rfl
  simp [Tokenizer.openContainer, Tokenizer.tokenAt, expanded, itemStart, openItem,
    ItemStart.listItem, ItemStart.past, ListItem.geometry, Cursor.upTo, Cursor.skip, literal,
    Containers.markContent]

end ListMarker

def itemFront (mark : Text) : Text :=
  List.replicate (mark.length + 1) ' '

theorem itemFront_plain (mark : Text) : (itemFront mark).Plain := by
  intro c member
  cases List.eq_of_mem_replicate member
  decide

theorem continue?_itemFront (mark text : Text) :
    (ListMarker.openItem mark true).continue? (Cursor.start (itemFront mark ++ text)) =
      some ((Cursor.start text).shift (itemFront mark).length) := by
  have indent : (Cursor.start (itemFront mark ++ text)).indent =
      mark.length + 1 + Text.spaces text := by
    simp [Cursor.indent, Text.spaces, itemFront, List.takeWhile_append_of_pos]
  have skipped : (Cursor.start (itemFront mark ++ text)).skip (mark.length + 1) =
      (Cursor.start text).shift (itemFront mark).length := by
    simp [Cursor.skip, Cursor.shift, itemFront]
  have enough : mark.length + 1 ≤ mark.length + 1 + Text.spaces text := Nat.le_add_right ..
  cases blank : (Cursor.start (itemFront mark ++ text)).isBlank with
  | true =>
    simp only [ListItem.continue?, blank, if_true, ListMarker.openItem, indent,
      Nat.min_eq_right enough, skipped]
  | false => simp [ListItem.continue?, blank, ListMarker.openItem, indent, skipped]

/-- The tokens of a document behind a list marker are those of the document in a list item. -/
theorem tokenize_itemized {mark text after : Text} {kind : ListKind} {first : Line} {c : Char}
    (tabWidth : Nat) (marker : ListMarker mark kind) (noTab : '\t' ∉ text)
    (isFirst : (Source.ofText text tabWidth).lines.head? = some first)
    (starts : first.text = c :: after) (notSpace : c ≠ ' ')
    (noBreak : isThematicBreak (mark ++ ' ' :: first.text) = false) :
    ∃ last,
      (Source.ofText (hang (mark ++ [' ']) (itemFront mark) text) tabWidth).lines.getLast? =
        some last ∧
      tokenize (hang (mark ++ [' ']) (itemFront mark) text) tabWidth =
        { kind := .containerStart (.list kind) (some ⟨1, mark.length + 2, false⟩)
          position := ⟨1, 1⟩, lead := [], literal := mark ++ [' '] } ::
          embed (itemFront mark) (tokenize text tabWidth) ++
            [endToken (.containerEnd (.list kind) false) last.endPosition] := by
  have settled : (Frame.list kind (ListMarker.openItem mark true)).Settled := ⟨rfl, rfl⟩
  refine tokenize_hang tabWidth noTab marker.plain (itemFront_plain mark) (by simp [itemFront])
    settled isFirst (fun longer behind => ?_) fun line longer behind => ⟨behind, ?_⟩
  · have one := Source.first_number isFirst
    have place := behind.position_zero (by simp)
    have inner : first.expanded = c :: after := by
      rw [Line.expanded_eq_text behind.noTab, starts]
    have expanded : longer.expanded = mark ++ ' ' :: c :: after := by
      rw [behind.expanded, inner, List.append_assoc, List.singleton_append]
    rw [starts] at noBreak
    have read := marker.readAll_eq notSpace after noBreak
    have opening := ListMarker.openContainer_eq mark kind expanded
    rw [← expanded, ← inner] at read
    rw [place, one] at opening
    refine .of_marker behind settled ?_ opening rfl (.inr ?_) one.symm
    · simpa using read
    · simp [inner, Text.isBlank, notSpace]
  · rw [behind.expanded]
    exact continue?_itemFront mark line.expanded

theorem tokenize_itemized_nested :
    let text : Text := ['a', '\n', '\n', '-', ' ', 'b', '\n']
    ListMarker ['1', '2', ')'] (.ordered 12 ')') ∧ '\t' ∉ text ∧
      tokenize ['1', '2', ')', ' ', 'a', '\n', ' ', ' ', ' ', ' ', '\n',
          ' ', ' ', ' ', ' ', '-', ' ', 'b', '\n'] 4 =
        ⟨.containerStart (.list (.ordered 12 ')')) (some ⟨1, 5, false⟩), ⟨1, 1⟩, [],
            ['1', '2', ')', ' ']⟩ ::
          embed [' ', ' ', ' ', ' '] (tokenize text 4) ++
            [endToken (.containerEnd (.list (.ordered 12 ')')) false) ⟨3, 8⟩] := by
  intro text
  have marker : ListMarker ['1', '2', ')'] (.ordered 12 ')') :=
    @ListMarker.number ['1', '2'] ')' (by decide) (by decide) (by simp) (by decide)
  have noTab : '\t' ∉ text := by decide
  obtain ⟨last, isLast, tokens⟩ := tokenize_itemized 4 marker noTab
    (by decide : (Source.ofText text 4).lines.head? = some ⟨1, ⟨0, 2⟩, ['a'], ['\n'], 4⟩)
    rfl (by decide) (by decide)
  have known :
      (Source.ofText (hang ['1', '2', ')', ' '] [' ', ' ', ' ', ' '] text) 4).lines.getLast? =
        some ⟨3, ⟨11, 19⟩, [' ', ' ', ' ', ' ', '-', ' ', 'b'], ['\n'], 4⟩ := by decide
  cases known.symm.trans isLast
  exact ⟨marker, noTab, tokens⟩

end BlockLint
