import BlockLint.Proofs.BlockTree
import BlockLint.Proofs.Markup
import BlockLint.Proofs.Outline
import BlockLint.Proofs.Strict.Rebuild

/-!
Rendering without a tree. But for the tags of paragraphs, which need the whole list around them, a
document can be written token by token, and the tree is as good as its tokens.

The invariant is what a replay has written so far: the blocks that are done, and of each open
container its opening tag and what it holds.
-/
namespace BlockLint.Html

def withoutParagraphTags : Text → Text
  | '<' :: 'p' :: '>' :: rest => withoutParagraphTags rest
  | '<' :: '/' :: 'p' :: '>' :: rest => withoutParagraphTags rest
  | c :: rest => c :: withoutParagraphTags rest
  | [] => []

theorem withoutParagraphTags_append {text : Text} (none : '<' ∉ text) (rest : Text) :
    withoutParagraphTags (text ++ rest) = text ++ withoutParagraphTags rest := by
  induction text with
  | nil => rfl
  | cons c text ih =>
    rw [List.mem_cons, not_or] at none
    rw [List.cons_append, withoutParagraphTags, ih none.2]
    · rfl
    · intro _ isTag
      exact absurd isTag.symm none.1
    · intro _ isTag
      exact absurd isTag.symm none.1

theorem withoutParagraphTags_tag {body : Text} (noStart : '<' ∉ body) (noEnd : '>' ∉ body)
    (notOpening : body ≠ ['p']) (notClosing : body ≠ ['/', 'p']) (rest : Text) :
    withoutParagraphTags ('<' :: body ++ ['>'] ++ rest) =
      '<' :: body ++ ['>'] ++ withoutParagraphTags rest := by
  have inside : withoutParagraphTags (body ++ ['>'] ++ rest) =
      body ++ ['>'] ++ withoutParagraphTags rest :=
    withoutParagraphTags_append (by simpa using noStart) rest
  rw [List.cons_append, List.cons_append, withoutParagraphTags, inside]
  · rfl
  · intro later _ same
    rcases body with _ | ⟨c, _ | ⟨d, body⟩⟩
    · simp at same
    · simp only [List.cons_append, List.cons.injEq] at same
      exact notOpening (by rw [same.1])
    · simp only [List.cons_append, List.cons.injEq] at same
      simp [same.2.1] at noEnd
  · intro later _ same
    rcases body with _ | ⟨c, _ | ⟨d, _ | ⟨e, body⟩⟩⟩
    · simp at same
    · simp at same
    · simp only [List.cons_append, List.cons.injEq] at same
      exact notClosing (by rw [same.1, same.2.1])
    · simp only [List.cons_append, List.cons.injEq] at same
      simp [same.2.2.1] at noEnd

def Piece.isParagraphTag : Piece → Bool
  | .opening .paragraph | .closing .paragraph => true
  | _ => false

def bare (pieces : List Piece) : List Piece :=
  pieces.filter (!·.isParagraphTag)

@[simp] theorem bare_append (left right : List Piece) :
    bare (left ++ right) = bare left ++ bare right :=
  List.filter_append ..

theorem Element.name_append_ne {element : Element} (other : element ≠ .paragraph) (rest : Text) :
    element.name ++ rest ≠ ['p'] ∧ element.name ++ rest ≠ ['/', 'p'] := by
  have first {c : Char} {name : Text} (same : element.name = c :: name) (noP : c ≠ 'p')
      (noSlash : c ≠ '/') : element.name ++ rest ≠ ['p'] ∧ element.name ++ rest ≠ ['/', 'p'] := by
    rw [same, List.cons_append]
    exact ⟨fun whole => noP (List.cons.inj whole).1, fun whole => noSlash (List.cons.inj whole).1⟩
  cases element with
  | paragraph => exact absurd rfl other
  | preformatted =>
    have same : Element.preformatted.name = ['p', 'r', 'e'] := rfl
    simp [same]
  | _ => exact first rfl (by decide) (by decide)

theorem Piece.body_ne {piece : Piece} (other : piece.isParagraphTag = false) :
    piece.body ≠ ['p'] ∧ piece.body ≠ ['/', 'p'] := by
  cases piece with
  | opening element =>
    apply Element.name_append_ne
    rintro rfl
    cases other
  | closing element =>
    have notParagraph : element ≠ .paragraph := by
      rintro rfl
      cases other
    have name := (Element.name_append_ne notParagraph []).1
    rw [List.append_nil] at name
    exact ⟨by simp [body], fun same => name (List.cons.inj same).2⟩
  | thematicBreak => decide
  | text content => simp [body]

theorem withoutParagraphTags_piece (piece : Piece) (rest : Text) :
    withoutParagraphTags (piece.write ++ rest) =
      write (bare [piece]) ++ withoutParagraphTags rest := by
  cases paragraph : piece.isParagraphTag with
  | true =>
    have dropped : bare [piece] = [] := by simp [bare, paragraph]
    rw [dropped]
    unfold Piece.isParagraphTag at paragraph
    split at paragraph
    · rfl
    · rfl
    · cases paragraph
  | false =>
    have kept : write (bare [piece]) = piece.write := by simp [bare, paragraph, write]
    rw [kept]
    cases isTag : piece.isTag with
    | true =>
      obtain ⟨notOpening, notClosing⟩ := Piece.body_ne paragraph
      rw [Piece.write_of_isTag isTag]
      exact withoutParagraphTags_tag (piece.not_mem_body (.inl rfl)) (piece.not_mem_body (.inr rfl))
        notOpening notClosing rest
    | false =>
      cases piece with
      | text content =>
        exact withoutParagraphTags_append (not_mem_escapeText (.inl rfl) content) rest
      | _ => cases isTag

@[simp] theorem write_append (left right : List Piece) :
    write (left ++ right) = write left ++ write right :=
  List.flatMap_append

theorem withoutParagraphTags_write (pieces : List Piece) :
    withoutParagraphTags (write pieces) = write (bare pieces) := by
  induction pieces with
  | nil => rfl
  | cons piece rest ih =>
    rw [write_cons, withoutParagraphTags_piece, ih, ← write_append, ← bare_append]
    rfl

theorem bare_leafPieces (kind : LeafKind) (lines : List Text) (tight : Bool) :
    bare (leafPieces kind lines tight) = leafPieces kind lines true := by
  have code (language : Option Text) : bare (Piece.enclose .preformatted
      (Piece.enclose (.code language) (lines.map fun line => .text (line ++ ['\n'])))) =
      Piece.enclose .preformatted
        (Piece.enclose (.code language) (lines.map fun line => .text (line ++ ['\n']))) := by
    apply List.filter_eq_self.mpr
    intro piece member
    simp only [Piece.enclose, List.cons_append, List.mem_cons, List.mem_append, List.mem_map,
      List.not_mem_nil, or_false] at member
    rcases member with rfl | rfl | ((⟨line, _, rfl⟩ | rfl) | rfl) <;> rfl
  cases kind with
  | paragraph => cases tight <;> rfl
  | atxHeading level => rfl
  | setextHeading level => rfl
  | thematicBreak => rfl
  | indentedCode => exact code _
  | fencedCode fence length info => exact code _

/-- The tags of paragraphs are all that depends on how tight a list is. -/
theorem bare_blockPieces (tight : Bool) (block : Block) :
    bare (blockPieces tight block) = bare (blockPieces true block) := by
  cases block with
  | leaf kind lines =>
    exact (bare_leafPieces kind lines tight).trans (bare_leafPieces kind lines true).symm
  | quote children => rfl
  | list kind items => rfl
  | blank => rfl

def rowText (row : List Block) : Text :=
  write (bare (allPieces true row))

def itemsText (items : List (List Block)) : Text :=
  write (bare (itemPieces true items))

theorem write_bare_allPieces (tight : Bool) (row : List Block) :
    write (bare (allPieces tight row)) = rowText row := by
  unfold rowText
  induction row with
  | nil => rfl
  | cons block rest ih =>
    simp only [allPieces, bare_append, write_append, bare_blockPieces tight block, ih]

theorem write_bare_enclose (element : Element) (other : element ≠ .paragraph)
    (pieces : List Piece) :
    write (bare (Piece.enclose element pieces)) =
      Piece.write (.opening element) ++ write (bare pieces) ++ Piece.write (.closing element) := by
  have opening : bare [.opening element] = [.opening element] := by
    cases element <;> first | rfl | contradiction
  have closing : bare [.closing element] = [.closing element] := by
    cases element <;> first | rfl | contradiction
  have whole :
      Piece.enclose element pieces = [.opening element] ++ pieces ++ [.closing element] := rfl
  rw [whole, bare_append, bare_append, opening, closing]
  simp [write]

theorem write_bare_itemPieces (tight : Bool) (items : List (List Block)) :
    write (bare (itemPieces tight items)) = itemsText items := by
  unfold itemsText
  induction items with
  | nil => rfl
  | cons item rest ih =>
    simp only [itemPieces, bare_append, write_append, ih,
      write_bare_enclose .item (by decide), write_bare_allPieces]

theorem rowText_concat (row : List Block) (block : Block) :
    rowText (row ++ [block]) = rowText row ++ write (bare (blockPieces true block)) := by
  unfold rowText
  induction row with
  | nil => simp [allPieces, bare, write]
  | cons first rest ih =>
    simp only [List.cons_append, allPieces, bare_append, write_append, ih, List.append_assoc]

theorem itemsText_concat (items : List (List Block)) (item : List Block) :
    itemsText (items ++ [item]) = itemsText items ++ "<li>" ++ rowText item ++ "</li>" := by
  have last : write (bare (Piece.enclose .item (allPieces true item))) =
      "<li>" ++ rowText item ++ "</li>" :=
    write_bare_enclose .item (by decide) _
  unfold itemsText
  induction items with
  | nil => simpa [itemPieces, bare, write] using last
  | cons first rest ih =>
    simp only [List.cons_append, itemPieces, bare_append, write_append, ih, List.append_assoc]

def openingTags : ContainerKind → Text
  | .blockQuote => "<blockquote>"
  | .list (.ordered start _) =>
    if start = 1 then "<ol><li>" else "<ol start=\"" ++ Text.ofNat start ++ "\"><li>"
  | .list (.bulleted _) => "<ul><li>"

def closingTags : ContainerKind → Text
  | .blockQuote => "</blockquote>"
  | .list (.ordered _ _) => "</li></ol>"
  | .list (.bulleted _) => "</li></ul>"

/-- What a token writes where the outline tells what is open. An end is the end of the innermost
container, whatever kind it names. -/
def tokenText (outline : Outline) : TokenKind → Text
  | .containerStart container _ => openingTags container
  | .newListItem _ _ => "</li><li>"
  | .containerEnd _ _ =>
    match outline.containers with
    | innermost :: _ => closingTags innermost
    | [] => []
  | .leafEnd kind _ => write (leafPieces kind (outline.lines.getD []) true)
  | .leafStart _ | .leafContent _ _ | .blankLine => []

/-- The tokens written one after another, without tags of paragraphs. -/
def onePass (outline : Outline) : List Token → Text
  | [] => []
  | token :: rest => tokenText outline token.kind ++ onePass (outline.next token.kind) rest

end BlockLint.Html

namespace BlockLint

open Html

namespace OpenBlock

def front : OpenBlock → Text
  | .quote _ => "<blockquote>"
  | .list kind done _ => Piece.write (.opening (listElement kind)) ++ itemsText done ++ "<li>"

def begun (container : OpenBlock) : Text :=
  container.front ++ rowText container.row

theorem begun_ofKind (container : ContainerKind) :
    (ofKind container).begun = openingTags container := by
  rcases container with _ | ⟨start, delimiter⟩ | bullet
  · rfl
  · have whole {attributes : Text} (same : (Element.orderedList start).attributes = attributes) :
        (ofKind (.list (.ordered start delimiter))).begun =
          '<' :: 'o' :: 'l' :: attributes ++ ['>', '<', 'l', 'i', '>'] := by
      refine (List.append_nil _).trans ?_
      refine (congrArg (· ++ _) (List.append_nil _)).trans ?_
      rw [← same]
      exact List.append_assoc ('<' :: 'o' :: 'l' :: _) ['>'] _
    by_cases one : start = 1
    · exact (whole (if_pos one)).trans (if_pos one).symm
    · refine ((whole (if_neg one)).trans ?_).trans (if_neg one).symm
      exact List.append_assoc (("<ol start=\"" : Text) ++ Text.ofNat start) ['"'] _
  · rfl

theorem begun_add (block : Block) (container : OpenBlock) :
    (container.add block).begun = container.begun ++ write (bare (blockPieces true block)) := by
  have same : (container.add block).front = container.front := by cases container <;> rfl
  rw [begun, same, row_add, rowText_concat, ← List.append_assoc]
  rfl

theorem begun_close (container : OpenBlock) :
    write (bare (blockPieces true container.close)) =
      container.begun ++ closingTags container.kind := by
  cases container with
  | quote children =>
    refine (write_bare_enclose .blockQuote (by decide) _).trans ?_
    rw [write_bare_allPieces]
    rfl
  | list kind done current =>
    have other : listElement kind ≠ .paragraph := by cases kind <;> simp [listElement]
    have tags :
        closingTags (.list kind) = "</li>" ++ Piece.write (.closing (listElement kind)) := by
      cases kind <;> rfl
    refine (write_bare_enclose (listElement kind) other _).trans ?_
    rw [write_bare_itemPieces, itemsText_concat, show OpenBlock.kind _ = .list kind from rfl, tags,
      begun]
    simp only [← List.append_assoc]
    rfl

theorem begun_nextItem (kind : ListKind) (done : List (List Block)) (current : List Block) :
    (OpenBlock.list kind (done ++ [current]) []).begun =
      (OpenBlock.list kind done current).begun ++ "</li><li>" := by
  have between : ("</li>" : Text) ++ "<li>" = "</li><li>" := rfl
  refine (List.append_nil _).trans ?_
  change Piece.write (.opening (listElement kind)) ++ itemsText (done ++ [current]) ++ "<li>" =
    Piece.write (.opening (listElement kind)) ++ itemsText done ++ "<li>" ++ rowText current ++ _
  rw [itemsText_concat, ← between]
  simp only [List.append_assoc]

end OpenBlock

namespace Replay

def outline (replay : Replay) : Outline :=
  ⟨replay.stack.map OpenBlock.kind, replay.lines⟩

/-- What is written of the document after the tokens so far. -/
def written (replay : Replay) : Text :=
  rowText replay.root ++ replay.stack.reverse.flatMap OpenBlock.begun

theorem outline_add (block : Block) (replay : Replay) :
    (add block replay).outline = replay.outline := by
  obtain ⟨_ | ⟨innermost, outer⟩, root, lines⟩ := replay
  · rfl
  · simp [outline, add]

theorem written_add (block : Block) (replay : Replay) :
    (add block replay).written = replay.written ++ write (bare (blockPieces true block)) := by
  obtain ⟨_ | ⟨innermost, outer⟩, root, lines⟩ := replay
  · simp [written, add, rowText_concat]
  · simp [written, add, OpenBlock.begun_add]

theorem step_admitted {replay : Replay} {token : Token}
    (admitted : replay.outline.admits token.kind = true) :
    ∃ next, replay.step token = .ok next ∧ next.outline = replay.outline.next token.kind ∧
      next.written = replay.written ++ tokenText replay.outline token.kind := by
  obtain ⟨stack, root, lines⟩ := replay
  unfold step
  cases kind : token.kind with
  | containerStart container item =>
    refine ⟨_, rfl, ?_, ?_⟩
    · simp [outline, Outline.next]
    · rw [show tokenText _ (.containerStart container item) = openingTags container from rfl]
      simp [written, OpenBlock.begun_ofKind]
  | newListItem item number =>
    rw [kind] at admitted
    rcases stack with _ | ⟨_ | ⟨listKind, done, current⟩, outer⟩
    · cases admitted
    · cases admitted
    · refine ⟨_, rfl, rfl, ?_⟩
      rw [show tokenText _ (.newListItem item number) = "</li><li>" from rfl]
      simp only [written, List.reverse_cons, List.flatMap_append, List.flatMap_singleton,
        OpenBlock.begun_nextItem, List.append_assoc]
  | containerEnd container natural =>
    rw [kind] at admitted
    cases stack with
    | nil => cases admitted
    | cons innermost outer =>
      refine ⟨_, rfl, outline_add _ _, ?_⟩
      rw [written_add, OpenBlock.begun_close,
        show tokenText (outline _) (.containerEnd container natural) =
          closingTags innermost.kind from rfl]
      simp [written]
  | leafStart leaf => exact ⟨_, rfl, rfl, (List.append_nil _).symm⟩
  | leafContent text isLazy =>
    rw [kind] at admitted
    cases lines with
    | none => cases admitted
    | some lines => exact ⟨_, rfl, rfl, (List.append_nil _).symm⟩
  | leafEnd leaf natural =>
    rw [kind] at admitted
    cases lines with
    | none => cases admitted
    | some lines =>
      refine ⟨_, rfl, outline_add _ _, ?_⟩
      rw [written_add, blockPieces, bare_leafPieces]
      rfl
  | blankLine => exact ⟨_, rfl, outline_add _ _, written_add .blank _⟩

theorem step_refused {replay : Replay} {token : Token}
    (refused : replay.outline.admits token.kind = false) : ∃ e, replay.step token = .error e := by
  obtain ⟨stack, root, lines⟩ := replay
  unfold step
  cases kind : token.kind with
  | newListItem item number =>
    rw [kind] at refused
    rcases stack with _ | ⟨_ | ⟨listKind, done, current⟩, outer⟩
    · exact ⟨_, rfl⟩
    · exact ⟨_, rfl⟩
    · cases refused
  | containerEnd container natural =>
    rw [kind] at refused
    cases stack with
    | nil => exact ⟨_, rfl⟩
    | cons innermost outer => cases refused
  | leafContent text isLazy =>
    rw [kind] at refused
    cases lines with
    | none => exact ⟨_, rfl⟩
    | some lines => cases refused
  | leafEnd leaf natural =>
    rw [kind] at refused
    cases lines with
    | none => exact ⟨_, rfl⟩
    | some lines => cases refused
  | _ =>
    rw [kind] at refused
    cases refused

theorem runFrom_fits {replay : Replay} {tokens : List Token}
    (fits : ¬ replay.outline.Misfit tokens) :
    ∃ document, replay.runFrom tokens = .ok document ∧
      rowText document = replay.written ++ onePass replay.outline tokens := by
  induction tokens generalizing replay with
  | nil =>
    obtain ⟨_ | ⟨innermost, outer⟩, root, lines⟩ := replay
    · exact ⟨root, rfl, by simp [written, onePass]⟩
    · exact absurd ((Outline.misfit_nil _).mpr (List.cons_ne_nil _ _)) fits
  | cons token rest ih =>
    rw [Outline.misfit_cons, not_or, Bool.not_eq_false] at fits
    obtain ⟨next, taken, same, written⟩ := step_admitted fits.1
    obtain ⟨document, replayed, text⟩ := ih (same ▸ fits.2)
    refine ⟨document, by rw [runFrom, taken]; exact replayed, ?_⟩
    rw [text, written, same, onePass, List.append_assoc]

theorem runFrom_misfit {replay : Replay} {tokens : List Token}
    (misfits : replay.outline.Misfit tokens) : ∃ e, replay.runFrom tokens = .error e := by
  induction tokens generalizing replay with
  | nil =>
    obtain ⟨_ | ⟨innermost, outer⟩, root, lines⟩ := replay
    · exact absurd rfl ((Outline.misfit_nil _).mp misfits)
    · exact ⟨_, rfl⟩
  | cons token rest ih =>
    rw [runFrom]
    cases admitted : replay.outline.admits token.kind with
    | false =>
      obtain ⟨e, failed⟩ := step_refused admitted
      exact ⟨e, by rw [failed]⟩
    | true =>
      obtain ⟨next, taken, same, _⟩ := step_admitted admitted
      rw [Outline.misfit_cons, admitted, ← same] at misfits
      rw [taken]
      exact ih (misfits.resolve_left (by simp))

end Replay

namespace Html

theorem render_of_misfit {tokens : List Token} (misfits : Outline.empty.Misfit tokens) :
    ∃ e, render tokens = .error e := by
  obtain ⟨e, failed⟩ : ∃ e, blocks tokens = .error e := Replay.runFrom_misfit misfits
  exact ⟨e, by rw [render, failed]⟩

theorem render_of_fits {tokens : List Token} (fits : ¬ Outline.empty.Misfit tokens) :
    ∃ html, render tokens = .ok html ∧ withoutParagraphTags html = onePass .empty tokens := by
  obtain ⟨document, built, text⟩ :
      ∃ document, blocks tokens = .ok document ∧ rowText document = onePass .empty tokens :=
    Replay.runFrom_fits fits
  refine ⟨write (allPieces false document), by rw [render, built], ?_⟩
  rw [withoutParagraphTags_write, write_bare_allPieces, text]

/-- Tokens are rendered unless one of them does not fit or a container stays open. But for the tags
of paragraphs, what comes out is the tokens written one after another. A replay that could also fail
by a list without items, by the end of the document or by an empty stack does not do so. No document
fails. -/
theorem render_eq_onePass (tokens : List Token) :
    ((∃ e, render tokens = .error e) ↔ Outline.empty.Misfit tokens) ∧
      (∀ html, render tokens = .ok html → withoutParagraphTags html = onePass .empty tokens) ∧
      Strict.rebuild tokens = (blocks tokens).mapError .misfit ∧
      ∀ text tabWidth, ∃ html, render (tokenize text tabWidth) = .ok html := by
  refine ⟨⟨?_, render_of_misfit⟩, ?_, Strict.rebuild_eq tokens, ?_⟩
  · rintro ⟨e, failed⟩
    by_contra fits
    obtain ⟨html, rendered, _⟩ := render_of_fits fits
    cases failed.symm.trans rendered
  · intro html rendered
    have fits : ¬ Outline.empty.Misfit tokens := by
      intro misfits
      obtain ⟨e, failed⟩ := render_of_misfit misfits
      cases failed.symm.trans rendered
    obtain ⟨html', rendered', same⟩ := render_of_fits fits
    cases rendered.symm.trans rendered'
    exact same
  · intro text tabWidth
    obtain ⟨html, rendered, _⟩ := render_of_fits (tokenize_not_misfit text tabWidth)
    exact ⟨html, rendered⟩

/-- A leaf goes on after the start of a list, the list is loose, and its end names a quote. -/
theorem render_eq_onePass_loose :
    let kinds : List TokenKind :=
      [.leafStart .paragraph, .leafContent ['<'] false,
        .containerStart (.list (.ordered 7 '.')) none, .leafContent ['a'] false,
        .leafEnd .paragraph true, .blankLine, .newListItem ⟨1, 4, false⟩ none,
        .containerEnd .blockQuote true]
    let tokens : List Token := kinds.map (⟨·, ⟨1, 1⟩, [], []⟩)
    let html : Text := "<ol start=\"7\"><li><p>&lt;\na</p></li><li></li></ol>"
    render tokens = .ok html ∧ withoutParagraphTags html = onePass .empty tokens := by
  intro kinds tokens html
  have rendered : render tokens = .ok html := by rfl
  exact ⟨rendered, (render_eq_onePass tokens).2.1 html rendered⟩

end Html
end BlockLint
