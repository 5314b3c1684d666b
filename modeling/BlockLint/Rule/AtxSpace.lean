import BlockLint.Plugin
import BlockLint.Text.WhiteSpace

/-!
No paragraph line looks like a heading that lacks the space after its hashes.
-/
namespace BlockLint.Rule

/-- One to six hashes, and then a character that is neither a hash nor white space. -/
def lacksSpace (text : Text) : Bool :=
  let hashes := (text.takeWhile (· == '#')).length
  1 ≤ hashes && hashes ≤ 6 &&
    match text.drop hashes with
    | c :: _ => !Text.isWhiteSpace c
    | [] => false

/-- The state tells whether a paragraph is open. -/
def atxSpaceToken (inParagraph : Bool) (token : Token) : Bool × List Finding :=
  match token.kind with
  | .leafStart .paragraph => (true, [])
  | .leafEnd _ _ => (false, [])
  | .leafContent text _ =>
    (inParagraph, if inParagraph && lacksSpace text then [⟨token.position, some text⟩] else [])
  | _ => (inParagraph, [])

def atxSpace : Plugin where
  info :=
    { id := "md018", aliases := ["no-missing-space-atx"]
      description := "No space after hash on atx style heading" }
  wantsTokens := true
  State := Bool
  state := false
  start _ := false
  onToken inParagraph token := .found (atxSpaceToken inParagraph token)

end BlockLint.Rule
