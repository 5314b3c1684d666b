import BlockLint.Text

/-!
Patterns for paths. `?` stands for a character, `*` for a run of characters, `[...]` for one of
some characters and `[!...]` for one of the others, none of them a slash. `**` fills a whole
component and stands for any chain of folders.
-/
namespace BlockLint

/-- The characters from `low` to `high`. -/
structure CharRange where
  low : Char
  high : Char
deriving Repr, DecidableEq

def CharRange.contains (range : CharRange) (c : Char) : Bool :=
  range.low ≤ c && c ≤ range.high

namespace Glob

inductive Part where
  | char (c : Char)
  | anyChar
  | anyRun
  | anyFolders
  | oneOf (ranges : List CharRange)
  | noneOf (ranges : List CharRange)
deriving Repr, DecidableEq

end Glob

structure Glob where
  parts : List Glob.Part
deriving Repr, DecidableEq

inductive GlobFault where
  | tooManyStars
  | partialComponent
  | openBracket
deriving Repr, DecidableEq

structure GlobError where
  position : Nat
  fault : GlobFault
deriving Repr, DecidableEq

def GlobFault.message : GlobFault → Text
  | .tooManyStars => "wildcards are either regular `*` or recursive `**`"
  | .partialComponent => "recursive wildcards must form a single path component"
  | .openBracket => "invalid range pattern"

def GlobError.message (e : GlobError) : Text :=
  "Pattern syntax error near position " ++ Text.ofNat e.position ++ ": " ++ e.fault.message

namespace Glob

/-- What stands in brackets and what follows them. The first character counts as inside, so it may
be the closing bracket itself. -/
def bracketed? : Text → Option (Text × Text)
  | [] => none
  | first :: rest =>
    match rest.dropWhile (· != ']') with
    | [] => none
    | _ :: after => some (first :: rest.takeWhile (· != ']'), after)

theorem bracketed?_length_lt {text inside after : Text}
    (found : bracketed? text = some (inside, after)) : after.length < text.length := by
  cases text with
  | nil => simp [bracketed?] at found
  | cons first rest =>
    have shorter := (List.dropWhile_suffix (· != ']') (l := rest)).length_le
    cases seen : rest.dropWhile (· != ']') with
    | nil => simp [bracketed?, seen] at found
    | cons closing tail =>
      obtain ⟨_, rfl⟩ : first :: rest.takeWhile (· != ']') = inside ∧ tail = after := by
        simpa [bracketed?, seen] using found
      simp only [seen, List.length_cons] at shorter ⊢
      omega

/-- A dash between two characters makes a range. -/
def ranges : Text → List CharRange
  | first :: '-' :: last :: rest => ⟨first, last⟩ :: ranges rest
  | c :: rest => ⟨c, c⟩ :: ranges rest
  | [] => []

/-- The pattern starts here, or a component does. -/
def startsComponent (previous : Option Char) : Bool :=
  previous == none || previous == some '/'

/-- The parts of a pattern that is read from `position` on, after the character `previous`. -/
def parseFrom (position : Nat) (previous : Option Char) (text : Text) :
    Except GlobError (List Part) :=
  match text with
  | [] => .ok []
  | '*' :: '*' :: '*' :: _ => .error ⟨position + 2, .tooManyStars⟩
  | '*' :: '*' :: rest =>
    if !startsComponent previous then .error ⟨position - 1, .partialComponent⟩
    else
      match rest with
      | [] => .ok [.anyFolders]
      | '/' :: after => (parseFrom (position + 3) (some '/') after).map (.anyFolders :: ·)
      | _ => .error ⟨position + 2, .partialComponent⟩
  | '*' :: rest => (parseFrom (position + 1) (some '*') rest).map (.anyRun :: ·)
  | '?' :: rest => (parseFrom (position + 1) (some '?') rest).map (.anyChar :: ·)
  | '[' :: '!' :: rest =>
    match _found : bracketed? rest with
    | none => .error ⟨position, .openBracket⟩
    | some (inside, after) =>
      (parseFrom (position + inside.length + 3) (some ']') after).map (.noneOf (ranges inside) :: ·)
  | '[' :: rest =>
    match _found : bracketed? rest with
    | none => .error ⟨position, .openBracket⟩
    | some (inside, after) =>
      (parseFrom (position + inside.length + 2) (some ']') after).map (.oneOf (ranges inside) :: ·)
  | c :: rest => (parseFrom (position + 1) (some c) rest).map (.char c :: ·)
termination_by text.length
decreasing_by
  all_goals simp only [List.length_cons]
  all_goals first
    | omega
    | (have shorter := bracketed?_length_lt ‹_›; omega)

def parse (text : Text) : Except GlobError Glob :=
  (parseFrom 0 none text).map (⟨·⟩)

/-- An answer for each end of a text, from the whole text to the empty one. -/
abbrev Ends := List Bool

/-- The answer for the whole text. -/
def Ends.whole (ends : Ends) : Bool :=
  ends.headD false

/-- The ends that start with such a character and go on with one of `ends`. -/
def Ends.afterChar (p : Char → Bool) : Text → Ends → Ends
  | c :: text, _ :: later => (p c && Ends.whole later) :: Ends.afterChar p text later
  | _, _ => [false]

/-- The ends that start with a run of characters of one component and go on with one of `ends`. -/
def Ends.afterRun : Text → Ends → Ends
  | c :: text, here :: later =>
    let shorter := Ends.afterRun text later
    (here || (c != '/' && Ends.whole shorter)) :: shorter
  | _, ends => ends

/-- The ends that go on with one of `ends` after a slash, or at the end of the text. -/
def Ends.afterSlash : Text → Ends → Ends
  | c :: text, _ :: later =>
    let shorter := Ends.afterSlash text later
    ((c == '/' && Ends.whole later) || Ends.whole shorter) :: shorter
  | _, ends => ends

/-- The ends that start with some folders, or are all folders, and go on with one of `ends`. -/
def Ends.afterFolders (text : Text) (ends : Ends) : Ends :=
  List.zipWith (· || ·) ends (Ends.afterSlash text ends)

/-- The ends that the part matches, together with one of `ends` after it. -/
def Part.before (part : Part) (text : Text) (ends : Ends) : Ends :=
  match part with
  | .char c => Ends.afterChar (· == c) text ends
  | .anyChar => Ends.afterChar (· != '/') text ends
  | .anyRun => Ends.afterRun text ends
  | .anyFolders => Ends.afterFolders text ends
  | .oneOf ranges => Ends.afterChar (fun d => d != '/' && ranges.any (·.contains d)) text ends
  | .noneOf ranges => Ends.afterChar (fun d => d != '/' && !ranges.any (·.contains d)) text ends

/-- The ends of the text that the parts match. Each part looks once at each of them, so the work
is the product of the two lengths. -/
def matchingEnds (parts : List Part) (text : Text) : Ends :=
  parts.foldr (fun part ends => part.before text ends) (text.map (fun _ => false) ++ [true])

def isMatch (glob : Glob) (text : Text) : Bool :=
  Ends.whole (matchingEnds glob.parts text)

end Glob
end BlockLint
