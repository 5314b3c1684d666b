import BlockLint.Token
import BlockLint.Violation

/-!
Plugins: machines that see the lines and the tokens of a file and report what they find. A plugin
has a state of its own type, and any call but the first of a file may fail. What a call has changed
in the state stays changed when it fails.
-/
namespace BlockLint

structure Metadata where
  id : Text
  aliases : List Text
  description : Text
deriving Repr, DecidableEq

namespace Metadata

/-- The name is the id or an alias, whatever the case of ASCII letters. -/
def answersTo (info : Metadata) (name : Text) : Bool :=
  Text.sameIgnoringCase info.id name || info.aliases.any (Text.sameIgnoringCase · name)

/-- A finding as a violation of this plugin's rule. The rule goes by the first alias. -/
def violation (info : Metadata) (source : Source) (finding : Finding) : Violation where
  ruleId := Text.upperAscii info.id
  ruleName := info.aliases.headD []
  description := info.description
  position := finding.position
  offset := source.offset? finding.position
  extra := finding.extra

end Metadata

/-- The state that a call leaves, and what was found or a message on what went wrong. -/
abbrev Response (State : Type) := State × Except Text (List Finding)

/-- The response of a call that does not fail. -/
def Response.found {State : Type} (answer : State × List Finding) : Response State :=
  (answer.1, .ok answer.2)

structure Plugin where
  info : Metadata
  wantsLines : Bool := false
  wantsTokens : Bool := false
  State : Type
  state : State
  start : State → State := id
  onLine : State → Nat → Text → Response State := fun state _ _ => (state, .ok [])
  onToken : State → Token → Response State := fun state _ => (state, .ok [])
  onFinish : State → Nat → Response State := fun state _ => (state, .ok [])

/-- What a plugin is called for. `finish` tells the number of lines. -/
inductive Call where
  | start
  | line (number : Nat) (text : Text)
  | token (token : Token)
  | finish (lines : Nat)
deriving Repr, DecidableEq

namespace Call

def action : Call → Text
  | .start => "starting_new_file"
  | .line _ _ => "next_line"
  | .token _ => "next_token"
  | .finish _ => "completed_file"

end Call

namespace Plugin

def withState (plugin : Plugin) (response : Response plugin.State) :
    Plugin × Except Text (List Finding) :=
  ({ plugin with state := response.1 }, response.2)

def respond (plugin : Plugin) : Call → Plugin × Except Text (List Finding)
  | .start => plugin.withState (plugin.start plugin.state, .ok [])
  | .line number text => plugin.withState (plugin.onLine plugin.state number text)
  | .token token => plugin.withState (plugin.onToken plugin.state token)
  | .finish lines => plugin.withState (plugin.onFinish plugin.state lines)

end Plugin
end BlockLint
