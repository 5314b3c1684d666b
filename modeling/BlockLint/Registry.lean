import BlockLint.Plugin

/-!
The registered plugins and the scan of a file by those that are enabled.

`schedule` lists the calls that a scan makes if none fails. `scan` makes them in that order and
stops at the first failure. It leaves every plugin as its calls did, the one that failed included.
-/
namespace BlockLint

inductive PluginError where
  | hookFailed (id action reason : Text)
  | duplicateId (id : Text)
  | unknownRule (name : Text)
deriving Repr, DecidableEq

namespace PluginError

def message : PluginError → Text
  | .hookFailed id action reason =>
    "Plugin " ++ id ++ " failed during " ++ action ++ ": " ++ reason
  | .duplicateId id => "Plugin id already registered: " ++ id
  | .unknownRule name => "Unknown rule: " ++ name

end PluginError

structure Registered where
  plugin : Plugin
  enabled : Bool

/-- The plugins in the order of their registration. -/
structure Registry where
  plugins : List Registered

namespace Registry

def empty : Registry :=
  ⟨[]⟩

def metadata (registry : Registry) : List Metadata :=
  registry.plugins.map (·.plugin.info)

def enabled (registry : Registry) : List Metadata :=
  (registry.plugins.filter (·.enabled)).map (·.plugin.info)

def register (registry : Registry) (plugin : Plugin) : Except PluginError Registry :=
  if registry.plugins.any (fun r => decide (r.plugin.info.id = plugin.info.id)) then
    .error (.duplicateId plugin.info.id)
  else .ok ⟨registry.plugins ++ [⟨plugin, true⟩]⟩

/-- Disables the first plugin that satisfies `p`. -/
def disableFirst (p : Plugin → Bool) : List Registered → List Registered
  | [] => []
  | r :: rest =>
    if p r.plugin then { r with enabled := false } :: rest else r :: disableFirst p rest

def disable (registry : Registry) (name : Text) : Except PluginError Registry :=
  if registry.plugins.any (fun r => r.plugin.info.answersTo name) then
    .ok ⟨disableFirst (fun plugin => plugin.info.answersTo name) registry.plugins⟩
  else .error (.unknownRule name)

/-- The indices of the enabled plugins that satisfy `wants`, in order. -/
def subscribers (registry : Registry) (wants : Plugin → Bool) : List Nat :=
  (registry.plugins.zipIdx.filter fun (r, _) => r.enabled && wants r.plugin).map (·.2)

def lineSubscribers (registry : Registry) : List Nat :=
  registry.subscribers (·.wantsLines)

def tokenSubscribers (registry : Registry) : List Nat :=
  registry.subscribers (·.wantsTokens)

/-- All calls of a scan: first every enabled plugin starts, then each line goes to its subscribers,
then each token, and at last every enabled plugin finishes. -/
def schedule (registry : Registry) (source : Source) (tokens : List Token) : List (Nat × Call) :=
  let everyone := registry.subscribers fun _ => true
  everyone.map (·, .start) ++
    source.lines.flatMap (fun line =>
      registry.lineSubscribers.map (·, .line line.number line.text)) ++
    tokens.flatMap (fun token => registry.tokenSubscribers.map (·, .token token)) ++
    everyone.map (·, .finish source.length)

/-- A scan: the plugins as it left them, the number of calls that succeeded, and the violations or
the failure. -/
structure Scan where
  registry : Registry
  completed : Nat
  outcome : Except PluginError (List Violation)

/-- Makes the calls in order, given how many succeeded and what was found before. -/
def perform (source : Source) (plugins : List Registered) (completed : Nat)
    (found : List Violation) : List (Nat × Call) → Scan
  | [] => ⟨⟨plugins⟩, completed, .ok (Violation.sort found)⟩
  | (index, call) :: rest =>
    match plugins[index]? with
    | none => perform source plugins (completed + 1) found rest
    | some registered =>
      let info := registered.plugin.info
      let response := registered.plugin.respond call
      let plugins := plugins.set index { registered with plugin := response.1 }
      match response.2 with
      | .error reason =>
        ⟨⟨plugins⟩, completed, .error (.hookFailed info.id call.action reason)⟩
      | .ok findings =>
        perform source plugins (completed + 1)
          (found ++ findings.map (info.violation source)) rest

def scan (registry : Registry) (source : Source) (tokens : List Token) : Scan :=
  perform source registry.plugins 0 [] (registry.schedule source tokens)

end Registry
end BlockLint
