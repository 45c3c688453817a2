import NotificationRelay.Json.Reader
import NotificationRelay.Log
import NotificationRelay.Settings.File
import NotificationRelay.Settings.Layer
import NotificationRelay.Settings.Server

/-! The settings that a server starts with: those of its file, the environment above it, and the
relay's own file above both. -/
namespace NotificationRelay.ServerSettings

def variableMark : String := "relay_server__"

def fileName : String := "relay-server.json"

/-- The members of the settings file. There need not be one, but it holds a table. -/
def ofFile (files : String → Option String) : Option (List (String × Json)) :=
  match files fileName with
  | none => some []
  | some text =>
    match Json.read text.toUTF8.toList with
    | .error _ => none
    | .ok value =>
      match value.canonical with
      | .object members => some members
      | _ => none

def demoKey : String := "demo-key-12345"

def demoWarning : Log.Line :=
  ⟨.warn, "No API keys configured, using demo key '" ++ demoKey ++ "'", []⟩

def admitDemoKey (s : ServerSettings) : ServerSettings × List Log.Line :=
  if s.keys.isEmpty then ({ s with keys := [demoKey] }, [demoWarning]) else (s, [])

/-- Puts the settings of the relay's own file in the place of those that stand here. -/
def readRelayFile (files : String → Option String) (s : ServerSettings) : Option ServerSettings :=
  match s.relayFile with
  | none => some s
  | some name => (RelaySettings.ofFile files name).toOption.map fun relay => { s with relay }

def load (environment : List (String × String)) (files : String → Option String) :
    Option (ServerSettings × List Log.Line) := do
  let layer := Layer.ofEnvironment variableMark ["api_keys"] environment
  let value := Layer.putAll layer (Layer.putAll (← ofFile files) (.object []))
  let s ← readRelayFile files (← shape.take Layer.source value)
  s.check.toOption
  return s.admitDemoKey

end NotificationRelay.ServerSettings
