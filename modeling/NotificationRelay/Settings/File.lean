import NotificationRelay.Settings.Relay
import NotificationRelay.Yaml.Source

/-! Settings of a relay in YAML files. -/
namespace NotificationRelay.RelaySettings

def ofText (text : String) : Except SettingsFault RelaySettings :=
  match Yaml.read? shape text with
  | none => .error .unreadable
  | some s => s.check.map fun () => s

def ofFile (files : String → Option String) (name : String) : Except SettingsFault RelaySettings :=
  match files name with
  | none => .error .noFile
  | some text => ofText text

theorem check_of_ofText {text : String} {s : RelaySettings} (found : ofText text = .ok s) :
    s.check = .ok () := by
  unfold ofText at found
  split at found
  · simp at found
  · next held _ =>
    cases valid : held.check with
    | error fault => simp [valid, Except.map] at found
    | ok => simp_all [Except.map]

end NotificationRelay.RelaySettings
