import NotificationRelay.Admission.Limits

/-! The settings of a relay: its limits, and how much it remembers and logs. -/
namespace NotificationRelay

structure TransformSettings where
  samples : Nat
  excerpt : Nat
deriving DecidableEq, Repr

namespace TransformSettings

def default : TransformSettings := ⟨1000, 200⟩

def size : Shape Nat := .natural "usize" (greatest 64)

def shape : Shape TransformSettings :=
  .record "TransformConfig"
    (.defaulted "latency_sample_capacity" default.samples size <|
      .defaulted "max_logged_payload_chars" default.excerpt size .none)
    (fun (samples, excerpt, ()) => ⟨samples, excerpt⟩)
    (fun s => (s.samples, s.excerpt, ()))

def check (s : TransformSettings) : Except String Unit :=
  if s.samples = 0 then .error "latency_sample_capacity must be > 0"
  else if s.excerpt < 32 then .error "max_logged_payload_chars must be >= 32"
  else .ok ()

def invalid (reason : String) : String := "invalid transform configuration: " ++ reason

end TransformSettings

structure RelaySettings where
  version : String
  name : Option String
  limits : Limits
  transform : TransformSettings
deriving DecidableEq, Repr

inductive SettingsFault where
  | noFile
  | unreadable
  | invalid (reason : String)
  | unsupported (version : String)
deriving DecidableEq, Repr

def SettingsFault.message : SettingsFault → String
  | .noFile => "failed to read config file"
  | .unreadable => "failed to parse YAML"
  | .invalid reason => "validation error: " ++ reason
  | .unsupported version => "unsupported config version: " ++ version

namespace RelaySettings

def default : RelaySettings := ⟨"1.0", none, .default, .default⟩

def shape : Shape RelaySettings :=
  .record "RelayConfig"
    (.defaulted "version" default.version .text <|
      .nullable "name" .text <|
      .defaulted "admission" default.limits Limits.shape <|
      .defaulted "transform" default.transform TransformSettings.shape .none)
    (fun (version, name, limits, transform, ()) => ⟨version, name, limits, transform⟩)
    (fun s => (s.version, s.name, s.limits, s.transform, ()))

def versions : List String := ["1.0", "1"]

def check (s : RelaySettings) : Except SettingsFault Unit := do
  if s.version ∉ versions then throw (.unsupported s.version)
  s.limits.check.mapError fun reason => .invalid (Limits.invalid reason)
  s.transform.check.mapError fun reason => .invalid (TransformSettings.invalid reason)

end RelaySettings

end NotificationRelay
