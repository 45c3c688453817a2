import NotificationRelay.Net.SocketAddress
import NotificationRelay.Settings.Relay

/-! The settings of a server. -/
namespace NotificationRelay

structure ServerSettings where
  address : String
  port : Nat
  timeoutSeconds : UInt64
  bodyMegabytes : Nat
  requestsPerMinute : UInt32
  keys : List String
  anyOrigin : Bool
  logLevel : String
  metrics : Bool
  sessionCapacity : Nat
  relayFile : Option String
  relay : RelaySettings
deriving DecidableEq, Repr

namespace ServerSettings

def default : ServerSettings where
  address := "0.0.0.0"
  port := 8080
  timeoutSeconds := 30
  bodyMegabytes := 1
  requestsPerMinute := 600
  keys := []
  anyOrigin := true
  logLevel := "info"
  metrics := true
  sessionCapacity := 64
  relayFile := none
  relay := .default

/-- Keys are a set: each is kept once. -/
def shape : Shape ServerSettings :=
  .record "ServerConfig"
    (.defaulted "bind_addr" default.address .text <|
      .defaulted "port" default.port (.natural "u16" (greatest 16)) <|
      .defaulted "timeout_secs" default.timeoutSeconds .word <|
      .defaulted "max_body_size_mb" default.bodyMegabytes TransformSettings.size <|
      .defaulted "rate_limit_per_minute" default.requestsPerMinute .halfWord <|
      .defaulted "api_keys" default.keys (.sequence .text) <|
      .defaulted "enable_cors" default.anyOrigin .flag <|
      .defaulted "log_level" default.logLevel .text <|
      .defaulted "metrics_enabled" default.metrics .flag <|
      .defaulted "session_channel_capacity" default.sessionCapacity TransformSettings.size <|
      .nullable "relay_config_path" .text <|
      .defaulted "relay" default.relay RelaySettings.shape .none)
    (fun (address, port, timeout, body, requests, keys, origin, level, metrics, capacity, file,
        relay, ()) =>
      ⟨address, port, timeout, body, requests, keys.eraseDups, origin, level, metrics, capacity,
        file, relay⟩)
    (fun s => (s.address, s.port, s.timeoutSeconds, s.bodyMegabytes, s.requestsPerMinute, s.keys,
      s.anyOrigin, s.logLevel, s.metrics, s.sessionCapacity, s.relayFile, s.relay, ()))

def check (s : ServerSettings) : Except String Unit := do
  if s.sessionCapacity = 0 then throw "session_channel_capacity must be > 0"
  s.relay.check.mapError SettingsFault.message

/-- The greatest length of a request's body, in bytes. -/
def bodyLimit (s : ServerSettings) : Nat := s.bodyMegabytes * twoTo 20 % twoTo 64

def socketAddress (s : ServerSettings) : Option Net.SocketAddress :=
  Net.SocketAddress.parse (s.address ++ ":" ++ toString s.port)

end ServerSettings

end NotificationRelay
