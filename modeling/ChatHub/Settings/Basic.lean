import ChatHub.Text.Blank
import ChatHub.Record.Basic
/-!
# Settings

What a relay can be told: where to listen, how many sessions to serve at once, how much to remember,
and how long texts may be. `Settings.validate` says which settings make sense; it looks at them in a
fixed order and reports the first fault. Settings that make sense can still be unwise, which is a
warning and not a fault.
-/

namespace ChatHub

/-- Whether and where the monitoring counters are served. -/
structure MonitorSettings where
  enabled : Bool
  port : Nat
deriving Repr, DecidableEq

/-- The settings of a relay. -/
structure Settings where
  host : String
  port : Nat
  logLevel : String
  /-- How many connections may wait to be accepted. -/
  maxClients : Nat
  /-- How many sessions are served at once. -/
  poolSize : Nat
  cacheCapacity : Nat
  maxUserBytes : Nat
  maxPayloadBytes : Nat
  timeQuantumMs : Nat
  readTimeoutMs : Nat
  /-- How many records may wait for one client. -/
  mailboxSize : Nat
  monitor : MonitorSettings
deriving Repr, DecidableEq

namespace MonitorSettings

/-- The counters are not served. -/
def standard : MonitorSettings := { enabled := false, port := 9090 }

end MonitorSettings

/-- What makes settings senseless. -/
inductive SettingsFault where
  | noPort
  | noHost
  | noClients
  | noWorkers
  | noCache
  | noQuantum
  | noTimeout
  | noMailbox
  | userLimit
  | payloadLimit
  | portsCollide
deriving Repr, DecidableEq

namespace SettingsFault

/-- The text of a fault. -/
def message : SettingsFault → String
  | noPort => "port cannot be 0"
  | noHost => "host cannot be empty"
  | noClients => "max_clients cannot be 0"
  | noWorkers => "pool_size must be positive"
  | noCache => "cache_capacity must be positive"
  | noQuantum => "time_quantum_ms must be positive"
  | noTimeout => "read_timeout_ms must be positive"
  | noMailbox => "outbound_queue_len must be positive"
  | userLimit => "max_username_len must be between 1 and " ++ toString maxSenderBytes
  | payloadLimit => "max_payload_len must be between 1 and " ++ toString ChatHub.maxPayloadBytes
  | portsCollide => "metrics.port cannot equal the chat port"

end SettingsFault

namespace Settings

/-- The settings of a relay that was told nothing. -/
def standard : Settings :=
  { host := "0.0.0.0"
    port := 8080
    logLevel := "info"
    maxClients := 50
    poolSize := 6
    cacheCapacity := 10
    maxUserBytes := maxSenderBytes
    maxPayloadBytes := ChatHub.maxPayloadBytes
    timeQuantumMs := 100
    readTimeoutMs := 1000
    mailboxSize := 64
    monitor := .standard }

/-- Every rule that settings have to keep, in the order in which they are looked at: the fault and
whether it is there. -/
def checks (s : Settings) : List (SettingsFault × Bool) :=
  [ (.noPort, s.port == 0),
    (.noHost, s.host.toList.all Text.isBlank),
    (.noClients, s.maxClients == 0),
    (.noWorkers, s.poolSize == 0),
    (.noCache, s.cacheCapacity == 0),
    (.noQuantum, s.timeQuantumMs == 0),
    (.noTimeout, s.readTimeoutMs == 0),
    (.noMailbox, s.mailboxSize == 0),
    (.userLimit, s.maxUserBytes == 0 || maxSenderBytes < s.maxUserBytes),
    (.payloadLimit, s.maxPayloadBytes == 0 || ChatHub.maxPayloadBytes < s.maxPayloadBytes),
    (.portsCollide, s.monitor.enabled && s.monitor.port == s.port) ]

/-- The first fault of the settings, if there is one. -/
def validate (s : Settings) : Except SettingsFault Unit :=
  match s.checks.find? (·.2) with
  | some (fault, _) => .error fault
  | none => .ok ()

/-- What is unwise about settings that make sense. -/
def warnings (s : Settings) : List String :=
  if s.maxClients < s.poolSize then
    [ "pool_size (" ++ toString s.poolSize ++ ") exceeds max_clients (" ++ toString s.maxClients
        ++ "); the listen backlog will fill before the pool does." ]
  else []

end Settings

end ChatHub
