import ChatHub.Settings.Basic
import ChatHub.Toml.Document
/-!
# Settings from a document

A document names the settings it wants to change; the others keep their standard values, and names
that mean nothing are ignored. A value of the wrong type, or out of the range of its field, spoils
the document as much as a text that is none.

The monitor's settings are a table, or for short a list with up to two values in the order of the
fields.
-/

namespace ChatHub

/-- Why a text gives no settings. -/
inductive SettingsError where
  /-- The text is no document, or a value does not fit its field. -/
  | unreadable
  | senseless (fault : SettingsFault)
deriving Repr, DecidableEq

namespace SettingsError

/-- The text of the error. -/
def message : SettingsError → String
  | unreadable => "Failed to parse TOML"
  | senseless fault => fault.message

end SettingsError

namespace Settings

open Toml

/-- A text field; `standard` when it is not named. -/
def textField (fields : Fields) (name standard : String) : Option String :=
  match fields.lookup name with
  | none => some standard
  | some (.text s) => some s
  | some _ => none

/-- The value of a number below `bound`. -/
def numberBelow (bound : Nat) : Value → Option Nat
  | .integer n => if 0 ≤ n ∧ n < bound then some n.toNat else none
  | _ => none

/-- A number field below `bound`; `standard` when it is not named. -/
def numberField (fields : Fields) (bound : Nat) (name : String) (standard : Nat) : Option Nat :=
  match fields.lookup name with
  | none => some standard
  | some v => numberBelow bound v

/-- A port number has 16 bits. -/
def portBound : Nat := 65536

/-- The number of clients has 32 bits. -/
def clientsBound : Nat := 4294967296

/-- Every other number has 64 bits. -/
def numberBound : Nat := 18446744073709551616

/-- The truth of a value. -/
def truth : Value → Option Bool
  | .flag b => some b
  | _ => none

/-- The monitor's settings, written as a table or as a list. -/
def readMonitor : Value → Option MonitorSettings
  | .table fields => do
    let enabled ← match fields.lookup "enabled" with
      | none => some MonitorSettings.standard.enabled
      | some v => truth v
    let port ← numberField fields portBound "port" MonitorSettings.standard.port
    if Value.fieldsReadable fields then some { enabled, port } else none
  | .list [] => some .standard
  | .list [v] => do return { MonitorSettings.standard with enabled := ← truth v }
  | .list (v :: w :: _) => do return { enabled := ← truth v, port := ← numberBelow portBound w }
  | _ => none

/-- The monitor's settings; the standard ones when they are not named. -/
def monitorField (fields : Fields) : Option MonitorSettings :=
  match fields.lookup "metrics" with
  | none => some .standard
  | some v => readMonitor v

/-- The settings that the fields of a document name. -/
def ofFields (fields : Fields) : Option Settings := do
  let host ← textField fields "host" standard.host
  let port ← numberField fields portBound "port" standard.port
  let logLevel ← textField fields "log_level" standard.logLevel
  let maxClients ← numberField fields clientsBound "max_clients" standard.maxClients
  let word := numberField fields numberBound
  let poolSize ← word "pool_size" standard.poolSize
  let cacheCapacity ← word "cache_capacity" standard.cacheCapacity
  let maxUserBytes ← word "max_username_len" standard.maxUserBytes
  let maxPayloadBytes ← word "max_payload_len" standard.maxPayloadBytes
  let timeQuantumMs ← word "time_quantum_ms" standard.timeQuantumMs
  let readTimeoutMs ← word "read_timeout_ms" standard.readTimeoutMs
  let mailboxSize ← word "outbound_queue_len" standard.mailboxSize
  let monitor ← monitorField fields
  if Value.fieldsReadable (fields.filter (·.1 != "metrics")) then
    some { host, port, logLevel, maxClients, poolSize, cacheCapacity, maxUserBytes,
           maxPayloadBytes, timeQuantumMs, readTimeoutMs, mailboxSize, monitor }
  else none

/-- The settings that a text gives. -/
def ofText (text : String) : Except SettingsError Settings :=
  match (parse? text).bind ofFields with
  | none => .error .unreadable
  | some s =>
    match s.validate with
    | .error fault => .error (.senseless fault)
    | .ok () => .ok s

end Settings

end ChatHub
