import ChatHub.Host
import ChatHub.Settings.Reading
/-!
# The server program

The program finds its settings, and either says why it cannot serve or serves. The order is fixed: a
question for the version is answered before anything is looked at; then the settings are read, from
the file that is named or from the standard file if there is one; then a port on the command line
replaces the one that was read; then the settings are looked at as a whole; and last the address is
claimed.
-/

namespace ChatHub

/-! ## The program -/

/-- Why the program does not serve. -/
inductive StartFault where
  | configWithoutPath
  | unreadable (path : String) (why : FileFault)
  | invalid (path : String) (why : SettingsError)
  | portWithoutNumber
  | badPort (raw : String)
  | senseless (why : SettingsFault)
  | address (port : Nat) (why : AddressFault)
deriving Repr, DecidableEq

namespace StartFault

/-- What the program says about the fault. Only the last kind comes up after the program has
started to work, so it is reported as an error with its cause. -/
def message : StartFault → String
  | configWithoutPath => "--config flag requires a value\n"
  | unreadable path why =>
    "Failed to load configuration from \"" ++ path ++ "\": Failed to read config file at '" ++ path
      ++ "': " ++ why.message ++ "\n"
  | invalid path why =>
    "Failed to load configuration from \"" ++ path ++ "\": Invalid config in '" ++ path ++ "': "
      ++ why.message ++ "\n"
  | portWithoutNumber => "--port flag requires a value\n"
  | badPort raw => "Invalid port number: " ++ raw ++ "\n"
  | senseless why => "Invalid configuration: " ++ why.message ++ "\n"
  | address port why =>
    "Error: " ++ why.attempt ++ ":" ++ toString port ++ "\n\nCaused by:\n    " ++ why.message
      ++ "\n"

end StartFault

/-- What the program does. -/
inductive Start where
  | version
  | fails (why : StartFault)
  | serves (settings : Settings) (address : Address)
deriving Repr, DecidableEq

namespace CommandLine

/-- What the program says when it is asked for its version. -/
def versionText : String := "ChatRelay version 1.2.0\n"

/-- The file that holds the settings if none is named. -/
def standardPath : String := "config.toml"

/-- What follows the first occurrence of a flag: nothing if the flag is not there, and nothing in it
if the flag comes last. -/
def valueOf (flag : String) : List String → Option (Option String)
  | [] => none
  | arg :: rest => if arg = flag then some rest.head? else valueOf flag rest

/-- The settings in a file. -/
def load (h : HostView) (path : String) : Except StartFault Settings :=
  match h.read path with
  | .error why => .error (.unreadable path why)
  | .ok text =>
    match Settings.ofText text with
    | .error why => .error (.invalid path why)
    | .ok s => .ok s

/-- The settings before the command line changes them. -/
def settings (h : HostView) (args : List String) : Except StartFault Settings :=
  match valueOf "--config" args with
  | some (some path) => load h path
  | some none => .error .configWithoutPath
  | none =>
    if (h.files.lookup standardPath).isSome then load h standardPath else .ok .standard

/-- The settings with the port of the command line. -/
def withPort (args : List String) (s : Settings) : Except StartFault Settings :=
  match valueOf "--port" args with
  | none => .ok s
  | some none => .error .portWithoutNumber
  | some (some raw) =>
    match Numeral.port? raw with
    | some port => .ok { s with port }
    | none => .error (.badPort raw)

/-- Settings that make sense, and the address that they name. -/
def prepare (h : HostView) (args : List String) : Except StartFault (Settings × Address) := do
  let s ← settings h args
  let s ← withPort args s
  match s.validate with
  | .error why => throw (.senseless why)
  | .ok () =>
    match h.claim s.host s.port with
    | .error why => throw (.address s.port why)
    | .ok address => return (s, address)

/-- What the program does with its arguments. -/
def start (h : HostView) (args : List String) : Start :=
  if args.contains "--version" then .version
  else
    match prepare h args with
    | .error why => .fails why
    | .ok (s, address) => .serves s address

end CommandLine

end ChatHub
