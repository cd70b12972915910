import DoorBridge.Settings.Binary
import DoorBridge.Settings.Text
import DoorBridge.Notification

/-!
# Settings.Load — settings at boot

Text in the store wins over the binary record; the settings built into the image come last.  Every step is
logged.
-/

namespace DoorBridge

/-- Room for settings text read from the store. -/
def maxTextSize : Nat := 1024

namespace Settings

/-- The settings text built into the image. -/
def shipped : String :=
  "[bridge]\nsecurity_type = 2\nttc_seconds = 0\nsec1_door_debounce = true\nforce_recover_delay_ms = 3000\n" ++
  "led_idle = \"off\"\n\n[motion_triggers]\nmotion = false\nobstruction = false\nlight_key = false\n" ++
  "door_key = false\nlock_key = false\n"

/-- The records that sum up loaded settings. -/
def summary (s : Settings) : List Event :=
  [.info s!"  security type {s.security.name}", .info s!"  time to close {s.ttcSeconds.toNat} s",
    .debug s!"  motion triggers {hexText s.motionTriggers.bits.toNat}",
    .debug s!"  recovery window {s.recoveryWindow.toNat} ms", .debug s!"  led idle {s.ledIdle.name}"]

section Loading

variable {σ : Type} [Storage σ]

/-- What decoding a record logs when it fails. -/
def failureEvents : SettingsError → List Event
  | .versionMismatch found =>
    [.warn s!"Config version mismatch: found {found.toNat}, expected {settingsVersion.toNat}"]
  | _ => []

/-- Settings read from one record, with what reading it logs. -/
def loadRecord (store : σ) (key : StorageKey) (room : Nat) (kind : String)
    (decode : List UInt8 → Except SettingsError Settings) : Except SettingsError Settings × List Event :=
  match Storage.read store key room with
  | .error cause => (.error (.storage cause), [])
  | .ok bytes =>
    let read := .debug s!"Read {bytes.length} bytes of {kind} from flash"
    match decode bytes with
    | .ok s => (.ok s, read :: s.summary)
    | .error cause => (.error cause, read :: failureEvents cause)

/-- Settings from the store: text first, then the binary record. -/
def load (store : σ) : Except SettingsError Settings × List Event :=
  let opening := .info "Loading configuration from flash..."
  match loadRecord store .configToml maxTextSize "TOML" ofText with
  | (.ok s, events) => (.ok s, opening :: events ++ [.info "Loaded configuration from TOML"])
  | (.error cause, events) =>
    let failed := match cause with
      | .storage .notFound => .debug "No TOML config found, trying binary format"
      | _ => .warn s!"Failed to load TOML config: {cause.text}, trying binary"
    let binary := loadRecord store .config maxSettingsSize "binary config" ofBytes
    (binary.1, opening :: events ++ [failed] ++ binary.2)

end Loading

/-- The settings built into an image with a given text; text that does not parse counts as empty. -/
def embedded (text : String) : Settings × List Event :=
  match ofText text.toUTF8.data.toList with
  | .ok s => (s, [.info "Parsed embedded configuration successfully"])
  | .error cause =>
    ({}, [.error s!"Failed to parse embedded config: {cause.text}", .error "Using built-in defaults"])

def boot {σ : Type} [Storage σ] (store : σ) : Settings × List Event :=
  match load store with
  | (.ok s, events) => (s, events ++ [.info "Loaded configuration from flash"])
  | (.error _, events) =>
    let (s, later) := embedded shipped
    (s, events ++ [.info "No valid configuration in flash, using embedded defaults"] ++ later ++ s.summary)

end Settings

end DoorBridge
