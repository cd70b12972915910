import DoorBridge.Settings
import DoorBridge.Toml

/-!
# Settings.Check — whether a document holds settings the bridge understands

The check goes through the document's tables in the order of their keys and names everything it does not accept.
-/

namespace DoorBridge.Settings

open Toml (Value)

/-- The two sections, each of which has to be a table. -/
def checkSection (name : String) (v : Value) : List String :=
  if name = "bridge" ∨ name = "motion_triggers" then
    match v with
    | .table .. => []
    | _ => [s!"[{name}] must be a table"]
  else [s!"unknown section or key '{name}'"]

/-- One entry of the section `[bridge]`. -/
def checkBridge (key : String) (v : Value) : List String :=
  let expecting (ok : Bool) (complaint : String) : List String := if ok then [] else ["[bridge] " ++ complaint]
  match key with
  | "security_type" =>
    expecting (match v with
      | .integer n => n = 1 || n = 2
      | .string s => ["sec1", "sec2", "secplus1", "secplus2"].contains s
      | _ => false) "security_type must be 1 or 2"
  | "ttc_seconds" =>
    expecting (match v with
      | .integer n => 0 ≤ n && n < 0x100
      | _ => false) "ttc_seconds must be 0-255"
  | "sec1_door_debounce" =>
    expecting (match v with
      | .boolean _ => true
      | _ => false) "sec1_door_debounce must be true or false"
  | "force_recover_delay_ms" =>
    expecting (match v with
      | .integer n => 0 ≤ n && n < 0x100000000
      | _ => false) "force_recover_delay_ms must be a positive integer"
  | "led_idle" =>
    expecting (match v with
      | .string s => ["off", "on", "disabled"].contains s
      | _ => false) "led_idle must be 'off', 'on' or 'disabled'"
  | _ => expecting false s!"unknown key '{key}'"

/-- One entry of the section `[motion_triggers]`. -/
def checkTrigger (key : String) (v : Value) : List String :=
  if MotionTrigger.all.all (·.key ≠ key) then [s!"[motion_triggers] unknown trigger '{key}'"]
  else match v with
    | .boolean _ => []
    | _ => [s!"[motion_triggers] {key} must be true or false"]

/-- What an entry check finds in a table; anything else is not looked into. -/
def checkEntries (check : String → Value → List String) (v : Option Value) : List String :=
  ((v.bind Value.entries?).getD []).flatMap fun (key, v) => check key v

/-- Everything that a document holds and the bridge does not accept. -/
def check (document : Value) : List String :=
  checkEntries checkSection (some document) ++ checkEntries checkBridge (document.get? "bridge") ++
    checkEntries checkTrigger (document.get? "motion_triggers")

end DoorBridge.Settings
