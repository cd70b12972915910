/-!
# Packet — what the stations on the door bus say to each other

A packet is a 12-bit opcode with a 32-bit data word.  The opcode's low byte and the parity nibble take the low
byte and bits 12–15 of the word; the rest is the payload:

    31      24 23      16 15  12 11   8 7        0
    |  byte 2  |  byte 1  |parity| value| opcode  |

* `Packet.command` and `Packet.payload` say what is sent for a packet, `Packet.ofParts` reads it back.
* A word that no typed packet describes is kept raw as `Packet.unknown`.
-/

namespace DoorBridge

/-! ## Vocabulary -/

/-- Door position as the opener reports it. -/
inductive DoorState where
  | unknown | opened | closed | stopped | opening | closing
  deriving DecidableEq, Repr, Inhabited

inductive DoorAction where
  | close | raise | toggle | stop
  deriving DecidableEq, Repr

/-- What a light command asks for; two codes ask for a toggle. -/
inductive LightCommand where
  | off | on | toggle | toggle2
  deriving DecidableEq, Repr

inductive LockCommand where
  | off | on | toggle
  deriving DecidableEq, Repr

namespace DoorState

/-- The code of a position inside a status word. -/
def code : DoorState → Nat
  | unknown => 0 | opened => 1 | closed => 2 | stopped => 3 | opening => 4 | closing => 5

/-- The position with a given code; a code without one reads as unknown. -/
def ofCode : Nat → DoorState
  | 1 => opened | 2 => closed | 3 => stopped | 4 => opening | 5 => closing | _ => unknown

/-- Where the door is heading.  A stopped door counts as heading open, since the next press reverses it upward. -/
def target? : DoorState → Option DoorState
  | opened | opening | stopped => some opened
  | closed | closing => some closed
  | unknown => none

def name : DoorState → String
  | unknown => "Unknown" | opened => "Open" | closed => "Closed" | stopped => "Stopped"
  | opening => "Opening" | closing => "Closing"

end DoorState

namespace DoorAction

def code : DoorAction → Nat
  | close => 0 | raise => 1 | toggle => 2 | stop => 3

def ofCode? : Nat → Option DoorAction
  | 0 => some close | 1 => some raise | 2 => some toggle | 3 => some stop | _ => none

def name : DoorAction → String
  | close => "Close" | raise => "Open" | toggle => "Toggle" | stop => "Stop"

end DoorAction

namespace LightCommand

def code : LightCommand → Nat
  | off => 0 | on => 1 | toggle => 2 | toggle2 => 3

def ofCode? : Nat → Option LightCommand
  | 0 => some off | 1 => some on | 2 => some toggle | 3 => some toggle2 | _ => none

def apply : LightCommand → Bool → Bool
  | off, _ => false
  | on, _ => true
  | toggle, level | toggle2, level => !level

/-- The command that sets a level. -/
def ofLevel (level : Bool) : LightCommand := if level then on else off

def name : LightCommand → String
  | off => "Off" | on => "On" | toggle => "Toggle" | toggle2 => "Toggle2"

end LightCommand

namespace LockCommand

def code : LockCommand → Nat
  | off => 0 | on => 1 | toggle => 2

def ofCode? : Nat → Option LockCommand
  | 0 => some off | 1 => some on | 2 => some toggle | _ => none

def apply : LockCommand → Bool → Bool
  | off, _ => false
  | on, _ => true
  | toggle, locked => !locked

/-- The command that sets a lock state. -/
def ofLevel (locked : Bool) : LockCommand := if locked then on else off

def name : LockCommand → String
  | off => "Off" | on => "On" | toggle => "Toggle"

end LockCommand

/-! ## Opcodes -/

/-- The opcodes that have a typed packet. -/
inductive Opcode where
  | getStatus | status | lock | doorAction | light | motion | getOpenings
  deriving DecidableEq, Repr

namespace Opcode

def code : Opcode → UInt16
  | getStatus => 0x080 | status => 0x081 | lock => 0x18c | doorAction => 0x280 | light => 0x281
  | motion => 0x285 | getOpenings => 0x48b

def all : List Opcode := [getStatus, status, lock, doorAction, light, motion, getOpenings]

def ofCode? (c : UInt16) : Option Opcode := all.find? (·.code = c)

/-- The opcodes with a name in log lines. -/
def names : List (UInt16 × String) :=
  [(0x080, "GET_STATUS"), (0x081, "STATUS"), (0x084, "OBST_1"), (0x085, "OBST_2"), (0x0a0, "PAIR_3"),
    (0x0a1, "PAIR_3_RESP"), (0x181, "LEARN_2"), (0x18c, "LOCK"), (0x280, "DOOR_ACTION"), (0x281, "LIGHT"),
    (0x284, "MOTOR_ON"), (0x285, "MOTION"), (0x391, "LEARN_1"), (0x392, "PING"), (0x393, "PING_RESP"),
    (0x400, "PAIR_2"), (0x401, "PAIR_2_RESP"), (0x402, "SET_TTC"), (0x408, "CANCEL_TTC"), (0x40a, "TTC"),
    (0x48b, "GET_OPENINGS"), (0x48c, "OPENINGS")]

/-- The name of any opcode in log lines. -/
def nameOf (c : UInt16) : String := (names.lookup c).getD "UNKNOWN"

end Opcode

/-! ## Packets -/

structure StatusReport where
  door : DoorState
  light : Bool
  lock : Bool
  obstructed : Bool
  learn : Bool
  deriving DecidableEq, Repr

inductive Packet where
  | status (report : StatusReport)
  | getStatus
  | getOpenings
  | doorAction (action : DoorAction) (pressed : Bool) (id : UInt8)
  | light (command : LightCommand) (pressed : Bool)
  | lock (command : LockCommand) (pressed : Bool)
  | motion
  /-- Anything else, kept raw so that it can be logged. -/
  | unknown (command : UInt16) (data : UInt32)
  deriving DecidableEq, Repr

/-- The payload part of a data word: its two high bytes and the value nibble. -/
def payloadPart (data : UInt32) : UInt32 :=
  .ofNat (data.toNat / 0x10000 * 0x10000 + data.toNat / 0x100 % 16 * 0x100)

namespace Packet

def command : Packet → UInt16
  | status _ => Opcode.status.code
  | getStatus => Opcode.getStatus.code
  | getOpenings => Opcode.getOpenings.code
  | doorAction .. => Opcode.doorAction.code
  | light .. => Opcode.light.code
  | lock .. => Opcode.lock.code
  | motion => Opcode.motion.code
  | unknown command _ => command

/-- The data word of a packet, opcode byte and parity nibble left clear. -/
def payload : Packet → UInt32
  | status s => .ofNat (s.door.code * 0x100 + s.obstructed.toNat * 0x400000 + s.lock.toNat * 0x1000000 +
      s.light.toNat * 0x2000000 + s.learn.toNat * 0x20000000)
  | doorAction action pressed id =>
      .ofNat (action.code * 0x100 + pressed.toNat * 0x10000 + id.toNat * 0x1000000)
  | light command pressed => .ofNat (command.code * 0x100 + pressed.toNat * 0x10000)
  | lock command pressed => .ofNat (command.code * 0x100 + pressed.toNat * 0x10000)
  | getStatus | getOpenings | motion => 0
  | unknown _ data => data

/-- The typed packet that a data word describes under an opcode, if there is one. -/
def typed? (opcode : Opcode) (data : UInt32) : Option Packet :=
  let word := data.toNat
  let value := word / 0x100 % 16
  let pressed := word.testBit 16
  match opcode with
  | .status => some (.status
      { door := .ofCode value, light := word.testBit 25, lock := word.testBit 24,
        obstructed := word.testBit 22, learn := word.testBit 29 })
  | .getStatus => some .getStatus
  | .getOpenings => some .getOpenings
  | .motion => some .motion
  | .doorAction => (DoorAction.ofCode? value).map (.doorAction · pressed (.ofNat (word / 0x1000000)))
  | .light => (LightCommand.ofCode? value).map (.light · pressed)
  | .lock => (LockCommand.ofCode? value).map (.lock · pressed)

/-- The packet that an opcode and a data word stand for. -/
def ofParts (command : UInt16) (data : UInt32) : Packet :=
  ((Opcode.ofCode? command).bind (typed? · data)).getD (.unknown command (payloadPart data))

/-- The name of a packet's opcode in log lines. -/
def name (p : Packet) : String := Opcode.nameOf p.command

end Packet

end DoorBridge
