import DoorBridge.Packet

/-!
# Notification — what the bridge tells the outside

The engine reports every visible change as a `Notification` and writes log records on the way.  Both form one
ordered row of `Event`s.
-/

namespace DoorBridge

inductive RestartReason where
  /-- The manual recovery sequence: restart into setup. -/
  | softAp
  /-- The identity was cleared and has to be made anew. -/
  | reset
  deriving DecidableEq, Repr

def RestartReason.name : RestartReason → String
  | softAp => "SoftAp" | reset => "Reset"

inductive Notification where
  | currentDoor (state : DoorState)
  | targetDoor (state : DoorState)
  /-- The first status reply was seen: the opener is connected. -/
  | active
  | currentLock (locked : Bool)
  | targetLock (locked : Bool)
  | light (on : Bool)
  | motion (detected : Bool)
  | obstruction (obstructed : Bool)
  | motionSensorDiscovered (rebootRequired : Bool)
  | restartRequested (reason : RestartReason)
  deriving DecidableEq, Repr

def Notification.text : Notification → String
  | currentDoor s => s!"CurrentDoorState({s.name})"
  | targetDoor s => s!"TargetDoorState({s.name})"
  | active => "Active"
  | currentLock b => s!"CurrentLock({b})"
  | targetLock b => s!"TargetLock({b})"
  | light b => s!"Light({b})"
  | motion b => s!"Motion({b})"
  | obstruction b => s!"Obstruction({b})"
  | motionSensorDiscovered b => s!"MotionSensorDiscovered \x7b reboot_required: {b} \x7d"
  | restartRequested r => s!"RestartRequested({r.name})"

inductive LogLevel where
  | error | warn | info | debug | trace
  deriving DecidableEq, Repr

def LogLevel.name : LogLevel → String
  | error => "ERROR" | warn => "WARN" | info => "INFO" | debug => "DEBUG" | trace => "TRACE"

/-- One thing reported while the bridge works. -/
inductive Event where
  | note (n : Notification)
  | log (level : LogLevel) (text : String)
  deriving DecidableEq, Repr

namespace Event

def notification? : Event → Option Notification
  | note n => some n
  | log .. => none

/-- The notifications of a row of events, in order. -/
def notifications (events : List Event) : List Notification := events.filterMap notification?

def error (text : String) : Event := .log .error text

def warn (text : String) : Event := .log .warn text

def info (text : String) : Event := .log .info text

def debug (text : String) : Event := .log .debug text

def trace (text : String) : Event := .log .trace text

end Event

/-- A number as log lines spell it in base sixteen. -/
def hexText (n : Nat) : String := "0x" ++ String.ofList (Nat.toDigits 16 n)

/-! ## Publishing -/

/-- Notifications that the channel to their consumer holds at most. -/
def channelCapacity : Nat := 16

/-- The publishing side of the notification channel, which also remembers a restart request. -/
structure Publisher where
  restart? : Option RestartReason := none
  channel : List Notification := []
  deriving DecidableEq, Repr

namespace Publisher

/-- Remembers a restart request and puts the notification on the channel, unless it is full. -/
def publish (p : Publisher) (n : Notification) : Publisher where
  restart? := match n with
    | .restartRequested reason => some reason
    | _ => p.restart?
  channel := if p.channel.length < channelCapacity then p.channel ++ [n] else p.channel

/-- What publishing logs: a notification that the full channel drops. -/
def publishEvents (p : Publisher) (n : Notification) : List Event :=
  if p.channel.length < channelCapacity then []
  else [.warn s!"Notification channel full, dropping {n.text}"]

/-- The oldest notification on the channel, taken off it. -/
def receive? (p : Publisher) : Option (Notification × Publisher) :=
  match p.channel with
  | n :: rest => some (n, { p with channel := rest })
  | [] => none

end Publisher

end DoorBridge
