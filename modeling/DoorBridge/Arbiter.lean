import DoorBridge.Settings

/-!
# Arbiter — when the bridge may talk

The door bus is one wire shared by the opener, the wall console and the bridge.  Before every frame the bridge
holds the line for 1.3 ms, releases it for 0.13 ms and checks that nobody else started meanwhile.  The arbiter
keeps the times that decide when the next attempt may start.
-/

namespace DoorBridge

/-- Length of the announcing pulse, in microseconds. -/
def announceTime : Nat := 1300

/-- Gap between the pulse and the frame, in microseconds. -/
def releaseTime : Nat := 130

/-- Pause after a failed attempt, in milliseconds. -/
def retryPause : Nat := 20

/-- Quiet time after any traffic on Security+ 1.0, in milliseconds. -/
def minimumGap : Nat := 20

/-- On Security+ 1.0, how long after a console poll the bridge may talk, in milliseconds. -/
def pollWindow : Nat := 200

inductive WriteError where
  | timeout
  | fault
  deriving DecidableEq, Repr

/-- Why a transmission failed; either is tried again. -/
inductive SendError where
  | collision
  | writeTimeout
  deriving DecidableEq, Repr

def SendError.name : SendError → String
  | collision => "Collision"
  | writeTimeout => "UartWriteTimeout"

class Bus (β : Type) where
  /-- Samples whether another station drives the line. -/
  lineBusy : β → Bool × β
  rxPending : β → Bool
  /-- Holds the line (true) or releases it. -/
  setAsserted : Bool → β → β
  delay : Nat → β → β
  write : List UInt8 → β → Except WriteError Unit × β

/-- Times of past traffic, in milliseconds, and what they allow. -/
structure Arbiter where
  security : Security
  lastTx? : Option Nat := none
  lastRx? : Option Nat := none
  /-- Quiet time asked for by the last transmission. -/
  postDelay : Nat := 0
  /-- When a failed attempt may be repeated. -/
  retryAt? : Option Nat := none
  /-- Whether a wall console polls the opener. -/
  wallPanel : Bool := false
  deriving DecidableEq, Repr

namespace Arbiter

def noteRx (a : Arbiter) (now : Nat) : Arbiter := { a with lastRx? := some now }

/-- Records a transmission that ended, with the quiet time it asks for. -/
def noteTx (a : Arbiter) (now postDelay : Nat) : Arbiter :=
  { a with lastTx? := some now, postDelay, retryAt? := none }

def noteCollision (a : Arbiter) (now : Nat) : Arbiter := { a with retryAt? := some (now + retryPause) }

/-- Earliest start that the last transmission allows. -/
def afterTx (a : Arbiter) : Nat :=
  match a.security, a.lastTx? with
  | _, none => 0
  | .plus2, some tx => tx + a.postDelay
  | .plus1, some tx => tx + max a.postDelay minimumGap + 1

/-- Earliest start that the last received byte allows. -/
def afterRx (a : Arbiter) : Nat :=
  match a.security, a.lastRx? with
  | .plus1, some rx => rx + minimumGap + 1
  | _, _ => 0

/-- Earliest start, the console window left aside. -/
def earliest (a : Arbiter) : Nat := max (max (a.retryAt?.getD 0) a.afterTx) a.afterRx

/-- Last start inside the console window, if there is such a window. -/
def windowEnd? (a : Arbiter) : Option Nat :=
  match a.security, a.lastRx?, a.wallPanel with
  | .plus1, some rx, true => some (rx + pollWindow)
  | _, _, _ => none

/-- Earliest start of the next frame.  There is none if the console window is closed, now or by then; the next
poll opens a new one. -/
def readyAt? (a : Arbiter) (now : Nat) : Option Nat :=
  match a.windowEnd? with
  | some last => if last < a.earliest ∨ last < now then none else some a.earliest
  | none => some a.earliest

def canTransmit (a : Arbiter) (now : Nat) : Bool :=
  match a.readyAt? now with
  | some at_ => decide (at_ ≤ now)
  | none => false

/-- Milliseconds that a frame takes on the wire, the announcing pulse included. -/
def airtime (a : Arbiter) (length : Nat) : Nat :=
  (announceTime + releaseTime + length * 10 * a.security.line.bitTime + 999) / 1000

section Sending

variable {β : Type} [Bus β]

/-- Announces and writes one frame, checking the line before and after the announcement. -/
def send (a : Arbiter) (frame : List UInt8) (bus : β) : Except SendError Unit × β :=
  if a.security = .plus1 ∧ Bus.rxPending bus then (.error .collision, bus)
  else
    let (busy, bus) := Bus.lineBusy bus
    if busy then (.error .collision, bus)
    else
      let bus := Bus.delay releaseTime (Bus.setAsserted false (Bus.delay announceTime (Bus.setAsserted true bus)))
      let (busy, bus) := Bus.lineBusy bus
      if busy then (.error .collision, bus)
      else match Bus.write frame bus with
        | (.ok (), bus) => (.ok (), bus)
        | (.error .timeout, bus) => (.error .writeTimeout, bus)
        | (.error .fault, bus) => (.error .collision, bus)

/-- Sends one frame started now.  Its quiet time starts once it has left the wire; a failure backs off. -/
def transmit (a : Arbiter) (frame : List UInt8) (now postDelay : Nat) (bus : β) :
    Except SendError Unit × Arbiter × β :=
  match a.send frame bus with
  | (.ok (), bus) => (.ok (), a.noteTx (now + a.airtime frame.length) postDelay, bus)
  | (.error cause, bus) => (.error cause, a.noteCollision now, bus)

end Sending

end Arbiter

end DoorBridge
