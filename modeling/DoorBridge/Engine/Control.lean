import DoorBridge.Engine

/-!
# Engine.Control — what the owner asks for

Requests only queue packets and set flags; they touch neither the bus nor the store.  A request for the state the
door is already in does nothing.  `Engine.countTick` is the beat of the countdown.
-/

namespace DoorBridge

/-- A request from the home-automation side. -/
inductive ControlRequest where
  | openDoor
  | closeDoor
  | light (on : Bool)
  | lock (locked : Bool)
  | getStatus
  | reset
  deriving DecidableEq, Repr

def ControlRequest.text : ControlRequest → String
  | openDoor => "Open"
  | closeDoor => "Close"
  | light on => s!"Light({on})"
  | lock locked => s!"Lock({locked})"
  | getStatus => "GetStatus"
  | reset => "Reset"

namespace Engine

/-! ## Packet sequences -/

/-- Hold time of a button press, in milliseconds. -/
def pressHold : Nat := 250

/-- Hold time of a Security+ 1.0 lock press, in milliseconds. -/
def lockHold : Nat := 3000

/-- Gap after a button release, in milliseconds. -/
def releaseGap : Nat := 40

def buttonId : UInt8 := 1

def statusRequest : PacketAction := ⟨.getStatus, true, 0⟩

/-- A press followed by its release; the release uses up the code. -/
def pressRelease (packet : Bool → Packet) (hold : Nat) : PacketAction × PacketAction :=
  (⟨packet true, false, hold⟩, ⟨packet false, true, releaseGap⟩)

/-- A Security+ 1.0 button: one press and two releases. -/
def buttonSequence (packet : Bool → Packet) (hold : Nat) : List PacketAction :=
  let (press, release) := pressRelease packet hold
  [press, release, release]

def doorSequence (security : Security) (action : DoorAction) : List PacketAction :=
  let packet := fun pressed => Packet.doorAction action pressed buttonId
  match security with
  | .plus1 => buttonSequence packet pressHold
  | .plus2 =>
    let (press, release) := pressRelease packet pressHold
    [press, release, statusRequest]

/-- The packets that set the light; Security+ 1.0 can only toggle it. -/
def lightSequence (security : Security) (on : Bool) : List PacketAction :=
  match security with
  | .plus1 => buttonSequence (.light .toggle) pressHold
  | .plus2 => [⟨.light (.ofLevel on) false, true, 0⟩, statusRequest]

/-- The packets that set the lock; Security+ 1.0 can only toggle it. -/
def lockSequence (security : Security) (locked : Bool) : List PacketAction :=
  match security with
  | .plus1 => buttonSequence (.lock .toggle) lockHold
  | .plus2 => [⟨.lock (.ofLevel locked) false, true, 0⟩, statusRequest]

/-! ## Single requests -/

def doorCommand (e : Engine) (action : DoorAction) : Result :=
  (e.emit [.info s!"Door command {action.name}"]).enqueue (doorSequence e.settings.security action)

def setLight (e : Engine) (on : Bool) : Result :=
  if on = e.door.light then (.ok (), e) else e.enqueue (lightSequence e.settings.security on)

/-- Requests a lock state; the target is remembered even if nothing has to be sent. -/
def setLock (e : Engine) (locked : Bool) : Result :=
  let e := { e with door := { e.door with targetLock := locked } }
  if locked = e.door.currentLock then (.ok (), e) else e.enqueue (lockSequence e.settings.security locked)

/-- Asks a Security+ 2.0 opener for a status reply. -/
def requestStatus (e : Engine) : Result :=
  if e.isPlus2 then e.enqueue [statusRequest] else (.ok (), e)

/-! ## Countdowns -/

def startCountdown (e : Engine) (ticks : Nat) (action : CountdownAction) : Engine :=
  { e.emit [.debug s!"Countdown of {ticks} ticks for {action.text}"] with
    countdown := .start ticks e.door.light action }

/-- Stops a running countdown; the answer is the light level from its start. -/
def cancelCountdown (e : Engine) : Option Bool × Engine :=
  match e.countdown.action? with
  | some action =>
    (some e.countdown.savedLight,
      { e.emit [.debug s!"Countdown for {action.text} cancelled"] with countdown := e.countdown.cancel.2 })
  | none => (none, e)

/-- Whether a Security+ 1.0 light release heads the queue: its press went out already. -/
def releaseIsNext (e : Engine) : Bool :=
  !e.isPlus2 && match e.queue.front? with
    | some ⟨.light _ false, _, _⟩ => true
    | _ => false

/-- Which queued packets are blinks that have not started.  Light releases stay while they directly follow, from
the front, a press that went out already. -/
def isUnsentBlink (inSequence : Bool) (action : PacketAction) : Bool × Bool :=
  match action.packet with
  | .light _ pressed => if inSequence && !pressed then (false, true) else (true, false)
  | _ => (false, false)

/-- Puts the light back to its level from before a countdown.  Blinks that have not started leave the queue; one
that was sent after the last status reply makes the reported level stale. -/
def restoreLight (e : Engine) (saved : Bool) : Result :=
  let (dropped, queue) := e.queue.discard isUnsentBlink e.releaseIsNext
  let e := { e with queue }
  let e := if dropped > 0 then e.emit [.debug s!"Dropped {dropped} queued blinks"] else e
  if !e.lightUnconfirmed then e.setLight saved
  else if e.isPlus2 || e.door.light == saved then e.enqueue (lightSequence e.settings.security saved)
  else (.ok (), e)

/-! ## Door -/

/-- Cancels a delayed close and puts the light back. -/
def cancelClose (e : Engine) : Result :=
  if e.countdown.isClosing then
    match e.cancelCountdown with
    | (some saved, e) => (e.emit [.info "Delayed close cancelled"]).restoreLight saved
    | (none, e) => (.ok (), e)
  else (.ok (), e)

/-- Opens the door, a delayed close cancelled first. -/
def openDoor (e : Engine) : Result :=
  match e.cancelClose with
  | (.error cause, e) => (.error cause, e)
  | (.ok (), e) =>
    match e.door.current with
    | .opened => (.ok (), e)
    | .closing => e.doorCommand .stop
    | _ => e.doorCommand .raise

/-- Closes the door, after the warning if one is set.  Closing during the warning skips the rest of it. -/
def closeDoor (e : Engine) : Result :=
  match e.door.current with
  | .closed => (.ok (), e)
  | .opening => e.doorCommand .stop
  | _ =>
    if e.countdown.isClosing then e.cancelCountdown.2.doorCommand .close
    else if e.settings.ttcSeconds = 0 ∨ e.countdown.isActive then e.doorCommand .close
    else
      let seconds := e.settings.ttcSeconds.toNat
      (.ok (), (e.emit [.info s!"Closing in {seconds} s"]).startCountdown (2 * seconds) .closeDoor)

/-- Forgets the identity: the store is cleared on the next flush, which then asks for a restart. -/
def resetDoor (e : Engine) : Engine :=
  let e := { e.emit [.warn "Door reset requested"] with queue := {} }
  let e := e.cancelCountdown.2
  { e with pending := { e.pending with reset := true } }

def apply (e : Engine) (request : ControlRequest) : Result :=
  let e := e.emit [.debug s!"Control request {request.text}"]
  match request with
  | .openDoor => e.openDoor
  | .closeDoor => e.closeDoor
  | .light on => e.setLight on
  | .lock locked => e.setLock locked
  | .getStatus => e.requestStatus
  | .reset => (.ok (), e.resetDoor)

def countTick (e : Engine) : Result :=
  let (step, countdown) := e.countdown.tick
  let e := { e with countdown }
  match step with
  | none => (.ok (), e)
  | some .blink => e.setLight (!e.door.light)
  | some (.fire .closeDoor) =>
    if e.door.current = .closed then (.ok (), e) else e.doorCommand .close
  | some (.fire (.restart reason)) =>
    (.ok (), { e with pending := { e.pending with save := true, restart? := some reason } })

end Engine

end DoorBridge
