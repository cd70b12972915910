import DoorBridge.Engine.Control

/-!
# Engine.Receive — what arrives from the bus and the beam

Received bytes go through the reader of the protocol in use.  Status reports update the door; console commands
update it ahead of the next report, count toward recovery and may count as motion.
-/

namespace DoorBridge

namespace Engine

/-! ## Motion and recovery -/

/-- Starts or extends a motion report, if the trigger counts as motion. -/
def triggerMotion (e : Engine) (trigger : MotionTrigger) (now : Nat) : Engine :=
  if e.settings.motionTriggers.contains trigger then e.see (e.door.raiseMotion now) else e

/-- Counts a console press; the fifth quick one starts the countdown to a restart into setup. -/
def countRecovery (e : Engine) (now : Nat) : Engine :=
  let (complete, recovery) := e.recovery.press now
  let e := { e.emit [.trace s!"Recovery press {e.recovery.count now}"] with recovery }
  if complete then
    (e.emit [.warn "Manual recovery requested, restarting into setup"]).startCountdown recoveryTicks
      (.restart .softAp)
  else e

def onObstruction (e : Engine) (obstructed : Bool) (now : Nat) : Engine :=
  let o := e.door.setObstructed obstructed
  let e := e.see o
  if o.changed && obstructed then e.triggerMotion .obstruction now else e

/-- Takes a report of the motion sensor; the first one makes the sensor known. -/
def onMotion (e : Engine) (now : Nat) : Engine :=
  let e := if e.door.hasMotionSensor then e else
    let triggers := e.settings.motionTriggers.set .motion true
    { e.emit [.info "Motion sensor discovered", .note (.motionSensorDiscovered (triggers.only .motion))] with
      door := { e.door with hasMotionSensor := true }
      pending := { e.pending with hasMotion := true }
      settings := { e.settings with motionTriggers := triggers } }
  e.see (e.door.raiseMotion now)

/-! ## Reports and commands -/

/-- Takes a reported door position.  A door that closes on its own ends a delayed close. -/
def applyDoor (e : Engine) (state : DoorState) : Engine :=
  let e := e.see (e.door.observeDoor state)
  if state = .closing ∧ e.countdown.isClosing then e.cancelCountdown.2 else e

def applyLevels (e : Engine) (light lock : Bool) : Engine :=
  let e := { e with lightUnconfirmed := false }
  let e := e.see (e.door.observeLight light)
  e.see (e.door.observeLock lock)

/-- Asks for a status reply; a full queue is let pass, since a later request catches up. -/
def askStatus (e : Engine) : Engine := e.requestStatus.2

def onPacket (e : Engine) (packet : Packet) (now : Nat) : Engine :=
  match packet with
  | .status s =>
    let e := e.emit [.trace s!"Status obstructed {s.obstructed} learn {s.learn}"]
    (e.applyDoor s.door).applyLevels s.light s.lock
  | .lock command _ =>
    let o := e.door.setTargetLock (command.apply e.door.targetLock)
    let e := e.see o
    (if o.changed then e.triggerMotion .lockKey now else e).askStatus
  | .light command _ =>
    let e := e.countRecovery now
    let o := e.door.observeLight (command.apply e.door.light)
    let e := e.see o
    (if o.changed then e.triggerMotion .lightKey now else e).askStatus
  | .doorAction _ pressed _ => if pressed then (e.countRecovery now).triggerMotion .doorKey now else e
  | .motion => (e.onMotion now).askStatus
  | .getStatus | .getOpenings => e
  | .unknown command data =>
    e.emit [.debug s!"Unhandled {Opcode.nameOf command} ({hexText command.toNat}) data {hexText data.toNat}"]

def onFrame (e : Engine) (frame : Frame) (now : Nat) : Engine :=
  match Message.decode frame with
  | .ok m =>
    (e.emit [.debug s!"RX {m.packet.name} rolling {m.rolling} from {hexText m.remoteId.toNat}"]).onPacket
      m.packet now
  | .error cause => e.emit [.debug s!"Undecodable frame: {cause.text}"]

def onButton (e : Engine) (b : Button) (now : Nat) : Engine :=
  let e := e.emit [.trace s!"Button {hexText b.byte.toNat}"]
  match b with
  | .doorPress => (e.countRecovery now).triggerMotion .doorKey now
  | .lightPress => e.triggerMotion .lightKey now
  | .lockPress => e.triggerMotion .lockKey now
  | _ => e

/-- Takes a Security+ 1.0 door position, which may have to come twice in a row. -/
def onDoorReport (e : Engine) (state : DoorState) : Engine :=
  if e.settings.debounce then
    let (accepted, debounce) := e.debounce.accept state
    let e := { e with debounce }
    match accepted with
    | some state => e.applyDoor state
    | none => e
  else e.applyDoor state

def onRecord (e : Engine) (record : Record) (now : Nat) : Engine :=
  match record with
  | .button b => e.onButton b now
  | .other byte => e.emit [.trace s!"Unnamed record {hexText byte.toNat}"]
  | .status s =>
    -- only a wall console polls for status
    let e := if e.arbiter.wallPanel then e else
      { e.emit [.info "Wall console detected"] with arbiter := { e.arbiter with wallPanel := true } }
    match s with
    | .door state => e.onDoorReport state
    | .lightLock light lock => e.applyLevels light lock
    | .obstruction value => e.emit [.trace s!"Obstruction status {hexText value.toNat}"]

def onByte (e : Engine) (byte : UInt8) (now : Nat) : Engine :=
  let e := { e with arbiter := e.arbiter.noteRx now }
  match e.settings.security with
  | .plus2 =>
    let (answer, frames) := e.frames.feed byte now
    let e := { e with frames }
    match answer with
    | .ok (some frame) => e.onFrame frame now
    | .ok none => e
    | .error cause => e.emit [.debug s!"Dropped partial frame: {cause.name}"]
  | .plus1 =>
    let (answer, records) := e.records.feed byte now
    let e := { e with records }
    match answer with
    | .ok (some record) => e.onRecord record now
    | .ok none => e
    | .error cause => e.emit [.trace s!"Ignored byte {hexText byte.toNat}: {cause.name}"]

end Engine

end DoorBridge
