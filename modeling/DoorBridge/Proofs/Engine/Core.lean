import DoorBridge.Engine.Service

/-!
# Proofs.Engine.Core — what only a transmission, a flush or a reset touches

`Engine.core` is the identity, the protocol in use and the reset flag.  Whatever the engine takes in between two
servicing passes leaves it as it is, reset requests apart; the lemmas `core_*` say so, one for each operation.
-/

namespace DoorBridge

/-- The part of the engine that survives all traffic. -/
structure Engine.Core where
  identity : Identity
  security : Security
  /-- Whether a reset waits for the next flush. -/
  reset : Bool

namespace Engine

/-- The part of the engine that only a transmission, a flush or a reset request changes. -/
def core (e : Engine) : Core := ⟨e.identity, e.settings.security, e.pending.reset⟩

theorem core_eq_iff {e : Engine} {c : Core} :
    e.core = c ↔ e.identity = c.identity ∧ e.settings.security = c.security ∧ e.pending.reset = c.reset := by
  cases c
  simp [core]

variable (e : Engine) (now : Nat)

@[simp] theorem core_emit (events : List Event) : (e.emit events).core = e.core := rfl

@[simp] theorem core_see (o : Observation) : (e.see o).core = e.core := rfl

@[simp] theorem core_enqueue (actions : List PacketAction) : (e.enqueue actions).2.core = e.core := by
  rw [enqueue]
  split <;> rfl

/-! ## Requests -/

@[simp] theorem core_doorCommand (action : DoorAction) : (e.doorCommand action).2.core = e.core := by
  simp [doorCommand]

@[simp] theorem core_setLight (on : Bool) : (e.setLight on).2.core = e.core := by
  rw [setLight]
  split <;> simp

@[simp] theorem core_setLock (locked : Bool) : (e.setLock locked).2.core = e.core := by
  rw [setLock]
  dsimp only
  split
  · rfl
  · rw [core_enqueue]
    rfl

@[simp] theorem core_requestStatus : e.requestStatus.2.core = e.core := by
  rw [requestStatus]
  split <;> simp

@[simp] theorem core_startCountdown (ticks : Nat) (action : CountdownAction) :
    (e.startCountdown ticks action).core = e.core := rfl

@[simp] theorem core_cancelCountdown : e.cancelCountdown.2.core = e.core := by
  rw [cancelCountdown]
  split <;> rfl

@[simp] theorem core_restoreLight (saved : Bool) : (e.restoreLight saved).2.core = e.core := by
  rw [restoreLight]
  generalize e.queue.discard isUnsentBlink e.releaseIsNext = discarded
  obtain ⟨dropped, queue⟩ := discarded
  have hqueue : { e with queue }.core = e.core := rfl
  dsimp only
  split
  all_goals
    split
    · simp [hqueue]
    · split <;> simp [hqueue]

@[simp] theorem core_cancelClose : e.cancelClose.2.core = e.core := by
  have hcancel := core_cancelCountdown e
  rw [cancelClose]
  split
  · split
    · next h =>
      rw [h] at hcancel
      simpa using hcancel
    · next h =>
      rw [h] at hcancel
      exact hcancel
  · rfl

@[simp] theorem core_openDoor : e.openDoor.2.core = e.core := by
  have hcancel := core_cancelClose e
  rw [openDoor]
  split
  · next h =>
    rw [h] at hcancel
    exact hcancel
  · next h =>
    rw [h] at hcancel
    split <;> simpa using hcancel

@[simp] theorem core_closeDoor : e.closeDoor.2.core = e.core := by
  rw [closeDoor]
  split
  · rfl
  · simp
  · split
    · simp
    · split <;> simp

/-- Of all requests only a reset reaches the core. -/
theorem core_apply {request : ControlRequest} (h : request ≠ .reset) : (e.apply request).2.core = e.core := by
  cases request with
  | reset => exact absurd rfl h
  | _ => simp [apply]

@[simp] theorem core_countTick : e.countTick.2.core = e.core := by
  rw [countTick]
  generalize e.countdown.tick = ticked
  obtain ⟨step, countdown⟩ := ticked
  have hcount : { e with countdown }.core = e.core := rfl
  dsimp only
  split
  · rfl
  · simp [hcount]
  · split <;> simp [hcount]
  · rfl

/-! ## Received traffic -/

@[simp] theorem core_triggerMotion (trigger : MotionTrigger) : (e.triggerMotion trigger now).core = e.core := by
  rw [triggerMotion]
  split <;> simp

@[simp] theorem core_countRecovery : (e.countRecovery now).core = e.core := by
  rw [countRecovery]
  generalize e.recovery.press now = pressed
  obtain ⟨complete, recovery⟩ := pressed
  dsimp only
  split <;> rfl

@[simp] theorem core_onObstruction (obstructed : Bool) : (e.onObstruction obstructed now).core = e.core := by
  rw [onObstruction]
  split <;> simp

@[simp] theorem core_onMotion : (e.onMotion now).core = e.core := by
  rw [onMotion]
  split <;> rfl

@[simp] theorem core_applyDoor (state : DoorState) : (e.applyDoor state).core = e.core := by
  rw [applyDoor]
  split <;> simp

@[simp] theorem core_applyLevels (light lock : Bool) : (e.applyLevels light lock).core = e.core := rfl

@[simp] theorem core_askStatus : e.askStatus.core = e.core := core_requestStatus e

@[simp] theorem core_onPacket (packet : Packet) : (e.onPacket packet now).core = e.core := by
  cases packet with
  | lock command pressed =>
    simp only [onPacket, core_askStatus]
    split <;> simp
  | light command pressed =>
    simp only [onPacket, core_askStatus]
    split <;> simp
  | doorAction action pressed id =>
    simp only [onPacket]
    split <;> simp
  | _ => simp [onPacket]

@[simp] theorem core_onFrame (frame : Frame) : (e.onFrame frame now).core = e.core := by
  rw [onFrame]
  split <;> simp

@[simp] theorem core_onButton (b : Button) : (e.onButton b now).core = e.core := by
  cases b <;> simp [onButton]

@[simp] theorem core_onDoorReport (state : DoorState) : (e.onDoorReport state).core = e.core := by
  rw [onDoorReport]
  split
  · dsimp only
    split
    · rw [core_applyDoor]
      rfl
    · rfl
  · simp

@[simp] theorem core_onRecord (record : Record) : (e.onRecord record now).core = e.core := by
  cases record with
  | button b => simp [onRecord]
  | other byte => simp [onRecord]
  | status s =>
    have hpanel : { e.emit [.info "Wall console detected"] with
        arbiter := { e.arbiter with wallPanel := true } }.core = e.core := rfl
    simp only [onRecord]
    split
    all_goals
      split <;> simp [hpanel]

@[simp] theorem core_onByte (byte : UInt8) : (e.onByte byte now).core = e.core := by
  rw [onByte]
  dsimp only
  split
  · generalize e.frames.feed byte now = fed
    obtain ⟨answer, frames⟩ := fed
    dsimp only
    split
    · rw [core_onFrame]
      rfl
    · rfl
    · rfl
  · generalize e.records.feed byte now = fed
    obtain ⟨answer, records⟩ := fed
    dsimp only
    split
    · rw [core_onRecord]
      rfl
    · rfl
    · rfl

@[simp] theorem core_tick : (e.tick now).core = e.core := by
  have hframes (x : Engine) (frames : FrameReader) : { x with frames }.core = x.core := rfl
  have hrecords (x : Engine) (records : RecordReader) : { x with records }.core = x.core := rfl
  rw [tick, hrecords]
  split
  all_goals
    rw [hframes]
    split <;> rfl

end Engine

end DoorBridge
