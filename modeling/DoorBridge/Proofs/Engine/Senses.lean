import DoorBridge.Proofs.Engine.Reports

/-!
# Proofs.Engine.Senses — motion, the motion sensor and the presses that count

* `Senses` is the part of the engine that motion hangs on: what counts as motion, whether a sensor is known and whether
  that has yet to be stored, the motion report with its deadline, the beam, and the counted console presses.  The sensors
  that were reported as discovered belong to it.
* `Engine.stirs` says what a received packet or record counts as; `Engine.sensesAfter` is what an operation makes of the
  senses.  `senses_after` proves it, put together from one lemma for every function of the engine.
-/

namespace DoorBridge

/-! ## Discoveries among the events -/

def Notification.discovery? : Notification → Option Bool
  | motionSensorDiscovered rebootRequired => some rebootRequired
  | _ => none

/-- What a row of events says when it reports that a motion sensor was discovered, in order. -/
def discoveriesIn (events : List Event) : List Bool :=
  (Event.notifications events).filterMap Notification.discovery?

theorem discoveriesIn_append (events more : List Event) :
    discoveriesIn (events ++ more) = discoveriesIn events ++ discoveriesIn more := by
  simp only [discoveriesIn, notifications_append, List.filterMap_append]

/-- What only logs reports no discovery. -/
theorem discoveriesIn_of_logs {events : List Event} (h : Event.notifications events = []) :
    discoveriesIn events = [] := by
  rw [discoveriesIn, h]
  rfl

theorem discoveriesIn_reportIf {changed : Bool} {events : List Event} (h : discoveriesIn events = []) :
    discoveriesIn (Door.reportIf changed events) = [] := by
  unfold Door.reportIf
  split
  · exact h
  · rfl

theorem Door.discoveries_observeDoor (d : Door) (state : DoorState) :
    discoveriesIn (d.observeDoor state).events = [] := by
  unfold observeDoor
  cases state.target? with
  | none => rfl
  | some target =>
    dsimp only
    rw [discoveriesIn_append, discoveriesIn_append, discoveriesIn_reportIf rfl, discoveriesIn_reportIf rfl,
      discoveriesIn_reportIf rfl]
    rfl

theorem Door.discoveries_observeLock (d : Door) (locked : Bool) :
    discoveriesIn (d.observeLock locked).events = [] := by
  unfold observeLock
  split <;> rfl

/-! ## The senses -/

structure Senses where
  recovery : Recovery
  triggers : MotionTriggers
  /-- Whether a motion sensor is known. -/
  known : Bool
  /-- Whether the next flush is to store that one is known. -/
  owed : Bool
  motion : Bool
  /-- When the last motion report ends or ended. -/
  deadline : Nat
  obstructed : Bool
  /-- What was reported with each discovery of a sensor, in order. -/
  found : List Bool
  deriving DecidableEq, Repr

namespace Senses

/-- Counts a console press. -/
def press (s : Senses) (now : Nat) : Senses := { s with recovery := (s.recovery.press now).2 }

/-- Starts or extends a motion report. -/
def raise (s : Senses) (now : Nat) : Senses := { s with motion := true, deadline := now + motionHold }

/-- Takes what may count as motion. -/
def stir (s : Senses) (trigger : MotionTrigger) (now : Nat) : Senses :=
  if s.triggers.contains trigger then s.raise now else s

/-- Takes notice of a motion sensor; the first time that is reported and has to be stored. -/
def discover (s : Senses) : Senses :=
  if s.known then s
  else { s with
    known := true
    owed := true
    triggers := s.triggers.set .motion true
    found := s.found ++ [(s.triggers.set .motion true).only .motion] }

/-- Ends a motion report that has lasted its time. -/
def expire (s : Senses) (now : Nat) : Senses := { s with motion := s.motion && decide (now < s.deadline) }

/-- Takes what the store says of a sensor. -/
def load (s : Senses) : Except StorageError (List UInt8) → Senses
  | .ok [flag] => if flag = 0 then s else { s with known := true, triggers := s.triggers.set .motion true }
  | _ => s

/-- Takes a reading of the beam, which counts as motion when it is newly blocked. -/
def beam (s : Senses) (obstructed : Bool) (now : Nat) : Senses :=
  let seen := { s with obstructed }
  if obstructed != s.obstructed && obstructed then seen.stir .obstruction now else seen

end Senses

namespace Engine

def senses (e : Engine) : Senses where
  recovery := e.recovery
  triggers := e.settings.motionTriggers
  known := e.door.hasMotionSensor
  owed := e.pending.hasMotion
  motion := e.door.motion
  deadline := e.door.motionDeadline
  obstructed := e.door.obstructed
  found := discoveriesIn e.events

/-- What a received packet or record may count as: a press of a door key, or a light or lock key that changes
something. -/
def stirs (e : Engine) : Inbound → Option MotionTrigger
  | .packet (.lock command _) => if command.apply e.door.targetLock != e.door.targetLock then some .lockKey else none
  | .packet (.light command _) => if command.apply e.door.light != e.door.light then some .lightKey else none
  | .packet (.doorAction _ pressed _) => if pressed then some .doorKey else none
  | .record (.button .doorPress) => some .doorKey
  | .record (.button .lightPress) => some .lightKey
  | .record (.button .lockPress) => some .lockKey
  | _ => none

/-- The senses once something was received. -/
def sensesHeard (e : Engine) (x : Inbound) (now : Nat) : Senses :=
  let pressed := if x.isPress then e.senses.press now else e.senses
  match x with
  | .packet .motion => e.senses.discover.raise now
  | _ => ((e.stirs x).map (pressed.stir · now)).getD pressed

/-- The senses after an operation. -/
def sensesAfter {σ : Type} [Storage σ] (e : Engine) : Operation σ → Senses
  | .start store entropy _ => e.senses.load (Storage.read (e.loadIdentity store entropy).2.2 .hasMotion 1)
  | .byte byte now => ((e.inbound? byte now).map (e.sensesHeard · now)).getD e.senses
  | .obstruction obstructed now => e.senses.beam obstructed now
  | .press now => e.senses.press now
  | .tick now => e.senses.expire now
  | .flush _ => { e.senses with owed := false }
  | _ => e.senses

variable (e : Engine) (now : Nat)

theorem senses_emit {events : List Event} (h : discoveriesIn events = []) : (e.emit events).senses = e.senses := by
  have hfound : (e.emit events).senses = { e.senses with found := discoveriesIn (e.events ++ events) } := rfl
  rw [hfound, discoveriesIn_append, h, List.append_nil]
  rfl

/-- An observation changes no more of the senses than what it changes of the door. -/
theorem senses_see {o : Observation} (h : discoveriesIn o.events = []) : (e.see o).senses =
    { e.senses with
      known := o.door.hasMotionSensor
      motion := o.door.motion
      deadline := o.door.motionDeadline
      obstructed := o.door.obstructed } := by
  have hlogged := senses_emit { e with door := o.door } h
  exact hlogged

@[simp] theorem senses_enqueue (actions : List PacketAction) : (e.enqueue actions).2.senses = e.senses := by
  unfold enqueue
  split
  · rfl
  · exact senses_emit e rfl

/-! ## Requests -/

@[simp] theorem senses_doorCommand (action : DoorAction) : (e.doorCommand action).2.senses = e.senses := by
  unfold doorCommand
  rw [senses_enqueue, senses_emit e rfl]

@[simp] theorem senses_setLight (on : Bool) : (e.setLight on).2.senses = e.senses := by
  unfold setLight
  split <;> simp

@[simp] theorem senses_setLock (locked : Bool) : (e.setLock locked).2.senses = e.senses := by
  unfold setLock
  dsimp only
  split
  · rfl
  · rw [senses_enqueue]
    rfl

@[simp] theorem senses_requestStatus : e.requestStatus.2.senses = e.senses := by
  unfold requestStatus
  split <;> simp

@[simp] theorem senses_startCountdown (ticks : Nat) (action : CountdownAction) :
    (e.startCountdown ticks action).senses = e.senses := senses_emit e rfl

@[simp] theorem senses_cancelCountdown : e.cancelCountdown.2.senses = e.senses := by
  unfold cancelCountdown
  split
  · exact senses_emit e rfl
  · rfl

@[simp] theorem senses_restoreLight (saved : Bool) : (e.restoreLight saved).2.senses = e.senses := by
  unfold restoreLight
  generalize e.queue.discard isUnsentBlink e.releaseIsNext = discarded
  obtain ⟨dropped, queue⟩ := discarded
  dsimp only
  generalize hlogged : (if dropped > 0 then
    { e with queue }.emit [.debug s!"Dropped {dropped} queued blinks"] else { e with queue }) = x
  have hx : x.senses = e.senses := by
    rw [← hlogged]
    split
    · exact senses_emit { e with queue } rfl
    · rfl
  split
  · rw [senses_setLight, hx]
  · split
    · rw [senses_enqueue, hx]
    · exact hx

@[simp] theorem senses_cancelClose : e.cancelClose.2.senses = e.senses := by
  have hcancel := senses_cancelCountdown e
  unfold cancelClose
  split
  · generalize e.cancelCountdown = cancelled at hcancel ⊢
    obtain ⟨answer, x⟩ := cancelled
    cases answer with
    | none => exact hcancel
    | some saved =>
      dsimp only
      rw [senses_restoreLight, senses_emit x rfl, hcancel]
  · rfl

@[simp] theorem senses_openDoor : e.openDoor.2.senses = e.senses := by
  have hcancel := senses_cancelClose e
  unfold openDoor
  generalize e.cancelClose = cancelled at hcancel ⊢
  obtain ⟨answer, x⟩ := cancelled
  cases answer with
  | error cause => exact hcancel
  | ok done =>
    dsimp only at hcancel ⊢
    split
    · exact hcancel
    · rw [senses_doorCommand, hcancel]
    · rw [senses_doorCommand, hcancel]

@[simp] theorem senses_closeDoor : e.closeDoor.2.senses = e.senses := by
  unfold closeDoor
  split
  · rfl
  · simp
  · split
    · simp
    · split
      · simp
      · dsimp only
        rw [senses_startCountdown, senses_emit e rfl]

@[simp] theorem senses_resetDoor : e.resetDoor.senses = e.senses := by
  have hcancel := senses_cancelCountdown { e.emit [.warn "Door reset requested"] with queue := {} }
  have hlogged : { e.emit [.warn "Door reset requested"] with queue := {} }.senses = e.senses := senses_emit e rfl
  unfold resetDoor
  dsimp only
  generalize cancelCountdown _ = cancelled at hcancel ⊢
  rw [← hlogged, ← hcancel]
  rfl

/-- No request touches the senses. -/
@[simp] theorem senses_call (r : ControlRequest) : (e.call r).senses = e.senses := by
  cases r with
  | openDoor => exact senses_openDoor e
  | closeDoor => exact senses_closeDoor e
  | light on => exact senses_setLight e on
  | lock locked => exact senses_setLock e locked
  | getStatus => exact senses_requestStatus e
  | reset => exact senses_resetDoor e

@[simp] theorem senses_countTick : e.countTick.2.senses = e.senses := by
  unfold countTick
  generalize e.countdown.tick = ticked
  obtain ⟨step, countdown⟩ := ticked
  have hcounted : { e with countdown }.senses = e.senses := rfl
  dsimp only
  split
  · exact hcounted
  · rw [senses_setLight, hcounted]
  · split
    · exact hcounted
    · rw [senses_doorCommand, hcounted]
  · exact hcounted

/-! ## Received traffic -/

theorem senses_triggerMotion (trigger : MotionTrigger) :
    (e.triggerMotion trigger now).senses = e.senses.stir trigger now := by
  have htriggers : e.senses.triggers = e.settings.motionTriggers := rfl
  unfold triggerMotion Senses.stir
  rw [htriggers]
  split
  · exact senses_see e (discoveriesIn_reportIf rfl)
  · rfl

theorem senses_countRecovery : (e.countRecovery now).senses = e.senses.press now := by
  have hpress : e.senses.press now = { e.senses with recovery := (e.recovery.press now).2 } := rfl
  rw [hpress]
  unfold countRecovery
  generalize e.recovery.press now = pressed
  obtain ⟨complete, recovery⟩ := pressed
  have hcounted : { e.emit [.trace s!"Recovery press {e.recovery.count now}"] with recovery }.senses =
      { e.senses with recovery } := senses_emit { e with recovery } rfl
  dsimp only
  split
  · rw [senses_startCountdown, senses_emit _ rfl, hcounted]
  · exact hcounted

theorem senses_onObstruction (obstructed : Bool) :
    (e.onObstruction obstructed now).senses = e.senses.beam obstructed now := by
  have hseen : (e.see (e.door.setObstructed obstructed)).senses = { e.senses with obstructed } :=
    senses_see e (discoveriesIn_reportIf rfl)
  have hchanged : (e.door.setObstructed obstructed).changed = (obstructed != e.senses.obstructed) := rfl
  unfold onObstruction Senses.beam
  dsimp only
  rw [hchanged]
  split
  · rw [senses_triggerMotion, hseen]
  · exact hseen

theorem senses_onMotion : (e.onMotion now).senses = e.senses.discover.raise now := by
  unfold onMotion
  dsimp only
  generalize hfound : (if e.door.hasMotionSensor then e else _ : Engine) = x
  have hx : x.senses = e.senses.discover := by
    have hknown : e.senses.known = e.door.hasMotionSensor := rfl
    rw [← hfound, Senses.discover, hknown]
    split
    · rfl
    · have hnoted : discoveriesIn (e.events ++ [.info "Motion sensor discovered", .note (.motionSensorDiscovered
          ((e.settings.motionTriggers.set .motion true).only .motion))]) = e.senses.found ++
            [(e.settings.motionTriggers.set .motion true).only .motion] := discoveriesIn_append _ _
      unfold senses emit
      dsimp only
      rw [hnoted]
      rfl
  rw [← hx]
  exact senses_see x (discoveriesIn_reportIf rfl)

@[simp] theorem senses_applyDoor (state : DoorState) : (e.applyDoor state).senses = e.senses := by
  have hdoor : (e.door.observeDoor state).door.hasMotionSensor = e.door.hasMotionSensor ∧
      (e.door.observeDoor state).door.motion = e.door.motion ∧
      (e.door.observeDoor state).door.motionDeadline = e.door.motionDeadline ∧
      (e.door.observeDoor state).door.obstructed = e.door.obstructed := by
    unfold Door.observeDoor
    cases state.target? <;> exact ⟨rfl, rfl, rfl, rfl⟩
  have hseen : (e.see (e.door.observeDoor state)).senses = e.senses := by
    rw [senses_see e (e.door.discoveries_observeDoor state), hdoor.1, hdoor.2.1, hdoor.2.2.1, hdoor.2.2.2]
    rfl
  unfold applyDoor
  dsimp only
  split
  · rw [senses_cancelCountdown, hseen]
  · exact hseen

theorem senses_observeLight (on : Bool) : (e.see (e.door.observeLight on)).senses = e.senses :=
  senses_see e (discoveriesIn_reportIf rfl)

theorem senses_observeLock (locked : Bool) : (e.see (e.door.observeLock locked)).senses = e.senses := by
  rw [senses_see e (e.door.discoveries_observeLock locked)]
  unfold Door.observeLock
  split <;> rfl

@[simp] theorem senses_applyLevels (light lock : Bool) : (e.applyLevels light lock).senses = e.senses := by
  unfold applyLevels
  dsimp only
  rw [senses_observeLock, senses_observeLight]
  rfl

@[simp] theorem senses_askStatus : e.askStatus.senses = e.senses := senses_requestStatus e

theorem senses_onPacket (p : Packet) : (e.onPacket p now).senses = e.sensesHeard (.packet p) now := by
  cases p with
  | status s =>
    unfold onPacket
    dsimp only
    rw [senses_applyLevels, senses_applyDoor, senses_emit e rfl]
    rfl
  | lock command pressed =>
    have hseen : (e.see (e.door.setTargetLock (command.apply e.door.targetLock))).senses = e.senses :=
      senses_see e (discoveriesIn_reportIf rfl)
    have hchanged : (e.door.setTargetLock (command.apply e.door.targetLock)).changed =
        (command.apply e.door.targetLock != e.door.targetLock) := rfl
    unfold onPacket sensesHeard stirs
    rw [senses_askStatus]
    dsimp only
    rw [hchanged]
    split
    · rw [senses_triggerMotion, hseen]
      rfl
    · exact hseen
  | light command pressed =>
    -- the level that the command works on is the one from before the press was counted
    have hlight : (e.countRecovery now).door.light = e.door.light :=
      congrArg (·.mirror.light) (ears_countRecovery e now)
    have hchanged : ((e.countRecovery now).door.observeLight
        (command.apply (e.countRecovery now).door.light)).changed = (command.apply e.door.light != e.door.light) := by
      rw [hlight]
      exact congrArg (command.apply e.door.light != ·) hlight
    unfold onPacket sensesHeard stirs
    rw [senses_askStatus]
    dsimp only
    rw [hchanged]
    split
    · rw [senses_triggerMotion, senses_observeLight, senses_countRecovery]
      rfl
    · rw [senses_observeLight, senses_countRecovery]
      rfl
  | doorAction action pressed id =>
    unfold onPacket sensesHeard stirs
    cases pressed with
    | false => rfl
    | true =>
      dsimp only
      rw [if_pos rfl, senses_triggerMotion, senses_countRecovery]
      rfl
  | motion =>
    unfold onPacket
    rw [senses_askStatus, senses_onMotion]
    rfl
  | getStatus | getOpenings => rfl
  | unknown command data => exact senses_emit e rfl

@[simp] theorem senses_onDoorReport (state : DoorState) : (e.onDoorReport state).senses = e.senses := by
  unfold onDoorReport
  split
  · generalize e.debounce.accept state = filtered
    obtain ⟨accepted, debounce⟩ := filtered
    dsimp only
    split
    · rw [senses_applyDoor]
      rfl
    · rfl
  · exact senses_applyDoor e state

theorem senses_onRecord (r : Record) : (e.onRecord r now).senses = e.sensesHeard (.record r) now := by
  cases r with
  | button b =>
    have hlogged : (e.emit [.trace s!"Button {hexText b.byte.toNat}"]).senses = e.senses := senses_emit e rfl
    unfold onRecord onButton
    cases b with
    | doorPress =>
      dsimp only
      rw [senses_triggerMotion, senses_countRecovery, hlogged]
      rfl
    | lightPress | lockPress =>
      dsimp only
      rw [senses_triggerMotion, hlogged]
      rfl
    | doorRelease | lightRelease | lockRelease => exact hlogged
  | other byte => exact senses_emit e rfl
  | status s =>
    unfold onRecord
    dsimp only
    generalize hpanel : (if e.arbiter.wallPanel then e else _ : Engine) = x
    have hx : x.senses = e.senses := by
      rw [← hpanel]
      split
      · rfl
      · exact senses_emit { e with arbiter := { e.arbiter with wallPanel := true } } rfl
    cases s with
    | door state => exact (senses_onDoorReport x state).trans hx
    | lightLock light lock => exact (senses_applyLevels x light lock).trans hx
    | obstruction value => exact (senses_emit x rfl).trans hx

/-- **What a received packet or record does to the senses.** -/
theorem senses_deliver (x : Inbound) : (e.deliver x now).senses = e.sensesHeard x now := by
  cases x with
  | packet p => exact senses_onPacket e now p
  | record r => exact senses_onRecord e now r

theorem senses_onFrame (frame : Frame) : (e.onFrame frame now).senses =
    match Message.decode frame with
    | .ok m => e.sensesHeard (.packet m.packet) now
    | .error _ => e.senses := by
  have hheard {events : List Event} (h : discoveriesIn events = []) (x : Inbound) :
      (e.emit events).sensesHeard x now = e.sensesHeard x now := by
    have hsenses := senses_emit e h
    have hstirs : (e.emit events).stirs x = e.stirs x := rfl
    unfold sensesHeard
    rw [hsenses, hstirs]
  unfold onFrame
  cases Message.decode frame with
  | ok m => exact (senses_deliver _ now (.packet m.packet)).trans (hheard rfl _)
  | error cause => exact senses_emit e rfl

/-- A byte is taken for what it completes. -/
theorem senses_onByte {σ : Type} [Storage σ] (byte : UInt8) :
    (e.onByte byte now).senses = e.sensesAfter (.byte byte now : Operation σ) := by
  unfold onByte sensesAfter inbound?
  cases hsecurity : e.settings.security with
  | plus2 =>
    simp only [hsecurity]
    generalize e.frames.feed byte now = fed
    obtain ⟨answer, frames⟩ := fed
    cases answer with
    | error cause => exact senses_emit { e with arbiter := e.arbiter.noteRx now, frames } rfl
    | ok found =>
      cases found with
      | none => rfl
      | some frame =>
        dsimp only
        rw [senses_onFrame]
        cases Message.decode frame <;> rfl
  | plus1 =>
    simp only [hsecurity]
    generalize e.records.feed byte now = fed
    obtain ⟨answer, records⟩ := fed
    cases answer with
    | error cause => exact senses_emit { e with arbiter := e.arbiter.noteRx now, records } rfl
    | ok found =>
      cases found with
      | none => rfl
      | some record =>
        exact senses_deliver _ now (.record record)

/-! ## Servicing -/

theorem senses_tick : (e.tick now).senses = e.senses.expire now := by
  have hover : (e.door.motion && !e.door.motionIsOver now) =
      (e.door.motion && decide (now < e.door.motionDeadline)) := by
    unfold Door.motionIsOver
    cases e.door.motion with
    | false => rfl
    | true => simp only [Bool.true_and, ← decide_not, Nat.not_le]
  have hseen : (e.see (e.door.expireMotion now)).senses = e.senses.expire now := by
    rw [senses_see e (discoveriesIn_reportIf rfl)]
    unfold Door.expireMotion
    dsimp only
    rw [hover]
    rfl
  unfold tick
  dsimp only
  generalize hframes : (if (e.see (e.door.expireMotion now)).frames.isOverdue now then _ else _ : Engine) = x
  have hx : x.senses = e.senses.expire now := by
    rw [← hframes]
    split
    · rw [senses_emit _ rfl, hseen]
    · exact hseen
  have hdropped : { x with frames := (e.see (e.door.expireMotion now)).frames.expire now }.senses =
      e.senses.expire now := hx
  split
  · exact (senses_emit _ rfl).trans hdropped
  · exact hdropped

/-- A try to send does not touch the senses. -/
@[simp] theorem senses_transmitNext {β : Type} [Bus β] (bus : β) :
    (e.transmitNext bus now).2.1.senses = e.senses := by
  unfold transmitNext
  split
  · rfl
  next action hfront =>
  split
  · rfl
  split
  · exact senses_emit e rfl
  next frame hframe =>
  generalize e.arbiter.transmit frame now action.postDelay bus = tried
  obtain ⟨sent, arbiter, bus'⟩ := tried
  dsimp only
  cases sent with
  | ok done => exact senses_emit { e with arbiter } (discoveriesIn_of_logs (notifications_sentEvent _ _ _))
  | error cause => exact senses_emit { e with arbiter } rfl

section Storing

variable {σ : Type} [Storage σ]

/-- The flag is taken as stored, whether the write succeeds or not. -/
theorem senses_flushMotion (store : σ) : (e.flushMotion store).2.1.senses = { e.senses with owed := false } := by
  unfold flushMotion
  cases hpending : e.pending.hasMotion with
  | true =>
    rw [if_pos rfl]
    dsimp only
    split
    · rfl
    · exact senses_emit { e with pending := { e.pending with hasMotion := false } } rfl
  | false =>
    have howed : e.senses.owed = false := hpending
    rw [if_neg Bool.false_ne_true, ← howed]

@[simp] theorem senses_flushCounter (store : σ) : (e.flushCounter store).2.1.senses = e.senses := by
  unfold flushCounter
  dsimp only
  split
  · exact senses_emit { e with pending := { e.pending with save := false } }
      (discoveriesIn_of_logs (notifications_save _ _))
  · rfl

@[simp] theorem senses_flushRestart : e.flushRestart.senses = e.senses := by
  unfold flushRestart
  split
  · exact senses_emit e rfl
  · rfl

theorem senses_flushReset (store : σ) : (e.flushReset store).2.1.senses = { e.senses with owed := false } := by
  have hlogs : discoveriesIn (clearRecords store resetKeys).2.1 = [] :=
    discoveriesIn_of_logs (notifications_clearRecords store resetKeys)
  unfold flushReset
  generalize clearRecords store resetKeys = cleared at hlogs ⊢
  obtain ⟨failure, events, store'⟩ := cleared
  refine senses_emit { e with pending := {} } ?_
  rw [discoveriesIn_append, hlogs]
  rfl

/-- After a flush nothing is owed to the store. -/
theorem senses_flush (store : σ) : (e.flush store).2.1.senses = { e.senses with owed := false } := by
  unfold flush
  split
  · exact senses_flushReset e store
  · have hmotion := senses_flushMotion e store
    generalize e.flushMotion store = recorded at hmotion ⊢
    obtain ⟨failure, x, store'⟩ := recorded
    have hcounter := senses_flushCounter x store'
    dsimp only at hmotion hcounter ⊢
    generalize x.flushCounter store' = saved at hcounter ⊢
    obtain ⟨failure', y, store''⟩ := saved
    dsimp only at hcounter ⊢
    rw [senses_flushRestart, hcounter, hmotion]

/-- What a pass makes of the senses. -/
theorem senses_service {β : Type} [Bus β] (bus : β) (store : σ) :
    (e.service bus store now).1.senses = { e.senses.expire now with owed := false } := by
  have hflush := ((e.tick now).transmitNext bus now).2.1.senses_flush store
  rw [senses_transmitNext, senses_tick] at hflush
  exact hflush

/-! ## Start -/

@[simp] theorem senses_loadIdentity (store : σ) (entropy : UInt32) :
    (e.loadIdentity store entropy).2.1.senses = e.senses := by
  unfold loadIdentity
  split
  · have hlogs : Event.notifications ((Identity.restore store entropy).events ++
        [.info s!"Id code {hexText (Identity.restore store entropy).identity.idCode.toNat}"]) = [] := by
      rw [notifications_append, notifications_restore]
      rfl
    exact senses_emit { e with identity := (Identity.restore store entropy).identity } (discoveriesIn_of_logs hlogs)
  · rfl

theorem senses_loadMotion (found : Except StorageError (List UInt8)) :
    (e.loadMotion found).2.senses = e.senses.load found := by
  cases found with
  | error cause =>
    cases cause with
    | notFound => rfl
    | _ => exact senses_emit e rfl
  | ok bytes =>
    rcases bytes with _ | ⟨flag, _ | ⟨next, rest⟩⟩
    · rfl
    · unfold loadMotion Senses.load
      by_cases hflag : flag = 0
      · simp only [if_pos hflag]
      · have hknown : ({ e with
            door := { e.door with hasMotionSensor := true }
            settings := { e.settings with motionTriggers := e.settings.motionTriggers.set .motion true } }.emit
              [.info "Motion sensor known from a previous run"]).senses =
            { e.senses with known := true, triggers := e.senses.triggers.set .motion true } := senses_emit _ rfl
        simp only [if_neg hflag]
        exact hknown
    · rfl

/-- What was logged before does not matter to the store. -/
theorem store_loadIdentity_emit (events : List Event) (store : σ) (entropy : UInt32) :
    ((e.emit events).loadIdentity store entropy).2.2 = (e.loadIdentity store entropy).2.2 := by
  have hplus2 : (e.emit events).isPlus2 = e.isPlus2 := rfl
  unfold loadIdentity
  rw [hplus2]
  split <;> rfl

/-- A start takes what the store says of a sensor. -/
theorem senses_start (store : σ) (entropy : UInt32) :
    (e.start store entropy now).2.1.senses = e.sensesAfter (.start store entropy now) := by
  have hopened : (e.emit [.info
      s!"Starting Security+ {e.settings.security.number} bridge, ttc {e.settings.ttcSeconds.toNat} s"]).senses =
      e.senses := senses_emit e rfl
  unfold start sensesAfter
  dsimp only
  generalize hemit : e.emit _ = opened at hopened ⊢
  have hstore : (opened.loadIdentity store entropy).2.2 = (e.loadIdentity store entropy).2.2 := by
    rw [← hemit]
    exact store_loadIdentity_emit e _ store entropy
  rw [← hstore]
  have hloaded := (senses_loadIdentity opened store entropy).trans hopened
  generalize opened.loadIdentity store entropy = loaded at hloaded ⊢
  obtain ⟨failure, e₁, store'⟩ := loaded
  dsimp only at hloaded ⊢
  have hmotion := senses_loadMotion e₁ (Storage.read store' .hasMotion 1)
  rw [hloaded] at hmotion
  generalize e₁.loadMotion (Storage.read store' .hasMotion 1) = known at hmotion ⊢
  obtain ⟨motionFailure, e₂⟩ := known
  dsimp only at hmotion ⊢
  have hqueued : (if e₂.isPlus2 then e₂.enqueue greeting else (.ok (), e₂)).2.senses = e₂.senses := by
    split
    · exact senses_enqueue e₂ greeting
    · rfl
  generalize (if e₂.isPlus2 then e₂.enqueue greeting else (.ok (), e₂)) = queued at hqueued ⊢
  obtain ⟨answer, e₃⟩ := queued
  cases answer with
  | ok done => exact hqueued.trans hmotion
  | error cause => exact hqueued.trans hmotion

/-! ## All operations -/

/-- **The senses after an operation.** -/
theorem senses_after (o : Operation σ) : (e.after o).senses = e.sensesAfter o := by
  cases o with
  | start store entropy now => exact senses_start e now store entropy
  | byte byte now => exact senses_onByte e now byte
  | request r =>
    rw [after, apply_eq_call, senses_call, senses_emit e rfl]
    rfl
  | call r => exact senses_call e r
  | beat => exact senses_countTick e
  | obstruction obstructed now => exact senses_onObstruction e now obstructed
  | press now => exact senses_countRecovery e now
  | tick now => exact senses_tick e now
  | flush store => exact senses_flush e store

end Storing

end Engine

end DoorBridge
