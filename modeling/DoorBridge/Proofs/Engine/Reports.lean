import DoorBridge.Proofs.View

/-!
# Proofs.Engine.Reports — everything visible is reported once, as it changes

`Engine.Reports e e'` says that what the second engine has reported more than the first tells its view from the view of the
first.  It can be chained (`Reports.trans`); logging and taking an observation of the door have it (`reports_emit`,
`reports_see`), and so has every operation of the engine (`reports_after`, `reports_transmitNext`).
-/

namespace DoorBridge

namespace Engine

/-- What the second engine has reported more than the first tells its view from the view of the first. -/
def Reports (e e' : Engine) : Prop :=
  ∃ new, e'.events = e.events ++ new ∧ Tells e.door.view (Event.notifications new) e'.door.view

namespace Reports

variable {e e' e'' : Engine}

theorem refl (e : Engine) : e.Reports e := ⟨[], (List.append_nil _).symm, .nil _⟩

theorem trans (h : e.Reports e') (h' : e'.Reports e'') : e.Reports e'' := by
  obtain ⟨new, hevents, htells⟩ := h
  obtain ⟨more, hmore, htells'⟩ := h'
  refine ⟨new ++ more, ?_, ?_⟩
  · rw [hmore, hevents, List.append_assoc]
  · rw [notifications_append]
    exact htells.append htells'

/-- What is neither seen nor reported does not count. -/
theorem of_same (h : e.Reports e') (hevents : e''.events = e'.events) (hview : e''.door.view = e'.door.view) :
    e.Reports e'' := by
  obtain ⟨new, hnew, htells⟩ := h
  exact ⟨new, hevents.trans hnew, hview ▸ htells⟩

end Reports

variable (e : Engine) (now : Nat)

/-- Logging is no notification. -/
theorem reports_emit {events : List Event} (h : Event.notifications events = []) : e.Reports (e.emit events) :=
  ⟨events, rfl, h ▸ .nil _⟩

theorem reports_see {o : Observation} (h : Tells e.door.view (Event.notifications o.events) o.door.view) :
    e.Reports (e.see o) := ⟨o.events, rfl, h⟩

theorem reports_enqueue (actions : List PacketAction) : e.Reports (e.enqueue actions).2 := by
  unfold enqueue
  split
  · exact .refl e
  · exact e.reports_emit rfl

/-! ## Requests -/

theorem reports_doorCommand (action : DoorAction) : e.Reports (e.doorCommand action).2 :=
  (e.reports_emit rfl).trans (reports_enqueue _ _)

theorem reports_setLight (on : Bool) : e.Reports (e.setLight on).2 := by
  unfold setLight
  split
  · exact .refl e
  · exact e.reports_enqueue _

theorem reports_setLock (locked : Bool) : e.Reports (e.setLock locked).2 := by
  have htarget : e.Reports { e with door := { e.door with targetLock := locked } } := (Reports.refl e).of_same rfl rfl
  unfold setLock
  dsimp only
  split
  · exact htarget
  · exact htarget.trans (reports_enqueue _ _)

theorem reports_requestStatus : e.Reports e.requestStatus.2 := by
  unfold requestStatus
  split
  · exact e.reports_enqueue _
  · exact .refl e

theorem reports_cancelCountdown : e.Reports e.cancelCountdown.2 := by
  unfold cancelCountdown
  split
  · exact (e.reports_emit rfl).of_same rfl rfl
  · exact .refl e

theorem reports_restoreLight (saved : Bool) : e.Reports (e.restoreLight saved).2 := by
  unfold restoreLight
  generalize e.queue.discard isUnsentBlink e.releaseIsNext = discarded
  obtain ⟨dropped, queue⟩ := discarded
  dsimp only
  generalize hlogged : (if dropped > 0 then
    { e with queue }.emit [.debug s!"Dropped {dropped} queued blinks"] else { e with queue }) = x
  have hx : e.Reports x := by
    rw [← hlogged]
    split
    · exact e.reports_emit rfl
    · exact .refl e
  split
  · exact hx.trans (x.reports_setLight saved)
  · split
    · exact hx.trans (x.reports_enqueue _)
    · exact hx

theorem reports_cancelClose : e.Reports e.cancelClose.2 := by
  have hcancel := e.reports_cancelCountdown
  unfold cancelClose
  split
  · generalize e.cancelCountdown = cancelled at hcancel ⊢
    obtain ⟨answer, x⟩ := cancelled
    cases answer with
    | none => exact hcancel
    | some saved => exact (hcancel.trans (x.reports_emit rfl)).trans (reports_restoreLight _ _)
  · exact .refl e

theorem reports_openDoor : e.Reports e.openDoor.2 := by
  have hcancel := e.reports_cancelClose
  unfold openDoor
  generalize e.cancelClose = cancelled at hcancel ⊢
  obtain ⟨answer, x⟩ := cancelled
  cases answer with
  | error cause => exact hcancel
  | ok done =>
    dsimp only
    split
    · exact hcancel
    · exact hcancel.trans (x.reports_doorCommand _)
    · exact hcancel.trans (x.reports_doorCommand _)

theorem reports_closeDoor : e.Reports e.closeDoor.2 := by
  unfold closeDoor
  split
  · exact .refl e
  · exact e.reports_doorCommand _
  · split
    · exact e.reports_cancelCountdown.trans (reports_doorCommand _ _)
    · split
      · exact e.reports_doorCommand _
      · exact ((e.reports_emit rfl).trans (reports_emit _ rfl)).of_same rfl rfl

theorem reports_resetDoor : e.Reports e.resetDoor := by
  have hcleared : e.Reports { e.emit [.warn "Door reset requested"] with queue := {} } :=
    (e.reports_emit rfl).of_same rfl rfl
  exact (hcleared.trans (reports_cancelCountdown _)).of_same rfl rfl

theorem reports_call (r : ControlRequest) : e.Reports (e.call r) := by
  cases r with
  | openDoor => exact e.reports_openDoor
  | closeDoor => exact e.reports_closeDoor
  | light on => exact e.reports_setLight on
  | lock locked => exact e.reports_setLock locked
  | getStatus => exact e.reports_requestStatus
  | reset => exact e.reports_resetDoor

theorem reports_apply (r : ControlRequest) : e.Reports (e.apply r).2 := by
  rw [apply_eq_call]
  exact (e.reports_emit rfl).trans (reports_call _ r)

theorem reports_countTick : e.Reports e.countTick.2 := by
  unfold countTick
  generalize e.countdown.tick = ticked
  obtain ⟨step, countdown⟩ := ticked
  have hcounted : e.Reports { e with countdown } := (Reports.refl e).of_same rfl rfl
  dsimp only
  split
  · exact hcounted
  · exact hcounted.trans (reports_setLight _ _)
  · split
    · exact hcounted
    · exact hcounted.trans (reports_doorCommand _ _)
  · exact hcounted.of_same rfl rfl

/-! ## Received traffic -/

theorem reports_triggerMotion (trigger : MotionTrigger) : e.Reports (e.triggerMotion trigger now) := by
  unfold triggerMotion
  split
  · exact e.reports_see (e.door.tells_raiseMotion now)
  · exact .refl e

theorem reports_countRecovery : e.Reports (e.countRecovery now) := by
  unfold countRecovery
  generalize e.recovery.press now = pressed
  obtain ⟨complete, recovery⟩ := pressed
  have hcounted : e.Reports { e.emit [.trace s!"Recovery press {e.recovery.count now}"] with recovery } :=
    (e.reports_emit rfl).of_same rfl rfl
  dsimp only
  split
  · exact ((hcounted.trans (reports_emit _ rfl)).trans (reports_emit _ rfl)).of_same rfl rfl
  · exact hcounted

theorem reports_onObstruction (obstructed : Bool) : e.Reports (e.onObstruction obstructed now) := by
  have hseen : e.Reports (e.see (e.door.setObstructed obstructed)) :=
    e.reports_see (e.door.tells_setObstructed obstructed)
  unfold onObstruction
  dsimp only
  split
  · exact hseen.trans (reports_triggerMotion _ now _)
  · exact hseen

/-- That a motion sensor was found is no news of the view. -/
theorem reports_onMotion : e.Reports (e.onMotion now) := by
  unfold onMotion
  dsimp only
  generalize hfound : (if e.door.hasMotionSensor then e else _ : Engine) = x
  have hx : e.Reports x := by
    rw [← hfound]
    split
    · exact .refl e
    · exact ⟨_, rfl, .cons nofun (.nil _)⟩
  exact hx.trans (x.reports_see (x.door.tells_raiseMotion now))

theorem reports_applyDoor (state : DoorState) : e.Reports (e.applyDoor state) := by
  have hseen : e.Reports (e.see (e.door.observeDoor state)) := e.reports_see (e.door.tells_observeDoor state)
  unfold applyDoor
  dsimp only
  split
  · exact hseen.trans (reports_cancelCountdown _)
  · exact hseen

theorem reports_applyLevels (light lock : Bool) : e.Reports (e.applyLevels light lock) := by
  have hconfirmed : e.Reports { e with lightUnconfirmed := false } := (Reports.refl e).of_same rfl rfl
  have hlight := hconfirmed.trans (reports_see _ (Door.tells_observeLight _ light))
  exact hlight.trans (reports_see _ (Door.tells_observeLock _ lock))

theorem reports_askStatus : e.Reports e.askStatus := e.reports_requestStatus

theorem reports_onPacket (p : Packet) : e.Reports (e.onPacket p now) := by
  cases p with
  | status s =>
    have hlogged : e.Reports (e.emit [.trace s!"Status obstructed {s.obstructed} learn {s.learn}"]) :=
      e.reports_emit rfl
    exact (hlogged.trans (reports_applyDoor _ s.door)).trans (reports_applyLevels _ s.light s.lock)
  | lock command pressed =>
    have hseen : e.Reports (e.see (e.door.setTargetLock (command.apply e.door.targetLock))) :=
      e.reports_see (e.door.tells_setTargetLock _)
    unfold onPacket
    dsimp only
    split
    · exact (hseen.trans (reports_triggerMotion _ now _)).trans (reports_askStatus _)
    · exact hseen.trans (reports_askStatus _)
  | light command pressed =>
    have hseen := (e.reports_countRecovery now).trans
      (reports_see _ (Door.tells_observeLight _ (command.apply (e.countRecovery now).door.light)))
    unfold onPacket
    dsimp only
    split
    · exact (hseen.trans (reports_triggerMotion _ now _)).trans (reports_askStatus _)
    · exact hseen.trans (reports_askStatus _)
  | doorAction action pressed id =>
    unfold onPacket
    dsimp only
    split
    · exact (e.reports_countRecovery now).trans (reports_triggerMotion _ now _)
    · exact .refl e
  | motion => exact (e.reports_onMotion now).trans (reports_askStatus _)
  | getStatus | getOpenings => exact .refl e
  | unknown command data => exact e.reports_emit rfl

theorem reports_onButton (b : Button) : e.Reports (e.onButton b now) := by
  have hlogged : e.Reports (e.emit [.trace s!"Button {hexText b.byte.toNat}"]) := e.reports_emit rfl
  cases b with
  | doorPress => exact (hlogged.trans (reports_countRecovery _ now)).trans (reports_triggerMotion _ now _)
  | lightPress | lockPress => exact hlogged.trans (reports_triggerMotion _ now _)
  | doorRelease | lightRelease | lockRelease => exact hlogged

theorem reports_onDoorReport (state : DoorState) : e.Reports (e.onDoorReport state) := by
  unfold onDoorReport
  split
  · generalize e.debounce.accept state = filtered
    obtain ⟨accepted, debounce⟩ := filtered
    have hfiltered : e.Reports { e with debounce } := (Reports.refl e).of_same rfl rfl
    dsimp only
    split
    · exact hfiltered.trans (reports_applyDoor _ _)
    · exact hfiltered
  · exact e.reports_applyDoor state

theorem reports_onRecord (r : Record) : e.Reports (e.onRecord r now) := by
  cases r with
  | button b => exact e.reports_onButton now b
  | other byte => exact e.reports_emit rfl
  | status s =>
    unfold onRecord
    dsimp only
    generalize hpanel : (if e.arbiter.wallPanel then e else _ : Engine) = x
    have hx : e.Reports x := by
      rw [← hpanel]
      split
      · exact .refl e
      · exact (e.reports_emit rfl).of_same rfl rfl
    cases s with
    | door state => exact hx.trans (x.reports_onDoorReport state)
    | lightLock light lock => exact hx.trans (x.reports_applyLevels light lock)
    | obstruction value => exact hx.trans (x.reports_emit rfl)

theorem reports_onFrame (frame : Frame) : e.Reports (e.onFrame frame now) := by
  unfold onFrame
  split
  · exact (e.reports_emit rfl).trans (reports_onPacket _ now _)
  · exact e.reports_emit rfl

theorem reports_onByte (byte : UInt8) : e.Reports (e.onByte byte now) := by
  have hread (arbiter : Arbiter) (frames : FrameReader) (records : RecordReader) :
      e.Reports { e with arbiter, frames, records } := (Reports.refl e).of_same rfl rfl
  unfold onByte
  dsimp only
  split
  · generalize e.frames.feed byte now = fed
    obtain ⟨answer, frames⟩ := fed
    dsimp only
    split
    · exact (hread _ _ _).trans (reports_onFrame _ now _)
    · exact hread _ _ _
    · exact (hread _ _ _).trans (reports_emit _ rfl)
  · generalize e.records.feed byte now = fed
    obtain ⟨answer, records⟩ := fed
    dsimp only
    split
    · exact (hread _ _ _).trans (reports_onRecord _ now _)
    · exact hread _ _ _
    · exact (hread _ _ _).trans (reports_emit _ rfl)

/-! ## Servicing -/

theorem reports_tick : e.Reports (e.tick now) := by
  have hseen : e.Reports (e.see (e.door.expireMotion now)) := e.reports_see (e.door.tells_expireMotion now)
  unfold tick
  dsimp only
  generalize hframes : (if (e.see (e.door.expireMotion now)).frames.isOverdue now then _ else _ : Engine) = x
  have hx : e.Reports x := by
    rw [← hframes]
    split
    · exact hseen.trans (reports_emit _ rfl)
    · exact hseen
  have hdropped : e.Reports { x with frames := (e.see (e.door.expireMotion now)).frames.expire now } :=
    hx.of_same rfl rfl
  split
  · exact (hdropped.trans (reports_emit _ rfl)).of_same rfl rfl
  · exact hdropped.of_same rfl rfl

theorem notifications_sentEvent (packet : Packet) (frame : List UInt8) :
    Event.notifications [e.sentEvent packet frame] = [] := by
  unfold sentEvent
  split <;> rfl

theorem reports_transmitNext {β : Type} [Bus β] (bus : β) : e.Reports (e.transmitNext bus now).2.1 := by
  unfold transmitNext
  split
  · exact .refl e
  next action hfront =>
  split
  · exact .refl e
  split
  · exact (e.reports_emit rfl).of_same rfl rfl
  next frame hframe =>
  generalize e.arbiter.transmit frame now action.postDelay bus = tried
  obtain ⟨sent, arbiter, bus'⟩ := tried
  have hnoted : e.Reports { e with arbiter } := (Reports.refl e).of_same rfl rfl
  dsimp only
  split
  · exact (hnoted.trans (reports_emit _ (notifications_sentEvent _ _ _))).of_same rfl rfl
  · exact hnoted.trans (reports_emit _ rfl)

section Storing

variable {σ : Type} [Storage σ]

theorem notifications_clearRecords (store : σ) (keys : List StorageKey) :
    Event.notifications (clearRecords store keys).2.1 = [] := by
  induction keys generalizing store with
  | nil => rfl
  | cons key keys ih =>
    unfold clearRecords
    dsimp only
    rw [notifications_append, ih, List.append_nil]
    split <;> rfl

theorem reports_flushReset (store : σ) : e.Reports (e.flushReset store).2.1 := by
  have hlogs := notifications_clearRecords store resetKeys
  unfold flushReset
  generalize clearRecords store resetKeys = cleared at hlogs ⊢
  obtain ⟨failure, events, store'⟩ := cleared
  dsimp only at hlogs
  refine ⟨events ++ [.note (.restartRequested .reset)], rfl, ?_⟩
  rw [notifications_append, hlogs]
  exact .cons nofun (.nil _)

theorem reports_flushMotion (store : σ) : e.Reports (e.flushMotion store).2.1 := by
  have htaken (pending : Pending) : e.Reports { e with pending } := (Reports.refl e).of_same rfl rfl
  unfold flushMotion
  split
  · dsimp only
    split
    · exact htaken _
    · exact (htaken _).trans (reports_emit _ rfl)
  · exact .refl e

theorem notifications_save (i : Identity) (store : σ) : Event.notifications (i.save store).events = [] := by
  unfold Identity.save
  split <;> rfl

theorem reports_flushCounter (store : σ) : e.Reports (e.flushCounter store).2.1 := by
  have htaken (pending : Pending) : e.Reports { e with pending } := (Reports.refl e).of_same rfl rfl
  unfold flushCounter
  dsimp only
  split
  · exact ((htaken _).trans (reports_emit _ (notifications_save _ _))).of_same rfl rfl
  · exact htaken _

theorem reports_flushRestart : e.Reports e.flushRestart := by
  unfold flushRestart
  split
  · exact ⟨_, rfl, .cons nofun (.nil _)⟩
  · exact .refl e

theorem reports_flush (store : σ) : e.Reports (e.flush store).2.1 := by
  unfold flush
  split
  · exact e.reports_flushReset store
  · exact ((e.reports_flushMotion store).trans (reports_flushCounter _ _)).trans (reports_flushRestart _)

theorem notifications_establishId (store : σ) (entropy : UInt32) :
    Event.notifications (Identity.establishId store entropy).2.2.2 = [] := by
  have hlogs : Event.notifications (Identity.loadId store).2.2 = [] := by
    unfold Identity.loadId
    split <;> rfl
  unfold Identity.establishId
  generalize Identity.loadId store = loaded at hlogs ⊢
  obtain ⟨found, failure, events⟩ := loaded
  dsimp only at hlogs
  cases found with
  | some id => exact hlogs
  | none =>
    dsimp only
    split
    · dsimp only
      rw [notifications_append, hlogs]
      rfl
    · dsimp only
      rw [notifications_append, notifications_append, hlogs]
      rfl

theorem notifications_restore (store : σ) (entropy : UInt32) :
    Event.notifications (Identity.restore store entropy).events = [] := by
  have hid := notifications_establishId store entropy
  unfold Identity.restore
  generalize Identity.establishId store entropy = established at hid ⊢
  obtain ⟨id, store', failure, idEvents⟩ := established
  have hcounter : Event.notifications (Identity.loadCounter store').2.2 = [] := by
    unfold Identity.loadCounter
    split <;> rfl
  dsimp only at hid ⊢
  rw [notifications_append, notifications_append, notifications_append, hid, hcounter, notifications_save]
  rfl

theorem reports_loadIdentity (store : σ) (entropy : UInt32) : e.Reports (e.loadIdentity store entropy).2.1 := by
  unfold loadIdentity
  split
  · have hidentity (identity : Identity) : e.Reports { e with identity } := (Reports.refl e).of_same rfl rfl
    refine (hidentity _).trans (reports_emit _ ?_)
    rw [notifications_append, notifications_restore]
    rfl
  · exact .refl e

theorem reports_loadMotion (found : Except StorageError (List UInt8)) : e.Reports (e.loadMotion found).2 := by
  rw [loadMotion.eq_def]
  split
  · split
    · exact .refl e
    · exact (e.reports_emit rfl).of_same rfl rfl
  · exact .refl e
  · exact .refl e
  · exact e.reports_emit rfl

theorem reports_start (store : σ) (entropy : UInt32) : e.Reports (e.start store entropy now).2.1 := by
  have hopened : e.Reports (e.emit [.info
      s!"Starting Security+ {e.settings.security.number} bridge, ttc {e.settings.ttcSeconds.toNat} s"]) :=
    e.reports_emit rfl
  unfold start
  dsimp only
  generalize e.emit _ = opened at hopened ⊢
  have hloaded := hopened.trans (opened.reports_loadIdentity store entropy)
  generalize opened.loadIdentity store entropy = loaded at hloaded ⊢
  obtain ⟨failure, e₁, store'⟩ := loaded
  dsimp only at hloaded ⊢
  have hknown := hloaded.trans (e₁.reports_loadMotion (Storage.read store' .hasMotion 1))
  generalize e₁.loadMotion (Storage.read store' .hasMotion 1) = known at hknown ⊢
  obtain ⟨motionFailure, e₂⟩ := known
  dsimp only at hknown ⊢
  have hqueued : e.Reports (if e₂.isPlus2 then e₂.enqueue greeting else (.ok (), e₂)).2 := by
    split
    · exact hknown.trans (e₂.reports_enqueue greeting)
    · exact hknown
  generalize (if e₂.isPlus2 then e₂.enqueue greeting else (.ok (), e₂)) = queued at hqueued ⊢
  obtain ⟨answer, e₃⟩ := queued
  cases answer with
  | ok done => exact hqueued.of_same rfl rfl
  | error cause => exact hqueued

/-- **Every operation reports what it changes, and nothing else.** -/
theorem reports_after (o : Operation σ) : e.Reports (e.after o) := by
  cases o with
  | start store entropy now => exact e.reports_start now store entropy
  | byte byte now => exact e.reports_onByte now byte
  | request r => exact e.reports_apply r
  | call r => exact e.reports_call r
  | beat => exact e.reports_countTick
  | obstruction obstructed now => exact e.reports_onObstruction now obstructed
  | press now => exact e.reports_countRecovery now
  | tick now => exact e.reports_tick now
  | flush store => exact e.reports_flush store

end Storing

end Engine

end DoorBridge
