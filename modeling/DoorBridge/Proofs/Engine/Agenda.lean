import DoorBridge.Proofs.Engine.Reports

/-!
# Proofs.Engine.Agenda — what is left for later, and who changes it

* `Engine.agenda` is what the engine has put off: when the next frame may start (the arbiter), and what the next flush
  was told.  The restarts that were asked for so far belong to it, since a flush is what asks for them.
* `Engine.agendaAfter` says what an operation does to it.  Only four kinds of operations touch it: those that bring bytes
  in (or start) note the time, a reset and the last beat of a countdown give orders, and a flush carries them out.
  `agenda_after` proves it, put together from one lemma for every function of the engine; `orders_after` says of the
  orders alone that outside flushes they stay.
-/

namespace DoorBridge

/-! ## Restarts among the events -/

def Notification.restart? : Notification → Option RestartReason
  | restartRequested reason => some reason
  | _ => none

/-- The restarts that a row of events asks for, in order. -/
def restartsIn (events : List Event) : List RestartReason :=
  (Event.notifications events).filterMap Notification.restart?

theorem restartsIn_append (events more : List Event) :
    restartsIn (events ++ more) = restartsIn events ++ restartsIn more := by
  unfold restartsIn
  rw [notifications_append, List.filterMap_append]

theorem mem_restartsIn {events : List Event} {reason : RestartReason} :
    reason ∈ restartsIn events ↔ .restartRequested reason ∈ Event.notifications events := by
  unfold restartsIn
  rw [List.mem_filterMap]
  constructor
  · rintro ⟨n, hn, hreason⟩
    cases n with
    | restartRequested found =>
      obtain rfl : found = reason := Option.some.inj hreason
      exact hn
    | _ => contradiction
  · intro h
    exact ⟨_, h, rfl⟩

/-- What only logs asks for no restart. -/
theorem restartsIn_of_logs {events : List Event} (h : Event.notifications events = []) : restartsIn events = [] := by
  unfold restartsIn
  rw [h]
  rfl

theorem restartsIn_reportIf {changed : Bool} {events : List Event} (h : restartsIn events = []) :
    restartsIn (Door.reportIf changed events) = [] := by
  unfold Door.reportIf
  split
  · exact h
  · rfl

namespace Door

variable (d : Door)

theorem restarts_observeDoor (state : DoorState) : restartsIn (d.observeDoor state).events = [] := by
  unfold observeDoor
  cases state.target? with
  | none => rfl
  | some target =>
    dsimp only
    rw [restartsIn_append, restartsIn_append, restartsIn_reportIf rfl, restartsIn_reportIf rfl,
      restartsIn_reportIf rfl]
    rfl

theorem restarts_observeLock (locked : Bool) : restartsIn (d.observeLock locked).events = [] := by
  unfold observeLock
  split <;> rfl

end Door

/-! ## The agenda -/

def Operation.isFlush {σ : Type} : Operation σ → Bool
  | flush _ => true
  | _ => false

/-- The restart that the next tick fires, if it is the last one before a restart. -/
def Countdown.restart? (c : Countdown) : Option RestartReason :=
  match c.tick.1 with
  | some (.fire (.restart reason)) => some reason
  | _ => none

/-- Whether it is a status record of Security+ 1.0, which comes only where a wall console polls. -/
def Inbound.isPoll : Inbound → Bool
  | record (.status _) => true
  | _ => false

/-- What was put off: when the next frame may start, what the next flush was told, and the restarts that the flushes so
far have asked for. -/
structure Agenda where
  arbiter : Arbiter
  /-- Whether a restart wants the counter saved. -/
  save : Bool
  reset : Bool
  restart? : Option RestartReason
  /-- The restarts asked for so far, in order. -/
  requested : List RestartReason
  deriving DecidableEq, Repr

namespace Agenda

/-- The restarts that the next flush asks for. -/
def due (a : Agenda) : List RestartReason := if a.reset then [.reset] else a.restart?.toList

/-- The agenda once a flush has carried out what it was told. -/
def flushed (a : Agenda) : Agenda := ⟨a.arbiter, false, false, none, a.requested ++ a.due⟩

/-- The agenda once something was received: a status record shows that a wall console polls the opener. -/
def hear (a : Agenda) (x : Inbound) : Agenda :=
  { a with arbiter := { a.arbiter with wallPanel := a.arbiter.wallPanel || x.isPoll } }

theorem hear_of_not_poll (a : Agenda) {x : Inbound} (h : x.isPoll = false) : a.hear x = a := by
  unfold hear
  rw [h, Bool.or_false]

end Agenda

namespace Engine

def agenda (e : Engine) : Agenda :=
  ⟨e.arbiter, e.pending.save, e.pending.reset, e.pending.restart?, restartsIn e.events⟩

/-- The agenda after an operation. -/
def agendaAfter {σ : Type} (e : Engine) : Operation σ → Agenda
  | .start _ _ now =>
    if e.isPlus2 && !e.queue.fits greeting then e.agenda else { e.agenda with arbiter := e.arbiter.noteRx now }
  | .byte byte now =>
    let heard := { e.agenda with arbiter := e.arbiter.noteRx now }
    ((e.inbound? byte now).map heard.hear).getD heard
  | .request .reset | .call .reset => { e.agenda with reset := true }
  | .beat =>
    { e.agenda with
      save := e.agenda.save || e.countdown.restart?.isSome
      restart? := e.countdown.restart?.or e.agenda.restart? }
  | .flush _ => e.agenda.flushed
  | _ => e.agenda

/-- The restart that an operation makes pending, if it is the last beat before one. -/
def firedBy {σ : Type} (e : Engine) : Operation σ → Option RestartReason
  | .beat => e.countdown.restart?
  | _ => none

variable (e : Engine) (now : Nat)

theorem agenda_emit {events : List Event} (h : restartsIn events = []) : (e.emit events).agenda = e.agenda := by
  have hevents : (e.emit events).agenda = { e.agenda with requested := restartsIn (e.events ++ events) } := rfl
  rw [hevents, restartsIn_append, h, List.append_nil]
  rfl

theorem agenda_see {o : Observation} (h : restartsIn o.events = []) : (e.see o).agenda = e.agenda :=
  agenda_emit e h

@[simp] theorem agenda_enqueue (actions : List PacketAction) : (e.enqueue actions).2.agenda = e.agenda := by
  unfold enqueue
  split
  · rfl
  · exact agenda_emit e rfl

/-! ## Requests -/

@[simp] theorem agenda_doorCommand (action : DoorAction) : (e.doorCommand action).2.agenda = e.agenda := by
  unfold doorCommand
  rw [agenda_enqueue, agenda_emit e rfl]

@[simp] theorem agenda_setLight (on : Bool) : (e.setLight on).2.agenda = e.agenda := by
  unfold setLight
  split <;> simp

@[simp] theorem agenda_setLock (locked : Bool) : (e.setLock locked).2.agenda = e.agenda := by
  unfold setLock
  dsimp only
  split
  · rfl
  · rw [agenda_enqueue]
    rfl

@[simp] theorem agenda_requestStatus : e.requestStatus.2.agenda = e.agenda := by
  unfold requestStatus
  split <;> simp

@[simp] theorem agenda_startCountdown (ticks : Nat) (action : CountdownAction) :
    (e.startCountdown ticks action).agenda = e.agenda := agenda_emit e rfl

@[simp] theorem agenda_cancelCountdown : e.cancelCountdown.2.agenda = e.agenda := by
  unfold cancelCountdown
  split
  · exact agenda_emit e rfl
  · rfl

@[simp] theorem agenda_restoreLight (saved : Bool) : (e.restoreLight saved).2.agenda = e.agenda := by
  unfold restoreLight
  generalize e.queue.discard isUnsentBlink e.releaseIsNext = discarded
  obtain ⟨dropped, queue⟩ := discarded
  dsimp only
  generalize hlogged : (if dropped > 0 then
    { e with queue }.emit [.debug s!"Dropped {dropped} queued blinks"] else { e with queue }) = x
  have hx : x.agenda = e.agenda := by
    rw [← hlogged]
    split
    · exact agenda_emit { e with queue } rfl
    · rfl
  split
  · rw [agenda_setLight, hx]
  · split
    · rw [agenda_enqueue, hx]
    · exact hx

@[simp] theorem agenda_cancelClose : e.cancelClose.2.agenda = e.agenda := by
  have hcancel := agenda_cancelCountdown e
  unfold cancelClose
  split
  · generalize e.cancelCountdown = cancelled at hcancel ⊢
    obtain ⟨answer, x⟩ := cancelled
    cases answer with
    | none => exact hcancel
    | some saved =>
      dsimp only
      rw [agenda_restoreLight, agenda_emit x rfl, hcancel]
  · rfl

@[simp] theorem agenda_openDoor : e.openDoor.2.agenda = e.agenda := by
  have hcancel := agenda_cancelClose e
  unfold openDoor
  generalize e.cancelClose = cancelled at hcancel ⊢
  obtain ⟨answer, x⟩ := cancelled
  cases answer with
  | error cause => exact hcancel
  | ok done =>
    dsimp only at hcancel ⊢
    split
    · exact hcancel
    · rw [agenda_doorCommand, hcancel]
    · rw [agenda_doorCommand, hcancel]

@[simp] theorem agenda_closeDoor : e.closeDoor.2.agenda = e.agenda := by
  unfold closeDoor
  split
  · rfl
  · simp
  · split
    · simp
    · split
      · simp
      · dsimp only
        rw [agenda_startCountdown, agenda_emit e rfl]

theorem agenda_resetDoor : e.resetDoor.agenda = { e.agenda with reset := true } := by
  have hcancel := agenda_cancelCountdown { e.emit [.warn "Door reset requested"] with queue := {} }
  have hlogged : { e.emit [.warn "Door reset requested"] with queue := {} }.agenda = e.agenda := agenda_emit e rfl
  unfold resetDoor
  dsimp only
  generalize cancelCountdown _ = cancelled at hcancel ⊢
  rw [← hlogged, ← hcancel]
  rfl

theorem agenda_call {σ : Type} (r : ControlRequest) : (e.call r).agenda = e.agendaAfter (.call r : Operation σ) := by
  cases r with
  | openDoor => exact agenda_openDoor e
  | closeDoor => exact agenda_closeDoor e
  | light on => exact agenda_setLight e on
  | lock locked => exact agenda_setLock e locked
  | getStatus => exact agenda_requestStatus e
  | reset => exact agenda_resetDoor e

theorem agenda_countTick {σ : Type} : e.countTick.2.agenda = e.agendaAfter (.beat : Operation σ) := by
  have hsame : { e.agenda with save := e.agenda.save || false } = e.agenda := by rw [Bool.or_false]
  rw [agendaAfter]
  unfold countTick Countdown.restart?
  generalize e.countdown.tick = ticked
  obtain ⟨step, countdown⟩ := ticked
  have hcounted : { e with countdown }.agenda = e.agenda := rfl
  cases step with
  | none => exact hsame.symm
  | some step =>
    cases step with
    | blink =>
      dsimp only
      rw [agenda_setLight, hcounted]
      exact hsame.symm
    | fire action =>
      cases action with
      | closeDoor =>
        refine .trans ?_ hsame.symm
        dsimp only
        split
        · exact hcounted
        · rw [agenda_doorCommand, hcounted]
      | restart reason =>
        have hsaved : (e.agenda.save || true) = true := Bool.or_true _
        rw [Option.isSome_some, hsaved]
        rfl

/-! ## Received traffic -/

@[simp] theorem agenda_triggerMotion (trigger : MotionTrigger) : (e.triggerMotion trigger now).agenda = e.agenda := by
  unfold triggerMotion
  split
  · exact agenda_see e (restartsIn_reportIf rfl)
  · rfl

@[simp] theorem agenda_countRecovery : (e.countRecovery now).agenda = e.agenda := by
  unfold countRecovery
  generalize e.recovery.press now = pressed
  obtain ⟨complete, recovery⟩ := pressed
  have hcounted : { e.emit [.trace s!"Recovery press {e.recovery.count now}"] with recovery }.agenda = e.agenda :=
    agenda_emit e rfl
  dsimp only
  split
  · rw [agenda_startCountdown, agenda_emit _ rfl, hcounted]
  · exact hcounted

@[simp] theorem agenda_onObstruction (obstructed : Bool) : (e.onObstruction obstructed now).agenda = e.agenda := by
  have hseen : (e.see (e.door.setObstructed obstructed)).agenda = e.agenda := agenda_see e (restartsIn_reportIf rfl)
  unfold onObstruction
  dsimp only
  split
  · rw [agenda_triggerMotion, hseen]
  · exact hseen

@[simp] theorem agenda_onMotion : (e.onMotion now).agenda = e.agenda := by
  unfold onMotion
  dsimp only
  generalize hfound : (if e.door.hasMotionSensor then e else _ : Engine) = x
  have hx : x.agenda = e.agenda := by
    rw [← hfound]
    split
    · rfl
    · exact agenda_emit e rfl
  rw [agenda_see x (restartsIn_reportIf rfl), hx]

@[simp] theorem agenda_applyDoor (state : DoorState) : (e.applyDoor state).agenda = e.agenda := by
  have hseen : (e.see (e.door.observeDoor state)).agenda = e.agenda :=
    agenda_see e (e.door.restarts_observeDoor state)
  unfold applyDoor
  dsimp only
  split
  · rw [agenda_cancelCountdown, hseen]
  · exact hseen

@[simp] theorem agenda_applyLevels (light lock : Bool) : (e.applyLevels light lock).agenda = e.agenda := by
  unfold applyLevels
  dsimp only
  rw [agenda_see _ (Door.restarts_observeLock _ lock), agenda_see _ (restartsIn_reportIf rfl)]
  rfl

@[simp] theorem agenda_askStatus : e.askStatus.agenda = e.agenda := agenda_requestStatus e

@[simp] theorem agenda_onPacket (p : Packet) : (e.onPacket p now).agenda = e.agenda := by
  cases p with
  | status s =>
    unfold onPacket
    dsimp only
    rw [agenda_applyLevels, agenda_applyDoor, agenda_emit e rfl]
  | lock command pressed =>
    have hseen : (e.see (e.door.setTargetLock (command.apply e.door.targetLock))).agenda = e.agenda :=
      agenda_see e (restartsIn_reportIf rfl)
    unfold onPacket
    rw [agenda_askStatus]
    split
    · rw [agenda_triggerMotion, hseen]
    · exact hseen
  | light command pressed =>
    have hseen (x : Engine) : (x.see (x.door.observeLight (command.apply x.door.light))).agenda = x.agenda :=
      agenda_see x (restartsIn_reportIf rfl)
    unfold onPacket
    rw [agenda_askStatus]
    split
    · rw [agenda_triggerMotion, hseen, agenda_countRecovery]
    · rw [hseen, agenda_countRecovery]
  | doorAction action pressed id =>
    unfold onPacket
    dsimp only
    split
    · simp
    · rfl
  | motion =>
    unfold onPacket
    simp
  | getStatus | getOpenings => rfl
  | unknown command data => exact agenda_emit e rfl

@[simp] theorem agenda_onDoorReport (state : DoorState) : (e.onDoorReport state).agenda = e.agenda := by
  unfold onDoorReport
  split
  · generalize e.debounce.accept state = filtered
    obtain ⟨accepted, debounce⟩ := filtered
    dsimp only
    split
    · rw [agenda_applyDoor]
      rfl
    · rfl
  · simp

theorem agenda_onRecord (r : Record) : (e.onRecord r now).agenda = e.agenda.hear (.record r) := by
  cases r with
  | button b =>
    have hlogged : (e.emit [.trace s!"Button {hexText b.byte.toNat}"]).agenda = e.agenda := agenda_emit e rfl
    rw [Agenda.hear_of_not_poll _ rfl]
    unfold onRecord onButton
    cases b with
    | doorPress =>
      dsimp only
      rw [agenda_triggerMotion, agenda_countRecovery]
      exact hlogged
    | lightPress | lockPress =>
      dsimp only
      rw [agenda_triggerMotion]
      exact hlogged
    | doorRelease | lightRelease | lockRelease => exact hlogged
  | other byte =>
    rw [Agenda.hear_of_not_poll _ rfl]
    exact agenda_emit e rfl
  | status s =>
    unfold onRecord
    dsimp only
    generalize hpanel : (if e.arbiter.wallPanel then e else _ : Engine) = x
    have hx : x.agenda = e.agenda.hear (.record (.status s)) := by
      have hpoll : (Inbound.record (.status s)).isPoll = true := rfl
      unfold Agenda.hear
      rw [hpoll, Bool.or_true, ← hpanel]
      split
      · next hknown =>
        rw [← hknown]
        rfl
      · exact agenda_emit { e with arbiter := { e.arbiter with wallPanel := true } } rfl
    cases s with
    | door state => exact (agenda_onDoorReport x state).trans hx
    | lightLock light lock => exact (agenda_applyLevels x light lock).trans hx
    | obstruction value => exact (agenda_emit x rfl).trans hx

/-- What is received tells the arbiter of a wall console, and leaves the rest of the agenda as it is. -/
theorem agenda_deliver (x : Inbound) : (e.deliver x now).agenda = e.agenda.hear x := by
  cases x with
  | packet p =>
    rw [Agenda.hear_of_not_poll _ rfl]
    exact agenda_onPacket e now p
  | record r => exact agenda_onRecord e now r

theorem agenda_onFrame (frame : Frame) : (e.onFrame frame now).agenda = e.agenda := by
  unfold onFrame
  cases Message.decode frame with
  | ok m =>
    refine (agenda_deliver _ now (.packet m.packet)).trans ?_
    rw [Agenda.hear_of_not_poll _ rfl, agenda_emit e rfl]
  | error cause => exact agenda_emit e rfl

/-- A byte is noted with its time, and what it completes is taken. -/
theorem agenda_onByte {σ : Type} (byte : UInt8) :
    (e.onByte byte now).agenda = e.agendaAfter (.byte byte now : Operation σ) := by
  have hheard (frames : FrameReader) (records : RecordReader) :
      { e with arbiter := e.arbiter.noteRx now, frames, records }.agenda =
        { e.agenda with arbiter := e.arbiter.noteRx now } := rfl
  unfold onByte agendaAfter inbound?
  cases hsecurity : e.settings.security with
  | plus2 =>
    simp only [hsecurity]
    generalize e.frames.feed byte now = fed
    obtain ⟨answer, frames⟩ := fed
    cases answer with
    | error cause => exact (agenda_emit _ rfl).trans (hheard frames e.records)
    | ok found =>
      cases found with
      | none => exact hheard frames e.records
      | some frame =>
        dsimp only
        rw [agenda_onFrame, hheard frames e.records]
        cases Message.decode frame with
        | ok m => exact (Agenda.hear_of_not_poll _ rfl).symm
        | error cause => rfl
  | plus1 =>
    simp only [hsecurity]
    generalize e.records.feed byte now = fed
    obtain ⟨answer, records⟩ := fed
    cases answer with
    | error cause => exact (agenda_emit _ rfl).trans (hheard e.frames records)
    | ok found =>
      cases found with
      | none => exact hheard e.frames records
      | some record =>
        refine (agenda_deliver _ now (.record record)).trans ?_
        rw [hheard e.frames records]
        rfl

/-! ## Servicing -/

theorem agenda_tick : (e.tick now).agenda = e.agenda := by
  have hseen : (e.see (e.door.expireMotion now)).agenda = e.agenda := agenda_see e (restartsIn_reportIf rfl)
  unfold tick
  dsimp only
  generalize hframes : (if (e.see (e.door.expireMotion now)).frames.isOverdue now then _ else _ : Engine) = x
  have hx : x.agenda = e.agenda := by
    rw [← hframes]
    split
    · rw [agenda_emit _ rfl, hseen]
    · exact hseen
  have hdropped : { x with frames := (e.see (e.door.expireMotion now)).frames.expire now }.agenda = e.agenda := hx
  split
  · exact (agenda_emit _ rfl).trans hdropped
  · exact hdropped

/-- A try to send leaves all but the arbiter as it is. -/
theorem agenda_transmitNext {β : Type} [Bus β] (bus : β) : (e.transmitNext bus now).2.1.agenda =
    { e.agenda with arbiter := (e.transmitNext bus now).2.1.arbiter } := by
  unfold transmitNext
  split
  · rfl
  next action hfront =>
  split
  · rfl
  split
  · exact agenda_emit e rfl
  next frame hframe =>
  generalize e.arbiter.transmit frame now action.postDelay bus = tried
  obtain ⟨sent, arbiter, bus'⟩ := tried
  dsimp only
  cases sent with
  | ok done => exact agenda_emit { e with arbiter } (restartsIn_of_logs (notifications_sentEvent _ _ _))
  | error cause => exact agenda_emit { e with arbiter } rfl

section Storing

variable {σ : Type} [Storage σ]

theorem agenda_flushMotion (store : σ) : (e.flushMotion store).2.1.agenda = e.agenda := by
  unfold flushMotion
  split
  · dsimp only
    split
    · rfl
    · exact agenda_emit { e with pending := { e.pending with hasMotion := false } } rfl
  · rfl

/-- Saving the counter carries out the order to do so. -/
theorem agenda_flushCounter (store : σ) : (e.flushCounter store).2.1.agenda = { e.agenda with save := false } := by
  have htaken : { e with pending := { e.pending with save := false } }.agenda = { e.agenda with save := false } := rfl
  unfold flushCounter
  dsimp only
  split
  · rw [← htaken]
    exact agenda_emit { e with pending := { e.pending with save := false } }
      (restartsIn_of_logs (notifications_save _ _))
  · exact htaken

theorem agenda_flushRestart : e.flushRestart.agenda =
    { e.agenda with restart? := none, requested := e.agenda.requested ++ e.agenda.restart?.toList } := by
  unfold flushRestart
  cases hrestart : e.pending.restart? with
  | none =>
    have hnone : e.agenda.restart? = none := hrestart
    have hsame : { e.agenda with restart? := none } = e.agenda := by rw [← hnone]
    rw [hnone, Option.toList_none, List.append_nil]
    exact hsame.symm
  | some reason =>
    have hsome : e.agenda.restart? = some reason := hrestart
    have hlogged : restartsIn (e.events ++ [.info s!"Requesting restart: {reason.name}",
        .note (.restartRequested reason)]) = e.agenda.requested ++ [reason] := restartsIn_append _ _
    rw [hsome, Option.toList_some, ← hlogged]
    rfl

theorem agenda_flushReset (store : σ) : (e.flushReset store).2.1.agenda =
    ⟨e.arbiter, false, false, none, e.agenda.requested ++ [.reset]⟩ := by
  have hlogs := restartsIn_of_logs (notifications_clearRecords store resetKeys)
  unfold flushReset
  generalize clearRecords store resetKeys = cleared at hlogs ⊢
  obtain ⟨failure, events, store'⟩ := cleared
  have hlogged : restartsIn (e.events ++ (events ++ [.note (.restartRequested .reset)])) =
      e.agenda.requested ++ [.reset] := by
    rw [restartsIn_append, restartsIn_append, hlogs]
    rfl
  rw [← hlogged]
  rfl

/-- **A flush carries out what it was told**, whatever fails on the way. -/
theorem agenda_flush (store : σ) : (e.flush store).2.1.agenda = e.agenda.flushed := by
  unfold flush Agenda.flushed Agenda.due
  by_cases hreset : e.pending.reset = true
  · have hagenda : e.agenda.reset = true := hreset
    rw [if_pos hreset, if_pos hagenda]
    exact agenda_flushReset e store
  · have hagenda : e.agenda.reset = false := (Bool.not_eq_true _).mp hreset
    have hmotion := agenda_flushMotion e store
    rw [if_neg hreset, hagenda, if_neg Bool.false_ne_true]
    generalize e.flushMotion store = recorded at hmotion ⊢
    obtain ⟨failure, x, store'⟩ := recorded
    have hcounter := agenda_flushCounter x store'
    dsimp only at hmotion hcounter ⊢
    generalize x.flushCounter store' = saved at hcounter ⊢
    obtain ⟨failure', y, store''⟩ := saved
    dsimp only at hcounter ⊢
    rw [agenda_flushRestart, hcounter, hmotion, hagenda]

/-! ## Start -/

theorem agenda_loadIdentity (store : σ) (entropy : UInt32) :
    (e.loadIdentity store entropy).2.1.agenda = e.agenda := by
  unfold loadIdentity
  split
  · have hlogs : Event.notifications ((Identity.restore store entropy).events ++
        [.info s!"Id code {hexText (Identity.restore store entropy).identity.idCode.toNat}"]) = [] := by
      rw [notifications_append, notifications_restore]
      rfl
    exact agenda_emit { e with identity := (Identity.restore store entropy).identity } (restartsIn_of_logs hlogs)
  · rfl

theorem agenda_loadMotion (found : Except StorageError (List UInt8)) : (e.loadMotion found).2.agenda = e.agenda := by
  rw [loadMotion.eq_def]
  split
  · split
    · rfl
    · exact agenda_emit e rfl
  · rfl
  · rfl
  · exact agenda_emit e rfl

/-- What is loaded touches neither the queue nor the protocol, which decide whether the greeting is refused. -/
theorem agenda_greeting {e x : Engine} (hagenda : x.agenda = e.agenda) (hplus2 : x.isPlus2 = e.isPlus2)
    (hqueue : x.queue = e.queue) :
    (∃ cause y, (if x.isPlus2 then x.enqueue greeting else (.ok (), x)) = (.error cause, y) ∧
        y.agenda = e.agenda ∧ (e.isPlus2 && !e.queue.fits greeting) = true) ∨
      ∃ y, (if x.isPlus2 then x.enqueue greeting else (.ok (), x)) = (.ok (), y) ∧
        y.agenda = e.agenda ∧ (e.isPlus2 && !e.queue.fits greeting) = false := by
  rw [hplus2]
  cases he : e.isPlus2 with
  | false => exact .inr ⟨x, rfl, hagenda, rfl⟩
  | true =>
    rw [if_pos rfl]
    unfold enqueue
    rw [Queue.push?_eq, hqueue]
    cases hfits : e.queue.fits greeting with
    | false => exact .inl ⟨_, _, rfl, (agenda_emit x rfl).trans hagenda, rfl⟩
    | true => exact .inr ⟨_, rfl, hagenda, rfl⟩

/-- A start counts as traffic, unless the queue has no room for the greeting. -/
theorem agenda_start (store : σ) (entropy : UInt32) :
    (e.start store entropy now).2.1.agenda = e.agendaAfter (.start store entropy now) := by
  have hagenda : (e.emit [.info
      s!"Starting Security+ {e.settings.security.number} bridge, ttc {e.settings.ttcSeconds.toNat} s"]).agenda =
      e.agenda := agenda_emit e rfl
  unfold start agendaAfter
  dsimp only
  generalize hopened : e.emit _ = opened at hagenda ⊢
  obtain ⟨events, hloaded⟩ := loadIdentity_eq opened store entropy
  have hload := (agenda_loadIdentity opened store entropy).trans hagenda
  generalize opened.loadIdentity store entropy = loaded at hloaded hload ⊢
  obtain ⟨failure, e₁, store'⟩ := loaded
  dsimp only at hloaded hload ⊢
  obtain ⟨hasMotionSensor, motionTriggers, events', hknown⟩ := loadMotion_eq e₁ (Storage.read store' .hasMotion 1)
  have hmotion := (agenda_loadMotion e₁ (Storage.read store' .hasMotion 1)).trans hload
  generalize e₁.loadMotion (Storage.read store' .hasMotion 1) = known at hknown hmotion ⊢
  obtain ⟨motionFailure, e₂⟩ := known
  dsimp only at hknown hmotion ⊢
  obtain ⟨hplus2, hqueue⟩ : e₂.isPlus2 = e.isPlus2 ∧ e₂.queue = e.queue := by
    rw [hknown, hloaded, ← hopened]
    exact ⟨rfl, rfl⟩
  rcases agenda_greeting hmotion hplus2 hqueue with ⟨cause, e₃, hqueued, hlast, hrefused⟩ | ⟨e₃, hqueued, hlast, hroom⟩
  · rw [hqueued, if_pos hrefused]
    exact hlast
  · have harbiter : e₃.arbiter = e.arbiter := congrArg Agenda.arbiter hlast
    rw [hqueued, hroom, if_neg Bool.false_ne_true, ← harbiter, ← hlast]
    rfl

/-! ## All operations -/

/-- **The agenda after an operation.** -/
theorem agenda_after (o : Operation σ) : (e.after o).agenda = e.agendaAfter o := by
  cases o with
  | start store entropy now => exact agenda_start e now store entropy
  | byte byte now => exact agenda_onByte e now byte
  | request r =>
    have hlogged : (e.emit [.debug s!"Control request {r.text}"]).agenda = e.agenda := agenda_emit e rfl
    rw [after, apply_eq_call, agenda_call (σ := σ)]
    cases r with
    | reset => exact congrArg (fun a : Agenda => { a with reset := true }) hlogged
    | _ => exact hlogged
  | call r => exact agenda_call e r
  | beat => exact agenda_countTick e
  | obstruction obstructed now => exact agenda_onObstruction e now obstructed
  | press now => exact agenda_countRecovery e now
  | tick now => exact agenda_tick e now
  | flush store => exact agenda_flush e store

/-- Outside flushes an order that was given stays, and only a reset and the last beat before a restart give one. -/
theorem orders_after {o : Operation σ} (h : o.isFlush = false) : ∃ arbiter, (e.after o).agenda =
    ⟨arbiter, e.agenda.save || (e.firedBy o).isSome, e.agenda.reset || o.request? = some .reset,
      (e.firedBy o).or e.agenda.restart?, e.agenda.requested⟩ := by
  have hsame (arbiter : Arbiter) : { e.agenda with arbiter } =
      ⟨arbiter, e.agenda.save || false, e.agenda.reset || false, e.agenda.restart?, e.agenda.requested⟩ := by
    rw [Bool.or_false, Bool.or_false]
  rw [agenda_after]
  cases o with
  | start store entropy now =>
    rw [agendaAfter]
    split
    · exact ⟨e.arbiter, hsame e.arbiter⟩
    · exact ⟨_, hsame _⟩
  | byte byte now =>
    rw [agendaAfter]
    cases e.inbound? byte now with
    | none => exact ⟨_, hsame _⟩
    | some x => exact ⟨_, hsame _⟩
  | request r | call r =>
    cases r with
    | reset =>
      have hgiven : e.agendaAfter (.call .reset : Operation σ) =
          ⟨e.arbiter, e.agenda.save || false, e.agenda.reset || true, e.agenda.restart?, e.agenda.requested⟩ := by
        rw [Bool.or_false, Bool.or_true]
        rfl
      exact ⟨e.arbiter, hgiven⟩
    | _ => exact ⟨e.arbiter, hsame e.arbiter⟩
  | beat =>
    have hfired : e.agendaAfter (.beat : Operation σ) = ⟨e.arbiter, e.agenda.save || e.countdown.restart?.isSome,
        e.agenda.reset || false, e.countdown.restart?.or e.agenda.restart?, e.agenda.requested⟩ := by
      rw [Bool.or_false]
      rfl
    exact ⟨e.arbiter, hfired⟩
  | flush store => contradiction
  | _ => exact ⟨e.arbiter, hsame e.arbiter⟩

end Storing

end Engine

end DoorBridge
