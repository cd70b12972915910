import DoorBridge.Proofs.History
import DoorBridge.Proofs.Queue

/-!
# Proofs.Engine.Requests — what requests and beats hand to the queue

A request hands the queue some sequences in turn and gives up at the first one that does not fit (`Hands`).  Which
sequences is a function of the engine (`requestAsks`), and so is what the request leaves of the queue before
(`requestLeft`): all of it, except that opening during a delayed close throws out the blinks and a reset throws out
everything.  `call_eq` says what a request does to the engine, `hands_countTick` says it for a beat of the countdown.
-/

namespace DoorBridge

namespace Engine

/-! ## What is asked for -/

variable (e : Engine)

def lightAsks (on : Bool) : List (List PacketAction) :=
  if on = e.door.light then [] else [lightSequence e.settings.security on]

def lockAsks (locked : Bool) : List (List PacketAction) :=
  if locked = e.door.currentLock then [] else [lockSequence e.settings.security locked]

def statusAsks : List (List PacketAction) := if e.isPlus2 then [[statusRequest]] else []

def doorAsks (action : DoorAction) : List (List PacketAction) := [doorSequence e.settings.security action]

/-- What puts the light back to a level. -/
def restoreAsks (saved : Bool) : List (List PacketAction) :=
  if !e.lightUnconfirmed then e.lightAsks saved
  else if e.isPlus2 || e.door.light == saved then [lightSequence e.settings.security saved]
  else []

/-- What opens the door; the light is put back first if that cancels a delayed close. -/
def openAsks : List (List PacketAction) :=
  (if e.countdown.isClosing then e.restoreAsks e.countdown.savedLight else []) ++
    match e.door.current with
    | .opened => []
    | .closing => e.doorAsks .stop
    | _ => e.doorAsks .raise

/-- Whether closing the door now starts a countdown. -/
def closeCounts : Bool := !(e.settings.ttcSeconds = 0 ∨ e.countdown.isActive)

def closeAsks : List (List PacketAction) :=
  match e.door.current with
  | .closed => []
  | .opening => e.doorAsks .stop
  | _ => if e.closeCounts then [] else e.doorAsks .close

/-- The sequences that a request hands over. -/
def requestAsks : ControlRequest → List (List PacketAction)
  | .openDoor => e.openAsks
  | .closeDoor => e.closeAsks
  | .light on => e.lightAsks on
  | .lock locked => e.lockAsks locked
  | .getStatus => e.statusAsks
  | .reset => []

/-- The sequences that a beat of the countdown hands over. -/
def beatAsks : List (List PacketAction) :=
  match e.countdown.tick.1 with
  | none => []
  | some .blink => e.lightAsks (!e.door.light)
  | some (.fire .closeDoor) => if e.door.current = .closed then [] else e.doorAsks .close
  | some (.fire (.restart _)) => []

/-- The queue without the blinks that have not started. -/
def unblinked : Queue := (e.queue.discard isUnsentBlink e.releaseIsNext).2

/-- What a request leaves of the queue before it asks for anything. -/
def requestLeft : ControlRequest → Queue
  | .openDoor => if e.countdown.isClosing then e.unblinked else e.queue
  | .reset => {}
  | _ => e.queue

/-! ## Handing over -/

/-- A result of handing some sequences to a queue in turn, up to the first that does not fit.  Besides the queue and
the log the engine stays as given. -/
structure Hands (e : Engine) (q : Queue) (seqs : List (List PacketAction)) (r : Result) : Prop where
  engine : ∃ events, r.2 = { e with queue := q.append (q.takes seqs), events }
  answer : r.1 = .ok () ↔ q.takesAll seqs = true

variable {e}

theorem hands_enqueue (e : Engine) (actions : List PacketAction) :
    Hands e e.queue [actions] (e.enqueue actions) := by
  rw [enqueue, Queue.push?_eq]
  by_cases hfits : e.queue.fits actions = true
  · rw [if_pos hfits]
    refine ⟨⟨e.events, ?_⟩, iff_of_true rfl ?_⟩
    · rw [Queue.takes_singleton, if_pos hfits]
    · rw [Queue.takesAll_singleton, hfits]
  · rw [if_neg hfits]
    refine ⟨?_, iff_of_false (by simp) ?_⟩
    · rw [Queue.takes_singleton, if_neg hfits, Queue.append_nil]
      exact ⟨_, rfl⟩
    · rw [Queue.takesAll_singleton]
      exact hfits

theorem hands_nothing (e : Engine) : Hands e e.queue [] (.ok (), e) :=
  ⟨⟨e.events, by rw [Queue.takes, Queue.append_nil]⟩, iff_of_true rfl rfl⟩

/-- Only the queue handed to counts, and what was logged before does not. -/
theorem Hands.of_eq {q : Queue} {seqs : List (List PacketAction)} {r : Result} {x : Engine}
    (hx : ∃ events, x = { e with queue := q, events }) (h : Hands x x.queue seqs r) : Hands e q seqs r := by
  obtain ⟨events, rfl⟩ := hx
  exact ⟨h.engine, h.answer⟩

/-- What comes after sequences that were all taken. -/
theorem Hands.andThen {q : Queue} {first later : List (List PacketAction)} {e' : Engine} {r : Result}
    (h : Hands e q first (.ok (), e')) (hr : Hands e' e'.queue later r) : Hands e q (first ++ later) r := by
  obtain ⟨htakes, hall⟩ := Queue.takes_append_of_takesAll (h.answer.mp rfl) later
  obtain ⟨events, rfl⟩ : ∃ events, e' = { e with queue := q.append (q.takes first), events } := h.engine
  obtain ⟨events', hr'⟩ := hr.engine
  constructor
  · refine ⟨events', ?_⟩
    rw [hr', htakes, ← Queue.append_append]
  · rw [hr.answer, hall]

/-- After a refusal nothing else is handed over. -/
theorem Hands.orElse {q : Queue} {first : List (List PacketAction)} {e' : Engine} {cause : EngineError}
    (h : Hands e q first (.error cause, e')) (later : List (List PacketAction)) :
    Hands e q (first ++ later) (.error cause, e') := by
  have hrefused : q.takesAll first = false := by
    rw [← Bool.not_eq_true, ← h.answer]
    exact nofun
  obtain ⟨htakes, hall⟩ := Queue.takes_append_of_not_takesAll hrefused later
  constructor
  · rw [htakes]
    exact h.engine
  · rw [h.answer, hall, hrefused]

theorem hands_doorCommand (e : Engine) (action : DoorAction) :
    Hands e e.queue (e.doorAsks action) (e.doorCommand action) :=
  (hands_enqueue (e.emit [.info s!"Door command {action.name}"]) _).of_eq ⟨_, rfl⟩

theorem hands_setLight (e : Engine) (on : Bool) : Hands e e.queue (e.lightAsks on) (e.setLight on) := by
  rw [lightAsks, setLight]
  split
  · exact hands_nothing e
  · exact hands_enqueue e _

theorem hands_setLock (e : Engine) (locked : Bool) :
    Hands { e with door := { e.door with targetLock := locked } } e.queue (e.lockAsks locked) (e.setLock locked) := by
  rw [lockAsks, setLock]
  dsimp only
  split
  · exact hands_nothing { e with door := { e.door with targetLock := locked } }
  · exact hands_enqueue { e with door := { e.door with targetLock := locked } } _

theorem hands_requestStatus (e : Engine) : Hands e e.queue e.statusAsks e.requestStatus := by
  rw [statusAsks, requestStatus]
  split
  · exact hands_enqueue e _
  · exact hands_nothing e

/-- Putting the light back throws out the blinks first. -/
theorem hands_restoreLight (e : Engine) (saved : Bool) :
    Hands e e.unblinked (e.restoreAsks saved) (e.restoreLight saved) := by
  rw [restoreLight, unblinked]
  generalize e.queue.discard isUnsentBlink e.releaseIsNext = discarded
  obtain ⟨dropped, queue⟩ := discarded
  dsimp only
  generalize hlogged : (if dropped > 0 then
    { e with queue }.emit [.debug s!"Dropped {dropped} queued blinks"] else { e with queue }) = x
  have hx : ∃ events, x = { e with queue, events } := by
    rw [← hlogged]
    split <;> exact ⟨_, rfl⟩
  have hasks : e.restoreAsks saved = x.restoreAsks saved := by
    obtain ⟨events, rfl⟩ := hx
    rfl
  refine Hands.of_eq hx ?_
  rw [hasks, restoreAsks]
  split
  · exact hands_setLight x saved
  · split
    · exact hands_enqueue x _
    · exact hands_nothing x

/-! ## Requests and beats -/

/-- The countdown once the door was asked to close. -/
def closeCountdown (e : Engine) : Countdown :=
  match e.door.current with
  | .closed | .opening => e.countdown
  | _ =>
    if e.countdown.isClosing then e.countdown.cancel.2
    else if e.closeCounts then .start (2 * e.settings.ttcSeconds.toNat) e.door.light .closeDoor
    else e.countdown

/-- What a request does besides queueing packets. -/
def prepared (e : Engine) : ControlRequest → Engine
  | .openDoor =>
    { e with countdown := if e.countdown.isClosing then e.countdown.cancel.2 else e.countdown }
  | .closeDoor => { e with countdown := e.closeCountdown }
  | .light _ | .getStatus => e
  | .lock locked => { e with door := { e.door with targetLock := locked } }
  | .reset => { e with countdown := e.countdown.cancel.2, pending := { e.pending with reset := true } }

theorem cancelCountdown_eq (e : Engine) :
    ∃ events, e.cancelCountdown.2 = { e with countdown := e.countdown.cancel.2, events } := by
  rw [cancelCountdown, Countdown.cancel]
  cases haction : e.countdown.action? with
  | none => exact ⟨e.events, rfl⟩
  | some action => exact ⟨_, rfl⟩

/-- Cancelling a delayed close answers with the light level from its start. -/
theorem cancelCountdown_of_isClosing (h : e.countdown.isClosing = true) :
    e.cancelCountdown.1 = some e.countdown.savedLight := by
  have haction : e.countdown.action? = some .closeDoor := of_decide_eq_true h
  rw [cancelCountdown, haction]

theorem hands_cancelClose (e : Engine) :
    Hands (e.prepared .openDoor) (e.requestLeft .openDoor)
      (if e.countdown.isClosing then e.restoreAsks e.countdown.savedLight else []) e.cancelClose := by
  rw [cancelClose, prepared, requestLeft]
  by_cases hclosing : e.countdown.isClosing = true
  · simp only [if_pos hclosing]
    obtain ⟨events, hcancelled⟩ := cancelCountdown_eq e
    have hanswer := cancelCountdown_of_isClosing hclosing
    generalize e.cancelCountdown = cancelled at hcancelled hanswer ⊢
    obtain ⟨answer, x⟩ := cancelled
    dsimp only at hcancelled hanswer
    subst hcancelled hanswer
    obtain ⟨hengine, hanswer⟩ := hands_restoreLight
      ({ e with countdown := e.countdown.cancel.2, events }.emit [.info "Delayed close cancelled"])
      e.countdown.savedLight
    exact ⟨hengine, hanswer⟩
  · simp only [if_neg hclosing]
    exact hands_nothing e

theorem hands_openDoor (e : Engine) :
    Hands (e.prepared .openDoor) (e.requestLeft .openDoor) (e.requestAsks .openDoor) e.openDoor := by
  have hcancelled := hands_cancelClose e
  rw [openDoor, requestAsks, openAsks]
  generalize e.cancelClose = cancelled at hcancelled ⊢
  obtain ⟨answer, x⟩ := cancelled
  cases answer with
  | error cause => exact hcancelled.orElse _
  | ok done =>
    refine hcancelled.andThen ?_
    -- the door was not touched, so what it does next was known before
    obtain ⟨events, hx⟩ : ∃ events, x = _ := hcancelled.engine
    have hdoor : x.door = e.door := by
      rw [hx]
      rfl
    have hasks (action : DoorAction) : e.doorAsks action = x.doorAsks action := by
      rw [hx]
      rfl
    simp only [hdoor, hasks]
    cases e.door.current
    case opened => exact hands_nothing x
    all_goals exact hands_doorCommand x _

theorem hands_closeDoor (e : Engine) :
    Hands (e.prepared .closeDoor) e.queue (e.requestAsks .closeDoor) e.closeDoor := by
  -- with the door where it can be closed, a countdown is skipped, not needed, or started
  have hcounting : Hands
      { e with countdown :=
        if e.countdown.isClosing then e.countdown.cancel.2
        else if e.closeCounts then .start (2 * e.settings.ttcSeconds.toNat) e.door.light .closeDoor
        else e.countdown }
      e.queue (if e.closeCounts then [] else e.doorAsks .close)
      (if e.countdown.isClosing then e.cancelCountdown.2.doorCommand .close
      else if e.settings.ttcSeconds = 0 ∨ e.countdown.isActive then e.doorCommand .close
      else
        let seconds := e.settings.ttcSeconds.toNat
        (.ok (), (e.emit [.info s!"Closing in {seconds} s"]).startCountdown (2 * seconds) .closeDoor)) := by
    by_cases hclosing : e.countdown.isClosing = true
    · have haction : e.countdown.action? = some .closeDoor := of_decide_eq_true hclosing
      have hcounts : e.closeCounts = false := by simp [closeCounts, Countdown.isActive, haction]
      obtain ⟨events, hcancelled⟩ := cancelCountdown_eq e
      simp only [if_pos hclosing, hcounts, Bool.false_eq_true, if_false]
      rw [hcancelled]
      obtain ⟨hengine, hanswer⟩ := hands_doorCommand { e with countdown := e.countdown.cancel.2, events } .close
      exact ⟨hengine, hanswer⟩
    · simp only [if_neg hclosing]
      by_cases hnow : e.settings.ttcSeconds = 0 ∨ e.countdown.isActive = true
      · have hcounts : e.closeCounts = false := by rw [closeCounts, decide_eq_true hnow, Bool.not_true]
        simp only [hcounts, if_pos hnow, Bool.false_eq_true, if_false]
        exact hands_doorCommand e .close
      · have hcounts : e.closeCounts = true := by rw [closeCounts, decide_eq_false hnow, Bool.not_false]
        simp only [hcounts, if_neg hnow, if_true]
        exact (hands_nothing _).of_eq ⟨_, rfl⟩
  rw [closeDoor, prepared, requestAsks, closeAsks, closeCountdown]
  cases e.door.current
  case closed => exact hands_nothing e
  case opening => exact hands_doorCommand e .stop
  all_goals exact hcounting

/-- **What a request does**: it prepares the engine and hands its sequences to what it leaves of the queue. -/
theorem call_eq (e : Engine) (r : ControlRequest) :
    ∃ events, e.call r = { e.prepared r with
      queue := (e.requestLeft r).append ((e.requestLeft r).takes (e.requestAsks r)), events } := by
  cases r with
  | openDoor => exact (hands_openDoor e).engine
  | closeDoor => exact (hands_closeDoor e).engine
  | light on => exact (hands_setLight e on).engine
  | lock locked => exact (hands_setLock e locked).engine
  | getStatus => exact (hands_requestStatus e).engine
  | reset =>
    obtain ⟨events, hcancelled⟩ := cancelCountdown_eq { e.emit [.warn "Door reset requested"] with queue := {} }
    refine ⟨events, ?_⟩
    rw [call, resetDoor]
    dsimp only
    rw [hcancelled]
    rfl

/-- What is asked for when the countdown runs out, besides closing the door. -/
def firedPending (e : Engine) : Pending :=
  match e.countdown.tick.1 with
  | some (.fire (.restart reason)) => { e.pending with save := true, restart? := some reason }
  | _ => e.pending

theorem hands_countTick (e : Engine) :
    Hands { e with countdown := e.countdown.tick.2, pending := e.firedPending } e.queue e.beatAsks e.countTick := by
  rw [countTick, beatAsks, firedPending]
  generalize e.countdown.tick = ticked
  obtain ⟨step, countdown⟩ := ticked
  cases step with
  | none => exact hands_nothing { e with countdown }
  | some step =>
    cases step with
    | blink => exact hands_setLight { e with countdown } (!e.door.light)
    | fire action =>
      cases action with
      | closeDoor =>
        dsimp only
        split
        · exact hands_nothing { e with countdown }
        · exact hands_doorCommand { e with countdown } .close
      | restart reason => exact (hands_nothing _).of_eq ⟨_, rfl⟩

end Engine

end DoorBridge
