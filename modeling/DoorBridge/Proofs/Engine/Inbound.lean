import DoorBridge.Proofs.Engine.Requests

/-!
# Proofs.Engine.Inbound — what a received byte completes

A byte moves the reader on, and may complete a packet or a record, which the engine then takes (`onByte_eq`).  Some
packets make it ask for a status reply (`Engine.inboundAsks`).  Two kinds touch a countdown: a report that the door is
closing (`Engine.acceptsClosing`), and a press at the wall console (`Inbound.isPress`).  `work_deliver` says that
nothing else happens to the queue and the countdown.
-/

namespace DoorBridge

/-- What can be received. -/
inductive Inbound where
  | packet (p : Packet)
  | record (r : Record)
  deriving DecidableEq, Repr

/-- Whether it is a press that counts toward recovery. -/
def Inbound.isPress : Inbound → Bool
  | packet (.light _ _) | record (.button .doorPress) => true
  | packet (.doorAction _ pressed _) => pressed
  | _ => false

namespace Engine

/-- What the engine does with it. -/
def deliver (e : Engine) (x : Inbound) (now : Nat) : Engine :=
  match x with
  | .packet p => e.onPacket p now
  | .record r => e.onRecord r now

/-- What a byte completes, if it completes anything. -/
def inbound? (e : Engine) (byte : UInt8) (now : Nat) : Option Inbound :=
  match e.settings.security with
  | .plus2 =>
    match (e.frames.feed byte now).1 with
    | .ok (some frame) =>
      match Message.decode frame with
      | .ok m => some (.packet m.packet)
      | .error _ => none
    | _ => none
  | .plus1 =>
    match (e.records.feed byte now).1 with
    | .ok (some record) => some (.record record)
    | _ => none

/-- Whether it is a report that the door is closing, and one that the engine believes. -/
def acceptsClosing (e : Engine) : Inbound → Bool
  | .packet (.status s) => s.door = .closing
  | .record (.status (.door state)) => state = .closing && (!e.settings.debounce || e.debounce.last? = some state)
  | _ => false

/-- The engine whose reader has taken a byte. -/
def fed (e : Engine) (byte : UInt8) (now : Nat) : Engine :=
  match e.settings.security with
  | .plus2 => { e with frames := (e.frames.feed byte now).2 }
  | .plus1 => { e with records := (e.records.feed byte now).2 }

theorem fed_eq (e : Engine) (byte : UInt8) (now : Nat) :
    ∃ frames records, e.fed byte now = { e with frames, records } := by
  rw [fed]
  split
  · exact ⟨_, e.records, rfl⟩
  · exact ⟨e.frames, _, rfl⟩

/-- Taking a byte is taking what it completes, once it was seen, read and logged. -/
theorem onByte_eq (e : Engine) (byte : UInt8) (now : Nat) :
    ∃ arbiter events, e.onByte byte now =
      match e.inbound? byte now with
      | some x => { e.fed byte now with arbiter, events }.deliver x now
      | none => { e.fed byte now with arbiter, events } := by
  cases hsecurity : e.settings.security with
  | plus2 =>
    rw [onByte, inbound?, fed]
    simp only [hsecurity]
    generalize e.frames.feed byte now = fed
    obtain ⟨answer, frames⟩ := fed
    cases answer with
    | error cause => exact ⟨_, _, rfl⟩
    | ok found =>
      cases found with
      | none => exact ⟨_, _, rfl⟩
      | some frame =>
        simp only [onFrame]
        cases Message.decode frame with
        | ok m => exact ⟨_, _, rfl⟩
        | error cause => exact ⟨_, _, rfl⟩
  | plus1 =>
    rw [onByte, inbound?, fed]
    simp only [hsecurity]
    generalize e.records.feed byte now = fed
    obtain ⟨answer, records⟩ := fed
    cases answer with
    | error cause => exact ⟨_, _, rfl⟩
    | ok found => cases found <;> exact ⟨_, _, rfl⟩

/-- What it makes the engine ask for. -/
def inboundAsks (e : Engine) : Inbound → List (List PacketAction)
  | .packet (.lock _ _) | .packet (.light _ _) | .packet .motion => e.statusAsks
  | _ => []

/-- The countdown after a press at the wall console. -/
def pressCountdown (e : Engine) (now : Nat) : Countdown :=
  if (e.recovery.press now).1 then .start recoveryTicks e.door.light (.restart .softAp) else e.countdown

/-- The countdown after it was taken. -/
def inboundCountdown (e : Engine) (x : Inbound) (now : Nat) : Countdown :=
  if x.isPress then e.pressCountdown now
  else if e.acceptsClosing x && e.countdown.isClosing then e.countdown.cancel.2
  else e.countdown

/-! ## Queue and countdown -/

/-- The part of the engine that has yet to be worked off. -/
def work (e : Engine) : Queue × Countdown := (e.queue, e.countdown)

variable (e : Engine) (now : Nat)

@[simp] theorem work_see (o : Observation) : (e.see o).work = e.work := rfl

@[simp] theorem work_triggerMotion (trigger : MotionTrigger) : (e.triggerMotion trigger now).work = e.work := by
  rw [triggerMotion]
  split <;> rfl

@[simp] theorem work_onObstruction (obstructed : Bool) : (e.onObstruction obstructed now).work = e.work := by
  rw [onObstruction]
  split <;> simp

@[simp] theorem work_onMotion : (e.onMotion now).work = e.work := by
  rw [onMotion]
  split <;> rfl

@[simp] theorem work_applyLevels (light lock : Bool) : (e.applyLevels light lock).work = e.work := rfl

@[simp] theorem work_tick : (e.tick now).work = e.work := by
  have hframes (x : Engine) (frames : FrameReader) : { x with frames }.work = x.work := rfl
  have hrecords (x : Engine) (records : RecordReader) : { x with records }.work = x.work := rfl
  rw [tick, hrecords]
  split
  all_goals
    rw [hframes]
    split <;> rfl

theorem work_countRecovery : (e.countRecovery now).work = (e.queue, e.pressCountdown now) := by
  rw [countRecovery, pressCountdown]
  generalize e.recovery.press now = pressed
  obtain ⟨complete, recovery⟩ := pressed
  cases complete <;> rfl

theorem work_applyDoor (state : DoorState) : (e.applyDoor state).work =
    (e.queue, if state = .closing ∧ e.countdown.isClosing then e.countdown.cancel.2 else e.countdown) := by
  rw [applyDoor]
  by_cases h : state = .closing ∧ e.countdown.isClosing = true
  · obtain ⟨events, hcancelled⟩ := cancelCountdown_eq (e.see (e.door.observeDoor state))
    have hsee : state = .closing ∧ (e.see (e.door.observeDoor state)).countdown.isClosing = true := h
    simp only [if_pos h, if_pos hsee, hcancelled]
    rfl
  · have hsee : ¬ (state = .closing ∧ (e.see (e.door.observeDoor state)).countdown.isClosing = true) := h
    simp only [if_neg h, if_neg hsee]
    rfl

/-- Asking for a status reply touches the queue alone. -/
theorem work_askStatus {x : Engine} (hcore : x.core = e.core) {countdown : Countdown}
    (hwork : x.work = (e.queue, countdown)) :
    x.askStatus.work = (e.queue.append (e.queue.takes e.statusAsks), countdown) := by
  obtain ⟨hqueue, hcountdown⟩ := Prod.mk.inj hwork
  obtain ⟨events, hasked⟩ := (hands_requestStatus x).engine
  have hasks : x.statusAsks = e.statusAsks := by
    rw [statusAsks, isPlus2, (core_eq_iff.mp hcore).2.1]
    rfl
  rw [askStatus, hasked, hasks, hqueue]
  exact congrArg (Prod.mk _) hcountdown

/-- Nothing is handed over if nothing is asked for. -/
theorem append_takes_eq_self {e : Engine} {x : Inbound} (h : e.inboundAsks x = []) :
    e.queue.append (e.queue.takes (e.inboundAsks x)) = e.queue := by
  rw [h]
  exact Queue.append_nil e.queue

/-- What neither is a press nor reports that the door is closing leaves the countdown alone. -/
theorem inboundCountdown_eq_self {e : Engine} {x : Inbound} (hpress : x.isPress = false)
    (hclosing : e.acceptsClosing x = false) (now : Nat) : e.inboundCountdown x now = e.countdown := by
  rw [inboundCountdown, hpress, hclosing]
  rfl

theorem work_onPacket (p : Packet) : (e.onPacket p now).work =
    (e.queue.append (e.queue.takes (e.inboundAsks (.packet p))), e.inboundCountdown (.packet p) now) := by
  cases p with
  | status s =>
    have hcountdown : e.inboundCountdown (.packet (.status s)) now =
        if s.door = .closing ∧ e.countdown.isClosing then e.countdown.cancel.2 else e.countdown := by
      simp [inboundCountdown, Inbound.isPress, acceptsClosing]
    rw [onPacket, work_applyLevels, work_applyDoor, append_takes_eq_self rfl, hcountdown]
    rfl
  | lock command pressed =>
    rw [inboundCountdown_eq_self rfl rfl, onPacket]
    refine work_askStatus e ?_ ?_
    · split <;> simp
    · split
      · rw [work_triggerMotion]
        rfl
      · rfl
  | light command pressed =>
    have hcountdown : e.inboundCountdown (.packet (.light command pressed)) now = e.pressCountdown now := rfl
    rw [hcountdown, onPacket]
    refine work_askStatus e ?_ ?_
    · split <;> simp
    · split
      · rw [work_triggerMotion, work_see, work_countRecovery]
      · rw [work_see, work_countRecovery]
  | doorAction action pressed id =>
    rw [onPacket, append_takes_eq_self rfl]
    cases pressed with
    | false => rw [inboundCountdown_eq_self rfl rfl]; rfl
    | true =>
      have hcountdown : e.inboundCountdown (.packet (.doorAction action true id)) now = e.pressCountdown now := rfl
      rw [if_pos rfl, work_triggerMotion, work_countRecovery, hcountdown]
  | motion =>
    rw [inboundCountdown_eq_self rfl rfl, onPacket]
    refine work_askStatus e ?_ ?_
    · exact core_onMotion e now
    · exact work_onMotion e now
  | getStatus | getOpenings | unknown =>
    rw [append_takes_eq_self rfl, inboundCountdown_eq_self rfl rfl]
    rfl

theorem work_onDoorReport (state : DoorState) : (e.onDoorReport state).work =
    (e.queue, if e.acceptsClosing (.record (.status (.door state))) && e.countdown.isClosing then
      e.countdown.cancel.2 else e.countdown) := by
  rw [onDoorReport, acceptsClosing, Debounce.accept]
  cases e.settings.debounce with
  | false =>
    rw [if_neg Bool.false_ne_true, work_applyDoor]
    simp
  | true =>
    rw [if_pos rfl]
    dsimp only
    by_cases hlast : e.debounce.last? = some state
    · rw [if_pos hlast]
      dsimp only
      rw [work_applyDoor]
      simp [hlast]
    · rw [if_neg hlast]
      simp [hlast, work]

theorem work_onRecord (r : Record) : (e.onRecord r now).work = (e.queue, e.inboundCountdown (.record r) now) := by
  cases r with
  | button b =>
    cases b with
    | doorPress =>
      have hcountdown : e.inboundCountdown (.record (.button .doorPress)) now = e.pressCountdown now := rfl
      rw [hcountdown, onRecord, onButton, work_triggerMotion, work_countRecovery]
      rfl
    | lightPress | lockPress =>
      rw [inboundCountdown_eq_self rfl rfl, onRecord, onButton, work_triggerMotion]
      rfl
    | doorRelease | lightRelease | lockRelease =>
      rw [inboundCountdown_eq_self rfl rfl]
      rfl
  | other byte => rfl
  | status s =>
    rw [onRecord.eq_def]
    dsimp only
    generalize hpanel : (if e.arbiter.wallPanel then e else _ : Engine) = x
    have hx : ∃ arbiter events, x = { e with arbiter, events } := by
      rw [← hpanel]
      split
      · exact ⟨_, _, rfl⟩
      · exact ⟨_, _, rfl⟩
    obtain ⟨arbiter, events, rfl⟩ := hx
    cases s with
    | door state =>
      have hcountdown : e.inboundCountdown (.record (.status (.door state))) now =
          if e.acceptsClosing (.record (.status (.door state))) && e.countdown.isClosing then e.countdown.cancel.2
          else e.countdown := rfl
      rw [hcountdown]
      exact work_onDoorReport _ state
    | lightLock light lock =>
      rw [inboundCountdown_eq_self rfl rfl]
      rfl
    | obstruction value =>
      rw [inboundCountdown_eq_self rfl rfl]
      rfl

/-- **What a received packet or record does to the queue and the countdown.** -/
theorem work_deliver (x : Inbound) : (e.deliver x now).work =
    (e.queue.append (e.queue.takes (e.inboundAsks x)), e.inboundCountdown x now) := by
  cases x with
  | packet p => exact work_onPacket e now p
  | record r =>
    rw [append_takes_eq_self rfl]
    exact work_onRecord e now r

end Engine

end DoorBridge
