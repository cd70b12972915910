import DoorBridge.Proofs.Engine.Operations

/-!
# Proofs.Engine.Ears — what the engine makes of what it hears

* `Mirror` is the part of the door that mirrors what the opener reports.
* `Ears` is the mirror with all that it hangs on: the protocol, the two readers, the debounce filter, and whether a light
  packet went out since the last report.  Neither queue nor countdown nor clock is among it.
* `Ears.hear` takes what was received (`ears_deliver`).  Besides that a byte moves a reader on and a timeout ends a
  partial frame or record, and no other operation touches the ears (`ears_after`).
-/

namespace DoorBridge

/-! ## Definitions -/

/-- The part of the door that mirrors what the opener reports. -/
structure Mirror where
  /-- Whether a door position was ever reported. -/
  active : Bool := false
  current : DoorState := .unknown
  target : DoorState := .unknown
  currentLock : Bool := false
  light : Bool := false
  deriving DecidableEq, Repr

namespace Mirror

/-- Takes a reported position; an unknown one is ignored. -/
def seeDoor (m : Mirror) (state : DoorState) : Mirror :=
  match state.target? with
  | none => m
  | some target => { m with active := true, current := state, target }

/-- Takes reported levels. -/
def seeLevels (m : Mirror) (light lock : Bool) : Mirror := { m with light, currentLock := lock }

end Mirror

def Door.mirror (d : Door) : Mirror := ⟨d.active, d.current, d.target, d.currentLock, d.light⟩

/-- The part of the engine that received bytes work on. -/
structure Ears where
  security : Security
  /-- Whether a Security+ 1.0 door report has to come twice in a row. -/
  debounces : Bool
  frames : FrameReader
  records : RecordReader
  /-- The last door report that met the debounce filter. -/
  last? : Option DoorState
  mirror : Mirror
  /-- Whether a light packet went out after the last report of the light. -/
  unconfirmed : Bool
  deriving DecidableEq, Repr

namespace Ears

/-- What decides which reports count. -/
def filter (h : Ears) : Security × Bool := (h.security, h.debounces)

/-- Takes a door position of Security+ 1.0, past the debounce filter if there is one. -/
def hearDoor (h : Ears) (state : DoorState) : Ears :=
  if h.debounces then
    { h with last? := some state, mirror := if h.last? = some state then h.mirror.seeDoor state else h.mirror }
  else { h with mirror := h.mirror.seeDoor state }

/-- Takes reported levels, which confirm what was sent. -/
def hearLevels (h : Ears) (light lock : Bool) : Ears :=
  { h with mirror := h.mirror.seeLevels light lock, unconfirmed := false }

/-- Takes what was received. -/
def hear (h : Ears) : Inbound → Ears
  | .packet (.status s) => { h with mirror := h.mirror.seeDoor s.door }.hearLevels s.light s.lock
  | .packet (.light command _) => { h with mirror := { h.mirror with light := command.apply h.mirror.light } }
  | .record (.status (.door state)) => h.hearDoor state
  | .record (.status (.lightLock light lock)) => h.hearLevels light lock
  | _ => h

/-- The ears once a byte has met its reader. -/
def feed (h : Ears) (byte : UInt8) (now : Nat) : Ears :=
  match h.security with
  | .plus2 => { h with frames := (h.frames.feed byte now).2 }
  | .plus1 => { h with records := (h.records.feed byte now).2 }

/-- The ears once partial frames and records that are overdue were dropped. -/
def expire (h : Ears) (now : Nat) : Ears :=
  { h with frames := h.frames.expire now, records := h.records.expire now }

theorem feed_eq (h : Ears) (byte : UInt8) (now : Nat) :
    ∃ frames records, h.feed byte now = { h with frames, records } := by
  unfold feed
  split
  · exact ⟨_, h.records, rfl⟩
  · exact ⟨h.frames, _, rfl⟩

/-- What was received does not touch the readers. -/
theorem hear_eq (h : Ears) (x : Inbound) :
    ∃ last? mirror unconfirmed, h.hear x = { h with last?, mirror, unconfirmed } := by
  unfold hear
  split
  · exact ⟨h.last?, _, false, rfl⟩
  · exact ⟨h.last?, _, h.unconfirmed, rfl⟩
  · unfold hearDoor
    split
    · exact ⟨_, _, h.unconfirmed, rfl⟩
    · exact ⟨h.last?, _, h.unconfirmed, rfl⟩
  · exact ⟨h.last?, _, false, rfl⟩
  · exact ⟨h.last?, h.mirror, h.unconfirmed, rfl⟩

/-- The filter passes a position exactly if it repeats the one before it. -/
theorem mirror_hearDoor (h : Ears) (state : DoorState) : (h.hearDoor state).mirror =
    if h.debounces = true ∧ h.last? ≠ some state then h.mirror else h.mirror.seeDoor state := by
  unfold hearDoor
  by_cases hdebounces : h.debounces = true
  · rw [if_pos hdebounces]
    dsimp only
    by_cases hlast : h.last? = some state
    · rw [if_pos hlast, if_neg fun hall => hall.2 hlast]
    · rw [if_neg hlast, if_pos ⟨hdebounces, hlast⟩]
  · rw [if_neg hdebounces, if_neg fun hall => hdebounces hall.1]

end Ears

namespace Engine

def ears (e : Engine) : Ears where
  security := e.settings.security
  debounces := e.settings.debounce
  frames := e.frames
  records := e.records
  last? := e.debounce.last?
  mirror := e.door.mirror
  unconfirmed := e.lightUnconfirmed

/-- The ears after an operation. -/
def earsAfter {σ : Type} (e : Engine) : Operation σ → Ears
  | .byte byte now =>
    match e.inbound? byte now with
    | some x => (e.ears.feed byte now).hear x
    | none => e.ears.feed byte now
  | .tick now => e.ears.expire now
  | _ => e.ears

/-! ## Observations -/

theorem mirror_observeDoor (d : Door) (state : DoorState) :
    (d.observeDoor state).door.mirror = d.mirror.seeDoor state := by
  unfold Door.observeDoor Mirror.seeDoor
  cases state.target? <;> rfl

theorem mirror_observeLight (d : Door) (on : Bool) :
    (d.observeLight on).door.mirror = { d.mirror with light := on } := rfl

theorem mirror_observeLock (d : Door) (locked : Bool) :
    (d.observeLock locked).door.mirror = { d.mirror with currentLock := locked } := by
  unfold Door.observeLock
  by_cases h : locked = d.currentLock
  · rw [if_pos h, h]
    rfl
  · rw [if_neg h]
    rfl

variable (e : Engine) (now : Nat)

@[simp] theorem ears_emit (events : List Event) : (e.emit events).ears = e.ears := rfl

theorem ears_see (o : Observation) : (e.see o).ears = { e.ears with mirror := o.door.mirror } := rfl

/-! ## What does not touch the ears -/

@[simp] theorem ears_triggerMotion (trigger : MotionTrigger) : (e.triggerMotion trigger now).ears = e.ears := by
  unfold triggerMotion
  split
  · rw [ears_see]
    rfl
  · rfl

@[simp] theorem ears_countRecovery : (e.countRecovery now).ears = e.ears := by
  unfold countRecovery
  generalize e.recovery.press now = pressed
  obtain ⟨complete, recovery⟩ := pressed
  cases complete <;> rfl

@[simp] theorem ears_onMotion : (e.onMotion now).ears = e.ears := by
  unfold onMotion
  split <;> rfl

@[simp] theorem ears_onObstruction (obstructed : Bool) : (e.onObstruction obstructed now).ears = e.ears := by
  unfold onObstruction
  have hsee : (e.see (e.door.setObstructed obstructed)).ears = e.ears := rfl
  dsimp only
  split
  · rw [ears_triggerMotion, hsee]
  · exact hsee

@[simp] theorem ears_askStatus : e.askStatus.ears = e.ears := by
  obtain ⟨events, h⟩ := (hands_requestStatus e).engine
  rw [askStatus, h]
  rfl

@[simp] theorem ears_cancelCountdown : e.cancelCountdown.2.ears = e.ears := by
  obtain ⟨events, h⟩ := cancelCountdown_eq e
  rw [h]
  rfl

/-- A console lock command moves the target alone, which is no mirror of anything. -/
theorem ears_setTargetLock (locked : Bool) : (e.see (e.door.setTargetLock locked)).ears = e.ears := rfl

/-! ## What is received -/

theorem ears_applyDoor (state : DoorState) :
    (e.applyDoor state).ears = { e.ears with mirror := e.ears.mirror.seeDoor state } := by
  have hsee : (e.see (e.door.observeDoor state)).ears = { e.ears with mirror := e.ears.mirror.seeDoor state } := by
    rw [ears_see, mirror_observeDoor]
    rfl
  unfold applyDoor
  dsimp only
  split
  · rw [ears_cancelCountdown, hsee]
  · exact hsee

theorem ears_applyLevels (light lock : Bool) : (e.applyLevels light lock).ears = e.ears.hearLevels light lock := by
  unfold applyLevels
  rw [ears_see, mirror_observeLock]
  rfl

theorem ears_onPacket (p : Packet) : (e.onPacket p now).ears = e.ears.hear (.packet p) := by
  cases p with
  | status s =>
    unfold onPacket
    rw [ears_applyLevels, ears_applyDoor, ears_emit]
    rfl
  | lock command pressed =>
    unfold onPacket
    rw [ears_askStatus]
    split
    · rw [ears_triggerMotion, ears_setTargetLock]
      rfl
    · rw [ears_setTargetLock]
      rfl
  | light command pressed =>
    -- the level that the command works on is the one mirrored so far
    have hlight : (e.countRecovery now).door.light = e.door.light :=
      congrArg (·.mirror.light) (ears_countRecovery e now)
    have hsee : ((e.countRecovery now).see ((e.countRecovery now).door.observeLight
        (command.apply (e.countRecovery now).door.light))).ears = e.ears.hear (.packet (.light command pressed)) := by
      have hmirror : (e.countRecovery now).door.mirror = e.door.mirror :=
        congrArg Ears.mirror (ears_countRecovery e now)
      rw [ears_see, mirror_observeLight, ears_countRecovery, hlight, hmirror]
      rfl
    unfold onPacket
    rw [ears_askStatus]
    split
    · rw [ears_triggerMotion, hsee]
    · exact hsee
  | doorAction action pressed id =>
    unfold onPacket
    dsimp only
    split
    · rw [ears_triggerMotion, ears_countRecovery]
      rfl
    · rfl
  | motion =>
    unfold onPacket
    rw [ears_askStatus, ears_onMotion]
    rfl
  | getStatus | getOpenings | unknown => rfl

theorem ears_onDoorReport (state : DoorState) : (e.onDoorReport state).ears = e.ears.hearDoor state := by
  unfold onDoorReport Ears.hearDoor
  by_cases hdebounce : e.settings.debounce = true
  · have hears : e.ears.debounces = true := hdebounce
    rw [if_pos hdebounce, if_pos hears]
    unfold Debounce.accept
    by_cases hlast : e.debounce.last? = some state
    · have hlast' : e.ears.last? = some state := hlast
      rw [if_pos hlast, if_pos hlast']
      dsimp only
      rw [ears_applyDoor]
      rfl
    · have hlast' : ¬ e.ears.last? = some state := hlast
      rw [if_neg hlast, if_neg hlast']
      rfl
  · have hears : ¬ e.ears.debounces = true := hdebounce
    rw [if_neg hdebounce, if_neg hears, ears_applyDoor]

theorem ears_onRecord (r : Record) : (e.onRecord r now).ears = e.ears.hear (.record r) := by
  cases r with
  | button b =>
    cases b with
    | doorPress =>
      unfold onRecord onButton
      rw [ears_triggerMotion, ears_countRecovery]
      rfl
    | lightPress | lockPress =>
      unfold onRecord onButton
      rw [ears_triggerMotion]
      rfl
    | doorRelease | lightRelease | lockRelease => rfl
  | other byte => rfl
  | status s =>
    unfold onRecord
    dsimp only
    generalize hpanel : (if e.arbiter.wallPanel then e else _ : Engine) = x
    have hears : x.ears = e.ears := by
      rw [← hpanel]
      split <;> rfl
    cases s with
    | door state =>
      dsimp only
      rw [ears_onDoorReport, hears]
      rfl
    | lightLock light lock =>
      dsimp only
      rw [ears_applyLevels, hears]
      rfl
    | obstruction value =>
      dsimp only
      rw [ears_emit, hears]
      rfl

/-- **What a received packet or record does to the ears.** -/
theorem ears_deliver (x : Inbound) : (e.deliver x now).ears = e.ears.hear x := by
  cases x with
  | packet p => exact ears_onPacket e now p
  | record r => exact ears_onRecord e now r

/-! ## All operations -/

theorem ears_fed (byte : UInt8) : (e.fed byte now).ears = e.ears.feed byte now := by
  have hears : e.ears.security = e.settings.security := rfl
  unfold fed Ears.feed
  cases hsecurity : e.settings.security with
  | plus2 =>
    simp only [hears.trans hsecurity]
    rw [← hsecurity]
    rfl
  | plus1 =>
    simp only [hears.trans hsecurity]
    rw [← hsecurity]
    rfl

/-- A tick ends what is overdue. -/
theorem tick_eq : ∃ events, e.tick now = { e with
    door := (e.door.expireMotion now).door
    frames := e.frames.expire now
    records := e.records.expire now
    events } := by
  unfold tick
  dsimp only
  split
  all_goals
    split
    all_goals exact ⟨_, rfl⟩

theorem ears_tick : (e.tick now).ears = e.ears.expire now := by
  obtain ⟨events, h⟩ := tick_eq e now
  rw [h]
  rfl

variable {σ : Type}

/-- No operation changes which reports count. -/
theorem filter_earsAfter (o : Operation σ) : (e.earsAfter o).filter = e.ears.filter := by
  cases o with
  | byte byte now =>
    obtain ⟨frames, records, hfed⟩ := e.ears.feed_eq byte now
    rw [earsAfter]
    cases e.inbound? byte now with
    | none =>
      dsimp only
      rw [hfed]
      rfl
    | some x =>
      obtain ⟨last?, mirror, unconfirmed, hhear⟩ := (e.ears.feed byte now).hear_eq x
      rw [hfed] at hhear
      dsimp only
      rw [hfed, hhear]
      rfl
  | _ => rfl

variable [Storage σ]

/-- **The ears after an operation.** -/
theorem ears_after (o : Operation σ) : (e.after o).ears = e.earsAfter o := by
  cases o with
  | start store entropy now =>
    obtain ⟨hasMotionSensor, motionTriggers, arbiter, events, h⟩ := start_eq e store entropy now
    rw [after, h]
    rfl
  | byte byte now =>
    obtain ⟨arbiter, events, h⟩ := onByte_eq e byte now
    rw [after, h, earsAfter]
    have hfed : { e.fed byte now with arbiter, events }.ears = e.ears.feed byte now := ears_fed e now byte
    cases e.inbound? byte now with
    | none => exact hfed
    | some x =>
      dsimp only
      rw [ears_deliver, hfed]
  | request r =>
    obtain ⟨events, h⟩ := call_eq (e.emit [.debug s!"Control request {r.text}"]) r
    rw [after, apply_eq_call, h]
    cases r <;> rfl
  | call r =>
    obtain ⟨events, h⟩ := call_eq e r
    rw [after, h]
    cases r <;> rfl
  | beat =>
    obtain ⟨events, h⟩ := (hands_countTick e).engine
    rw [after, h]
    rfl
  | obstruction obstructed now => exact ears_onObstruction e now obstructed
  | press now => exact ears_countRecovery e now
  | tick now => exact ears_tick e now
  | flush store =>
    obtain ⟨lastSaved, pending, events, h⟩ := flush_eq e store
    rw [after, h]
    rfl

end Engine

end DoorBridge
