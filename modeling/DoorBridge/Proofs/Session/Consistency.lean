import DoorBridge.Arbiter.Script
import DoorBridge.Proofs.Engine.Senses
import DoorBridge.Proofs.Engine.Tries
import DoorBridge.Proofs.Session.Delay
import DoorBridge.Storage.Memory

/-!
# Proofs.Session.Consistency — what holds of the engine at any moment

* `Mirror.WellFormed`, `Countdown.WellFormed` and `Recovery.WellFormed` say which doors, countdowns and press counts
  make sense.  Each is kept by everything that is ever done to its part.
* `Engine.Consistent` puts them together; every step keeps it (`Session.consistent_take`), so every run does
  (`Session.consistent_run`).
* `Session.isClosing_after_report`: a report that the door is closing ends a delayed close, and only another request to
  close starts one again.
* `motion_after_service`: no motion report outlasts the pass at its deadline.
* `engine_stays_consistent` puts these together.
-/

namespace DoorBridge

/-! ## The parts -/

/-- The door is active from the first known position on, and its target follows from its position. -/
structure Mirror.WellFormed (m : Mirror) : Prop where
  active : m.active = true ↔ m.current ≠ .unknown
  idle : m.active = false → m.target = .unknown
  target : m.active = true → m.current.target? = some m.target

/-- Something is to happen exactly as long as there are ticks left. -/
def Countdown.WellFormed (c : Countdown) : Prop := c.isActive = true ↔ 0 < c.remaining

/-- Presses are counted only in an open window, and no more than a sequence takes. -/
structure Recovery.WellFormed (r : Recovery) : Prop where
  presses : r.presses < recoveryPresses
  closed : r.deadline? = none → r.presses = 0

namespace Mirror.WellFormed

variable {m : Mirror}

theorem seeDoor (h : m.WellFormed) (state : DoorState) : (m.seeDoor state).WellFormed := by
  unfold Mirror.seeDoor
  cases htarget : state.target? with
  | none => exact h
  | some target =>
    have hknown : state ≠ .unknown := by
      rintro rfl
      contradiction
    exact ⟨iff_of_true rfl hknown, nofun, fun _ => htarget⟩

theorem seeLight (h : m.WellFormed) (light : Bool) : { m with light }.WellFormed := ⟨h.active, h.idle, h.target⟩

theorem seeLevels (h : m.WellFormed) (light lock : Bool) : (m.seeLevels light lock).WellFormed :=
  ⟨h.active, h.idle, h.target⟩

/-- Whatever the ears hear, the mirror stays well formed. -/
theorem hear {ears : Ears} (h : ears.mirror.WellFormed) (x : Inbound) : (ears.hear x).mirror.WellFormed := by
  unfold Ears.hear
  split
  · exact (h.seeDoor _).seeLevels _ _
  · exact h.seeLight _
  · rw [Ears.mirror_hearDoor]
    split
    · exact h
    · exact h.seeDoor _
  · exact h.seeLevels _ _
  · exact h

end Mirror.WellFormed

namespace Countdown.WellFormed

variable {c : Countdown}

theorem start {n : Nat} (hn : 0 < n) (light : Bool) (action : CountdownAction) :
    (Countdown.start n light action).WellFormed := iff_of_true rfl hn

theorem cancel (h : c.WellFormed) : c.cancel.2.WellFormed := by
  unfold Countdown.cancel
  cases c.action? with
  | none => exact h
  | some action => exact iff_of_false Bool.false_ne_true (Nat.lt_irrefl 0)

theorem tick (h : c.WellFormed) : c.tick.2.WellFormed := by
  unfold Countdown.tick
  cases haction : c.action? with
  | none => exact h
  | some action =>
    dsimp only
    split
    · exact iff_of_false Bool.false_ne_true (Nat.lt_irrefl 0)
    · next hmore =>
      have hleft : 0 < c.remaining - 1 := by omega
      exact iff_of_true rfl hleft

end Countdown.WellFormed

/-- However presses were counted, another one is counted well. -/
theorem Recovery.wellFormed_press (r : Recovery) (now : Nat) : (r.press now).2.WellFormed := by
  unfold Recovery.press
  by_cases hmore : r.count now < recoveryPresses
  · rw [if_pos hmore]
    refine ⟨hmore, fun hclosed => ?_⟩
    -- a press leaves the window open
    exfalso
    dsimp only at hclosed
    split at hclosed
    · next hopen =>
      unfold isOpen at hopen
      rw [hclosed] at hopen
      contradiction
    · contradiction
  · rw [if_neg hmore]
    exact ⟨Nat.zero_lt_succ 4, fun _ => rfl⟩

/-! ## The engine -/

namespace Engine

/-- What holds of the engine at any moment. -/
structure Consistent (e : Engine) : Prop where
  mirror : e.door.mirror.WellFormed
  countdown : e.countdown.WellFormed
  recovery : e.recovery.WellFormed

variable {e : Engine}

theorem Consistent.new (settings : Settings) : (Engine.new settings).Consistent where
  mirror := ⟨iff_of_false Bool.false_ne_true (fun h => h rfl), fun _ => rfl, nofun⟩
  countdown := iff_of_false Bool.false_ne_true (Nat.lt_irrefl 0)
  recovery := ⟨Nat.zero_lt_succ 4, fun _ => rfl⟩

theorem wellFormed_pressCountdown (h : e.countdown.WellFormed) (now : Nat) : (e.pressCountdown now).WellFormed := by
  unfold pressCountdown
  split
  · exact .start (by decide) _ _
  · exact h

theorem wellFormed_inboundCountdown (h : e.countdown.WellFormed) (x : Inbound) (now : Nat) :
    (e.inboundCountdown x now).WellFormed := by
  unfold inboundCountdown
  split
  · exact wellFormed_pressCountdown h now
  · split
    · exact h.cancel
    · exact h

theorem wellFormed_closeCountdown (h : e.countdown.WellFormed) : e.closeCountdown.WellFormed := by
  rcases closeCountdown_cases e with hsame | hcancelled | ⟨hcounts, hstarted⟩
  · rwa [hsame]
  · rw [hcancelled]
    exact h.cancel
  · have hseconds : e.settings.ttcSeconds.toNat ≠ 0 := fun hzero => by
      have hnone : e.settings.ttcSeconds = 0 := UInt8.toNat_inj.mp hzero
      simp [closeCounts, hnone] at hcounts
    rw [hstarted]
    exact .start (by omega) _ _

theorem wellFormed_prepared (h : e.countdown.WellFormed) (r : ControlRequest) :
    (e.prepared r).countdown.WellFormed := by
  cases r with
  | openDoor =>
    dsimp only [prepared]
    split
    · exact h.cancel
    · exact h
  | closeDoor => exact wellFormed_closeCountdown h
  | reset => exact h.cancel
  | _ => exact h

variable {σ : Type}

theorem wellFormed_countdownAfter (h : e.countdown.WellFormed) (o : Operation σ) : (e.countdownAfter o).WellFormed := by
  cases o with
  | byte byte now =>
    rw [countdownAfter]
    cases e.inbound? byte now with
    | none => exact h
    | some x => exact wellFormed_inboundCountdown h x now
  | request r | call r => exact wellFormed_prepared h r
  | beat => exact h.tick
  | press now => exact wellFormed_pressCountdown h now
  | _ => exact h

theorem wellFormed_earsAfter (h : e.door.mirror.WellFormed) (o : Operation σ) : (e.earsAfter o).mirror.WellFormed := by
  cases o with
  | byte byte now =>
    obtain ⟨frames, records, hfed⟩ := e.ears.feed_eq byte now
    have hfed' : (e.ears.feed byte now).mirror.WellFormed := by
      rw [hfed]
      exact h
    rw [earsAfter]
    cases e.inbound? byte now with
    | none => exact hfed'
    | some x => exact hfed'.hear x
  | _ => exact h

/-- Presses are all that moves the count. -/
theorem wellFormed_recovery_sensesAfter [Storage σ] (h : e.recovery.WellFormed) (o : Operation σ) :
    (e.sensesAfter o).recovery.WellFormed := by
  have hstir (s : Senses) (trigger : MotionTrigger) (now : Nat) : (s.stir trigger now).recovery = s.recovery := by
    unfold Senses.stir
    split <;> rfl
  cases o with
  | start store entropy now =>
    rw [sensesAfter, Senses.load.eq_def]
    split
    · split <;> exact h
    · exact h
  | byte byte now =>
    rw [sensesAfter]
    cases e.inbound? byte now with
    | none => exact h
    | some x =>
      have hpressed : (if x.isPress then e.senses.press now else e.senses).recovery.WellFormed := by
        split
        · exact Recovery.wellFormed_press _ now
        · exact h
      rw [Option.map_some, Option.getD_some, sensesHeard.eq_def]
      dsimp only
      split
      · have hdiscover : e.senses.discover.recovery = e.recovery := by
          unfold Senses.discover
          split <;> rfl
        rw [Senses.raise, hdiscover]
        exact h
      · cases e.stirs x with
        | none => exact hpressed
        | some trigger =>
          rw [Option.map_some, Option.getD_some, hstir]
          exact hpressed
  | obstruction obstructed now =>
    rw [sensesAfter, Senses.beam]
    split
    · rw [hstir]
      exact h
    · exact h
  | press now => exact Recovery.wellFormed_press _ now
  | _ => exact h

theorem Consistent.after [Storage σ] (h : e.Consistent) (o : Operation σ) : (e.after o).Consistent where
  mirror := by
    have hears : (e.after o).door.mirror = (e.earsAfter o).mirror := congrArg Ears.mirror (ears_after e o)
    rw [hears]
    exact wellFormed_earsAfter h.mirror o
  countdown := by
    rw [countdown_after]
    exact wellFormed_countdownAfter h.countdown o
  recovery := by
    have hsenses : (e.after o).recovery = (e.sensesAfter o).recovery := congrArg Senses.recovery (senses_after e o)
    rw [hsenses]
    exact wellFormed_recovery_sensesAfter h.recovery o

/-- A report that the door is closing, once believed, is what the door shows. -/
theorem current_of_acceptsClosing [Storage σ] {byte : UInt8} {now : Nat} {x : Inbound}
    (hx : e.inbound? byte now = some x) (h : e.acceptsClosing x = true) :
    (e.after (.byte byte now : Operation σ)).door.current = .closing := by
  have hears : (e.after (.byte byte now : Operation σ)).ears = (e.ears.feed byte now).hear x := by
    rw [ears_after, earsAfter, hx]
  refine (congrArg (·.mirror.current) hears).trans ?_
  obtain ⟨frames, records, hfed⟩ := e.ears.feed_eq byte now
  rw [hfed]
  unfold acceptsClosing at h
  split at h
  · next s =>
    have hdoor : s.door = .closing := of_decide_eq_true h
    change ((e.ears.mirror.seeDoor s.door).seeLevels s.light s.lock).current = .closing
    rw [hdoor]
    rfl
  · next state =>
    obtain ⟨hstate, hfilter⟩ : state = .closing ∧ (e.settings.debounce = false ∨ e.debounce.last? = some state) := by
      simpa using h
    have hpasses : ¬ (e.settings.debounce = true ∧ e.debounce.last? ≠ some state) := by
      rintro ⟨hdebounce, hlast⟩
      rcases hfilter with hoff | hrepeats
      · rw [hoff] at hdebounce
        contradiction
      · exact hlast hrepeats
    have hmirror : (({ e.ears with frames, records } : Ears).hearDoor state).mirror = e.ears.mirror.seeDoor state :=
      (Ears.mirror_hearDoor _ state).trans (if_neg hpasses)
    change (({ e.ears with frames, records } : Ears).hearDoor state).mirror.current = .closing
    rw [hmirror, hstate]
    rfl
  · contradiction

end Engine

/-! ## Runs -/

/-- The request that a step carries out. -/
def Step.request? {β σ : Type} : Step β σ → Option ControlRequest
  | operation o => o.request?
  | transmit .. => none

namespace Session

variable {β σ : Type} [Bus β] [Storage σ] {s : Session}

theorem consistent_transmit (h : s.engine.Consistent) (bus : β) (now : Nat) :
    (s.transmit bus now).engine.Consistent where
  mirror := by
    have hears : (s.transmit bus now).engine.door.mirror = s.engine.door.mirror := by
      rcases s.transmit_eq bus now with ⟨_, _, _, h⟩ | ⟨_, _, _, _, _, _, h⟩ | ⟨_, _, _, _, _, h⟩
      · rw [h]
      · rw [h]
        rfl
      · rw [h]
    rw [hears]
    exact h.mirror
  countdown := by
    rw [s.countdown_transmit]
    exact h.countdown
  recovery := by
    have hsenses : (s.transmit bus now).engine.recovery = s.engine.recovery := by
      rw [s.engine_transmit]
      exact congrArg Senses.recovery (s.engine.senses_transmitNext now bus)
    rw [hsenses]
    exact h.recovery

theorem consistent_take (h : s.engine.Consistent) (step : Step β σ) : (s.take step).engine.Consistent := by
  cases step with
  | operation o => exact h.after o
  | transmit bus now => exact consistent_transmit h bus now

theorem consistent_run (h : s.engine.Consistent) (steps : List (Step β σ)) : (s.run steps).engine.Consistent :=
  run_induction (P := fun x => x.engine.Consistent) h fun _ hx step _ => consistent_take hx step

/-- Without a request to close none is armed. -/
theorem avoids_arms {steps : List (Step β σ)} (h : ∀ step ∈ steps, step.request? ≠ some .closeDoor) :
    s.avoids Engine.arms steps = true := by
  induction steps generalizing s with
  | nil => rfl
  | cons step steps ih =>
    obtain ⟨hstep, hsteps⟩ := List.forall_mem_cons.mp h
    cases step with
    | operation o =>
      have hunarmed : s.engine.arms o = false := by
        have hrequest : o.request? ≠ some .closeDoor := hstep
        simp [Engine.arms, hrequest]
      simp [avoids, hunarmed, ih hsteps]
    | transmit bus now => exact ih hsteps

/-- **A report that the door is closing ends a delayed close** until the next request to close. -/
theorem isClosing_after_report {o : Operation σ} (hreport : s.engine.cancels o = true) {later : List (Step β σ)}
    (hlater : ∀ step ∈ later, step.request? ≠ some .closeDoor) :
    ((s.operate o).run later).engine.countdown.isClosing = false := by
  refine isClosing_run ?_ (avoids_arms hlater)
  have hcountdown : (s.operate o).engine.countdown = s.engine.countdownAfter o := Engine.countdown_after s.engine o
  rw [hcountdown]
  exact Engine.isClosing_of_cancels hreport

end Session

/-- After a pass a motion report has yet to end. -/
theorem motion_after_service {β σ : Type} [Bus β] [Storage σ] (e : Engine) (bus : β) (store : σ) (t : Nat)
    (h : (e.service bus store t).1.door.motion = true) : t < (e.service bus store t).1.door.motionDeadline := by
  have hsenses := e.senses_service t bus store
  have hmotion : (e.service bus store t).1.door.motion = (e.door.motion && decide (t < e.door.motionDeadline)) :=
    congrArg Senses.motion hsenses
  have hdeadline : (e.service bus store t).1.door.motionDeadline = e.door.motionDeadline :=
    congrArg Senses.deadline hsenses
  rw [hmotion, Bool.and_eq_true] at h
  rw [hdeadline]
  exact of_decide_eq_true h.2

/-- **The engine is consistent at any moment.**  After any run of an engine, whatever it receives, is asked for and
meets: the door is active exactly if its position is known; its target is unknown until then, and from then on the one
that belongs to the position.  A countdown has something to do exactly as long as it has ticks left.  Once a report that
the door is closing was believed, no delayed close runs until the next request to close.  Fewer than five presses are
counted, and none without a window.  After a pass a motion report has yet to end. -/
theorem engine_stays_consistent {β σ : Type} [Bus β] [Storage σ] (settings : Settings) (steps : List (Step β σ)) :
    let e := ((Session.new settings).run steps).engine
    (e.door.active = true ↔ e.door.current ≠ .unknown) ∧
      (if e.door.active then e.door.current.target? = some e.door.target else e.door.target = .unknown) ∧
      (e.countdown.action?.isSome = true ↔ 0 < e.countdown.remaining) ∧
      (∀ earlier byte now later, steps = earlier ++ .operation (.byte byte now) :: later →
        let before := ((Session.new settings).run earlier).engine
        ∀ x, before.inbound? byte now = some x → before.acceptsClosing x = true →
          (before.onByte byte now).door.current = .closing ∧
            ((∀ step ∈ later, step.request? ≠ some .closeDoor) → e.countdown.isClosing = false)) ∧
      (e.recovery.presses < 5 ∧ (e.recovery.deadline? = none → e.recovery.presses = 0)) ∧
      ∀ (bus : β) (store : σ) (t : Nat),
        let serviced := (e.service bus store t).1
        serviced.door.motion = true → t < serviced.door.motionDeadline := by
  intro e
  have hconsistent : e.Consistent := Session.consistent_run (s := .new settings) (.new settings) steps
  refine ⟨hconsistent.mirror.active, ?_, hconsistent.countdown, ?_,
    ⟨hconsistent.recovery.presses, hconsistent.recovery.closed⟩, motion_after_service e⟩
  · split
    · next hactive => exact hconsistent.mirror.target hactive
    · next hidle => exact hconsistent.mirror.idle ((Bool.not_eq_true _).mp hidle)
  · rintro earlier byte now later rfl before x hx hclosing
    refine ⟨Engine.current_of_acceptsClosing (σ := σ) hx hclosing, fun hlater => ?_⟩
    have hreport : before.cancels (.byte byte now : Operation σ) = true := by
      rw [Engine.cancels, hx]
      exact hclosing
    have hsplit :
        e = ((((Session.new settings).run earlier).operate (.byte byte now : Operation σ)).run later).engine :=
      congrArg Session.engine (Session.run_append _ earlier (.operation (.byte byte now) :: later))
    rw [hsplit]
    exact Session.isClosing_after_report hreport hlater

/-- A Security+ 1.0 opener whose first report is believed, a delayed close of five seconds, and the first byte of a
report. -/
def warnedSteps : List (Step BusScript MemoryStore) :=
  [.operation (.request .closeDoor), .operation .beat, .operation (.byte 0x38 0)]

/-- Somebody else closes the door: the report ends the delayed close, and later beats and passes do not bring it
back. -/
theorem engine_stays_consistent_closing :
    let settings : Settings := { security := .plus1, ttcSeconds := 5, debounce := false }
    let later : List (Step BusScript MemoryStore) := [.operation .beat, .transmit {} 50, .operation .beat]
    let warned := ((Session.new settings).run warnedSteps).engine
    let e := ((Session.new settings).run (warnedSteps ++ .operation (.byte 0x54 10) :: later)).engine
    warned.countdown.isClosing = true ∧ warned.inbound? 0x54 10 = some (.record (.status (.door .closing))) ∧
      (warned.onByte 0x54 10).door.current = .closing ∧ e.countdown.isClosing = false ∧ e.door.target = .closed := by
  intro settings later warned e
  have hx : warned.inbound? 0x54 10 = some (.record (.status (.door .closing))) := by decide +kernel
  obtain ⟨-, -, -, hreports, -⟩ := engine_stays_consistent settings (warnedSteps ++ .operation (.byte 0x54 10) :: later)
  obtain ⟨hcurrent, hended⟩ := hreports warnedSteps 0x54 10 later rfl _ hx rfl
  exact ⟨by decide +kernel, hx, hcurrent, hended (by decide), by decide +kernel⟩

end DoorBridge
