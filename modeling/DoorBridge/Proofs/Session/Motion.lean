import DoorBridge.Proofs.Engine.Senses
import DoorBridge.Proofs.Session.Hearing

/-!
# Proofs.Session.Motion — how long motion is reported

* `Engine.isMotion` says which packets and records count as motion, `Engine.motionAt?` which operations do, and when;
  `Session.motions` are the times at which something counted, along a run.
* `Due` ties the report to the last of those times: either it ends a fixed time after it, or it has ended in time.  An
  operation keeps it (`Due.operate`), so every run does whose clock does not go back (`Session.due_run`).
* A pass ends what is over, so after it nothing but the last time counts (`motion_reported_iff`).
-/

namespace DoorBridge

/-! ## What counts as motion -/

namespace Senses

/-- When the running motion report ends. -/
def report? (s : Senses) : Option Nat := if s.motion then some s.deadline else none

variable (s : Senses) (now : Nat)

theorem report?_stir (trigger : MotionTrigger) :
    (s.stir trigger now).report? = if s.triggers.contains trigger then some (now + motionHold) else s.report? := by
  unfold stir
  split <;> rfl

theorem report?_load (found : Except StorageError (List UInt8)) : (s.load found).report? = s.report? := by
  unfold load
  split
  · split <;> rfl
  · rfl

theorem report?_beam (obstructed : Bool) : (s.beam obstructed now).report? =
    if obstructed && !s.obstructed && s.triggers.contains .obstruction then some (now + motionHold) else s.report? := by
  have hstirred := report?_stir { s with obstructed } now .obstruction
  have hseen : { s with obstructed }.report? = s.report? := rfl
  unfold beam
  cases obstructed with
  | false => simp [hseen]
  | true =>
    cases s.obstructed with
    | false => simpa [hseen] using hstirred
    | true => simp [hseen]

theorem report?_expire : (s.expire now).report? = s.report?.filter (now < ·) := by
  unfold expire report?
  cases s.motion with
  | false => rfl
  | true =>
    by_cases hlasts : now < s.deadline
    · simp [hlasts, Option.filter_some]
    · simp [hlasts, Option.filter_some]

end Senses

namespace Engine

variable {σ : Type}

/-- Whether a received packet or record counts as motion: a motion packet does, and so does what may count as motion
and is set to. -/
def isMotion (e : Engine) (x : Inbound) : Bool :=
  x = .packet .motion || (e.stirs x).any e.settings.motionTriggers.contains

/-- When an operation brings something that counts as motion: a packet or record that does, or a beam that is newly
blocked and set to count. -/
def motionAt? (e : Engine) : Operation σ → Option Nat
  | .byte byte now => if (e.inbound? byte now).any e.isMotion then some now else none
  | .obstruction obstructed now =>
    if obstructed && !e.door.obstructed && e.settings.motionTriggers.contains .obstruction then some now else none
  | _ => none

variable (e : Engine)

/-- What is received starts or extends the report if it counts as motion, and does not touch it otherwise. -/
theorem report?_sensesHeard (x : Inbound) (now : Nat) :
    (e.sensesHeard x now).report? = if e.isMotion x then some (now + motionHold) else e.senses.report? := by
  unfold sensesHeard
  dsimp only
  generalize hpress : (if x.isPress then e.senses.press now else e.senses) = pressed
  have hreport : pressed.report? = e.senses.report? := by
    rw [← hpress]
    split <;> rfl
  have htriggers : pressed.triggers = e.settings.motionTriggers := by
    rw [← hpress]
    split <;> rfl
  split
  · rfl
  next hx =>
  have hmotion : e.isMotion x = (e.stirs x).any e.settings.motionTriggers.contains := by
    rw [isMotion, decide_eq_false (fun h => hx h), Bool.false_or]
  rw [hmotion]
  cases e.stirs x with
  | none => exact hreport
  | some trigger =>
    rw [Option.map_some, Option.getD_some, Senses.report?_stir, htriggers, hreport, Option.any_some]

/-- **What an operation makes of the report.** -/
theorem report?_after [Storage σ] (o : Operation σ) : (e.after o).senses.report? =
    match e.motionAt? o, o with
    | some now, _ => some (now + motionHold)
    | none, .tick now => e.senses.report?.filter (now < ·)
    | none, _ => e.senses.report? := by
  rw [senses_after]
  cases o with
  | start store entropy now => exact Senses.report?_load _ _
  | byte byte now =>
    rw [sensesAfter, motionAt?]
    cases e.inbound? byte now with
    | none => rfl
    | some x =>
      rw [Option.map_some, Option.getD_some, report?_sensesHeard, Option.any_some]
      cases e.isMotion x <;> rfl
  | obstruction obstructed now =>
    have hbeam := Senses.report?_beam e.senses now obstructed
    rw [sensesAfter, hbeam, motionAt?]
    cases hblocked : obstructed && !e.door.obstructed && e.settings.motionTriggers.contains .obstruction with
    | false => exact if_neg (ne_true_of_eq_false hblocked)
    | true => exact if_pos hblocked
  | tick now => exact Senses.report?_expire _ _
  | request | call | beat | press | flush => rfl

end Engine

/-! ## The report and the last time that something counted -/

/-- When the report ends, if it runs, given when something last counted as motion: a fixed time after it, or the report
has ended in time. -/
inductive Due (last? : Option Nat) (clock : Nat) : Option Nat → Prop
  | running : Due last? clock (last?.map (· + motionHold))
  | ended (hended : ∀ last ∈ last?, last + motionHold ≤ clock) : Due last? clock none

namespace Due

variable {last? report? : Option Nat} {clock now : Nat}

/-- Time goes by. -/
theorem later (h : Due last? clock report?) (hclock : clock ≤ now) : Due last? now report? := by
  cases h with
  | running => exact .running
  | ended hended => exact .ended fun last hlast => (hended last hlast).trans hclock

/-- Once what is over is ended, the report depends on the last time alone. -/
theorem expired (h : Due last? clock report?) (hclock : clock ≤ now) :
    report?.filter (now < ·) = (last?.map (· + motionHold)).filter (now < ·) := by
  cases h with
  | running => rfl
  | ended hended =>
    cases last? with
    | none => rfl
    | some last =>
      have hover : ¬now < last + motionHold := Nat.not_lt.mpr ((hended last rfl).trans hclock)
      simp [hover, Option.filter_some]

theorem expire (h : Due last? clock report?) (hclock : clock ≤ now) : Due last? now (report?.filter (now < ·)) := by
  rw [h.expired hclock]
  cases last? with
  | none => exact .running
  | some last =>
    rw [Option.map_some, Option.filter_some]
    by_cases hlasts : now < last + motionHold
    · rw [if_pos (decide_eq_true hlasts)]
      exact .running
    · rw [if_neg (by simpa using hlasts)]
      exact .ended fun _ hlast => Option.some.inj hlast ▸ Nat.not_lt.mp hlasts

/-- **An operation leaves the report due to the last time that something counted.** -/
theorem operate {σ : Type} [Storage σ] {e : Engine} (h : Due last? clock e.senses.report?) {o : Operation σ}
    (hclock : ∀ now ∈ o.time?, clock ≤ now) :
    Due ((e.motionAt? o).or last?) (o.time?.getD clock) (e.after o).senses.report? := by
  have hlater : clock ≤ o.time?.getD clock := by
    cases htime : o.time? with
    | none => exact Nat.le_refl clock
    | some now => exact hclock now htime
  rw [Engine.report?_after]
  cases hmotion : e.motionAt? o with
  | some now => exact .running
  | none =>
    rw [Option.none_or]
    cases o with
    | tick now => exact h.expire (hclock now rfl)
    | _ => exact h.later hlater

end Due

/-! ## Runs -/

namespace Session

variable {β σ : Type} [Bus β] [Storage σ]

/-- When a step brings something that counts as motion. -/
def motionAt? (s : Session) : Step β σ → Option Nat
  | .operation o => s.engine.motionAt? o
  | .transmit .. => none

/-- When something counted as motion in a run, in order. -/
def motions (s : Session) : List (Step β σ) → List Nat
  | [] => []
  | step :: steps => (s.motionAt? step).toList ++ (s.take step).motions steps

theorem due_take {s : Session} {last? : Option Nat} {clock : Nat} (h : Due last? clock s.engine.senses.report?)
    {step : Step β σ} (hclock : ∀ now ∈ step.time?, clock ≤ now) :
    Due ((s.motionAt? step).or last?) (step.time?.getD clock) (s.take step).engine.senses.report? := by
  cases step with
  | operation o => exact h.operate hclock
  | transmit bus now =>
    have hsenses : (s.take (.transmit bus now : Step β σ)).engine.senses = s.engine.senses :=
      Engine.senses_transmitNext s.engine now (WireLog.mk bus s.rows)
    rw [hsenses]
    exact h.later (hclock now rfl)

/-- **The report stays due to the last time that something counted**, in a run that is over by a given time and whose
clock does not go back. -/
theorem due_run {s : Session} {last? : Option Nat} {clock t : Nat} {steps : List (Step β σ)}
    (h : Due last? clock s.engine.senses.report?)
    (hclock : (clock :: (steps.filterMap Step.time? ++ [t])).Pairwise (· ≤ ·)) :
    Due ((s.motions steps).getLast?.or last?) t (s.run steps).engine.senses.report? := by
  -- the last time and the clock change along the run, so the induction is on the steps for all of them
  induction steps generalizing s last? clock with
  | nil =>
    obtain ⟨hlater, -⟩ := List.pairwise_cons.mp hclock
    exact h.later (hlater t List.mem_cons_self)
  | cons step steps ih =>
    rw [times_cons, List.append_assoc] at hclock
    obtain ⟨hstep, hsteps⟩ := clock_cons hclock
    have hlast : (s.motions (step :: steps)).getLast?.or last? =
        ((s.take step).motions steps).getLast?.or ((s.motionAt? step).or last?) := by
      rw [motions, List.getLast?_append, Option.or_assoc]
      cases s.motionAt? step <;> rfl
    rw [hlast]
    exact ih (due_take h hstep) hsteps

end Session

/-! ## Passes -/

/-- **Motion is reported for five seconds after the last thing that counts as motion.**  After every pass of a run whose
clock does not go back, motion is reported exactly if something counted and the last of it is less than five seconds
ago; and as long as it is reported, its end is known to be five seconds after that.  What counts is a motion packet, and,
if it is set to: a beam newly blocked, a press of the door key, and a light or lock key pressed on the console, on
Security+ 2.0 if that changes anything. -/
theorem motion_reported_iff {β σ : Type} [Bus β] [Storage σ] (settings : Settings) {steps : List (Step β σ)} {bus : β}
    {store : σ} {t : Nat} (hclock : TimesGrow (steps ++ Step.pass bus store t)) :
    let door := (((Session.new settings).run steps).engine.service bus store t).1.door
    let last? := ((Session.new settings).motions steps).getLast?
    (door.motion = true ↔ ∃ last, last? = some last ∧ t < last + 5000) ∧
      door.motionDeadline? = if door.motion then last?.map (· + 5000) else none := by
  intro door last?
  have htimes : (0 :: (steps.filterMap Step.time? ++ [t])).Pairwise (· ≤ ·) := by
    have hpass : (steps ++ Step.pass bus store t).filterMap Step.time? = steps.filterMap Step.time? ++ [t] ++ [t] := by
      rw [List.filterMap_append, List.append_assoc]
      rfl
    rw [TimesGrow, hpass] at hclock
    exact List.pairwise_cons.mpr ⟨fun now _ => Nat.zero_le now, (List.pairwise_append.mp hclock).1⟩
  have hdue : Due last? t ((Session.new settings).run steps).engine.senses.report? := by
    have hrun : Due (last?.or none) t _ := Session.due_run (s := .new settings) .running htimes
    rwa [Option.or_none] at hrun
  have hreport : door.motionDeadline? = (last?.map (· + motionHold)).filter (t < ·) := by
    have hsenses := Engine.senses_service ((Session.new settings).run steps).engine t bus store
    have hpassed : door.motionDeadline? = (((Session.new settings).run steps).engine.senses.expire t).report? :=
      congrArg Senses.report? hsenses
    rw [hpassed, Senses.report?_expire]
    exact hdue.expired (Nat.le_refl t)
  have hmotion : door.motion = door.motionDeadline?.isSome := by
    unfold Door.motionDeadline?
    cases door.motion <;> rfl
  rw [hmotion, hreport]
  cases last? with
  | none => exact ⟨by simp, rfl⟩
  | some last =>
    rw [Option.map_some, Option.filter_some]
    by_cases hlasts : t < last + motionHold
    · rw [if_pos (decide_eq_true hlasts)]
      exact ⟨iff_of_true rfl ⟨last, rfl, hlasts⟩, rfl⟩
    · rw [if_neg (by simpa using hlasts)]
      refine ⟨iff_of_false Bool.false_ne_true ?_, rfl⟩
      rintro ⟨_, ⟨⟩, hless⟩
      exact hlasts hless

/-- A pass with nothing in its way. -/
def plainPass (t : Nat) : List (Step BusScript MemoryStore) := Step.pass {} {} t

/-- A Security+ 1.0 run: the light key is pressed, a pass is made, and then the beam is blocked and stays so. -/
def stirredSteps : List (Step BusScript MemoryStore) :=
  [.operation (.start {} 0 0), .operation (.byte 0x32 1000)] ++ plainPass 1000 ++
    [.operation (.obstruction true 4000), .operation (.obstruction true 4500)]

/-- The door at a pass after that run, with both of them set to count. -/
def stirredDoor (t : Nat) : Door :=
  (((Session.new { security := .plus1, motionTriggers := ⟨0b110⟩ }).run stirredSteps).engine.service
    ({} : BusScript) ({} : MemoryStore) t).1.door

/-- Motion is reported until five seconds after the beam was blocked. -/
theorem motion_reported_iff_stirred :
    TimesGrow (stirredSteps ++ plainPass 8999) ∧ TimesGrow (stirredSteps ++ plainPass 9000) ∧
      ((stirredDoor 8999).motion = true ∧ (stirredDoor 8999).motionDeadline? = some 9000) ∧
      (stirredDoor 9000).motion = false ∧ (stirredDoor 9000).motionDeadline? = none := by
  have hgrows (t : Nat) (ht : 4500 ≤ t) : TimesGrow (stirredSteps ++ plainPass t) := by
    have htimes : (stirredSteps ++ plainPass t).filterMap Step.time? = [0, 1000, 1000, 1000, 4000, 4500, t, t] := rfl
    rw [TimesGrow, htimes]
    simp [ht]
    omega
  have hlast : ((Session.new { security := .plus1, motionTriggers := ⟨0b110⟩ }).motions stirredSteps).getLast? =
      some 4000 := by decide +kernel
  have hdoor (t : Nat) (ht : 4500 ≤ t) :
      ((stirredDoor t).motion = true ↔ ∃ last, some 4000 = some last ∧ t < last + 5000) ∧
        (stirredDoor t).motionDeadline? = if (stirredDoor t).motion then some 9000 else none := by
    have hreported := motion_reported_iff { security := .plus1, motionTriggers := ⟨0b110⟩ } (hgrows t ht)
    rw [hlast] at hreported
    exact hreported
  obtain ⟨hbefore, hends⟩ := hdoor 8999 (by decide)
  obtain ⟨hafter, hnone⟩ := hdoor 9000 (by decide)
  have hmotion : (stirredDoor 8999).motion = true := hbefore.mpr ⟨4000, rfl, by decide⟩
  have hquiet : (stirredDoor 9000).motion = false := by
    refine Bool.eq_false_iff.mpr fun h => ?_
    obtain ⟨_, ⟨⟩, hless⟩ := hafter.mp h
    exact absurd hless (by decide)
  rw [if_pos hmotion] at hends
  rw [if_neg (ne_true_of_eq_false hquiet)] at hnone
  exact ⟨hgrows 8999 (by decide), hgrows 9000 (by decide), ⟨hmotion, hends⟩, hquiet, hnone⟩

end DoorBridge
