import DoorBridge.Arbiter.Script
import DoorBridge.Proofs.Engine.Senses
import DoorBridge.Proofs.Session.Orders
import DoorBridge.Proofs.Settings.Triggers
import DoorBridge.Settings.Binary
import DoorBridge.Storage.Memory

/-!
# Proofs.Session.Discovery — what is said of a discovered motion sensor

A discovery arms the trigger of the sensor and says whether it is the only one in the byte (`Senses.Learns`).  All that
ever changes among the triggers is that one (`Session.armed_run`), so what is said can be read off the settings at the
start: `reboot_required_iff`.
-/

namespace DoorBridge

namespace Senses

/-- The triggers with the one of the motion sensor among them. -/
def armed (s : Senses) : MotionTriggers := s.triggers.set .motion true

/-- The senses change among the triggers at most that of the sensor, and discover at most one sensor: then it is said
whether its trigger is the only one, which is in the set by then. -/
def Learns (s s' : Senses) : Prop :=
  s'.armed = s.armed ∧
    (s'.found = s.found ∨ s'.found = s.found ++ [s.armed.only .motion] ∧ s'.triggers = s.armed)

namespace Learns

variable {s s' : Senses}

theorem of_same (htriggers : s'.triggers = s.triggers) (hfound : s'.found = s.found) : s.Learns s' :=
  ⟨congrArg (·.set .motion true) htriggers, .inl hfound⟩

theorem refl (s : Senses) : s.Learns s := of_same rfl rfl

/-- What comes after it may touch neither the triggers nor the discoveries. -/
theorem then_same {s'' : Senses} (h : s.Learns s') (htriggers : s''.triggers = s'.triggers)
    (hfound : s''.found = s'.found) : s.Learns s'' := by
  obtain ⟨harmed, hnew⟩ := h
  refine ⟨(congrArg (·.set .motion true) htriggers).trans harmed, ?_⟩
  rwa [htriggers, hfound]

end Learns

variable (s : Senses) (now : Nat)

theorem learns_stir (trigger : MotionTrigger) : s.Learns (s.stir trigger now) := by
  unfold stir
  split <;> exact .of_same rfl rfl

theorem learns_load (found : Except StorageError (List UInt8)) : s.Learns (s.load found) := by
  rw [load.eq_def]
  split
  · split
    · exact .refl s
    · exact ⟨MotionTriggers.set_set s.triggers .motion true true, .inl rfl⟩
  · exact .refl s

theorem learns_discover : s.Learns s.discover := by
  unfold discover
  split
  · exact .refl s
  · exact ⟨MotionTriggers.set_set s.triggers .motion true true, .inr ⟨rfl, rfl⟩⟩

theorem learns_beam (obstructed : Bool) : s.Learns (s.beam obstructed now) := by
  unfold beam
  dsimp only
  split
  · exact learns_stir { s with obstructed } now .obstruction
  · exact .of_same rfl rfl

end Senses

namespace Engine

variable (e : Engine)

theorem learns_sensesHeard (x : Inbound) (now : Nat) : e.senses.Learns (e.sensesHeard x now) := by
  rw [sensesHeard.eq_def]
  dsimp only
  generalize hpressed : (if x.isPress then e.senses.press now else e.senses) = pressed
  have hsame : pressed.triggers = e.senses.triggers ∧ pressed.found = e.senses.found := by
    rw [← hpressed]
    split <;> exact ⟨rfl, rfl⟩
  split
  · exact (e.senses.learns_discover).then_same rfl rfl
  · cases e.stirs x with
    | none => exact .of_same hsame.1 hsame.2
    | some trigger =>
      rw [Option.map_some, Option.getD_some, Senses.stir]
      split <;> exact .of_same hsame.1 hsame.2

/-- **What an operation learns of the sensor.** -/
theorem learns_after {σ : Type} [Storage σ] (o : Operation σ) : e.senses.Learns (e.after o).senses := by
  rw [senses_after]
  cases o with
  | start store entropy now => exact e.senses.learns_load _
  | byte byte now =>
    rw [sensesAfter]
    cases e.inbound? byte now with
    | none => exact .refl _
    | some x => exact e.learns_sensesHeard x now
  | obstruction obstructed now => exact e.senses.learns_beam now obstructed
  | request | call | beat | press | tick | flush => exact .of_same rfl rfl

end Engine

/-! ## Runs -/

namespace Session

variable {β σ : Type} [Bus β] [Storage σ]

theorem learns_take (s : Session) (step : Step β σ) : s.engine.senses.Learns (s.take step).engine.senses := by
  cases step with
  | operation o => exact s.engine.learns_after o
  | transmit bus now =>
    have hsenses : (s.transmit bus now).engine.senses = s.engine.senses :=
      s.engine.senses_transmitNext now (WireLog.mk bus s.rows)
    exact .of_same (congrArg Senses.triggers hsenses) (congrArg Senses.found hsenses)

theorem armed_run (s : Session) (steps : List (Step β σ)) :
    (s.run steps).engine.senses.armed = s.engine.senses.armed :=
  run_induction (P := fun x => x.engine.senses.armed = s.engine.senses.armed) rfl
    fun x hx step _ => (x.learns_take step).1.trans hx

/-- A step that notifies a discovery says whether the trigger of the sensor is the only one, and has put it into the
set. -/
theorem of_discovered {s : Session} {step : Step β σ} {rebootRequired : Bool}
    (h : .motionSensorDiscovered rebootRequired ∈ s.notes step) :
    rebootRequired = s.engine.senses.armed.only .motion ∧
      (s.take step).engine.settings.motionTriggers = s.engine.senses.armed := by
  obtain ⟨new, hevents, -⟩ := s.reports_take step
  have hnew : rebootRequired ∈ discoveriesIn new := by
    rw [notes, hevents, List.drop_left] at h
    exact List.mem_filterMap.mpr ⟨_, h, rfl⟩
  have hfound : (s.take step).engine.senses.found = s.engine.senses.found ++ discoveriesIn new := by
    have hall : (s.take step).engine.senses.found = discoveriesIn (s.take step).engine.events := rfl
    rw [hall, hevents, discoveriesIn_append]
    rfl
  obtain ⟨-, hnone | ⟨hone, htriggers⟩⟩ := s.learns_take step
  · rw [hfound, List.append_right_eq_self] at hnone
    rw [hnone] at hnew
    contradiction
  · rw [hfound, List.append_cancel_left_eq] at hone
    rw [hone, List.mem_singleton] at hnew
    exact ⟨hnew, htriggers⟩

end Session

/-- **Whether a reboot is required for a discovered sensor.**  Whatever an engine has met since it was made with its
settings, when it notifies that a sensor was discovered, "required" says that no other trigger is set at that moment,
exactly if the triggers of the settings are well formed or another trigger is among them.  Triggers from text are well
formed; a record may hold other bits, and with such a bit alone "required" is not said. -/
theorem reboot_required_iff {β σ : Type} [Bus β] [Storage σ] (settings : Settings) (steps : List (Step β σ))
    (step : Step β σ) {rebootRequired : Bool}
    (hnoted : .motionSensorDiscovered rebootRequired ∈ ((Session.new settings).run steps).notes step) :
    let s := (Session.new settings).run steps
    let triggers := (s.take step).engine.settings.motionTriggers
    let alone := ∀ t ∈ [MotionTrigger.obstruction, .lightKey, .doorKey, .lockKey], triggers.contains t = false
    ((rebootRequired = true ↔ alone) ↔ settings.motionTriggers.WellFormed ∨ ¬ alone) ∧
      (alone ↔ ∀ t ≠ .motion, settings.motionTriggers.contains t = false) ∧
      ((∃ text, Settings.ofText text = .ok settings) → settings.motionTriggers.WellFormed) := by
  intro s triggers alone
  obtain ⟨hsaid, htriggers⟩ := Session.of_discovered hnoted
  have harmed : s.engine.senses.armed = settings.motionTriggers.set .motion true :=
    (Session.new settings).armed_run steps
  have hothers {t : MotionTrigger} (hne : t ≠ .motion) : triggers.contains t = settings.motionTriggers.contains t := by
    rw [show triggers = _ from htriggers, harmed, MotionTriggers.contains_set, if_neg hne]
  have halone : alone ↔ ∀ t ≠ .motion, settings.motionTriggers.contains t = false := by
    constructor
    · intro h t hne
      rw [← hothers hne]
      refine h t ?_
      cases t with
      | motion => exact absurd rfl hne
      | _ => decide
    · intro h t hmem
      have hne : t ≠ .motion := by
        rintro rfl
        exact absurd hmem (by decide)
      rw [hothers hne]
      exact h t hne
  have hrequired : rebootRequired = true ↔ settings.motionTriggers.WellFormed ∧ alone := by
    rw [hsaid, harmed, MotionTriggers.only_set_iff, halone]
  refine ⟨?_, halone, fun ⟨text, htext⟩ => Settings.wellFormed_of_ofText htext⟩
  rw [hrequired]
  constructor
  · intro h
    by_cases ha : alone
    · exact .inl (h.mpr ha).1
    · exact .inr ha
  · rintro (hwell | hother)
    · exact ⟨And.right, fun ha => ⟨hwell, ha⟩⟩
    · exact ⟨And.right, fun ha => absurd ha hother⟩

/-- The bytes of a report of the motion sensor. -/
def sensorBytes : List UInt8 :=
  match Message.encode ⟨.motion, 100, 0x333539⟩ with
  | .ok frame => frame.bytes
  | .error _ => []

/-- A boot, and a report of the sensor but for its last byte. -/
def sensorSteps : List (Step BusScript MemoryStore) :=
  .operation (.start {} 0 0) :: sensorBytes.dropLast.map fun b => .operation (.byte b 1000)

def lastSensorByte : Step BusScript MemoryStore := .operation (.byte (sensorBytes.getLastD 0) 1000)

/-- Settings with a byte of triggers. -/
def settingsWith (triggers : UInt8) : Settings := { motionTriggers := ⟨triggers⟩ }

/-- With the trigger of the sensor alone in the text a reboot is required. -/
theorem reboot_required_iff_text :
    Settings.parse "[motion_triggers]\nmotion = true\n" = .ok (settingsWith 0b00001) ∧
      .motionSensorDiscovered true ∈ ((Session.new (settingsWith 0b00001)).run sensorSteps).notes lastSensorByte ∧
      ∀ t ∈ [MotionTrigger.obstruction, .lightKey, .doorKey, .lockKey],
        (((Session.new (settingsWith 0b00001)).run sensorSteps).take
          lastSensorByte).engine.settings.motionTriggers.contains t = false := by
  have hnoted : .motionSensorDiscovered true ∈
      ((Session.new (settingsWith 0b00001)).run sensorSteps).notes lastSensorByte := by decide +kernel
  have hwell : (settingsWith 0b00001).motionTriggers.WellFormed := by decide
  obtain ⟨hsaid, -, -⟩ := reboot_required_iff (settingsWith 0b00001) sensorSteps lastSensorByte hnoted
  have halone := (hsaid.mpr (.inl hwell)).mp rfl
  exact ⟨by decide, hnoted, halone⟩

/-- The record of these settings has a sixth bit among its triggers and no other.  No other trigger is set when the sensor
is discovered, and yet it is said that no reboot is required. -/
theorem reboot_not_required_for_stray_bit :
    Settings.ofBytes [1, 1, 0, 0b100000, 1, 0xb8, 0x17, 0] = .ok (settingsWith 0b100000) ∧
      .motionSensorDiscovered false ∈ ((Session.new (settingsWith 0b100000)).run sensorSteps).notes lastSensorByte ∧
      ∀ t ∈ [MotionTrigger.obstruction, .lightKey, .doorKey, .lockKey],
        (((Session.new (settingsWith 0b100000)).run sensorSteps).take
          lastSensorByte).engine.settings.motionTriggers.contains t = false := by
  decide +kernel

end DoorBridge
