import DoorBridge.Arbiter.Script
import DoorBridge.Proofs.Engine.Rest
import DoorBridge.Proofs.Session.Orders
import DoorBridge.Storage.Memory

/-!
# Proofs.Session.Wake — the next wake-up is when there is work again

After every servicing pass of a run without a reset the engine rests (`Session.rests_pass`), so a pass before its next
wake-up does nothing.  At that time something is due (`Session.work_of_nextWake?`): the motion report, a partial frame
or record, or a packet.
-/

namespace DoorBridge

namespace Session

variable {β σ : Type} [Bus β] [Storage σ] (s : Session)

/-- A try to send leaves the door and the readers alone. -/
theorem senses_transmit (bus : β) (now : Nat) :
    (s.transmit bus now).engine.door = s.engine.door ∧ (s.transmit bus now).engine.frames = s.engine.frames ∧
      (s.transmit bus now).engine.records = s.engine.records := by
  rcases s.transmit_eq bus now with ⟨_, _, _, h⟩ | ⟨_, _, _, _, _, _, h⟩ | ⟨_, _, _, _, _, h⟩
  all_goals
    rw [h]
    exact ⟨rfl, rfl, rfl⟩

/-- A pass leaves the door and the readers as its tick has left them. -/
theorem senses_pass (bus : β) (store : σ) (now : Nat) :
    (s.run (Step.pass bus store now)).engine.door = (s.engine.tick now).door ∧
      (s.run (Step.pass bus store now)).engine.frames = (s.engine.tick now).frames ∧
      (s.run (Step.pass bus store now)).engine.records = (s.engine.tick now).records := by
  obtain ⟨lastSaved, pending, events, hflush⟩ :=
    ((s.operate (.tick now : Operation σ)).transmit bus now).engine.flush_eq store
  have hpass : (s.run (Step.pass bus store now)).engine =
      (((s.operate (.tick now : Operation σ)).transmit bus now).engine.flush store).2.1 := rfl
  rw [hpass, hflush]
  exact (s.operate (.tick now : Operation σ)).senses_transmit bus now

theorem oneReader_take (h : s.engine.ears.OneReader) (step : Step β σ) : (s.take step).engine.ears.OneReader := by
  cases step with
  | operation o =>
    show (s.engine.after o).ears.OneReader
    rw [s.engine.ears_after o]
    cases o with
    | byte byte now =>
      unfold Engine.earsAfter
      dsimp only
      split
      · exact (h.feed now byte).hear _
      · exact h.feed now byte
    | tick now => exact h.expire now
    | _ => exact h
  | transmit bus now =>
    obtain ⟨-, hframes, hrecords⟩ := s.senses_transmit bus now
    have hsecurity := s.security_transmit bus now
    constructor
    · intro hplus2
      show (s.transmit bus now).engine.records.key? = none
      rw [hrecords]
      exact h.records (hsecurity.symm.trans hplus2)
    · intro hplus1
      show (s.transmit bus now).engine.frames.isReceiving = false
      rw [hframes]
      exact h.frames (hsecurity.symm.trans hplus1)

theorem oneReader_run (settings : Settings) (steps : List (Step β σ)) :
    ((new settings).run steps).engine.ears.OneReader :=
  run_induction (P := fun x => x.engine.ears.OneReader) ⟨fun _ => rfl, fun _ => rfl⟩
    fun x hx step _ => x.oneReader_take hx step

/-- Without a reset on the way none is pending. -/
theorem reset_run_new {settings : Settings} {steps : List (Step β σ)} (h : ∀ step ∈ steps, step.isReset = false) :
    ((new settings).run steps).engine.pending.reset = false := by
  rw [← Bool.not_eq_true]
  intro hpending
  obtain ⟨hnew, -⟩ := reset_run h hpending
  contradiction

/-- **After a pass the engine rests.** -/
theorem rests_pass (hsound : Sound s) (hreset : s.engine.pending.reset = false) (bus : β) (store : σ) (now : Nat) :
    (s.run (Step.pass bus store now)).engine.Rests now := by
  let ticked := s.operate (.tick now : Operation σ)
  let sent := ticked.transmit bus now
  have hticked : Sound ticked := hsound.operate _
  have hsent : Sound sent := hticked.transmit bus now
  have hpass : (s.run (Step.pass bus store now)).engine = (sent.engine.flush store).2.1 := rfl
  obtain ⟨hdoor, hframes, hrecords⟩ := s.senses_pass bus store now
  obtain ⟨events, htick⟩ := s.engine.tick_eq now
  rw [htick] at hdoor hframes hrecords
  constructor
  · rw [hdoor]
    exact s.engine.door.motionIsOver_expireMotion now
  · rw [hframes]
    exact s.engine.frames.isOverdue_expire now
  · rw [hrecords]
    exact s.engine.records.isOverdue_expire now
  · obtain ⟨lastSaved, pending, events, hflush⟩ := sent.engine.flush_eq store
    rw [hpass, hflush]
    exact (hticked.tryCase bus now).waits_after
  · rw [hpass]
    exact sent.engine.pending_flush store
  · intro hplus2
    have hsecurity : sent.engine.settings.security = .plus2 := by
      obtain ⟨lastSaved, pending, events, hflush⟩ := sent.engine.flush_eq store
      rw [hpass, hflush] at hplus2
      exact of_decide_eq_true hplus2
    have hquiet : sent.engine.pending.reset = false := by
      have hkept : sent.engine.pending.reset = ticked.engine.pending.reset :=
        congrArg Agenda.reset (ticked.agenda_transmit bus now)
      have hsame : ticked.engine.pending.reset = s.engine.pending.reset :=
        congrArg Agenda.reset (s.engine.agenda_tick now)
      rw [hkept, hsame, hreset]
    rw [hpass]
    exact sent.engine.needsSave_flush store hquiet hsent.counter hsecurity

/-- **At its wake-up the engine has work to do.** -/
theorem work_of_nextWake? {now w : Nat} (hsound : Sound s) (hwake : s.engine.nextWake? now = some w) (bus : β)
    (store : σ) :
    let after := (s.engine.service bus store w).1
    s.engine.door.motion = true ∧ after.door.motion = false ∨
      s.engine.frames.isReceiving = true ∧ after.frames.isReceiving = false ∨
      s.engine.records.key?.isSome = true ∧ after.records.key? = none ∨
      (∃ p, ((s.engine.tick w).transmitNext bus w).1 = .ok (some p)) ∨
      ∃ cause, ((s.engine.tick w).transmitNext bus w).1 = .error (.ofSend cause) := by
  intro after
  have hpass : (s.run (Step.pass bus store w)).engine = after := s.run_pass bus store w
  obtain ⟨hdoor, hframes, hrecords⟩ := s.senses_pass bus store w
  obtain ⟨events, htick⟩ := s.engine.tick_eq w
  rw [hpass, htick] at hdoor hframes hrecords
  rw [Engine.nextWake?_eq] at hwake
  rcases Engine.earlier?_cases hwake with hwake | hreader
  · rcases Engine.earlier?_cases hwake with hsend | hmotion
    · obtain ⟨a, hfront, hready⟩ := Engine.exists_front_of_sendAt? hsend
      have hticked : Sound (s.operate (.tick w : Operation σ)) := hsound.operate _
      have hattempts := (hticked.tryCase bus w).attempts (a := a)
      refine .inr (.inr (.inr (hattempts ?_ ?_)))
      · show (s.engine.tick w).queue.front? = some a
        rw [htick]
        exact hfront
      · show (s.engine.tick w).arbiter.canTransmit w = true
        rw [htick]
        exact Arbiter.canTransmit_of_readyAt? hready
    · rw [hdoor]
      exact .inl (Door.motion_expireMotion hmotion)
  · obtain ⟨deadline, hdeadline, rfl⟩ := Option.map_eq_some_iff.mp hreader
    unfold Engine.readerDeadline? at hdeadline
    rw [hframes, hrecords]
    split at hdeadline
    · exact .inr (.inl (FrameReader.isReceiving_expire hdeadline))
    · exact .inr (.inr (.inl (RecordReader.key?_expire hdeadline)))

end Session

/-- **The next wake-up is exact.**  In any run of a new engine without a reset, after a servicing pass at time `t`, for
any bus and any store:

* the next wake-up, if there is one, comes later than `t`;
* before it a further pass does nothing: it leaves the engine with all that it reported, the bus and the store as they
  are, whatever bus and store it meets;
* at that time a pass ends the motion report, or a partial frame or record, or attempts to send a packet. -/
theorem next_wake_exact {β σ : Type} [Bus β] [Storage σ] (settings : Settings) {steps : List (Step β σ)}
    (hsteps : ∀ step ∈ steps, step.isReset = false) (bus : β) (store : σ) (t : Nat) :
    let e := (((Session.new settings).run steps).engine.service bus store t).1
    (∀ w, e.nextWake? t = some w → t < w) ∧
    ∀ (γ τ : Type) [Bus γ] [Storage τ] (bus' : γ) (store' : τ),
      (∀ t', t ≤ t' → (∀ w, e.nextWake? t = some w → t' < w) → e.service bus' store' t' = (e, bus', store')) ∧
      ∀ w, e.nextWake? t = some w →
        let after := (e.service bus' store' w).1
        e.door.motion = true ∧ after.door.motion = false ∨
          e.frames.isReceiving = true ∧ after.frames.isReceiving = false ∨
          e.records.key?.isSome = true ∧ after.records.key? = none ∨
          (∃ p, ((e.tick w).transmitNext bus' w).1 = .ok (some p)) ∨
          ∃ cause, ((e.tick w).transmitNext bus' w).1 = .error (.ofSend cause) := by
  intro e
  let s := (Session.new settings).run steps
  have hsound : Sound s := (Sound.new settings).run steps
  have hpass : (s.run (Step.pass bus store t)).engine = e := s.run_pass bus store t
  have hrests : e.Rests t := hpass ▸ s.rests_pass hsound (Session.reset_run_new hsteps) bus store t
  have hone : e.ears.OneReader := by
    have hrun := Session.oneReader_run settings (steps ++ Step.pass bus store t)
    rw [Session.run_append, hpass] at hrun
    exact hrun
  refine ⟨fun w hwake => hrests.lt_of_nextWake? hwake, fun γ τ _ _ bus' store' =>
    ⟨fun t' hle hwake => (hrests.lasts hone hle hwake).service bus' store', fun w hwake => ?_⟩⟩
  have hserviced : Sound (s.run (Step.pass bus store t)) := hsound.run _
  rw [← hpass] at hwake ⊢
  exact Session.work_of_nextWake? _ hserviced hwake bus' store'

/-- A start, a request to open the door, and a pass that sends the first packet of the greeting. -/
def greetedSteps : List (Step BusScript MemoryStore) :=
  [.operation (.start {} 7 0), .operation (.request .openDoor)]

def greeted : Engine :=
  (((Session.new {}).run greetedSteps).engine.service ({} : BusScript) ({} : MemoryStore) 1000).1

/-- The next packet may start 22 ms later; a millisecond before that a pass does nothing. -/
theorem next_wake_exact_greeted :
    greeted.nextWake? 1000 = some 1022 ∧
      greeted.service ({} : BusScript) ({} : MemoryStore) 1021 = (greeted, {}, {}) ∧
      ((∃ p, ((greeted.tick 1022).transmitNext ({} : BusScript) 1022).1 = .ok (some p)) ∨
        ∃ cause, ((greeted.tick 1022).transmitNext ({} : BusScript) 1022).1 = .error (.ofSend cause)) := by
  have hwake : greeted.nextWake? 1000 = some 1022 := by decide +kernel
  have hmotion : greeted.door.motion = false := by decide +kernel
  have hframes : greeted.frames.isReceiving = false := by decide +kernel
  have hrecords : greeted.records.key?.isSome = false := by decide +kernel
  have hsteps : ∀ step ∈ greetedSteps, step.isReset = false := by decide
  obtain ⟨-, hpass⟩ := next_wake_exact {} hsteps {} {} 1000
  obtain ⟨hidle, hwork⟩ := hpass BusScript MemoryStore {} {}
  refine ⟨hwake, hidle 1021 (by decide) fun w hw => ?_, ?_⟩
  · obtain rfl : 1022 = w := Option.some.inj (hwake.symm.trans hw)
    decide
  · rcases hwork 1022 hwake with ⟨hmoving, -⟩ | ⟨hpartial, -⟩ | ⟨hpartial, -⟩ | hattempt
    · exact absurd hmoving (ne_true_of_eq_false hmotion)
    · exact absurd hpartial (ne_true_of_eq_false hframes)
    · exact absurd hpartial (ne_true_of_eq_false hrecords)
    · exact hattempt

end DoorBridge
