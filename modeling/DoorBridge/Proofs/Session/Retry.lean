import DoorBridge.Proofs.Session.Cancel
import DoorBridge.Proofs.Session.Delay

/-!
# Proofs.Session.Retry — a failed try to send is repeated as it was

* `Engine.discardsFront` are the operations that throw out the front packet.  Every other one but a start keeps the front
  packet and what it is stamped with (`Session.Repeats.operate`), and so does a try that does not send it
  (`Session.Repeats.transmit`).
* So the next try, whenever it may start, offers the same row (`Session.Repeats.run`, `Session.Repeats.offer`), which is what
  a failed try is repeated with (`failed_try_repeats`).
-/

namespace DoorBridge

namespace Engine

variable {σ : Type} {e x : Engine} {o : Operation σ} {a : PacketAction}

/-- Whether an operation throws out the front packet. -/
def discardsFront (e : Engine) (o : Operation σ) : Bool := !decide ((e.left o).front? = e.queue.front?)

/-- The row of a packet depends on the stamp and the protocol only. -/
theorem encode_of_stamp (h : x.stamp = e.stamp) (packet : Packet) : x.encode packet = e.encode packet := by
  obtain ⟨hsecurity, hid, hrolling⟩ : x.settings.security = e.settings.security ∧
      x.identity.idCode = e.identity.idCode ∧ x.identity.rolling = e.identity.rolling := by
    simpa [stamp] using h
  rw [encode, encode, hsecurity, hid, hrolling]

variable [Storage σ]

theorem front_after (hkeeps : e.discardsFront o = false) (hfront : e.queue.front? = some a) :
    (e.after o).queue.front? = some a := by
  have hleft : (e.left o).front? = some a := by simpa [discardsFront, hfront] using hkeeps
  rw [Queue.front?, actions_after, List.head?_append]
  rw [Queue.front?] at hleft
  rw [hleft]
  rfl

end Engine

namespace Session

variable {β σ : Type} [Bus β] [Storage σ] {s : Session}

/-- What was sent stays sent. -/
theorem length_sent_take (s : Session) (step : Step β σ) : s.sent.length ≤ (s.take step).sent.length := by
  cases step with
  | operation o => exact Nat.le_refl _
  | transmit bus now =>
    rw [take, transmit]
    simp

theorem length_sent_run (s : Session) (steps : List (Step β σ)) : s.sent.length ≤ (s.run steps).sent.length :=
  run_induction (P := fun x => s.sent.length ≤ x.sent.length) (Nat.le_refl _)
    fun x hx step _ => hx.trans (x.length_sent_take step)

/-- The front packet is an action that encodes to a row. -/
def Repeats (s : Session) (row : List UInt8) : Prop :=
  ∃ a, s.engine.queue.front? = some a ∧ s.engine.encode a.packet = .ok row

namespace Repeats

variable {row : List UInt8}

theorem operate (h : s.Repeats row) {o : Operation σ} (hstart : o.isStart = false)
    (hkeeps : s.engine.discardsFront o = false) : (s.operate o).Repeats row := by
  obtain ⟨a, hfront, hrow⟩ := h
  refine ⟨a, Engine.front_after hkeeps hfront, ?_⟩
  rw [← hrow]
  exact Engine.encode_of_stamp (Engine.stamp_after s.engine hstart) a.packet

theorem transmit (h : s.Repeats row) (bus : β) (now : Nat) (hunsent : (s.transmit bus now).sent.length = s.sent.length) :
    (s.transmit bus now).Repeats row := by
  obtain ⟨a, hfront, hrow⟩ := h
  rcases s.transmit_eq bus now with ⟨arbiter, events, -, hidle⟩ | ⟨b, row', arbiter, -, -, -, hsent⟩ |
    ⟨b, cause, events, hfront', hlost, -⟩
  · rw [hidle]
    exact ⟨a, hfront, hrow⟩
  · rw [hsent] at hunsent
    simp at hunsent
  · obtain rfl : a = b := Option.some.inj (hfront.symm.trans hfront')
    rw [hrow] at hlost
    contradiction

/-- Without a start, a discard of the front packet and a successful try it stays as it is. -/
theorem run {steps : List (Step β σ)} (h : s.Repeats row) (hstart : ∀ step ∈ steps, step.isStart = false)
    (hkeeps : s.avoids Engine.discardsFront steps = true) (hunsent : (s.run steps).sent.length = s.sent.length) :
    (s.run steps).Repeats row := by
  induction steps generalizing s with
  | nil => exact h
  | cons step steps ih =>
    obtain ⟨hfirst, hrest⟩ := List.forall_mem_cons.mp hstart
    have hgrows := s.length_sent_take step
    have hlater : (s.take step).sent.length ≤ (s.run (step :: steps)).sent.length := (s.take step).length_sent_run steps
    have hsame : (s.take step).sent.length = s.sent.length := by omega
    cases step with
    | operation o =>
      obtain ⟨hkept, hkeeps⟩ : s.engine.discardsFront o = false ∧
          (s.operate o).avoids Engine.discardsFront steps = true := by
        simpa [avoids] using hkeeps
      exact ih (h.operate hfirst hkept) hrest hkeeps hunsent
    | transmit bus now => exact ih (h.transmit bus now hsame) hrest hkeeps (hunsent.trans hsame.symm)

/-- A try that may start offers the row. -/
theorem offer (h : s.Repeats row) {now : Nat} (hcan : s.engine.arbiter.canTransmit now = true) :
    s.engine.offer? now = some row := by
  obtain ⟨a, hfront, hrow⟩ := h
  exact Engine.offer_eq_some_iff.mpr ⟨a, hfront, hcan, hrow⟩

end Repeats

end Session

/-- **A failed try leaves everything ready to be repeated.**  Whatever the bus answers, a try writes only after it has seen
the line idle, announced the frame and seen the line idle again, writes last of all, and leaves the line released.  If the
bus is taken or the write takes too long, only the time of the next try changes, and as long as the front packet is not
thrown out, the next try sends the same row: whatever came in, was asked for, timed out or was stored in between, and
whatever tries failed or could not start. -/
theorem failed_try_repeats {β σ : Type} [Bus β] [Storage σ] (e : Engine) (bus : β) (now : Nat) :
    let tried := e.transmitNext (Recorder.mk bus []) now
    (tried.1, tried.2.1, tried.2.2.bus) = e.transmitNext bus now ∧
    (∀ before row answer after, tried.2.2.calls = before ++ .wrote row answer :: after →
      before = announcement ++ [.sampled false] ∧ after = []) ∧
    holdsLine tried.2.2.calls = false ∧
    (tried.1 = .error .collision ∨ tried.1 = .error .writeTimeout →
      (∃ events, tried.2.1 = { e with arbiter := { e.arbiter with retryAt? := some (now + 20) }, events }) ∧
      ∃ row, tried.2.2 = (e.arbiter.send row (Recorder.mk bus [])).2 ∧
        Exchange row tried.2.2.calls (e.arbiter.send row bus).1 ∧
        ∀ steps : List (Step β σ), (∀ step ∈ steps, step.isStart = false) →
          let failed : Session := { engine := tried.2.1 }
          failed.avoids Engine.discardsFront steps = true → (failed.run steps).sent = [] →
          ∀ (next : β) (later : Nat),
            let ready := (failed.run steps).engine
            ready.arbiter.canTransmit later = true →
            let again := ready.transmitNext (Recorder.mk next []) later
            again.2.2 = (ready.arbiter.send row (Recorder.mk next [])).2 ∧
              Exchange row again.2.2.calls (ready.arbiter.send row next).1) := by
  dsimp only
  refine ⟨(busMap_bus.transmitNext e (Recorder.mk bus []) now).symm, ?_⟩
  cases hoffer : e.offer? now with
  | none =>
    obtain ⟨hbus, hharmless⟩ := Engine.transmitNext_of_no_offer hoffer (Recorder.mk bus [])
    rw [hbus]
    refine ⟨?_, rfl, ?_⟩
    · intro before row answer after hcalls
      simp at hcalls
    · rintro (hfailed | hfailed)
      · exact absurd hfailed (hharmless .collision)
      · exact absurd hfailed (hharmless .writeTimeout)
  | some row =>
    have hexchange := Engine.exchange_transmitNext hoffer bus
    refine ⟨?_, hexchange.holdsLine_eq, ?_⟩
    · intro before row' answer after hcalls
      exact (hexchange.of_wrote hcalls).2
    · intro hfailed
      obtain ⟨hsends, ⟨-, packet, hsent⟩ | ⟨cause, events, -, -, hengine⟩⟩ :=
        Engine.transmitNext_of_offer hoffer (Recorder.mk bus [])
      · rw [hsent] at hfailed
        simp at hfailed
      · refine ⟨⟨events, hengine⟩, row, hsends, hexchange, ?_⟩
        intro steps hstart hkeeps hunsent next later hcan
        obtain ⟨a, hfront, -, hrow⟩ := Engine.offer_eq_some_iff.mp hoffer
        have hrepeats : ({ engine := (e.transmitNext (Recorder.mk bus []) now).2.1 } : Session).Repeats row := by
          rw [hengine]
          exact ⟨a, hfront, hrow⟩
        have hlater := (hrepeats.run hstart hkeeps (by rw [hunsent])).offer hcan
        exact ⟨(Engine.transmitNext_of_offer hlater _).1, Engine.exchange_transmitNext hlater next⟩

/-- The greeting of a station that has just started could not be written in time. -/
def timedOut : Except EngineError (Option Packet) × Engine × Recorder BusScript :=
  (Session.boot {} ({} : MemoryStore) 0 0).engine.transmitNext ⟨{ writeError? := some .timeout }, []⟩ 100

/-- A status frame comes in, the light is asked for, one try is too early and one fails, and the store is flushed. -/
def betweenTries : List (Step BusScript MemoryStore) :=
  statusSteps ⟨.stopped, true, false, false, false⟩ 105 ++
    [.operation (.request (.light false)), .transmit {} 110, .transmit { busy := [true] } 125] ++
    Step.pass { busy := [false, true] } ({} : MemoryStore) 150

/-- After all that the greeting is written as it was. -/
theorem failed_try_repeats_greeting : timedOut.1 = .error .writeTimeout ∧
    (({ engine := timedOut.2.1 } : Session).run betweenTries).engine.queue.size = 4 ∧
    ∃ row, rowsGiven timedOut.2.2.calls = [row] ∧
      rowsGiven ((({ engine := timedOut.2.1 } : Session).run betweenTries).engine.transmitNext
        (Recorder.mk ({} : BusScript) []) 200).2.2.calls = [row] := by
  have htimeout : timedOut.1 = .error .writeTimeout := by decide +kernel
  obtain ⟨-, -, -, hretry⟩ := failed_try_repeats (σ := MemoryStore) (Session.boot {} ({} : MemoryStore) 0 0).engine
    ({ writeError? := some .timeout } : BusScript) 100
  obtain ⟨-, row, -, hfirst, hlater⟩ := hretry (.inr htimeout)
  have hquiet : ({ engine := timedOut.2.1 } : Session).avoids Engine.discardsFront betweenTries = true := by
    decide +kernel
  obtain ⟨-, hagain⟩ := hlater betweenTries (by decide +kernel) hquiet (by decide +kernel) {} 200 (by decide +kernel)
  refine ⟨htimeout, by decide +kernel, row, ?_, ?_⟩
  · have hgiven : rowsGiven timedOut.2.2.calls ≠ [] := by decide +kernel
    exact hfirst.rows.1.resolve_left fun h => hgiven h.1
  · have hgiven : rowsGiven ((({ engine := timedOut.2.1 } : Session).run betweenTries).engine.transmitNext
        (Recorder.mk ({} : BusScript) []) 200).2.2.calls ≠ [] := by decide +kernel
    unfold timedOut at hgiven ⊢
    exact hagain.rows.1.resolve_left fun h => hgiven h.1

end DoorBridge
