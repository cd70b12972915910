import DoorBridge.Proofs.Engine.Offers

/-!
# Proofs.Engine.Transmit — what one try to send comes to

* `WireLog` is a bus with a copy of every row that was written to it; a failed write leaves none.
* `Engine.Attempt` has the three ends of a try: nothing goes out, the front packet goes out, or the front packet
  cannot be encoded and is lost.  Every try ends in one of them (`attempt_transmitNext`).
-/

namespace DoorBridge

/-- A bus with a copy of every row that was written to it. -/
structure WireLog (β : Type) where
  bus : β
  rows : List (List UInt8) := []

/-- The rows that a write of one row adds to the log. -/
def loggedRows (row : List UInt8) : Except WriteError Unit → List (List UInt8)
  | .ok () => [row]
  | .error _ => []

instance {β : Type} [Bus β] : Bus (WireLog β) where
  lineBusy w := ((Bus.lineBusy w.bus).1, { w with bus := (Bus.lineBusy w.bus).2 })
  rxPending w := Bus.rxPending w.bus
  setAsserted held w := { w with bus := Bus.setAsserted held w.bus }
  delay time w := { w with bus := Bus.delay time w.bus }
  write row w := ((Bus.write row w.bus).1, ⟨(Bus.write row w.bus).2, w.rows ++ loggedRows row (Bus.write row w.bus).1⟩)

variable {β : Type} [Bus β]

/-- A log that had some rows, as the recorded calls say. -/
def WireLog.ofRecorder (rows : List (List UInt8)) (r : Recorder β) : WireLog β := ⟨r.bus, rows ++ rowsWritten r.calls⟩

theorem busMap_wireLog (rows : List (List UInt8)) :
    BusMap (WireLog.ofRecorder rows : Recorder β → WireLog β) where
  lineBusy r := by simp [WireLog.ofRecorder, rowsWritten, Bus.lineBusy]
  rxPending r := rfl
  setAsserted held r := by simp [WireLog.ofRecorder, rowsWritten, Bus.setAsserted]
  delay time r := by simp [WireLog.ofRecorder, rowsWritten, Bus.delay]
  write row r := by
    simp only [WireLog.ofRecorder, rowsWritten, Bus.write]
    cases (Bus.write row r.bus).1 <;> simp [loggedRows]

/-- Sending is the same on a logged bus, and a frame is in the log exactly if it was sent. -/
theorem send_wireLog (a : Arbiter) (frame : List UInt8) (w : WireLog β) :
    ∃ new, a.send frame w = ((a.send frame w.bus).1, ⟨(a.send frame w.bus).2, w.rows ++ new⟩) ∧
      ((a.send frame w.bus).1 = .ok () ∧ new = [frame] ∨
        (∃ cause, (a.send frame w.bus).1 = .error cause) ∧ new = []) := by
  obtain ⟨calls, hexchange, hsend⟩ := exchange_map (busMap_wireLog w.rows) a frame w.bus
  have hlog : WireLog.ofRecorder w.rows ⟨w.bus, []⟩ = w := congrArg (WireLog.mk w.bus) (List.append_nil _)
  rw [hlog] at hsend
  exact ⟨rowsWritten calls, hsend, hexchange.rows.2⟩

namespace Engine

/-- How a try to send may end: its answer, the engine afterwards, and the rows written. -/
inductive Attempt (e : Engine) : Except EngineError (Option Packet) → Engine → List (List UInt8) → Prop where
  /-- Nothing to send, not the time to send, or a failure that is tried again. -/
  | idle {answer : Except EngineError (Option Packet)} (harmless : ∀ packet, answer ≠ .ok (some packet))
      (arbiter : Arbiter) (events : List Event) : Attempt e answer { e with arbiter, events } []
  /-- The front packet went out. -/
  | sent {a : PacketAction} {row : List UInt8} (hfront : e.queue.front? = some a)
      (hrow : e.encode a.packet = .ok row) (arbiter : Arbiter) :
      Attempt e (.ok (some a.packet)) ({ e with arbiter }.afterSending a row) [row]
  /-- The front packet cannot be encoded. -/
  | lost {a : PacketAction} {cause : EngineError} (hfront : e.queue.front? = some a)
      (hrow : e.encode a.packet = .error cause) (events : List Event) :
      Attempt e (.error cause) { e with queue := e.queue.dropFront, events } []

/-- **Every try ends in one of three ways**, with the same answer and the same engine whether the bus is logged or
not. -/
theorem attempt_transmitNext (e : Engine) (w : WireLog β) (now : Nat) :
    ∃ new, e.transmitNext w now =
        ((e.transmitNext w.bus now).1, (e.transmitNext w.bus now).2.1,
          ⟨(e.transmitNext w.bus now).2.2, w.rows ++ new⟩) ∧
      Attempt e (e.transmitNext w.bus now).1 (e.transmitNext w.bus now).2.1 new := by
  have hunwritten (answer : Except EngineError (Option Packet)) (x : Engine) :
      (answer, x, w) = (answer, x, ⟨w.bus, w.rows ++ []⟩) := by rw [List.append_nil]
  rw [transmitNext, transmitNext]
  split
  · exact ⟨[], hunwritten _ _, .idle (by simp) e.arbiter e.events⟩
  next a hfront =>
  split
  · exact ⟨[], hunwritten _ _, .idle (by simp) e.arbiter e.events⟩
  split
  · next cause hrow => exact ⟨[], hunwritten _ _, .lost hfront hrow _⟩
  next row hrow =>
  obtain ⟨new, hsend, hnew⟩ := send_wireLog e.arbiter row w
  rw [Arbiter.transmit, Arbiter.transmit, hsend]
  generalize e.arbiter.send row w.bus = sent at hnew ⊢
  obtain ⟨answer, bus⟩ := sent
  rcases hnew with ⟨hanswer, rfl⟩ | ⟨⟨cause, hanswer⟩, rfl⟩
  · obtain rfl : answer = .ok () := hanswer
    exact ⟨[row], rfl, .sent hfront hrow _⟩
  · obtain rfl : answer = .error cause := hanswer
    exact ⟨[], rfl, .idle (by simp) _ _⟩

variable {e : Engine}

/-- Sending a genuine packet moves the counter on, unless it is a door press. -/
theorem stamp_afterSending {a : PacketAction} (hplus2 : e.settings.security = .plus2) (h : a.Genuine .plus2)
    (row : List UInt8) : (e.afterSending a row).stamp =
      (.plus2, e.identity.idCode,
        if a.packet.isDoorPress then e.identity.rolling else advance e.identity.rolling 1) := by
  have his : e.isPlus2 = true := decide_eq_true hplus2
  rw [afterSending, his, Bool.true_and, h.2]
  cases a.packet.isDoorPress <;> exact congrArg (·, _) hplus2

end Engine

end DoorBridge
