import DoorBridge.Proofs.Engine.Agenda
import DoorBridge.Proofs.Session

/-!
# Proofs.Engine.Tries — when a frame may start, and what a try to send does to the arbiter

* `Arbiter.canTransmit_iff` has the rule: no earlier than what past traffic allows, no later than the console window.
* `Engine.TryCase` has the three ends of a try whose front packet can be encoded: the engine waits, the attempt fails and
  backs off, or the packet goes out and its quiet time starts once it has left the wire.  In a sound session every try
  ends in one of them (`Sound.tryCase`), and after any of them the next one has to wait (`TryCase.waits_after`).
-/

namespace DoorBridge

/-! ## The arbiter -/

namespace Arbiter

variable {a : Arbiter} {now later w : Nat}

/-- **When a frame may start.** -/
theorem canTransmit_iff : a.canTransmit now = true ↔ a.earliest ≤ now ∧ ∀ last ∈ a.windowEnd?, now ≤ last := by
  unfold canTransmit readyAt?
  cases a.windowEnd? with
  | none => simp
  | some last =>
    by_cases hclosed : last < a.earliest ∨ last < now
    · simp [hclosed]
      omega
    · simp [hclosed]
      omega

theorem canTransmit_of_lt_earliest (h : now < a.earliest) : a.canTransmit now = false := by
  rw [← Bool.not_eq_true, canTransmit_iff]
  rintro ⟨hearliest, -⟩
  omega

/-- A frame that may start now or later may start at its earliest start. -/
theorem canTransmit_of_readyAt? (h : a.readyAt? now = some w) : a.canTransmit w = true := by
  rw [canTransmit_iff]
  unfold readyAt? at h
  cases hwindow : a.windowEnd? with
  | none =>
    rw [hwindow] at h
    obtain rfl : a.earliest = w := Option.some.inj h
    exact ⟨Nat.le_refl _, nofun⟩
  | some last =>
    rw [hwindow] at h
    dsimp only at h
    split at h
    · contradiction
    · next hopen =>
      obtain rfl : a.earliest = w := Option.some.inj h
      refine ⟨Nat.le_refl _, fun found hfound => ?_⟩
      obtain rfl : last = found := Option.some.inj hfound
      omega

/-- A frame that may not start now is due later. -/
theorem lt_of_readyAt? (hwait : a.canTransmit now = false) (h : a.readyAt? now = some w) : now < w := by
  unfold canTransmit at hwait
  rw [h] at hwait
  exact Nat.lt_of_not_le (of_decide_eq_false hwait)

/-- Until its earliest start a frame waits, and as long as there is none it goes on waiting. -/
theorem canTransmit_eq_false (hlater : now ≤ later) (h : ∀ w, a.readyAt? now = some w → later < w) :
    a.canTransmit later = false := by
  rw [← Bool.not_eq_true, canTransmit_iff]
  rintro ⟨hearliest, hwindow⟩
  have hready : a.readyAt? now = some a.earliest := by
    unfold readyAt?
    cases hend : a.windowEnd? with
    | none => rfl
    | some last =>
      have hopen : later ≤ last := hwindow last hend
      dsimp only
      rw [if_neg (by omega)]
  have := h _ hready
  omega

theorem earliest_noteTx_le (a : Arbiter) (now postDelay : Nat) :
    now + postDelay ≤ (a.noteTx now postDelay).earliest := by
  unfold earliest afterTx noteTx
  cases a.security with
  | plus1 => dsimp only; omega
  | plus2 => dsimp only; omega

theorem earliest_noteCollision_le (a : Arbiter) (now : Nat) : now + retryPause ≤ (a.noteCollision now).earliest := by
  unfold earliest noteCollision
  dsimp only [Option.getD_some]
  omega

theorem airtime_pos (a : Arbiter) (length : Nat) : 0 < a.airtime length := by
  unfold airtime announceTime releaseTime
  omega

end Arbiter

/-! ## Tries to send -/

namespace Engine

/-- Nothing is queued, or the front packet may not start. -/
def Waits (e : Engine) (now : Nat) : Prop := ∀ a, e.queue.front? = some a → e.arbiter.canTransmit now = false

/-- How a try to send can end, if the front packet can be encoded. -/
inductive TryCase (e : Engine) (now : Nat) : Except EngineError (Option Packet) → Engine → Prop
  | waits (hwaits : e.Waits now) : TryCase e now (.ok none) e
  /-- The bus was taken, or the write failed. -/
  | failed {a : PacketAction} (hfront : e.queue.front? = some a) (hready : e.arbiter.canTransmit now = true)
      (cause : SendError) (events : List Event) :
      TryCase e now (.error (.ofSend cause)) { e with arbiter := e.arbiter.noteCollision now, events }
  | sent {a : PacketAction} {row : List UInt8} (hfront : e.queue.front? = some a)
      (hready : e.arbiter.canTransmit now = true) (hrow : e.encode a.packet = .ok row) :
      TryCase e now (.ok (some a.packet))
        ({ e with arbiter := e.arbiter.noteTx (now + e.arbiter.airtime row.length) a.postDelay }.afterSending a row)

variable {β : Type} [Bus β] {e : Engine} {now : Nat}

/-- A try that has to wait does nothing at all. -/
theorem transmitNext_of_waits (h : e.Waits now) (bus : β) : e.transmitNext bus now = (.ok none, e, bus) := by
  unfold transmitNext
  split
  · rfl
  next a hfront => rw [h a hfront, Bool.not_false, if_pos rfl]

theorem tryCase (hrow : ∀ a, e.queue.front? = some a → ∃ row, e.encode a.packet = .ok row) (bus : β) :
    TryCase e now (e.transmitNext bus now).1 (e.transmitNext bus now).2.1 := by
  by_cases hwaits : e.Waits now
  · rw [transmitNext_of_waits hwaits]
    exact .waits hwaits
  obtain ⟨a, hfront, hready⟩ : ∃ a, e.queue.front? = some a ∧ e.arbiter.canTransmit now = true := by
    simpa [Waits] using hwaits
  obtain ⟨row, hrow⟩ := hrow a hfront
  rw [transmitNext_eq hfront hready hrow]
  generalize e.arbiter.send row bus = sent
  obtain ⟨answer, bus'⟩ := sent
  cases answer with
  | ok done => exact .sent hfront hready hrow
  | error cause => exact .failed hfront hready cause _

/-- An attempt that does not wait may start. -/
theorem TryCase.canTransmit {answer : Except EngineError (Option Packet)} {e' : Engine} (h : TryCase e now answer e')
    (hanswer : answer ≠ .ok none) : e.arbiter.canTransmit now = true := by
  cases h with
  | waits => exact absurd rfl hanswer
  | failed hfront hready => exact hready
  | sent hfront hready => exact hready

/-- After a try to send, whatever came of it, the next one has to wait. -/
theorem TryCase.waits_after {answer : Except EngineError (Option Packet)} {e' : Engine}
    (h : TryCase e now answer e') : e'.Waits now := by
  cases h with
  | waits hwaits => exact hwaits
  | failed hfront hready cause events =>
    intro a _
    have hback : now + retryPause ≤ (e.arbiter.noteCollision now).earliest := e.arbiter.earliest_noteCollision_le now
    exact Arbiter.canTransmit_of_lt_earliest (Nat.lt_of_lt_of_le (Nat.lt_add_of_pos_right (by decide)) hback)
  | @sent a row hfront hready hrow =>
    intro b _
    have hair := e.arbiter.airtime_pos row.length
    have hquiet := e.arbiter.earliest_noteTx_le (now + e.arbiter.airtime row.length) a.postDelay
    have hbusy : now < (e.arbiter.noteTx (now + e.arbiter.airtime row.length) a.postDelay).earliest := by omega
    exact Arbiter.canTransmit_of_lt_earliest hbusy

/-- A try that may start is an attempt. -/
theorem TryCase.attempts {answer : Except EngineError (Option Packet)} {e' : Engine} (h : TryCase e now answer e')
    {a : PacketAction} (hfront : e.queue.front? = some a) (hready : e.arbiter.canTransmit now = true) :
    (∃ p, answer = .ok (some p)) ∨ ∃ cause, answer = .error (.ofSend cause) := by
  cases h with
  | waits hwaits =>
    rw [hwaits a hfront] at hready
    contradiction
  | failed _ _ cause events => exact .inr ⟨cause, rfl⟩
  | @sent b row => exact .inl ⟨b.packet, rfl⟩

end Engine

/-! ## Sessions -/

namespace Session

variable {β : Type} [Bus β] (s : Session)

theorem engine_transmit (bus : β) (now : Nat) :
    (s.transmit bus now).engine = (s.engine.transmitNext bus now).2.1 := by
  obtain ⟨new, hlogged, -⟩ := s.engine.attempt_transmitNext (WireLog.mk bus s.rows) now
  exact congrArg (·.2.1) hlogged

/-- A try to send leaves all but the arbiter as it is. -/
theorem agenda_transmit (bus : β) (now : Nat) : (s.transmit bus now).engine.agenda =
    { s.engine.agenda with arbiter := (s.transmit bus now).engine.arbiter } :=
  s.engine.agenda_transmitNext now (WireLog.mk bus s.rows)

end Session

namespace Sound

variable {β : Type} [Bus β] {s : Session}

theorem exists_row (h : Sound s) {a : PacketAction} (hfront : s.engine.queue.front? = some a) :
    ∃ row, s.engine.encode a.packet = .ok row :=
  Engine.exists_encode_of_genuine (h.genuine a (List.mem_of_mem_head? hfront)) h.counter

theorem tryCase (h : Sound s) (bus : β) (now : Nat) :
    s.engine.TryCase now (s.engine.transmitNext bus now).1 (s.transmit bus now).engine := by
  rw [s.engine_transmit]
  exact Engine.tryCase (fun _ => h.exists_row) bus

end Sound

end DoorBridge
