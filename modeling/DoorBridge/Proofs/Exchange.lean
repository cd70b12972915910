import DoorBridge.Engine.Service

/-!
# Proofs.Exchange — what a try to send asks of the bus

* `BusMap f` says that `f` takes one bus to another that answers alike.  Sending over either gives the same
  (`BusMap.send`, `BusMap.transmitNext`).
* `Bus.Keeps P` says that every call of the bus keeps `P`; then a try to send keeps it (`Bus.Keeps.transmitNext`).
* `Recorder` is a bus with a copy of every call that looks at the line or acts on it.  `Exchange row` are the rows of calls
  that sending a row may come to; sending always comes to one of them (`exchange_send`, `exchange_map`).
* `Engine.offer?` is the row that a try would send.  A try without one does not touch the bus (`transmitNext_of_no_offer`),
  and one with it is an exchange of that row (`exchange_transmitNext`) and ends as that does (`transmitNext_eq`,
  `transmitNext_of_offer`).
-/

namespace DoorBridge

/-! ## Buses that answer alike -/

/-- The second bus answers as the first one does, and goes on doing so. -/
structure BusMap {γ β : Type} [Bus γ] [Bus β] (f : γ → β) : Prop where
  lineBusy (g : γ) : Bus.lineBusy (f g) = ((Bus.lineBusy g).1, f (Bus.lineBusy g).2)
  rxPending (g : γ) : Bus.rxPending (f g) = Bus.rxPending g
  setAsserted (held : Bool) (g : γ) : Bus.setAsserted held (f g) = f (Bus.setAsserted held g)
  delay (time : Nat) (g : γ) : Bus.delay time (f g) = f (Bus.delay time g)
  write (row : List UInt8) (g : γ) : Bus.write row (f g) = ((Bus.write row g).1, f (Bus.write row g).2)

namespace BusMap

variable {γ β : Type} [Bus γ] [Bus β] {f : γ → β}

theorem send (h : BusMap f) (a : Arbiter) (row : List UInt8) (g : γ) :
    a.send row (f g) = ((a.send row g).1, f (a.send row g).2) := by
  rw [Arbiter.send, Arbiter.send, h.rxPending]
  split
  · rfl
  rw [h.lineBusy]
  generalize Bus.lineBusy g = sampled
  obtain ⟨busy, g⟩ := sampled
  dsimp only
  split
  · rfl
  rw [h.setAsserted, h.delay, h.setAsserted, h.delay, h.lineBusy]
  generalize Bus.lineBusy (Bus.delay releaseTime (Bus.setAsserted false (Bus.delay announceTime
    (Bus.setAsserted true g)))) = sampled
  obtain ⟨busy, g⟩ := sampled
  dsimp only
  split
  · rfl
  rw [h.write]
  generalize Bus.write row g = written
  obtain ⟨answer, g⟩ := written
  cases answer with
  | ok done => rfl
  | error cause => cases cause <;> rfl

theorem transmitNext (h : BusMap f) (e : Engine) (g : γ) (now : Nat) : e.transmitNext (f g) now =
    ((e.transmitNext g now).1, (e.transmitNext g now).2.1, f (e.transmitNext g now).2.2) := by
  rw [Engine.transmitNext, Engine.transmitNext]
  split
  · rfl
  split
  · rfl
  split
  · rfl
  next row hrow =>
  rw [Arbiter.transmit, Arbiter.transmit, h.send]
  generalize e.arbiter.send row g = sent
  obtain ⟨answer, g'⟩ := sent
  cases answer <;> rfl

end BusMap

/-! ## What every call keeps -/

/-- What every call of a bus keeps. -/
structure Bus.Keeps {β : Type} [Bus β] (P : β → Prop) : Prop where
  lineBusy {b : β} (h : P b) : P (Bus.lineBusy b).2
  setAsserted (held : Bool) {b : β} (h : P b) : P (Bus.setAsserted held b)
  delay (time : Nat) {b : β} (h : P b) : P (Bus.delay time b)
  write (row : List UInt8) {b : β} (h : P b) : P (Bus.write row b).2

namespace Bus.Keeps

variable {β : Type} [Bus β] {P : β → Prop} {b : β}

theorem send (hkeeps : Bus.Keeps P) (a : Arbiter) (row : List UInt8) (h : P b) : P (a.send row b).2 := by
  rw [Arbiter.send]
  split
  · exact h
  replace h := hkeeps.lineBusy h
  dsimp only
  split
  · exact h
  replace h := hkeeps.setAsserted true h
  replace h := hkeeps.delay announceTime h
  replace h := hkeeps.setAsserted false h
  replace h := hkeeps.lineBusy (hkeeps.delay releaseTime h)
  split
  · exact h
  replace h := hkeeps.write row h
  split
  all_goals
    next hwritten =>
    rw [hwritten] at h
    exact h

theorem transmitNext (hkeeps : Bus.Keeps P) (e : Engine) (now : Nat) (h : P b) : P (e.transmitNext b now).2.2 := by
  rw [Engine.transmitNext]
  split
  · exact h
  split
  · exact h
  split
  · exact h
  next row hrow =>
  replace h := hkeeps.send e.arbiter row h
  rw [Arbiter.transmit]
  generalize e.arbiter.send row b = sent at h ⊢
  obtain ⟨answer, b⟩ := sent
  cases answer <;> exact h

end Bus.Keeps

/-! ## Calls -/

/-- A call that looks at the line or acts on it, with the answer. -/
inductive BusEvent where
  | sampled (busy : Bool)
  | asserted (held : Bool)
  | delayed (time : Nat)
  | wrote (row : List UInt8) (answer : Except WriteError Unit)

/-- A bus with a copy of every call that looks at the line or acts on it. -/
structure Recorder (β : Type) where
  bus : β
  calls : List BusEvent := []

variable {β : Type} [Bus β]

instance : Bus (Recorder β) where
  lineBusy r := ((Bus.lineBusy r.bus).1, ⟨(Bus.lineBusy r.bus).2, r.calls ++ [.sampled (Bus.lineBusy r.bus).1]⟩)
  rxPending r := Bus.rxPending r.bus
  setAsserted held r := ⟨Bus.setAsserted held r.bus, r.calls ++ [.asserted held]⟩
  delay time r := ⟨Bus.delay time r.bus, r.calls ++ [.delayed time]⟩
  write row r := ((Bus.write row r.bus).1, ⟨(Bus.write row r.bus).2, r.calls ++ [.wrote row (Bus.write row r.bus).1]⟩)

theorem lineBusy_recorder (r : Recorder β) : Bus.lineBusy r =
    ((Bus.lineBusy r.bus).1, ⟨(Bus.lineBusy r.bus).2, r.calls ++ [.sampled (Bus.lineBusy r.bus).1]⟩) := rfl

theorem write_recorder (row : List UInt8) (r : Recorder β) : Bus.write row r =
    ((Bus.write row r.bus).1, ⟨(Bus.write row r.bus).2, r.calls ++ [.wrote row (Bus.write row r.bus).1]⟩) := rfl

/-- Recording changes nothing. -/
theorem busMap_bus : BusMap (Recorder.bus : Recorder β → β) := by
  constructor <;> intros <;> rfl

/-- Whether the line is held after some calls. -/
def holdsLine (calls : List BusEvent) : Bool :=
  calls.foldl (fun held call => match call with | .asserted held => held | _ => held) false

/-- The line was idle, and the next frame has been announced. -/
def announcement : List BusEvent :=
  [.sampled false, .asserted true, .delayed 1300, .asserted false, .delayed 130]

def SendError.ofWrite : WriteError → SendError
  | .timeout => writeTimeout
  | .fault => collision

/-- What sending a row may come to. -/
inductive Exchange (row : List UInt8) : List BusEvent → Except SendError Unit → Prop where
  /-- Received bytes are waiting to be read. -/
  | unread : Exchange row [] (.error .collision)
  | taken : Exchange row [.sampled true] (.error .collision)
  /-- Another station has started during the announcement. -/
  | lost : Exchange row (announcement ++ [.sampled true]) (.error .collision)
  | written (answer : Except WriteError Unit) :
      Exchange row (announcement ++ [.sampled false, .wrote row answer]) (answer.mapError .ofWrite)

/-- **Sending a row is an exchange.** -/
theorem exchange_send (a : Arbiter) (row : List UInt8) (r : Recorder β) :
    ∃ calls, (a.send row r).2.calls = r.calls ++ calls ∧ Exchange row calls (a.send row r).1 := by
  rw [Arbiter.send]
  split
  · exact ⟨[], (List.append_nil _).symm, .unread⟩
  rw [lineBusy_recorder]
  generalize Bus.lineBusy r.bus = sampled
  obtain ⟨busy, bus⟩ := sampled
  dsimp only
  split
  · next hbusy => exact ⟨[.sampled busy], rfl, hbusy ▸ .taken⟩
  next hidle =>
  obtain rfl : busy = false := (Bool.not_eq_true busy).mp hidle
  generalize hannounced : Bus.delay releaseTime (Bus.setAsserted false (Bus.delay announceTime
    (Bus.setAsserted true (Recorder.mk bus (r.calls ++ [.sampled false]))))) = announced
  have hcalls : announced.calls = r.calls ++ announcement := by
    rw [← hannounced]
    simp [Bus.setAsserted, Bus.delay, announcement, announceTime, releaseTime]
  rw [lineBusy_recorder]
  generalize Bus.lineBusy announced.bus = sampled
  obtain ⟨busy, bus⟩ := sampled
  rw [hcalls]
  dsimp only
  split
  · next hbusy => exact ⟨announcement ++ [.sampled busy], List.append_assoc .., hbusy ▸ .lost⟩
  next hidle =>
  obtain rfl : busy = false := (Bool.not_eq_true busy).mp hidle
  rw [write_recorder]
  generalize Bus.write row bus = written
  obtain ⟨answer, bus⟩ := written
  refine ⟨announcement ++ [.sampled false, .wrote row answer], ?_, ?_⟩
  · cases answer with
    | ok done => simp
    | error cause => cases cause <;> simp
  · have hwritten : Exchange row _ _ := .written answer
    cases answer with
    | ok done => exact hwritten
    | error cause => cases cause <;> exact hwritten

/-- Sending over a bus that can be told from the recorded calls. -/
theorem exchange_map {γ : Type} [Bus γ] {f : Recorder β → γ} (h : BusMap f) (a : Arbiter) (row : List UInt8) (bus : β) :
    ∃ calls, Exchange row calls (a.send row bus).1 ∧
      a.send row (f ⟨bus, []⟩) = ((a.send row bus).1, f ⟨(a.send row bus).2, calls⟩) := by
  obtain ⟨calls, hcalls, hexchange⟩ := exchange_send a row (Recorder.mk bus [])
  have hbare := busMap_bus.send a row (Recorder.mk bus [])
  have hmapped := h.send a row (Recorder.mk bus [])
  generalize a.send row (Recorder.mk bus []) = sent at hcalls hexchange hbare hmapped
  obtain ⟨answer, recorded⟩ := sent
  obtain rfl : recorded.calls = calls := hcalls
  rw [hbare]
  exact ⟨recorded.calls, hexchange, hmapped⟩

/-- The rows that the driver was given, written or not. -/
def rowsGiven (calls : List BusEvent) : List (List UInt8) :=
  calls.filterMap fun call => match call with | .wrote row _ => some row | _ => none

/-- The rows that were written. -/
def rowsWritten (calls : List BusEvent) : List (List UInt8) :=
  calls.filterMap fun call => match call with | .wrote row (.ok ()) => some row | _ => none

namespace Exchange

variable {row : List UInt8} {calls : List BusEvent} {outcome : Except SendError Unit}

theorem holdsLine_eq (h : Exchange row calls outcome) : holdsLine calls = false := by
  cases h <;> rfl

/-- The row is written if it is sent, and given to the driver at most once. -/
theorem rows (h : Exchange row calls outcome) :
    (rowsGiven calls = [] ∧ outcome ≠ .ok () ∨ rowsGiven calls = [row]) ∧
      (outcome = .ok () ∧ rowsWritten calls = [row] ∨ (∃ cause, outcome = .error cause) ∧ rowsWritten calls = []) := by
  cases h with
  | unread | taken | lost => exact ⟨.inl ⟨rfl, nofun⟩, .inr ⟨⟨_, rfl⟩, rfl⟩⟩
  | written answer =>
    refine ⟨.inr rfl, ?_⟩
    cases answer with
    | ok done => exact .inl ⟨rfl, rfl⟩
    | error cause => exact .inr ⟨⟨_, rfl⟩, rfl⟩

/-- **What is written** is the row, and it is written last, after the announcement and one more look at the line. -/
theorem of_wrote (h : Exchange row calls outcome) {before after : List BusEvent} {row' : List UInt8}
    {answer : Except WriteError Unit} (hcalls : calls = before ++ .wrote row' answer :: after) :
    row' = row ∧ before = announcement ++ [.sampled false] ∧ after = [] := by
  cases h with
  | unread => simp at hcalls
  | taken => simp [List.cons_eq_append_iff] at hcalls
  | lost => simp [announcement, List.cons_eq_append_iff] at hcalls
  | written answer =>
    simp only [announcement, List.cons_append, List.nil_append, List.cons_eq_append_iff, List.cons.injEq,
      reduceCtorEq, false_and, and_false, BusEvent.wrote.injEq, List.nil_eq, List.append_eq_nil_iff, exists_const,
      or_false, false_or] at hcalls
    obtain ⟨_, rfl, _, rfl, _, rfl, _, rfl, _, rfl, _, rfl, rfl, ⟨hrow, -⟩, rfl⟩ := hcalls
    exact ⟨hrow, rfl, rfl⟩

end Exchange

/-! ## Tries to send -/

namespace Engine

/-- The row that a try would send. -/
def offer? (e : Engine) (now : Nat) : Option (List UInt8) :=
  match e.queue.front? with
  | some a => if e.arbiter.canTransmit now then (e.encode a.packet).toOption else none
  | none => none

variable {e : Engine} {now : Nat} {row : List UInt8}

theorem offer_eq_some_iff : e.offer? now = some row ↔
    ∃ a, e.queue.front? = some a ∧ e.arbiter.canTransmit now = true ∧ e.encode a.packet = .ok row := by
  unfold offer?
  cases e.queue.front? with
  | none => simp
  | some a =>
    by_cases hcan : e.arbiter.canTransmit now = true
    · cases hrow : e.encode a.packet <;> simp [hcan, hrow, Except.toOption]
    · simp [hcan]

/-- What cannot be encoded is not reported as a failure of the bus. -/
theorem encode_ne_ofSend {packet : Packet} {cause : EngineError} (h : e.encode packet = .error cause)
    (failure : SendError) : cause ≠ .ofSend failure := by
  rintro rfl
  unfold encode at h
  split at h
  · split at h
    · contradiction
    · next codec _ =>
      injection h with h
      cases codec <;> cases failure <;> contradiction
  · split at h
    · contradiction
    · injection h with h
      cases failure <;> contradiction

/-- A try with nothing to send does not touch the bus and does not fail for it. -/
theorem transmitNext_of_no_offer (h : e.offer? now = none) (bus : β) :
    (e.transmitNext bus now).2.2 = bus ∧ ∀ failure, (e.transmitNext bus now).1 ≠ .error (.ofSend failure) := by
  rw [transmitNext]
  split
  · exact ⟨rfl, nofun⟩
  next a hfront =>
  by_cases hcan : e.arbiter.canTransmit now = true
  · rw [if_neg (by simp [hcan])]
    split
    · next cause hrow => exact ⟨rfl, fun failure hsame => encode_ne_ofSend hrow failure (Except.error.inj hsame)⟩
    · next row hrow =>
      rw [offer_eq_some_iff.mpr ⟨a, hfront, hcan, hrow⟩] at h
      contradiction
  · rw [if_pos (by simp [hcan])]
    exact ⟨rfl, nofun⟩

/-- A try whose front packet may start and can be encoded. -/
theorem transmitNext_eq {a : PacketAction} (hfront : e.queue.front? = some a)
    (hcan : e.arbiter.canTransmit now = true) (hrow : e.encode a.packet = .ok row) (bus : β) :
    e.transmitNext bus now =
      match e.arbiter.send row bus with
      | (.ok (), bus) => (.ok (some a.packet),
          { e with arbiter := e.arbiter.noteTx (now + e.arbiter.airtime row.length) a.postDelay }.afterSending a row, bus)
      | (.error cause, bus) => (.error (.ofSend cause),
          { e with arbiter := e.arbiter.noteCollision now }.emit
            [.warn s!"Transmit of {a.packet.name} failed: {cause.name}, will retry"], bus) := by
  unfold transmitNext Arbiter.transmit
  rw [hfront]
  dsimp only
  rw [hcan, Bool.not_true, if_neg Bool.false_ne_true, hrow]
  dsimp only
  generalize e.arbiter.send row bus = sent
  obtain ⟨answer, bus⟩ := sent
  cases answer <;> rfl

/-- A try that sends a row ends as sending it does. -/
theorem transmitNext_of_offer (h : e.offer? now = some row) (bus : β) :
    (e.transmitNext bus now).2.2 = (e.arbiter.send row bus).2 ∧
      ((e.arbiter.send row bus).1 = .ok () ∧ (∃ packet, (e.transmitNext bus now).1 = .ok (some packet)) ∨
        ∃ cause events, (e.arbiter.send row bus).1 = .error cause ∧
          (e.transmitNext bus now).1 = .error (.ofSend cause) ∧
          (e.transmitNext bus now).2.1 = { e with arbiter := e.arbiter.noteCollision now, events }) := by
  obtain ⟨a, hfront, hcan, hrow⟩ := offer_eq_some_iff.mp h
  rw [transmitNext_eq hfront hcan hrow]
  generalize e.arbiter.send row bus = sent
  obtain ⟨answer, bus⟩ := sent
  cases answer with
  | ok done => exact ⟨rfl, .inl ⟨rfl, a.packet, rfl⟩⟩
  | error cause => exact ⟨rfl, .inr ⟨cause, _, rfl, rfl, rfl⟩⟩

/-- A try that sends a row is an exchange of it. -/
theorem exchange_transmitNext (h : e.offer? now = some row) (bus : β) :
    Exchange row (e.transmitNext (Recorder.mk bus []) now).2.2.calls (e.arbiter.send row bus).1 := by
  obtain ⟨hbus, -⟩ := transmitNext_of_offer h (Recorder.mk bus [])
  obtain ⟨calls, hcalls, hexchange⟩ := exchange_send e.arbiter row (Recorder.mk bus [])
  have hbare := busMap_bus.send e.arbiter row (Recorder.mk bus [])
  rw [hbus, hcalls, List.nil_append, hbare]
  exact hexchange

end Engine

end DoorBridge
