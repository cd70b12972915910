import DoorBridge.Arbiter.Script
import DoorBridge.Proofs.Session

/-!
# Proofs.Session.Codes — every frame carries its packet, and the counters form one chain

* `messages id c packets` are the messages that carry some packets in turn, the counter moved on by each of them but
  the door presses (`nextCounter`).
* `OnChain id c s`: the rows of a session decode to the messages of what was sent, and the engine goes on with the
  counter after them.  No step but a start breaks it.
-/

namespace DoorBridge

/-! ## The chain -/

/-- The counter after a packet was sent.  A door press leaves the code to its release; zero is skipped. -/
def nextCounter (c : Nat) (p : Packet) : Nat :=
  if p.isDoorPress then c else if c = 2 ^ 28 - 1 then 1 else c + 1

/-- The messages that carry some packets in turn, starting with a counter. -/
def messages (id : UInt32) (c : Nat) : List Packet → List Message
  | [] => []
  | p :: rest => ⟨p, c, id⟩ :: messages id (nextCounter c p) rest

theorem messages_concat (id : UInt32) (c : Nat) (packets : List Packet) (p : Packet) :
    messages id c (packets ++ [p]) = messages id c packets ++ [⟨p, packets.foldl nextCounter c, id⟩] := by
  induction packets generalizing c with
  | nil => rfl
  | cons q packets ih => rw [List.cons_append, messages, messages, ih, List.foldl_cons, List.cons_append]

theorem advance_one {c : Nat} (hlt : c < counterBound) : advance c 1 = if c = 2 ^ 28 - 1 then 1 else c + 1 := by
  rw [counterBound_val] at hlt
  rw [advance_eq, counterBound_val]
  split <;> split <;> omega

/-- What the row of a frame decodes to, if it has the length of one. -/
def readRow? (row : List UInt8) : Option (Except CodecError Message) := (Frame.ofBytes? row).map Message.decode

namespace Engine

variable {e : Engine}

/-- The row of a typed packet decodes to the packet with the id and the counter. -/
theorem readRow?_encode {packet : Packet} {row : List UInt8} (hplus2 : e.settings.security = .plus2)
    (htyped : ¬ packet.IsUnknown) (h : e.encode packet = .ok row) :
    readRow? row = some (.ok ⟨packet, e.identity.rolling, e.identity.idCode⟩) := by
  rw [readRow?, decode_row hplus2 h, Packet.ofParts_of_typed htyped]

/-- What a start on Security+ 2.0 stamps frames with: the id and the counter that were loaded. -/
theorem stamp_start {σ : Type} [Storage σ] (hplus2 : e.settings.security = .plus2) (store : σ) (entropy : UInt32)
    (now : Nat) : (e.after (.start store entropy now)).stamp =
      (.plus2, (Identity.restore store entropy).identity.idCode,
        (Identity.restore store entropy).identity.rolling) := by
  have his : e.isPlus2 = true := decide_eq_true hplus2
  obtain ⟨hasMotionSensor, motionTriggers, arbiter, events, hstarted⟩ := start_eq e store entropy now
  rw [after, hstarted, stamp]
  simp only [his, if_true, hplus2]

end Engine

/-! ## Sessions on a chain -/

/-- The rows decode to the messages of what was sent, and the engine goes on where they end. -/
structure OnChain (id : UInt32) (c : Nat) (s : Session) : Prop where
  stamp : s.engine.stamp = (.plus2, id, (s.sent.map (·.packet)).foldl nextCounter c)
  rows : s.rows.map readRow? = (messages id c (s.sent.map (·.packet))).map (some ∘ .ok)

namespace OnChain

variable {β σ : Type} [Bus β] [Storage σ] {id : UInt32} {c : Nat} {s : Session}

theorem security (h : OnChain id c s) : s.engine.settings.security = .plus2 := congrArg Prod.fst h.stamp

theorem idCode (h : OnChain id c s) : s.engine.identity.idCode = id := congrArg (·.2.1) h.stamp

theorem rolling (h : OnChain id c s) :
    s.engine.identity.rolling = (s.sent.map (·.packet)).foldl nextCounter c := congrArg (·.2.2) h.stamp

theorem operate (h : OnChain id c s) {o : Operation σ} (ho : o.isStart = false) : OnChain id c (s.operate o) where
  stamp := (Engine.stamp_after s.engine ho).trans h.stamp
  rows := h.rows

theorem transmit (hsound : Sound s) (h : OnChain id c s) (bus : β) (now : Nat) :
    OnChain id c (s.transmit bus now) := by
  rcases hsound.transmit_cases bus now with ⟨arbiter, events, -, hidle⟩ | ⟨a, rest, row, arbiter, hqueue, hrow, -, hsent⟩
  · rw [hidle]
    exact ⟨h.stamp, h.rows⟩
  have hgenuine : a.Genuine .plus2 := by
    rw [← h.security]
    exact hsound.genuine a (hqueue ▸ List.mem_cons_self)
  have hread := Engine.readRow?_encode h.security hgenuine.1 hrow
  have hstamp : ({ s.engine with arbiter }.afterSending a row).stamp =
      (.plus2, id, nextCounter s.engine.identity.rolling a.packet) := by
    rw [nextCounter, ← advance_one hsound.counter, ← h.idCode]
    exact Engine.stamp_afterSending (e := { s.engine with arbiter }) h.security hgenuine row
  rw [hsent]
  constructor
  · rw [hstamp, h.rolling, List.map_append, List.foldl_append]
    rfl
  · rw [List.map_append, List.map_append, h.rows, List.map_singleton, List.map_singleton, messages_concat,
      List.map_append, hread, h.idCode, h.rolling]
    rfl

theorem take (hsound : Sound s) (h : OnChain id c s) {step : Step β σ} (hstep : step.isStart = false) :
    OnChain id c (s.take step) := by
  cases step with
  | operation o => exact h.operate hstep
  | transmit bus now => exact h.transmit hsound bus now

theorem run (hsound : Sound s) (h : OnChain id c s) {steps : List (Step β σ)}
    (hsteps : ∀ step ∈ steps, step.isStart = false) : OnChain id c (s.run steps) :=
  hsound.run_induction h fun _ hx h step hmem => h.take hx (hsteps step hmem)

theorem boot {settings : Settings} (hplus2 : settings.security = .plus2) (store : σ) (entropy : UInt32) (now : Nat) :
    OnChain (Identity.restore store entropy).identity.idCode (Identity.restore store entropy).identity.rolling
      (.boot settings store entropy now) where
  stamp := Engine.stamp_start (e := .new settings) hplus2 store entropy now
  rows := rfl

end OnChain

/-- A try to send that brings no packet out leaves the chain where it was. -/
theorem Session.transmit_unanswered {β : Type} [Bus β] {s : Session} (hsound : Sound s) {bus : β} {now : Nat}
    (hanswer : ∀ packet, (s.engine.transmitNext bus now).1 ≠ .ok (some packet)) :
    (s.transmit bus now).engine.stamp = s.engine.stamp ∧ (s.transmit bus now).rows = s.rows ∧
      (s.transmit bus now).sent = s.sent := by
  rcases hsound.transmit_cases bus now with ⟨arbiter, events, -, hidle⟩ | ⟨a, rest, row, arbiter, -, -, hsent, -⟩
  · rw [hidle]
    exact ⟨rfl, rfl, rfl⟩
  · exact absurd hsent (hanswer a.packet)

/-- **Every frame that a boot puts on the bus is right, and their counters form one chain.**  The rows written decode,
one for each packet sent, to the packet with the id of the station and a counter; the first counter is the one that the
boot loaded, and each next one is the same after a door press and its successor after any other packet.  A try to send
that fails leaves rows, packets and counter as they were. -/
theorem frames_form_chain {β σ : Type} [Bus β] [Storage σ] {settings : Settings} {steps : List (Step β σ)}
    (hplus2 : settings.security = .plus2) (hsteps : ∀ step ∈ steps, step.isStart = false) (store : σ)
    (entropy : UInt32) (now : Nat) :
    let keeper := (Identity.restore store entropy).identity
    let s := (Session.boot settings store entropy now).run steps
    let packets := s.sent.map (·.packet)
    s.rows.map readRow? = (messages keeper.idCode keeper.rolling packets).map (some ∘ .ok) ∧
      s.engine.identity.idCode = keeper.idCode ∧
      s.engine.identity.rolling = packets.foldl nextCounter keeper.rolling ∧
      ∀ (bus : β) (t : Nat), (∀ packet, (s.engine.transmitNext bus t).1 ≠ .ok (some packet)) →
        (s.transmit bus t).engine.identity.rolling = s.engine.identity.rolling ∧
          (s.transmit bus t).rows = s.rows ∧ (s.transmit bus t).sent = s.sent := by
  intro keeper s packets
  have hboot : Sound (Session.boot settings store entropy now) := (Sound.new settings).operate _
  have hchain : OnChain keeper.idCode keeper.rolling s :=
    (OnChain.boot hplus2 store entropy now).run hboot hsteps
  refine ⟨hchain.rows, hchain.idCode, hchain.rolling, fun bus t hanswer => ?_⟩
  obtain ⟨hstamp, hrows, hsent⟩ := Session.transmit_unanswered (hboot.run steps) hanswer
  exact ⟨congrArg (·.2.2) hstamp, hrows, hsent⟩

/-- A boot over an empty store that opens the door, with a collision on the way. -/
def openingSteps : List (Step BusScript MemoryStore) :=
  [.operation (.request .openDoor), .transmit {} 0, .transmit { busy := [true] } 1000, .transmit {} 2000,
    .transmit {} 3000, .transmit {} 4000]

/-- The door press and its release carry the same code, and the collision uses up none. -/
theorem frames_form_chain_opening :
    ((Session.boot {} ({} : MemoryStore) 0 0).run openingSteps).rows.map readRow? =
      [⟨.getOpenings, 0, 0x1539⟩, ⟨.getStatus, 1, 0x1539⟩, ⟨.doorAction .raise true 1, 2, 0x1539⟩,
        ⟨.doorAction .raise false 1, 2, 0x1539⟩].map (some ∘ .ok) := by
  have hsteps : ∀ step ∈ openingSteps, step.isStart = false := by decide
  have hplus2 : ({} : Settings).security = .plus2 := rfl
  have hchain := frames_form_chain hplus2 hsteps {} 0 0
  have hpackets : ((Session.boot {} ({} : MemoryStore) 0 0).run openingSteps).sent.map (·.packet) =
      [.getOpenings, .getStatus, .doorAction .raise true 1, .doorAction .raise false 1] := by decide +kernel
  rw [hchain.1, hpackets]
  decide +kernel

end DoorBridge
