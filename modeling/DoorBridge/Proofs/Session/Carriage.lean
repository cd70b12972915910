import DoorBridge.Proofs.Engine.Tries

/-!
# Proofs.Session.Carriage — whatever is queued can be sent

* `Packet.IsCarried` says what a protocol can carry: a packet that fits a message, or a button edge.  The engine has a
  row for exactly those, as long as its counter has 28 bits (`Engine.exists_encode_iff`).
* `Engine.TryCase.queue_cases`: a try whose front packet has a row sends that packet or leaves the queue as it is.
* `queue_always_carried`: so it is with every engine that runs, since it queues no packet of another kind.
-/

namespace DoorBridge

/-- Whether a protocol can carry a packet: on Security+ 2.0 opcode and payload have to be in their range, on
Security+ 1.0 there has to be a button edge for it. -/
def Packet.IsCarried (p : Packet) : Security → Prop
  | .plus2 => Message.Fits p
  | .plus1 => ∃ b, Button.ofPacket? p = some b

theorem PacketAction.Genuine.isCarried {a : PacketAction} {security : Security} (h : a.Genuine security) :
    a.packet.IsCarried security := by
  cases security with
  | plus2 => exact Engine.fits_of_typed h.1
  | plus1 => exact h

namespace Engine

variable {e : Engine} {now : Nat}

/-- **What has a row** is what the protocol carries, once the counter is in its range. -/
theorem exists_encode_iff (e : Engine) (p : Packet) : (∃ row, e.encode p = .ok row) ↔
    p.IsCarried e.settings.security ∧ (e.settings.security = .plus2 → e.identity.rolling < counterBound) := by
  unfold encode Packet.IsCarried
  cases e.settings.security with
  | plus2 =>
    have hmessage := Message.exists_encode_iff ⟨p, e.identity.rolling, e.identity.idCode⟩
    simp only [forall_const] at hmessage ⊢
    rw [← hmessage]
    cases Message.encode ⟨p, e.identity.rolling, e.identity.idCode⟩ <;> simp
  | plus1 =>
    dsimp only
    cases Button.ofPacket? p <;> simp

/-- A try whose front packet has a row does not fail for its packet. -/
theorem TryCase.ne_encodingRange {answer : Except EngineError (Option Packet)} {e' : Engine}
    (h : TryCase e now answer e') : answer ≠ .error .encodingRange := by
  cases h with
  | waits hwaits => nofun
  | failed hfront hready failure events => cases failure <;> nofun
  | sent hfront hready hrow => nofun

/-- A try whose front packet has a row leaves the queue as it is, or its front packet went out. -/
theorem TryCase.queue_cases {answer : Except EngineError (Option Packet)} {e' : Engine}
    (h : TryCase e now answer e') :
    (answer = .ok none ∨ ∃ failure, answer = .error (.ofSend failure)) ∧ e'.queue = e.queue ∨
      ∃ a rest, e.queue.actions = a :: rest ∧ answer = .ok (some a.packet) ∧ e'.queue.actions = rest := by
  cases h with
  | waits hwaits => exact .inl ⟨.inl rfl, rfl⟩
  | failed hfront hready failure events => exact .inl ⟨.inr ⟨failure, rfl⟩, rfl⟩
  | @sent a row hfront hready hrow =>
    obtain ⟨rest, hqueue⟩ := List.head?_eq_some_iff.mp hfront
    refine .inr ⟨a, rest, hqueue, rfl, ?_⟩
    exact congrArg List.tail hqueue

end Engine

/-- **Only packets that can be sent are ever queued.**  After any run of an engine, with whatever is stored, whatever
fails and whatever arrives, the counter has 28 bits, and every queued packet can be carried by the protocol in use and
has a row.  So no try to send fails for its packet and none loses one: the queue stays as it is and is tried again, or
its front packet went out. -/
theorem queue_always_carried {β σ : Type} [Bus β] [Storage σ] (settings : Settings) (steps : List (Step β σ)) :
    let e := ((Session.new settings).run steps).engine
    e.identity.rolling < 2 ^ 28 ∧
      (∀ a ∈ e.queue.actions, a.packet.IsCarried e.settings.security ∧ ∃ row, e.encode a.packet = .ok row) ∧
      ∀ (bus : β) (now : Nat),
        let tried := e.transmitNext bus now
        tried.1 ≠ .error .encodingRange ∧
          ((tried.1 = .ok none ∨ ∃ failure, tried.1 = .error (.ofSend failure)) ∧ tried.2.1.queue = e.queue ∨
            ∃ a rest, e.queue.actions = a :: rest ∧ tried.1 = .ok (some a.packet) ∧
              tried.2.1.queue.actions = rest) := by
  intro e
  have hsound : Sound ((Session.new settings).run steps) := (Sound.new settings).run steps
  refine ⟨hsound.counter, fun a ha => ?_, fun bus now => ?_⟩
  · have hgenuine : a.Genuine e.settings.security := hsound.genuine a ha
    exact ⟨hgenuine.isCarried, (e.exists_encode_iff a.packet).mpr ⟨hgenuine.isCarried, fun _ => hsound.counter⟩⟩
  · intro tried
    have htry : e.TryCase now tried.1 tried.2.1 := Engine.tryCase (fun _ => hsound.exists_row) bus
    exact ⟨htry.ne_encodingRange, htry.queue_cases⟩

end DoorBridge
