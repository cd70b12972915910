import DoorBridge.Proofs.Engine.Operations

/-!
# Proofs.Engine.Offers — which sequences are ever handed to the queue

Whatever the engine is asked to do, it hands over one of five kinds of sequences (`offer_asks`).  All of their actions
can be sent: on Security+ 1.0 they are button edges, on Security+ 2.0 typed packets that use up a code unless they
press the door button (`genuine_of_offer`, `exists_encode_of_genuine`).
-/

namespace DoorBridge

def Packet.isDoorAction : Packet → Bool
  | doorAction .. => true
  | _ => false

/-- Whether it presses the door button. -/
def Packet.isDoorPress : Packet → Bool
  | doorAction _ pressed _ => pressed
  | _ => false

/-- An action that can be sent.  On Security+ 2.0 a door press leaves the code to its release. -/
def PacketAction.Genuine (a : PacketAction) : Security → Prop
  | .plus2 => ¬ a.packet.IsUnknown ∧ a.usesCode = !a.packet.isDoorPress
  | .plus1 => ∃ b, Button.ofPacket? a.packet = some b

namespace Engine

/-- The sequences that a protocol has the engine hand over. -/
inductive Offer : Security → List PacketAction → Prop where
  | door (security : Security) (action : DoorAction) : Offer security (doorSequence security action)
  | light (security : Security) (on : Bool) : Offer security (lightSequence security on)
  | lock (security : Security) (locked : Bool) : Offer security (lockSequence security locked)
  | status : Offer .plus2 [statusRequest]
  | greeting : Offer .plus2 greeting

variable {e : Engine} {seq : List PacketAction}

theorem plus2_of_isPlus2 (h : e.isPlus2 = true) : e.settings.security = .plus2 := of_decide_eq_true h

/-! ## What is asked for is offered -/

theorem offer_lightAsks {on : Bool} (h : seq ∈ e.lightAsks on) : Offer e.settings.security seq := by
  rw [lightAsks] at h
  split at h
  · contradiction
  · rw [List.mem_singleton.mp h]
    exact .light _ on

theorem offer_lockAsks {locked : Bool} (h : seq ∈ e.lockAsks locked) : Offer e.settings.security seq := by
  rw [lockAsks] at h
  split at h
  · contradiction
  · rw [List.mem_singleton.mp h]
    exact .lock _ locked

theorem offer_statusAsks (h : seq ∈ e.statusAsks) : Offer e.settings.security seq := by
  rw [statusAsks] at h
  split at h
  · next hplus2 =>
    rw [List.mem_singleton.mp h, plus2_of_isPlus2 hplus2]
    exact .status
  · contradiction

theorem offer_doorAsks {action : DoorAction} (h : seq ∈ e.doorAsks action) : Offer e.settings.security seq := by
  rw [List.mem_singleton.mp h]
  exact .door _ action

theorem offer_restoreAsks {saved : Bool} (h : seq ∈ e.restoreAsks saved) : Offer e.settings.security seq := by
  rw [restoreAsks] at h
  split at h
  · exact offer_lightAsks h
  · split at h
    · rw [List.mem_singleton.mp h]
      exact .light _ saved
    · contradiction

theorem offer_openAsks (h : seq ∈ e.openAsks) : Offer e.settings.security seq := by
  rw [openAsks] at h
  rcases List.mem_append.mp h with h | h
  · split at h
    · exact offer_restoreAsks h
    · contradiction
  · split at h
    · contradiction
    · exact offer_doorAsks h
    · exact offer_doorAsks h

theorem offer_closeAsks (h : seq ∈ e.closeAsks) : Offer e.settings.security seq := by
  rw [closeAsks] at h
  split at h
  · contradiction
  · exact offer_doorAsks h
  · split at h
    · contradiction
    · exact offer_doorAsks h

theorem offer_beatAsks (h : seq ∈ e.beatAsks) : Offer e.settings.security seq := by
  rw [beatAsks] at h
  split at h
  · contradiction
  · exact offer_lightAsks h
  · split at h
    · contradiction
    · exact offer_doorAsks h
  · contradiction

theorem offer_requestAsks {r : ControlRequest} (h : seq ∈ e.requestAsks r) : Offer e.settings.security seq := by
  cases r with
  | openDoor => exact offer_openAsks h
  | closeDoor => exact offer_closeAsks h
  | light on => exact offer_lightAsks h
  | lock locked => exact offer_lockAsks h
  | getStatus => exact offer_statusAsks h
  | reset => contradiction

theorem offer_inboundAsks {x : Inbound} (h : seq ∈ e.inboundAsks x) : Offer e.settings.security seq := by
  rw [inboundAsks.eq_def] at h
  split at h
  · exact offer_statusAsks h
  · exact offer_statusAsks h
  · exact offer_statusAsks h
  · contradiction

/-- **Whatever an operation hands over is one of the sequences offered.** -/
theorem offer_asks {σ : Type} {o : Operation σ} (h : seq ∈ e.asks o) : Offer e.settings.security seq := by
  cases o with
  | start store entropy now =>
    rw [asks] at h
    split at h
    · next hplus2 =>
      rw [List.mem_singleton.mp h, plus2_of_isPlus2 hplus2]
      exact .greeting
    · contradiction
  | byte byte now =>
    rw [asks] at h
    cases hin : e.inbound? byte now with
    | none =>
      rw [hin] at h
      contradiction
    | some x =>
      rw [hin] at h
      exact offer_inboundAsks h
  | request r | call r => exact offer_requestAsks h
  | beat => exact offer_beatAsks h
  | obstruction | press | tick | flush => contradiction

/-! ## What is offered can be sent -/

theorem genuine_of_offer {security : Security} (h : Offer security seq) {a : PacketAction} (ha : a ∈ seq) :
    a.Genuine security := by
  have hstatus : statusRequest.Genuine .plus2 := ⟨id, rfl⟩
  cases h with
  | door security action =>
    cases security with
    | plus1 =>
      rw [doorSequence, buttonSequence, pressRelease] at ha
      simp only [List.mem_cons, List.not_mem_nil, or_false] at ha
      rcases ha with rfl | rfl | rfl
      all_goals exact ⟨_, rfl⟩
    | plus2 =>
      rw [doorSequence, pressRelease] at ha
      simp only [List.mem_cons, List.not_mem_nil, or_false] at ha
      rcases ha with rfl | rfl | rfl
      · exact ⟨id, rfl⟩
      · exact ⟨id, rfl⟩
      · exact hstatus
  | light security on | lock security on =>
    cases security with
    | plus1 =>
      simp only [lightSequence, lockSequence, buttonSequence, pressRelease, List.mem_cons, List.not_mem_nil,
        or_false] at ha
      rcases ha with rfl | rfl | rfl
      all_goals exact ⟨_, rfl⟩
    | plus2 =>
      simp only [lightSequence, lockSequence, List.mem_cons, List.not_mem_nil, or_false] at ha
      rcases ha with rfl | rfl
      · exact ⟨id, rfl⟩
      · exact hstatus
  | status =>
    rw [List.mem_singleton.mp ha]
    exact hstatus
  | greeting =>
    simp only [DoorBridge.Engine.greeting, List.mem_cons, List.not_mem_nil, or_false] at ha
    rcases ha with rfl | rfl
    all_goals exact ⟨id, rfl⟩

theorem fits_of_typed {p : Packet} (h : ¬ p.IsUnknown) : Message.Fits p := by
  have hopcode (o : Opcode) : o.code.toNat ≤ 0xfff := by cases o <;> decide
  refine ⟨?_, Packet.payloadPart_payload h⟩
  cases p with
  | unknown command data => exact absurd trivial h
  | _ => exact hopcode _

/-- A genuine action has a row that carries it, as long as the counter is in its range. -/
theorem exists_encode_of_genuine {a : PacketAction} (h : a.Genuine e.settings.security)
    (hcounter : e.identity.rolling < counterBound) : ∃ row, e.encode a.packet = .ok row := by
  rw [encode]
  cases hsecurity : e.settings.security with
  | plus2 =>
    rw [hsecurity] at h
    obtain ⟨frame, hframe⟩ := (Message.exists_encode_iff ⟨a.packet, e.identity.rolling, e.identity.idCode⟩).mpr
      ⟨fits_of_typed h.1, hcounter⟩
    rw [hframe]
    exact ⟨frame.bytes, rfl⟩
  | plus1 =>
    rw [hsecurity] at h
    obtain ⟨b, hb⟩ := h
    rw [hb]
    exact ⟨[b.byte], rfl⟩

end Engine

end DoorBridge
