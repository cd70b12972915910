import DoorBridge.Proofs.Engine.Strokes

/-!
# Proofs.Engine.Light — what the engine's own packets do to the light

* `Packet.lightAfter` is the level of the light once a packet has gone out, `settle` the level once a row of them has.
* What is left of the queue when a delayed close is cancelled leaves the light alone (`settle_unblinked`), and so does what
  moves the door (`settle_openAsks`).  What the packets do that put the light back is said by `settle_restoreAsks_plus2`
  and `settle_restoreAsks_plus1`.
-/

namespace DoorBridge

/-! ## Levels -/

/-- The level of the light once a packet has gone out.  On Security+ 1.0 a press toggles it, whatever the command. -/
def Packet.lightAfter (security : Security) (level : Bool) : Packet → Bool
  | light command pressed =>
    match security with
    | .plus2 => command.apply level
    | .plus1 => if pressed then !level else level
  | _ => level

/-- The level of the light once a row of packets has gone out. -/
def settle (security : Security) (level : Bool) (actions : List PacketAction) : Bool :=
  actions.foldl (fun level a => a.packet.lightAfter security level) level

variable {security : Security} {level : Bool}

theorem lightAfter_of_idle {p : Packet} (h : Engine.changesLight security p = false) :
    p.lightAfter security level = level := by
  cases p with
  | light command pressed =>
    cases security with
    | plus2 =>
      rw [Engine.changesLight, Bool.or_eq_false_iff] at h
      exact absurd h.2 (by decide)
    | plus1 =>
      have hrelease : pressed = false := by simpa [Engine.changesLight] using h
      rw [hrelease]
      rfl
  | _ => rfl

theorem lightAfter_plus1 {p : Packet} (h : Engine.changesLight .plus1 p = true) : p.lightAfter .plus1 level = !level := by
  cases p with
  | light command pressed =>
    have hpress : pressed = true := by simpa [Engine.changesLight] using h
    rw [hpress]
    rfl
  | _ => contradiction

theorem settle_append (actions more : List PacketAction) :
    settle security level (actions ++ more) = settle security (settle security level actions) more :=
  List.foldl_append

theorem settle_of_idle {actions : List PacketAction}
    (h : ∀ a ∈ actions, Engine.changesLight security a.packet = false) : settle security level actions = level := by
  induction actions with
  | nil => rfl
  | cons a rest ih =>
    obtain ⟨ha, hrest⟩ := List.forall_mem_cons.mp h
    show settle security (a.packet.lightAfter security level) rest = level
    rw [lightAfter_of_idle ha]
    exact ih hrest

theorem settle_lightSequence_plus2 (on : Bool) : settle .plus2 level (Engine.lightSequence .plus2 on) = on := by
  cases on <;> rfl

theorem settle_lightSequence_plus1 (on : Bool) : settle .plus1 level (Engine.lightSequence .plus1 on) = !level := rfl

theorem settle_doorSequence (action : DoorAction) :
    settle security level (Engine.doorSequence security action) = level := by
  cases security <;> rfl

/-! ## What is left when a delayed close is cancelled -/

/-- A light packet that is kept is a release whose press went out. -/
theorem release_of_mem_keptOf {inSequence : Bool} {actions : List PacketAction} {a : PacketAction}
    (ha : a ∈ keptOf inSequence actions) {command : LightCommand} {pressed : Bool}
    (hpacket : a.packet = .light command pressed) : inSequence = true ∧ pressed = false := by
  induction actions generalizing inSequence with
  | nil => exact absurd ha List.not_mem_nil
  | cons b rest ih =>
    rw [keptOf_cons, Engine.isUnsentBlink] at ha
    split at ha
    · next command' pressed' hb =>
      by_cases hsequence : (inSequence && !pressed') = true
      · rw [if_pos hsequence, if_neg Bool.false_ne_true] at ha
        obtain ⟨hin, hrelease⟩ := Bool.and_eq_true_iff.mp hsequence
        refine ⟨hin, ?_⟩
        rcases List.mem_cons.mp ha with rfl | ha
        · obtain ⟨-, rfl⟩ := Packet.light.inj (hpacket.symm.trans hb)
          exact (Bool.not_eq_true' pressed).mp hrelease
        · exact (ih ha).2
      · rw [if_neg hsequence, if_pos rfl] at ha
        exact absurd (ih ha).1 Bool.false_ne_true
    · next hother =>
      rw [if_neg Bool.false_ne_true] at ha
      rcases List.mem_cons.mp ha with rfl | ha
      · exact absurd hpacket (hother command pressed)
      · exact absurd (ih ha).1 Bool.false_ne_true

namespace Engine

variable {e : Engine}

/-- What is kept does nothing to the light. -/
theorem settle_unblinked (e : Engine) : settle e.settings.security level e.unblinked.actions = level := by
  apply settle_of_idle
  intro a ha
  have hkept : a ∈ keptOf e.releaseIsNext e.queue.actions := ha
  cases hpacket : a.packet with
  | light command pressed =>
    obtain ⟨hnext, hrelease⟩ := release_of_mem_keptOf hkept hpacket
    rw [plus1_of_releaseIsNext hnext, hrelease]
    rfl
  | _ => rfl

/-- What a received packet or record makes the engine ask for does not work the light. -/
theorem idle_inboundAsks {x : Inbound} {seq : List PacketAction} (hseq : seq ∈ e.inboundAsks x) {a : PacketAction}
    (ha : a ∈ seq) : changesLight security a.packet = false := by
  have hstatus : seq ∈ e.statusAsks → changesLight security a.packet = false := by
    intro hseq
    rw [statusAsks] at hseq
    split at hseq
    · rw [List.mem_singleton.mp hseq] at ha
      rw [List.mem_singleton.mp ha]
      rfl
    · contradiction
  rw [inboundAsks.eq_def] at hseq
  split at hseq
  · exact hstatus hseq
  · exact hstatus hseq
  · exact hstatus hseq
  · contradiction

/-- What opens the door does to the light what puts it back. -/
theorem settle_openAsks (hclosing : e.countdown.isClosing = true) :
    settle e.settings.security level e.openAsks.flatten =
      settle e.settings.security level (e.restoreAsks e.countdown.savedLight).flatten := by
  have hdoor (action : DoorAction) (level : Bool) :
      settle e.settings.security level (e.doorAsks action).flatten = level := by
    rw [doorAsks, List.flatten_singleton]
    exact settle_doorSequence action
  rw [openAsks, if_pos hclosing, List.flatten_append, settle_append]
  split
  · rfl
  · exact hdoor _ _
  · exact hdoor _ _

/-- On Security+ 2.0 the light is put back, whether its level is known or not. -/
theorem settle_restoreAsks_plus2 (hplus2 : e.settings.security = .plus2)
    (hconfirmed : e.lightUnconfirmed = false → e.door.light = level) (saved : Bool) :
    settle .plus2 level (e.restoreAsks saved).flatten = saved := by
  have his : e.isPlus2 = true := decide_eq_true hplus2
  rw [restoreAsks, his, Bool.true_or, hplus2]
  cases hflag : e.lightUnconfirmed with
  | true => exact settle_lightSequence_plus2 saved
  | false =>
    rw [Bool.not_false, if_pos rfl, lightAsks, hplus2]
    by_cases hsame : saved = e.door.light
    · rw [if_pos hsame, hsame, hconfirmed hflag]
      rfl
    · rw [if_neg hsame]
      exact settle_lightSequence_plus2 saved

/-- On Security+ 1.0 it is toggled if its level is known and another one, or if its level is not known and the last
report gave the level to put back. -/
theorem settle_restoreAsks_plus1 (hplus1 : e.settings.security = .plus1) (saved : Bool) :
    settle .plus1 level (e.restoreAsks saved).flatten = (level ^^ (e.lightUnconfirmed ^^ (saved ^^ e.door.light))) := by
  have his : e.isPlus2 = false := by
    rw [isPlus2, hplus1]
    rfl
  have hasks : e.restoreAsks saved =
      if (e.lightUnconfirmed ^^ (saved ^^ e.door.light)) = true then [lightSequence .plus1 saved] else [] := by
    rw [restoreAsks, lightAsks, his, Bool.false_or, hplus1]
    by_cases hsame : saved = e.door.light
    · cases e.lightUnconfirmed <;> simp [hsame]
    · have hother : (saved ^^ e.door.light) = true := by simpa using hsame
      rw [hother]
      cases e.lightUnconfirmed <;> simp [hsame, Ne.symm hsame]
  rw [hasks]
  split
  · next htoggles =>
    rw [htoggles, Bool.xor_true, List.flatten_singleton]
    exact settle_lightSequence_plus1 saved
  · next hkeeps =>
    rw [Bool.eq_false_of_not_eq_true hkeeps, Bool.xor_false]
    rfl

end Engine

end DoorBridge
