import DoorBridge.Proofs.Engine.Offers

/-!
# Proofs.Engine.Strokes — a button press with its releases

A stroke is what belongs together on the bus (`Stroke`).  Sequences enter the queue as whole strokes
(`strokes_of_offer`), and the discard that goes with opening the door takes out whole strokes and nothing of one that
has begun, wherever the queue was cut when it happens (`Strokes.unblinked`).  A row of whole strokes has the release
right after every door press (`Strokes.after_press`) and consists of presses with their two releases on Security+ 1.0
(`Strokes.edges`).
-/

namespace DoorBridge

namespace Button

/-- The release of a button. -/
def release : Button → Button
  | doorPress | doorRelease => doorRelease
  | lightPress | lightRelease => lightRelease
  | lockPress | lockRelease => lockRelease

/-- The edges of one press: the press and two releases. -/
def edges (b : Button) : List Button := [b, b.release, b.release]

end Button

/-- The button edge that carries an action on Security+ 1.0. -/
def PacketAction.edge? (a : PacketAction) : Option Button := Button.ofPacket? a.packet

/-! ## Strokes -/

/-- What belongs together on the bus. -/
inductive Stroke : Security → List PacketAction → Prop where
  /-- On Security+ 2.0 the door button is pressed and released. -/
  | door {action : DoorAction} {id : UInt8} {press release : PacketAction}
      (hpress : press.packet = .doorAction action true id) (hrelease : release.packet = .doorAction action false id) :
      Stroke .plus2 [press, release]
  /-- Any other packet stands for itself. -/
  | single {a : PacketAction} (ha : a.packet.isDoorAction = false) : Stroke .plus2 [a]
  /-- On Security+ 1.0 a button is pressed once and released twice. -/
  | button {b : Button} {press release : PacketAction} (hb : b.isPress = true) (hpress : press.edge? = some b)
      (hrelease : release.edge? = some b.release) : Stroke .plus1 [press, release, release]

/-- Whole strokes one after another. -/
inductive Strokes (security : Security) : List PacketAction → Prop where
  | nil : Strokes security []
  | cons {stroke rest : List PacketAction} (hstroke : Stroke security stroke) (hrest : Strokes security rest) :
      Strokes security (stroke ++ rest)

/-- A stroke that has begun, as what went out of it and what is left of it; or neither. -/
inductive Begun (security : Security) : List PacketAction → List PacketAction → Prop where
  | nothing : Begun security [] []
  | part {out left : List PacketAction} (hstroke : Stroke security (out ++ left)) (hout : out ≠ [])
      (hleft : left ≠ []) : Begun security out left

variable {security : Security} {l l' : List PacketAction}

theorem Stroke.strokes (h : Stroke security l) : Strokes security l := by
  have hsingle := Strokes.cons h .nil
  rwa [List.append_nil] at hsingle

theorem Strokes.append (h : Strokes security l) (h' : Strokes security l') : Strokes security (l ++ l') := by
  induction h with
  | nil => exact h'
  | cons hstroke hrest ih =>
    rw [List.append_assoc]
    exact .cons hstroke ih

theorem Strokes.flatten {ls : List (List PacketAction)} (h : ∀ l ∈ ls, Strokes security l) :
    Strokes security ls.flatten := by
  induction ls with
  | nil => exact .nil
  | cons l ls ih =>
    rw [List.flatten_cons]
    exact (h l List.mem_cons_self).append (ih fun l hl => h l (List.mem_cons_of_mem _ hl))

theorem Begun.strokes (h : Begun security l l') : Strokes security (l ++ l') := by
  cases h with
  | nothing => exact .nil
  | part hstroke hout hleft => exact hstroke.strokes

/-- A cut through a row of strokes goes through at most one of them. -/
theorem Strokes.split {sent queued : List PacketAction} (h : Strokes security (sent ++ queued)) :
    ∃ done out left rest, sent = done ++ out ∧ queued = left ++ rest ∧ Strokes security done ∧
      Begun security out left ∧ Strokes security rest := by
  generalize hl : sent ++ queued = l at h
  induction h generalizing sent with
  | nil =>
    obtain ⟨rfl, rfl⟩ := List.append_eq_nil_iff.mp hl
    exact ⟨[], [], [], [], rfl, rfl, .nil, .nothing, .nil⟩
  | @cons stroke rest hstroke hrest ih =>
    rcases List.append_eq_append_iff.mp hl with ⟨left, rfl, rfl⟩ | ⟨later, rfl, hlater⟩
    · -- the cut is inside the first stroke or at one of its ends
      rcases eq_or_ne sent [] with rfl | hout
      · exact ⟨[], [], [], left ++ rest, rfl, rfl, .nil, .nothing, .cons hstroke hrest⟩
      rcases eq_or_ne left [] with rfl | hleft
      · rw [List.append_nil] at hstroke
        exact ⟨sent, [], [], rest, by rw [List.append_nil], rfl, hstroke.strokes, .nothing, hrest⟩
      · exact ⟨[], sent, left, rest, rfl, rfl, .nil, .part hstroke hout hleft, hrest⟩
    · obtain ⟨done, out, left, rest', rfl, rfl, hdone, hbegun, hrest'⟩ := ih hlater.symm
      exact ⟨stroke ++ done, out, left, rest', (List.append_assoc ..).symm, rfl, .cons hstroke hdone, hbegun, hrest'⟩

/-! ## What is queued -/

theorem strokes_of_offer (h : Engine.Offer security l) : Strokes security l := by
  have hstatus : Strokes .plus2 [Engine.statusRequest] := (Stroke.single rfl).strokes
  have hbutton (packet : Bool → Packet) (hold : Nat) {b : Button} (hb : b.isPress = true)
      (hpress : Button.ofPacket? (packet true) = some b)
      (hrelease : Button.ofPacket? (packet false) = some b.release) :
      Strokes .plus1 (Engine.buttonSequence packet hold) := by
    have hstroke : Stroke .plus1 (Engine.buttonSequence packet hold) := .button hb hpress hrelease
    exact hstroke.strokes
  have hdoor : Button.isPress .doorPress = true := rfl
  have hlight : Button.isPress .lightPress = true := rfl
  have hlock : Button.isPress .lockPress = true := rfl
  cases h with
  | door security action =>
    cases security with
    | plus1 => exact hbutton (.doorAction action · Engine.buttonId) _ hdoor rfl rfl
    | plus2 => exact .cons (.door rfl rfl) hstatus
  | light security on =>
    cases security with
    | plus1 => exact hbutton (.light .toggle) _ hlight rfl rfl
    | plus2 => exact .cons (.single rfl) hstatus
  | lock security locked =>
    cases security with
    | plus1 => exact hbutton (.lock .toggle) _ hlock rfl rfl
    | plus2 => exact .cons (.single rfl) hstatus
  | status => exact hstatus
  | greeting => exact .cons (.single rfl) (Stroke.single rfl).strokes

/-! ## What is thrown out -/

/-- What is left of some actions once the blinks that have not started are thrown out. -/
def keptOf (inSequence : Bool) (actions : List PacketAction) : List PacketAction :=
  (Queue.discard.go Engine.isUnsentBlink inSequence actions).2.actions

theorem keptOf_cons (inSequence : Bool) (a : PacketAction) (rest : List PacketAction) :
    keptOf inSequence (a :: rest) =
      if (Engine.isUnsentBlink inSequence a).1 then keptOf (Engine.isUnsentBlink inSequence a).2 rest
      else a :: keptOf (Engine.isUnsentBlink inSequence a).2 rest :=
  Queue.discard_go_cons Engine.isUnsentBlink inSequence a rest

/-- On Security+ 1.0 a blink leaves the queue, except for releases of a press that went out. -/
theorem isUnsentBlink_of_edge {a : PacketAction} {b : Button} (h : a.edge? = some b) (inSequence : Bool) :
    Engine.isUnsentBlink inSequence a =
      match b with
      | .lightPress => (true, false)
      | .lightRelease => (!inSequence, inSequence)
      | _ => (false, false) := by
  obtain ⟨packet, usesCode, postDelay⟩ := a
  cases packet with
  | doorAction action pressed id =>
    obtain rfl : _ = b := Option.some.inj h
    cases pressed <;> rfl
  | light command pressed =>
    obtain rfl : _ = b := Option.some.inj h
    cases pressed <;> cases inSequence <;> rfl
  | lock command pressed =>
    obtain rfl : _ = b := Option.some.inj h
    cases pressed <;> rfl
  | _ => contradiction

/-- A stroke that has not begun is thrown out whole or kept whole. -/
theorem keptOf_stroke {stroke : List PacketAction} (hstroke : Stroke security stroke) {inSequence : Bool}
    (hsequence : inSequence = true → security = .plus1) (rest : List PacketAction) :
    keptOf inSequence (stroke ++ rest) = keptOf false rest ∨
      keptOf inSequence (stroke ++ rest) = stroke ++ keptOf false rest := by
  cases hstroke with
  | door hpress hrelease =>
    right
    simp [keptOf_cons, Engine.isUnsentBlink, hpress, hrelease]
  | @single a ha =>
    -- a light packet without `pressed` is a whole stroke here, which a sequence would keep as if it were a release
    have hfresh : inSequence = false := by
      cases inSequence with
      | false => rfl
      | true => exact absurd (hsequence rfl) (by decide)
    cases hpacket : a.packet with
    | light command pressed =>
      left
      simp [keptOf_cons, Engine.isUnsentBlink, hpacket, hfresh]
    | _ =>
      right
      simp [keptOf_cons, Engine.isUnsentBlink, hpacket]
  | @button b press release hb hpress hrelease =>
    have hpress' := isUnsentBlink_of_edge hpress
    have hrelease' := isUnsentBlink_of_edge hrelease
    cases b with
    | lightPress =>
      left
      simp [keptOf_cons, hpress', hrelease', Button.release]
    | doorPress | lockPress =>
      right
      simp [keptOf_cons, hpress', hrelease', Button.release]
    | doorRelease | lightRelease | lockRelease => contradiction

theorem Strokes.keptOf (h : Strokes security l) {inSequence : Bool}
    (hsequence : inSequence = true → security = .plus1) : Strokes security (keptOf inSequence l) := by
  -- only the first stroke can meet a sequence; the later ones are reached with none
  induction h generalizing inSequence with
  | nil => exact .nil
  | @cons stroke rest hstroke hrest ih =>
    rcases keptOf_stroke hstroke hsequence rest with hkept | hkept
    · rw [hkept]
      exact ih nofun
    · rw [hkept]
      exact .cons hstroke (ih nofun)

/-- What is left of a stroke that has begun are releases. -/
theorem Stroke.left_releases {out left : List PacketAction} (h : Stroke security (out ++ left)) (hout : out ≠ []) :
    security = .plus2 ∧ (∀ a ∈ left, ∃ action id, a.packet = .doorAction action false id) ∨
      security = .plus1 ∧ ∃ (b : Button) (release : PacketAction),
        b.isPress = true ∧ release.edge? = some b.release ∧ ∀ a ∈ left, a = release := by
  obtain ⟨press, out, rfl⟩ := List.exists_cons_of_ne_nil hout
  generalize hl : press :: out ++ left = l at h
  have hmem {x : PacketAction} {later : List PacketAction} (hx : press :: out ++ left = x :: later)
      {a : PacketAction} (ha : a ∈ left) : a ∈ later := by
    rw [List.cons_append] at hx
    rw [← (List.cons.inj hx).2]
    exact List.mem_append_right out ha
  cases h with
  | door hpress hrelease =>
    refine .inl ⟨rfl, fun a ha => ?_⟩
    rw [List.mem_singleton.mp (hmem hl ha)]
    exact ⟨_, _, hrelease⟩
  | single ha => exact .inl ⟨rfl, fun a ha => absurd (hmem hl ha) List.not_mem_nil⟩
  | button hb hpress hrelease =>
    refine .inr ⟨rfl, _, _, hb, hrelease, fun a ha => ?_⟩
    rcases List.mem_cons.mp (hmem hl ha) with h | h
    · exact h
    · exact List.mem_singleton.mp h

theorem releaseIsNext_of_edge {e : Engine} {a : PacketAction} {b : Button} (hplus1 : e.settings.security = .plus1)
    (hfront : e.queue.front? = some a) (ha : a.edge? = some b) : e.releaseIsNext = decide (b = .lightRelease) := by
  have his : e.isPlus2 = false := by
    rw [Engine.isPlus2, hplus1]
    rfl
  rw [Engine.releaseIsNext, his, hfront]
  obtain ⟨packet, usesCode, postDelay⟩ := a
  cases packet with
  | doorAction action pressed id | light command pressed | lock command pressed =>
    obtain rfl : _ = b := Option.some.inj ha
    cases pressed <;> rfl
  | _ => contradiction

theorem plus1_of_releaseIsNext {e : Engine} (h : e.releaseIsNext = true) : e.settings.security = .plus1 := by
  cases hsecurity : e.settings.security with
  | plus1 => rfl
  | plus2 =>
    rw [Engine.releaseIsNext, Engine.isPlus2, hsecurity] at h
    contradiction

/-- The releases of a press that went out are kept. -/
theorem releases_kept {e : Engine} {out left rest : List PacketAction} (hbegun : Begun e.settings.security out left)
    (hqueue : e.queue.actions = left ++ rest) :
    ∀ a ∈ left, Engine.isUnsentBlink e.releaseIsNext a = (false, e.releaseIsNext) := by
  intro a ha
  cases hbegun with
  | nothing => contradiction
  | part hstroke hout hleft =>
    rcases hstroke.left_releases hout with ⟨hplus2, hdoor⟩ | ⟨hplus1, b, release, hb, hrelease, hsame⟩
    · obtain ⟨action, id, hpacket⟩ := hdoor a ha
      have hnext : e.releaseIsNext = false := by
        rw [Engine.releaseIsNext, Engine.isPlus2, hplus2]
        rfl
      rw [hnext, Engine.isUnsentBlink, hpacket]
    · have hfront : e.queue.front? = some release := by
        obtain ⟨x, later, rfl⟩ := List.exists_cons_of_ne_nil hleft
        rw [Queue.front?, hqueue, hsame x List.mem_cons_self]
        rfl
      have hnext := releaseIsNext_of_edge hplus1 hfront hrelease
      rw [hsame a ha, isUnsentBlink_of_edge hrelease, hnext]
      cases b with
      | doorPress | lightPress | lockPress => rfl
      | doorRelease | lightRelease | lockRelease => contradiction

theorem keptOf_append {inSequence : Bool} {left : List PacketAction}
    (h : ∀ a ∈ left, Engine.isUnsentBlink inSequence a = (false, inSequence)) (rest : List PacketAction) :
    keptOf inSequence (left ++ rest) = left ++ keptOf inSequence rest := by
  induction left with
  | nil => rfl
  | cons a left ih =>
    rw [List.cons_append, keptOf_cons, h a List.mem_cons_self, if_neg Bool.false_ne_true,
      ih fun b hb => h b (List.mem_cons_of_mem a hb), List.cons_append]

/-- **The discard breaks no stroke**, wherever the queue was cut when it happens. -/
theorem Strokes.unblinked {e : Engine} {sent : List PacketAction}
    (h : Strokes e.settings.security (sent ++ e.queue.actions)) :
    Strokes e.settings.security (sent ++ e.unblinked.actions) := by
  obtain ⟨done, out, left, rest, rfl, hqueue, hdone, hbegun, hrest⟩ := h.split
  have hkept : e.unblinked.actions = left ++ DoorBridge.keptOf e.releaseIsNext rest := by
    rw [← keptOf_append (releases_kept hbegun hqueue), ← hqueue]
    rfl
  have hstrokes := (hdone.append hbegun.strokes).append (hrest.keptOf plus1_of_releaseIsNext)
  rw [hkept]
  simpa only [List.append_assoc] using hstrokes

/-! ## What a press is followed by -/

/-- On Security+ 2.0 a door press is followed by its release. -/
theorem Strokes.after_press (h : Strokes .plus2 l) {before after : List PacketAction} {press : PacketAction}
    {action : DoorAction} {id : UInt8} (hl : l = before ++ press :: after)
    (hpress : press.packet = .doorAction action true id) :
    ∃ release rest, after = release :: rest ∧ release.packet = .doorAction action false id := by
  induction h generalizing before with
  | nil => exact absurd hl.symm (List.append_ne_nil_of_right_ne_nil before (List.cons_ne_nil press after))
  | @cons stroke rest hstroke hrest ih =>
    cases hstroke with
    | @door action' id' first second hfirst hsecond =>
      match before, hl with
      | [], hl =>
        obtain ⟨rfl, hafter⟩ := List.cons.inj hl
        rw [hfirst] at hpress
        cases hpress
        exact ⟨second, rest, hafter.symm, hsecond⟩
      | [x], hl =>
        obtain ⟨-, hl⟩ := List.cons.inj hl
        obtain ⟨rfl, -⟩ := List.cons.inj hl
        rw [hsecond] at hpress
        cases hpress
      | x :: y :: before, hl => exact ih (List.cons.inj (List.cons.inj hl).2).2
    | @single a ha =>
      match before, hl with
      | [], hl =>
        obtain ⟨rfl, -⟩ := List.cons.inj hl
        rw [hpress] at ha
        contradiction
      | x :: before, hl => exact ih (List.cons.inj hl).2

/-- On Security+ 1.0 whole strokes are presses, each with its two releases. -/
theorem Strokes.edges (h : Strokes .plus1 l) :
    ∃ presses : List Button, (∀ b ∈ presses, b.isPress = true) ∧
      l.map PacketAction.edge? = (presses.flatMap Button.edges).map some := by
  induction h with
  | nil => exact ⟨[], fun b hb => absurd hb List.not_mem_nil, rfl⟩
  | cons hstroke hrest ih =>
    obtain ⟨presses, hpresses, hedges⟩ := ih
    cases hstroke with
    | @button b press release hb hpress hrelease =>
      refine ⟨b :: presses, ?_, ?_⟩
      · intro b' hb'
        rcases List.mem_cons.mp hb' with rfl | hb'
        · exact hb
        · exact hpresses b' hb'
      · rw [List.map_append, hedges, List.flatMap_cons, List.map_append, List.map_cons, List.map_cons,
          List.map_singleton, hpress, hrelease]
        rfl

/-- Less than a stroke is left of one that has begun. -/
theorem Begun.length_le {out left : List PacketAction} (h : Begun security out left) : left.length ≤ 2 := by
  cases h with
  | nothing => exact Nat.zero_le 2
  | part hstroke hout hleft =>
    have hlength : (out ++ left).length ≤ 3 := by
      generalize out ++ left = stroke at hstroke
      cases hstroke <;> simp
    have hpos := List.length_pos_iff.mpr hout
    rw [List.length_append] at hlength
    omega

end DoorBridge
