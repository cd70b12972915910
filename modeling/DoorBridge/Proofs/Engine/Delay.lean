import DoorBridge.Proofs.Engine.Offers

/-!
# Proofs.Engine.Delay — what starts, disturbs and ends a delayed close

* `Engine.arms`, `Engine.cancels`, `Engine.disturbs` say which operations start a delayed close, which end it, and
  which do anything at all to it but count; all three depend on the engine that meets the operation.
* `countdown_of_arms`, `isClosing_of_cancels`, `countdown_of_undisturbed` say what they do to the countdown.  A delayed
  close only starts by being armed (`isClosing_of_unarmed`), and what it survives does nothing to it but count
  (`countdownAfter_of_closing`).
* `Engine.QuietBeat` is a beat that gives no door command: any beat outside a delayed close (`quietBeat_of_not_closing`)
  and all but the last inside it (`counting_beat`).  The last one closes the door (`last_beat`).
-/

namespace DoorBridge

/-! ## Countdowns -/

namespace Countdown

theorem action_cancel (c : Countdown) : c.cancel.2.action? = none := by
  rw [cancel]
  cases haction : c.action? with
  | none => exact haction
  | some action => rfl

theorem isClosing_cancel (c : Countdown) : c.cancel.2.isClosing = false := by
  rw [isClosing, action_cancel]
  rfl

theorem isActive_cancel (c : Countdown) : c.cancel.2.isActive = false := congrArg Option.isSome c.action_cancel

theorem isClosing_tick {c : Countdown} (h : c.isClosing = false) : c.tick.2.isClosing = false := by
  rw [tick]
  cases haction : c.action? with
  | none => exact h
  | some action =>
    rw [isClosing, haction] at h
    dsimp only
    split
    · rfl
    · exact h

theorem tick_start {n : Nat} (hn : 2 ≤ n) (light : Bool) (action : CountdownAction) :
    (start n light action).tick = (some .blink, start (n - 1) light action) := by
  have hmore : ¬ n ≤ 1 := by omega
  rw [start, start, tick]
  dsimp only
  rw [if_neg hmore]

theorem tick_start_one (light : Bool) (action : CountdownAction) :
    (start 1 light action).tick = (some (.fire action), ⟨0, light, none⟩) := rfl

theorem isActive_of_isClosing {c : Countdown} (h : c.isClosing = true) : c.isActive = true := by
  rw [isClosing, decide_eq_true_eq] at h
  rw [isActive, h]
  rfl

theorem remaining_tick {c : Countdown} (h : c.tick.2.isClosing = true) : c.remaining = c.tick.2.remaining + 1 := by
  rw [tick] at h ⊢
  cases haction : c.action? with
  | none =>
    rw [haction, isClosing] at h
    simp [haction] at h
  | some action =>
    rw [haction] at h
    dsimp only at h ⊢
    split
    · next hlast =>
      rw [if_pos hlast] at h
      contradiction
    · dsimp only
      omega

theorem ne_fire_of_closing {c : Countdown} (h : c.tick.2.isClosing = true) (action : CountdownAction) :
    c.tick.1 ≠ some (.fire action) := by
  rw [tick] at h ⊢
  split
  · nofun
  · next running haction =>
    rw [haction] at h
    dsimp only at h
    split
    · next hlast =>
      rw [if_pos hlast] at h
      contradiction
    · nofun

theorem remaining_of_fires {c : Countdown} {action : CountdownAction} (h : c.tick.1 = some (.fire action)) :
    c.remaining ≤ 1 := by
  rw [tick] at h
  split at h
  · contradiction
  split at h
  · assumption
  · cases h

end Countdown

def Operation.isBeat {σ : Type} : Operation σ → Bool
  | beat => true
  | _ => false

namespace Engine

variable {σ : Type} (e : Engine)

/-! ## Operations on a delayed close -/

/-- Whether an operation is a request to close the door that starts a delayed close. -/
def arms {σ : Type} [Storage σ] (e : Engine) (o : Operation σ) : Bool :=
  o.request? = some .closeDoor && !e.countdown.isClosing && (e.after o).countdown.isClosing

/-- Whether an operation ends a delayed close: a request to open or to reset, or an accepted report that the door is
closing. -/
def cancels : Operation σ → Bool
  | .request r | .call r => r = .openDoor || r = .reset
  | .byte byte now => ((e.inbound? byte now).map e.acceptsClosing).getD false
  | _ => false

/-- Whether a received packet or record ends a delayed close, or is the press that completes a recovery sequence. -/
def disturbedBy (x : Inbound) (now : Nat) : Bool := e.acceptsClosing x || x.isPress && (e.recovery.press now).1

/-- Whether an operation does anything to a delayed close but count: a request to open, close or reset, an accepted
report that the door is closing, or a press that completes a recovery sequence. -/
def disturbs : Operation σ → Bool
  | .request r | .call r => r = .openDoor || r = .closeDoor || r = .reset
  | .byte byte now => ((e.inbound? byte now).map (e.disturbedBy · now)).getD false
  | .press now => (e.recovery.press now).1
  | _ => false

variable {e} {o : Operation σ}

theorem pressCountdown_eq_self {now : Nat} (hmore : (e.recovery.press now).1 = false) :
    e.pressCountdown now = e.countdown := by
  rw [pressCountdown, hmore]
  rfl

theorem isClosing_pressCountdown (h : e.countdown.isClosing = false) (now : Nat) :
    (e.pressCountdown now).isClosing = false := by
  rw [pressCountdown]
  split
  · rfl
  · exact h

theorem isClosing_inboundCountdown (h : e.countdown.isClosing = false) (x : Inbound) (now : Nat) :
    (e.inboundCountdown x now).isClosing = false := by
  rw [inboundCountdown]
  split
  · exact isClosing_pressCountdown h now
  · split
    · exact Countdown.isClosing_cancel _
    · exact h

/-- A delayed close does not start but by being armed. -/
theorem isClosing_of_unarmed [Storage σ] (h : e.countdown.isClosing = false) (hunarmed : e.arms o = false) :
    (e.countdownAfter o).isClosing = false := by
  cases o with
  | byte byte now =>
    rw [countdownAfter]
    cases e.inbound? byte now with
    | none => exact h
    | some x => exact isClosing_inboundCountdown h x now
  | request r | call r =>
    cases r with
    | openDoor =>
      rw [countdownAfter, prepared, h]
      exact h
    | closeDoor =>
      rw [arms, h, countdown_after] at hunarmed
      simpa [Operation.request?] using hunarmed
    | reset => exact Countdown.isClosing_cancel _
    | _ => exact h
  | beat => exact Countdown.isClosing_tick h
  | press now => exact isClosing_pressCountdown h now
  | _ => exact h

/-- Closing the door leaves the countdown alone, cancels it, or starts one. -/
theorem closeCountdown_cases (e : Engine) :
    e.closeCountdown = e.countdown ∨ e.closeCountdown = e.countdown.cancel.2 ∨
      e.closeCounts = true ∧
        e.closeCountdown = .start (2 * e.settings.ttcSeconds.toNat) e.door.light .closeDoor := by
  rw [closeCountdown]
  split
  · exact .inl rfl
  · exact .inl rfl
  · split
    · exact .inr (.inl rfl)
    · split
      · next hcounts => exact .inr (.inr ⟨hcounts, rfl⟩)
      · exact .inl rfl

/-- What arms counts down, from two beats for every second of the warning. -/
theorem closeCounts_of_arms [Storage σ] (h : e.arms o = true) : e.closeCounts = true ∧
    e.countdownAfter o = .start (2 * e.settings.ttcSeconds.toNat) e.door.light .closeDoor := by
  obtain ⟨⟨hrequest, hidle⟩, hclosing⟩ : (o.request? = some .closeDoor ∧ e.countdown.isClosing = false) ∧
      (e.countdownAfter o).isClosing = true := by
    simpa [arms, countdown_after] using h
  have hcountdown : e.countdownAfter o = e.closeCountdown := by
    cases o with
    | request r | call r =>
      obtain rfl : r = .closeDoor := Option.some.inj hrequest
      rfl
    | _ => contradiction
  rw [hcountdown] at hclosing ⊢
  rcases closeCountdown_cases e with hsame | hcancelled | hstarted
  · rw [hsame, hidle] at hclosing
    contradiction
  · rw [hcancelled, Countdown.isClosing_cancel] at hclosing
    contradiction
  · exact hstarted

/-- Arming starts a countdown of two beats for every second of the warning. -/
theorem countdown_of_arms [Storage σ] (h : e.arms o = true) :
    0 < e.settings.ttcSeconds.toNat ∧
      e.countdownAfter o = .start (2 * e.settings.ttcSeconds.toNat) e.door.light .closeDoor := by
  obtain ⟨hcounts, hstarted⟩ := closeCounts_of_arms h
  have hseconds : e.settings.ttcSeconds ≠ 0 := fun hzero => by simp [closeCounts, hzero] at hcounts
  exact ⟨Nat.pos_of_ne_zero fun hzero => hseconds (UInt8.toNat_inj.mp hzero), hstarted⟩

/-- A countdown is armed only while none is running. -/
theorem isActive_of_arms [Storage σ] (h : e.arms o = true) : e.countdown.isActive = false := by
  have hcounts := (closeCounts_of_arms h).1
  by_contra hactive
  rw [Bool.not_eq_false] at hactive
  simp [closeCounts, hactive] at hcounts

/-- A report that the door is closing is no press. -/
theorem isPress_of_acceptsClosing {x : Inbound} (h : e.acceptsClosing x = true) : x.isPress = false := by
  cases x with
  | packet p =>
    cases p with
    | status s => rfl
    | _ => contradiction
  | record r =>
    cases r with
    | status s => rfl
    | _ => contradiction

theorem isClosing_of_cancels (h : e.cancels o = true) : (e.countdownAfter o).isClosing = false := by
  have hcancel : (if e.countdown.isClosing then e.countdown.cancel.2 else e.countdown).isClosing = false := by
    split
    · exact Countdown.isClosing_cancel _
    · next hidle => exact (Bool.not_eq_true _).mp hidle
  cases o with
  | request r | call r =>
    cases r with
    | openDoor => exact hcancel
    | reset => exact Countdown.isClosing_cancel _
    | _ => contradiction
  | byte byte now =>
    rw [cancels] at h
    rw [countdownAfter]
    cases hin : e.inbound? byte now with
    | none =>
      rw [hin] at h
      contradiction
    | some x =>
      have haccepts : e.acceptsClosing x = true := by
        rw [hin] at h
        exact h
      rw [Option.map_some, Option.getD_some, inboundCountdown, isPress_of_acceptsClosing haccepts, haccepts,
        Bool.true_and]
      exact hcancel
  | _ => contradiction

/-- Undisturbed, a countdown does nothing but count. -/
theorem countdown_of_undisturbed (h : e.disturbs o = false) :
    e.countdownAfter o = if o.isBeat then e.countdown.tick.2 else e.countdown := by
  cases o with
  | request r | call r =>
    cases r with
    | openDoor | closeDoor | reset => contradiction
    | _ => rfl
  | byte byte now =>
    rw [disturbs] at h
    rw [countdownAfter]
    cases hin : e.inbound? byte now with
    | none => rfl
    | some x =>
      obtain ⟨haccepts, hmore⟩ : e.acceptsClosing x = false ∧
          (x.isPress = true → (e.recovery.press now).1 = false) := by
        rw [hin] at h
        simpa [disturbedBy] using h
      rw [Option.map_some, Option.getD_some, inboundCountdown, haccepts]
      split
      · next hx => exact pressCountdown_eq_self (hmore hx)
      · rfl
  | press now => exact pressCountdown_eq_self h
  | _ => rfl

/-- What a delayed close survives does nothing to it but count. -/
theorem countdownAfter_of_closing (h : e.countdown.isClosing = true)
    (hstill : (e.countdownAfter o).isClosing = true) :
    e.countdownAfter o = if o.isBeat then e.countdown.tick.2 else e.countdown := by
  have hpress (now : Nat) (hstill : (e.pressCountdown now).isClosing = true) : e.pressCountdown now = e.countdown := by
    rw [pressCountdown] at hstill ⊢
    split
    · next hfires =>
      rw [if_pos hfires] at hstill
      contradiction
    · rfl
  have hcancel : e.countdown.cancel.2.isClosing ≠ true := by
    rw [Countdown.isClosing_cancel]
    decide
  cases o with
  | byte byte now =>
    rw [countdownAfter] at hstill ⊢
    cases hin : e.inbound? byte now with
    | none => rfl
    | some x =>
      rw [hin, Option.map_some, Option.getD_some, inboundCountdown] at hstill
      rw [Option.map_some, Option.getD_some, inboundCountdown]
      split
      · next hx =>
        rw [if_pos hx] at hstill
        exact hpress now hstill
      · next hx =>
        rw [if_neg hx] at hstill
        split
        · next hends =>
          rw [if_pos hends] at hstill
          exact absurd hstill hcancel
        · rfl
  | request r | call r =>
    cases r with
    | openDoor =>
      rw [countdownAfter, prepared, if_pos h] at hstill
      exact absurd hstill hcancel
    | closeDoor =>
      rcases closeCountdown_cases e with hsame | hcancelled | ⟨hcounts, -⟩
      · exact hsame
      · rw [countdownAfter, prepared, hcancelled] at hstill
        exact absurd hstill hcancel
      · have hactive := Countdown.isActive_of_isClosing h
        simp [closeCounts, hactive] at hcounts
    | reset => exact absurd hstill hcancel
    | _ => rfl
  | press now => exact hpress now hstill
  | _ => rfl

/-! ## Beats -/

/-- A beat that gives no door command. -/
def QuietBeat (e : Engine) : Prop :=
  ∃ added, e.countTick.2.queue.actions = e.queue.actions ++ added ∧ ∀ a ∈ added, a.packet.isDoorAction = false

theorem queue_countTick (e : Engine) :
    e.countTick.2.queue.actions = e.queue.actions ++ e.queue.takes e.beatAsks := by
  obtain ⟨events, h⟩ := (hands_countTick e).engine
  rw [h]
  rfl

theorem countdown_countTick (e : Engine) : e.countTick.2.countdown = e.countdown.tick.2 := by
  obtain ⟨events, h⟩ := (hands_countTick e).engine
  rw [h]

theorem isDoorAction_lightSequence {security : Security} {on : Bool} {a : PacketAction}
    (h : a ∈ lightSequence security on) : a.packet.isDoorAction = false := by
  cases security with
  | plus1 =>
    simp only [lightSequence, buttonSequence, pressRelease, List.mem_cons, List.not_mem_nil, or_false] at h
    rcases h with rfl | rfl | rfl <;> rfl
  | plus2 =>
    simp only [lightSequence, List.mem_cons, List.not_mem_nil, or_false] at h
    rcases h with rfl | rfl <;> rfl

/-- A beat that does not carry out a delayed close gives no door command. -/
theorem quietBeat_of_step (h : e.countdown.tick.1 ≠ some (.fire .closeDoor)) : e.QuietBeat := by
  refine ⟨e.queue.takes e.beatAsks, queue_countTick e, fun a ha => ?_⟩
  obtain ⟨seq, hseq, ha⟩ := Queue.mem_takes ha
  rw [beatAsks] at hseq
  split at hseq
  · contradiction
  · rw [lightAsks] at hseq
    split at hseq
    · contradiction
    · rw [List.mem_singleton.mp hseq] at ha
      exact isDoorAction_lightSequence ha
  · next hfire => exact absurd hfire h
  · contradiction

theorem quietBeat_of_not_closing (h : e.countdown.isClosing = false) : e.QuietBeat := by
  apply quietBeat_of_step
  rw [Countdown.tick]
  cases haction : e.countdown.action? with
  | none => nofun
  | some action =>
    rw [Countdown.isClosing, haction] at h
    dsimp only
    split
    · intro hfire
      cases hfire
      contradiction
    · nofun

/-- Before its last beat a delayed close gives no door command and goes on. -/
theorem counting_beat {n : Nat} (hn : 2 ≤ n) {light : Bool} (h : e.countdown = .start n light .closeDoor) :
    e.QuietBeat ∧ e.countTick.2.countdown.isClosing = true := by
  have htick : e.countdown.tick = (some .blink, .start (n - 1) light .closeDoor) := by
    rw [h]
    exact Countdown.tick_start hn light .closeDoor
  constructor
  · apply quietBeat_of_step
    rw [htick]
    nofun
  · rw [countdown_countTick, htick]
    rfl

/-- The last beat of a delayed close closes the door, unless it is closed already. -/
theorem queue_of_last_beat {light : Bool} (h : e.countdown = .start 1 light .closeDoor) :
    e.countTick.2.queue.actions = e.queue.actions ++
      if e.door.current ≠ .closed ∧ e.queue.fits (doorSequence e.settings.security .close) then
        doorSequence e.settings.security .close
      else [] := by
  have hasks : e.beatAsks = if e.door.current = .closed then [] else e.doorAsks .close := by
    rw [beatAsks, h]
    rfl
  rw [queue_countTick, hasks]
  congr 1
  by_cases hclosed : e.door.current = .closed
  · rw [if_pos hclosed, if_neg fun hopen => hopen.1 hclosed]
    rfl
  · rw [if_neg hclosed, doorAsks, Queue.takes_singleton]
    simp only [ne_eq, hclosed, not_false_eq_true, true_and]

/-- The last beat ends a delayed close, and closes the door if it is not closed and the queue has room. -/
theorem last_beat {light : Bool} (h : e.countdown = .start 1 light .closeDoor) :
    e.countTick.2.countdown.isActive = false ∧
      (e.door.current = .closed → e.countTick.2.queue = e.queue) ∧
      (e.door.current ≠ .closed → e.queue.fits (doorSequence e.settings.security .close) = true →
        e.countTick.2.queue.actions = e.queue.actions ++ doorSequence e.settings.security .close) := by
  have hqueue := queue_of_last_beat h
  refine ⟨?_, fun hclosed => ?_, fun hopen hroom => ?_⟩
  · rw [countdown_countTick, h, Countdown.tick_start_one]
    rfl
  · rw [if_neg fun h => h.1 hclosed, List.append_nil] at hqueue
    exact congrArg Queue.mk hqueue
  · rw [hqueue, if_pos ⟨hopen, hroom⟩]

end Engine

end DoorBridge
