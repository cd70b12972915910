import DoorBridge.Proofs.Engine.Tries

/-!
# Proofs.Arbiter — the timing rule of the bus, and the earliest start that follows from it

* `Arbiter.Clear` says in terms of past traffic when a frame may start: a pause after a failure, a quiet time after a
  transmission, and on Security+ 1.0 a quiet time after a byte and a window after a console poll.
* The arbiter computes an earliest start and the end of the window.  `earliest_le_iff` and the lemmas on `windowEnd?` say
  what each bound asks for, and from them it lets a frame start exactly when the rule does (`canTransmit_iff_clear`).
* `readyAt?_eq_some_iff` says when there is an earliest start; then it is the first instant at which a frame may start
  (`ready_at_exact`).
-/

namespace DoorBridge

namespace Arbiter

/-- The timing rule.  Differences are integers, since a transmission is noted with the time at which it leaves the
wire, which may be later than now. -/
structure Clear (a : Arbiter) (now : Nat) : Prop where
  /-- A failed attempt is not repeated too early. -/
  retry : ∀ retry ∈ a.retryAt?, retry ≤ now
  plus2 : a.security = .plus2 → ∀ tx ∈ a.lastTx?, (tx : Int) + a.postDelay ≤ now
  plus1 : a.security = .plus1 → ∀ tx ∈ a.lastTx?, (now : Int) - tx > 20 ∧ (now : Int) - tx > a.postDelay
  /-- On Security+ 1.0 a byte is followed by silence, and a console poll is also followed by a window. -/
  heard : a.security = .plus1 → ∀ rx ∈ a.lastRx?,
    (now : Int) - rx > 20 ∧ (a.wallPanel = true → (now : Int) - rx ≤ 200)

variable {a : Arbiter} {now w : Nat}

/-! ## The bounds -/

theorem afterTx_le_iff_plus2 (hplus2 : a.security = .plus2) :
    a.afterTx ≤ now ↔ ∀ tx ∈ a.lastTx?, (tx : Int) + a.postDelay ≤ now := by
  unfold afterTx
  rw [hplus2]
  cases a.lastTx? with
  | none => simp
  | some tx =>
    simp only [Option.mem_def, Option.some.injEq, forall_eq']
    omega

theorem afterTx_le_iff_plus1 (hplus1 : a.security = .plus1) :
    a.afterTx ≤ now ↔ ∀ tx ∈ a.lastTx?, (now : Int) - tx > 20 ∧ (now : Int) - tx > a.postDelay := by
  unfold afterTx minimumGap
  rw [hplus1]
  cases a.lastTx? with
  | none => simp
  | some tx =>
    simp only [Option.mem_def, Option.some.injEq, forall_eq']
    omega

theorem afterRx_le_iff_plus1 (hplus1 : a.security = .plus1) :
    a.afterRx ≤ now ↔ ∀ rx ∈ a.lastRx?, (now : Int) - rx > 20 := by
  unfold afterRx minimumGap
  rw [hplus1]
  cases a.lastRx? with
  | none => simp
  | some rx =>
    simp only [Option.mem_def, Option.some.injEq, forall_eq']
    omega

theorem retryAt?_getD_le_iff : a.retryAt?.getD 0 ≤ now ↔ ∀ retry ∈ a.retryAt?, retry ≤ now := by
  cases a.retryAt? <;> simp

/-- The earliest start is the latest of three bounds. -/
theorem earliest_le_iff :
    a.earliest ≤ now ↔ (∀ retry ∈ a.retryAt?, retry ≤ now) ∧ a.afterTx ≤ now ∧ a.afterRx ≤ now := by
  unfold earliest
  rw [Nat.max_le, Nat.max_le, retryAt?_getD_le_iff, and_assoc]

/-- Security+ 2.0 does not look at what was received. -/
theorem afterRx_plus2 (hplus2 : a.security = .plus2) : a.afterRx = 0 := by
  unfold afterRx
  rw [hplus2]

theorem windowEnd?_plus2 (hplus2 : a.security = .plus2) : a.windowEnd? = none := by
  unfold windowEnd?
  rw [hplus2]

/-- On Security+ 1.0 a console opens a window with everything that is received. -/
theorem le_windowEnd?_iff_plus1 (hplus1 : a.security = .plus1) :
    (∀ last ∈ a.windowEnd?, now ≤ last) ↔ ∀ rx ∈ a.lastRx?, a.wallPanel = true → (now : Int) - rx ≤ 200 := by
  unfold windowEnd? pollWindow
  rw [hplus1]
  cases a.lastRx? with
  | none => simp
  | some rx =>
    cases a.wallPanel with
    | false => simp
    | true =>
      simp only [Option.mem_def, Option.some.injEq, forall_eq', true_imp_iff]
      omega

/-! ## The rule -/

/-- **A frame may start exactly when past traffic allows it.** -/
theorem canTransmit_iff_clear : a.canTransmit now = true ↔ a.Clear now := by
  rw [canTransmit_iff, earliest_le_iff]
  cases hsecurity : a.security with
  | plus2 =>
    rw [windowEnd?_plus2 hsecurity, afterRx_plus2 hsecurity, afterTx_le_iff_plus2 hsecurity]
    constructor
    · rintro ⟨⟨hretry, htx, -⟩, -⟩
      exact ⟨hretry, fun _ => htx, by simp [hsecurity], by simp [hsecurity]⟩
    · intro hclear
      exact ⟨⟨hclear.retry, hclear.plus2 hsecurity, Nat.zero_le now⟩, nofun⟩
  | plus1 =>
    rw [afterTx_le_iff_plus1 hsecurity, afterRx_le_iff_plus1 hsecurity, le_windowEnd?_iff_plus1 hsecurity]
    constructor
    · rintro ⟨⟨hretry, htx, hrx⟩, hwindow⟩
      exact ⟨hretry, by simp [hsecurity], fun _ => htx, fun _ rx hlast => ⟨hrx rx hlast, hwindow rx hlast⟩⟩
    · intro hclear
      have hheard := hclear.heard hsecurity
      exact ⟨⟨hclear.retry, hclear.plus1 hsecurity, fun rx hlast => (hheard rx hlast).1⟩,
        fun rx hlast => (hheard rx hlast).2⟩

/-! ## The prediction -/

/-- There is an earliest start as long as the window lasts until then, and until now. -/
theorem readyAt?_eq_some_iff :
    a.readyAt? now = some w ↔ w = a.earliest ∧ ∀ last ∈ a.windowEnd?, w ≤ last ∧ now ≤ last := by
  unfold readyAt?
  cases a.windowEnd? with
  | none => simp [eq_comm]
  | some last =>
    simp only [Option.mem_def, Option.some.injEq, forall_eq']
    split
    · next hclosed =>
      refine iff_of_false nofun ?_
      rintro ⟨rfl, hearliest, hnow⟩
      omega
    · next hopen =>
      rw [Option.some.injEq]
      omega

/-- At its earliest start, or now if that is past, a frame may start. -/
theorem canTransmit_max_of_readyAt? (h : a.readyAt? now = some w) : a.canTransmit (max now w) = true := by
  obtain ⟨rfl, hwindow⟩ := readyAt?_eq_some_iff.mp h
  refine canTransmit_iff.mpr ⟨Nat.le_max_right .., fun last hlast => ?_⟩
  obtain ⟨hearliest, hnow⟩ := hwindow last hlast
  exact Nat.max_le.mpr ⟨hnow, hearliest⟩

end Arbiter

/-- **The arbiter's rule and its prediction agree.**  For every state of the arbiter and all times: a frame may start
exactly when the timing rule allows it.  If there is an earliest start, a frame may start then, or now if that is past, and
at no instant from now on before it.  If there is none, no frame may start from now on, as long as the arbiter stays as it
is. -/
theorem ready_at_exact (a : Arbiter) (now : Nat) :
    (a.canTransmit now = true ↔ a.Clear now) ∧
      (∀ w, a.readyAt? now = some w →
        a.canTransmit (max now w) = true ∧ ∀ t, now ≤ t → t < w → a.canTransmit t = false) ∧
      (a.readyAt? now = none → ∀ t, now ≤ t → a.canTransmit t = false) := by
  refine ⟨Arbiter.canTransmit_iff_clear, fun w hready => ⟨Arbiter.canTransmit_max_of_readyAt? hready, ?_⟩, ?_⟩
  · intro t hle hlt
    refine Arbiter.canTransmit_eq_false hle fun w' hready' => ?_
    obtain rfl : w = w' := Option.some.inj (hready.symm.trans hready')
    exact hlt
  · intro hclosed t hle
    refine Arbiter.canTransmit_eq_false hle fun w hready => ?_
    rw [hclosed] at hready
    contradiction

/-- A console that was last heard at one second, while a frame is on the wire that leaves it 50 ms later and asks for
40 ms of silence. -/
def polledArbiter : Arbiter where
  security := .plus1
  lastTx? := some 1050
  lastRx? := some 1000
  postDelay := 40
  wallPanel := true

/-- The next frame may start 41 ms after that one, and until 200 ms after the console was heard. -/
theorem ready_at_exact_polled :
    polledArbiter.readyAt? 1000 = some 1091 ∧ polledArbiter.canTransmit 1091 = true ∧
      polledArbiter.canTransmit 1090 = false ∧ polledArbiter.Clear 1200 ∧ polledArbiter.readyAt? 1201 = none ∧
      polledArbiter.canTransmit 5000 = false := by
  have hready : polledArbiter.readyAt? 1000 = some 1091 := by decide
  have hclosed : polledArbiter.readyAt? 1201 = none := by decide
  obtain ⟨-, hfirst, -⟩ := ready_at_exact polledArbiter 1000
  obtain ⟨hstarts, hwaits⟩ := hfirst 1091 hready
  exact ⟨hready, hstarts, hwaits 1090 (by decide) (by decide), (ready_at_exact polledArbiter 1200).1.mp (by decide),
    hclosed, (ready_at_exact polledArbiter 1201).2.2 hclosed 5000 (by decide)⟩

end DoorBridge
