import DoorBridge.Proofs.Engine.Delay
import DoorBridge.Proofs.Firmware.Turns
import Mathlib.Data.List.Induction

/-!
# Proofs.Firmware.Warning — how long a delayed close warns, whatever the order of the tasks

* A countdown that goes on has lost a tick for every beat that the engine took, and nothing else (`countdown_wake`).
* `Paced n stale first` says that a countdown from `n` lost no more ticks than there were beats: `stale` that were
  raised before, and one a period from `first` on.  Every turn keeps it (`Paced.turn`), so the warning has its length
  less the stale beats (`Paced.warned`).
* A beat is stale if it waits for the engine while the order to start has not been taken.  Without one nothing is lost
  before that order is taken (`Awaiting.turn`), and the warning has its whole length (`Awaiting.warned`).
* `Geared` is what holds from boot on, so that a beat that has stopped leaves no stale beat.
-/

namespace DoorBridge

/-! ## A countdown that goes on -/

namespace Engine

variable {e : Engine}

theorem countdown_orWarn (r : Result) (what : String) : (orWarn r what).countdown = r.2.countdown := by
  obtain ⟨answer, e⟩ := r
  cases answer <;> rfl

/-- Bytes that a delayed close survives do nothing to it. -/
theorem countdown_bytes {row : List TimedByte}
    (hstill : (row.foldl (fun e b => e.onByte b.byte b.time) e).countdown.isClosing = true) :
    (row.foldl (fun e b => e.onByte b.byte b.time) e).countdown = e.countdown := by
  induction row using List.reverseRecOn with
  | nil => rfl
  | append_singleton row b ih =>
    rw [List.foldl_append] at hstill ⊢
    generalize row.foldl (fun e b => e.onByte b.byte b.time) e = x at ih hstill ⊢
    have hbyte : (x.onByte b.byte b.time).countdown = x.countdownAfter (.byte b.byte b.time : Operation ChipStore) :=
      countdown_after x (.byte b.byte b.time : Operation ChipStore)
    rw [List.foldl_cons, List.foldl_nil, hbyte] at hstill ⊢
    -- what is no delayed close any more would not become one by a byte
    have hx : x.countdown.isClosing = true := by
      by_contra hidle
      rw [Bool.not_eq_true] at hidle
      rw [isClosing_of_unarmed hidle rfl] at hstill
      contradiction
    rw [countdownAfter_of_closing hx hstill, ih hx]
    rfl

theorem countdown_request (r : ControlRequest) (now : Nat) :
    (e.wake (.request r) now).countdown = e.countdownAfter (.request r : Operation ChipStore) :=
  (countdown_orWarn _ _).trans (countdown_after e (.request r : Operation ChipStore))

/-- What a delayed close survives that the engine wakes up for does nothing to it but count. -/
theorem countdown_wake (h : e.countdown.isClosing = true) {w : Wake} {now : Nat}
    (hstill : (e.wake w now).countdown.isClosing = true) :
    (e.wake w now).countdown = if w = .beat then e.countdown.tick.2 else e.countdown := by
  cases w with
  | bytes row => exact countdown_bytes hstill
  | request r =>
    rw [countdown_request] at hstill ⊢
    exact countdownAfter_of_closing h hstill
  | beat => exact (countdown_orWarn _ _).trans (countdown_countTick e)
  | obstruction obstructed => exact countdown_after e (.obstruction obstructed now : Operation ChipStore)
  | timer => rfl

end Engine

/-! ## Steps of the beat -/

/-- A step of the beat: a beat is raised, or the order to start or to stop is taken. -/
theorem Beat.step_cases {b next : Beat} {now : Nat} {s signals : BeatSignals} {events : List Event}
    (h : b.step? now s = some (next, signals, events)) :
    (∃ due, b.deadline? = some due ∧ due ≤ now ∧ next.deadline? = some (due + period) ∧
      signals = { s with raised := true }) ∨
    (s.order? = some true ∧ next.deadline? = some (now + period) ∧ signals = { s with order? := none }) ∨
    s.order? = some false ∧ next.deadline? = none ∧
      (signals.raised = true → b.deadline? = none ∧ s.raised = true) := by
  cases b with
  | stopped =>
    rw [step?] at h
    split at h
    · contradiction
    · next horder =>
      cases h
      exact .inr (.inl ⟨horder, rfl, rfl⟩)
    · next horder =>
      cases h
      exact .inr (.inr ⟨horder, rfl, fun hraised => ⟨rfl, hraised⟩⟩)
  | running due =>
    rw [step?] at h
    split at h
    · next hdue =>
      cases h
      exact .inl ⟨due, rfl, hdue, rfl, rfl⟩
    split at h
    · contradiction
    · next horder =>
      cases h
      exact .inr (.inl ⟨horder, rfl, rfl⟩)
    · next horder =>
      cases h
      exact .inr (.inr ⟨horder, rfl, fun hraised => absurd hraised Bool.false_ne_true⟩)

namespace Firmware

variable {f g : Firmware} {t : Turn}

theorem Beaten.cases (h : f.Beaten g) :
    (∃ due, f.deadline? .beat = some due ∧ due ≤ f.board.now ∧ g.deadline? .beat = some (due + Beat.period) ∧
      g.board.signals = { f.board.signals with raised := true }) ∨
    (f.board.signals.order? = some true ∧ g.deadline? .beat = some (f.board.now + Beat.period) ∧
      g.board.signals = { f.board.signals with order? := none }) ∨
    f.board.signals.order? = some false ∧ g.deadline? .beat = none ∧
      (g.board.signals.raised = true → f.deadline? .beat = none ∧ f.board.signals.raised = true) := by
  obtain ⟨beat, events, hbeat, next, hnext, hstep⟩ := h.step
  have hbefore : f.deadline? .beat = beat.deadline? := congrArg (·.bind (·.deadline?)) hbeat
  have hafter : g.deadline? .beat = next.deadline? := congrArg (·.bind (·.deadline?)) hnext
  rw [hbefore, hafter]
  exact Beat.step_cases hstep

/-- Whether a delayed close is counting down. -/
def isWarning (f : Firmware) : Bool := f.engine.countdown.isClosing

/-! ## The pace of a warning -/

/-- A countdown from `n` has lost no more ticks than there were beats: some stale ones, and one a period from an instant
on, at which the first of them may have come. -/
def Paced (n stale first : Nat) (f : Firmware) : Prop :=
  ∃ m, n + f.board.signals.raised.toNat ≤ f.engine.countdown.remaining + stale + m ∧
    first + m * Beat.period ≤ f.board.now + Beat.period ∧
    ∀ due, f.deadline? .beat = some due → first + m * Beat.period ≤ due

variable {n stale first : Nat}

theorem Paced.follows (hpaced : f.Paced n stale first) (h : f.Follows g) : g.Paced n stale first := by
  obtain ⟨m, hcount, hnow, hdue⟩ := hpaced
  refine ⟨m, ?_, hnow.trans (Nat.add_le_add_right h.board.now _), ?_⟩
  · rw [h.board.signals, h.countdown]
    exact hcount
  · rw [h.beat]
    exact hdue

theorem Paced.beaten (hpaced : f.Paced n stale first) (h : f.Beaten g) : g.Paced n stale first := by
  obtain ⟨m, hcount, hnow, hdue⟩ := hpaced
  have hlater := h.now
  rcases h.cases with ⟨due, hbeats, hpast, hnext, hsignals⟩ | ⟨-, hnext, hsignals⟩ | ⟨-, hnext, hraised⟩
  · -- the beat that is raised is one more of those that may have come
    have hmore : (m + 1) * Beat.period = m * Beat.period + Beat.period := Nat.succ_mul m _
    have hfirst := hdue due hbeats
    refine ⟨m + 1, ?_, by omega, fun next hnext' => ?_⟩
    · rw [hsignals, h.countdown]
      show n + 1 ≤ _
      omega
    · rw [hnext] at hnext'
      cases hnext'
      omega
  · refine ⟨m, ?_, by omega, fun next hnext' => ?_⟩
    · rw [hsignals, h.countdown]
      exact hcount
    · rw [hnext] at hnext'
      cases hnext'
      exact hnow
  · refine ⟨m, ?_, by omega, fun next hnext' => ?_⟩
    · have hless : g.board.signals.raised.toNat ≤ f.board.signals.raised.toNat :=
        Bool.toNat_le_toNat fun hraised' => (hraised hraised').2
      rw [h.countdown]
      omega
    · rw [hnext] at hnext'
      contradiction

/-- While a delayed close goes on, the engine takes a tick off for the beat, and nothing for anything else. -/
theorem Woken.countdown_of_warning {w : Wake} (h : f.Woken w g) (hwarns : f.isWarning = true)
    (hstill : g.isWarning = true) :
    g.engine.countdown = if w = .beat then f.engine.countdown.tick.2 else f.engine.countdown := by
  rw [isWarning, h.countdown] at hstill
  rw [h.countdown]
  exact Engine.countdown_wake hwarns hstill

theorem Paced.woken {w : Wake} (hpaced : f.Paced n stale first) (h : f.Woken w g) (hwarns : f.isWarning = true)
    (hstill : g.isWarning = true) : g.Paced n stale first := by
  obtain ⟨m, hcount, hnow, hdue⟩ := hpaced
  have hcountdown := h.countdown_of_warning hwarns hstill
  have hraised := h.raised
  refine ⟨m, ?_, hnow.trans (Nat.add_le_add_right h.now _), ?_⟩
  · by_cases hbeat : w = .beat
    · rw [if_pos hbeat] at hcountdown hraised
      have htick : f.engine.countdown.remaining = g.engine.countdown.remaining + 1 := by
        rw [isWarning, hcountdown] at hstill
        rw [hcountdown]
        exact Countdown.remaining_tick hstill
      rw [hraised.1, Bool.toNat_true] at hcount
      rw [hraised.2, Bool.toNat_false]
      omega
    · rw [if_neg hbeat] at hcountdown hraised
      rw [hcountdown, hraised]
      exact hcount
  · rw [h.beat]
    exact hdue

theorem Paced.turn (hpaced : f.Paced n stale first) (hwarns : f.isWarning = true)
    (hstill : (f.turn t).isWarning = true) : (f.turn t).Paced n stale first := by
  cases f.turned_turn t with
  | idle h => exact hpaced.follows h
  | beat h => exact hpaced.beaten h
  | wake h => exact hpaced.woken h hwarns hstill

theorem Paced.turns {row : List Turn} (hpaced : f.Paced n stale first) (hwarns : f.throughout isWarning row = true) :
    (f.turns row).Paced n stale first := by
  induction row generalizing f with
  | nil => exact hpaced
  | cons t row ih =>
    obtain ⟨hnow, hlater⟩ := throughout_cons hwarns
    exact ih (hpaced.turn hnow (holds_of_throughout hlater)) hlater

/-- Whether the next step of the engine takes the beat that carries out a delayed close. -/
def endsWarning (f : Firmware) : Bool :=
  f.takes? = some .beat && f.engine.countdown.tick.1 = some (.fire .closeDoor)

theorem raised_of_takes_beat (h : f.takes? = some .beat) : f.board.signals.raised = true := by
  rw [takes?] at h
  split at h
  · obtain ⟨⟨w, b⟩, hwake, rfl⟩ := Option.map_eq_some_iff.mp h
    exact (signals_wake? hwake).2.2.1
  · contradiction

theorem of_endsWarning (h : f.endsWarning = true) :
    f.takes? = some .beat ∧ f.engine.countdown.tick.1 = some (.fire .closeDoor) := by
  simpa [endsWarning] using h

/-- A warning has its length, less the stale beats and what there was of the first period before it. -/
theorem Paced.warned (hpaced : f.Paced n stale first) (hends : f.endsWarning = true) :
    first + n * Beat.period ≤ f.board.now + Beat.period + stale * Beat.period := by
  obtain ⟨hbeat, hfires⟩ := of_endsWarning hends
  obtain ⟨m, hcount, hnow, -⟩ := hpaced
  have hlast := Countdown.remaining_of_fires hfires
  rw [raised_of_takes_beat hbeat, Bool.toNat_true] at hcount
  have hticks : n * Beat.period ≤ (stale + m) * Beat.period := Nat.mul_le_mul_right _ (by omega)
  rw [Nat.add_mul] at hticks
  omega

/-- As long as a warning goes on, no beat gives a door command. -/
theorem quietBeat_of_warning (hbeat : f.takes? = some .beat) (hwarns : f.isWarning = true)
    (hstill : (f.turn (.task .engine)).isWarning = true) : f.engine.QuietBeat := by
  have hcountdown := (woken_of_takes hbeat).countdown_of_warning hwarns hstill
  rw [if_pos rfl] at hcountdown
  rw [isWarning, hcountdown] at hstill
  exact Engine.quietBeat_of_step (Countdown.ne_fire_of_closing hstill .closeDoor)

/-! ## Stale beats -/

/-- Whether a beat waits for the engine though the beat has yet to take the order to start. -/
def hasStaleBeat (f : Firmware) : Bool := f.board.signals.order? = some true && f.board.signals.raised

/-- The start order has not been taken, and no beat waits. -/
structure Awaiting (n start : Nat) (f : Firmware) : Prop where
  armed : f.armed = true
  order : f.board.signals.order? = some true
  raised : f.board.signals.raised = false
  remaining : f.engine.countdown.remaining = n
  now : start ≤ f.board.now

variable {start : Nat}

/-- What is not stale does not change a countdown before the order to start is taken, and then the first beat is a
whole period away. -/
theorem Awaiting.turn (h : f.Awaiting n start) (hwarns : f.isWarning = true) (hstill : (f.turn t).isWarning = true)
    (hfresh : (f.turn t).hasStaleBeat = false) :
    (f.turn t).Awaiting n start ∨ (f.turn t).Paced n 0 (start + Beat.period) := by
  have hturned := f.turned_turn t
  generalize f.turn t = g at hstill hfresh hturned ⊢
  cases hturned with
  | idle hfollows =>
    refine .inl ⟨hfollows.armed.trans h.armed, ?_, ?_, ?_, h.now.trans hfollows.board.now⟩
    · rw [hfollows.board.signals, h.order]
    · rw [hfollows.board.signals, h.raised]
    · rw [hfollows.countdown, h.remaining]
  | beat hbeaten =>
    rcases hbeaten.cases with ⟨due, -, -, -, hsignals⟩ | ⟨-, hnext, hsignals⟩ | ⟨hstop, -⟩
    · rw [hasStaleBeat, hsignals, h.order] at hfresh
      contradiction
    · have hlater := h.now.trans hbeaten.now
      refine .inr ⟨0, ?_, ?_, fun due hdue => ?_⟩
      · rw [hsignals, h.raised, hbeaten.countdown, h.remaining]
        exact Nat.le_refl n
      · omega
      · rw [hnext] at hdue
        cases hdue
        have hnow := h.now
        omega
    · rw [h.order] at hstop
      contradiction
  | wake hwoken =>
    have hraised := hwoken.raised
    split at hraised
    · rw [h.raised] at hraised
      exact absurd hraised.1 Bool.false_ne_true
    next hother =>
    have hcountdown := hwoken.countdown_of_warning hwarns hstill
    rw [if_neg hother] at hcountdown
    have harmed : g.armed = true := hwoken.armed.trans (Countdown.isActive_of_isClosing hstill)
    refine .inl ⟨harmed, ?_, ?_, ?_, h.now.trans hwoken.now⟩
    · rw [hwoken.order, harmed, h.armed, if_pos rfl, h.order]
    · rw [hraised, h.raised]
    · rw [hcountdown, h.remaining]

/-- Without a stale beat a warning has its whole length. -/
theorem Awaiting.warned {row : List Turn} (h : f.Awaiting n start) (hwarns : f.throughout isWarning row = true)
    (hfresh : f.throughout (fun x => !x.hasStaleBeat) row = true) (hends : (f.turns row).endsWarning = true) :
    start + n * Beat.period ≤ (f.turns row).board.now := by
  induction row generalizing f with
  | nil =>
    have hraised := raised_of_takes_beat (of_endsWarning hends).1
    rw [turns, List.foldl_nil, h.raised] at hraised
    contradiction
  | cons t row ih =>
    obtain ⟨hnow, hlater⟩ := throughout_cons hwarns
    obtain ⟨-, hfresh'⟩ := throughout_cons hfresh
    have hstill := holds_of_throughout hlater
    have hnone : (f.turn t).hasStaleBeat = false := by simpa using holds_of_throughout hfresh'
    rcases h.turn hnow hstill hnone with hawaiting | hpaced
    · exact ih hawaiting hlater hfresh' hends
    · have hwarned := (hpaced.turns hlater).warned hends
      rw [turns_cons]
      omega

/-! ## From boot on -/

/-- The beat was told last whether the countdown runs, and a stopped beat has left none. -/
structure Geared (f : Firmware) : Prop where
  armed : f.armed = f.engine.countdown.isActive
  silent : f.deadline? .beat = none → f.board.signals.raised = false

theorem Geared.turn (h : f.Geared) (t : Turn) : (f.turn t).Geared := by
  cases f.turned_turn t with
  | idle hfollows =>
    refine ⟨?_, fun hstopped => ?_⟩
    · rw [hfollows.armed, hfollows.countdown, h.armed]
    · rw [hfollows.board.signals]
      exact h.silent (hfollows.beat.symm.trans hstopped)
  | beat hbeaten =>
    refine ⟨?_, fun hstopped => ?_⟩
    · rw [hbeaten.armed, hbeaten.countdown, h.armed]
    · rcases hbeaten.cases with ⟨due, -, -, hnext, -⟩ | ⟨-, hnext, -⟩ | ⟨-, -, hraised⟩
      · rw [hnext] at hstopped
        contradiction
      · rw [hnext] at hstopped
        contradiction
      · by_contra hwaits
        obtain ⟨hbefore, hraised⟩ := hraised ((Bool.not_eq_false _).mp hwaits)
        rw [h.silent hbefore] at hraised
        contradiction
  | wake hwoken =>
    refine ⟨hwoken.armed, fun hstopped => ?_⟩
    have hraised := hwoken.raised
    split at hraised
    · exact hraised.2
    · exact hraised.trans (h.silent (hwoken.beat.symm.trans hstopped))

theorem Geared.turns (h : f.Geared) (row : List Turn) : (f.turns row).Geared :=
  List.foldlRecOn row Firmware.turn h fun _ hx t _ => hx.turn t

theorem geared_boot (store : ChipStore) (busLevel beamLevel : Bool) (plan : List Stimulus) :
    (boot store busLevel beamLevel plan).Geared := by
  rw [boot]
  generalize Settings.boot store = settings
  generalize chipId store = id
  obtain ⟨settings, loading⟩ := settings
  obtain ⟨id, identifying⟩ := id
  have hboard (b : Board) (line : LineSettings) (events : List Event) (e : Event) :
      b.Leads ((Transmitter.setBreak line false (b.reportAll events)).report e) :=
    ((b.leads_reportAll events).trans (Board.drifts_setBreak line false _).toLeads).trans (Board.leads_report _ e)
  exact ⟨rfl, fun _ => congrArg BeatSignals.raised (hboard _ _ _ _).signals⟩

/-- Whether the next step of the engine takes a request to close the door that starts a delayed close. -/
def startsWarning (f : Firmware) : Bool :=
  f.takes? = some (.request .closeDoor) && f.engine.arms (.request .closeDoor : Operation ChipStore)

/-- When the first beat of a countdown that is started now may come: the beat may still be running. -/
def firstBeat (f : Firmware) : Nat :=
  match f.deadline? .beat with
  | some due => min due (f.board.now + Beat.period)
  | none => f.board.now + Beat.period

theorem firstBeat_le (f : Firmware) : f.firstBeat ≤ f.board.now + Beat.period := by
  rw [firstBeat]
  split
  · exact Nat.min_le_right _ _
  · exact Nat.le_refl _

theorem firstBeat_le_due {due : Nat} (h : f.deadline? .beat = some due) : f.firstBeat ≤ due := by
  rw [firstBeat, h]
  exact Nat.min_le_left _ _

/-- How a warning starts. -/
theorem started_of_startsWarning (hstarts : f.startsWarning = true) :
    let g := f.turn (.task .engine)
    let T := f.engine.settings.ttcSeconds.toNat
    0 < T ∧ g.Paced (2 * T) f.board.signals.raised.toNat f.firstBeat ∧
      (f.Geared → g.hasStaleBeat = false → g.Awaiting (2 * T) f.board.now) := by
  obtain ⟨htakes, harms⟩ : f.takes? = some (.request .closeDoor) ∧
      f.engine.arms (.request .closeDoor : Operation ChipStore) = true := by
    simpa [startsWarning] using hstarts
  have hwoken := woken_of_takes htakes
  obtain ⟨hpos, hcountdown⟩ := Engine.countdown_of_arms harms
  intro g T
  have hstarted : g.engine.countdown = .start (2 * T) f.engine.door.light .closeDoor := by
    rw [hwoken.countdown, Engine.countdown_request, hcountdown]
  have hraised : g.board.signals.raised = f.board.signals.raised := by simpa using hwoken.raised
  have harmed : g.armed = true := by
    rw [hwoken.armed, hstarted]
    rfl
  have hlater : f.board.now ≤ g.board.now := hwoken.now
  refine ⟨hpos, ⟨0, ?_, ?_, ?_⟩, fun hgeared hfresh => ?_⟩
  · rw [hraised, hstarted]
    exact Nat.le_refl _
  · have hfirst := f.firstBeat_le
    omega
  · intro due hdue
    have hfirst := firstBeat_le_due (hwoken.beat.symm.trans hdue)
    omega
  · have hidle : f.armed = false := hgeared.armed.trans (Engine.isActive_of_arms harms)
    have horder : g.board.signals.order? = some true := by
      rw [hwoken.order, harmed, hidle]
      rfl
    rw [hasStaleBeat, horder] at hfresh
    refine ⟨harmed, horder, by simpa using hfresh, ?_, hlater⟩
    rw [hstarted]
    rfl

/-- **A warning has its whole length unless a beat of an earlier countdown is taken for it.**

From boot on the tasks may go on in any order and the clock may move by any steps.  Say that a request to close is taken
at `f` and starts a warning of `T` seconds, that the warning goes on through a row of turns, and that its last beat is
taken at `g`.  This is the beat that queues the closing of the door (`Engine.queue_of_last_beat`); none before it gives a
door command.

* If the beat had stopped when the warning started, or if no beat ever waited before the order to start was taken, then
  `g` is at least `T` seconds after `f`.
* In any case the warning is short of that by no more than one period for a beat that waited already, and by what had
  passed of the period of a beat that was still running. -/
theorem warning_lasts_unless_stale (store : ChipStore) (busLevel beamLevel : Bool) (plan : List Stimulus)
    (past row : List Turn) :
    let f := (boot store busLevel beamLevel plan).turns past
    let T := f.engine.settings.ttcSeconds.toNat
    let g := (f.turn (.task .engine)).turns row
    f.startsWarning = true → (f.turn (.task .engine)).throughout isWarning row = true → g.endsWarning = true →
      (f.deadline? .beat = none ∨ (f.turn (.task .engine)).throughout (fun x => !x.hasStaleBeat) row = true →
        f.board.now + T * 1000000 ≤ g.board.now) ∧
      f.firstBeat + 2 * T * Beat.period ≤
        g.board.now + Beat.period + f.board.signals.raised.toNat * Beat.period ∧
      ∀ earlier later, row = earlier ++ .task .engine :: later →
        let x := (f.turn (.task .engine)).turns earlier
        x.takes? = some .beat → x.engine.QuietBeat := by
  intro f T g hstarts hwarns hends
  have hgeared : f.Geared := (geared_boot store busLevel beamLevel plan).turns past
  obtain ⟨-, hpaced, hawaiting⟩ := started_of_startsWarning hstarts
  have hbound := (hpaced.turns hwarns).warned hends
  refine ⟨?_, hbound, ?_⟩
  · have hseconds : T * 1000000 = 2 * T * Beat.period := by
      rw [Nat.mul_comm 2, Nat.mul_assoc]
      rfl
    rw [hseconds]
    rintro (hstopped | hfresh)
    · have hfirst : f.firstBeat = f.board.now + Beat.period := by rw [firstBeat, hstopped]
      rw [hfirst, hgeared.silent hstopped, Bool.toNat_false, Nat.zero_mul, Nat.add_zero, Nat.add_right_comm] at hbound
      exact Nat.le_of_add_le_add_right hbound
    · have hnone : (f.turn (.task .engine)).hasStaleBeat = false := by simpa using holds_of_throughout hfresh
      exact (hawaiting hgeared hnone).warned hwarns hfresh hends
  · rintro earlier later rfl x hbeat
    obtain ⟨hnow, hstill⟩ := holds_at_turn hwarns
    exact quietBeat_of_warning hbeat hnow hstill

/-- A chip whose settings ask for a warning of one second. -/
def warningChip : ChipStore :=
  { item := fun key => if key = .config then Settings.encode { ttcSeconds := 1 } else [], uniqueId? := some 57 }

/-- The door is asked to close, to open, and to close again. -/
def reclosePlan : List Stimulus :=
  [⟨100000, .request .closeDoor⟩, ⟨200000, .request .openDoor⟩, ⟨300000, .request .closeDoor⟩]

/-- Up to the second request to close; the beat has stopped in between. -/
def reclosePast : List Turn :=
  [.task .engine, .task .beat, .advance 100000, .task .engine, .task .beat, .advance 200000, .task .engine, .task .beat,
    .advance 300000]

def reclosing : Firmware := (boot warningChip false false reclosePlan).turns reclosePast

/-- What happens after that, up to the last beat. -/
def recloseTurns : List Turn :=
  [.task .beat, .advance 850000, .task .beat, .task .engine, .advance 1350000, .task .beat]

theorem warning_lasts_unless_stale_stopped :
    let g := (reclosing.turn (.task .engine)).turns recloseTurns
    reclosing.startsWarning = true ∧ (reclosing.turn (.task .engine)).throughout isWarning recloseTurns = true ∧
      g.endsWarning = true ∧ reclosing.deadline? .beat = none ∧ reclosing.board.now + 1 * 1000000 ≤ g.board.now := by
  have hstarts : reclosing.startsWarning = true := by decide +kernel
  have hwarns : (reclosing.turn (.task .engine)).throughout isWarning recloseTurns = true := by decide +kernel
  have hends : ((reclosing.turn (.task .engine)).turns recloseTurns).endsWarning = true := by decide +kernel
  have hstopped : reclosing.deadline? .beat = none := by decide +kernel
  have hseconds : reclosing.engine.settings.ttcSeconds.toNat = 1 := by decide +kernel
  have hlasts := warning_lasts_unless_stale warningChip false false reclosePlan reclosePast recloseTurns
  rw [← reclosing] at hlasts
  dsimp only at hlasts
  rw [hseconds] at hlasts
  exact ⟨hstarts, hwarns, hends, hstopped, (hlasts hstarts hwarns hends).1 (.inl hstopped)⟩

/-- While a status request goes out, the door is asked to open and to close again. -/
def hastyPlan : List Stimulus :=
  [⟨100000, .request .closeDoor⟩, ⟨590000, .request .getStatus⟩, ⟨595000, .request .openDoor⟩,
    ⟨596000, .request .closeDoor⟩]

/-- Up to the second request to close; the beat of the first is due, and has not been told to stop. -/
def hasty : Firmware := (boot warningChip false false hastyPlan).turns
  [.task .engine, .task .beat, .advance 50000, .task .engine, .advance 100000, .task .engine, .task .beat,
    .advance 590000, .task .engine, .task .engine]

/-- What happens after that, up to the last beat. -/
def hastyTurns : List Turn := [.task .beat, .task .engine, .task .beat, .advance 1111380, .task .beat]

/-- **A warning may be cut short**: the first beat of the second warning is one of the first, so that the closing of
the door is queued after half a second. -/
theorem warning_cut_short :
    let g := (hasty.turn (.task .engine)).turns hastyTurns
    hasty.startsWarning = true ∧ hasty.engine.settings.ttcSeconds = 1 ∧
      (hasty.turn (.task .engine)).throughout isWarning hastyTurns = true ∧ g.endsWarning = true ∧
      g.board.now = hasty.board.now + 500000 ∧
      (∀ x ∈ [hasty, g], Packet.doorAction .close true Engine.buttonId ∉ x.engine.queue.actions.map (·.packet)) ∧
      Packet.doorAction .close true Engine.buttonId ∈
        (g.turn (.task .engine)).engine.queue.actions.map (·.packet) := by
  decide +kernel

end Firmware

end DoorBridge
