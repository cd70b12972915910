import DoorBridge.Arbiter.Script
import DoorBridge.Proofs.Engine.Tries
import DoorBridge.Storage.Memory
import Mathlib.Data.List.Induction

/-!
# Proofs.Session.Spacing — every attempt to send keeps its distance from past traffic

`Traffic` is what a run did to the bus, in order, and `Traffic.Stands` picks out what still counts: the last frame that
went out, the failures since, the last byte that came in.  `Arbiter.Knows` says that the arbiter remembers just that.
Every step keeps it (`Arbiter.Knows.take`), for times of any values, and it makes every attempt keep its distance
(`Arbiter.Knows.spaced`).
-/

namespace DoorBridge

/-- What a run does to the bus. -/
inductive Traffic where
  /-- A byte came in. -/
  | heard (now : Nat)
  /-- A status record of Security+ 1.0 came in. -/
  | polled
  /-- The engine started, which counts as if a byte had come in. -/
  | started (now : Nat)
  /-- A frame went out: the time of the attempt, its length in bytes, and the quiet time it asks for. -/
  | sent (now length postDelay : Nat)
  /-- An attempt failed. -/
  | failed (now : Nat)
  deriving DecidableEq, Repr

namespace Traffic

def isSent : Traffic → Bool
  | sent .. => true
  | _ => false

def isHeard : Traffic → Bool
  | heard _ | started _ => true
  | _ => false

/-- It happened, and nothing of a kind came after it. -/
def Stands (kind : Traffic → Bool) (x : Traffic) (log : List Traffic) : Prop :=
  ∃ before between, log = before ++ x :: between ∧ ∀ y ∈ between, kind y = false

variable {kind : Traffic → Bool} {x y : Traffic} {log : List Traffic}

theorem not_stands_nil : ¬ Stands kind x [] := by
  rintro ⟨before, between, hlog, -⟩
  exact List.append_ne_nil_of_right_ne_nil before (List.cons_ne_nil x between) hlog.symm

/-- What stands is the last thing, or stood before that. -/
theorem Stands.of_concat (h : Stands kind x (log ++ [y])) : x = y ∨ Stands kind x log ∧ kind y = false := by
  obtain ⟨before, between, hlog, hquiet⟩ := h
  rcases List.eq_nil_or_concat between with rfl | ⟨rest, last, rfl⟩
  · obtain ⟨-, hlast⟩ := List.append_inj' hlog rfl
    exact .inl (List.singleton_inj.mp hlast).symm
  · rw [List.concat_eq_append, ← List.cons_append, ← List.append_assoc] at hlog
    rw [List.concat_eq_append, List.forall_mem_append] at hquiet
    obtain ⟨hbefore, hlast⟩ := List.append_inj' hlog rfl
    obtain rfl : y = last := List.singleton_inj.mp hlast
    exact .inr ⟨⟨before, rest, hbefore, hquiet.1⟩, hquiet.2 y (List.mem_singleton_self y)⟩

end Traffic

/-! ## What the arbiter remembers -/

namespace Arbiter

open Traffic

def note (a : Arbiter) : Traffic → Arbiter
  | .heard now | .started now => a.noteRx now
  | .polled => { a with wallPanel := true }
  | .sent now length postDelay => a.noteTx (now + a.airtime length) postDelay
  | .failed now => a.noteCollision now

/-- Whether an attempt that came to something may start when it did. -/
def Allows (a : Arbiter) : Traffic → Prop
  | .sent now _ _ | .failed now => a.canTransmit now = true
  | _ => True

/-- The arbiter remembers the protocol and what still counts of the traffic. -/
structure Knows (a : Arbiter) (security : Security) (log : List Traffic) : Prop where
  security : a.security = security
  sent {now length postDelay : Nat} (h : Stands isSent (.sent now length postDelay) log) :
    a.lastTx? = some (now + a.airtime length) ∧ a.postDelay = postDelay
  /-- Every failure since the last frame that went out holds attempts back. -/
  failed {now : Nat} (h : Stands isSent (.failed now) log) : ∃ retry, a.retryAt? = some retry ∧ now + 20 ≤ retry
  heard {now : Nat} (h : Stands isHeard (.heard now) log) : a.lastRx? = some now
  polled (h : .polled ∈ log) : a.wallPanel = true

variable {a : Arbiter} {security : Security} {log : List Traffic} {now : Nat}

theorem retry_le_of_canTransmit {retry : Nat} (h : a.canTransmit now = true) (hretry : a.retryAt? = some retry) :
    retry ≤ now := by
  obtain ⟨hearliest, -⟩ := canTransmit_iff.mp h
  rw [earliest, hretry, Option.getD_some] at hearliest
  omega

namespace Knows

theorem nil (a : Arbiter) : a.Knows a.security [] where
  security := rfl
  sent h := absurd h not_stands_nil
  failed h := absurd h not_stands_nil
  heard h := absurd h not_stands_nil
  polled h := absurd h List.not_mem_nil

/-- Noting what happens next, if it may happen. -/
theorem note (h : a.Knows security log) {y : Traffic} (hy : a.Allows y) :
    (a.note y).Knows security (log ++ [y]) where
  security := by cases y <;> exact h.security
  sent hstands := by
    rcases hstands.of_concat with rfl | ⟨hbefore, hkind⟩
    · exact ⟨rfl, rfl⟩
    · cases y with
      | sent => contradiction
      | _ => exact h.sent hbefore
  failed hstands := by
    rcases hstands.of_concat with rfl | ⟨hbefore, hkind⟩
    · exact ⟨_, rfl, Nat.le_refl _⟩
    · obtain ⟨retry, hretry, hle⟩ := h.failed hbefore
      cases y with
      | sent => contradiction
      | failed again =>
        -- the attempt that failed now had waited for the one before
        have hwaited : retry ≤ again := retry_le_of_canTransmit hy hretry
        exact ⟨again + retryPause, rfl, by omega⟩
      | _ => exact ⟨retry, hretry, hle⟩
  heard hstands := by
    rcases hstands.of_concat with rfl | ⟨hbefore, hkind⟩
    · rfl
    · cases y with
      | heard | started => contradiction
      | _ => exact h.heard hbefore
  polled hmem := by
    rcases List.mem_append.mp hmem with hbefore | hlast
    · cases y with
      | polled => rfl
      | _ => exact h.polled hbefore
    · obtain rfl := List.mem_singleton.mp hlast
      rfl

/-- Noting in turn what no attempt did. -/
theorem foldl (h : a.Knows security log) {ys : List Traffic} (hys : ∀ y ∈ ys, ∀ b : Arbiter, b.Allows y) :
    (ys.foldl Arbiter.note a).Knows security (log ++ ys) := by
  induction ys generalizing a log with
  | nil =>
    rw [List.append_nil]
    exact h
  | cons y ys ih =>
    obtain ⟨hy, hys⟩ := List.forall_mem_cons.mp hys
    have hrest := ih (h.note (hy a)) hys
    rw [List.append_assoc, List.singleton_append] at hrest
    exact hrest

/-- An attempt that may start keeps its distance. -/
theorem spaced (h : a.Knows security log) (hready : a.canTransmit now = true) :
    (∀ before length postDelay, Stands isSent (.sent before length postDelay) log →
      (security = .plus2 → before + a.airtime length + postDelay ≤ now) ∧
      (security = .plus1 → before + a.airtime length + max postDelay 20 < now)) ∧
    (∀ before, Stands isSent (.failed before) log → before + 20 ≤ now) ∧
    (security = .plus1 → ∀ before, Stands isHeard (.heard before) log →
      before + 20 < now ∧ (.polled ∈ log → now ≤ before + 200)) := by
  obtain ⟨hearliest, hwindow⟩ := canTransmit_iff.mp hready
  obtain ⟨htx, hrx⟩ : a.afterTx ≤ now ∧ a.afterRx ≤ now := by
    unfold earliest at hearliest
    omega
  refine ⟨fun before length postDelay hsent => ?_, fun before hfailed => ?_,
    fun hplus1 before hheard => ⟨?_, fun hpolled => ?_⟩⟩
  · obtain ⟨hlast, hdelay⟩ := h.sent hsent
    unfold afterTx at htx
    rw [hlast, hdelay, h.security] at htx
    constructor
    · rintro rfl
      exact htx
    · rintro rfl
      exact htx
  · obtain ⟨retry, hretry, hle⟩ := h.failed hfailed
    exact Nat.le_trans hle (retry_le_of_canTransmit hready hretry)
  · unfold afterRx at hrx
    rw [h.security, hplus1, h.heard hheard] at hrx
    exact hrx
  · have hend : a.windowEnd? = some (before + pollWindow) := by
      unfold windowEnd?
      rw [h.security, hplus1, h.heard hheard, h.polled hpolled]
    exact hwindow _ hend

end Knows

end Arbiter

/-! ## Runs -/

namespace Engine

variable {σ : Type}

/-- What an operation does to the bus.  A start whose greeting is refused does not count. -/
def trafficOf (e : Engine) : Operation σ → List Traffic
  | .start _ _ now => if e.isPlus2 && !e.queue.fits greeting then [] else [.started now]
  | .byte byte now => .heard now :: if (e.inbound? byte now).any Inbound.isPoll then [.polled] else []
  | _ => []

theorem arbiter_after [Storage σ] (e : Engine) (o : Operation σ) :
    (e.after o).arbiter = (e.trafficOf o).foldl Arbiter.note e.arbiter := by
  refine (congrArg Agenda.arbiter (e.agenda_after o)).trans ?_
  cases o with
  | start store entropy now =>
    rw [agendaAfter, trafficOf]
    split <;> rfl
  | byte byte now =>
    rw [agendaAfter, trafficOf]
    cases e.inbound? byte now with
    | none => rfl
    | some x =>
      rw [Option.map_some, Option.getD_some, Option.any_some]
      cases hpoll : x.isPoll with
      | true =>
        show ({ e.arbiter.noteRx now with wallPanel := (e.arbiter.noteRx now).wallPanel || x.isPoll } : Arbiter) = _
        rw [hpoll, Bool.or_true]
        rfl
      | false => exact congrArg Agenda.arbiter (Agenda.hear_of_not_poll _ hpoll)
  | request r | call r => cases r <;> rfl
  | _ => rfl

/-- No operation attempts to send. -/
theorem allows_of_mem_trafficOf {e : Engine} {o : Operation σ} {y : Traffic} (h : y ∈ e.trafficOf o) (a : Arbiter) :
    a.Allows y := by
  cases o with
  | start store entropy now =>
    rw [trafficOf] at h
    split at h
    · contradiction
    · obtain rfl := List.mem_singleton.mp h
      trivial
  | byte byte now =>
    rw [trafficOf] at h
    rcases List.mem_cons.mp h with rfl | hpolled
    · trivial
    · split at hpolled
      · obtain rfl := List.mem_singleton.mp hpolled
        trivial
      · contradiction
  | _ => contradiction

end Engine

namespace Session

variable {β σ : Type} [Bus β] (s : Session)

/-- What a step does to the bus.  The length of a frame is that of the rows that the step adds. -/
def trafficOf : Step β σ → List Traffic
  | .operation o => s.engine.trafficOf o
  | .transmit bus now =>
    match (s.engine.transmitNext bus now).1, s.engine.queue.front? with
    | .ok (some _), some a =>
      [.sent now ((s.transmit bus now).rows.drop s.rows.length).flatten.length a.postDelay]
    | .error _, _ => [.failed now]
    | _, _ => []

/-- A try to send notes what comes of it, and attempts only what it may. -/
theorem arbiter_transmit {s : Session} (hsound : Sound s) (bus : β) (now : Nat) :
    (s.transmit bus now).engine.arbiter =
        (s.trafficOf (.transmit bus now : Step β σ)).foldl Arbiter.note s.engine.arbiter ∧
      (s.trafficOf (.transmit bus now : Step β σ) = [] ∨
        ∃ y, s.trafficOf (.transmit bus now : Step β σ) = [y] ∧ s.engine.arbiter.Allows y) := by
  have hcase := hsound.tryCase bus now
  have hrows := hsound.transmit_cases bus now
  rw [trafficOf]
  generalize (s.engine.transmitNext bus now).1 = answer at hcase hrows ⊢
  generalize hafter : s.transmit bus now = x at hcase hrows ⊢
  obtain ⟨e, accepted, sent, rows, revoked, cleared⟩ := x
  dsimp only at hcase hrows ⊢
  cases hcase with
  | waits hwaits => exact ⟨rfl, .inl rfl⟩
  | failed hfront hready cause events => exact ⟨rfl, .inr ⟨_, rfl, hready⟩⟩
  | @sent a row hfront hready hrow =>
    have hwritten : rows = s.rows ++ [row] := by
      rcases hrows with ⟨_, _, hnone, -⟩ | ⟨a', rest, row', arbiter, hqueue, hrow', -, hsent⟩
      · exact absurd rfl (hnone a.packet)
      · have hfront' : s.engine.queue.front? = some a' := congrArg List.head? hqueue
        obtain rfl : a' = a := Option.some.inj (hfront'.symm.trans hfront)
        obtain rfl : row' = row := Except.ok.inj (hrow'.symm.trans hrow)
        exact congrArg Session.rows hsent
    rw [hfront]
    dsimp only
    rw [hwritten, List.drop_left, List.flatten_singleton]
    exact ⟨rfl, .inr ⟨_, rfl, hready⟩⟩

variable [Storage σ]

/-- What a run does to the bus, in order. -/
def traffic (s : Session) : List (Step β σ) → List Traffic
  | [] => []
  | step :: steps => s.trafficOf step ++ (s.take step).traffic steps

/-- **The arbiter remembers what still counts**, along any run. -/
theorem knows_run {s : Session} (hsound : Sound s) {security : Security} {log : List Traffic}
    (h : s.engine.arbiter.Knows security log) (steps : List (Step β σ)) :
    (s.run steps).engine.arbiter.Knows security (log ++ s.traffic steps) := by
  induction steps generalizing s log with
  | nil =>
    rw [traffic, List.append_nil]
    exact h
  | cons step steps ih =>
    have hstep : (s.take step).engine.arbiter.Knows security (log ++ s.trafficOf step) := by
      cases step with
      | operation o =>
        show (s.engine.after o).arbiter.Knows security _
        rw [s.engine.arbiter_after o]
        exact h.foldl fun y hy b => Engine.allows_of_mem_trafficOf hy b
      | transmit bus now =>
        obtain ⟨harbiter, hnone | ⟨y, hone, hallows⟩⟩ := arbiter_transmit (σ := σ) hsound bus now
        · show (s.transmit bus now).engine.arbiter.Knows security _
          rw [harbiter, hnone, List.append_nil]
          exact h
        · show (s.transmit bus now).engine.arbiter.Knows security _
          rw [harbiter, hone]
          exact h.note hallows
    rw [traffic, ← List.append_assoc]
    exact ih (hsound.take step) hstep

end Session

/-- **Attempts to send keep their distance.**  In any run of a new engine, with times of any values and any answers of
the bus, an attempt at time `t` that does not wait

* comes after the airtime and the quiet time of the last frame that went out; on Security+ 1.0 that quiet time is at
  least 20 ms, and the attempt comes later than its end;
* comes at least 20 ms after every failed attempt since that frame;
* on Security+ 1.0 comes more than 20 ms after the last byte, and once a status record was received, at most 200 ms
  after it. -/
theorem attempts_keep_distance {β σ : Type} [Bus β] [Storage σ] {settings : Settings} {steps : List (Step β σ)}
    {bus : β} {t : Nat}
    (hattempt : (((Session.new settings).run steps).engine.transmitNext bus t).1 ≠ .ok none) :
    let airtime := ({ security := settings.security } : Arbiter).airtime
    let log := (Session.new settings).traffic steps
    (∀ t₁ length postDelay, Traffic.Stands Traffic.isSent (.sent t₁ length postDelay) log →
      (settings.security = .plus2 → t₁ + airtime length + postDelay ≤ t) ∧
      (settings.security = .plus1 → t₁ + airtime length + max postDelay 20 < t)) ∧
    (∀ t₁, Traffic.Stands Traffic.isSent (.failed t₁) log → t₁ + 20 ≤ t) ∧
    (settings.security = .plus1 → ∀ r, Traffic.Stands Traffic.isHeard (.heard r) log →
      r + 20 < t ∧ (.polled ∈ log → t ≤ r + 200)) := by
  have hsound : Sound ((Session.new settings).run steps) := (Sound.new settings).run steps
  have hknows : Arbiter.Knows _ settings.security ([] ++ _) :=
    Session.knows_run (Sound.new settings) (Arbiter.Knows.nil _) steps
  have hready := (hsound.tryCase bus t).canTransmit hattempt
  have hairtime : ((Session.new settings).run steps).engine.arbiter.airtime =
      ({ security := settings.security } : Arbiter).airtime := by
    funext length
    unfold Arbiter.airtime
    rw [hknows.security]
  have hspaced := hknows.spaced hready
  rw [List.nil_append, hairtime] at hspaced
  exact hspaced

/-- Two polls of a wall console: a press goes out after the first, and the release meets a busy line after the second. -/
def polledSteps : List (Step BusScript MemoryStore) :=
  [.operation (.byte 0x38 100), .operation (.byte 0x52 101), .operation (.request (.light true)), .transmit {} 130,
    .operation (.byte 0x38 400), .operation (.byte 0x52 401), .transmit { busy := [true] } 430]

theorem traffic_polledSteps : (Session.new { security := .plus1 }).traffic polledSteps =
    [.heard 100, .heard 101, .polled, .sent 130 1 250, .heard 400, .heard 401, .polled, .failed 430] := by
  decide +kernel

/-- The release is tried again 30 ms later. -/
theorem attempts_keep_distance_polled :
    130 + ({ security := .plus1 } : Arbiter).airtime 1 + max 250 20 < 460 ∧ 430 + 20 ≤ 460 ∧ 401 + 20 < 460 ∧
      460 ≤ 401 + 200 := by
  have hattempt : (((Session.new { security := .plus1 }).run polledSteps).engine.transmitNext ({} : BusScript) 460).1 ≠
      .ok none := by decide +kernel
  obtain ⟨hsent, hfailed, hheard⟩ := attempts_keep_distance hattempt
  rw [traffic_polledSteps] at hsent hfailed hheard
  have hlast := (hsent 130 1 250 ⟨[.heard 100, .heard 101, .polled],
    [.heard 400, .heard 401, .polled, .failed 430], rfl, by decide⟩).2 rfl
  have hretry := hfailed 430 ⟨[.heard 100, .heard 101, .polled, .sent 130 1 250, .heard 400, .heard 401, .polled], [],
    rfl, by decide⟩
  obtain ⟨hquiet, hwindow⟩ := hheard rfl 401 ⟨[.heard 100, .heard 101, .polled, .sent 130 1 250, .heard 400],
    [.polled, .failed 430], rfl, by decide⟩
  exact ⟨hlast, hretry, hquiet, hwindow (by decide)⟩

end DoorBridge
