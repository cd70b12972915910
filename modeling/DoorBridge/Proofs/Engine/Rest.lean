import DoorBridge.Proofs.Engine.Tries
import DoorBridge.Proofs.Reading

/-!
# Proofs.Engine.Rest — when servicing has nothing to do

* `Engine.Rests` says that a servicing pass has nothing to do: nothing is overdue, the front packet waits, no order is
  pending and no save is due.  Such a pass does nothing at all (`Rests.service`).
* An engine that rests goes on resting until its next wake-up (`Rests.lasts`), which lies in the future
  (`Rests.lt_of_nextWake?`).  The next wake-up watches one reader only, so this needs the other one to hold nothing
  (`Ears.OneReader`).
* What a pass leaves behind: a motion report, a frame and a record that are not overdue (`motionIsOver_expireMotion`,
  `isOverdue_expire`), and a flush with nothing pending (`pending_flush`) and no save due (`needsSave_flush`).
-/

namespace DoorBridge

/-! ## Partial frames and records -/

theorem FrameReader.isOverdue_eq_false_iff {r : FrameReader} {now : Nat} :
    r.isOverdue now = false ↔ ∀ deadline, r.deadline? = some deadline → now ≤ deadline := by
  unfold isOverdue
  cases r.deadline? <;> simp

theorem FrameReader.isOverdue_expire (r : FrameReader) (now : Nat) : (r.expire now).isOverdue now = false := by
  cases h : r.isOverdue now with
  | true =>
    rw [expire, if_pos h]
    rfl
  | false => rw [expire_of_not_overdue h, h]

/-- A partial frame ends after its last instant. -/
theorem FrameReader.isReceiving_expire {r : FrameReader} {deadline : Nat} (h : r.deadline? = some deadline) :
    r.isReceiving = true ∧ (r.expire (deadline + 1)).isReceiving = false := by
  have hoverdue : r.isOverdue (deadline + 1) = true := by
    rw [isOverdue, h]
    exact decide_eq_true (Nat.lt_succ_self deadline)
  rw [expire, if_pos hoverdue]
  unfold deadline? at h
  split at h
  · next hreceiving => exact ⟨hreceiving, rfl⟩
  · contradiction

theorem RecordReader.isOverdue_eq_false_iff {r : RecordReader} {now : Nat} :
    r.isOverdue now = false ↔ ∀ deadline, r.deadline? = some deadline → now ≤ deadline := by
  unfold isOverdue
  cases r.deadline? <;> simp

theorem RecordReader.isOverdue_expire (r : RecordReader) (now : Nat) : (r.expire now).isOverdue now = false := by
  cases h : r.isOverdue now with
  | true =>
    rw [expire, if_pos h]
    rfl
  | false => rw [expire_of_not_overdue h, h]

/-- A partial record ends after its last instant. -/
theorem RecordReader.key?_expire {r : RecordReader} {deadline : Nat} (h : r.deadline? = some deadline) :
    r.key?.isSome = true ∧ (r.expire (deadline + 1)).key? = none := by
  have hoverdue : r.isOverdue (deadline + 1) = true := by
    rw [isOverdue, h]
    exact decide_eq_true (Nat.lt_succ_self deadline)
  rw [expire, if_pos hoverdue]
  obtain ⟨key, hkey, -⟩ := Option.map_eq_some_iff.mp h
  exact ⟨Option.isSome_of_eq_some hkey, rfl⟩

theorem Door.motionIsOver_eq_false_iff {d : Door} {now : Nat} :
    d.motionIsOver now = false ↔ ∀ deadline, d.motionDeadline? = some deadline → now < deadline := by
  unfold motionIsOver motionDeadline?
  cases d.motion <;> simp

/-- A motion report ends at its deadline. -/
theorem Door.motion_expireMotion {d : Door} {deadline : Nat} (h : d.motionDeadline? = some deadline) :
    d.motion = true ∧ (d.expireMotion deadline).door.motion = false := by
  unfold motionDeadline? at h
  split at h
  · next hmotion =>
    obtain rfl : d.motionDeadline = deadline := Option.some.inj h
    have hover : d.motionIsOver d.motionDeadline = true := by
      rw [motionIsOver, hmotion, Bool.true_and]
      exact decide_eq_true (Nat.le_refl _)
    refine ⟨hmotion, ?_⟩
    show (d.motion && !d.motionIsOver d.motionDeadline) = false
    rw [hover, Bool.not_true, Bool.and_false]
  · contradiction

/-- After its motion report was ended, if it was over, a door has none that is over. -/
theorem Door.motionIsOver_expireMotion (d : Door) (now : Nat) :
    (d.expireMotion now).door.motionIsOver now = false := by
  show ((d.motion && !d.motionIsOver now) && decide (d.motionDeadline ≤ now)) = false
  unfold motionIsOver
  cases d.motion <;> simp

/-! ## One reader -/

/-- The reader of the other protocol holds nothing. -/
structure Ears.OneReader (h : Ears) : Prop where
  records : h.security = .plus2 → h.records.key? = none
  frames : h.security = .plus1 → h.frames.isReceiving = false

namespace Ears.OneReader

variable {h : Ears} (hone : h.OneReader) (now : Nat)

include hone

theorem feed (byte : UInt8) : (h.feed byte now).OneReader := by
  unfold Ears.feed
  cases hsecurity : h.security with
  | plus2 => exact ⟨fun _ => hone.records hsecurity, nofun⟩
  | plus1 => exact ⟨nofun, fun _ => hone.frames hsecurity⟩

theorem hear (x : Inbound) : (h.hear x).OneReader := by
  obtain ⟨last?, mirror, unconfirmed, hsame⟩ := h.hear_eq x
  rw [hsame]
  exact ⟨hone.records, hone.frames⟩

theorem expire : (h.expire now).OneReader where
  records hplus2 := by
    show (h.records.expire now).key? = none
    have hkey := hone.records hplus2
    unfold RecordReader.expire
    split
    · rfl
    · exact hkey
  frames hplus1 := by
    show (h.frames.expire now).isReceiving = false
    unfold FrameReader.expire
    split
    · rfl
    · exact hone.frames hplus1

end Ears.OneReader

/-! ## Rest -/

namespace Engine

/-- Nothing for a servicing pass to do. -/
structure Rests (e : Engine) (now : Nat) : Prop where
  motion : e.door.motionIsOver now = false
  frames : e.frames.isOverdue now = false
  records : e.records.isOverdue now = false
  waits : e.Waits now
  pending : e.pending = {}
  saved : e.isPlus2 = true → e.identity.needsSave = false

namespace Rests

variable {e : Engine} {now : Nat}

theorem tick (h : e.Rests now) : e.tick now = e := by
  have hdoor : e.see (e.door.expireMotion now) = e := by
    unfold see Door.expireMotion
    rw [h.motion, Bool.not_false, Bool.and_true]
    exact congrArg (fun events => { e with events }) (List.append_nil e.events)
  unfold Engine.tick
  rw [hdoor]
  dsimp only
  rw [h.frames, if_neg Bool.false_ne_true, FrameReader.expire_of_not_overdue h.frames, h.records,
    if_neg Bool.false_ne_true, RecordReader.expire_of_not_overdue h.records]

theorem flush {σ : Type} [Storage σ] (h : e.Rests now) (store : σ) : e.flush store = (.ok (), e, store) := by
  have hdue : (e.isPlus2 && (false || e.identity.needsSave)) = false := by
    rw [Bool.false_or]
    cases hplus2 : e.isPlus2 with
    | false => exact Bool.false_and _
    | true =>
      rw [Bool.true_and]
      exact h.saved hplus2
  have hmotion : e.flushMotion store = (none, e, store) := by
    unfold flushMotion
    rw [h.pending, if_neg Bool.false_ne_true]
  have hcounter : e.flushCounter store = (none, e, store) := by
    have htaken : { e with pending := { e.pending with save := false } } = e := by
      have hsame : { e with pending := {} } = e := by rw [← h.pending]
      rw [h.pending]
      exact hsame
    unfold flushCounter
    rw [htaken, h.pending]
    dsimp only
    rw [hdue, if_neg Bool.false_ne_true]
  have hrestart : e.flushRestart = e := by
    unfold flushRestart
    rw [h.pending]
  unfold Engine.flush
  rw [hmotion]
  dsimp only
  rw [hcounter]
  dsimp only
  rw [hrestart, h.pending, if_neg Bool.false_ne_true]
  rfl

/-- **A pass with nothing to do does nothing.** -/
theorem service {β σ : Type} [Bus β] [Storage σ] (h : e.Rests now) (bus : β) (store : σ) :
    e.service bus store now = (e, bus, store) := by
  unfold Engine.service
  rw [h.tick, transmitNext_of_waits h.waits]
  dsimp only
  rw [h.flush]

end Rests

/-! ## The next wake-up -/

theorem earlier?_cases {a b : Option Nat} {w : Nat} (h : earlier? a b = some w) : a = some w ∨ b = some w := by
  cases a with
  | none => exact .inr h
  | some x =>
    cases b with
    | none => exact .inl h
    | some y =>
      obtain rfl : min x y = w := Option.some.inj h
      rcases Nat.le_total x y with hle | hle
      · exact .inl (congrArg some (Nat.min_eq_left hle).symm)
      · exact .inr (congrArg some (Nat.min_eq_right hle).symm)

/-- What comes before the earlier of two times comes before both. -/
theorem lt_of_lt_earlier? {a b : Option Nat} {t : Nat} (h : ∀ w, earlier? a b = some w → t < w) :
    (∀ x, a = some x → t < x) ∧ ∀ y, b = some y → t < y := by
  cases a with
  | none => exact ⟨nofun, h⟩
  | some x =>
    cases b with
    | none => exact ⟨h, nofun⟩
    | some y =>
      have hmin : t < min x y := h _ rfl
      constructor
      · intro w hx
        obtain rfl : x = w := Option.some.inj hx
        omega
      · intro w hy
        obtain rfl : y = w := Option.some.inj hy
        omega

variable (e : Engine) (now : Nat)

/-- When the front packet may start. -/
def sendAt? : Option Nat := if e.queue.isEmpty then none else e.arbiter.readyAt? now

/-- Last instant at which the partial frame or record of the protocol may still go on. -/
def readerDeadline? : Option Nat :=
  match e.settings.security with
  | .plus2 => e.frames.deadline?
  | .plus1 => e.records.deadline?

theorem nextWake?_eq : e.nextWake? now =
    earlier? (earlier? (e.sendAt? now) e.door.motionDeadline?) (e.readerDeadline?.map (· + 1)) := rfl

variable {e now} {t w : Nat}

theorem exists_front_of_sendAt? (h : e.sendAt? now = some w) :
    ∃ a, e.queue.front? = some a ∧ e.arbiter.readyAt? now = some w := by
  unfold sendAt? at h
  split at h
  · contradiction
  · next hsome =>
    cases hactions : e.queue.actions with
    | nil =>
      rw [Queue.isEmpty, hactions] at hsome
      exact absurd rfl hsome
    | cons a rest => exact ⟨a, congrArg List.head? hactions, h⟩

theorem sendAt?_of_front {a : PacketAction} (h : e.queue.front? = some a) : e.sendAt? now = e.arbiter.readyAt? now := by
  obtain ⟨rest, hactions⟩ := List.head?_eq_some_iff.mp h
  unfold sendAt? Queue.isEmpty
  rw [hactions]
  rfl

theorem isOverdue_of_oneReader (h : e.ears.OneReader)
    (hdeadline : ∀ deadline, e.readerDeadline? = some deadline → t ≤ deadline) :
    e.frames.isOverdue t = false ∧ e.records.isOverdue t = false := by
  unfold readerDeadline? at hdeadline
  rw [FrameReader.isOverdue_eq_false_iff, RecordReader.isOverdue_eq_false_iff]
  cases hsecurity : e.settings.security with
  | plus2 =>
    rw [hsecurity] at hdeadline
    have hkey : e.records.key? = none := h.records hsecurity
    have hnone : e.records.deadline? = none := by rw [RecordReader.deadline?, hkey, Option.map_none]
    rw [hnone]
    exact ⟨hdeadline, nofun⟩
  | plus1 =>
    rw [hsecurity] at hdeadline
    have hidle : e.frames.isReceiving = false := h.frames hsecurity
    have hnone : e.frames.deadline? = none := by rw [FrameReader.deadline?, hidle, if_neg Bool.false_ne_true]
    rw [hnone]
    exact ⟨nofun, hdeadline⟩

namespace Rests

theorem le_readerDeadline? (h : e.Rests now) {deadline : Nat} (hdeadline : e.readerDeadline? = some deadline) :
    now ≤ deadline := by
  unfold readerDeadline? at hdeadline
  split at hdeadline
  · exact FrameReader.isOverdue_eq_false_iff.mp h.frames deadline hdeadline
  · exact RecordReader.isOverdue_eq_false_iff.mp h.records deadline hdeadline

/-- **The next wake-up lies in the future.** -/
theorem lt_of_nextWake? (h : e.Rests now) (hwake : e.nextWake? now = some w) : now < w := by
  rw [nextWake?_eq] at hwake
  rcases earlier?_cases hwake with hwake | hreader
  · rcases earlier?_cases hwake with hsend | hmotion
    · obtain ⟨a, hfront, hready⟩ := exists_front_of_sendAt? hsend
      exact Arbiter.lt_of_readyAt? (h.waits a hfront) hready
    · exact Door.motionIsOver_eq_false_iff.mp h.motion w hmotion
  · obtain ⟨deadline, hdeadline, rfl⟩ := Option.map_eq_some_iff.mp hreader
    exact Nat.lt_succ_of_le (h.le_readerDeadline? hdeadline)

/-- **Until its next wake-up the engine rests.** -/
theorem lasts (h : e.Rests now) (hone : e.ears.OneReader) (hle : now ≤ t)
    (hwake : ∀ w, e.nextWake? now = some w → t < w) : e.Rests t := by
  obtain ⟨hboth, hreader⟩ := lt_of_lt_earlier? hwake
  obtain ⟨hsend, hmotion⟩ := lt_of_lt_earlier? hboth
  obtain ⟨hframes, hrecords⟩ := isOverdue_of_oneReader (t := t) hone fun deadline hdeadline =>
    Nat.le_of_lt_succ (hreader (deadline + 1) (congrArg (Option.map (· + 1)) hdeadline))
  refine ⟨Door.motionIsOver_eq_false_iff.mpr hmotion, hframes, hrecords, fun a hfront => ?_, h.pending, h.saved⟩
  have hready : e.sendAt? now = e.arbiter.readyAt? now := sendAt?_of_front hfront
  exact Arbiter.canTransmit_eq_false hle fun w hw => hsend w (hready.trans hw)

end Rests

/-! ## After a flush -/

section Storing

variable {σ : Type} [Storage σ] (e : Engine) (store : σ)

theorem pending_flushMotion : (e.flushMotion store).2.1.pending = { e.pending with hasMotion := false } := by
  unfold flushMotion
  split
  · dsimp only
    split <;> rfl
  · next hnone =>
    rw [← (Bool.not_eq_true _).mp hnone]

theorem pending_flushCounter : (e.flushCounter store).2.1.pending = { e.pending with save := false } := by
  unfold flushCounter
  dsimp only
  split <;> rfl

theorem pending_flushRestart : e.flushRestart.pending = { e.pending with restart? := none } := by
  unfold flushRestart
  split
  · rfl
  · next hnone => rw [← hnone]

/-- A flush leaves nothing pending, whatever fails on the way. -/
theorem pending_flush : (e.flush store).2.1.pending = {} := by
  unfold flush
  by_cases hreset : e.pending.reset = true
  · rw [if_pos hreset]
    rfl
  · rw [if_neg hreset]
    dsimp only
    rw [pending_flushRestart, pending_flushCounter, pending_flushMotion]
    show ({ reset := e.pending.reset } : Pending) = {}
    rw [(Bool.not_eq_true _).mp hreset]

theorem needsSave_savedIdentity {i : Identity} (h : i.rolling < counterBound) :
    (savedIdentity i).needsSave = false := by
  unfold savedIdentity Identity.needsSave
  dsimp only
  rw [Nat.mod_eq_of_lt h, Nat.add_sub_cancel_left, Nat.mod_self]
  rfl

/-- After a flush without a reset no save is due. -/
theorem needsSave_flush (hreset : e.pending.reset = false) (hcounter : e.identity.rolling < counterBound)
    (hplus2 : e.settings.security = .plus2) : (e.flush store).2.1.identity.needsSave = false := by
  have hidentity := (core_eq_iff.mp (core_flush hplus2 hreset store)).1
  rw [hidentity]
  cases hdue : e.saveIsDue with
  | true => exact needsSave_savedIdentity hcounter
  | false => exact (Bool.or_eq_false_iff.mp hdue).2

end Storing

end Engine

end DoorBridge
