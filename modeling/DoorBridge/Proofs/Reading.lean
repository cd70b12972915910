import DoorBridge.Proofs.Engine.Ears
import DoorBridge.Proofs.Frame.Stream

/-!
# Proofs.Reading — timeouts between the bytes do not change what is read

A timer may drop a partial frame or record that is overdue before the next byte finds it so.  Dropping it early is no
different: the reader is the same after the next byte, and so is what the byte completes (`feed_expire`).  So what a row of
bytes says is a function of the bytes and their times alone (`inboundOf`), and every reader that has taken them, with timeouts
in between, is the reader that has met no timer with one timeout behind it (`Follows`).
-/

namespace DoorBridge

/-! ## Frames -/

namespace FrameReader

variable {r : FrameReader} {t now : Nat}

theorem isOverdue_mono (h : t ≤ now) (hoverdue : r.isOverdue t = true) : r.isOverdue now = true := by
  unfold isOverdue at hoverdue ⊢
  split at hoverdue
  · exact decide_eq_true (Nat.lt_of_lt_of_le (of_decide_eq_true hoverdue) h)
  · contradiction

/-- Of two timeouts the later one counts. -/
theorem expire_expire (h : t ≤ now) : (r.expire t).expire now = r.expire now := by
  cases hoverdue : r.isOverdue t with
  | false => rw [expire_of_not_overdue hoverdue]
  | true =>
    have hreset : r.expire t = r.reset := if_pos hoverdue
    have hlater : r.expire now = r.reset := if_pos (isOverdue_mono h hoverdue)
    have hrest : r.reset.isOverdue now = false := rfl
    rw [hreset, hlater, expire_of_not_overdue hrest]

theorem expire_zero (r : FrameReader) : r.expire 0 = r := by
  apply expire_of_not_overdue
  unfold isOverdue
  split
  · exact decide_eq_false (Nat.not_lt_zero _)
  · rfl

/-- A timeout before a byte changes neither the reader after the byte nor the frame that the byte completes. -/
theorem feed_expire (h : t ≤ now) (byte : UInt8) :
    framesOf [((r.expire t).feed byte now).1] = framesOf [(r.feed byte now).1] ∧
      ((r.expire t).feed byte now).2 = (r.feed byte now).2 := by
  cases hoverdue : r.isOverdue t with
  | false =>
    rw [expire_of_not_overdue hoverdue]
    exact ⟨rfl, rfl⟩
  | true =>
    have hreset : r.expire t = r.reset := if_pos hoverdue
    rw [hreset, feed_overdue (isOverdue_mono h hoverdue), feed_scanning (r := r.reset) rfl]
    exact ⟨rfl, rfl⟩

end FrameReader

/-! ## Records -/

namespace RecordReader

/-- The answers to a row of bytes, each with its time, and the reader after it. -/
def feedAll (r : RecordReader) : List (UInt8 × Nat) → List (Except RecordError (Option Record)) × RecordReader
  | [] => ([], r)
  | x :: bytes =>
    let rest := (r.feed x.1 x.2).2.feedAll bytes
    ((r.feed x.1 x.2).1 :: rest.1, rest.2)

theorem feedAll_append (r : RecordReader) (bytes more : List (UInt8 × Nat)) :
    r.feedAll (bytes ++ more) =
      ((r.feedAll bytes).1 ++ ((r.feedAll bytes).2.feedAll more).1, ((r.feedAll bytes).2.feedAll more).2) := by
  induction bytes generalizing r with
  | nil => rfl
  | cons x bytes ih => rw [List.cons_append, feedAll, ih, feedAll, List.cons_append]

/-- The records among some answers. -/
def recordsOf (answers : List (Except RecordError (Option Record))) : List Record :=
  answers.filterMap fun
    | .ok record? => record?
    | .error _ => none

variable {r : RecordReader} {t now : Nat}

theorem expire_of_not_overdue (h : r.isOverdue now = false) : r.expire now = r := by
  rw [expire, h]
  rfl

theorem isOverdue_mono (h : t ≤ now) (hoverdue : r.isOverdue t = true) : r.isOverdue now = true := by
  unfold isOverdue at hoverdue ⊢
  split at hoverdue
  · exact decide_eq_true (Nat.lt_of_lt_of_le (of_decide_eq_true hoverdue) h)
  · contradiction

/-- Of two timeouts the later one counts. -/
theorem expire_expire (h : t ≤ now) : (r.expire t).expire now = r.expire now := by
  cases hoverdue : r.isOverdue t with
  | false => rw [expire_of_not_overdue hoverdue]
  | true =>
    have hdropped : r.expire t = { r with key? := none } := if_pos hoverdue
    have hlater : r.expire now = { r with key? := none } := if_pos (isOverdue_mono h hoverdue)
    have hrest : isOverdue { r with key? := none } now = false := rfl
    rw [hdropped, hlater, expire_of_not_overdue hrest]

theorem expire_zero (r : RecordReader) : r.expire 0 = r := by
  apply expire_of_not_overdue
  unfold isOverdue
  split
  · exact decide_eq_false (Nat.not_lt_zero _)
  · rfl

/-- A timeout before a byte changes nothing. -/
theorem feed_expire (h : t ≤ now) (byte : UInt8) : (r.expire t).feed byte now = r.feed byte now := by
  unfold feed
  rw [expire_expire h]

end RecordReader

/-! ## What a row of bytes says -/

/-- The packet that a frame carries, if it decodes. -/
def Frame.inbound? (frame : Frame) : Option Inbound :=
  match Message.decode frame with
  | .ok m => some (.packet m.packet)
  | .error _ => none

/-- The packets or records that a row of bytes carries, read without any timer. -/
def inboundOf (security : Security) (bytes : List (UInt8 × Nat)) : List Inbound :=
  match security with
  | .plus2 => (FrameReader.framesOf (({} : FrameReader).feedAll bytes).1).filterMap Frame.inbound?
  | .plus1 => (RecordReader.recordsOf (({} : RecordReader).feedAll bytes).1).map .record

/-- The protocol of what was received. -/
def Inbound.security : Inbound → Security
  | packet _ => .plus2
  | record _ => .plus1

namespace Engine

/-- What a byte completes is in the protocol in use. -/
theorem security_of_inbound? {e : Engine} {byte : UInt8} {now : Nat} {x : Inbound}
    (h : e.inbound? byte now = some x) : x.security = e.settings.security := by
  unfold inbound? at h
  split at h
  · next hsecurity =>
    split at h
    · split at h
      · rw [← Option.some.inj h, hsecurity]
        rfl
      · contradiction
    · contradiction
  · next hsecurity =>
    split at h
    · rw [← Option.some.inj h, hsecurity]
      rfl
    · contradiction

theorem inbound?_plus2 {e : Engine} (hplus2 : e.settings.security = .plus2) (byte : UInt8) (now : Nat) :
    (e.inbound? byte now).toList =
      (FrameReader.framesOf [(e.frames.feed byte now).1]).filterMap Frame.inbound? := by
  rw [inbound?, hplus2]
  dsimp only
  generalize (e.frames.feed byte now).1 = answer
  cases answer with
  | error cause => rfl
  | ok found =>
    cases found with
    | none => rfl
    | some frame =>
      have hone : FrameReader.framesOf [.ok (some frame)] = [frame] := rfl
      rw [hone]
      dsimp only
      unfold Frame.inbound?
      cases hdecode : Message.decode frame <;> simp [hdecode]

theorem inbound?_plus1 {e : Engine} (hplus1 : e.settings.security = .plus1) (byte : UInt8) (now : Nat) :
    (e.inbound? byte now).toList = (RecordReader.recordsOf [(e.records.feed byte now).1]).map .record := by
  rw [inbound?, hplus1]
  dsimp only
  generalize (e.records.feed byte now).1 = answer
  cases answer with
  | error cause => rfl
  | ok found => cases found <;> rfl

end Engine

/-! ## Readers that have taken a row of bytes -/

/-- The reader in use has taken a row of bytes, with timeouts up to a time in between. -/
def Ears.Follows (h : Ears) (bytes : List (UInt8 × Nat)) (clock : Nat) : Prop :=
  match h.security with
  | .plus2 => ∃ t ≤ clock, h.frames = (({} : FrameReader).feedAll bytes).2.expire t
  | .plus1 => ∃ t ≤ clock, h.records = (({} : RecordReader).feedAll bytes).2.expire t

namespace Ears.Follows

variable {h h' : Ears} {bytes : List (UInt8 × Nat)} {clock now : Nat}

theorem plus2_iff (hplus2 : h.security = .plus2) : h.Follows bytes clock ↔
    ∃ t ≤ clock, h.frames = (({} : FrameReader).feedAll bytes).2.expire t := by
  rw [Follows, hplus2]

theorem plus1_iff (hplus1 : h.security = .plus1) : h.Follows bytes clock ↔
    ∃ t ≤ clock, h.records = (({} : RecordReader).feedAll bytes).2.expire t := by
  rw [Follows, hplus1]

theorem new (settings : Settings) : (Engine.new settings).ears.Follows [] 0 := by
  unfold Follows
  split
  · exact ⟨0, Nat.le_refl 0, (FrameReader.expire_zero _).symm⟩
  · exact ⟨0, Nat.le_refl 0, (RecordReader.expire_zero _).symm⟩

/-- Only the readers count. -/
theorem of_same (hfollows : h.Follows bytes clock) (hsecurity : h'.security = h.security) (hframes : h'.frames = h.frames)
    (hrecords : h'.records = h.records) (hclock : clock ≤ now) : h'.Follows bytes now := by
  unfold Follows at hfollows ⊢
  rw [hsecurity, hframes, hrecords]
  split at hfollows
  all_goals
    obtain ⟨t, ht, hreader⟩ := hfollows
    exact ⟨t, ht.trans hclock, hreader⟩

theorem expire (hfollows : h.Follows bytes clock) (hclock : clock ≤ now) : (h.expire now).Follows bytes now := by
  have hsame : (h.expire now).security = h.security := rfl
  cases hsecurity : h.security with
  | plus2 =>
    obtain ⟨t, ht, hreader⟩ := (plus2_iff hsecurity).mp hfollows
    refine (plus2_iff (hsame.trans hsecurity)).mpr ⟨now, Nat.le_refl now, ?_⟩
    unfold Ears.expire
    rw [hreader, FrameReader.expire_expire (ht.trans hclock)]
  | plus1 =>
    obtain ⟨t, ht, hreader⟩ := (plus1_iff hsecurity).mp hfollows
    refine (plus1_iff (hsame.trans hsecurity)).mpr ⟨now, Nat.le_refl now, ?_⟩
    unfold Ears.expire
    rw [hreader, RecordReader.expire_expire (ht.trans hclock)]

theorem feed (hfollows : h.Follows bytes clock) (hclock : clock ≤ now) (byte : UInt8) :
    (h.feed byte now).Follows (bytes ++ [(byte, now)]) now := by
  cases hsecurity : h.security with
  | plus2 =>
    obtain ⟨t, ht, hreader⟩ := (plus2_iff hsecurity).mp hfollows
    have hfed : h.feed byte now = { h with frames := (h.frames.feed byte now).2 } := by rw [Ears.feed, hsecurity]
    have hsame : (h.feed byte now).security = .plus2 := by rw [hfed, hsecurity]
    refine (plus2_iff hsame).mpr ⟨0, Nat.zero_le now, ?_⟩
    rw [hfed, FrameReader.expire_zero, FrameReader.feedAll_append, hreader]
    exact (FrameReader.feed_expire (ht.trans hclock) byte).2
  | plus1 =>
    obtain ⟨t, ht, hreader⟩ := (plus1_iff hsecurity).mp hfollows
    have hfed : h.feed byte now = { h with records := (h.records.feed byte now).2 } := by rw [Ears.feed, hsecurity]
    have hsame : (h.feed byte now).security = .plus1 := by rw [hfed, hsecurity]
    refine (plus1_iff hsame).mpr ⟨0, Nat.zero_le now, ?_⟩
    rw [hfed, RecordReader.expire_zero, RecordReader.feedAll_append, hreader]
    exact congrArg Prod.snd (RecordReader.feed_expire (ht.trans hclock) byte)

/-- **What the engine takes from a byte is what the row says with the byte.** -/
theorem inboundOf_concat {e : Engine} (hfollows : e.ears.Follows bytes clock) (hclock : clock ≤ now) (byte : UInt8) :
    inboundOf e.settings.security (bytes ++ [(byte, now)]) =
      inboundOf e.settings.security bytes ++ (e.inbound? byte now).toList := by
  cases hsecurity : e.settings.security with
  | plus2 =>
    obtain ⟨t, ht, hreader⟩ := (plus2_iff (h := e.ears) hsecurity).mp hfollows
    have hframes : e.frames = (({} : FrameReader).feedAll bytes).2.expire t := hreader
    have hread := (FrameReader.feed_expire (r := (({} : FrameReader).feedAll bytes).2) (ht.trans hclock) byte).1
    rw [Engine.inbound?_plus2 hsecurity, hframes, hread, inboundOf, inboundOf, FrameReader.feedAll_append,
      FrameReader.framesOf, List.filterMap_append, List.filterMap_append]
    rfl
  | plus1 =>
    obtain ⟨t, ht, hreader⟩ := (plus1_iff (h := e.ears) hsecurity).mp hfollows
    have hrecords : e.records = (({} : RecordReader).feedAll bytes).2.expire t := hreader
    rw [Engine.inbound?_plus1 hsecurity, hrecords, RecordReader.feed_expire (ht.trans hclock), inboundOf, inboundOf,
      RecordReader.feedAll_append, RecordReader.recordsOf, List.filterMap_append, List.map_append]
    rfl

end Ears.Follows

end DoorBridge
