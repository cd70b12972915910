import DoorBridge.Frame.Reader
import DoorBridge.Proofs.Frame.Word
import Mathlib.Data.List.Chain

/-!
# Proofs.Frame.Reader — the reader emits only genuine frames

* `Frame.Marked` frames have the preamble and the frame-type bits; a frame that decodes is marked, and a marked frame
  is never refused for its preamble or its frame-type bits.
* `FeedCase` lists what one byte can do.  `FrameReader.opened` are the bytes of the frame that may be under way; a byte
  adds itself to them, or begins them anew, or ends them (`opened_feed`).
* `Trail` says that the latest calls fed certain bytes with no reset and no long pause between them.  The opened bytes
  always leave a trail (`trail_run`), and so does a frame that is emitted (`frames_genuine`).
-/

namespace DoorBridge

/-! ## Marks of a frame -/

/-- A frame with the preamble and the frame-type bits of both halves. -/
structure Frame.Marked (f : Frame) : Prop where
  opening : f.bytes.take 3 = preamble
  first : f.bytes[3]?.map (·.toNat / 64) = some 0
  second : f.bytes[11]?.map (·.toNat / 64) = some 1

/-- The first two bits of a row of bytes are the top bits of its first byte. -/
theorem take_two_bitsOfBytes (b : UInt8) (bytes : List UInt8) :
    (bitsOfBytes (b :: bytes)).take 2 = bitsOf 2 (b.toNat / 64) := by
  have hbit : ∀ i, (b.toNat / 2 ^ 6).testBit i = b.toNat.testBit (i + 6) := Nat.testBit_div_two_pow b.toNat
  rw [bitsOfBytes_cons]
  show [b.toNat.testBit 7, b.toNat.testBit 6] = [(b.toNat / 2 ^ 6).testBit 1, (b.toNat / 2 ^ 6).testBit 0]
  rw [hbit, hbit]

/-- Two bits of a number below four spell the number. -/
theorem bitsOf_two_eq_iff {v : Nat} (hv : v < 4) {header : List Bool} (hheader : header.length = 2) :
    bitsOf 2 v = header ↔ v = ofBits header := by
  constructor
  · rintro rfl
    exact (ofBits_bitsOf hv).symm
  · rintro rfl
    exact bitsOf_ofBits_of_length hheader

namespace Frame

variable {f : Frame}

theorem take_two_bitsOfBytes_drop {i : Nat} (hi : i < 19) {n : Nat} {header : List Bool} (hheader : header.length = 2) :
    (bitsOfBytes ((f.bytes.drop i).take (n + 1))).take 2 = header ↔
      f.bytes[i]?.map (·.toNat / 64) = some (ofBits header) := by
  have hlength : i < f.bytes.length := f.length_bytes.symm ▸ hi
  have hbyte : f.bytes[i].toNat < 256 := f.bytes[i].toNat_lt
  rw [List.drop_eq_getElem_cons hlength, List.take_succ_cons, take_two_bitsOfBytes,
    bitsOf_two_eq_iff (by omega) hheader, List.getElem?_eq_getElem hlength, Option.map_some, Option.some.injEq]

theorem take_two_firstHalf :
    f.firstHalf.take 2 = firstHeader ↔ f.bytes[3]?.map (·.toNat / 64) = some 0 :=
  take_two_bitsOfBytes_drop (by decide) rfl

theorem take_two_secondHalf :
    f.secondHalf.take 2 = secondHeader ↔ f.bytes[11]?.map (·.toNat / 64) = some 1 := by
  have hall : f.bytes.drop 11 = (f.bytes.drop 11).take 8 :=
    (List.take_of_length_le (by rw [List.length_drop, f.length_bytes])).symm
  rw [secondHalf, hall]
  exact take_two_bitsOfBytes_drop (by decide) rfl

/-- A frame that decodes is marked. -/
theorem marked_of_decode {w : Word} (h : Word.decode f = .ok w) : f.Marked := by
  obtain ⟨first, second, hreading⟩ := Word.exists_reading h
  exact ⟨hreading.opening, take_two_firstHalf.mp (Half.exists_scramble_of_decode hreading.firstHalf).1,
    take_two_secondHalf.mp (Half.exists_scramble_of_decode hreading.secondHalf).1⟩

end Frame

/-- A half with the right frame-type bits is refused only for its digits or its indicator. -/
theorem Half.cause_of_decode {header bits : List Bool} {cause : FrameError} (h : bits.take 2 = header)
    (hd : decode header bits = .error cause) : cause = .invalidTrit ∨ cause = .indicatorMismatch := by
  rw [decode, if_neg (not_not.mpr h)] at hd
  dsimp only at hd
  split at hd
  · exact .inl (Except.error.inj hd).symm
  · split at hd
    · exact .inr (Except.error.inj hd).symm
    · cases hd

theorem cause_of_counterOfHalves {first second : List Bool} {cause : FrameError}
    (h : counterOfHalves first second = .error cause) : cause = .invalidTrit := by
  rw [counterOfHalves] at h
  split at h
  · dsimp only at h
    split at h
    · cases h
    · exact (Except.error.inj h).symm
  · exact (Except.error.inj h).symm

/-- **A marked frame is refused only for its digits, an indicator or its parity**, and so never for its preamble or its
frame-type bits. -/
theorem Frame.Marked.cause_of_decode {f : Frame} (hmarked : f.Marked) {cause : FrameError}
    (h : Word.decode f = .error cause) : cause = .invalidTrit ∨ cause = .indicatorMismatch ∨ cause = .parity := by
  rw [Word.decode, if_neg (not_not.mpr hmarked.opening)] at h
  cases h1 : Half.decode firstHeader f.firstHalf with
  | error cause1 =>
    simp only [h1, bind, Except.bind, Except.error.injEq] at h
    subst h
    exact (Half.cause_of_decode (Frame.take_two_firstHalf.mpr hmarked.first) h1).imp_right .inl
  | ok first =>
    cases h2 : Half.decode secondHeader f.secondHalf with
    | error cause2 =>
      simp only [h1, h2, bind, Except.bind, Except.error.injEq] at h
      subst h
      exact (Half.cause_of_decode (Frame.take_two_secondHalf.mpr hmarked.second) h2).imp_right .inl
    | ok second =>
      simp only [h1, h2, bind, Except.bind] at h
      split at h
      · exact .inr (.inr (Except.error.inj h).symm)
      · cases hr : counterOfHalves first.digits second.digits with
        | error cause3 =>
          simp only [hr, Except.error.injEq] at h
          subst h
          exact .inl (cause_of_counterOfHalves hr)
        | ok rolling => simp [hr] at h

namespace FrameReader

/-! ## One byte -/

/-- What one byte can do to a reader: the answer and the reader after it. -/
inductive FeedCase (r : FrameReader) (byte : UInt8) (now : Nat) :
    Except FrameError (Option Frame) → FrameReader → Prop
  | overdue (h : r.isOverdue now = true) : FeedCase r byte now (.error .timeout) ⟨scan 0 0 byte, now⟩
  | scanned {older newer : UInt8} (h : r.phase = .scanning older newer) :
      FeedCase r byte now (.ok none) ⟨scan older newer byte, now⟩
  | refused {taken : List UInt8} (h : r.phase = .receiving taken) (hpause : now ≤ r.lastByte + frameTimeout)
      (hheader : headerFits taken.length byte = false) :
      FeedCase r byte now (.error .badHeader) ⟨scan 0 0 byte, now⟩
  | stored {taken : List UInt8} (h : r.phase = .receiving taken) (hpause : now ≤ r.lastByte + frameTimeout)
      (hheader : headerFits taken.length byte = true) (hpart : taken.length ≠ 18) :
      FeedCase r byte now (.ok none) ⟨.receiving (taken ++ [byte]), now⟩
  | completed {taken : List UInt8} {frame : Frame} (h : r.phase = .receiving taken)
      (hpause : now ≤ r.lastByte + frameTimeout) (hheader : headerFits taken.length byte = true)
      (hbytes : frame.bytes = taken ++ [byte]) :
      FeedCase r byte now (.ok (some frame)) ⟨.scanning 0 0, now⟩

section Feed

variable {r : FrameReader} {taken : List UInt8} {older newer byte : UInt8} {now : Nat}

theorem isOverdue_scanning (h : r.phase = .scanning older newer) : r.isOverdue now = false := by
  rw [isOverdue, deadline?, isReceiving, h]
  rfl

theorem isOverdue_receiving (h : r.phase = .receiving taken) :
    r.isOverdue now = decide (r.lastByte + frameTimeout < now) := by
  rw [isOverdue, deadline?, isReceiving, h]
  rfl

theorem expire_of_not_overdue (h : r.isOverdue now = false) : r.expire now = r := by
  rw [expire, h]
  rfl

theorem expire_of_pause (h : r.phase = .receiving taken) (hpause : now ≤ r.lastByte + frameTimeout) :
    r.expire now = r := by
  apply expire_of_not_overdue
  rw [isOverdue_receiving h]
  exact decide_eq_false (Nat.not_lt_of_le hpause)

theorem feed_overdue (h : r.isOverdue now = true) (byte : UInt8) :
    r.feed byte now = (.error .timeout, ⟨scan 0 0 byte, now⟩) := by
  simp only [feed, expire, h, if_true, reset]

theorem feed_scanning (h : r.phase = .scanning older newer) (byte : UInt8) (now : Nat) :
    r.feed byte now = (.ok none, ⟨scan older newer byte, now⟩) := by
  have hoverdue : r.isOverdue now = false := isOverdue_scanning h
  simp only [feed, expire_of_not_overdue hoverdue, hoverdue, h, Bool.false_eq_true, if_false]

theorem feed_refused (h : r.phase = .receiving taken) (hpause : now ≤ r.lastByte + frameTimeout)
    (hheader : headerFits taken.length byte = false) :
    r.feed byte now = (.error .badHeader, ⟨scan 0 0 byte, now⟩) := by
  simp only [feed, expire_of_pause h hpause, h, hheader, Bool.false_eq_true, if_false]

theorem feed_stored (h : r.phase = .receiving taken) (hpause : now ≤ r.lastByte + frameTimeout)
    (hheader : headerFits taken.length byte = true) (hpart : taken.length ≠ 18) :
    r.feed byte now = (.ok none, ⟨.receiving (taken ++ [byte]), now⟩) := by
  have hlength : (taken ++ [byte]).length ≠ 19 := by
    rw [List.length_append, List.length_singleton]
    omega
  simp only [feed, expire_of_pause h hpause, h, hheader, if_true, Frame.ofBytes?, dif_neg hlength]

theorem feed_completed (h : r.phase = .receiving taken) (hpause : now ≤ r.lastByte + frameTimeout)
    (hheader : headerFits taken.length byte = true) {frame : Frame} (hbytes : frame.bytes = taken ++ [byte]) :
    r.feed byte now = (.ok (some frame), ⟨.scanning 0 0, now⟩) := by
  have hlength : (taken ++ [byte]).length = 19 := hbytes ▸ frame.length_bytes
  have hframe : (⟨taken ++ [byte], hlength⟩ : Frame) = frame := Frame.ext_bytes hbytes.symm
  simp only [feed, expire_of_pause h hpause, h, hheader, if_true, Frame.ofBytes?, dif_pos hlength, hframe]

end Feed

/-- Every byte does one of these things. -/
theorem feedCase (r : FrameReader) (byte : UInt8) (now : Nat) :
    FeedCase r byte now (r.feed byte now).1 (r.feed byte now).2 := by
  cases hoverdue : r.isOverdue now with
  | true =>
    rw [feed_overdue hoverdue]
    exact .overdue hoverdue
  | false =>
    cases hphase : r.phase with
    | scanning older newer =>
      rw [feed_scanning hphase]
      exact .scanned hphase
    | receiving taken =>
      have hpause : now ≤ r.lastByte + frameTimeout := by
        rw [isOverdue_receiving hphase] at hoverdue
        exact Nat.le_of_not_lt (of_decide_eq_false hoverdue)
      cases hheader : headerFits taken.length byte with
      | false =>
        rw [feed_refused hphase hpause hheader]
        exact .refused hphase hpause hheader
      | true =>
        by_cases hwhole : taken.length = 18
        · have hlength : (taken ++ [byte]).length = 19 := by rw [List.length_append, hwhole, List.length_singleton]
          have hbytes : (⟨taken ++ [byte], hlength⟩ : Frame).bytes = taken ++ [byte] := rfl
          rw [feed_completed hphase hpause hheader hbytes]
          exact .completed hphase hpause hheader hbytes
        · rw [feed_stored hphase hpause hheader hwhole]
          exact .stored hphase hpause hheader hwhole

/-! ## The bytes under way -/

/-- The bytes of a frame so far have the frame-type bits expected of them. -/
def HeadersFit (bytes : List UInt8) : Prop := ∀ (i : Nat) (b : UInt8), bytes[i]? = some b → headerFits i b = true

theorem HeadersFit.concat {bytes : List UInt8} {b : UInt8} (h : HeadersFit bytes)
    (hlast : headerFits bytes.length b = true) : HeadersFit (bytes ++ [b]) := by
  intro i x hx
  rw [List.getElem?_append] at hx
  split at hx
  · exact h i x hx
  next hi =>
    have hmem := List.mem_of_getElem? hx
    obtain rfl : x = b := List.mem_singleton.mp hmem
    obtain rfl : i = bytes.length := by
      have hlength := (List.getElem?_eq_some_iff.mp hx).1
      rw [List.length_singleton] at hlength
      omega
    exact hlast

theorem headersFit_preamble : HeadersFit preamble := by
  intro i b h
  obtain ⟨hi, -⟩ := List.getElem?_eq_some_iff.mp h
  rw [Frame.length_preamble] at hi
  match i, hi with
  | 0, _ | 1, _ | 2, _ => rfl

/-- More bytes do not change the preamble. -/
theorem opening_concat {bytes : List UInt8} (h : bytes.take 3 = preamble) (b : UInt8) :
    (bytes ++ [b]).take 3 = preamble := by
  have hlength : 3 ≤ bytes.length := by
    have := congrArg List.length h
    rw [List.length_take, Frame.length_preamble] at this
    omega
  rw [List.take_append_of_le_length hlength, h]

/-- The frame-type bits of a whole frame are the ones expected. -/
theorem headersFit_iff (f : Frame) : HeadersFit f.bytes ↔
    f.bytes[3]?.map (·.toNat / 64) = some 0 ∧ f.bytes[11]?.map (·.toNat / 64) = some 1 := by
  have hthird : f.bytes[3]? = some (f.bytes.get ⟨3, by rw [f.length_bytes]; decide⟩) := List.getElem?_eq_getElem _
  have heleventh : f.bytes[11]? = some (f.bytes.get ⟨11, by rw [f.length_bytes]; decide⟩) := List.getElem?_eq_getElem _
  rw [hthird, heleventh, Option.map_some, Option.map_some, Option.some.injEq, Option.some.injEq]
  constructor
  · intro h
    exact ⟨of_decide_eq_true (h 3 _ hthird), of_decide_eq_true (h 11 _ heleventh)⟩
  · rintro ⟨hfirst, hsecond⟩ i b hb
    by_cases hi : i = 3
    · subst hi
      obtain rfl := Option.some.inj (hthird.symm.trans hb)
      exact decide_eq_true hfirst
    · by_cases hi' : i = 11
      · subst hi'
        obtain rfl := Option.some.inj (heleventh.symm.trans hb)
        exact decide_eq_true hsecond
      · rw [headerFits]
        · exact hi
        · exact hi'

/-- The bytes of the frame that may be under way: the part of a preamble just seen, or the bytes taken. -/
def Phase.opened : Phase → List UInt8
  | .scanning older newer => if older = 0x55 ∧ newer = 0x01 then [0x55, 0x01] else if newer = 0x55 then [0x55] else []
  | .receiving taken => taken

/-- A partial frame starts with the preamble, has the right frame-type bits and lacks at least a byte. -/
def Phase.Sound : Phase → Prop
  | .scanning .. => True
  | .receiving taken => taken.take 3 = preamble ∧ HeadersFit taken ∧ taken.length < 19

theorem sound_scan (older newer byte : UInt8) : (scan older newer byte).Sound := by
  rw [scan]
  split
  · exact ⟨rfl, headersFit_preamble, by decide⟩
  · trivial

/-- Outside a frame, a byte goes on with the preamble, or begins it anew, or breaks it. -/
theorem opened_scan (older newer byte : UInt8) :
    (scan older newer byte).opened = [] ∨ (scan older newer byte).opened = [byte] ∨
      (scan older newer byte).opened = (Phase.scanning older newer).opened ++ [byte] := by
  rw [scan]
  split
  next hpreamble =>
    obtain ⟨rfl, rfl, rfl⟩ : older = 0x55 ∧ newer = 0x01 ∧ byte = 0x00 := by simpa [preamble] using hpreamble
    exact .inr (.inr rfl)
  next =>
    rw [Phase.opened]
    by_cases htwo : newer = 0x55 ∧ byte = 0x01
    · obtain ⟨rfl, rfl⟩ := htwo
      refine .inr (.inr ?_)
      rw [if_pos ⟨rfl, rfl⟩, Phase.opened, if_neg (by simp), if_pos rfl]
      rfl
    · rw [if_neg htwo]
      by_cases hone : byte = 0x55
      · subst hone
        exact .inr (.inl (if_pos rfl))
      · exact .inl (if_neg hone)

theorem length_opened_scanning (older newer : UInt8) : (Phase.scanning older newer).opened.length ≤ 2 := by
  rw [Phase.opened]
  split
  · exact Nat.le_refl 2
  · split
    · exact Nat.le_succ 1
    · exact Nat.zero_le 2

variable {r : FrameReader} {byte : UInt8} {now : Nat}

theorem lastByte_feed (r : FrameReader) (byte : UInt8) (now : Nat) : (r.feed byte now).2.lastByte = now := by
  have hcase := feedCase r byte now
  generalize (r.feed byte now).1 = answer at hcase
  generalize (r.feed byte now).2 = after at hcase ⊢
  cases hcase <;> rfl

/-- A byte keeps partial frames sound. -/
theorem sound_feed (h : r.phase.Sound) (byte : UInt8) (now : Nat) : (r.feed byte now).2.phase.Sound := by
  have hcase := feedCase r byte now
  generalize (r.feed byte now).1 = answer at hcase
  generalize (r.feed byte now).2 = after at hcase ⊢
  cases hcase with
  | overdue _ | refused _ _ _ => exact sound_scan 0 0 byte
  | scanned _ => exact sound_scan _ _ byte
  | completed _ _ _ _ => trivial
  | @stored taken hphase hpause hheader hpart =>
    rw [hphase] at h
    obtain ⟨hopening, hheaders, hlength⟩ := h
    refine ⟨opening_concat hopening byte, hheaders.concat hheader, ?_⟩
    rw [List.length_append, List.length_singleton]
    omega

/-- A byte ends the bytes under way, or begins them anew, or comes in time to go on with them. -/
theorem opened_feed (r : FrameReader) (byte : UInt8) (now : Nat) :
    (r.feed byte now).2.phase.opened = [] ∨ (r.feed byte now).2.phase.opened = [byte] ∨
      (r.feed byte now).2.phase.opened = r.phase.opened ++ [byte] ∧
        (2 < r.phase.opened.length → now ≤ r.lastByte + frameTimeout) := by
  have hcase := feedCase r byte now
  generalize (r.feed byte now).1 = answer at hcase
  generalize (r.feed byte now).2 = after at hcase ⊢
  cases hcase with
  | overdue _ | refused _ _ _ =>
    -- the bytes before this one are dropped, so going on means beginning anew
    rcases opened_scan 0 0 byte with h | h | h
    · exact .inl h
    · exact .inr (.inl h)
    · exact .inr (.inl h)
  | @scanned older newer hphase =>
    rw [hphase]
    rcases opened_scan older newer byte with h | h | h
    · exact .inl h
    · exact .inr (.inl h)
    · refine .inr (.inr ⟨h, fun hlong => ?_⟩)
      exact absurd (length_opened_scanning older newer) (Nat.not_le_of_lt hlong)
  | stored hphase hpause hheader hpart =>
    rw [hphase]
    exact .inr (.inr ⟨rfl, fun _ => hpause⟩)
  | completed _ _ _ _ => exact .inl rfl

/-- A frame that is emitted is what was under way and the byte that completes it. -/
theorem emitted_feed (h : r.phase.Sound) {frame : Frame} (hfeed : (r.feed byte now).1 = .ok (some frame)) :
    frame.bytes = r.phase.opened ++ [byte] ∧ now ≤ r.lastByte + frameTimeout ∧ frame.Marked ∧
      (r.feed byte now).2.phase = .scanning 0 0 := by
  have hcase := feedCase r byte now
  generalize (r.feed byte now).1 = answer at hcase hfeed
  generalize (r.feed byte now).2 = after at hcase ⊢
  subst hfeed
  cases hcase with
  | @completed taken _ hphase hpause hheader hbytes =>
    rw [hphase] at h ⊢
    obtain ⟨hopening, hheaders, -⟩ := h
    have hfits : HeadersFit frame.bytes := hbytes ▸ hheaders.concat hheader
    obtain ⟨hfirst, hsecond⟩ := (headersFit_iff frame).mp hfits
    have hpreamble : frame.bytes.take 3 = preamble := hbytes ▸ opening_concat hopening byte
    exact ⟨hbytes, hpause, ⟨hpreamble, hfirst, hsecond⟩, rfl⟩

/-! ## Rows of calls -/

/-- What can be asked of a reader. -/
inductive Call where
  | feed (byte : UInt8) (now : Nat)
  | expire (now : Nat)
  | reset
  deriving DecidableEq, Repr

def after (r : FrameReader) : Call → FrameReader
  | .feed byte now => (r.feed byte now).2
  | .expire now => r.expire now
  | .reset => r.reset

/-- The reader after a row of calls. -/
def run (r : FrameReader) (calls : List Call) : FrameReader := calls.foldl after r

@[simp] theorem run_nil (r : FrameReader) : r.run [] = r := rfl

theorem run_concat (r : FrameReader) (calls : List Call) (c : Call) : r.run (calls ++ [c]) = (r.run calls).after c := by
  rw [run, List.foldl_append]
  rfl

theorem run_append (r : FrameReader) (calls more : List Call) : r.run (calls ++ more) = (r.run calls).run more :=
  List.foldl_append

/-- The bytes that a row of calls feeds, each with its time. -/
def fed (calls : List Call) : List (UInt8 × Nat) :=
  calls.filterMap fun
    | .feed byte now => some (byte, now)
    | _ => none

theorem fed_append (calls more : List Call) : fed (calls ++ more) = fed calls ++ fed more := List.filterMap_append

/-- A byte that comes at most the longest pause after the byte before it. -/
def Prompt (before after : UInt8 × Nat) : Prop := after.2 ≤ before.2 + frameTimeout

/-- The latest calls fed these bytes, the last of them at an instant, with no reset between them and each from the fourth
on in time. -/
def Trail (calls : List Call) (bytes : List UInt8) (last : Nat) : Prop :=
  ∃ stretch, stretch <:+ calls ∧ .reset ∉ stretch ∧ (fed stretch).map Prod.fst = bytes ∧
    ((fed stretch).drop 2).IsChain Prompt ∧ ∀ x ∈ (fed stretch).getLast?, x.2 = last

namespace Trail

variable {calls : List Call} {bytes : List UInt8} {last : Nat}

theorem nil (calls : List Call) (last : Nat) : Trail calls [] last :=
  ⟨[], List.nil_suffix, List.not_mem_nil, rfl, .nil, by rintro x ⟨⟩⟩

/-- A byte is a trail of its own. -/
theorem single (calls : List Call) (byte : UInt8) (now : Nat) : Trail (calls ++ [.feed byte now]) [byte] now := by
  refine ⟨[.feed byte now], List.suffix_append _ _, by simp, rfl, .nil, ?_⟩
  rintro x ⟨⟩
  rfl

/-- A call that feeds nothing leaves the trail. -/
theorem expire (h : Trail calls bytes last) (now : Nat) : Trail (calls ++ [.expire now]) bytes last := by
  obtain ⟨stretch, hsuffix, hreset, hbytes, hprompt, hlast⟩ := h
  have hfed : fed (stretch ++ [.expire now]) = fed stretch := by
    rw [fed_append]
    exact List.append_nil _
  refine ⟨stretch ++ [.expire now], List.suffix_append_self_iff.mpr hsuffix, ?_, ?_, ?_, ?_⟩
  · simpa using hreset
  · rwa [hfed]
  · rwa [hfed]
  · rwa [hfed]

/-- A byte goes on with the trail, if from the fourth on it comes in time. -/
theorem feed (h : Trail calls bytes last) {byte : UInt8} {now : Nat}
    (hpause : 2 < bytes.length → now ≤ last + frameTimeout) :
    Trail (calls ++ [.feed byte now]) (bytes ++ [byte]) now := by
  obtain ⟨stretch, hsuffix, hreset, hbytes, hprompt, hlast⟩ := h
  have hfed : fed (stretch ++ [.feed byte now]) = fed stretch ++ [(byte, now)] := fed_append _ _
  have hlength : (fed stretch).length = bytes.length := by rw [← hbytes, List.length_map]
  refine ⟨stretch ++ [.feed byte now], List.suffix_append_self_iff.mpr hsuffix, ?_, ?_, ?_, ?_⟩
  · simpa using hreset
  · rw [hfed, List.map_append, hbytes]
    rfl
  · rw [hfed]
    by_cases hshort : (fed stretch).length < 2
    · have hnone : ((fed stretch ++ [(byte, now)]).drop 2) = [] :=
        List.drop_eq_nil_of_le (by rw [List.length_append, List.length_singleton]; omega)
      rw [hnone]
      exact .nil
    · rw [List.drop_append_of_le_length (Nat.le_of_not_lt hshort), List.isChain_append]
      refine ⟨hprompt, .singleton _, fun x hx y hy => ?_⟩
      cases hy
      rw [List.getLast?_drop] at hx
      split at hx
      · cases hx
      next hlong =>
        show now ≤ x.2 + frameTimeout
        rw [hlast x hx]
        exact hpause (hlength ▸ Nat.lt_of_not_le hlong)
  · intro x hx
    rw [hfed, List.getLast?_concat] at hx
    cases hx
    rfl

end Trail

theorem expire_cases (r : FrameReader) (now : Nat) : r.expire now = r ∨ r.expire now = r.reset := by
  rw [expire]
  split
  · exact .inr rfl
  · exact .inl rfl

/-- **Partial frames stay sound, and what is under way leaves a trail** since the reader was at rest. -/
theorem trail_run {r : FrameReader} (hrest : r.phase = .scanning 0 0) (calls : List Call) :
    (r.run calls).phase.Sound ∧ Trail calls (r.run calls).phase.opened (r.run calls).lastByte := by
  induction calls using List.reverseRecOn with
  | nil =>
    rw [run_nil, hrest]
    exact ⟨trivial, .nil _ _⟩
  | append_singleton calls c ih =>
    obtain ⟨hsound, htrail⟩ := ih
    rw [run_concat]
    cases c with
    | feed byte now =>
      refine ⟨sound_feed hsound byte now, ?_⟩
      rw [after, lastByte_feed]
      rcases opened_feed (r.run calls) byte now with h | h | ⟨h, hpause⟩
      · exact h.symm ▸ .nil _ _
      · exact h.symm ▸ .single _ byte now
      · exact h.symm ▸ htrail.feed hpause
    | expire now =>
      show ((r.run calls).expire now).phase.Sound ∧ Trail _ ((r.run calls).expire now).phase.opened _
      rcases expire_cases (r.run calls) now with h | h
      · rw [after, h]
        exact ⟨hsound, htrail.expire now⟩
      · rw [h]
        exact ⟨trivial, .nil _ _⟩
    | reset => exact ⟨trivial, .nil _ _⟩

/-- The bytes of a partial frame that the reader holds. -/
def buffer (r : FrameReader) : List UInt8 :=
  match r.phase with
  | .scanning .. => []
  | .receiving taken => taken

theorem length_buffer_lt {r : FrameReader} (h : r.phase.Sound) : r.buffer.length < 19 := by
  rw [buffer]
  cases hphase : r.phase with
  | scanning older newer => exact Nat.zero_lt_succ 18
  | receiving taken =>
    rw [hphase] at h
    exact h.2.2

/-- A frame that is emitted leaves a trail since the reader was at rest, and the reader is at rest again. -/
theorem trail_emitted {r : FrameReader} (hrest : r.phase = .scanning 0 0) (calls : List Call) {byte : UInt8} {now : Nat}
    {frame : Frame} (hfeed : ((r.run calls).feed byte now).1 = .ok (some frame)) :
    Trail (calls ++ [.feed byte now]) frame.bytes now ∧ frame.Marked ∧
      ((r.run calls).feed byte now).2.phase = .scanning 0 0 := by
  obtain ⟨hsound, htrail⟩ := trail_run hrest calls
  obtain ⟨hbytes, hpause, hmarked, hafter⟩ := emitted_feed hsound hfeed
  exact ⟨hbytes ▸ htrail.feed fun _ => hpause, hmarked, hafter⟩

/-- **The reader emits only genuine frames.**  At any moment it holds fewer than nineteen bytes.  A frame that it emits is
the nineteen bytes fed last, with no reset between them, each of the last sixteen at most 100 ms after the byte before
it.  The frame has the preamble and the frame-type bits, so it is never refused for those.  Since any frame emitted before
it at least nineteen bytes were fed, so no byte belongs to two frames. -/
theorem frames_genuine (calls : List Call) :
    let r := ({} : FrameReader).run calls
    r.buffer.length < 19 ∧ ∀ (byte : UInt8) (now : Nat) (frame : Frame), (r.feed byte now).1 = .ok (some frame) →
      (∃ stretch, stretch <:+ calls ++ [.feed byte now] ∧ .reset ∉ stretch ∧ (fed stretch).map Prod.fst = frame.bytes ∧
        ((fed stretch).drop 2).IsChain fun before after => after.2 ≤ before.2 + 100) ∧
      frame.bytes.take 3 = [0x55, 0x01, 0x00] ∧ frame.bytes[3]?.map (·.toNat / 64) = some 0 ∧
      frame.bytes[11]?.map (·.toNat / 64) = some 1 ∧
      Word.decode frame ≠ .error .badPreamble ∧ Word.decode frame ≠ .error .badHeader ∧
      ∀ (start rest : List Call) (byte' : UInt8) (now' : Nat) (frame' : Frame),
        calls = start ++ .feed byte' now' :: rest →
        ((({} : FrameReader).run start).feed byte' now').1 = .ok (some frame') →
        19 ≤ (fed (rest ++ [.feed byte now])).length := by
  intro r
  refine ⟨length_buffer_lt (trail_run rfl calls).1, fun byte now frame hfeed => ?_⟩
  obtain ⟨⟨stretch, hsuffix, hreset, hbytes, hprompt, -⟩, hmarked, -⟩ := trail_emitted rfl calls hfeed
  refine ⟨⟨stretch, hsuffix, hreset, hbytes, hprompt⟩, hmarked.opening, hmarked.first, hmarked.second,
    fun h => ?_, fun h => ?_, fun start rest byte' now' frame' hcalls hearlier => ?_⟩
  · simpa using hmarked.cause_of_decode h
  · simpa using hmarked.cause_of_decode h
  · -- the reader was at rest after the earlier frame, so the later one leaves a trail within what came since
    obtain ⟨-, -, hrest⟩ := trail_emitted rfl start hearlier
    have hrun : r = ((({} : FrameReader).run start).feed byte' now').2.run rest := by
      show run {} calls = _
      rw [hcalls, run_append]
      rfl
    rw [hrun] at hfeed
    obtain ⟨⟨since, hsince, -, hframe, -⟩, -⟩ := trail_emitted hrest rest hfeed
    have hlength : (fed since).length = 19 := by
      rw [← frame.length_bytes, ← hframe, List.length_map]
    rw [← hlength]
    exact (List.IsSuffix.filterMap _ hsince).length_le

/-- A frame of zeros behind the preamble, apart from its frame-type bits. -/
def blankFrame : Frame := ⟨[0x55, 0x01, 0x00, 0, 0, 0, 0, 0, 0, 0, 0, 0x40, 0, 0, 0, 0, 0, 0, 0], rfl⟩

/-- A false preamble and a reset inside another one, then a frame. -/
def firstFrameCalls : List Call :=
  [.feed 0x55 0, .feed 0x01 0, .feed 0x00 0, .feed 0xc0 0, .feed 0x55 5, .reset] ++ blankFrame.bytes.map (.feed · 10)

/-- All of a second frame but its last byte, the reader being asked to expire on the way. -/
def secondFrameCalls : List Call :=
  (blankFrame.bytes.take 7).map (.feed · 50) ++ [.expire 150] ++ (blankFrame.bytes.dropLast.drop 7).map (.feed · 150)

/-- The second frame is emitted on its last byte, and shares no byte with the first. -/
theorem frames_genuine_second :
    ((({} : FrameReader).run (firstFrameCalls ++ secondFrameCalls)).feed 0 250).1 = .ok (some blankFrame) ∧
      (∃ stretch, stretch <:+ firstFrameCalls ++ secondFrameCalls ++ [.feed 0 250] ∧ .reset ∉ stretch ∧
        (fed stretch).map Prod.fst = blankFrame.bytes ∧
        ((fed stretch).drop 2).IsChain fun before after => after.2 ≤ before.2 + 100) ∧
      19 ≤ (fed (secondFrameCalls ++ [.feed 0 250])).length := by
  have hsecond : ((({} : FrameReader).run (firstFrameCalls ++ secondFrameCalls)).feed 0 250).1 =
      .ok (some blankFrame) := by decide +kernel
  have hfirst : ((({} : FrameReader).run firstFrameCalls.dropLast).feed 0 10).1 = .ok (some blankFrame) := by
    decide +kernel
  obtain ⟨-, hgenuine⟩ := frames_genuine (firstFrameCalls ++ secondFrameCalls)
  obtain ⟨hstretch, -, -, -, -, -, hapart⟩ := hgenuine 0 250 blankFrame hsecond
  exact ⟨hsecond, hstretch, hapart firstFrameCalls.dropLast secondFrameCalls 0 10 blankFrame rfl hfirst⟩

end FrameReader

end DoorBridge
