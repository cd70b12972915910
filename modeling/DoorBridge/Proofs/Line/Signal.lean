import DoorBridge.Proofs.Line.Edges
import Mathlib.Algebra.Order.Group.Abs
import Mathlib.Algebra.Order.Group.Int
import Mathlib.Algebra.Ring.Int.Defs
import Mathlib.Data.List.Chain
import Mathlib.Data.Nat.Cast.Basic

/-!
# Proofs.Line.Signal — bytes are read back from a line whose edges come too early or too late

* `Hold` is a level that a line holds for a time, `levelChanges` the edges of a row of holds, `Sending.holds` the holds
  of a byte that is sent after an idle gap.
* `Displaced` are edges that are each seen at an error, `Near` errors that differ by less than half a bit.
* `Reads d error now holds bytes` says what a decoder that lags behind a line gives for the rest of it.  A hold of the
  same level only makes the lag longer (`reads_same`), a change takes the lag off (`reads_change`).
* `reads_levels` takes a byte to its stop bit, `reads_sendings` a row of bytes to the silence after it.  Together they
  give `sent_bytes_read`.
-/

namespace DoorBridge

/-! ## Lines -/

/-- A level that a line holds, and for how many microseconds. -/
structure Hold where
  level : Bool
  duration : Nat
  deriving DecidableEq, Repr

/-- The edges of a line that leaves a level at an instant for a row of holds. -/
def levelChanges (level : Bool) (now : Nat) : List Hold → List Edge
  | [] => []
  | h :: holds =>
    if h.level = level then levelChanges level (now + h.duration) holds
    else ⟨now, h.level⟩ :: levelChanges h.level (now + h.duration) holds

/-- Length of a row of holds. -/
def totalDuration (holds : List Hold) : Nat := (holds.map (·.duration)).sum

/-- A byte to send, and how long the line idles before it. -/
structure Sending where
  gap : Nat
  byte : UInt8
  deriving DecidableEq, Repr

/-- The idle gap, and then each level of the byte for one bit time. -/
def Sending.holds (bitTime : Nat) (invert : Bool) (s : Sending) : List Hold :=
  ⟨!invert, s.gap⟩ :: (frameLevels s.byte invert).map fun level => ⟨level, bitTime⟩

/-- The edges that are seen of a row of edges, each off by an error. -/
inductive Displaced : List Edge → List Int → List Edge → Prop
  | nil : Displaced [] [] []
  | cons {e seen : Edge} {error : Int} {es seens : List Edge} {errors : List Int} :
      (seen.time : Int) = e.time + error → seen.level = e.level → Displaced es errors seens →
      Displaced (e :: es) (error :: errors) (seen :: seens)

/-- Two errors that differ by less than half a bit. -/
def Near (bitTime : Nat) (a b : Int) : Prop := 2 * |b - a| < bitTime

theorem Near.bounds {bitTime : Nat} {a b : Int} (h : Near bitTime a b) :
    2 * (b - a) < bitTime ∧ 2 * (a - b) < bitTime := by
  have hpos : b - a ≤ |b - a| := le_abs_self _
  have hneg : -(b - a) ≤ |b - a| := neg_le_abs _
  have hnear : 2 * |b - a| < bitTime := h
  omega

/-! ## Data bits -/

/-- The low bits of a number, read low bit first. -/
theorem foldr_testBit : ∀ n x : Nat,
    ((List.range n).map x.testBit).foldr (fun b v => b.toNat + 2 * v) 0 = x % 2 ^ n
  | 0, x => (Nat.mod_one x).symm
  | n + 1, x => by
    have htail : (List.range n).map (x.testBit ∘ Nat.succ) = (List.range n).map (x / 2).testBit :=
      List.map_congr_left fun i _ => Nat.testBit_succ x i
    have hlow : (x.testBit 0).toNat = x % 2 := by
      rw [Nat.testBit_zero]
      rcases Nat.mod_two_eq_zero_or_one x with h | h <;> rw [h] <;> rfl
    rw [List.range_succ_eq_map, List.map_cons, List.map_map, List.foldr_cons, htail, foldr_testBit n (x / 2), hlow,
      Nat.pow_succ', Nat.mod_mul]

theorem byteOfData_dataBits (byte : UInt8) : byteOfData (dataBits byte) = byte := by
  rw [byteOfData, dataBits, foldr_testBit, Nat.mod_eq_of_lt byte.toNat_lt, UInt8.ofNat_toNat]

@[simp] theorem length_dataBits (byte : UInt8) : (dataBits byte).length = 8 := by
  rw [dataBits, List.length_map, List.length_range]

namespace EdgeDecoder

/-! ## Levels of a byte -/

/-- The phase in which the levels of a byte so far leave the decoder, the start bit first. -/
def phaseAfter : List Bool → Phase
  | [] => .start
  | _ :: taken => if taken.length < 8 then .data taken else .stop taken

/-- A level that was held up to the stop bit is taken bit by bit. -/
theorem take_replicate {held : Bool} (next : Bool) : ∀ {n : Nat} {levels : List Bool}, levels.length + n ≤ 9 →
    (levels = [] → held = false) →
    take held next n (phaseAfter levels) = (phaseAfter (levels ++ List.replicate n held), none)
  | 0, levels, _, _ => by
    rw [List.replicate_zero, List.append_nil]
    rfl
  | n + 1, levels, hlength, hstart => by
    have hstep : take held next (n + 1) (phaseAfter levels) = take held next n (phaseAfter (levels ++ [held])) := by
      cases levels with
      | nil =>
        rw [hstart rfl]
        rfl
      | cons first taken =>
        have htaken : taken.length < 8 := by
          rw [List.length_cons] at hlength
          omega
        have hmore : (taken ++ [held]).length = taken.length + 1 := List.length_append
        rw [phaseAfter, if_pos htaken, take, List.cons_append, phaseAfter, hmore]
        by_cases hlast : taken.length + 1 = 8
        · rw [if_pos hlast, if_neg (by omega)]
        · rw [if_neg hlast, if_pos (by omega)]
    have hlength' : (levels ++ [held]).length + n ≤ 9 := by
      rw [List.length_append, List.length_singleton]
      omega
    rw [hstep, take_replicate next hlength' fun h => absurd h (by simp), List.append_assoc]
    rfl

/-- **A byte whose last levels were not taken yet is completed by ones**, as many as there are levels left. -/
theorem phaseAfter_ones {levels data : List Bool} {n : Nat} (hdata : data.length = 8)
    (h : levels ++ List.replicate n true = false :: data ++ [true]) (hn : 0 < n) :
    (phaseAfter levels).WellFormed ∧ (phaseAfter levels).pending = n ∧
      (phaseAfter levels).completed = some (byteOfData data) := by
  cases levels with
  | nil =>
    obtain ⟨m, rfl⟩ := Nat.exists_eq_succ_of_ne_zero hn.ne'
    cases h
  | cons first taken =>
    obtain ⟨-, h⟩ : first = false ∧ taken ++ List.replicate n true = data ++ [true] := List.cons.inj h
    have hlength : taken.length + n = 9 := by
      have := congrArg List.length h
      simpa [hdata] using this
    by_cases htaken : taken.length < 8
    · obtain ⟨m, rfl⟩ := Nat.exists_eq_succ_of_ne_zero hn.ne'
      have hones : taken ++ List.replicate m true = data := by
        rw [List.replicate_succ', ← List.append_assoc] at h
        exact (List.append_inj' h rfl).1
      rw [phaseAfter, if_pos htaken]
      refine ⟨htaken, by rw [Phase.pending]; omega, ?_⟩
      rw [Phase.completed, show 8 - taken.length = m by omega, hones]
    · obtain rfl : n = 1 := by
        have hle : taken.length ≤ 8 := by omega
        omega
      obtain ⟨rfl, -⟩ := List.append_inj' h rfl
      rw [phaseAfter, if_neg htaken]
      exact ⟨hdata, rfl, rfl⟩

/-! ## A decoder behind a line -/

/-- A decoder that has seen the last edge of a line at an error gives these bytes for what the line does from an instant
on, and is not busy after a silence. -/
def Reads (d : EdgeDecoder) (error : Int) (now : Nat) (holds : List Hold) (bytes : List UInt8) : Prop :=
  ∀ (errors : List Int) (seen : List Edge), Displaced (levelChanges d.lastLevel now holds) errors seen →
    (error :: errors).IsChain (Near d.bitTime) → ∀ silence : Nat,
    (∀ last ∈ (error :: errors).getLast?, (now : Int) + totalDuration holds + last ≤ silence) →
    (d.run seen).1 ++ ((d.run seen).2.timeout silence).1.toList = bytes ∧
      ((d.run seen).2.timeout silence).2.isBusy = false

variable {d : EdgeDecoder} {error : Int} {now : Nat} {h : Hold} {holds : List Hold} {bytes : List UInt8}

/-- A hold of the level that the decoder saw last is no edge. -/
theorem reads_same (hlevel : h.level = d.lastLevel) (hread : d.Reads error (now + h.duration) holds bytes) :
    d.Reads error now (h :: holds) bytes := by
  intro errors seen hseen hnear silence hsilence
  rw [levelChanges, if_pos hlevel] at hseen
  refine hread errors seen hseen hnear silence fun last hlast => ?_
  have hend := hsilence last hlast
  rw [totalDuration, List.map_cons, List.sum_cons] at hend
  rw [totalDuration]
  omega

/-- A hold of another level is seen as an edge. -/
theorem reads_change (first : Option UInt8) (hlevel : h.level ≠ d.lastLevel)
    (hread : ∀ (e : Edge) (error' : Int), e.level = h.level → (e.time : Int) = now + error' →
      Near d.bitTime error error' →
      (d.process e).1 = first ∧ (d.process e).2.Reads error' (now + h.duration) holds bytes) :
    d.Reads error now (h :: holds) (first.toList ++ bytes) := by
  intro errors seen hseen hnear silence hsilence
  rw [levelChanges, if_neg hlevel] at hseen
  cases hseen with
  | @cons _ e error' _ seens errors htime hsame hseens =>
    rw [List.isChain_cons_cons] at hnear
    obtain ⟨hfirst, hrest⟩ := hread e error' hsame htime hnear.1
    have hlevels : (d.process e).2.lastLevel = h.level := hsame
    obtain ⟨hbytes, hidle⟩ := hrest errors seens (by rwa [hlevels]) hnear.2 silence fun last hlast => by
      have hend := hsilence last (by rwa [List.getLast?_cons_cons])
      rw [totalDuration, List.map_cons, List.sum_cons] at hend
      rw [totalDuration]
      omega
    refine ⟨?_, hidle⟩
    rw [← hfirst, ← hbytes]
    exact List.append_assoc _ _ _

/-! ## From byte to byte -/

/-- A decoder at the end of a stop bit.  The ones at the end of the byte may not be taken yet. -/
structure AtStop (d : EdgeDecoder) (error : Int) (now : Nat) (byte : UInt8) : Prop where
  wellFormed : d.phase.WellFormed
  completed : d.phase.completed = some byte
  idle : d.lastLevel = !d.invert
  lag : (d.lastTime : Int) + d.phase.pending * d.bitTime ≤ now + error

/-- A decoder that has taken some levels of a byte and lags behind by levels that are all the same. -/
structure Lags (d : EdgeDecoder) (error : Int) (now : Nat) (levels : List Bool) (n : Nat) (held : Bool) : Prop where
  phase : d.phase = phaseAfter levels
  level : d.lastLevel = (held ^^ d.invert)
  time : (d.lastTime : Int) + n * d.bitTime = now + error
  pos : 0 < n

/-- The last edge before the stop bit, or within it, leaves only ones to take. -/
theorem Lags.atStop {levels : List Bool} {n : Nat} {held : Bool} {byte : UInt8} (hlag : Lags d error now levels n held)
    (hlevels : levels ++ List.replicate n held = false :: dataBits byte ++ [true]) : AtStop d error now byte := by
  obtain ⟨hphase, hlevel, htime, hpos⟩ := hlag
  obtain ⟨m, rfl⟩ := Nat.exists_eq_succ_of_ne_zero hpos.ne'
  obtain rfl : held = true := by
    rw [List.replicate_succ', ← List.append_assoc] at hlevels
    exact List.head_eq_of_cons_eq (List.append_inj' hlevels rfl).2
  obtain ⟨hwell, hpending, hcompleted⟩ := phaseAfter_ones (length_dataBits byte) hlevels hpos
  rw [← hphase] at hwell hpending hcompleted
  refine ⟨hwell, by rw [hcompleted, byteOfData_dataBits], by rw [hlevel, Bool.true_xor], ?_⟩
  rw [hpending]
  exact htime.le

/-- One more level that is held makes the lag longer. -/
theorem Lags.hold {levels : List Bool} {n : Nat} {held : Bool} (hlag : Lags d error now levels n held) :
    Lags d error (now + d.bitTime) levels (n + 1) held := by
  refine ⟨hlag.phase, hlag.level, ?_, Nat.succ_pos n⟩
  have htime := hlag.time
  push_cast
  rw [add_mul]
  omega

/-- An edge takes the levels of the lag, and a new lag begins. -/
theorem Lags.edge {levels : List Bool} {n : Nat} {held level : Bool} (hlag : Lags d error now levels n held)
    (hbit : 0 < d.bitTime) (hcount : levels.length + n ≤ 9) (hstart : levels = [] → held = false) {e : Edge}
    {error' : Int} (hlevel : e.level = (level ^^ d.invert)) (htime : (e.time : Int) = now + error')
    (hnear : Near d.bitTime error error') :
    (d.process e).1 = none ∧
      Lags (d.process e).2 error' (now + d.bitTime) (levels ++ List.replicate n held) 1 level := by
  have hbounds := hnear.bounds
  have hlast := hlag.time
  have hcast : ((n * d.bitTime : Nat) : Int) = n * d.bitTime := Nat.cast_mul _ _
  have hwhole : d.bitTime ≤ n * d.bitTime := Nat.le_mul_of_pos_left _ hlag.pos
  have hperiods : periods d.bitTime (e.time - d.lastTime) = n := periods_of_near hbit (by omega) (by omega)
  have htake : take (d.lastLevel ^^ d.invert) (e.level ^^ d.invert) (periods d.bitTime (e.time - d.lastTime)) d.phase =
      (phaseAfter (levels ++ List.replicate n held), none) := by
    rw [hperiods, hlag.phase, hlag.level, Bool.xor_assoc, Bool.xor_self, Bool.xor_false]
    exact take_replicate _ hcount hstart
  have hprocess : d.process e = (none, ⟨d.bitTime, d.invert, phaseAfter (levels ++ List.replicate n held), e.time,
      e.level⟩) := by
    rw [process, htake]
  rw [hprocess]
  refine ⟨rfl, rfl, hlevel, ?_, Nat.one_pos⟩
  push_cast
  omega

/-- **A byte is taken level by level up to its stop bit.** -/
theorem reads_levels {byte : UInt8} (hbit : 0 < d.bitTime) {rest levels : List Bool} {n : Nat} {held : Bool}
    (hlag : Lags d error now levels n held)
    (hlevels : levels ++ List.replicate n held ++ rest = false :: dataBits byte ++ [true])
    (hnext : ∀ (d' : EdgeDecoder) (error' : Int), d'.bitTime = d.bitTime → d'.invert = d.invert →
      AtStop d' error' (now + rest.length * d.bitTime) byte →
      d'.Reads error' (now + rest.length * d.bitTime) holds bytes) :
    d.Reads error now ((rest.map fun level => ⟨level ^^ d.invert, d.bitTime⟩) ++ holds) bytes := by
  induction rest generalizing d error now levels n held with
  | nil =>
    rw [List.length_nil, Nat.zero_mul, Nat.add_zero] at hnext
    rw [List.append_nil] at hlevels
    exact hnext d error rfl rfl (hlag.atStop hlevels)
  | cons level rest ih =>
    have hend : now + (level :: rest).length * d.bitTime = now + d.bitTime + rest.length * d.bitTime := by
      rw [List.length_cons, Nat.succ_mul]
      omega
    rw [hend] at hnext
    by_cases hsame : level = held
    · subst hsame
      refine reads_same hlag.level.symm (ih hbit hlag.hold ?_ hnext)
      rw [← hlevels, List.replicate_succ', List.append_assoc, List.append_assoc, List.append_assoc]
      rfl
    · have hcount : levels.length + n ≤ 9 := by
        have hlength := congrArg List.length hlevels
        simp only [List.length_append, List.length_replicate, List.length_cons, length_dataBits, List.length_nil] at hlength
        omega
      have hstart : levels = [] → held = false := by
        rintro rfl
        obtain ⟨m, rfl⟩ := Nat.exists_eq_succ_of_ne_zero hlag.pos.ne'
        exact List.head_eq_of_cons_eq hlevels
      have hlevel : (level ^^ d.invert) ≠ d.lastLevel := by
        rw [hlag.level]
        exact fun h => hsame (Bool.xor_left_inj.mp h)
      refine reads_change none hlevel fun e error' helevel htime hnear => ?_
      obtain ⟨hnone, hlag'⟩ := hlag.edge hbit hcount hstart helevel htime hnear
      refine ⟨hnone, ih (d := (d.process e).2) hbit hlag' ?_ hnext⟩
      rw [← hlevels, List.append_assoc]
      rfl

theorem AtStop.held {byte : UInt8} (hstop : AtStop d error now byte) : (d.lastLevel ^^ d.invert) = true := by
  rw [hstop.idle, Bool.not_xor_self]

/-- The next time an idle line is looked at, all ones of the byte before it are there. -/
theorem AtStop.pending_le {byte : UInt8} (hstop : AtStop d error now byte) (hbit : 0 < d.bitTime) {later : Nat}
    (hlater : 2 * (now + error) < 2 * (later : Int) + d.bitTime) :
    d.phase.pending ≤ periods d.bitTime (later - d.lastTime) := by
  have hlag := hstop.lag
  have hcast : ((d.phase.pending * d.bitTime : Nat) : Int) = d.phase.pending * d.bitTime := Nat.cast_mul _ _
  exact (le_periods_iff hbit).mpr (by omega)

end EdgeDecoder

/-- The levels of a byte behind its gap, the start bit first. -/
theorem Sending.holds_eq (bitTime : Nat) (invert : Bool) (s : Sending) : s.holds bitTime invert =
    ⟨!invert, s.gap⟩ :: ⟨false ^^ invert, bitTime⟩ ::
      (dataBits s.byte ++ [true]).map fun level => ⟨level ^^ invert, bitTime⟩ := by
  rw [holds, frameLevels, List.map_map]
  rfl

namespace EdgeDecoder

variable {d : EdgeDecoder} {error : Int} {now : Nat} {holds : List Hold} {bytes : List UInt8}

/-- **A byte is taken from its start bit on.** -/
theorem reads_byte {byte : UInt8} (hbit : 0 < d.bitTime) (hphase : d.phase = .start)
    (hlevel : d.lastLevel = (false ^^ d.invert)) (htime : (d.lastTime : Int) = now + error)
    (hnext : ∀ (d' : EdgeDecoder) (error' : Int) (now' : Nat), d'.bitTime = d.bitTime → d'.invert = d.invert →
      AtStop d' error' now' byte → d'.Reads error' now' holds bytes) :
    d.Reads error (now + d.bitTime)
      (((dataBits byte ++ [true]).map fun level => ⟨level ^^ d.invert, d.bitTime⟩) ++ holds) bytes := by
  have hlag : Lags d error (now + d.bitTime) [] 1 false := by
    refine ⟨hphase, hlevel, ?_, Nat.one_pos⟩
    push_cast
    omega
  exact reads_levels hbit hlag rfl fun d' error' => hnext d' error' _

/-- **A byte that is at its stop bit and the bytes after it are read.** -/
theorem reads_sendings {byte : UInt8} (hbit : 0 < d.bitTime) (hstop : AtStop d error now byte)
    (sendings : List Sending) :
    d.Reads error now (sendings.flatMap (·.holds d.bitTime d.invert)) (byte :: sendings.map (·.byte)) := by
  induction sendings generalizing d error now byte with
  | nil =>
    intro errors seen hseen hnear silence hsilence
    cases hseen
    have hend : (now : Int) + error ≤ silence := hsilence error rfl
    have hpending : d.phase.pending ≤ periods d.bitTime (silence - d.lastTime) := hstop.pending_le hbit (by omega)
    have htimeout := timeout_ones hstop.wellFormed hstop.held hpending
    rw [hstop.completed] at htimeout
    rw [run, htimeout]
    exact ⟨rfl, rfl⟩
  | cons s sendings ih =>
    have hedge : (false ^^ d.invert) ≠ d.lastLevel := by
      rw [hstop.idle]
      cases d.invert <;> decide
    rw [List.flatMap_cons, Sending.holds_eq]
    refine reads_same hstop.idle.symm (reads_change (some byte) hedge fun e error' hlevel htime hnear => ?_)
    have hbounds := hnear.bounds
    have hpending : d.phase.pending ≤ periods d.bitTime (e.time - d.lastTime) :=
      hstop.pending_le hbit (by dsimp only at htime; omega)
    have hprocess := process_ones hstop.wellFormed hstop.held hpending
    rw [hstop.completed] at hprocess
    rw [hprocess]
    refine ⟨rfl, reads_byte hbit ?_ hlevel htime fun d' error'' now' hbit' hinvert' hstop' => ?_⟩
    · rw [hlevel, Bool.xor_assoc, Bool.xor_self, Bool.xor_false]
      rfl
    · have hread := ih (hbit'.symm ▸ hbit) hstop'
      rwa [hbit', hinvert'] at hread

end EdgeDecoder

/-- **The bytes sent over a line are read back from its edges.**  Every level of a byte is held for one bit time, with
any idle time before each byte.  Every edge is seen at an error; the errors of edges that follow one another differ by
less than half a bit, and the first edge is seen no earlier than one bit time after the start.  Then the edges and one
timeout, once the last stop bit is over, give the bytes in order, each once, and the decoder is not busy. -/
theorem sent_bytes_read {bitTime : Nat} (hbit : 0 < bitTime) (invert : Bool) (sendings : List Sending)
    {errors : List Int} {seen : List Edge}
    (hseen : Displaced (levelChanges (!invert) 0 (sendings.flatMap (·.holds bitTime invert))) errors seen)
    (hnear : errors.IsChain (Near bitTime)) (hfirst : ∀ e ∈ seen.head?, bitTime ≤ e.time) {silence : Nat}
    (hsilence : ∀ last ∈ errors.getLast?,
      (totalDuration (sendings.flatMap (·.holds bitTime invert)) : Int) + last ≤ silence) :
    let d := EdgeDecoder.new bitTime invert
    (d.run seen).1 ++ ((d.run seen).2.timeout silence).1.toList = sendings.map (·.byte) ∧
      ((d.run seen).2.timeout silence).2.isBusy = false := by
  intro d
  have hnew : d = ⟨bitTime, invert, .idle, 0, !invert⟩ := by
    show EdgeDecoder.mk (max bitTime 1) _ _ _ _ = _
    rw [Nat.max_eq_left hbit]
  have hones : (!invert ^^ invert) = true := Bool.not_xor_self _
  cases sendings with
  | nil =>
    cases hseen
    have htimeout : d.timeout silence = (none, { d with lastTime := silence }) := by
      rw [hnew, EdgeDecoder.timeout, EdgeDecoder.process, hones, EdgeDecoder.take_idle]
    rw [EdgeDecoder.run, htimeout, hnew]
    exact ⟨rfl, rfl⟩
  | cons s sendings =>
    -- the first edge is the start bit of the first byte
    have hedge : (false ^^ invert) ≠ !invert := by cases invert <;> decide
    rw [List.flatMap_cons, Sending.holds_eq, List.cons_append, List.cons_append, levelChanges, if_pos rfl, levelChanges,
      if_neg hedge] at hseen
    cases hseen with
    | @cons _ e error _ seens errors htime hlevel hseens =>
      have hearly : 0 < EdgeDecoder.periods bitTime (e.time - 0) :=
        (EdgeDecoder.le_periods_iff hbit).mpr (by have := hfirst e rfl; omega)
      have hprocess : d.process e = (none, ⟨bitTime, invert, .start, e.time, e.level⟩) := by
        rw [hnew, EdgeDecoder.process, hones, EdgeDecoder.take_idle_ones hearly, hlevel, Bool.xor_assoc,
          Bool.xor_self, Bool.xor_false]
        rfl
      have hread : (d.process e).2.Reads error (0 + s.gap + bitTime)
          (((dataBits s.byte ++ [true]).map fun level => ⟨level ^^ invert, bitTime⟩) ++
            sendings.flatMap (·.holds bitTime invert)) (s.byte :: sendings.map (·.byte)) := by
        rw [hprocess]
        refine EdgeDecoder.reads_byte hbit rfl hlevel htime fun d' error' now' hbit' hinvert' hstop => ?_
        have hrest := EdgeDecoder.reads_sendings (hbit'.symm ▸ hbit) hstop sendings
        rwa [hbit', hinvert'] at hrest
      have hlevels : (d.process e).2.lastLevel = (false ^^ invert) := hlevel
      obtain ⟨hbytes, hidle⟩ := hread errors seens (by rwa [hlevels]) (by rwa [hprocess]) silence fun last hlast => by
        have hend := hsilence last hlast
        rw [List.flatMap_cons, Sending.holds_eq, List.cons_append, List.cons_append] at hend
        simp only [totalDuration, List.map_cons, List.sum_cons] at hend ⊢
        omega
      rw [EdgeDecoder.run, hprocess, Option.toList_none, List.nil_append, List.map_cons]
      rw [hprocess] at hbytes hidle
      exact ⟨hbytes, hidle⟩

/-- Two bytes back to back, the second one without an edge between its start bit and the silence. -/
def jitterySendings : List Sending := [⟨30, 0x0f⟩, ⟨0, 0xff⟩]

/-- Their edges, each in turn a fifth of a bit late and a fifth of a bit early. -/
def jitterySeen : List Edge :=
  [⟨32, true⟩, ⟨38, false⟩, ⟨82, true⟩, ⟨118, false⟩, ⟨132, true⟩, ⟨138, false⟩]

/-- The two bytes are read back. -/
theorem sent_bytes_read_jittery :
    (((EdgeDecoder.new 10 true).run jitterySeen).1, (((EdgeDecoder.new 10 true).run jitterySeen).2.timeout 228).1) =
        ([0x0f], some 0xff) ∧
      ((EdgeDecoder.new 10 true).run jitterySeen).1 ++
          (((EdgeDecoder.new 10 true).run jitterySeen).2.timeout 228).1.toList = [0x0f, 0xff] ∧
      (((EdgeDecoder.new 10 true).run jitterySeen).2.timeout 228).2.isBusy = false := by
  refine ⟨by decide +kernel, ?_⟩
  have hchanges : levelChanges (!true) 0 (jitterySendings.flatMap (·.holds 10 true)) =
      [⟨30, true⟩, ⟨40, false⟩, ⟨80, true⟩, ⟨120, false⟩, ⟨130, true⟩, ⟨140, false⟩] := by decide +kernel
  have hseen : Displaced (levelChanges (!true) 0 (jitterySendings.flatMap (·.holds 10 true)))
      [2, -2, 2, -2, 2, -2] jitterySeen := by
    rw [hchanges]
    repeat' first | exact .nil | refine .cons rfl rfl ?_
  have hnear : [2, -2, 2, -2, 2, -2].IsChain (Near 10) := by
    have hup : Near 10 2 (-2) := by show 2 * |(-2 : Int) - 2| < 10; decide
    have hdown : Near 10 (-2) 2 := by show 2 * |(2 : Int) - -2| < 10; decide
    exact .cons_cons hup (.cons_cons hdown (.cons_cons hup (.cons_cons hdown (.cons_cons hup (.singleton _)))))
  have hfirst : ∀ e ∈ jitterySeen.head?, 10 ≤ e.time := by
    intro e he
    cases he
    decide
  have hsilence : ∀ last ∈ [2, -2, 2, -2, 2, -2].getLast?,
      (totalDuration (jitterySendings.flatMap (·.holds 10 true)) : Int) + last ≤ (228 : Nat) := by
    intro last hlast
    cases hlast
    decide +kernel
  exact sent_bytes_read (by decide) true jitterySendings hseen hnear hfirst hsilence

end DoorBridge
