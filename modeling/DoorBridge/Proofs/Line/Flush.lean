import DoorBridge.Proofs.Line.Edges
import DoorBridge.Settings

/-!
# Proofs.Line.Flush — what a timeout changes for the edges after it

The byte timeout of either protocol is eleven bit times at least (`eleven_le_periods`), so after it the decoder is idle
whatever level the line was left at (`timeout_eq`).  On an idle line every open byte is complete (`pending_le_periods`): the
flush gives the byte that the next edge would have given (`flush_eq`).  Whether the next edge finds the same
decoder with and without the flush depends on that edge alone (`flush_undisturbing_iff`).
-/

namespace DoorBridge

namespace EdgeDecoder

variable {security : Security} {d : EdgeDecoder} {now : Nat}

/-- The byte timeout of both protocols is longer than any byte: eleven bit times are counted, if only by rounding up. -/
theorem eleven_le_periods (hd : d.Reachable security.line) {later : Nat}
    (hsilence : d.lastTime + security.line.byteTimeout * 1000 ≤ later) : 11 ≤ periods d.bitTime (later - d.lastTime) := by
  have hlonger : 11 * security.line.bitTime ≤ security.line.byteTimeout * 1000 + (security.line.bitTime - 1) / 2 := by
    cases security <;> decide
  rw [hd.bitTime, le_periods_iff security.line.bitTime_pos]
  omega

theorem pending_le_periods (hd : d.Reachable security.line) {later : Nat}
    (hsilence : d.lastTime + security.line.byteTimeout * 1000 ≤ later) :
    d.phase.pending ≤ periods d.bitTime (later - d.lastTime) := by
  have hlonger := eleven_le_periods hd hsilence
  have hpending := d.phase.pending_le
  omega

theorem idleLevel_xor_invert {line : LineSettings} : (line.idleLevel ^^ line.invert) = true := Bool.not_xor_self _

theorem not_idleLevel_xor_invert {line : LineSettings} : (!line.idleLevel ^^ line.invert) = false := by
  rw [Bool.not_xor, idleLevel_xor_invert]
  rfl

theorem held_of_idleLevel (hd : d.Reachable security.line) (hidle : d.lastLevel = security.line.idleLevel) :
    (d.lastLevel ^^ d.invert) = true := by
  rw [hidle, hd.invert]
  exact idleLevel_xor_invert

/-- After a silence, an edge completes the open byte and may start the next one. -/
theorem process_after_silence (hd : d.Reachable security.line) (hidle : d.lastLevel = security.line.idleLevel) {e : Edge}
    (hsilence : d.lastTime + security.line.byteTimeout * 1000 ≤ e.time) :
    d.process e = (d.phase.completed, ⟨d.bitTime, d.invert, .atRest (e.level ^^ d.invert), e.time, e.level⟩) :=
  process_ones hd.wellFormed (held_of_idleLevel hd hidle) (pending_le_periods hd hsilence)

/-- A flush completes the open byte and leaves the decoder idle. -/
theorem flush_eq (hd : d.Reachable security.line) (hidle : d.lastLevel = security.line.idleLevel)
    (hsilence : d.lastTime + security.line.byteTimeout * 1000 ≤ now) :
    d.timeout now = (d.phase.completed, ⟨d.bitTime, d.invert, .idle, now, d.lastLevel⟩) :=
  timeout_ones hd.wellFormed (held_of_idleLevel hd hidle) (pending_le_periods hd hsilence)

/-- **After a silence the decoder is idle,** whatever level the line was left at.  Only the idle level completes the open
byte. -/
theorem timeout_eq (hd : d.Reachable security.line) (hsilence : d.lastTime + security.line.byteTimeout * 1000 ≤ now) :
    d.timeout now = (if d.lastLevel = security.line.idleLevel then d.phase.completed else none,
      ⟨d.bitTime, d.invert, .idle, now, d.lastLevel⟩) := by
  by_cases hidle : d.lastLevel = security.line.idleLevel
  · rw [if_pos hidle]
    exact flush_eq hd hidle hsilence
  · have hheld : (d.lastLevel ^^ d.invert) = false := by
      rw [Bool.eq_not.mpr hidle, hd.invert]
      exact not_idleLevel_xor_invert
    rw [if_neg hidle, timeout, process, hheld, take_zeros hd.wellFormed (eleven_le_periods hd hsilence)]

/-- An edge that an idle decoder does not miss: a change to the idle level, or one that comes more than half a bit after
the decoder's last instant. -/
def Noticed (line : LineSettings) (since : Nat) (e : Edge) : Prop :=
  e.level = line.idleLevel ∨ since + line.bitTime / 2 < e.time

/-- The first edge after a flush, if it is not missed, finds the decoder as it would have been without the flush. -/
theorem process_flushed (hd : d.Reachable security.line) (hidle : d.lastLevel = security.line.idleLevel)
    (hsilence : d.lastTime + security.line.byteTimeout * 1000 ≤ now) {e : Edge} (hlater : now ≤ e.time)
    (hnoticed : Noticed security.line now e) :
    (d.timeout now).2.process e = (none, (d.process e).2) := by
  have hpos := security.line.bitTime_pos
  rw [flush_eq hd hidle hsilence, process_after_silence hd hidle (Nat.le_trans hsilence hlater), process]
  dsimp only
  rw [held_of_idleLevel hd hidle]
  rcases hnoticed with hsame | hlate
  · have hnext : (e.level ^^ d.invert) = true := by
      rw [hsame, ← hidle]
      exact held_of_idleLevel hd hidle
    rw [hnext, take_idle]
    rfl
  · have hcount : 0 < periods d.bitTime (e.time - now) := by
      rw [hd.bitTime]
      exact (le_periods_iff hpos).mpr (by omega)
    rw [take_idle_ones hcount]

/-- A clean byte of ones after a start edge: the end of the start bit, and the next start edge. -/
def onesAfter (line : LineSettings) (e : Edge) : List Edge :=
  [⟨e.time + line.bitTime, line.idleLevel⟩, ⟨e.time + 12 * line.bitTime, !line.idleLevel⟩]

section Ones

variable {line : LineSettings} {e : Edge}

/-- The bytes that a decoder gives for the clean byte, by the phase in which the start edge left it. -/
theorem run_onesAfter (p : Phase) :
    ((⟨line.bitTime, line.invert, p, e.time, !line.idleLevel⟩ : EdgeDecoder).run (onesAfter line e)).1 =
      (take false true 1 p).2.toList ++
        (take true false (periods line.bitTime (e.time + 12 * line.bitTime - (e.time + line.bitTime)))
          (take false true 1 p).1).2.toList := by
  have hpos := line.bitTime_pos
  have hone : periods line.bitTime (e.time + line.bitTime - e.time) = 1 := periods_of_near hpos (by omega) (by omega)
  simp only [onesAfter, run, process, hone, not_idleLevel_xor_invert, idleLevel_xor_invert, List.append_nil]

theorem nine_le_periods_onesAfter :
    9 ≤ periods line.bitTime (e.time + 12 * line.bitTime - (e.time + line.bitTime)) :=
  (le_periods_iff line.bitTime_pos).mpr (by omega)

/-- A decoder in which a start bit has begun reads the clean byte. -/
theorem run_onesAfter_start :
    ((⟨line.bitTime, line.invert, .start, e.time, !line.idleLevel⟩ : EdgeDecoder).run (onesAfter line e)).1 = [0xff] := by
  rw [run_onesAfter]
  show _ ++ (take true false _ (.data [])).2.toList = _
  rw [take_ones (p := .data []) (Nat.zero_lt_succ 7) nine_le_periods_onesAfter]
  rfl

/-- An idle decoder that missed the start edge does not read it. -/
theorem run_onesAfter_idle :
    ((⟨line.bitTime, line.invert, .idle, e.time, !line.idleLevel⟩ : EdgeDecoder).run (onesAfter line e)).1 = [] := by
  rw [run_onesAfter, take_idle, take_idle_ones (Nat.lt_of_lt_of_le (by decide) nine_le_periods_onesAfter)]
  rfl

end Ones

/-- A start edge that comes at most half a bit after a flush is missed. -/
theorem process_flushed_of_missed (hd : d.Reachable security.line) (hidle : d.lastLevel = security.line.idleLevel)
    (hsilence : d.lastTime + security.line.byteTimeout * 1000 ≤ now) {e : Edge}
    (hmissed : ¬ Noticed security.line now e) :
    (d.timeout now).2.process e = (none, ⟨d.bitTime, d.invert, .idle, e.time, e.level⟩) := by
  have hpos := security.line.bitTime_pos
  have hcount : ¬ 1 ≤ periods d.bitTime (e.time - now) := by
    rw [hd.bitTime, le_periods_iff hpos]
    intro hcount
    exact hmissed (.inr (by omega))
  rw [flush_eq hd hidle hsilence, process]
  dsimp only
  rw [Nat.lt_one_iff.mp (Nat.lt_of_not_le hcount)]
  rfl

/-- **When a flush disturbs nothing that follows it.**  After a silence of at least the byte timeout on an idle line, a
flush gives the byte that is open.  Whatever comes after the next edge, the edges give with the flush what they give
without it exactly if that edge does not start a byte within half a bit of the flush. -/
theorem flush_undisturbing_iff (security : Security) {d : EdgeDecoder} (hd : d.Reachable security.line)
    (hidle : d.lastLevel = security.line.idleLevel) {now : Nat}
    (hsilence : d.lastTime + security.line.byteTimeout * 1000 ≤ now) :
    (d.timeout now).1 = d.phase.completed ∧
      ∀ e : Edge, now ≤ e.time →
        ((∀ edges : List Edge, (∀ x ∈ edges, now ≤ x.time) →
            (d.timeout now).1.toList ++ ((d.timeout now).2.run (e :: edges)).1 = (d.run (e :: edges)).1) ↔
          e.level = security.line.idleLevel ∨ now + security.line.bitTime / 2 < e.time) := by
  refine ⟨by rw [flush_eq hd hidle hsilence], fun e hlater => ?_⟩
  have hflush : (d.timeout now).1 = (d.process e).1 := by
    rw [flush_eq hd hidle hsilence, process_after_silence hd hidle (Nat.le_trans hsilence hlater)]
  constructor
  · intro hsame
    refine Classical.byContradiction fun hmissed => ?_
    have hzero : e.level = !security.line.idleLevel := Bool.eq_not.mpr fun h => hmissed (.inl h)
    have hones := hsame (onesAfter security.line e) (by
      intro x hx
      simp only [onesAfter, List.mem_cons, List.not_mem_nil, or_false] at hx
      rcases hx with rfl | rfl
      · exact Nat.le_trans hlater (Nat.le_add_right _ _)
      · exact Nat.le_trans hlater (Nat.le_add_right _ _))
    rw [run, run, process_flushed_of_missed hd hidle hsilence hmissed, hflush,
      process_after_silence hd hidle (Nat.le_trans hsilence hlater), hd.bitTime, hd.invert, hzero] at hones
    dsimp only at hones
    rw [run_onesAfter_idle, not_idleLevel_xor_invert] at hones
    have hlost := List.append_cancel_left hones
    rw [show Phase.atRest false = .start from rfl, run_onesAfter_start] at hlost
    cases hlost
  · intro hnoticed edges _
    rw [run, run, process_flushed hd hidle hsilence hlater hnoticed, hflush]
    rfl

/-- A decoder that has taken the start bit of a byte of ones. -/
def openOnes : EdgeDecoder := ((EdgeDecoder.new 105 true).run [⟨1000, true⟩, ⟨1105, false⟩]).2

theorem reachable_openOnes : Reachable Security.plus2.line openOnes :=
  Reachable.run .new _

/-- A start edge 53 µs after a flush is seen, one 52 µs after it may be missed. -/
theorem flush_undisturbing_iff_half_bit :
    openOnes.phase.completed = some 0xff ∧
      (∀ edges : List Edge, (∀ x ∈ edges, 3105 ≤ x.time) →
        (openOnes.timeout 3105).1.toList ++ ((openOnes.timeout 3105).2.run (⟨3158, true⟩ :: edges)).1 =
          (openOnes.run (⟨3158, true⟩ :: edges)).1) ∧
      ¬ ∀ edges : List Edge, (∀ x ∈ edges, 3105 ≤ x.time) →
        (openOnes.timeout 3105).1.toList ++ ((openOnes.timeout 3105).2.run (⟨3157, true⟩ :: edges)).1 =
          (openOnes.run (⟨3157, true⟩ :: edges)).1 := by
  have hidle : openOnes.lastLevel = Security.plus2.line.idleLevel := by decide +kernel
  have hsilence : openOnes.lastTime + Security.plus2.line.byteTimeout * 1000 ≤ 3105 := by decide +kernel
  obtain ⟨-, hnext⟩ := flush_undisturbing_iff .plus2 reachable_openOnes hidle hsilence
  refine ⟨by decide +kernel, (hnext ⟨3158, true⟩ (by decide)).mpr (.inr (by decide)), fun hsame => ?_⟩
  rcases (hnext ⟨3157, true⟩ (by decide)).mp hsame with hlevel | hlate
  · exact absurd hlevel (by decide)
  · exact absurd hlate (by decide)

/-- A clean byte whose start edge comes 5 µs after a flush is lost. -/
theorem byte_lost_after_flush :
    Reachable Security.plus2.line openOnes ∧ openOnes.lastLevel = Security.plus2.line.idleLevel ∧
      openOnes.lastTime + Security.plus2.line.byteTimeout * 1000 ≤ 3105 ∧
      (openOnes.run [⟨3110, true⟩, ⟨3215, false⟩, ⟨6000, true⟩]).1 = [0xff, 0xff] ∧
      (openOnes.timeout 3105).1.toList ++
        ((openOnes.timeout 3105).2.run [⟨3110, true⟩, ⟨3215, false⟩, ⟨6000, true⟩]).1 = [0xff] := by
  refine ⟨reachable_openOnes, ?_, ?_, ?_, ?_⟩ <;> decide +kernel

end EdgeDecoder

end DoorBridge
