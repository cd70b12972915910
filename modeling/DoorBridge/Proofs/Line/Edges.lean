import DoorBridge.Line.Edges

/-!
# Proofs.Line.Edges — what the decoder does with a held level

* `EdgeDecoder.periods` rounds to the nearest: at least `n` bit times were counted exactly if the time falls short of
  `n` bit times by less than half a bit (`le_periods_iff`).
* `Phase.pending` is the number of bit times at the idle level after which no byte is open, `Phase.completed` the byte
  that these ones complete (`take_ones`).  At the other level it takes eleven bit times, and there is no byte
  (`take_zeros`).
* `EdgeDecoder.run` takes a row of edges.  In every decoder that a line can come to (`Reachable`) fewer than eight data
  bits are waiting for the next one (`Reachable.wellFormed`).
-/

namespace DoorBridge

theorem LineSettings.bitTime_pos (s : LineSettings) : 0 < s.bitTime := by
  have hbaud := s.baud_pos
  exact Nat.div_pos (by omega) hbaud

namespace EdgeDecoder

/-! ## Bit times in an interval -/

section Periods

variable {bitTime : Nat}

/-- Counting bit times adds almost half a bit and drops what is left of a bit. -/
theorem periods_eq (hpos : 0 < bitTime) (elapsed : Nat) :
    periods bitTime elapsed = (elapsed + (bitTime - 1) / 2) / bitTime := by
  have hrest : elapsed % bitTime < bitTime := Nat.mod_lt _ hpos
  have hsplit : elapsed + (bitTime - 1) / 2 = elapsed % bitTime + (bitTime - 1) / 2 + bitTime * (elapsed / bitTime) := by
    have hdiv := Nat.div_add_mod elapsed bitTime
    omega
  rw [periods, hsplit, Nat.add_mul_div_left _ _ hpos, Nat.add_comm]
  congr 1
  by_cases hround : elapsed % bitTime > bitTime / 2
  · rw [if_pos hround, eq_comm, Nat.div_eq_iff hpos]
    omega
  · rw [if_neg hround, eq_comm, Nat.div_eq_iff hpos]
    omega

/-- At least `n` bit times are counted exactly if less than half a bit is missing. -/
theorem le_periods_iff (hpos : 0 < bitTime) {n elapsed : Nat} :
    n ≤ periods bitTime elapsed ↔ n * bitTime ≤ elapsed + (bitTime - 1) / 2 := by
  rw [periods_eq hpos, Nat.le_div_iff_mul_le hpos]

/-- An interval that is off `n` bit times by less than half a bit counts as `n`. -/
theorem periods_of_near (hpos : 0 < bitTime) {n elapsed : Nat} (hlow : 2 * (n * bitTime) < 2 * elapsed + bitTime)
    (hhigh : 2 * elapsed < 2 * (n * bitTime) + bitTime) : periods bitTime elapsed = n := by
  have hle : n ≤ periods bitTime elapsed := (le_periods_iff hpos).mpr (by omega)
  have hlt : ¬ n + 1 ≤ periods bitTime elapsed := by
    rw [le_periods_iff hpos, Nat.succ_mul]
    omega
  omega

end Periods

/-! ## Ones on the line -/

/-- Number of bit times at the idle level after which no byte is open and a start bit is seen as one. -/
def Phase.pending : Phase → Nat
  | .idle => 1
  | .start => 2
  | .data taken => 9 - taken.length
  | .stop _ => 1

/-- The byte that ones complete, if the start bit is past. -/
def Phase.completed : Phase → Option UInt8
  | .idle | .start => none
  | .data taken => some (byteOfData (taken ++ List.replicate (8 - taken.length) true))
  | .stop taken => some (byteOfData taken)

/-- A byte waits for a data bit as long as it has fewer than eight. -/
def Phase.WellFormed : Phase → Prop
  | .idle | .start => True
  | .data taken => taken.length < 8
  | .stop taken => taken.length = 8

/-- The phase in which an idle line leaves the decoder that changes to a level, or stays. -/
def Phase.atRest (next : Bool) : Phase := if next then .idle else .start

/-- Ones complete a byte exactly if the start bit is past: the bits taken, followed by ones. -/
theorem Phase.completed_eq_some_iff {p : Phase} (h : p.WellFormed) {byte : UInt8} :
    p.completed = some byte ↔ ∃ taken, (p = .data taken ∨ p = .stop taken) ∧
      byte = byteOfData (taken ++ List.replicate (8 - taken.length) true) := by
  cases p with
  | idle | start => simp [Phase.completed]
  | data taken => simp [Phase.completed, eq_comm]
  | stop taken =>
    have htaken : taken.length = 8 := h
    simp [Phase.completed, htaken, eq_comm]

theorem Phase.pending_le (p : Phase) : p.pending ≤ 9 := by
  cases p with
  | data taken => exact Nat.sub_le 9 _
  | idle | start | stop _ => exact Nat.le_of_ble_eq_true rfl

theorem take_idle_ones {n : Nat} (hn : 0 < n) (next : Bool) : take true next n .idle = (.atRest next, none) := by
  cases n with
  | zero => exact absurd hn (Nat.lt_irrefl 0)
  | succ n => cases next <;> rfl

/-- An idle decoder starts a byte only on a change to zero. -/
theorem take_idle (held : Bool) : ∀ n : Nat, take held true n .idle = (.idle, none)
  | 0 => rfl
  | _ + 1 => by cases held <;> rfl

theorem take_stop_ones {n : Nat} (hn : 0 < n) (next : Bool) (taken : List Bool) :
    take true next n (.stop taken) = (.atRest next, some (byteOfData taken)) := by
  cases n with
  | zero => exact absurd hn (Nat.lt_irrefl 0)
  | succ n => cases next <;> cases n <;> rfl

theorem take_data_ones (next : Bool) : ∀ (missing : Nat) {n : Nat} {taken : List Bool}, taken.length + missing = 7 →
    missing + 2 ≤ n → take true next n (.data taken) =
      (.atRest next, some (byteOfData (taken ++ List.replicate (missing + 1) true)))
  | missing, n + 1, taken, hmissing, hn => by
    have hlength : (taken ++ [true]).length = taken.length + 1 := List.length_append
    cases missing with
    | zero =>
      rw [take, hlength, if_pos (by omega), take_stop_ones (by omega)]
      rfl
    | succ missing =>
      rw [take, hlength, if_neg (by omega), take_data_ones next missing (by omega) (by omega), List.append_assoc]
      rfl

/-- **Enough ones bring every phase to rest and complete the open byte.** -/
theorem take_ones {p : Phase} (h : p.WellFormed) {n : Nat} (hn : p.pending ≤ n) (next : Bool) :
    take true next n p = (.atRest next, p.completed) := by
  cases p with
  | idle => exact take_idle_ones hn next
  | start =>
    obtain ⟨m, rfl⟩ : ∃ m, n = m + 1 := ⟨n - 1, by rw [Phase.pending] at hn; omega⟩
    exact take_idle_ones (Nat.le_of_succ_le_succ hn) next
  | data taken =>
    have htaken : taken.length < 8 := h
    rw [Phase.pending] at hn
    rw [take_data_ones next (7 - taken.length) (by omega) (by omega), Phase.completed,
      show 7 - taken.length + 1 = 8 - taken.length by omega]
  | stop taken => exact take_stop_ones hn next taken

section Silence

variable {d : EdgeDecoder} (hwell : d.phase.WellFormed) (hheld : (d.lastLevel ^^ d.invert) = true)

include hwell hheld

/-- An edge after enough ones completes the open byte and may start the next one. -/
theorem process_ones {e : Edge} (hpending : d.phase.pending ≤ periods d.bitTime (e.time - d.lastTime)) :
    d.process e = (d.phase.completed, ⟨d.bitTime, d.invert, .atRest (e.level ^^ d.invert), e.time, e.level⟩) := by
  rw [process, hheld, take_ones hwell hpending]

/-- A timeout after enough ones completes the open byte and leaves the decoder idle. -/
theorem timeout_ones {now : Nat} (hpending : d.phase.pending ≤ periods d.bitTime (now - d.lastTime)) :
    d.timeout now = (d.phase.completed, ⟨d.bitTime, d.invert, .idle, now, d.lastLevel⟩) := by
  rw [timeout, process_ones hwell hheld hpending, hheld]
  rfl

end Silence

/-! ## Zeros on the line -/

/-- A zero in place of the stop bit drops the byte.  The next byte is opened by it only if the line then changes at once,
so not if it is held any longer. -/
theorem take_stop_zeros {n : Nat} (hn : 2 ≤ n) (taken : List Bool) : take false false n (.stop taken) = (.idle, none) := by
  obtain ⟨m, rfl⟩ : ∃ m, n = m + 2 := ⟨n - 2, by omega⟩
  rfl

theorem take_data_zeros : ∀ (missing : Nat) {n : Nat} {taken : List Bool}, taken.length + missing = 7 →
    missing + 3 ≤ n → take false false n (.data taken) = (.idle, none)
  | missing, n + 1, taken, hmissing, hn => by
    have hlength : (taken ++ [false]).length = taken.length + 1 := List.length_append
    cases missing with
    | zero => rw [take, hlength, if_pos (by omega), take_stop_zeros (by omega)]
    | succ missing => rw [take, hlength, if_neg (by omega), take_data_zeros missing (by omega) (by omega)]

/-- **Eleven zeros bring every phase to rest, and complete no byte:** a start bit, eight data bits, a zero in place of the
stop bit, and one more. -/
theorem take_zeros {p : Phase} (h : p.WellFormed) {n : Nat} (hn : 11 ≤ n) : take false false n p = (.idle, none) := by
  obtain ⟨m, rfl⟩ : ∃ m, n = m + 1 := ⟨n - 1, by omega⟩
  cases p with
  | idle => rfl
  | start =>
    show take false false m (.data []) = (.idle, none)
    exact take_data_zeros 7 rfl (by omega)
  | data taken =>
    have htaken : taken.length < 8 := h
    exact take_data_zeros (7 - taken.length) (by omega) (by omega)
  | stop taken => exact take_stop_zeros (by omega) taken

theorem take_wellFormed (held next : Bool) : ∀ (n : Nat) {p : Phase}, p.WellFormed → (take held next n p).1.WellFormed
  | 0, _, h => h
  | n + 1, p, h => by
    cases p with
    | idle =>
      rw [take]
      split <;> trivial
    | start =>
      rw [take]
      apply take_wellFormed
      split
      · trivial
      · exact Nat.zero_lt_succ 7
    | data taken =>
      have htaken : taken.length < 8 := h
      have hlength : (taken ++ [held]).length = taken.length + 1 := List.length_append
      rw [take]
      apply take_wellFormed
      by_cases hlast : (taken ++ [held]).length = 8
      · rw [if_pos hlast]
        exact hlast
      · rw [if_neg hlast]
        show (taken ++ [held]).length < 8
        omega
    | stop taken =>
      rw [take]
      dsimp only
      split <;> trivial

/-! ## Rows of edges -/

/-- The bytes that a row of edges completes, and the decoder after it. -/
def run (d : EdgeDecoder) : List Edge → List UInt8 × EdgeDecoder
  | [] => ([], d)
  | e :: edges =>
    let rest := (d.process e).2.run edges
    ((d.process e).1.toList ++ rest.1, rest.2)

/-- The decoders that a line with these settings can come to. -/
inductive Reachable (line : LineSettings) : EdgeDecoder → Prop
  | new : Reachable line (.new line.bitTime line.invert)
  | process {d : EdgeDecoder} (e : Edge) : Reachable line d → Reachable line (d.process e).2
  | timeout {d : EdgeDecoder} (now : Nat) : Reachable line d → Reachable line (d.timeout now).2

namespace Reachable

variable {line : LineSettings} {d : EdgeDecoder}

theorem bitTime (h : Reachable line d) : d.bitTime = line.bitTime := by
  induction h with
  | new => exact Nat.max_eq_left line.bitTime_pos
  | process e _ ih => exact ih
  | timeout now _ ih => exact ih

theorem invert (h : Reachable line d) : d.invert = line.invert := by
  induction h with
  | new => rfl
  | process e _ ih => exact ih
  | timeout now _ ih => exact ih

theorem wellFormed (h : Reachable line d) : d.phase.WellFormed := by
  induction h with
  | new => trivial
  | process e _ ih => exact take_wellFormed _ _ _ ih
  | timeout now _ ih => exact take_wellFormed _ _ _ ih

theorem run (h : Reachable line d) (edges : List Edge) : Reachable line (d.run edges).2 := by
  induction edges generalizing d with
  | nil => exact h
  | cons e edges ih => exact ih (h.process e)

end Reachable

end EdgeDecoder

end DoorBridge
