import DoorBridge.Proofs.Engine.Service

/-!
# Proofs.Log — what the log of a boot says about its counter

The log of a boot has an entry for every row handed to the bus driver, for every code used up, and for every attempt to
write the counter.

* `Course c n a p? log`: a boot from `c` that keeps to the rules has used `n` codes, tried to save the counter last after
  `a` of them, and last managed to after `p?`.
* `Course.nine_le`: two attempts lie at least nine codes apart, unless a restart asks for the later one.
* `Course.sends`, `Course.carried`: which codes the frames carry.
* `covered log` says, from the log alone, that a boot from the last saved counter starts past every frame;
  `Course.sends_of_covered` and `Course.sends_of_not_covered` justify it, and a boot whose writes all succeed is covered
  (`Course.covered_of_no_failure`).
-/

namespace DoorBridge

inductive LogEntry where
  /-- A row was handed to the bus driver. -/
  | frame (row : List UInt8)
  /-- A packet went out that uses up a code. -/
  | code
  /-- An attempt to write a counter, whether a restart asked for it, and whether it succeeded. -/
  | save (counter : Nat) (forced done : Bool)
  deriving DecidableEq, Repr

namespace LogEntry

def row? : LogEntry → Option (List UInt8)
  | frame row => some row
  | _ => none

def isFailure : LogEntry → Bool
  | save _ _ done => !done
  | _ => false

end LogEntry

/-- The rows handed to the bus driver. -/
def framesOf (log : List LogEntry) : List (List UInt8) := log.filterMap LogEntry.row?

/-- Number of codes used up. -/
def codesIn (log : List LogEntry) : Nat := log.count .code

/-- Number of writes of the counter that failed. -/
def failuresIn (log : List LogEntry) : Nat := log.countP LogEntry.isFailure

/-- Where a boot from the counter saved after some steps starts. -/
def nextStart (c p : Nat) : Nat := p + bootSteps (codeAfter c p)

theorem nextStart_bounds (c p : Nat) : p + 9 ≤ nextStart c p ∧ nextStart c p ≤ p + 10 := by
  have h := bootSteps_le (codeAfter c p)
  rw [nextStart]
  omega

theorem nextStart_mono (c : Nat) {p q : Nat} (h : p ≤ q) : nextStart c p ≤ nextStart c q := by
  have hp := nextStart_bounds c p
  have hq := nextStart_bounds c q
  rcases Nat.eq_or_lt_of_le h with rfl | hlt
  · exact Nat.le_refl _
  · omega

/-! ## Courses -/

/-- The log of a boot from `c` that has used `n` codes, tried to save its counter last after `a` of them, and managed to
last after `p?`.  A frame carries the code at hand and, like a code used up, comes before the counter is due to be saved;
an attempt comes when it is due, or when a restart asks for it. -/
inductive Course (c : Nat) : Nat → Nat → Option Nat → List LogEntry → Prop
  | boot (done : Bool) : Course c 0 0 (if done then some 0 else none) [.save c false done]
  | frame {n a : Nat} {p? : Option Nat} {log : List LogEntry} {row : List UInt8} (h : Course c n a p? log)
      (short : n < nextStart c a) (code : codeOf? row = some (codeAfter c n)) : Course c n a p? (log ++ [.frame row])
  | code {n a : Nat} {p? : Option Nat} {log : List LogEntry} (h : Course c n a p? log) (short : n < nextStart c a)
      (carried : ∃ row ∈ framesOf log, codeOf? row = some (codeAfter c n)) : Course c (n + 1) a p? (log ++ [.code])
  | save {n a : Nat} {p? : Option Nat} {log : List LogEntry} (forced done : Bool) (h : Course c n a p? log)
      (due : forced = false → n = nextStart c a) :
      Course c n n (if done then some n else p?) (log ++ [.save (codeAfter c n) forced done])

/-! ## Entries at the end of a log -/

section Concat

variable (log : List LogEntry) (row : List UInt8) (counter : Nat) (forced done : Bool)

@[simp] theorem framesOf_frame : framesOf (log ++ [.frame row]) = framesOf log ++ [row] := by
  simp [framesOf, LogEntry.row?]

@[simp] theorem framesOf_code : framesOf (log ++ [.code]) = framesOf log := by
  simp [framesOf, LogEntry.row?]

@[simp] theorem framesOf_save : framesOf (log ++ [.save counter forced done]) = framesOf log := by
  simp [framesOf, LogEntry.row?]

@[simp] theorem codesIn_frame : codesIn (log ++ [.frame row]) = codesIn log := by
  simp [codesIn]

@[simp] theorem codesIn_code : codesIn (log ++ [.code]) = codesIn log + 1 := by
  simp [codesIn]

@[simp] theorem codesIn_save : codesIn (log ++ [.save counter forced done]) = codesIn log := by
  simp [codesIn]

@[simp] theorem failuresIn_frame : failuresIn (log ++ [.frame row]) = failuresIn log := by
  simp [failuresIn, LogEntry.isFailure]

@[simp] theorem failuresIn_code : failuresIn (log ++ [.code]) = failuresIn log := by
  simp [failuresIn, LogEntry.isFailure]

@[simp] theorem failuresIn_save : failuresIn (log ++ [.save counter forced done]) =
    failuresIn log + if done then 0 else 1 := by
  cases done <;> simp [failuresIn, LogEntry.isFailure]

end Concat

namespace Course

variable {c n a : Nat} {p? : Option Nat} {log : List LogEntry}

/-! ## Counts -/

theorem codesIn_eq (h : Course c n a p? log) : codesIn log = n := by
  induction h with
  | boot done => rfl
  | frame _ _ _ ih => rw [codesIn_frame, ih]
  | code _ _ _ ih => rw [codesIn_code, ih]
  | save forced done _ _ ih => rw [codesIn_save, ih]

theorem tried_le (h : Course c n a p? log) : a ≤ n := by
  induction h with
  | boot done => exact Nat.le_refl 0
  | frame _ _ _ ih => exact ih
  | code _ _ _ ih => omega
  | save forced done _ _ _ => exact Nat.le_refl _

theorem used_le (h : Course c n a p? log) : n ≤ nextStart c a := by
  have hbounds := nextStart_bounds c
  induction h with
  | boot done => exact Nat.zero_le _
  | frame _ _ _ ih => exact ih
  | code _ hshort _ _ => exact hshort
  | @save n _ _ _ _ _ _ _ _ =>
    have hn := hbounds n
    omega

/-- As long as all writes succeed, the last attempt is the last success. -/
theorem saved_of_no_failure (h : Course c n a p? log) (hnone : failuresIn log = 0) : p? = some a := by
  induction h with
  | boot done =>
    cases done with
    | true => rfl
    | false => contradiction
  | frame _ _ _ ih => exact ih (by simpa using hnone)
  | code _ _ _ ih => exact ih (by simpa using hnone)
  | save forced done _ _ _ =>
    cases done with
    | true => rfl
    | false => simp at hnone

end Course

/-! ## Attempts to save -/

/-- An entry of a log with one entry more is the new one, or was there before. -/
theorem concat_eq_append_cons {log before after : List LogEntry} {e x : LogEntry}
    (h : log ++ [e] = before ++ x :: after) :
    (e = x ∧ log = before) ∨ ∃ rest, log = before ++ x :: rest := by
  rcases List.eq_nil_or_concat after with rfl | ⟨rest, last, rfl⟩
  · obtain ⟨hlog, he⟩ := List.append_inj' h rfl
    exact .inl ⟨List.singleton_inj.mp he, hlog⟩
  · rw [List.concat_eq_append, ← List.cons_append, ← List.append_assoc] at h
    exact .inr ⟨rest, List.append_inj_left' h rfl⟩

namespace Course

variable {c n a : Nat} {p? : Option Nat} {log : List LogEntry}

/-- Codes used before some attempt were used before the last one. -/
theorem codesIn_le_tried (h : Course c n a p? log) {before after : List LogEntry} {counter : Nat} {forced done : Bool}
    (hlog : log = before ++ .save counter forced done :: after) : codesIn before ≤ a := by
  induction h generalizing after with
  | boot =>
    rw [← List.nil_append [LogEntry.save c false _]] at hlog
    rcases concat_eq_append_cons hlog with ⟨-, rfl⟩ | ⟨rest, hrest⟩
    · exact Nat.zero_le _
    · simp at hrest
  | frame h _ _ ih =>
    rcases concat_eq_append_cons hlog with ⟨he, -⟩ | ⟨rest, hrest⟩
    · contradiction
    · exact ih hrest
  | code h _ _ ih =>
    rcases concat_eq_append_cons hlog with ⟨he, -⟩ | ⟨rest, hrest⟩
    · contradiction
    · exact ih hrest
  | save _ _ h _ ih =>
    rcases concat_eq_append_cons hlog with ⟨-, hbefore⟩ | ⟨rest, hrest⟩
    · rw [← hbefore, h.codesIn_eq]
    · exact (ih hrest).trans h.tried_le

/-- **At least nine codes lie between two attempts to save**, unless a restart asks for the later one. -/
theorem nine_le (h : Course c n a p? log) {before between after : List LogEntry} {x y : Nat} {forced done done' : Bool}
    (hlog : log = before ++ .save x forced done :: between ++ .save y false done' :: after) : 9 ≤ codesIn between := by
  induction h generalizing after with
  | boot =>
    rw [← List.nil_append [LogEntry.save c false _]] at hlog
    rcases concat_eq_append_cons hlog with ⟨-, hbefore⟩ | ⟨rest, hrest⟩
    · simp at hbefore
    · simp at hrest
  | frame _ _ _ ih =>
    rcases concat_eq_append_cons hlog with ⟨he, -⟩ | ⟨rest, hrest⟩
    · contradiction
    · exact ih hrest
  | code _ _ _ ih =>
    rcases concat_eq_append_cons hlog with ⟨he, -⟩ | ⟨rest, hrest⟩
    · contradiction
    · exact ih hrest
  | @save n a _ log _ _ h hdue ih =>
    rcases concat_eq_append_cons hlog with ⟨he, hbefore⟩ | ⟨rest, hrest⟩
    · have hforced := (LogEntry.save.inj he).2.1
      have htried := h.codesIn_le_tried hbefore
      have hused := h.codesIn_eq
      have hcount : codesIn log = codesIn before + codesIn between := by
        rw [hbefore]
        simp [codesIn]
      have hbounds := (nextStart_bounds c a).1
      have hn := hdue hforced
      omega
    · exact ih hrest

/-! ## Frames -/

/-- Every frame carries a code from before the counter is due to be saved. -/
theorem sends (h : Course c n a p? log) :
    ∀ row ∈ framesOf log, ∃ m < nextStart c a, codeOf? row = some (codeAfter c m) := by
  induction h with
  | boot => simp [framesOf, LogEntry.row?]
  | @frame n a _ _ row _ hshort hcode ih =>
    intro row' hrow
    rw [framesOf_frame, List.mem_append, List.mem_singleton] at hrow
    rcases hrow with hrow | rfl
    · exact ih row' hrow
    · exact ⟨n, hshort, hcode⟩
  | code _ _ _ ih =>
    rw [framesOf_code]
    exact ih
  | save _ _ h _ ih =>
    rw [framesOf_save]
    intro row hrow
    obtain ⟨m, hm, hcode⟩ := ih row hrow
    exact ⟨m, hm.trans_le (nextStart_mono c h.tried_le), hcode⟩

/-- Every code used up was carried by a frame. -/
theorem carried (h : Course c n a p? log) :
    ∀ m < n, ∃ row ∈ framesOf log, codeOf? row = some (codeAfter c m) := by
  induction h with
  | boot => exact fun m hm => absurd hm (Nat.not_lt_zero m)
  | frame _ _ _ ih =>
    intro m hm
    obtain ⟨row, hrow, hcode⟩ := ih m hm
    rw [framesOf_frame]
    exact ⟨row, List.mem_append_left _ hrow, hcode⟩
  | code _ _ hcarried ih =>
    intro m hm
    rw [framesOf_code]
    rcases Nat.lt_succ_iff_lt_or_eq.mp hm with hm | rfl
    · exact ih m hm
    · exact hcarried
  | save _ _ _ _ ih =>
    rw [framesOf_save]
    exact ih

end Course

/-! ## Covered logs -/

/-- What can be told of a log from its last successful save on: the counter saved, the codes used since, and whether a
boot from that counter would start past every frame since. -/
structure Cover where
  saved? : Option Nat := none
  used : Nat := 0
  whole : Bool := true
  deriving DecidableEq, Repr

namespace Cover

/-- Whether a boot from the saved counter would start past a frame sent now. -/
def passesNow (v : Cover) : Bool := v.saved?.any fun counter => v.used < bootSteps counter

def add (v : Cover) : LogEntry → Cover
  | .frame _ => { v with whole := v.whole && v.passesNow }
  | .code => { v with used := v.used + 1 }
  | .save counter _ true => { saved? := some counter }
  | .save _ _ false => v

end Cover

def coverOf (log : List LogEntry) : Cover := log.foldl Cover.add {}

theorem coverOf_concat (log : List LogEntry) (e : LogEntry) : coverOf (log ++ [e]) = (coverOf log).add e := by
  simp [coverOf]

/-- Whether the next boot starts past every frame of a boot, as far as its own log tells: every frame comes before a
successful write of the counter, or less than the step taken at boot after one. -/
def covered (log : List LogEntry) : Bool := (coverOf log).whole

/-- Where the next boot starts, in steps of a boot from `c` that last saved its counter after `p?`.  If it never did, the
next boot starts where this one did. -/
def resumeAt (c : Nat) : Option Nat → Nat
  | none => 0
  | some p => nextStart c p

namespace Course

variable {c n a : Nat} {p? : Option Nat} {log : List LogEntry}

/-- The last saved counter and the codes used since. -/
theorem coverOf_eq (h : Course c n a p? log) :
    (coverOf log).saved? = p?.map (codeAfter c) ∧ ∀ p, p? = some p → p + (coverOf log).used = n := by
  induction h with
  | boot done => cases done <;> simp [coverOf, Cover.add, codeAfter]
  | frame _ _ _ ih =>
    rw [coverOf_concat]
    exact ih
  | code _ _ _ ih =>
    rw [coverOf_concat]
    exact ⟨ih.1, fun p hp => congrArg (· + 1) (ih.2 p hp)⟩
  | save forced done _ _ ih =>
    rw [coverOf_concat]
    cases done with
    | true => exact ⟨rfl, fun p hp => (Option.some.inj hp).symm⟩
    | false => exact ih

theorem passesNow_iff (h : Course c n a p? log) : (coverOf log).passesNow = true ↔ n < resumeAt c p? := by
  obtain ⟨hsaved, hused⟩ := h.coverOf_eq
  rw [Cover.passesNow, hsaved]
  cases p? with
  | none => simp [resumeAt]
  | some p =>
    have hn := hused p rfl
    simp only [Option.map_some, Option.any_some, decide_eq_true_eq, resumeAt, nextStart]
    omega

/-- **The next boot starts past every frame of a covered log.** -/
theorem sends_of_covered (h : Course c n a p? log) (hcovered : covered log = true) :
    ∀ row ∈ framesOf log, ∃ m < resumeAt c p?, codeOf? row = some (codeAfter c m) := by
  induction h with
  | boot => simp [framesOf, LogEntry.row?]
  | @frame n _ _ _ row h _ hcode ih =>
    rw [covered, coverOf_concat, Cover.add, Bool.and_eq_true_iff, h.passesNow_iff] at hcovered
    intro row' hrow
    rw [framesOf_frame, List.mem_append, List.mem_singleton] at hrow
    rcases hrow with hrow | rfl
    · exact ih hcovered.1 row' hrow
    · exact ⟨n, hcovered.2, hcode⟩
  | code _ _ _ ih =>
    rw [covered, coverOf_concat] at hcovered
    rw [framesOf_code]
    exact ih hcovered
  | @save n a _ _ _ done h _ ih =>
    rw [framesOf_save]
    cases done with
    | true =>
      intro row hrow
      obtain ⟨m, hm, hcode⟩ := h.sends row hrow
      exact ⟨m, hm.trans_le (nextStart_mono c h.tried_le), hcode⟩
    | false =>
      rw [covered, coverOf_concat] at hcovered
      exact ih hcovered

/-- **The next boot starts with a code that a frame carried**, if the log is not covered. -/
theorem sends_of_not_covered (h : Course c n a p? log) (hopen : covered log = false) :
    ∃ row ∈ framesOf log, codeOf? row = some (codeAfter c (resumeAt c p?)) := by
  induction h with
  | boot done => cases done <;> contradiction
  | @frame n _ p? log row h _ hcode ih =>
    rw [framesOf_frame]
    rw [covered, coverOf_concat, Cover.add, Bool.and_eq_false_iff] at hopen
    rcases hopen with hold | hnow
    · obtain ⟨row', hrow, hsame⟩ := ih hold
      exact ⟨row', List.mem_append_left _ hrow, hsame⟩
    · -- the counter has come to where the next boot starts, in this frame or in one before it
      have hreached : resumeAt c p? ≤ n :=
        Nat.le_of_not_lt fun hlt => Bool.false_ne_true (hnow.symm.trans (h.passesNow_iff.mpr hlt))
      rcases Nat.eq_or_lt_of_le hreached with hn | hlt
      · exact ⟨row, List.mem_append_right _ (List.mem_singleton_self row), hn ▸ hcode⟩
      · obtain ⟨row', hrow, hsame⟩ := h.carried _ hlt
        exact ⟨row', List.mem_append_left _ hrow, hsame⟩
  | code _ _ _ ih =>
    rw [covered, coverOf_concat] at hopen
    rw [framesOf_code]
    exact ih hopen
  | save _ done _ _ ih =>
    rw [framesOf_save]
    rw [covered, coverOf_concat] at hopen
    cases done with
    | true => contradiction
    | false => exact ih hopen

theorem covered_of_no_failure (h : Course c n a p? log) (hnone : failuresIn log = 0) : covered log = true := by
  induction h with
  | boot done => cases done <;> rfl
  | frame h hshort _ ih =>
    rw [failuresIn_frame] at hnone
    rw [covered, coverOf_concat, Cover.add, Bool.and_eq_true_iff, h.passesNow_iff, h.saved_of_no_failure hnone]
    exact ⟨ih hnone, hshort⟩
  | code _ _ _ ih =>
    rw [failuresIn_code] at hnone
    rw [covered, coverOf_concat]
    exact ih hnone
  | save _ done _ _ ih =>
    rw [failuresIn_save] at hnone
    rw [covered, coverOf_concat]
    cases done with
    | true => rfl
    | false => contradiction

/-- With one failed write the last attempt does not come later than where the next boot starts. -/
theorem tried_le_resumeAt (h : Course c n a p? log) (hone : failuresIn log ≤ 1) : a ≤ resumeAt c p? := by
  induction h with
  | boot done => exact Nat.zero_le _
  | frame _ _ _ ih => exact ih (by simpa using hone)
  | code _ _ _ ih => exact ih (by simpa using hone)
  | @save n a p? log _ done h _ ih =>
    rw [failuresIn_save] at hone
    cases done with
    | true =>
      have hn := (nextStart_bounds c n).1
      show n ≤ nextStart c n
      omega
    | false =>
      have hnone : failuresIn log = 0 := by simpa using hone
      simp only [h.saved_of_no_failure hnone]
      exact h.used_le

end Course

end DoorBridge
