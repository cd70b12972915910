import DoorBridge.Proofs.Queue

/-!
# Proofs.Queue.Sweep — discarding in the room that the queue has

A sweep takes actions off the front and puts them back at the end, where there is room for a bounded number only.
`Sweep.turns_row` is its invariant: in front stand the actions that are still to be asked about, behind them those that were
kept.  So a sweep does what a discard does (`sweep_eq`), and asks about every action once, from front to back
(`discard_asks_in_order`).
-/

namespace DoorBridge

namespace Queue

section Sweep

variable {σ : Type} (drop : σ → PacketAction → Bool × σ)

/-! ## What is asked -/

/-- The state of the predicate once it was asked about a row of actions. -/
def stateAfter (state : σ) (row : List PacketAction) : σ := row.foldl (fun state a => (drop state a).2) state

/-- What the predicate answers about a row of actions, one after another. -/
def answers (state : σ) : List PacketAction → List (PacketAction × Bool)
  | [] => []
  | a :: rest => (a, (drop state a).1) :: answers (drop state a).2 rest

/-- The same predicate, with the questions that it was asked and its answers written down. -/
def recording (state : σ × List (PacketAction × Bool)) (a : PacketAction) :
    Bool × σ × List (PacketAction × Bool) :=
  ((drop state.1 a).1, (drop state.1 a).2, state.2 ++ [(a, (drop state.1 a).1)])

theorem map_fst_answers (state : σ) (row : List PacketAction) : (answers drop state row).map Prod.fst = row := by
  induction row generalizing state with
  | nil => rfl
  | cons a rest ih => rw [answers, List.map_cons, ih]

theorem stateAfter_recording (state : σ) (log : List (PacketAction × Bool)) (row : List PacketAction) :
    stateAfter (recording drop) (state, log) row = (stateAfter drop state row, log ++ answers drop state row) := by
  induction row generalizing state log with
  | nil => rw [answers, List.append_nil]; rfl
  | cons a rest ih =>
    have hnext := ih (drop state a).2 (log ++ [(a, (drop state a).1)])
    rw [List.append_assoc] at hnext
    exact hnext

/-- Writing it down changes nothing. -/
theorem discard_go_recording (state : σ) (log : List (PacketAction × Bool)) (row : List PacketAction) :
    discard.go (recording drop) (state, log) row = discard.go drop state row := by
  induction row generalizing state log with
  | nil => rfl
  | cons a rest ih => simp only [discard.go, recording, ih]

/-! ## What is kept -/

/-- What a discard keeps are the actions for which the answer was no. -/
theorem actions_discard_go (state : σ) (row : List PacketAction) :
    (discard.go drop state row).2.actions = ((answers drop state row).filter (!·.2)).map Prod.fst := by
  induction row generalizing state with
  | nil => rfl
  | cons a rest ih =>
    rw [discard_go_cons, answers, List.filter_cons, ih]
    cases (drop state a).1 <;> rfl

/-- Every action is either counted or kept. -/
theorem count_add_kept (state : σ) (row : List PacketAction) :
    (discard.go drop state row).1 + (discard.go drop state row).2.actions.length = row.length := by
  induction row generalizing state with
  | nil => rfl
  | cons a rest ih =>
    have hrest := ih (drop state a).2
    simp only [discard.go]
    cases (drop state a).1 with
    | true =>
      simp only [if_true, List.length_cons]
      omega
    | false =>
      simp only [Bool.false_eq_true, if_false, List.length_cons]
      omega

/-! ## One turn and all of them -/

/-- The action that was taken off the front has left room for itself at the end. -/
theorem Sweep.turn_cons {a : PacketAction} {rest : List PacketAction} (h : rest.length < queueDepth) (state : σ)
    (count : Nat) : Sweep.turn drop ⟨state, count, ⟨a :: rest⟩⟩ =
      if (drop state a).1 then ⟨(drop state a).2, count + 1, ⟨rest⟩⟩ else ⟨(drop state a).2, count, ⟨rest ++ [a]⟩⟩ := by
  have hroom : (⟨rest⟩ : Queue).fits [a] = true := decide_eq_true h
  have hpush : (⟨rest⟩ : Queue).push? [a] = some ⟨rest ++ [a]⟩ := if_pos hroom
  show (if (drop state a).1 then _ else (⟨(drop state a).2, count, ((⟨rest⟩ : Queue).push? [a]).getD _⟩ : Sweep σ)) = _
  rw [hpush]
  rfl

/-- **The invariant of a sweep**: the actions still to be asked about stand in front of those that were kept. -/
theorem Sweep.turns_row {row kept : List PacketAction} (h : (row ++ kept).length ≤ queueDepth) (state : σ) (count : Nat) :
    Sweep.turns drop row.length ⟨state, count, ⟨row ++ kept⟩⟩ =
      ⟨stateAfter drop state row, count + (discard.go drop state row).1,
        ⟨kept ++ (discard.go drop state row).2.actions⟩⟩ := by
  induction row generalizing kept state count with
  | nil =>
    rw [discard.go, List.append_nil]
    rfl
  | cons a rest ih =>
    have hrest : (rest ++ kept).length < queueDepth := h
    have hturn := Sweep.turn_cons drop (a := a) hrest state count
    rw [List.length_cons, Sweep.turns, List.cons_append, hturn, discard_go_cons]
    simp only [discard.go]
    cases hdrop : (drop state a).1 with
    | true =>
      rw [if_pos rfl, if_pos rfl, if_pos rfl, ih (Nat.le_of_lt hrest), Nat.add_assoc, Nat.add_comm 1]
      rfl
    | false =>
      have hroom : (rest ++ (kept ++ [a])).length ≤ queueDepth := by
        rw [← List.append_assoc, List.length_append]
        exact hrest
      rw [if_neg Bool.false_ne_true, if_neg Bool.false_ne_true, if_neg Bool.false_ne_true, List.append_assoc, ih hroom,
        List.append_assoc]
      rfl

/-- A sweep of a queue that is not overfull is a discard. -/
theorem sweep_eq {q : Queue} (h : q.size ≤ queueDepth) (state : σ) : q.sweep drop state =
    ⟨stateAfter drop state q.actions, (q.discard drop state).1, (q.discard drop state).2⟩ := by
  have hrow : (q.actions ++ []).length ≤ queueDepth := by rwa [List.append_nil]
  have hturns := Sweep.turns_row drop hrow state 0
  rw [List.append_nil, Nat.zero_add] at hturns
  exact hturns

/-- **A discard in place asks about every action once, from front to back, and loses none that it keeps.**  With the
questions and the answers written down: the questions are the queued actions in their order, what stays is what the answer
was no for, and the rest was counted.  Nothing hangs on the writing down, and the queue and the count are those of
`discard`. -/
theorem discard_asks_in_order {q : Queue} (h : q.size ≤ queueDepth) (state : σ) :
    let done := q.sweep (recording drop) (state, [])
    let asked := done.state.2
    asked.map Prod.fst = q.actions ∧
      done.queue.actions = (asked.filter (!·.2)).map Prod.fst ∧
      done.count + done.queue.size = q.size ∧
      q.sweep drop state = ⟨done.state.1, done.count, done.queue⟩ ∧
      q.discard drop state = (done.count, done.queue) := by
  have hdone : q.sweep (recording drop) (state, []) =
      ⟨(stateAfter drop state q.actions, answers drop state q.actions), (q.discard drop state).1,
        (q.discard drop state).2⟩ := by
    rw [sweep_eq (recording drop) h, stateAfter_recording, List.nil_append, discard, discard_go_recording]
    rfl
  dsimp only
  rw [hdone]
  exact ⟨map_fst_answers drop state q.actions, actions_discard_go drop state q.actions,
    count_add_kept drop state q.actions, sweep_eq drop h state, rfl⟩

end Sweep

/-- A full queue of status requests and lock releases in turn. -/
def fullQueue : Queue :=
  ⟨(List.range 4).flatMap fun i => [⟨.getStatus, true, i⟩, ⟨.lock .toggle false, false, i⟩]⟩

/-- Drops the first three of the actions that use up a code. -/
def dropsThree (dropped : Nat) (a : PacketAction) : Bool × Nat :=
  if a.usesCode ∧ dropped < 3 then (true, dropped + 1) else (false, dropped)

/-- In a full queue an action that is kept finds the room that it has just left. -/
theorem discard_asks_in_order_full :
    let done := fullQueue.sweep (recording dropsThree) (0, [])
    fullQueue.size = queueDepth ∧ done.state.2.map Prod.fst = fullQueue.actions ∧
      done.count + done.queue.size = fullQueue.size ∧ fullQueue.discard dropsThree 0 = (done.count, done.queue) ∧
      done.queue.actions.map PacketAction.postDelay = [0, 1, 2, 3, 3] := by
  have hfull : fullQueue.size ≤ queueDepth := by decide
  obtain ⟨hasked, -, hcount, -, hdiscard⟩ := discard_asks_in_order dropsThree hfull 0
  exact ⟨rfl, hasked, hcount, hdiscard, by decide⟩

end Queue

end DoorBridge
