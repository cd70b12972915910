import DoorBridge.Proofs.Session.Cancel

/-!
# Proofs.Session.LastBeat — what a delayed close does in the end, and what closing at once would have done

* The last beat of a delayed close and a request to close are two ways to the same command.  `Engine.unwarned` is the
  engine in which they can be compared: no countdown runs, and none would be started.
* Unless the door is opening the two do the same, down to what they log (`countTick_eq_closeDoor`).  A door that is
  opening is told to close by the one and to stop by the other, if the queue has room for a command at all
  (`fired_like_closeDoor_iff`).
-/

namespace DoorBridge

namespace Engine

/-- The engine with another countdown, and without a warning before the door is closed. -/
def unwarned (e : Engine) (idle : Countdown) : Engine :=
  { e with countdown := idle, settings := { e.settings with ttcSeconds := 0 } }

variable {e : Engine} {idle : Countdown}

/-! ## Door commands -/

/-- All door commands take the same room in the queue. -/
theorem length_doorSequence (security : Security) (action : DoorAction) :
    (doorSequence security action).length = 3 := by
  cases security <;> rfl

theorem fits_doorSequence (q : Queue) (security : Security) (action other : DoorAction) :
    q.fits (doorSequence security action) = q.fits (doorSequence security other) := by
  unfold Queue.fits
  rw [length_doorSequence, length_doorSequence]

/-- What is queued for closing differs from what is queued for stopping. -/
theorem append_close_ne_stop (q : Queue) (security : Security) :
    q.append (doorSequence security .close) ≠ q.append (doorSequence security .stop) := by
  have hne : doorSequence security .close ≠ doorSequence security .stop := by cases security <;> decide
  intro h
  exact hne (List.append_cancel_left (congrArg Queue.actions h))

/-- A door command is queued whole if there is room for it, and refused otherwise. -/
theorem doorCommand_cases (e : Engine) (action : DoorAction) :
    (e.doorCommand action).1 =
        (if e.queue.fits (doorSequence e.settings.security action) then .ok () else .error .queueFull) ∧
      (e.doorCommand action).2.queue =
        if e.queue.fits (doorSequence e.settings.security action) then
          e.queue.append (doorSequence e.settings.security action)
        else e.queue := by
  have hqueue : (e.emit [.info s!"Door command {action.name}"]).queue = e.queue := rfl
  unfold doorCommand enqueue
  rw [hqueue, Queue.push?_eq]
  by_cases hroom : e.queue.fits (doorSequence e.settings.security action) = true
  · rw [if_pos hroom, if_pos hroom, if_pos hroom]
    exact ⟨rfl, rfl⟩
  · rw [if_neg hroom, if_neg hroom, if_neg hroom]
    exact ⟨rfl, rfl⟩

/-- A door command looks at neither the countdown nor the warning. -/
theorem doorCommand_unwarned (e : Engine) (idle countdown : Countdown) (action : DoorAction) :
    { e with countdown }.doorCommand action =
      (((e.unwarned idle).doorCommand action).1,
        { ((e.unwarned idle).doorCommand action).2 with countdown, settings := e.settings }) := by
  have hqueue : ({ e with countdown }.emit [.info s!"Door command {action.name}"]).queue = e.queue := rfl
  have hqueue' : ((e.unwarned idle).emit [.info s!"Door command {action.name}"]).queue = e.queue := rfl
  have hsecurity : (e.unwarned idle).settings.security = e.settings.security := rfl
  unfold doorCommand enqueue
  rw [hqueue, hqueue', hsecurity]
  cases e.queue.push? (doorSequence e.settings.security action) <;> rfl

/-! ## The two ways to close -/

/-- Without a warning the door is closed at once, or stopped if it is opening. -/
theorem closeDoor_unwarned (hidle : idle.isActive = false) : (e.unwarned idle).closeDoor =
    match e.door.current with
    | .closed => (.ok (), e.unwarned idle)
    | .opening => (e.unwarned idle).doorCommand .stop
    | _ => (e.unwarned idle).doorCommand .close := by
  have hclosing : (e.unwarned idle).countdown.isClosing = false := by
    cases hclosing : (e.unwarned idle).countdown.isClosing with
    | false => rfl
    | true => exact absurd (Countdown.isActive_of_isClosing hclosing) (ne_true_of_eq_false hidle)
  have hwarning : (e.unwarned idle).settings.ttcSeconds = 0 ∨ (e.unwarned idle).countdown.isActive = true := .inl rfl
  have hdoor : (e.unwarned idle).door.current = e.door.current := rfl
  unfold closeDoor
  rw [hdoor]
  cases e.door.current
  case closed => rfl
  case opening => rfl
  all_goals simp only [hclosing, if_pos hwarning, Bool.false_eq_true, if_false]

/-- The last beat of a delayed close closes the door unless it is closed. -/
theorem countTick_of_fires (hlast : e.countdown.tick.1 = some (.fire .closeDoor)) : e.countTick =
    if e.door.current = .closed then (.ok (), { e with countdown := e.countdown.tick.2 })
    else { e with countdown := e.countdown.tick.2 }.doorCommand .close := by
  unfold countTick
  generalize e.countdown.tick = ticked at hlast ⊢
  obtain ⟨step, countdown⟩ := ticked
  dsimp only at hlast
  subst hlast
  rfl

/-- **Unless the door is opening, the last beat does what closing at once does.** -/
theorem countTick_eq_closeDoor (hlast : e.countdown.tick.1 = some (.fire .closeDoor)) (hidle : idle.isActive = false)
    (hdoor : e.door.current ≠ .opening) :
    e.countTick = ((e.unwarned idle).closeDoor.1,
      { (e.unwarned idle).closeDoor.2 with countdown := e.countdown.tick.2, settings := e.settings }) := by
  rw [countTick_of_fires hlast, closeDoor_unwarned hidle]
  cases hcurrent : e.door.current
  case opening => exact absurd hcurrent hdoor
  case closed => rfl
  all_goals exact doorCommand_unwarned e idle _ .close

/-! ## An opening door -/

/-- The last beat tells an opening door to close, if the queue has room for a command. -/
theorem countTick_of_opening (hlast : e.countdown.tick.1 = some (.fire .closeDoor)) (hdoor : e.door.current = .opening) :
    e.countTick.1 =
        (if e.queue.fits (doorSequence e.settings.security .close) then .ok () else .error .queueFull) ∧
      e.countTick.2.queue =
        if e.queue.fits (doorSequence e.settings.security .close) then
          e.queue.append (doorSequence e.settings.security .close)
        else e.queue := by
  have hopen : ¬e.door.current = .closed := by rw [hdoor]; exact DoorState.noConfusion
  rw [countTick_of_fires hlast, if_neg hopen]
  exact doorCommand_cases _ .close

/-- The request to close tells an opening door to stop, if the queue has room for a command. -/
theorem closeDoor_of_opening (hidle : idle.isActive = false) (hdoor : e.door.current = .opening) :
    (e.unwarned idle).closeDoor.1 =
        (if e.queue.fits (doorSequence e.settings.security .close) then .ok () else .error .queueFull) ∧
      (e.unwarned idle).closeDoor.2.queue =
        if e.queue.fits (doorSequence e.settings.security .close) then
          e.queue.append (doorSequence e.settings.security .stop)
        else e.queue := by
  rw [closeDoor_unwarned hidle, hdoor, fits_doorSequence e.queue e.settings.security .close .stop]
  exact doorCommand_cases _ .stop

end Engine

/-- **The last beat of a delayed close does what closing at once does, unless the door is opening.**  For every engine
whose next beat carries out a delayed close, compared with the same engine without countdown and warning: answer and
queue are the same exactly if the door is not opening or the queue has no room for a command; and unless the door is
opening, so is everything else.  A door that is opening is told to close by the beat, and to stop by the request. -/
theorem fired_like_closeDoor_iff {e : Engine} {idle : Countdown}
    (hlast : e.countdown.tick.1 = some (.fire .closeDoor)) (hidle : idle.isActive = false) :
    let closed := (e.unwarned idle).closeDoor
    let sequence := Engine.doorSequence e.settings.security
    (e.countTick.1 = closed.1 ∧ e.countTick.2.queue = closed.2.queue ↔
        e.door.current ≠ .opening ∨ e.queue.fits (sequence .close) = false) ∧
      (e.door.current ≠ .opening →
        e.countTick = (closed.1, { closed.2 with countdown := e.countdown.tick.2, settings := e.settings })) ∧
      (e.door.current = .opening → e.queue.fits (sequence .close) = true →
        e.countTick.1 = .ok () ∧ e.countTick.2.queue = e.queue.append (sequence .close) ∧
          closed.1 = .ok () ∧ closed.2.queue = e.queue.append (sequence .stop)) := by
  intro closed sequence
  by_cases hdoor : e.door.current = .opening
  case neg =>
    have hsame := Engine.countTick_eq_closeDoor hlast hidle hdoor
    have hagrees : e.countTick.1 = closed.1 ∧ e.countTick.2.queue = closed.2.queue := by
      rw [hsame]
      exact ⟨rfl, rfl⟩
    exact ⟨iff_of_true hagrees (.inl hdoor), fun _ => hsame, fun h => absurd h hdoor⟩
  case pos =>
    have hsent := Engine.countTick_of_opening hlast hdoor
    have hstopped := Engine.closeDoor_of_opening hidle hdoor
    have hsequence : sequence = Engine.doorSequence e.settings.security := rfl
    rw [hsequence]
    cases hroom : e.queue.fits (Engine.doorSequence e.settings.security .close) with
    | true =>
      rw [hroom, if_pos rfl, if_pos rfl] at hsent hstopped
      have hdiffer : ¬(e.countTick.1 = closed.1 ∧ e.countTick.2.queue = closed.2.queue) := by
        rintro ⟨-, hqueue⟩
        rw [hsent.2, hstopped.2] at hqueue
        exact Engine.append_close_ne_stop e.queue e.settings.security hqueue
      have hopening : ¬(e.door.current ≠ .opening ∨ true = false) := by simp [hdoor]
      exact ⟨iff_of_false hdiffer hopening, fun h => absurd hdoor h,
        fun _ _ => ⟨hsent.1, hsent.2, hstopped.1, hstopped.2⟩⟩
    | false =>
      rw [hroom, if_neg Bool.false_ne_true, if_neg Bool.false_ne_true] at hsent hstopped
      have hagrees : e.countTick.1 = closed.1 ∧ e.countTick.2.queue = closed.2.queue :=
        ⟨hsent.1.trans hstopped.1.symm, hsent.2.trans hstopped.2.symm⟩
      exact ⟨iff_of_true hagrees (.inr rfl), fun h => absurd hdoor h, fun _ h => absurd h Bool.false_ne_true⟩

/-- The engine of a station that was asked to close with a second of warning, when the opener reports its door in a
state just before the last beat. -/
def lastBeatAt (state : DoorState) : Engine :=
  ((Session.boot { ttcSeconds := 1 } ({} : MemoryStore) 0 0).run
    ([.operation (.request .closeDoor), .operation .beat] ++
      statusSteps ⟨state, true, false, false, false⟩ 1600)).engine

/-- A door that was stopped meanwhile is closed. -/
theorem fired_like_closeDoor_iff_stopped :
    (lastBeatAt .stopped).countdown.tick.1 = some (.fire .closeDoor) ∧ ({} : Countdown).isActive = false ∧
      (lastBeatAt .stopped).countTick.1 = ((lastBeatAt .stopped).unwarned {}).closeDoor.1 ∧
      (lastBeatAt .stopped).countTick.2.queue = ((lastBeatAt .stopped).unwarned {}).closeDoor.2.queue := by
  have hlast : (lastBeatAt .stopped).countdown.tick.1 = some (.fire .closeDoor) := by decide +kernel
  have hidle : ({} : Countdown).isActive = false := rfl
  have hdoor : (lastBeatAt .stopped).door.current ≠ .opening := by decide +kernel
  exact ⟨hlast, hidle, (fired_like_closeDoor_iff hlast hidle).1.mpr (.inl hdoor)⟩

/-- A door that was sent up meanwhile is told to close, while a request would stop it. -/
theorem opening_door_told_to_close :
    (lastBeatAt .opening).countdown.tick.1 = some (.fire .closeDoor) ∧ ({} : Countdown).isActive = false ∧
      (lastBeatAt .opening).countTick.2.queue =
        (lastBeatAt .opening).queue.append (Engine.doorSequence .plus2 .close) ∧
      ((lastBeatAt .opening).unwarned {}).closeDoor.2.queue =
        (lastBeatAt .opening).queue.append (Engine.doorSequence .plus2 .stop) ∧
      (lastBeatAt .opening).countTick.2.queue ≠ ((lastBeatAt .opening).unwarned {}).closeDoor.2.queue := by
  decide +kernel

end DoorBridge
