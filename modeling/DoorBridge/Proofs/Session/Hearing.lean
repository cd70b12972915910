import DoorBridge.Arbiter.Script
import DoorBridge.Proofs.Reading
import DoorBridge.Proofs.Session
import DoorBridge.Storage.Memory

/-!
# Proofs.Session.Hearing — the door mirrors what was received, and nothing else

* `mirrorOf` is the mirror that a row of packets and records amounts to: the last known position, the last lock, and the
  light with all that was said about it in order.
* `Heard` ties the ears of the engine to the bytes of the run.  Taking what a byte completes keeps it (`Heard.hear`), so
  every operation keeps it (`Heard.operate`), and so does every run whose clock does not go back (`Heard.run`).
-/

namespace DoorBridge

/-! ## What a row of packets and records amounts to -/

namespace Inbound

/-- The door position that it reports, if it reports one. -/
def door? : Inbound → Option DoorState
  | packet (.status s) => some s.door
  | record (.status (.door state)) => some state
  | _ => none

/-- The lock state that it reports, if it reports one. -/
def lock? : Inbound → Option Bool
  | packet (.status s) => some s.lock
  | record (.status (.lightLock _ lock)) => some lock
  | _ => none

/-- The light level after it: as reported, or as a console command leaves it. -/
def lightAfter (level : Bool) : Inbound → Bool
  | packet (.status s) => s.light
  | packet (.light command _) => command.apply level
  | record (.status (.lightLock light _)) => light
  | _ => level

end Inbound

/-- The positions that are the same as the one just before them. -/
def repeated : List DoorState → List DoorState
  | [] | [_] => []
  | before :: state :: rest =>
    if before = state then state :: repeated (state :: rest) else repeated (state :: rest)

/-- The door positions that count.  With the filter on, a Security+ 1.0 position has to come twice in a row. -/
def believed (security : Security) (debounces : Bool) (xs : List Inbound) : List DoorState :=
  if security = .plus1 ∧ debounces = true then repeated (xs.filterMap Inbound.door?) else xs.filterMap Inbound.door?

/-- The last of some positions that is not unknown. -/
def lastKnown (states : List DoorState) : Option DoorState := (states.filter (· ≠ .unknown)).getLast?

/-- The mirror of a last known position, a lock and a light. -/
def Mirror.of (door? : Option DoorState) (lock light : Bool) : Mirror where
  active := door?.isSome
  current := door?.getD .unknown
  target := (door?.bind DoorState.target?).getD .unknown
  currentLock := lock
  light := light

/-- The mirror of all that was received. -/
def mirrorOf (security : Security) (debounces : Bool) (xs : List Inbound) : Mirror :=
  .of (lastKnown (believed security debounces xs)) ((xs.filterMap Inbound.lock?).getLast?.getD false)
    (xs.foldl Inbound.lightAfter false)

/-! ## One more of them -/

theorem repeated_concat (states : List DoorState) (state : DoorState) :
    repeated (states ++ [state]) = repeated states ++ if states.getLast? = some state then [state] else [] := by
  induction states with
  | nil => rfl
  | cons before rest ih =>
    cases rest with
    | nil =>
      have hlast : [before].getLast? = some state ↔ before = state := by simp
      simp only [List.singleton_append, repeated, hlast, List.nil_append]
    | cons next rest =>
      rw [List.cons_append, List.cons_append, repeated, ← List.cons_append, ih, repeated, List.getLast?_cons_cons]
      split
      · rfl
      · rfl

theorem lastKnown_concat (states : List DoorState) (state : DoorState) :
    lastKnown (states ++ [state]) = if state = .unknown then lastKnown states else some state := by
  unfold lastKnown
  by_cases h : state = .unknown
  · simp [h]
  · simp [h]

/-- Seeing a position is having one more of them. -/
theorem seeDoor_of_lastKnown (states : List DoorState) (lock light : Bool) (state : DoorState) :
    (Mirror.of (lastKnown states) lock light).seeDoor state = .of (lastKnown (states ++ [state])) lock light := by
  rw [lastKnown_concat]
  cases state <;> rfl

/-- What repeats the position before it counts, if positions have to come twice. -/
theorem believed_concat {xs : List Inbound} {x : Inbound} {state : DoorState} (h : x.door? = some state)
    (security : Security) (debounces : Bool) :
    believed security debounces (xs ++ [x]) =
      if security = .plus1 ∧ debounces = true ∧ (xs.filterMap Inbound.door?).getLast? ≠ some state then
        believed security debounces xs
      else believed security debounces xs ++ [state] := by
  have hreports : (xs ++ [x]).filterMap Inbound.door? = xs.filterMap Inbound.door? ++ [state] := by
    simp [h]
  unfold believed
  rw [hreports]
  by_cases hfilter : security = .plus1 ∧ debounces = true
  · rw [if_pos hfilter, if_pos hfilter, repeated_concat]
    by_cases hlast : (xs.filterMap Inbound.door?).getLast? = some state
    · rw [if_pos hlast, if_neg fun hall => hall.2.2 hlast]
    · rw [if_neg hlast, if_pos ⟨hfilter.1, hfilter.2, hlast⟩, List.append_nil]
  · rw [if_neg hfilter, if_neg hfilter, if_neg fun hall => hfilter ⟨hall.1, hall.2.1⟩]

theorem believed_concat_none {x : Inbound} (h : x.door? = none) (security : Security) (debounces : Bool)
    (xs : List Inbound) : believed security debounces (xs ++ [x]) = believed security debounces xs := by
  have hreports : (xs ++ [x]).filterMap Inbound.door? = xs.filterMap Inbound.door? := by
    simp [h]
  unfold believed
  rw [hreports]

/-! ## Ears that have heard some of them -/

/-- The ears have heard some packets and records and nothing else. -/
structure Ears.Heard (h : Ears) (xs : List Inbound) : Prop where
  mirror : h.mirror = mirrorOf h.security h.debounces xs
  /-- The debounce filter holds the last door report. -/
  last : h.security = .plus1 → h.debounces = true → h.last? = (xs.filterMap Inbound.door?).getLast?

theorem mirrorOf_concat {xs : List Inbound} {x : Inbound} (security : Security) (debounces : Bool) :
    mirrorOf security debounces (xs ++ [x]) =
      .of (lastKnown (believed security debounces (xs ++ [x])))
        (x.lock?.getD (mirrorOf security debounces xs).currentLock)
        (x.lightAfter (mirrorOf security debounces xs).light) := by
  have hlock : ((xs ++ [x]).filterMap Inbound.lock?).getLast?.getD false =
      x.lock?.getD ((xs.filterMap Inbound.lock?).getLast?.getD false) := by
    cases h : x.lock? <;> simp [h]
  have hlight : (xs ++ [x]).foldl Inbound.lightAfter false = x.lightAfter (xs.foldl Inbound.lightAfter false) :=
    List.foldl_concat ..
  unfold mirrorOf
  rw [hlock, hlight]
  rfl

namespace Ears.Heard

variable {h h' : Ears} {xs : List Inbound} {x : Inbound}

theorem new (settings : Settings) : (Engine.new settings).ears.Heard [] where
  mirror := by
    have hbelieved : believed settings.security settings.debounce [] = [] := by
      unfold believed
      split <;> rfl
    show _ = mirrorOf settings.security settings.debounce []
    rw [mirrorOf, hbelieved]
    rfl
  last _ _ := rfl

/-- Neither the readers nor what is unconfirmed count. -/
theorem of_same (hheard : h.Heard xs) (hsecurity : h'.security = h.security) (hdebounces : h'.debounces = h.debounces)
    (hlast : h'.last? = h.last?) (hmirror : h'.mirror = h.mirror) : h'.Heard xs where
  mirror := by rw [hmirror, hsecurity, hdebounces, hheard.mirror]
  last := by
    rw [hsecurity, hdebounces, hlast]
    exact hheard.last

/-- What says nothing about the door changes nothing. -/
theorem hear_silent (hheard : h.Heard xs) (hhear : h.hear x = h) (hdoor : x.door? = none) (hlock : x.lock? = none)
    (hlight : ∀ level, x.lightAfter level = level) : (h.hear x).Heard (xs ++ [x]) := by
  rw [hhear]
  constructor
  · rw [mirrorOf_concat, believed_concat_none hdoor, hlock, hlight, hheard.mirror]
    rfl
  · intro hplus1 hdebounces
    rw [hheard.last hplus1 hdebounces]
    simp [hdoor]

theorem hear_packet (hheard : h.Heard xs) (hplus2 : h.security = .plus2) (p : Packet) :
    (h.hear (.packet p)).Heard (xs ++ [.packet p]) := by
  have hplus1 : ¬ h.security = .plus1 := by
    rw [hplus2]
    decide
  cases p with
  | status s =>
    refine ⟨?_, fun h => absurd h hplus1⟩
    have hseen : (h.hear (.packet (.status s))).mirror = (h.mirror.seeDoor s.door).seeLevels s.light s.lock := rfl
    have hbelieved : believed h.security h.debounces (xs ++ [.packet (.status s)]) =
        believed h.security h.debounces xs ++ [s.door] := by
      rw [believed_concat (x := .packet (.status s)) rfl, if_neg fun hall => hplus1 hall.1]
    rw [hseen, hheard.mirror, mirrorOf, seeDoor_of_lastKnown, ← hbelieved]
    exact (mirrorOf_concat h.security h.debounces).symm
  | light command pressed =>
    refine ⟨?_, fun h => absurd h hplus1⟩
    have hseen : (h.hear (.packet (.light command pressed))).mirror =
        { h.mirror with light := command.apply h.mirror.light } := rfl
    have hbelieved := believed_concat_none (x := .packet (.light command pressed)) rfl h.security h.debounces xs
    rw [hseen, hheard.mirror]
    refine .trans ?_ (mirrorOf_concat h.security h.debounces).symm
    rw [hbelieved]
    rfl
  | getStatus | getOpenings | doorAction | lock | motion | unknown =>
    exact hheard.hear_silent rfl rfl rfl fun _ => rfl

theorem hear_door (hheard : h.Heard xs) (hplus1 : h.security = .plus1) (state : DoorState) :
    (h.hear (.record (.status (.door state)))).Heard (xs ++ [.record (.status (.door state))]) := by
  have hreport : (Inbound.record (.status (.door state))).door? = some state := rfl
  have hheardDoor : h.hear (.record (.status (.door state))) = h.hearDoor state := rfl
  have hsame : (h.hearDoor state).security = h.security ∧ (h.hearDoor state).debounces = h.debounces := by
    unfold hearDoor
    split <;> exact ⟨rfl, rfl⟩
  rw [hheardDoor]
  constructor
  · rw [hsame.1, hsame.2, mirror_hearDoor, mirrorOf_concat, believed_concat hreport]
    by_cases hskip : h.debounces = true ∧ h.last? ≠ some state
    · have hlast : (xs.filterMap Inbound.door?).getLast? ≠ some state := by
        rw [← hheard.last hplus1 hskip.1]
        exact hskip.2
      rw [if_pos hskip, if_pos ⟨hplus1, hskip.1, hlast⟩, hheard.mirror]
      rfl
    · have hpass : ¬ (h.security = .plus1 ∧ h.debounces = true ∧
          (xs.filterMap Inbound.door?).getLast? ≠ some state) := by
        rintro ⟨-, hdebounces, hlast⟩
        rw [← hheard.last hplus1 hdebounces] at hlast
        exact hskip ⟨hdebounces, hlast⟩
      rw [if_neg hskip, if_neg hpass, hheard.mirror, mirrorOf, seeDoor_of_lastKnown]
      rfl
  · rw [hsame.1, hsame.2]
    intro _ hdebounces
    unfold hearDoor
    rw [if_pos hdebounces]
    simp [hreport]

theorem hear_record (hheard : h.Heard xs) (hplus1 : h.security = .plus1) (r : Record) :
    (h.hear (.record r)).Heard (xs ++ [.record r]) := by
  cases r with
  | button b => exact hheard.hear_silent rfl rfl rfl fun _ => rfl
  | other byte => exact hheard.hear_silent rfl rfl rfl fun _ => rfl
  | status s =>
    cases s with
    | door state => exact hheard.hear_door hplus1 state
    | lightLock light lock =>
      have hdoor : (Inbound.record (.status (.lightLock light lock))).door? = none := rfl
      constructor
      · have hseen : (h.hear (.record (.status (.lightLock light lock)))).mirror = h.mirror.seeLevels light lock := rfl
        have hbelieved := believed_concat_none hdoor h.security h.debounces xs
        rw [hseen, hheard.mirror]
        refine .trans ?_ (mirrorOf_concat h.security h.debounces).symm
        rw [hbelieved]
        rfl
      · intro _ hdebounces
        have hsame : (h.hear (.record (.status (.lightLock light lock)))).last? = h.last? := rfl
        rw [hsame, hheard.last hplus1 hdebounces]
        simp [hdoor]
    | obstruction value => exact hheard.hear_silent rfl rfl rfl fun _ => rfl

/-- **Hearing one more of them.** -/
theorem hear (hheard : h.Heard xs) (hx : x.security = h.security) : (h.hear x).Heard (xs ++ [x]) := by
  cases x with
  | packet p => exact hheard.hear_packet hx.symm p
  | record r => exact hheard.hear_record hx.symm r

end Ears.Heard

/-! ## Runs -/

namespace Operation

variable {σ : Type}

/-- When it happens, if the engine is told. -/
def time? : Operation σ → Option Nat
  | .start _ _ now | .byte _ now | .obstruction _ now | .press now | .tick now => some now
  | _ => none

/-- The byte that it brings, with its time. -/
def byte? : Operation σ → Option (UInt8 × Nat)
  | .byte b now => some (b, now)
  | _ => none

end Operation

namespace Step

variable {β σ : Type}

def time? : Step β σ → Option Nat
  | operation o => o.time?
  | transmit _ now => some now

def byte? : Step β σ → Option (UInt8 × Nat)
  | operation o => o.byte?
  | transmit .. => none

end Step

/-- The bytes of a run, each with its time. -/
def inboundBytes {β σ : Type} (steps : List (Step β σ)) : List (UInt8 × Nat) := steps.filterMap Step.byte?

/-- The times of a run do not decrease. -/
def TimesGrow {β σ : Type} (steps : List (Step β σ)) : Prop := (steps.filterMap Step.time?).Pairwise (· ≤ ·)

theorem times_cons {β σ : Type} (step : Step β σ) (steps : List (Step β σ)) :
    (step :: steps).filterMap Step.time? = step.time?.toList ++ steps.filterMap Step.time? := by
  rw [List.filterMap_cons]
  cases step.time? <;> rfl

/-- The clock after a step that may tell the time. -/
theorem clock_cons {time? : Option Nat} {clock : Nat} {times : List Nat}
    (hclock : (clock :: (time?.toList ++ times)).Pairwise (· ≤ ·)) :
    (∀ now ∈ time?, clock ≤ now) ∧ (time?.getD clock :: times).Pairwise (· ≤ ·) := by
  cases time? with
  | none => exact ⟨nofun, hclock⟩
  | some now =>
    obtain ⟨hfirst, hrest⟩ := List.pairwise_cons.mp hclock
    refine ⟨?_, hrest⟩
    rintro _ ⟨⟩
    exact hfirst now List.mem_cons_self

/-- The ears have taken a row of bytes, and time has come to the clock. -/
structure Ears.Current (h : Ears) (bytes : List (UInt8 × Nat)) (clock : Nat) : Prop where
  follows : h.Follows bytes clock
  heard : h.Heard (inboundOf h.security bytes)

namespace Ears.Current

variable {e : Engine} {h h' : Ears} {bytes : List (UInt8 × Nat)} {clock now : Nat}

theorem new (settings : Settings) : (Engine.new settings).ears.Current [] 0 where
  follows := .new settings
  heard := by
    have hnothing : inboundOf (Engine.new settings).ears.security [] = [] := by
      unfold inboundOf
      split <;> rfl
    rw [hnothing]
    exact .new settings

/-- Time goes by, and what is unconfirmed does not count. -/
theorem later (hcurrent : h.Current bytes clock) (hclock : clock ≤ now)
    (hsame : ∃ unconfirmed, h' = { h with unconfirmed }) : h'.Current bytes now := by
  obtain ⟨unconfirmed, rfl⟩ := hsame
  exact ⟨hcurrent.follows.of_same rfl rfl rfl hclock, hcurrent.heard.of_same rfl rfl rfl rfl⟩

theorem expire (hcurrent : h.Current bytes clock) (hclock : clock ≤ now) : (h.expire now).Current bytes now :=
  ⟨hcurrent.follows.expire hclock, hcurrent.heard.of_same rfl rfl rfl rfl⟩

theorem byte (hcurrent : e.ears.Current bytes clock) (hclock : clock ≤ now) (b : UInt8) {σ : Type} :
    (e.earsAfter (.byte b now : Operation σ)).Current (bytes ++ [(b, now)]) now := by
  have hread := hcurrent.follows.inboundOf_concat hclock b
  have hfollows : (e.ears.feed b now).Follows (bytes ++ [(b, now)]) now := hcurrent.follows.feed hclock b
  obtain ⟨frames, records, hfed⟩ := e.ears.feed_eq b now
  have hheard : (e.ears.feed b now).Heard (inboundOf e.settings.security bytes) := by
    rw [hfed]
    exact hcurrent.heard.of_same rfl rfl rfl rfl
  have hsecurity : (e.ears.feed b now).security = e.settings.security := by
    rw [hfed]
    rfl
  cases hin : e.inbound? b now with
  | none =>
    rw [Engine.earsAfter, hin]
    refine ⟨hfollows, ?_⟩
    dsimp only
    rw [hsecurity, hread, hin, Option.toList_none, List.append_nil]
    exact hheard
  | some x =>
    obtain ⟨last?, mirror, unconfirmed, hhear⟩ := (e.ears.feed b now).hear_eq x
    have hx : x.security = (e.ears.feed b now).security := (Engine.security_of_inbound? hin).trans hsecurity.symm
    rw [Engine.earsAfter, hin]
    constructor
    · dsimp only
      rw [hhear]
      exact hfollows.of_same rfl rfl rfl (Nat.le_refl now)
    · have hsame : ((e.ears.feed b now).hear x).security = e.settings.security := by
        rw [hhear]
        exact hsecurity
      dsimp only
      rw [hsame, hread, hin, Option.toList_some]
      exact hheard.hear hx

variable {β σ : Type} [Bus β] [Storage σ]

theorem operate (hcurrent : e.ears.Current bytes clock) {o : Operation σ} (hclock : ∀ now ∈ o.time?, clock ≤ now) :
    (e.after o).ears.Current (bytes ++ o.byte?.toList) (o.time?.getD clock) := by
  have hsame : ∃ unconfirmed, e.ears = { e.ears with unconfirmed } := ⟨e.lightUnconfirmed, rfl⟩
  have hquiet : o.byte? = none → e.earsAfter o = e.ears →
      (e.earsAfter o).Current (bytes ++ o.byte?.toList) (o.time?.getD clock) := by
    intro hbyte hears
    have hlater : clock ≤ o.time?.getD clock := by
      cases htime : o.time? with
      | none => exact Nat.le_refl clock
      | some now => exact hclock now htime
    rw [hbyte, Option.toList_none, List.append_nil, hears]
    exact hcurrent.later hlater hsame
  rw [Engine.ears_after]
  cases o with
  | byte b now => exact hcurrent.byte (hclock now rfl) b
  | tick now =>
    have hbytes : bytes ++ (Operation.tick now : Operation σ).byte?.toList = bytes := List.append_nil bytes
    rw [hbytes]
    exact hcurrent.expire (hclock now rfl)
  | start | request | call | beat | obstruction | press | flush => exact hquiet rfl rfl

end Ears.Current

namespace Session

variable {β σ : Type} [Bus β] [Storage σ]

/-- Of the ears a try to send changes only what is unconfirmed. -/
theorem ears_transmit (s : Session) (bus : β) (now : Nat) :
    ∃ unconfirmed, (s.transmit bus now).engine.ears = { s.engine.ears with unconfirmed } := by
  rcases s.transmit_eq bus now with ⟨_, _, _, h⟩ | ⟨_, _, _, _, _, _, h⟩ | ⟨_, _, _, _, _, h⟩
  · exact ⟨s.engine.lightUnconfirmed, by rw [h]; rfl⟩
  · exact ⟨_, by rw [h]; rfl⟩
  · exact ⟨s.engine.lightUnconfirmed, by rw [h]; rfl⟩

theorem filter_take (s : Session) (step : Step β σ) :
    (s.take step).engine.ears.filter = s.engine.ears.filter := by
  cases step with
  | operation o => exact (congrArg Ears.filter (s.engine.ears_after o)).trans (Engine.filter_earsAfter s.engine o)
  | transmit bus now =>
    obtain ⟨unconfirmed, h⟩ := s.ears_transmit bus now
    have hears : (s.take (.transmit bus now : Step β σ)).engine.ears = { s.engine.ears with unconfirmed } := h
    rw [hears]
    rfl

theorem filter_run (s : Session) (steps : List (Step β σ)) :
    (s.run steps).engine.ears.filter = s.engine.ears.filter :=
  run_induction (P := fun x => x.engine.ears.filter = s.engine.ears.filter) rfl
    fun x hx step _ => (x.filter_take step).trans hx

theorem current_take {s : Session} {bytes : List (UInt8 × Nat)} {clock : Nat}
    (h : s.engine.ears.Current bytes clock) {step : Step β σ} (hclock : ∀ now ∈ step.time?, clock ≤ now) :
    (s.take step).engine.ears.Current (bytes ++ step.byte?.toList) (step.time?.getD clock) := by
  cases step with
  | operation o => exact h.operate hclock
  | transmit bus now =>
    have hbytes : bytes ++ (Step.transmit bus now : Step β σ).byte?.toList = bytes := List.append_nil bytes
    rw [hbytes]
    exact h.later (hclock now rfl) (s.ears_transmit bus now)

/-- The ears stay current in a run whose clock does not go back. -/
theorem current_run {s : Session} {bytes : List (UInt8 × Nat)} {clock : Nat} {steps : List (Step β σ)}
    (h : s.engine.ears.Current bytes clock) (hclock : (clock :: steps.filterMap Step.time?).Pairwise (· ≤ ·)) :
    ∃ now, (s.run steps).engine.ears.Current (bytes ++ inboundBytes steps) now := by
  -- bytes and clock grow along the run, so the induction is on the steps for all of them
  induction steps generalizing s bytes clock with
  | nil =>
    refine ⟨clock, ?_⟩
    rw [inboundBytes, List.filterMap_nil, List.append_nil]
    exact h
  | cons step steps ih =>
    have hbytes : bytes ++ inboundBytes (step :: steps) = bytes ++ step.byte?.toList ++ inboundBytes steps := by
      rw [inboundBytes, inboundBytes, List.append_assoc]
      cases hbyte : step.byte? <;> simp [hbyte]
    rw [times_cons] at hclock
    obtain ⟨hstep, hsteps⟩ := clock_cons hclock
    rw [hbytes]
    exact ih (current_take h hstep) hsteps

/-- The door of a session is the mirror of what was received. -/
theorem mirror_run {settings : Settings} {steps : List (Step β σ)} (hclock : TimesGrow steps) :
    ((new settings).run steps).engine.door.mirror =
      mirrorOf settings.security settings.debounce (inboundOf settings.security (inboundBytes steps)) := by
  obtain ⟨now, hcurrent⟩ := current_run (s := new settings) (.new settings)
    (List.pairwise_cons.mpr ⟨fun now _ => Nat.zero_le now, hclock⟩)
  obtain ⟨hsecurity, hdebounces⟩ := Prod.mk.inj ((new settings).filter_run steps)
  have hmirror := hcurrent.heard.mirror
  rw [hsecurity, hdebounces] at hmirror
  exact hmirror

end Session

/-- **The mirrored door is a function of what was received alone.**  In every run of an engine whose times do not
decrease, the door is as the packets or records in its bytes say, read without any timer: the position is the last one
that is not unknown, on Security+ 1.0 with the filter on among those that repeat the one before; the target is where it
heads, the lock is the last one reported, and the light is what reports and console commands leave of it in their order.
So two runs with the same bytes at the same times agree on all of it, whatever else happens. -/
theorem door_mirrors_inbound {β σ : Type} [Bus β] [Storage σ] (settings : Settings) {steps : List (Step β σ)}
    (hclock : TimesGrow steps) :
    let d := ((Session.new settings).run steps).engine.door
    let xs := inboundOf settings.security (inboundBytes steps)
    let door? := lastKnown (believed settings.security settings.debounce xs)
    (d.active = door?.isSome ∧
      d.current = door?.getD .unknown ∧
      d.target = (door?.bind DoorState.target?).getD .unknown ∧
      d.currentLock = (xs.filterMap Inbound.lock?).getLast?.getD false ∧
      d.light = xs.foldl Inbound.lightAfter false) ∧
    ∀ {settings' : Settings} {steps' : List (Step β σ)}, TimesGrow steps' →
      settings'.security = settings.security → settings'.debounce = settings.debounce →
      inboundBytes steps' = inboundBytes steps →
      let d' := ((Session.new settings').run steps').engine.door
      d'.active = d.active ∧ d'.current = d.current ∧ d'.target = d.target ∧ d'.currentLock = d.currentLock ∧
        d'.light = d.light := by
  intro d xs door?
  have hmirror : d.mirror = mirrorOf settings.security settings.debounce xs := Session.mirror_run hclock
  constructor
  · exact ⟨congrArg Mirror.active hmirror, congrArg Mirror.current hmirror, congrArg Mirror.target hmirror,
      congrArg Mirror.currentLock hmirror, congrArg Mirror.light hmirror⟩
  · intro settings' steps' hclock' hsecurity hdebounce hbytes d'
    have hmirror' : d'.mirror = mirrorOf settings'.security settings'.debounce
        (inboundOf settings'.security (inboundBytes steps')) := Session.mirror_run hclock'
    rw [hsecurity, hdebounce, hbytes, ← hmirror] at hmirror'
    exact ⟨congrArg Mirror.active hmirror', congrArg Mirror.current hmirror', congrArg Mirror.target hmirror',
      congrArg Mirror.currentLock hmirror', congrArg Mirror.light hmirror'⟩

/-- A Security+ 1.0 run: the door is closed, reported twice, and a delayed close is asked for and cancelled in between.
A timer drops the first half of a light report, and a closing door is reported once only. -/
def interleavedSteps : List (Step BusScript MemoryStore) :=
  [.operation (.byte 0x38 0), .operation (.byte 0x55 40), .operation (.request .closeDoor), .operation .beat,
    .operation (.byte 0x38 60), .transmit {} 90, .operation (.byte 0x55 100), .operation (.byte 0x3a 110),
    .operation (.tick 211), .operation (.byte 0x54 211), .operation (.byte 0x38 220), .operation (.byte 0x54 230),
    .operation (.request .openDoor), .operation (.byte 0x3a 240), .operation (.byte 0x54 250)]

/-- The bytes of that run and nothing else. -/
def plainSteps : List (Step BusScript MemoryStore) :=
  (inboundBytes interleavedSteps).map fun x => .operation (.byte x.1 x.2)

/-- The door is closed, the light is on and the lock is set, in that run and in the one of its bytes alone. -/
theorem door_mirrors_inbound_interleaved :
    let settings : Settings := { security := .plus1, ttcSeconds := 5, debounce := true }
    let d := ((Session.new settings).run interleavedSteps).engine.door
    let d' := ((Session.new {settings with ttcSeconds := 0}).run plainSteps).engine.door
    TimesGrow interleavedSteps ∧ TimesGrow plainSteps ∧ inboundBytes plainSteps = inboundBytes interleavedSteps ∧
      (d.active = true ∧ d.current = .closed ∧ d.target = .closed ∧ d.currentLock = true ∧ d.light = true) ∧
      (d'.active = d.active ∧ d'.current = d.current ∧ d'.target = d.target ∧ d'.currentLock = d.currentLock ∧
        d'.light = d.light) := by
  intro settings
  have hgrow : TimesGrow interleavedSteps := by
    unfold TimesGrow
    decide
  have hplain : TimesGrow plainSteps := by
    unfold TimesGrow
    decide
  have hbytes : inboundBytes plainSteps = inboundBytes interleavedSteps := by decide
  obtain ⟨hdoor, hagree⟩ := door_mirrors_inbound settings hgrow
  refine ⟨hgrow, hplain, hbytes, ?_, hagree hplain rfl rfl hbytes⟩
  have hspec : inboundOf .plus1 (inboundBytes interleavedSteps) =
      [.record (.status (.door .closed)), .record (.status (.door .closed)), .record (.status (.door .closing)),
        .record (.status (.lightLock true true))] := by decide +kernel
  have hsettings : settings.security = .plus1 := rfl
  rw [hsettings, hspec] at hdoor
  exact hdoor

end DoorBridge
