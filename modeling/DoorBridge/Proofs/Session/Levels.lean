import DoorBridge.Proofs.Session.Cancel
import DoorBridge.Proofs.Session.Delay
import DoorBridge.Proofs.Session.Hearing
import DoorBridge.Proofs.Session.Refusal

/-!
# Proofs.Session.Levels — where requests leave the light and the lock

* `Device` are the light and the lock.  `Device.settle` is the level of one once a row of packets has gone out on
  Security+ 2.0.
* A request is compared with the level that the opener last reported, so it adds its packets to the queue only if it asks
  for the other one (`Engine.actions_of_level`).  With nothing received in between, what is sent or queued heads for the
  other level as soon as one request asked for it, whatever was asked for afterwards (`Session.Heads.run`).
* So the last request wins exactly if it asked for the other level or all of them asked for the reported one
  (`last_request_wins_iff`).
-/

namespace DoorBridge

/-! ## The light and the lock -/

/-- What can be set to one of two levels. -/
inductive Device where
  | light
  | lock
  deriving DecidableEq

namespace Device

/-- The level that the opener last reported. -/
def reported : Device → Door → Bool
  | light, door => door.light
  | lock, door => door.currentLock

def request : Device → Bool → ControlRequest
  | light => .light
  | lock => .lock

/-- The packets that set it. -/
def sequence : Device → Security → Bool → List PacketAction
  | light => Engine.lightSequence
  | lock => Engine.lockSequence

/-- The level once a packet has gone out, on Security+ 2.0. -/
def after : Device → Bool → Packet → Bool
  | light, level, p => p.lightAfter .plus2 level
  | lock, level, .lock command _ => command.apply level
  | lock, level, _ => level

/-- The level once a row of packets has gone out. -/
def settle (d : Device) (level : Bool) (actions : List PacketAction) : Bool :=
  actions.foldl (fun level a => d.after level a.packet) level

theorem settle_append (d : Device) (level : Bool) (actions more : List PacketAction) :
    d.settle level (actions ++ more) = d.settle (d.settle level actions) more :=
  List.foldl_append

/-- What sets one device does nothing to the other one. -/
theorem settle_sequence (d d' : Device) (level on : Bool) :
    d.settle level (d'.sequence .plus2 on) = if d = d' then on else level := by
  cases d <;> cases d' <;> cases on <;> rfl

theorem reported_of_mirror (d : Device) {door door' : Door} (h : door'.mirror = door.mirror) :
    d.reported door' = d.reported door := by
  cases d with
  | light => exact congrArg Mirror.light h
  | lock => exact congrArg Mirror.currentLock h

theorem requestAsks_request (e : Engine) (d : Device) (on : Bool) : e.requestAsks (d.request on) =
    if on = d.reported e.door then [] else [d.sequence e.settings.security on] := by
  cases d <;> rfl

end Device

/-- The device and the level that a request asks for. -/
def ControlRequest.level? : ControlRequest → Option (Device × Bool)
  | light on => some (.light, on)
  | lock locked => some (.lock, locked)
  | _ => none

def Operation.level? {σ : Type} (o : Operation σ) : Option (Device × Bool) := o.request?.bind ControlRequest.level?

/-- The level that an operation asks a device for. -/
def Operation.levelOf? {σ : Type} (o : Operation σ) (d : Device) : Option Bool :=
  match o.level? with
  | some (d', on) => if d' = d then some on else none
  | none => none

def Step.levelOf? {β σ : Type} (d : Device) : Step β σ → Option Bool
  | operation o => o.levelOf? d
  | transmit .. => none

/-- The levels that a run asks a device for, in order. -/
def requested {β σ : Type} (d : Device) (steps : List (Step β σ)) : List Bool := steps.filterMap (Step.levelOf? d)

theorem requested_cons {β σ : Type} (d : Device) (step : Step β σ) (steps : List (Step β σ)) :
    requested d (step :: steps) = (step.levelOf? d).toList ++ requested d steps := by
  unfold requested
  rw [List.filterMap_cons]
  cases step.levelOf? d <;> rfl

/-! ## Requests -/

namespace Engine

variable {σ : Type} {e : Engine} {o : Operation σ}

/-- Whether an operation is neither a granted request for the light or the lock nor a part of a servicing pass. -/
def strays (e : Engine) : Operation σ → Bool
  | .request r => r.level?.isNone || decide ((e.apply r).1 ≠ .ok ())
  | .call (.light on) => decide ((e.setLight on).1 ≠ .ok ())
  | .call (.lock locked) => decide ((e.setLock locked).1 ≠ .ok ())
  | .tick _ | .flush _ => false
  | _ => true

/-- What is queued with a request that is taken whole. -/
theorem queued_request (d : Device) (on : Bool) (h : e.queue.takesAll (e.requestAsks (d.request on)) = true) :
    e.queue.actions ++ e.queue.takes (e.requestAsks (d.request on)) =
      e.queue.actions ++ if on = d.reported e.door then [] else d.sequence e.settings.security on := by
  rw [Queue.takes_of_takesAll h, d.requestAsks_request]
  split <;> simp

variable [Storage σ]

theorem mirror_after (h : e.strays o = false) : (e.after o).door.mirror = e.door.mirror := by
  have hears : (e.after o).door.mirror = (e.earsAfter o).mirror := congrArg Ears.mirror (e.ears_after o)
  rw [hears]
  cases o with
  | byte => contradiction
  | _ => rfl

/-- **A granted request** queues its packets unless it asks for the reported level. -/
theorem actions_of_level (h : e.strays o = false) : (e.after o).queue.actions = e.queue.actions ++
    match o.level? with
    | some (d, on) => if on = d.reported e.door then [] else d.sequence e.settings.security on
    | none => [] := by
  rw [actions_after]
  cases o with
  | request r =>
    have hall (hgranted : (e.apply r).1 = .ok ()) := (hands_apply e r).answer.mp hgranted
    cases r with
    | light on => exact queued_request .light on (hall (by simpa [strays, ControlRequest.level?] using h))
    | lock locked => exact queued_request .lock locked (hall (by simpa [strays, ControlRequest.level?] using h))
    | _ => contradiction
  | call r =>
    cases r with
    | light on => exact queued_request .light on ((hands_setLight e on).answer.mp (by simpa [strays] using h))
    | lock locked => exact queued_request .lock locked ((hands_setLock e locked).answer.mp (by simpa [strays] using h))
    | _ => contradiction
  | tick | flush => rfl
  | _ => contradiction

end Engine

/-! ## Runs of requests -/

/-- Where a device is left if the level was reported before some requests were made. -/
def leftAt (reported : Bool) (asked : List Bool) : Bool := if ∀ on ∈ asked, on = reported then reported else !reported

theorem leftAt_concat (reported : Bool) (asked : List Bool) (on : Bool) :
    leftAt reported (asked ++ [on]) = if on = reported then leftAt reported asked else on := by
  unfold leftAt
  by_cases hon : on = reported
  · subst hon
    simp [or_imp]
  · have hother : on = !reported := by cases on <;> cases reported <;> simp_all
    rw [if_neg hon, if_neg fun hall => hon (hall on (by simp)), hother]

/-- The last request wins exactly if it asked for the other level or all of them asked for the reported one. -/
theorem leftAt_eq_last_iff {reported last : Bool} {asked : List Bool} (h : asked.getLast? = some last) :
    leftAt reported asked = last ↔ (last = reported → ∀ on ∈ asked, on = reported) := by
  have hmem : last ∈ asked := List.mem_of_getLast? h
  unfold leftAt
  by_cases hall : ∀ on ∈ asked, on = reported
  · rw [if_pos hall, hall last hmem]
    exact iff_of_true rfl fun _ => hall
  · rw [if_neg hall]
    cases reported <;> cases last <;> simp_all

namespace Session

variable {β σ : Type} [Bus β] [Storage σ] {s : Session}

/-- The same engine, and nothing remembered of the run so far. -/
def resumed (s : Session) : Session := { engine := s.engine }

/-- The levels that were reported are still the last ones, and what was sent since then or is queued takes the devices
where the requests leave them. -/
structure Heads (reported : Device → Bool) (asked : Device → List Bool) (s : Session) : Prop where
  sound : Sound s
  plus2 : s.engine.settings.security = .plus2
  known : ∀ d : Device, d.reported s.engine.door = reported d
  heads : ∀ d : Device, d.settle (reported d) (s.sent ++ s.engine.queue.actions) = leftAt (reported d) (asked d)

namespace Heads

variable {reported : Device → Bool} {asked : Device → List Bool}

theorem of_empty (hsound : Sound s) (hplus2 : s.engine.settings.security = .plus2)
    (hempty : s.engine.queue.isEmpty = true) :
    Heads (fun d => d.reported s.engine.door) (fun _ => []) s.resumed where
  sound := ⟨hsound.counter, hsound.size, hsound.genuine⟩
  plus2 := hplus2
  known _ := rfl
  heads d := by
    have hqueue : s.resumed.engine.queue.actions = [] := List.isEmpty_iff.mp hempty
    rw [hqueue]
    rfl

/-- A try to send only moves packets from what is queued to what was sent. -/
theorem transmit (h : Heads reported asked s) (bus : β) (now : Nat) : Heads reported asked (s.transmit bus now) where
  sound := h.sound.transmit bus now
  plus2 := (s.security_transmit bus now).trans h.plus2
  known d := by
    obtain ⟨unconfirmed, hears⟩ := s.ears_transmit bus now
    exact (d.reported_of_mirror (congrArg Ears.mirror hears)).trans (h.known d)
  heads d := by
    rw [h.sound.sent_queued_transmit bus now]
    exact h.heads d

theorem operate (h : Heads reported asked s) {o : Operation σ} (hgranted : s.engine.strays o = false) :
    Heads reported (fun d => asked d ++ (o.levelOf? d).toList) (s.operate o) where
  sound := h.sound.operate o
  plus2 := (s.engine.security_after o).trans h.plus2
  known d := (d.reported_of_mirror (Engine.mirror_after hgranted)).trans (h.known d)
  heads d := by
    have hqueue : (s.operate o).engine.queue.actions = _ := Engine.actions_of_level hgranted
    have hsent : (s.operate o).sent = s.sent := rfl
    rw [hqueue, hsent, ← List.append_assoc, d.settle_append, h.heads d, h.plus2, Operation.levelOf?]
    cases o.level? with
    | none => exact congrArg (leftAt (reported d)) (List.append_nil _).symm
    | some asks =>
      obtain ⟨d', on⟩ := asks
      dsimp only
      rw [h.known d']
      by_cases hd : d' = d
      · subst hd
        rw [if_pos rfl, Option.toList_some, leftAt_concat]
        by_cases hon : on = reported d'
        · rw [if_pos hon, if_pos hon]
          rfl
        · rw [if_neg hon, if_neg hon, d'.settle_sequence, if_pos rfl]
      · rw [if_neg hd, Option.toList_none, List.append_nil]
        split
        · rfl
        · rw [d.settle_sequence, if_neg (Ne.symm hd)]

/-- **Where a run of requests takes the light and the lock.** -/
theorem run {steps : List (Step β σ)} (h : Heads reported asked s) (hsteps : s.avoids Engine.strays steps = true) :
    Heads reported (fun d => asked d ++ requested d steps) (s.run steps) := by
  -- what was asked for grows along the run, so the induction is on the steps for every such row
  induction steps generalizing s asked with
  | nil =>
    simp only [requested, List.filterMap_nil, List.append_nil]
    exact h
  | cons step steps ih =>
    simp only [requested_cons, ← List.append_assoc]
    cases step with
    | operation o =>
      obtain ⟨hgranted, hsteps⟩ : s.engine.strays o = false ∧ (s.operate o).avoids Engine.strays steps = true := by
        simpa [avoids] using hsteps
      exact ih (h.operate hgranted) hsteps
    | transmit bus now =>
      simp only [Step.levelOf?, Option.toList_none, List.append_nil]
      exact ih (h.transmit bus now) hsteps

end Heads

end Session

/-- **The last request wins exactly if it asked for the other level than the reported one, or if every request asked for
the reported one.**  An idle engine on Security+ 2.0 that knows the levels is asked for the light and the lock any number
of times, grants all of it and receives nothing; then it has sent everything.  A device is at the other level if any
request asked for it, whatever was asked for after that. -/
theorem last_request_wins_iff {β σ : Type} [Bus β] [Storage σ] {settings : Settings}
    (hplus2 : settings.security = .plus2) (before steps : List (Step β σ)) :
    let idle := ((Session.new settings).run before).resumed
    idle.engine.queue.isEmpty = true → idle.avoids Engine.strays steps = true →
    (idle.run steps).engine.queue.isEmpty = true → ∀ d : Device,
      let reported := d.reported idle.engine.door
      let level := d.settle reported (idle.run steps).sent
      level = (if ∀ on ∈ requested d steps, on = reported then reported else !reported) ∧
      ∀ last ∈ (requested d steps).getLast?,
        (level = last ↔ (last = reported → ∀ on ∈ requested d steps, on = reported)) := by
  intro idle hidle hsteps hdrained d
  have hsecurity : idle.engine.settings.security = .plus2 := ((Session.new settings).security_run before).trans hplus2
  have hsound : Sound ((Session.new settings).run before) := (Sound.new settings).run before
  have hheads := ((Session.Heads.of_empty hsound hsecurity hidle).run hsteps).heads d
  have hqueue : (idle.run steps).engine.queue.actions = [] := List.isEmpty_iff.mp hdrained
  have hlevel : d.settle (d.reported idle.engine.door) (idle.run steps).sent =
      leftAt (d.reported idle.engine.door) (requested d steps) := by
    rw [hqueue, List.append_nil] at hheads
    exact hheads
  refine ⟨hlevel, fun last hlast => ?_⟩
  rw [hlevel]
  exact leftAt_eq_last_iff hlast

def greetingSteps : List (Step BusScript MemoryStore) := .operation (.start {} 0 0) :: sendSteps [0, 100]

/-- A station that has sent its greeting. -/
def afterGreeting : Session := ((Session.new {}).run greetingSteps).resumed

/-- The light is asked for, and then some more once the first packet has gone out. -/
def askedSteps (more : List ControlRequest) : List (Step BusScript MemoryStore) :=
  .operation (.request (.light true)) :: Step.pass ({} : BusScript) ({} : MemoryStore) 1000 ++
    more.map (.operation <| .request ·) ++ sendSteps [2000, 3000, 4000, 5000, 6000]

/-- Asking for the light twice and for the lock once leaves both on. -/
theorem last_request_wins_iff_repeated :
    Device.light.settle false (afterGreeting.run (askedSteps [.lock true, .light true])).sent = true ∧
      Device.lock.settle false (afterGreeting.run (askedSteps [.lock true, .light true])).sent = true := by
  have hplus2 : ({} : Settings).security = .plus2 := rfl
  have hwins := last_request_wins_iff hplus2 greetingSteps (askedSteps [.lock true, .light true]) (by decide +kernel)
    (by decide +kernel) (by decide +kernel)
  have hreported (d : Device) : d.reported afterGreeting.engine.door = false := by
    cases d <;> decide +kernel
  refine ⟨((hwins .light).2 true (by decide +kernel)).mpr ?_, ((hwins .lock).2 true (by decide +kernel)).mpr ?_⟩
  · exact fun hsame => absurd (hsame.trans (hreported .light)) (by decide)
  · exact fun hsame => absurd (hsame.trans (hreported .lock)) (by decide)

/-- Asking for the light and then for no light is granted twice, and leaves the light on. -/
theorem light_left_on_after_off : afterGreeting.engine.queue.isEmpty = true ∧
    afterGreeting.avoids Engine.strays (askedSteps [.light false]) = true ∧
    (afterGreeting.run (askedSteps [.light false])).engine.queue.isEmpty = true ∧
    (requested .light (askedSteps [.light false])).getLast? = some false ∧
    Device.light.settle (Device.light.reported afterGreeting.engine.door) (afterGreeting.run (askedSteps [.light false])).sent =
      true := by
  decide +kernel

end DoorBridge
