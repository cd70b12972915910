import DoorBridge.Arbiter.Script
import DoorBridge.Proofs.Session.Lamp
import DoorBridge.Storage.Memory

/-!
# Proofs.Session.Cancel — what becomes of the light when a delayed close is cancelled

A `CancelledClose` is a run that arms a delayed close, leaves it alone, cancels it by opening the door, and leaves the
engine alone until the queue is empty.  `Proper` says that it is one.  While the countdown runs the engine tracks the light
(`Proper.tracks`); when it is cancelled, the packets that are left and those that are added settle the light
(`Proper.settles`), and from then on it goes there (`Proper.level_drained`).  On Security+ 2.0 that is the level from the
start of the countdown; on Security+ 1.0 it depends on how many blinks no report has confirmed.
-/

namespace DoorBridge

namespace Engine

variable {σ : Type}

/-- Whether an operation opens the door and is not refused. -/
def opens (e : Engine) : Operation σ → Bool
  | .request .openDoor => (e.apply .openDoor).1 = .ok ()
  | .call .openDoor => e.openDoor.1 = .ok ()
  | _ => false

/-- Opening the door is not refused if the queue has room for all that it asks for. -/
theorem takesAll_of_opens {e : Engine} {o : Operation σ} (h : e.opens o = true) :
    o.request? = some .openDoor ∧ (e.requestLeft .openDoor).takesAll e.openAsks = true := by
  cases o with
  | request r =>
    cases r with
    | openDoor => exact ⟨rfl, (hands_openDoor (e.emit _)).answer.mp (of_decide_eq_true h)⟩
    | _ => contradiction
  | call r =>
    cases r with
    | openDoor => exact ⟨rfl, (hands_openDoor e).answer.mp (of_decide_eq_true h)⟩
    | _ => contradiction
  | _ => contradiction

variable [Storage σ] {e : Engine} {o : Operation σ}

/-- The queue once opening the door has cancelled a delayed close. -/
theorem queue_of_opens (h : e.opens o = true) (hclosing : e.countdown.isClosing = true) :
    (e.after o).queue.actions = e.unblinked.actions ++ e.openAsks.flatten := by
  obtain ⟨hrequest, hall⟩ := takesAll_of_opens h
  have hleft : e.left o = e.unblinked := by rw [left_openDoor hrequest, if_pos hclosing]
  have hrequestLeft : e.requestLeft .openDoor = e.unblinked := if_pos hclosing
  have hasks : e.asks o = e.openAsks := by
    cases o with
    | request r | call r =>
      obtain rfl : r = .openDoor := Option.some.inj hrequest
      rfl
    | _ => contradiction
  rw [hrequestLeft] at hall
  rw [actions_after, accepts, hleft, hasks, Queue.takes_of_takesAll hall]

theorem isActive_of_opens (h : e.opens o = true) (hclosing : e.countdown.isClosing = true) :
    (e.after o).countdown.isActive = false := by
  have hprepared : (e.prepared .openDoor).countdown = e.countdown.cancel.2 := if_pos hclosing
  have hafter : e.countdownAfter o = (e.prepared .openDoor).countdown := by
    obtain ⟨hrequest, -⟩ := takesAll_of_opens h
    cases o with
    | request r | call r =>
      obtain rfl : r = .openDoor := Option.some.inj hrequest
      rfl
    | _ => contradiction
  rw [countdown_after, hafter, hprepared]
  exact Countdown.isActive_cancel _

end Engine

/-! ## A cancelled delayed close -/

/-- A run that arms a delayed close, goes on, opens the door, and goes on. -/
structure CancelledClose (β σ : Type) where
  settings : Settings
  before : List (Step β σ)
  close : Operation σ
  during : List (Step β σ)
  opening : Operation σ
  after : List (Step β σ)

namespace CancelledClose

variable {β σ : Type} [Bus β] [Storage σ] (c : CancelledClose β σ)

/-- Before the countdown. -/
def idle : Session := (Session.new c.settings).run c.before

/-- Once the countdown is armed, the light at the opener as the engine has it. -/
def armed : Lamp := (Lamp.of c.idle).operate c.close

/-- When the door is opened. -/
def warned : Lamp := c.armed.run c.during

/-- Once the door was opened. -/
def opened : Lamp := c.warned.operate c.opening

/-- At the end. -/
def drained : Lamp := c.opened.run c.after

/-- It is one: no light packet went out after the last report when the countdown was armed, every report gave the level of
the light, nobody worked it at the console and nothing else was requested; the countdown was running when the door was
opened, which was not refused, and the queue is empty at the end. -/
structure Proper : Prop where
  confirmed : c.idle.engine.lightUnconfirmed = false
  arms : c.idle.engine.arms c.close = true
  warns : c.armed.fair c.during = true
  runs : c.warned.session.engine.countdown.isClosing = true
  opens : c.warned.session.engine.opens c.opening = true
  waits : c.opened.fair c.after = true
  empties : c.drained.session.engine.queue.isEmpty = true

instance : Decidable c.Proper :=
  decidable_of_iff
    (c.idle.engine.lightUnconfirmed = false ∧ c.idle.engine.arms c.close = true ∧ c.armed.fair c.during = true ∧
      c.warned.session.engine.countdown.isClosing = true ∧ c.warned.session.engine.opens c.opening = true ∧
      c.opened.fair c.after = true ∧ c.drained.session.engine.queue.isEmpty = true)
    ⟨fun ⟨confirmed, arms, warns, runs, opens, waits, empties⟩ =>
        ⟨confirmed, arms, warns, runs, opens, waits, empties⟩,
      fun h => ⟨h.confirmed, h.arms, h.warns, h.runs, h.opens, h.waits, h.empties⟩⟩

namespace Proper

variable {c}

theorem security_idle : c.idle.engine.settings.security = c.settings.security :=
  (Session.new c.settings).security_run c.before

/-- Until the door is opened the engine tracks the light, and remembers the level from the start of the countdown. -/
theorem tracks (h : c.Proper) : Tracks c.warned ∧
    c.warned.session.engine.countdown.savedLight = c.idle.engine.door.light ∧
    c.warned.session.engine.settings.security = c.settings.security := by
  have hidle : Sound c.idle := (Sound.new c.settings).run c.before
  have hreceives : c.idle.engine.receives c.close = none := by
    have harms := h.arms
    cases hclose : c.close with
    | byte b now =>
      rw [hclose] at harms
      contradiction
    | _ => rfl
  have harmed : Tracks c.armed := (Tracks.of hidle h.confirmed).operate fun x hx => by
    have hnone : none = some x := hreceives.symm.trans hx
    contradiction
  have hsaved : c.armed.session.engine.countdown.savedLight = c.idle.engine.door.light := by
    have hstart := (Engine.countdown_after c.idle.engine c.close).trans (Engine.countdown_of_arms h.arms).2
    exact congrArg Countdown.savedLight hstart
  have hsecurity : c.armed.session.engine.settings.security = c.settings.security :=
    (Engine.security_after c.idle.engine c.close).trans security_idle
  refine Lamp.fair_induction (P := fun x => Tracks x ∧
    x.session.engine.countdown.savedLight = c.idle.engine.door.light ∧
    x.session.engine.settings.security = c.settings.security) ⟨harmed, hsaved, hsecurity⟩ h.warns ?_
  rintro x ⟨htracks, hsaved, hsecurity⟩ step hallows
  exact ⟨htracks.take hallows, (Lamp.savedLight_take hallows).trans hsaved, (x.security_take step).trans hsecurity⟩

/-- The level at which the light settles once the door was opened: only what puts it back works it. -/
theorem settles (h : c.Proper) : c.opened.Settles (settle c.settings.security c.warned.level
    (c.warned.session.engine.restoreAsks c.idle.engine.door.light).flatten) := by
  obtain ⟨-, hsaved, hsecurity⟩ := h.tracks
  constructor
  · exact Engine.isActive_of_opens h.opens h.runs
  · have hsame : c.opened.session.engine.settings.security = c.warned.session.engine.settings.security :=
      Engine.security_after c.warned.session.engine c.opening
    have hqueue : c.opened.session.engine.queue.actions = _ := Engine.queue_of_opens h.opens h.runs
    have hlevel : c.opened.level = c.warned.level := rfl
    rw [hsame, hqueue, hlevel, settle_append, Engine.settle_unblinked, Engine.settle_openAsks h.runs, hsaved, hsecurity]

/-- **The light goes where what puts it back leaves it.** -/
theorem level_drained (h : c.Proper) : c.drained.level = settle c.settings.security c.warned.level
    (c.warned.session.engine.restoreAsks c.idle.engine.door.light).flatten := by
  obtain ⟨htracks, -⟩ := h.tracks
  have hopened : Sound c.opened.session := htracks.sound.operate c.opening
  obtain ⟨-, -, hsettles⟩ := Lamp.fair_induction (P := fun x => Sound x.session ∧ x.Settles (settle c.settings.security
    c.warned.level (c.warned.session.engine.restoreAsks c.idle.engine.door.light).flatten)) ⟨hopened, h.settles⟩ h.waits
    fun x hx step hallows => ⟨Lamp.sound_take hx.1 step, hx.2.take hx.1 hallows⟩
  have hempty : (c.opened.run c.after).session.engine.queue.actions = [] := List.isEmpty_iff.mp h.empties
  rw [hempty] at hsettles
  exact hsettles

end Proper

end CancelledClose

/-- **Cancelling a delayed close puts the light back.**  On Security+ 2.0 the light is, once all packets are out, at the
level from the start of the countdown, whatever blinks were queued, sent or reported by then. -/
theorem light_put_back {β σ : Type} [Bus β] [Storage σ] {c : CancelledClose β σ}
    (hplus2 : c.settings.security = .plus2) (h : c.Proper) : c.drained.level = c.idle.engine.door.light := by
  obtain ⟨htracks, -, hsecurity⟩ := h.tracks
  have hconfirmed : c.warned.session.engine.lightUnconfirmed = false →
      c.warned.session.engine.door.light = c.warned.level := by
    intro hflag
    refine htracks.confirmed ?_
    have hnone : ¬ 0 < c.warned.unreported := of_decide_eq_false (htracks.flag.symm.trans hflag)
    omega
  rw [h.level_drained, hplus2]
  exact Engine.settle_restoreAsks_plus2 (hsecurity.trans hplus2) hconfirmed c.idle.engine.door.light

/-- The bytes of a status frame, all at one time. -/
def statusSteps (report : StatusReport) (now : Nat) : List (Step BusScript MemoryStore) :=
  match Message.encode ⟨.status report, 100, 0x333539⟩ with
  | .ok frame => frame.bytes.map fun b => .operation (.byte b now)
  | .error _ => []

/-- Tries to send at some times, over a bus that lets everything through. -/
def sendSteps (times : List Nat) : List (Step BusScript MemoryStore) := times.map (.transmit {})

/-- A Security+ 2.0 close cancelled when one blink was reported, the next one was sent after a collision, and a third one
was queued. -/
def blinkedClose : CancelledClose BusScript MemoryStore where
  settings := { ttcSeconds := 5 }
  before := []
  close := .request .closeDoor
  during := [.operation .beat] ++ sendSteps [0] ++ statusSteps ⟨.stopped, true, false, false, false⟩ 100 ++
    [.operation .beat, .transmit { busy := [true] } 1000] ++ sendSteps [2000, 3000] ++ [.operation .beat]
  opening := .request .openDoor
  after := sendSteps [4000, 5000, 6000, 7000, 8000, 9000, 10000]

/-- The light was off when that close was asked for, and is off again. -/
theorem light_put_back_blinked : blinkedClose.Proper ∧ blinkedClose.warned.unreported = 1 ∧
    blinkedClose.idle.engine.door.light = false ∧ blinkedClose.drained.level = blinkedClose.idle.engine.door.light := by
  have hproper : blinkedClose.Proper := by decide +kernel
  exact ⟨hproper, by decide +kernel, rfl, light_put_back rfl hproper⟩

/-- **On Security+ 1.0 the light is put back exactly if no blink or an odd number of them went unreported.**  The engine
remembers only that there was one. -/
theorem light_put_back_iff_odd {β σ : Type} [Bus β] [Storage σ] {c : CancelledClose β σ}
    (hplus1 : c.settings.security = .plus1) (h : c.Proper) :
    c.drained.level = c.idle.engine.door.light ↔ c.warned.unreported = 0 ∨ c.warned.unreported % 2 = 1 := by
  obtain ⟨htracks, -, hsecurity⟩ := h.tracks
  have hparity := htracks.parity (hsecurity.trans hplus1)
  have hlevel := h.level_drained
  rw [hplus1, Engine.settle_restoreAsks_plus1 (hsecurity.trans hplus1), htracks.flag, hparity] at hlevel
  have hflips (light saved odd some : Bool) :
      ((light ^^ odd) ^^ (some ^^ (saved ^^ light))) = saved ↔ odd = some := by
    cases light <;> cases saved <;> cases odd <;> cases some <;> decide
  rw [hlevel, hflips, decide_eq_decide]
  omega

/-- A Security+ 1.0 close cancelled after a number of blinks of which no report came. -/
def unreportedClose (blinks : List (List Nat)) (after : List Nat) : CancelledClose BusScript MemoryStore where
  settings := { security := .plus1, ttcSeconds := 5 }
  before := []
  close := .request .closeDoor
  during := blinks.flatMap fun times => .operation .beat :: sendSteps times
  opening := .request .openDoor
  after := sendSteps after

/-- A blink whose releases are still queued. -/
def onceBlinked : CancelledClose BusScript MemoryStore :=
  unreportedClose [[0]] [1000, 2000, 3000, 4000, 5000, 6000, 7000, 8000]

/-- Two whole blinks. -/
def twiceBlinked : CancelledClose BusScript MemoryStore :=
  unreportedClose [[0, 1000, 2000], [3000, 4000, 5000]] [6000, 7000, 8000, 9000, 10000, 11000]

/-- After one blink the light is off again. -/
theorem light_put_back_iff_odd_once : onceBlinked.Proper ∧ onceBlinked.warned.unreported = 1 ∧
    onceBlinked.drained.level = onceBlinked.idle.engine.door.light := by
  have hproper : onceBlinked.Proper := by decide +kernel
  have honce : onceBlinked.warned.unreported = 1 := by decide +kernel
  have hodd : onceBlinked.warned.unreported % 2 = 1 := by rw [honce]
  exact ⟨hproper, honce, (light_put_back_iff_odd rfl hproper).mpr (.inr hodd)⟩

/-- After two blinks the light is off as it was before the countdown, and the engine turns it on. -/
theorem light_left_on_after_two : twiceBlinked.settings.security = .plus1 ∧
    twiceBlinked.idle.engine.queue.isEmpty = true ∧ twiceBlinked.Proper ∧
    twiceBlinked.warned.level = twiceBlinked.idle.engine.door.light ∧
    twiceBlinked.drained.level ≠ twiceBlinked.idle.engine.door.light := by
  have hproper : twiceBlinked.Proper := by decide +kernel
  exact ⟨rfl, rfl, hproper, by decide +kernel, by decide +kernel⟩

end DoorBridge
