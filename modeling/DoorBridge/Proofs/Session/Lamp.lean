import DoorBridge.Proofs.Engine.Delay
import DoorBridge.Proofs.Engine.Ears
import DoorBridge.Proofs.Engine.Light
import DoorBridge.Proofs.Session

/-!
# Proofs.Session.Lamp — a session with the light of its opener

* `Lamp` is a session together with the level of the light at the opener, and with how often it was changed since a report
  gave it.  Nothing changes the level but a packet that went out.
* `Lamp.allows` are the steps that belong to a delayed close left alone: every report gives the level as it is, nobody
  works the light at the console, no recovery sequence is completed, and nothing else is requested.
* `Tracks` ties what the engine knows of the light to the level (`Tracks.take`).  Allowed steps keep the light level from the
  start of the countdown (`Lamp.savedLight_take`), and once it has ended they do not change how the light settles
  (`Lamp.Settles.take`).
-/

namespace DoorBridge

namespace Inbound

/-- The light level that it reports, if it reports one. -/
def level? : Inbound → Option Bool
  | packet (.status s) => some s.light
  | record (.status (.lightLock light _)) => some light
  | _ => none

/-- Whether it says that the light is worked at the console. -/
def isLightKey : Inbound → Bool
  | packet (.light _ _) | record (.button .lightPress) => true
  | _ => false

end Inbound

/-- What a byte of an operation completes. -/
def Engine.receives {σ : Type} (e : Engine) : Operation σ → Option Inbound
  | .byte b now => e.inbound? b now
  | _ => none

/-! ## The light at the opener -/

/-- A session, the level of the light at the opener, and the number of packets that changed it since it was reported. -/
structure Lamp where
  session : Session
  level : Bool
  unreported : Nat := 0

namespace Lamp

/-- The light is as the engine has it. -/
def of (s : Session) : Lamp := ⟨s, s.engine.door.light, 0⟩

variable {β σ : Type} [Bus β] [Storage σ]

def operate (l : Lamp) (o : Operation σ) : Lamp :=
  { l with
    session := l.session.operate o
    unreported := if ((l.session.engine.receives o).bind Inbound.level?).isSome then 0 else l.unreported }

def transmit (l : Lamp) (bus : β) (now : Nat) : Lamp :=
  match (l.session.engine.transmitNext bus now).1 with
  | .ok (some packet) =>
    { session := l.session.transmit bus now
      level := packet.lightAfter l.session.engine.settings.security l.level
      unreported := l.unreported + (Engine.changesLight l.session.engine.settings.security packet).toNat }
  | _ => { l with session := l.session.transmit bus now }

def take (l : Lamp) : Step β σ → Lamp
  | .operation o => l.operate o
  | .transmit bus now => l.transmit bus now

def run (l : Lamp) (steps : List (Step β σ)) : Lamp := steps.foldl take l

theorem session_transmit (l : Lamp) (bus : β) (now : Nat) :
    (l.transmit bus now).session = l.session.transmit bus now := by
  unfold transmit
  split <;> rfl

/-- Whether it is received in a delayed close left alone: it gives the level of the light if it gives any, it does not say
that the light is worked at the console, and it does not complete a recovery sequence. -/
def permits (l : Lamp) (x : Inbound) (now : Nat) : Bool :=
  x.level?.all (· == l.level) && !x.isLightKey && !(x.isPress && (l.session.engine.recovery.press now).1)

/-- Whether an operation belongs to a delayed close left alone. -/
def spares (l : Lamp) : Operation σ → Bool
  | .start .. | .request _ | .call _ => false
  | .byte b now => (l.session.engine.inbound? b now).all (l.permits · now)
  | .press now => !(l.session.engine.recovery.press now).1
  | .beat | .tick _ | .flush _ | .obstruction .. => true

/-- Whether a step belongs to a delayed close left alone; a try to send does. -/
def allows (l : Lamp) : Step β σ → Bool
  | .operation o => l.spares o
  | .transmit .. => true

/-- Whether a run belongs to a delayed close left alone. -/
def fair (l : Lamp) : List (Step β σ) → Bool
  | [] => true
  | step :: steps => l.allows step && (l.take step).fair steps

/-- A try to send changes nothing of the light, or its front packet went out. -/
theorem transmit_cases {l : Lamp} (hsound : Sound l.session) (bus : β) (now : Nat) :
    (∃ arbiter events, l.transmit bus now =
      { l with session := { l.session with engine := { l.session.engine with arbiter, events } } }) ∨
    ∃ a rest row arbiter, l.session.engine.queue.actions = a :: rest ∧ l.transmit bus now =
      { session := { l.session with
          engine := { l.session.engine with arbiter }.afterSending a row
          rows := l.session.rows ++ [row]
          sent := l.session.sent ++ [a] }
        level := a.packet.lightAfter l.session.engine.settings.security l.level
        unreported := l.unreported + (Engine.changesLight l.session.engine.settings.security a.packet).toNat } := by
  rcases hsound.transmit_cases bus now with
    ⟨arbiter, events, hharmless, hidle⟩ | ⟨a, rest, row, arbiter, hqueue, -, hanswer, hsent⟩
  · refine .inl ⟨arbiter, events, ?_⟩
    unfold transmit
    split
    · next packet hanswer => exact absurd hanswer (hharmless packet)
    · rw [hidle]
  · refine .inr ⟨a, rest, row, arbiter, hqueue, ?_⟩
    rw [transmit, hanswer, hsent]

/-- What each allowed step keeps holds after a fair run. -/
theorem fair_induction {P : Lamp → Prop} {l : Lamp} {steps : List (Step β σ)} (h : P l) (hfair : l.fair steps = true)
    (htake : ∀ x, P x → ∀ step : Step β σ, x.allows step = true → P (x.take step)) : P (l.run steps) := by
  induction steps generalizing l with
  | nil => exact h
  | cons step steps ih =>
    obtain ⟨hallows, hrest⟩ := Bool.and_eq_true_iff.mp hfair
    exact ih (htake l h step hallows) hrest

end Lamp

/-! ## What is heard of the light -/

namespace Ears

variable (h : Ears) {x : Inbound}

theorem hear_level {level : Bool} (hx : x.level? = some level) :
    (h.hear x).mirror.light = level ∧ (h.hear x).unconfirmed = false := by
  cases x with
  | packet p =>
    cases p with
    | status s => exact ⟨Option.some.inj hx, rfl⟩
    | _ => contradiction
  | record r =>
    cases r with
    | status s =>
      cases s with
      | lightLock light lock => exact ⟨Option.some.inj hx, rfl⟩
      | _ => contradiction
    | _ => contradiction

theorem seeDoor_light (m : Mirror) (state : DoorState) : (m.seeDoor state).light = m.light := by
  unfold Mirror.seeDoor
  split <;> rfl

theorem hear_no_level (hx : x.level? = none) (hkey : x.isLightKey = false) :
    (h.hear x).mirror.light = h.mirror.light ∧ (h.hear x).unconfirmed = h.unconfirmed := by
  cases x with
  | packet p =>
    cases p with
    | status | light => contradiction
    | _ => exact ⟨rfl, rfl⟩
  | record r =>
    cases r with
    | status s =>
      cases s with
      | door state =>
        show (h.hearDoor state).mirror.light = _ ∧ (h.hearDoor state).unconfirmed = _
        rw [mirror_hearDoor]
        refine ⟨?_, ?_⟩
        · split
          · rfl
          · exact seeDoor_light h.mirror state
        · unfold hearDoor
          split <;> rfl
      | lightLock light lock => contradiction
      | obstruction value => exact ⟨rfl, rfl⟩
    | _ => exact ⟨rfl, rfl⟩

end Ears

namespace Engine

variable {σ : Type} [Storage σ] {e : Engine} {o : Operation σ}

/-- Unless the light is worked at the console, an operation changes what the engine knows of it only by a report. -/
theorem light_after (hkey : ∀ x ∈ e.receives o, x.isLightKey = false) :
    (e.after o).door.light = ((e.receives o).bind Inbound.level?).getD e.door.light ∧
      (e.after o).lightUnconfirmed =
        (!((e.receives o).bind Inbound.level?).isSome && e.lightUnconfirmed) := by
  have hlight : (e.after o).door.light = (e.earsAfter o).mirror.light :=
    congrArg (·.mirror.light) (ears_after e o)
  have hflag : (e.after o).lightUnconfirmed = (e.earsAfter o).unconfirmed :=
    congrArg Ears.unconfirmed (ears_after e o)
  rw [hlight, hflag]
  cases o with
  | byte b now =>
    have hreceives : e.receives (.byte b now : Operation σ) = e.inbound? b now := rfl
    obtain ⟨frames, records, hfed⟩ := e.ears.feed_eq b now
    rw [hreceives, earsAfter]
    cases hin : e.inbound? b now with
    | none =>
      dsimp only
      rw [hfed]
      exact ⟨rfl, rfl⟩
    | some x =>
      dsimp only
      rw [Option.bind_some]
      cases hlevel : x.level? with
      | some level =>
        obtain ⟨hheard, hconfirmed⟩ := (e.ears.feed b now).hear_level hlevel
        exact ⟨hheard, hconfirmed⟩
      | none =>
        obtain ⟨hheard, hsame⟩ := (e.ears.feed b now).hear_no_level hlevel (hkey x hin)
        rw [hheard, hsame, hfed]
        exact ⟨rfl, rfl⟩
  | _ => exact ⟨rfl, rfl⟩

end Engine

/-! ## Allowed operations -/

namespace Countdown

variable (c : Countdown)

theorem savedLight_cancel : c.cancel.2.savedLight = c.savedLight := by
  unfold cancel
  split <;> rfl

theorem savedLight_tick : c.tick.2.savedLight = c.savedLight := by
  unfold tick
  split
  · rfl
  · split <;> rfl

variable {c}

/-- A countdown that does not run does not tick. -/
theorem tick_of_inactive (h : c.isActive = false) : c.tick = (none, c) := by
  have haction : c.action? = none := by simpa [isActive] using h
  rw [tick, haction]

end Countdown

namespace Lamp

variable {σ : Type} {l : Lamp} {o : Operation σ}

theorem receives_of_spares (h : l.spares o = true) :
    ∀ x ∈ l.session.engine.receives o, x.isLightKey = false ∧ ∀ level ∈ x.level?, level = l.level := by
  intro x hx
  cases o with
  | byte b now =>
    have hin : l.session.engine.inbound? b now = some x := hx
    have hpermits : l.permits x now = true := by
      rw [spares, hin] at h
      exact h
    rw [permits, Bool.and_eq_true_iff, Bool.and_eq_true_iff] at hpermits
    obtain ⟨⟨hlevel, hkey⟩, -⟩ := hpermits
    refine ⟨(Bool.not_eq_true' _).mp hkey, fun level hx => ?_⟩
    rw [hx] at hlevel
    exact eq_of_beq hlevel
  | _ => contradiction

theorem request?_of_spares (h : l.spares o = true) : o.request? = none := by
  cases o with
  | request | call => contradiction
  | _ => rfl

/-- Such an operation leaves the countdown alone, ends it, or takes a tick off it. -/
theorem countdown_of_spares (h : l.spares o = true) :
    let c := l.session.engine.countdown
    l.session.engine.countdownAfter o = c ∨ l.session.engine.countdownAfter o = c.cancel.2 ∨
      l.session.engine.countdownAfter o = c.tick.2 := by
  intro c
  cases o with
  | start | request | call => contradiction
  | byte b now =>
    rw [Engine.countdownAfter]
    cases hin : l.session.engine.inbound? b now with
    | none => exact .inl rfl
    | some x =>
      have hpermits : l.permits x now = true := by
        rw [spares, hin] at h
        exact h
      rw [Option.map_some, Option.getD_some, Engine.inboundCountdown]
      split
      · next hx =>
        have hmore : (l.session.engine.recovery.press now).1 = false := by
          simpa [permits, hx] using (Bool.and_eq_true_iff.mp hpermits).2
        exact .inl (Engine.pressCountdown_eq_self hmore)
      · split
        · exact .inr (.inl rfl)
        · exact .inl rfl
  | press now => exact .inl (Engine.pressCountdown_eq_self ((Bool.not_eq_true' _).mp h))
  | beat => exact .inr (.inr rfl)
  | obstruction | tick | flush => exact .inl rfl

/-- Once the countdown is over, what such an operation queues does not work the light. -/
theorem idle_of_spares (h : l.spares o = true) (hover : l.session.engine.countdown.isActive = false)
    {a : PacketAction} (haccepted : a ∈ l.session.engine.accepts o) :
    Engine.changesLight l.session.engine.settings.security a.packet = false := by
  obtain ⟨seq, hseq, ha⟩ := Queue.mem_takes haccepted
  cases o with
  | start | request | call => contradiction
  | byte b now =>
    rw [Engine.asks] at hseq
    cases hin : l.session.engine.inbound? b now with
    | none =>
      rw [hin] at hseq
      contradiction
    | some x =>
      rw [hin] at hseq
      exact Engine.idle_inboundAsks hseq ha
  | beat =>
    have hasks : l.session.engine.asks (.beat : Operation σ) = [] := by
      rw [Engine.asks, Engine.beatAsks, Countdown.tick_of_inactive hover]
    rw [hasks] at hseq
    contradiction
  | press | obstruction | tick | flush => contradiction

variable [Storage σ]

/-- The light level from the start of the countdown is kept. -/
theorem savedLight_of_spares (h : l.spares o = true) :
    (l.session.engine.after o).countdown.savedLight = l.session.engine.countdown.savedLight := by
  rw [Engine.countdown_after]
  rcases countdown_of_spares h with hsame | hcancelled | hticked
  · rw [hsame]
  · rw [hcancelled]
    exact Countdown.savedLight_cancel _
  · rw [hticked]
    exact Countdown.savedLight_tick _

/-- A countdown that is over stays over. -/
theorem isActive_of_spares (h : l.spares o = true) (hover : l.session.engine.countdown.isActive = false) :
    (l.session.engine.after o).countdown.isActive = false := by
  rw [Engine.countdown_after]
  rcases countdown_of_spares h with hsame | hcancelled | hticked
  · rw [hsame]
    exact hover
  · rw [hcancelled]
    exact Countdown.isActive_cancel _
  · rw [hticked, Countdown.tick_of_inactive hover]
    exact hover

/-- Once the countdown is over, such an operation does not change how the light settles. -/
theorem settle_of_spares (h : l.spares o = true) (hover : l.session.engine.countdown.isActive = false) (level : Bool) :
    settle l.session.engine.settings.security level (l.session.engine.after o).queue.actions =
      settle l.session.engine.settings.security level l.session.engine.queue.actions := by
  have hrequest := request?_of_spares h
  have hleft : l.session.engine.left o = l.session.engine.queue :=
    Engine.left_eq_queue (by rw [hrequest]; nofun) (by rw [hrequest]; nofun)
  rw [Engine.actions_after, hleft, settle_append]
  exact settle_of_idle fun a ha => idle_of_spares h hover ha

end Lamp

/-! ## What the engine knows of the level -/

/-- What the engine knows of the light of its opener. -/
structure Tracks (l : Lamp) : Prop where
  sound : Sound l.session
  flag : l.session.engine.lightUnconfirmed = decide (0 < l.unreported)
  confirmed : l.unreported = 0 → l.session.engine.door.light = l.level
  /-- On Security+ 1.0 every change is a toggle. -/
  parity : l.session.engine.settings.security = .plus1 →
    l.level = (l.session.engine.door.light ^^ decide (l.unreported % 2 = 1))

namespace Tracks

variable {β σ : Type} [Bus β] [Storage σ] {l : Lamp}

theorem of {s : Session} (hsound : Sound s) (hconfirmed : s.engine.lightUnconfirmed = false) : Tracks (.of s) where
  sound := hsound
  flag := hconfirmed
  confirmed _ := rfl
  parity _ := (Bool.xor_false _).symm

/-- An operation that reports the level of the light if it reports one, and does not work it. -/
theorem operate (h : Tracks l) {o : Operation σ}
    (hreceives : ∀ x ∈ l.session.engine.receives o, x.isLightKey = false ∧ ∀ level ∈ x.level?, level = l.level) :
    Tracks (l.operate o) := by
  obtain ⟨hlight, hflag⟩ := Engine.light_after (e := l.session.engine) fun x hx => (hreceives x hx).1
  have hsecurity : (l.operate o).session.engine.settings.security = l.session.engine.settings.security :=
    Engine.security_after l.session.engine o
  have hlight' : (l.operate o).session.engine.door.light = _ := hlight
  have hflag' : (l.operate o).session.engine.lightUnconfirmed = _ := hflag
  cases hlevel : (l.session.engine.receives o).bind Inbound.level? with
  | none =>
    have hunreported : (l.operate o).unreported = l.unreported := by
      rw [Lamp.operate, hlevel]
      rfl
    rw [hlevel] at hlight' hflag'
    constructor
    · exact h.sound.operate o
    · rw [hflag', hunreported]
      exact h.flag
    · rw [hunreported, hlight']
      exact h.confirmed
    · rw [hsecurity, hunreported, hlight']
      exact h.parity
  | some level =>
    have hunreported : (l.operate o).unreported = 0 := by
      rw [Lamp.operate, hlevel]
      rfl
    obtain ⟨x, hx, hxlevel⟩ := Option.bind_eq_some_iff.mp hlevel
    have hsame : level = l.level := (hreceives x hx).2 level hxlevel
    rw [hlevel] at hlight' hflag'
    constructor
    · exact h.sound.operate o
    · rw [hflag', hunreported]
      rfl
    · intro _
      rw [hlight']
      exact hsame
    · intro _
      rw [hunreported, hlight', Option.getD_some, hsame]
      exact (Bool.xor_false _).symm

theorem decide_odd_succ (n : Nat) : decide ((n + 1) % 2 = 1) = !decide (n % 2 = 1) := by
  rw [← decide_not, decide_eq_decide]
  omega

/-- Sending a packet counts it if it changes the light. -/
theorem transmit (h : Tracks l) (bus : β) (now : Nat) : Tracks (l.transmit bus now) := by
  have hsound : Sound (l.transmit bus now).session := by
    rw [Lamp.session_transmit]
    exact h.sound.transmit bus now
  rcases Lamp.transmit_cases h.sound bus now with ⟨arbiter, events, hidle⟩ | ⟨a, rest, row, arbiter, -, hsent⟩
  · rw [hidle] at hsound ⊢
    exact ⟨hsound, h.flag, h.confirmed, h.parity⟩
  rw [hsent] at hsound ⊢
  cases hchanges : Engine.changesLight l.session.engine.settings.security a.packet with
  | false =>
    rw [lightAfter_of_idle hchanges]
    refine ⟨hsound, ?_, h.confirmed, h.parity⟩
    show (l.session.engine.lightUnconfirmed || Engine.changesLight _ a.packet) = _
    rw [hchanges, Bool.or_false]
    exact h.flag
  | true =>
    constructor
    · exact hsound
    · show (l.session.engine.lightUnconfirmed || Engine.changesLight _ a.packet) = _
      rw [hchanges, Bool.or_true]
      exact (decide_eq_true (Nat.succ_pos l.unreported)).symm
    · intro hzero
      exact absurd hzero (Nat.succ_ne_zero l.unreported)
    · intro hplus1
      have hplus1' : l.session.engine.settings.security = .plus1 := hplus1
      rw [hplus1'] at hchanges
      show a.packet.lightAfter l.session.engine.settings.security l.level =
        (l.session.engine.door.light ^^ decide ((l.unreported + 1) % 2 = 1))
      rw [hplus1', lightAfter_plus1 hchanges, h.parity hplus1', decide_odd_succ, Bool.xor_not]

theorem take (h : Tracks l) {step : Step β σ} (hallows : l.allows step = true) : Tracks (l.take step) := by
  cases step with
  | operation o => exact h.operate (Lamp.receives_of_spares hallows)
  | transmit bus now => exact h.transmit bus now

end Tracks

/-! ## Countdown and queue -/

namespace Lamp

variable {β σ : Type} [Bus β] [Storage σ] {l : Lamp}

theorem security_take (l : Lamp) (step : Step β σ) :
    (l.take step).session.engine.settings.security = l.session.engine.settings.security := by
  cases step with
  | operation o => exact Engine.security_after l.session.engine o
  | transmit bus now =>
    show (l.transmit bus now).session.engine.settings.security = _
    rw [session_transmit]
    exact l.session.security_transmit bus now

theorem sound_take (hsound : Sound l.session) (step : Step β σ) : Sound (l.take step).session := by
  cases step with
  | operation o => exact hsound.operate o
  | transmit bus now =>
    show Sound (l.transmit bus now).session
    rw [session_transmit]
    exact hsound.transmit bus now

theorem savedLight_take {step : Step β σ} (hallows : l.allows step = true) :
    (l.take step).session.engine.countdown.savedLight = l.session.engine.countdown.savedLight := by
  cases step with
  | operation o => exact savedLight_of_spares hallows
  | transmit bus now =>
    show (l.transmit bus now).session.engine.countdown.savedLight = _
    rw [session_transmit, l.session.countdown_transmit bus now]

/-- The countdown has ended, and the light settles at a level. -/
structure Settles (l : Lamp) (level : Bool) : Prop where
  ended : l.session.engine.countdown.isActive = false
  settles : settle l.session.engine.settings.security l.level l.session.engine.queue.actions = level

theorem Settles.take {level : Bool} (hsound : Sound l.session) (h : l.Settles level) {step : Step β σ}
    (hallows : l.allows step = true) : (l.take step).Settles level := by
  have hsecurity := l.security_take step
  cases step with
  | operation o =>
    constructor
    · exact isActive_of_spares hallows h.ended
    · rw [hsecurity]
      exact (settle_of_spares hallows h.ended l.level).trans h.settles
  | transmit bus now =>
    have hcountdown : (l.take (.transmit bus now : Step β σ)).session.engine.countdown = l.session.engine.countdown := by
      show (l.transmit bus now).session.engine.countdown = _
      rw [session_transmit, l.session.countdown_transmit bus now]
    constructor
    · rw [hcountdown]
      exact h.ended
    · rw [hsecurity]
      show settle _ (l.transmit bus now).level (l.transmit bus now).session.engine.queue.actions = level
      rcases transmit_cases hsound bus now with ⟨arbiter, events, hidle⟩ | ⟨a, rest, row, arbiter, hqueue, hsent⟩
      · rw [hidle]
        exact h.settles
      · have hrest : ({ l.session.engine with arbiter }.afterSending a row).queue.actions = rest :=
          congrArg List.tail hqueue
        have hsettles := h.settles
        rw [hqueue] at hsettles
        rw [hsent]
        dsimp only
        rw [hrest]
        exact hsettles

end Lamp

end DoorBridge
