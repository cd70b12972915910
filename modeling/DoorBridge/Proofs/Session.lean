import DoorBridge.Proofs.Engine.Transmit

/-!
# Proofs.Session — runs of the engine, with what came into the queue and where it went

* `Step` is an operation or a try to send; a servicing pass is three of them (`Session.run_pass`).  Every step meets
  a bus and a store of its own, so a run covers all faults and all that other stations do.
* `Session` is the engine with what is remembered of the run for the sake of the theory: the actions that the queue
  took, those that went out, the rows written to the bus, and the actions that left the queue without being sent.
* `Sound` is what every run keeps: the queue holds few enough actions, all of them can be sent, and the counter is in
  its range (`Sound.run`).  So a try to send never loses a packet (`Sound.transmit_cases`).
-/

namespace DoorBridge

/-! ## What an operation does to the queue -/

namespace Engine

variable {σ : Type} (e : Engine)

/-- The actions that an operation adds to the queue. -/
def accepts (o : Operation σ) : List PacketAction := (e.left o).takes (e.asks o)

/-- The queued actions that are thrown out when opening the door cancels a delayed close. -/
def revokes (o : Operation σ) : List PacketAction :=
  if o.request? = some .openDoor ∧ e.countdown.isClosing then
    Queue.discarded isUnsentBlink e.releaseIsNext e.queue.actions
  else []

/-- The queued actions that are thrown out by a reset. -/
def clears (o : Operation σ) : List PacketAction :=
  if o.request? = some .reset then e.queue.actions else []

/-- The action that went out, if a try to send answered with a packet. -/
def sentBy (answer : Except EngineError (Option Packet)) : List PacketAction :=
  match answer with
  | .ok (some _) => e.queue.front?.toList
  | _ => []

variable {e}

theorem left_eq_queue {o : Operation σ} (hopen : o.request? ≠ some .openDoor) (hreset : o.request? ≠ some .reset) :
    e.left o = e.queue := by
  cases o with
  | request r | call r =>
    cases r with
    | openDoor => exact absurd rfl hopen
    | reset => exact absurd rfl hreset
    | _ => rfl
  | _ => rfl

theorem left_openDoor {o : Operation σ} (h : o.request? = some .openDoor) :
    e.left o = if e.countdown.isClosing then e.unblinked else e.queue := by
  cases o with
  | request r | call r =>
    obtain rfl : r = .openDoor := Option.some.inj h
    rfl
  | _ => contradiction

theorem left_reset {o : Operation σ} (h : o.request? = some .reset) : e.left o = {} := by
  cases o with
  | request r | call r =>
    obtain rfl : r = .reset := Option.some.inj h
    rfl
  | _ => contradiction

/-- What an operation leaves of the queue keeps its order, and the rest was revoked or cleared. -/
theorem left_spec (e : Engine) (o : Operation σ) :
    (e.left o).actions.Sublist e.queue.actions ∧
      e.queue.actions.Perm ((e.left o).actions ++ (e.revokes o ++ e.clears o)) := by
  by_cases hreset : o.request? = some .reset
  · rw [left_reset hreset, revokes, clears, if_pos hreset, if_neg (by rw [hreset]; nofun)]
    exact ⟨List.nil_sublist _, List.Perm.refl _⟩
  rw [clears, if_neg hreset, List.append_nil, revokes]
  by_cases hopen : o.request? = some .openDoor
  · rw [left_openDoor hopen]
    by_cases hclosing : e.countdown.isClosing = true
    · rw [if_pos hclosing, if_pos ⟨hopen, hclosing⟩]
      exact ⟨Queue.discard_sublist _ _ _, Queue.discard_perm _ _ _⟩
    · rw [if_neg hclosing, if_neg fun h => hclosing h.2, List.append_nil]
      exact ⟨List.Sublist.refl _, List.Perm.refl _⟩
  · rw [left_eq_queue hopen hreset, if_neg fun h => hopen h.1, List.append_nil]
    exact ⟨List.Sublist.refl _, List.Perm.refl _⟩

/-- Only light packets are ever revoked. -/
theorem light_of_mem_revokes {o : Operation σ} {a : PacketAction} (h : a ∈ e.revokes o) :
    ∃ command pressed, a.packet = .light command pressed := by
  rw [revokes] at h
  split at h
  · obtain ⟨inSequence, hdrop⟩ := Queue.exists_of_mem_discarded isUnsentBlink h
    rw [isUnsentBlink] at hdrop
    split at hdrop
    · next command pressed hpacket => exact ⟨command, pressed, hpacket⟩
    · contradiction
  · contradiction

variable [Storage σ]

theorem actions_after (e : Engine) (o : Operation σ) :
    (e.after o).queue.actions = (e.left o).actions ++ e.accepts o := congrArg Queue.actions (queue_after e o)

/-- The counter that a start loads is in its range. -/
theorem restore_rolling_lt (store : σ) (entropy : UInt32) :
    (Identity.restore store entropy).identity.rolling < counterBound := by
  rw [Identity.identity_restore]
  exact Identity.startCounter_lt store entropy

theorem counter_after (h : e.identity.rolling < counterBound) (o : Operation σ) :
    (e.after o).identity.rolling < counterBound := by
  cases hstart : o.isStart with
  | false =>
    have hstamp : (e.after o).identity.rolling = e.identity.rolling := congrArg (·.2.2) (stamp_after e hstart)
    rwa [hstamp]
  | true =>
    cases o with
    | start store entropy now =>
      obtain ⟨hasMotionSensor, motionTriggers, arbiter, events, hstarted⟩ := start_eq e store entropy now
      rw [after, hstarted]
      dsimp only
      split
      · exact restore_rolling_lt store entropy
      · exact h
    | _ => contradiction

end Engine

/-! ## Runs -/

inductive Step (β σ : Type) where
  | operation (o : Operation σ)
  /-- A try to send the front packet. -/
  | transmit (bus : β) (now : Nat)

def Step.isStart {β σ : Type} : Step β σ → Bool
  | operation o => o.isStart
  | transmit .. => false

def Step.isReset {β σ : Type} : Step β σ → Bool
  | operation o => o.request? = some .reset
  | transmit .. => false

/-- A servicing pass: timeouts, a try to send, and the store. -/
def Step.pass {β σ : Type} (bus : β) (store : σ) (now : Nat) : List (Step β σ) :=
  [.operation (.tick now), .transmit bus now, .operation (.flush store)]

/-- The engine and what is remembered of the run. -/
structure Session where
  engine : Engine
  /-- The actions that the queue took, in order. -/
  accepted : List PacketAction := []
  /-- The actions that went out, in order. -/
  sent : List PacketAction := []
  /-- The rows that were written to the bus, in order. -/
  rows : List (List UInt8) := []
  /-- The actions that left the queue when opening the door cancelled a delayed close. -/
  revoked : List PacketAction := []
  /-- The actions that left the queue with a reset. -/
  cleared : List PacketAction := []

namespace Session

def new (settings : Settings) : Session := { engine := .new settings }

variable {β σ : Type} [Bus β] [Storage σ]

def operate (s : Session) (o : Operation σ) : Session :=
  { s with
    engine := s.engine.after o
    accepted := s.accepted ++ s.engine.accepts o
    revoked := s.revoked ++ s.engine.revokes o
    cleared := s.cleared ++ s.engine.clears o }

def transmit (s : Session) (bus : β) (now : Nat) : Session :=
  let (answer, engine, log) := s.engine.transmitNext (WireLog.mk bus s.rows) now
  { s with engine, rows := log.rows, sent := s.sent ++ s.engine.sentBy answer }

/-- The boot of an engine that nothing has happened to. -/
def boot (settings : Settings) (store : σ) (entropy : UInt32) (now : Nat) : Session :=
  (new settings).operate (.start store entropy now)

def take (s : Session) : Step β σ → Session
  | .operation o => s.operate o
  | .transmit bus now => s.transmit bus now

def run (s : Session) (steps : List (Step β σ)) : Session := steps.foldl take s

theorem run_append (s : Session) (steps more : List (Step β σ)) : s.run (steps ++ more) = (s.run steps).run more :=
  List.foldl_append

/-- What each step keeps holds after the run. -/
theorem run_induction {P : Session → Prop} {s : Session} {steps : List (Step β σ)} (h : P s)
    (htake : ∀ x, P x → ∀ step ∈ steps, P (x.take step)) : P (s.run steps) :=
  List.foldlRecOn steps take h htake

/-- A pass of a session is the pass of its engine. -/
theorem run_pass (s : Session) (bus : β) (store : σ) (now : Nat) :
    (s.run (Step.pass bus store now)).engine = (s.engine.service bus store now).1 := by
  obtain ⟨new, hlogged, -⟩ := (s.engine.tick now).attempt_transmitNext (WireLog.mk bus s.rows) now
  have htransmit : ((s.operate (.tick now : Operation σ)).transmit bus now).engine =
      ((s.engine.tick now).transmitNext bus now).2.1 := congrArg (·.2.1) hlogged
  have hpass : (s.run (Step.pass bus store now)).engine =
      (((s.operate (.tick now : Operation σ)).transmit bus now).engine.flush store).2.1 := rfl
  rw [hpass, htransmit]
  rfl

/-! ## Tries to send -/

/-- The three ends of a try to send, for a session. -/
theorem transmit_eq (s : Session) (bus : β) (now : Nat) :
    (∃ arbiter events, (∀ packet, (s.engine.transmitNext bus now).1 ≠ .ok (some packet)) ∧
      s.transmit bus now = { s with engine := { s.engine with arbiter, events } }) ∨
    (∃ a row arbiter, s.engine.queue.front? = some a ∧ s.engine.encode a.packet = .ok row ∧
      (s.engine.transmitNext bus now).1 = .ok (some a.packet) ∧
      s.transmit bus now = { s with
        engine := { s.engine with arbiter }.afterSending a row
        rows := s.rows ++ [row]
        sent := s.sent ++ [a] }) ∨
    ∃ a cause events, s.engine.queue.front? = some a ∧ s.engine.encode a.packet = .error cause ∧
      s.transmit bus now = { s with engine := { s.engine with queue := s.engine.queue.dropFront, events } } := by
  obtain ⟨new, hlogged, hattempt⟩ := s.engine.attempt_transmitNext (WireLog.mk bus s.rows) now
  have hquiet (engine : Engine) (rows : List (List UInt8)) :
      { s with engine, rows := rows ++ [], sent := s.sent ++ [] } = { s with engine, rows } := by
    rw [List.append_nil, List.append_nil]
  rw [transmit, hlogged]
  dsimp only at hattempt ⊢
  generalize s.engine.transmitNext bus now = tried at hattempt ⊢
  obtain ⟨answer, engine, bus'⟩ := tried
  dsimp only at hattempt ⊢
  cases hattempt with
  | idle harmless arbiter events =>
    have hsent : s.engine.sentBy answer = [] := by
      rw [Engine.sentBy.eq_def]
      split
      · next packet => exact absurd rfl (harmless packet)
      · rfl
    refine .inl ⟨arbiter, events, harmless, ?_⟩
    rw [hsent, hquiet]
  | sent hfront hrow arbiter =>
    refine .inr (.inl ⟨_, _, arbiter, hfront, hrow, rfl, ?_⟩)
    rw [Engine.sentBy, hfront, Option.toList_some]
  | lost hfront hrow events =>
    refine .inr (.inr ⟨_, _, events, hfront, hrow, ?_⟩)
    rw [Engine.sentBy.eq_def, hquiet]

/-- A try to send changes nothing of what is remembered but the rows and what was sent. -/
theorem transmit_same (s : Session) (bus : β) (now : Nat) :
    (s.transmit bus now).accepted = s.accepted ∧ (s.transmit bus now).revoked = s.revoked ∧
      (s.transmit bus now).cleared = s.cleared := ⟨rfl, rfl, rfl⟩

theorem countdown_transmit (s : Session) (bus : β) (now : Nat) :
    (s.transmit bus now).engine.countdown = s.engine.countdown := by
  rcases s.transmit_eq bus now with ⟨_, _, _, h⟩ | ⟨_, _, _, _, _, _, h⟩ | ⟨_, _, _, _, _, h⟩
  · rw [h]
  · rw [h]
    rfl
  · rw [h]

theorem security_transmit (s : Session) (bus : β) (now : Nat) :
    (s.transmit bus now).engine.settings.security = s.engine.settings.security := by
  rcases s.transmit_eq bus now with ⟨_, _, _, h⟩ | ⟨_, _, _, _, _, _, h⟩ | ⟨_, _, _, _, _, h⟩
  · rw [h]
  · rw [h]
    rfl
  · rw [h]

theorem security_take (s : Session) (step : Step β σ) :
    (s.take step).engine.settings.security = s.engine.settings.security := by
  cases step with
  | operation o => exact Engine.security_after s.engine o
  | transmit bus now => exact s.security_transmit bus now

theorem security_run (s : Session) (steps : List (Step β σ)) :
    (s.run steps).engine.settings.security = s.engine.settings.security :=
  run_induction (P := fun x => x.engine.settings.security = s.engine.settings.security) rfl
    fun x hx step _ => (x.security_take step).trans hx

end Session

/-! ## What every run keeps -/

/-- The counter is in its range, the queue is not overfull, and all that it holds can be sent. -/
structure Sound (s : Session) : Prop where
  counter : s.engine.identity.rolling < counterBound
  size : s.engine.queue.size ≤ queueDepth
  genuine : ∀ a ∈ s.engine.queue.actions, a.Genuine s.engine.settings.security

namespace Sound

variable {β σ : Type} [Bus β] [Storage σ] {s : Session}

theorem new (settings : Settings) : Sound (.new settings) where
  counter := show 0 < counterBound by decide
  size := Nat.zero_le _
  genuine _ ha := absurd ha List.not_mem_nil

theorem operate (h : Sound s) (o : Operation σ) : Sound (s.operate o) where
  counter := Engine.counter_after h.counter o
  size := by
    have hleft : (s.engine.left o).size ≤ queueDepth := (Engine.left_spec s.engine o).1.length_le.trans h.size
    have hqueue : (s.operate o).engine.queue = _ := Engine.queue_after s.engine o
    rw [hqueue]
    exact Queue.size_takes_le hleft _
  genuine a ha := by
    have hqueue : (s.operate o).engine.queue.actions = _ := Engine.actions_after s.engine o
    have hsecurity : (s.operate o).engine.settings.security = s.engine.settings.security :=
      Engine.security_after s.engine o
    rw [hqueue] at ha
    rw [hsecurity]
    rcases List.mem_append.mp ha with ha | ha
    · exact h.genuine a ((Engine.left_spec s.engine o).1.subset ha)
    · obtain ⟨seq, hseq, ha⟩ := Queue.mem_takes ha
      exact Engine.genuine_of_offer (Engine.offer_asks hseq) ha

/-- **A try to send never loses a packet**: either the queue stays as it is, or its front went out. -/
theorem transmit_cases (h : Sound s) (bus : β) (now : Nat) :
    (∃ arbiter events, (∀ packet, (s.engine.transmitNext bus now).1 ≠ .ok (some packet)) ∧
      s.transmit bus now = { s with engine := { s.engine with arbiter, events } }) ∨
    ∃ a rest row arbiter, s.engine.queue.actions = a :: rest ∧ s.engine.encode a.packet = .ok row ∧
      (s.engine.transmitNext bus now).1 = .ok (some a.packet) ∧
      s.transmit bus now = { s with
        engine := { s.engine with arbiter }.afterSending a row
        rows := s.rows ++ [row]
        sent := s.sent ++ [a] } := by
  have hmem {a : PacketAction} (hfront : s.engine.queue.front? = some a) :
      ∃ rest, s.engine.queue.actions = a :: rest := List.head?_eq_some_iff.mp hfront
  rcases s.transmit_eq bus now with
    hidle | ⟨a, row, arbiter, hfront, hrow, hanswer, hsent⟩ | ⟨a, cause, _, hfront, hlost, _⟩
  · exact .inl hidle
  · obtain ⟨rest, hqueue⟩ := hmem hfront
    exact .inr ⟨a, rest, row, arbiter, hqueue, hrow, hanswer, hsent⟩
  · obtain ⟨rest, hqueue⟩ := hmem hfront
    have ha : a ∈ s.engine.queue.actions := hqueue ▸ List.mem_cons_self
    obtain ⟨row, hrow⟩ := Engine.exists_encode_of_genuine (h.genuine a ha) h.counter
    rw [hrow] at hlost
    contradiction

/-- A try to send moves at most the front, from what is queued to what was sent. -/
theorem sent_queued_transmit (h : Sound s) (bus : β) (now : Nat) :
    (s.transmit bus now).sent ++ (s.transmit bus now).engine.queue.actions = s.sent ++ s.engine.queue.actions := by
  rcases h.transmit_cases bus now with ⟨arbiter, events, -, hidle⟩ | ⟨a, rest, row, arbiter, hqueue, -, -, hsent⟩
  · rw [hidle]
  · have hrest : ({ s.engine with arbiter }.afterSending a row).queue.actions = rest := congrArg List.tail hqueue
    rw [hsent, hrest, hqueue, List.append_assoc, List.singleton_append]

theorem transmit (h : Sound s) (bus : β) (now : Nat) : Sound (s.transmit bus now) := by
  rcases h.transmit_cases bus now with ⟨arbiter, events, -, hidle⟩ | ⟨a, rest, row, arbiter, hqueue, -, -, hsent⟩
  · rw [hidle]
    exact ⟨h.counter, h.size, h.genuine⟩
  · have hrest : ({ s.engine with arbiter }.afterSending a row).queue.actions = rest :=
      congrArg List.tail hqueue
    have hsize : rest.length + 1 ≤ queueDepth := by
      have hsize := h.size
      rwa [Queue.size, hqueue] at hsize
    rw [hsent]
    constructor
    · dsimp only [Engine.afterSending]
      split
      · exact advance_lt _ _
      · exact h.counter
    · rw [Queue.size, hrest]
      exact Nat.le_of_succ_le hsize
    · intro b hb
      rw [hrest] at hb
      exact h.genuine b (hqueue ▸ List.mem_cons_of_mem a hb)

theorem take (h : Sound s) (step : Step β σ) : Sound (s.take step) := by
  cases step with
  | operation o => exact h.operate o
  | transmit bus now => exact h.transmit bus now

theorem run (h : Sound s) (steps : List (Step β σ)) : Sound (s.run steps) :=
  Session.run_induction h fun _ hx step _ => hx.take step

/-- What each step keeps of sound sessions holds after the run. -/
theorem run_induction {P : Session → Prop} {steps : List (Step β σ)} (hsound : Sound s) (h : P s)
    (htake : ∀ x, Sound x → P x → ∀ step ∈ steps, P (x.take step)) : P (s.run steps) := by
  have hboth : Sound (s.run steps) ∧ P (s.run steps) :=
    Session.run_induction (P := fun x => Sound x ∧ P x) ⟨hsound, h⟩
      fun x hx step hmem => ⟨hx.1.take step, htake x hx.1 hx.2 step hmem⟩
  exact hboth.2

end Sound

end DoorBridge
