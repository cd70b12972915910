import DoorBridge.Proofs.Engine.Inbound

/-!
# Proofs.Engine.Operations — what an operation does to the engine, the bus left aside

* `work_after`: the queue and the countdown after any operation, in terms of what it asks for (`Engine.asks`), what it
  leaves of the queue before that (`Engine.left`), and `Engine.countdownAfter`.
* `stamp_after`: no operation but a start changes what frames are stamped with, and none changes the protocol.
-/

namespace DoorBridge

/-- What the engine can be asked to do, the bus left aside.  The store is the one it meets at that moment. -/
inductive Operation (σ : Type) where
  | start (store : σ) (entropy : UInt32) (now : Nat)
  | byte (byte : UInt8) (now : Nat)
  | request (r : ControlRequest)
  /-- The same operation called by itself, which logs no request. -/
  | call (r : ControlRequest)
  | beat
  | obstruction (obstructed : Bool) (now : Nat)
  /-- A console press that counts toward recovery. -/
  | press (now : Nat)
  | tick (now : Nat)
  | flush (store : σ)

namespace Operation

variable {σ : Type}

/-- The request that an operation carries out. -/
def request? : Operation σ → Option ControlRequest
  | request r | call r => some r
  | _ => none

def isStart : Operation σ → Bool
  | start .. => true
  | _ => false

end Operation

namespace Engine

variable {σ : Type} (e : Engine)

/-- The sequences that an operation hands to the queue. -/
def asks : Operation σ → List (List PacketAction)
  | .start .. => if e.isPlus2 then [greeting] else []
  | .byte byte now => ((e.inbound? byte now).map e.inboundAsks).getD []
  | .request r | .call r => e.requestAsks r
  | .beat => e.beatAsks
  | _ => []

/-- What an operation leaves of the queue before it asks for anything. -/
def left : Operation σ → Queue
  | .request r | .call r => e.requestLeft r
  | _ => e.queue

def countdownAfter : Operation σ → Countdown
  | .byte byte now => ((e.inbound? byte now).map (e.inboundCountdown · now)).getD e.countdown
  | .request r | .call r => (e.prepared r).countdown
  | .beat => e.countdown.tick.2
  | .press now => e.pressCountdown now
  | _ => e.countdown

/-- What frames are stamped with, and the protocol, which says whether they are. -/
def stamp : Security × UInt32 × Nat := (e.settings.security, e.identity.idCode, e.identity.rolling)

variable {e}

theorem stamp_of_core {x : Engine} (h : x.core = e.core) : x.stamp = e.stamp := by
  obtain ⟨hidentity, hsecurity, -⟩ := core_eq_iff.mp h
  rw [stamp, hidentity, hsecurity]
  rfl

variable [Storage σ]

def after (e : Engine) : Operation σ → Engine
  | .start store entropy now => (e.start store entropy now).2.1
  | .byte byte now => e.onByte byte now
  | .request r => (e.apply r).2
  | .call r => e.call r
  | .beat => e.countTick.2
  | .obstruction obstructed now => e.onObstruction obstructed now
  | .press now => e.countRecovery now
  | .tick now => e.tick now
  | .flush store => (e.flush store).2.1

theorem apply_eq_call (e : Engine) (r : ControlRequest) :
    (e.apply r).2 = (e.emit [.debug s!"Control request {r.text}"]).call r := by
  cases r <;> rfl

/-! ## Start and flush -/

theorem loadIdentity_eq (e : Engine) (store : σ) (entropy : UInt32) :
    ∃ events, (e.loadIdentity store entropy).2.1 =
      { e with
        identity := if e.isPlus2 then (Identity.restore store entropy).identity else e.identity
        events } := by
  rw [loadIdentity]
  split
  · exact ⟨_, rfl⟩
  · exact ⟨e.events, rfl⟩

theorem loadMotion_eq (e : Engine) (found : Except StorageError (List UInt8)) :
    ∃ hasMotionSensor motionTriggers events, (e.loadMotion found).2 =
      { e with
        door := { e.door with hasMotionSensor }
        settings := { e.settings with motionTriggers }
        events } := by
  rw [loadMotion.eq_def]
  split
  · split
    · exact ⟨e.door.hasMotionSensor, e.settings.motionTriggers, e.events, rfl⟩
    · exact ⟨_, _, _, rfl⟩
  · exact ⟨e.door.hasMotionSensor, e.settings.motionTriggers, e.events, rfl⟩
  · exact ⟨e.door.hasMotionSensor, e.settings.motionTriggers, e.events, rfl⟩
  · exact ⟨e.door.hasMotionSensor, e.settings.motionTriggers, _, rfl⟩

/-- A start loads the identity and the motion flag and hands over the greeting. -/
theorem start_eq (e : Engine) (store : σ) (entropy : UInt32) (now : Nat) :
    ∃ hasMotionSensor motionTriggers arbiter events, (e.start store entropy now).2.1 =
      { e with
        identity := if e.isPlus2 then (Identity.restore store entropy).identity else e.identity
        door := { e.door with hasMotionSensor }
        settings := { e.settings with motionTriggers }
        queue := e.queue.append (e.queue.takes (if e.isPlus2 then [greeting] else []))
        arbiter
        events } := by
  have hqueued (x : Engine) : Hands x x.queue (if x.isPlus2 then [greeting] else [])
      (if x.isPlus2 then x.enqueue greeting else (.ok (), x)) := by
    split
    · exact hands_enqueue x greeting
    · exact hands_nothing x
  rw [start]
  dsimp only
  generalize hopened : e.emit _ = opened
  obtain ⟨events, hloaded⟩ := loadIdentity_eq opened store entropy
  generalize opened.loadIdentity store entropy = loaded at hloaded ⊢
  obtain ⟨failure, e₁, store'⟩ := loaded
  dsimp only at hloaded ⊢
  obtain ⟨hasMotionSensor, motionTriggers, events, hknown⟩ := loadMotion_eq e₁ (Storage.read store' .hasMotion 1)
  generalize e₁.loadMotion (Storage.read store' .hasMotion 1) = known at hknown ⊢
  obtain ⟨motionFailure, e₂⟩ := known
  dsimp only at hknown ⊢
  obtain ⟨events, hfinal⟩ := (hqueued e₂).engine
  generalize (if e₂.isPlus2 then e₂.enqueue greeting else (.ok (), e₂)) = queued at hfinal ⊢
  obtain ⟨answer, e₃⟩ := queued
  dsimp only at hfinal
  subst hfinal hknown hloaded hopened
  cases answer with
  | ok done => exact ⟨hasMotionSensor, motionTriggers, _, events, rfl⟩
  | error cause => exact ⟨hasMotionSensor, motionTriggers, e.arbiter, events, rfl⟩

/-- A flush keeps the id and the counter, and does nothing to the queue and the countdown. -/
theorem flush_eq (e : Engine) (store : σ) :
    ∃ lastSaved pending events, (e.flush store).2.1 =
      { e with identity := { e.identity with lastSaved }, pending, events } := by
  have hrestart (x : Engine) : ∃ pending events, x.flushRestart = { x with pending, events } := by
    rw [flushRestart]
    cases x.pending.restart? with
    | none => exact ⟨x.pending, x.events, rfl⟩
    | some reason => exact ⟨_, _, rfl⟩
  have hcounter (x : Engine) (s : σ) : ∃ lastSaved pending events, (x.flushCounter s).2.1 =
      { x with identity := { x.identity with lastSaved }, pending, events } := by
    rw [flushCounter]
    dsimp only
    split
    · rw [Identity.save]
      split <;> exact ⟨_, _, _, rfl⟩
    · exact ⟨x.identity.lastSaved, _, x.events, rfl⟩
  have hmotion (x : Engine) (s : σ) : ∃ pending events, (x.flushMotion s).2.1 = { x with pending, events } := by
    rw [flushMotion]
    split
    · dsimp only
      split
      · exact ⟨_, x.events, rfl⟩
      · exact ⟨_, _, rfl⟩
    · exact ⟨x.pending, x.events, rfl⟩
  rw [flush]
  split
  · exact ⟨e.identity.lastSaved, _, _, rfl⟩
  · obtain ⟨pending, events, h⟩ := hmotion e store
    generalize e.flushMotion store = recorded at h ⊢
    obtain ⟨failure, x, s⟩ := recorded
    dsimp only at h ⊢
    subst h
    obtain ⟨lastSaved, pending, events, h⟩ := hcounter { e with pending, events } s
    generalize flushCounter _ s = saved at h ⊢
    obtain ⟨failure', y, s'⟩ := saved
    dsimp only at h ⊢
    subst h
    obtain ⟨pending, events, h⟩ := hrestart
      { e with identity := { e.identity with lastSaved }, pending, events }
    exact ⟨lastSaved, pending, events, h⟩

/-! ## All operations -/

/-- **Queue and countdown after an operation.** -/
theorem work_after (e : Engine) (o : Operation σ) :
    (e.after o).work = ((e.left o).append ((e.left o).takes (e.asks o)), e.countdownAfter o) := by
  have hquiet (h : e.asks o = []) : (e.left o).append ((e.left o).takes (e.asks o)) = e.left o := by
    rw [h]
    exact Queue.append_nil _
  cases o with
  | start store entropy now =>
    obtain ⟨hasMotionSensor, motionTriggers, arbiter, events, h⟩ := start_eq e store entropy now
    rw [after, h]
    rfl
  | byte byte now =>
    obtain ⟨arbiter, events, h⟩ := onByte_eq e byte now
    obtain ⟨frames, records, hfed⟩ := fed_eq e byte now
    rw [hfed] at h
    rw [after, h]
    cases hin : e.inbound? byte now with
    | none =>
      have hasks : e.asks (.byte byte now : Operation σ) = [] := by rw [asks, hin]; rfl
      rw [hquiet hasks, countdownAfter, hin]
      rfl
    | some x =>
      rw [asks, countdownAfter, hin]
      exact work_deliver _ now x
  | request r =>
    obtain ⟨events, h⟩ := call_eq (e.emit [.debug s!"Control request {r.text}"]) r
    rw [after, apply_eq_call, h]
    cases r <;> rfl
  | call r =>
    obtain ⟨events, h⟩ := call_eq e r
    rw [after, h]
    rfl
  | beat =>
    obtain ⟨events, h⟩ := (hands_countTick e).engine
    rw [after, h]
    rfl
  | obstruction obstructed now =>
    rw [hquiet rfl]
    exact work_onObstruction e now obstructed
  | press now =>
    rw [hquiet rfl]
    exact work_countRecovery e now
  | tick now =>
    rw [hquiet rfl]
    exact work_tick e now
  | flush store =>
    obtain ⟨lastSaved, pending, events, h⟩ := flush_eq e store
    rw [hquiet rfl, after, h]
    rfl

theorem queue_after (e : Engine) (o : Operation σ) :
    (e.after o).queue = (e.left o).append ((e.left o).takes (e.asks o)) := congrArg Prod.fst (work_after e o)

theorem countdown_after (e : Engine) (o : Operation σ) : (e.after o).countdown = e.countdownAfter o :=
  congrArg Prod.snd (work_after e o)

/-- Only a start changes what frames are stamped with. -/
theorem stamp_after (e : Engine) {o : Operation σ} (h : o.isStart = false) : (e.after o).stamp = e.stamp := by
  cases o with
  | start store entropy now => contradiction
  | byte byte now => exact stamp_of_core (core_onByte e now byte)
  | request r =>
    obtain ⟨events, h⟩ := call_eq (e.emit [.debug s!"Control request {r.text}"]) r
    rw [after, apply_eq_call, h]
    cases r <;> rfl
  | call r =>
    obtain ⟨events, h⟩ := call_eq e r
    rw [after, h]
    cases r <;> rfl
  | beat => exact stamp_of_core (core_countTick e)
  | obstruction obstructed now => exact stamp_of_core (core_onObstruction e now obstructed)
  | press now => exact stamp_of_core (core_countRecovery e now)
  | tick now => exact stamp_of_core (core_tick e now)
  | flush store =>
    obtain ⟨lastSaved, pending, events, h⟩ := flush_eq e store
    rw [after, h]
    rfl

/-- No operation changes the protocol. -/
theorem security_after (e : Engine) (o : Operation σ) : (e.after o).settings.security = e.settings.security := by
  cases hstart : o.isStart with
  | false => exact congrArg Prod.fst (stamp_after e hstart)
  | true =>
    cases o with
    | start store entropy now =>
      obtain ⟨hasMotionSensor, motionTriggers, arbiter, events, h⟩ := start_eq e store entropy now
      rw [after, h]
    | _ => contradiction

end Engine

end DoorBridge
