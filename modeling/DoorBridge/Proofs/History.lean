import DoorBridge.Proofs.Engine.Service
import DoorBridge.Proofs.Exchange

/-!
# Proofs.History — boots of the bridge, each ended by a power loss

A boot starts the engine over what the last boot left in the store, lets anything happen to it, and loses power after
some step or in the middle of one.

* `Tap` is a bus that keeps every row of bytes that its driver was given, written or not.
* `Bridge` is the engine with its store and what is remembered of the boot for the sake of the theory: the rows, how
  many codes were used up, and what each flush found.
* `BootStep` is a step between two servicing passes or a pass, `Cut` is where the power is lost.
* `history store boots` are the bridges as they stood at the end of each boot, `storeAfter` is what the last one left.
* `codesStepped` counts the codes that a history has used or skipped.
-/

namespace DoorBridge

/-! ## The wire -/

/-- A bus with a copy of every row that its driver was given. -/
structure Tap (β : Type) where
  bus : β
  rows : List (List UInt8) := []

instance {β : Type} [Bus β] : Bus (Tap β) where
  lineBusy t := ((Bus.lineBusy t.bus).1, { t with bus := (Bus.lineBusy t.bus).2 })
  rxPending t := Bus.rxPending t.bus
  setAsserted held t := { t with bus := Bus.setAsserted held t.bus }
  delay time t := { t with bus := Bus.delay time t.bus }
  write row t := ((Bus.write row t.bus).1, ⟨(Bus.write row t.bus).2, t.rows ++ [row]⟩)

/-! ## A boot -/

/-- What a flush found: the codes used up so far, and whether a restart asked for a save. -/
structure Flushed where
  codesUsed : Nat
  forced : Bool
  deriving DecidableEq, Repr

/-- The engine, its store, and what is remembered of the boot. -/
structure Bridge where
  engine : Engine
  store : MemoryStore
  /-- The counter after the start. -/
  firstCounter : Nat
  /-- The rows that the bus driver was given, in order. -/
  rows : List (List UInt8) := []
  /-- Number of packets sent that use up a code. -/
  codesUsed : Nat := 0
  flushes : List Flushed := []

namespace Bridge

def start (settings : Settings) (store : MemoryStore) (entropy : UInt32) (now : Nat) : Bridge :=
  let (_, engine, store) := (Engine.new settings).start store entropy now
  { engine, store, firstCounter := engine.identity.rolling }

/-- The engine replaced, nothing sent or stored. -/
def withEngine (b : Bridge) (engine : Engine) : Bridge := { b with engine }

/-- The first half of a pass: timeouts, and a packet if there is one to send. -/
def transmit {β : Type} [Bus β] (b : Bridge) (bus : β) (now : Nat) : Bridge :=
  let ready := b.engine.tick now
  let (answer, engine, tap) := ready.transmitNext (Tap.mk bus b.rows) now
  { b with engine, rows := tap.rows, codesUsed := b.codesUsed + (ready.usesUp answer).toNat }

/-- The motion record, which a flush writes first. -/
def recordMotion (b : Bridge) : Bridge :=
  let (_, engine, store) := b.engine.flushMotion b.store
  { b with engine, store }

def flush (b : Bridge) : Bridge :=
  let (_, engine, store) := b.engine.flush b.store
  { b with engine, store, flushes := b.flushes ++ [⟨b.codesUsed, b.engine.pending.save⟩] }

/-- A whole pass. -/
def service {β : Type} [Bus β] (b : Bridge) (bus : β) (now : Nat) : Bridge := (b.transmit bus now).flush

end Bridge

/-- A step of a boot. -/
inductive BootStep (β : Type) where
  | byte (byte : UInt8) (now : Nat)
  | request (r : ControlRequest)
  /-- The same operation called by itself, which logs no request. -/
  | call (r : ControlRequest)
  | beat
  | obstruction (obstructed : Bool) (now : Nat)
  /-- A console press that counts toward recovery. -/
  | press (now : Nat)
  | tick (now : Nat)
  | flush
  | service (bus : β) (now : Nat)

/-- Where a boot loses power. -/
inductive Cut (β : Type) where
  /-- Between two steps. -/
  | idle
  /-- In a pass, before its flush. -/
  | sending (bus : β) (now : Nat)
  /-- In the flush of a pass, with the motion record written and the counter not saved. -/
  | recording (bus : β) (now : Nat)
  /-- The same in a flush by itself. -/
  | flushing

inductive Boot (β : Type) where
  /-- Power is lost during the start, with the id stored and the counter not saved. -/
  | failed (entropy : UInt32)
  | full (settings : Settings) (entropy : UInt32) (now : Nat) (steps : List (BootStep β)) (cut : Cut β)

section Histories

variable {β : Type} [Bus β]

/-- The engine after one of the operations that requests stand for. -/
def Engine.call (e : Engine) : ControlRequest → Engine
  | .openDoor => e.openDoor.2
  | .closeDoor => e.closeDoor.2
  | .light on => (e.setLight on).2
  | .lock locked => (e.setLock locked).2
  | .getStatus => e.requestStatus.2
  | .reset => e.resetDoor

def Bridge.take (b : Bridge) : BootStep β → Bridge
  | .byte byte now => b.withEngine (b.engine.onByte byte now)
  | .request r => b.withEngine (b.engine.apply r).2
  | .call r => b.withEngine (b.engine.call r)
  | .beat => b.withEngine b.engine.countTick.2
  | .obstruction obstructed now => b.withEngine (b.engine.onObstruction obstructed now)
  | .press now => b.withEngine (b.engine.countRecovery now)
  | .tick now => b.withEngine (b.engine.tick now)
  | .flush => b.flush
  | .service bus now => b.service bus now

def Bridge.cutOff (b : Bridge) : Cut β → Bridge
  | .idle => b
  | .sending bus now => b.transmit bus now
  | .recording bus now => (b.transmit bus now).recordMotion
  | .flushing => b.recordMotion

/-- A boot from its start to the loss of power. -/
def Bridge.run (b : Bridge) (steps : List (BootStep β)) (cut : Cut β) : Bridge :=
  (steps.foldl Bridge.take b).cutOff cut

/-- The bridges at the end of each boot; a boot whose start failed leaves none. -/
def history (store : MemoryStore) : List (Boot β) → List Bridge
  | [] => []
  | .failed entropy :: boots => history (Identity.establishId store entropy).2.1 boots
  | .full settings entropy now steps cut :: boots =>
    let b := (Bridge.start settings store entropy now).run steps cut
    b :: history b.store boots

/-- What is stored after the last boot. -/
def storeAfter (store : MemoryStore) : List (Boot β) → MemoryStore
  | [] => store
  | .failed entropy :: boots => storeAfter (Identity.establishId store entropy).2.1 boots
  | .full settings entropy now steps cut :: boots =>
    storeAfter ((Bridge.start settings store entropy now).run steps cut).store boots

/-- A request to forget the identity. -/
def BootStep.isReset : BootStep β → Bool
  | .request .reset | .call .reset => true
  | _ => false

/-- A Security+ 2.0 boot in which nobody asks for a reset. -/
def Boot.Ordinary : Boot β → Prop
  | .failed _ => True
  | .full settings _ _ steps _ => settings.security = .plus2 ∧ ∀ h ∈ steps, h.isReset = false

end Histories

/-- Codes stepped over from a counter to the end of a history: those used up and those skipped at boot. -/
def codesStepped (counter : Nat) : List Bridge → Nat
  | [] => 0
  | b :: rest =>
    codesBetween counter b.firstCounter + b.codesUsed + codesStepped b.engine.identity.rolling rest

theorem Engine.core_call (e : Engine) {r : ControlRequest} (h : r ≠ .reset) : (e.call r).core = e.core := by
  cases r with
  | reset => exact absurd rfl h
  | _ => simp [call]

/-- Whether a step ends in a flush. -/
def BootStep.flushes {β : Type} : BootStep β → Bool
  | flush | service .. => true
  | _ => false

/-- A step that is not a reset flushes, or leaves the core and the store alone. -/
theorem Bridge.take_cases {β : Type} [Bus β] (b : Bridge) {s : BootStep β} (h : s.isReset = false) :
    s = .flush ∨ (∃ bus now, s = .service bus now) ∨
      s.flushes = false ∧ ∃ e : Engine, e.core = b.engine.core ∧ b.take s = b.withEngine e := by
  cases s with
  | flush => exact .inl rfl
  | service bus now => exact .inr (.inl ⟨bus, now, rfl⟩)
  | byte byte now => exact .inr (.inr ⟨rfl, _, Engine.core_onByte _ now byte, rfl⟩)
  | request r =>
    have hr : r ≠ .reset := by
      rintro rfl
      contradiction
    exact .inr (.inr ⟨rfl, _, Engine.core_apply _ hr, rfl⟩)
  | call r =>
    have hr : r ≠ .reset := by
      rintro rfl
      contradiction
    exact .inr (.inr ⟨rfl, _, Engine.core_call _ hr, rfl⟩)
  | beat => exact .inr (.inr ⟨rfl, _, Engine.core_countTick _, rfl⟩)
  | obstruction obstructed now => exact .inr (.inr ⟨rfl, _, Engine.core_onObstruction _ now obstructed, rfl⟩)
  | press now => exact .inr (.inr ⟨rfl, _, Engine.core_countRecovery _ now, rfl⟩)
  | tick now => exact .inr (.inr ⟨rfl, _, Engine.core_tick _ now, rfl⟩)

/-! ## The tap changes nothing -/

section Tap

variable {β : Type} [Bus β]

/-- A tap that knew some rows, as the recorded calls say. -/
def Tap.ofRecorder (rows : List (List UInt8)) (r : Recorder β) : Tap β := ⟨r.bus, rows ++ rowsGiven r.calls⟩

theorem busMap_tap (rows : List (List UInt8)) : BusMap (Tap.ofRecorder rows : Recorder β → Tap β) where
  lineBusy r := by simp [Tap.ofRecorder, rowsGiven, Bus.lineBusy]
  rxPending r := rfl
  setAsserted held r := by simp [Tap.ofRecorder, rowsGiven, Bus.setAsserted]
  delay time r := by simp [Tap.ofRecorder, rowsGiven, Bus.delay]
  write row r := by simp [Tap.ofRecorder, rowsGiven, Bus.write]

theorem send_tap (a : Arbiter) (frame : List UInt8) (t : Tap β) :
    ∃ rows, (rows = t.rows ∧ (a.send frame t.bus).1 ≠ .ok () ∨ rows = t.rows ++ [frame]) ∧
      a.send frame t = ((a.send frame t.bus).1, ⟨(a.send frame t.bus).2, rows⟩) := by
  obtain ⟨calls, hexchange, hsend⟩ := exchange_map (busMap_tap t.rows) a frame t.bus
  have htap : Tap.ofRecorder t.rows ⟨t.bus, []⟩ = t := congrArg (Tap.mk t.bus) (List.append_nil _)
  rw [htap] at hsend
  refine ⟨t.rows ++ rowsGiven calls, ?_, hsend⟩
  obtain ⟨⟨hnone, hfailed⟩ | hgiven, -⟩ := hexchange.rows
  · exact .inl ⟨by rw [hnone, List.append_nil], hfailed⟩
  · exact .inr (by rw [hgiven])

/-- A transmission is the same on a tapped bus.  A row that it writes encodes a packet, and it writes one whenever a
packet goes out. -/
theorem transmitNext_tap (e : Engine) (t : Tap β) (now : Nat) :
    ∃ rows, (rows = t.rows ∧ e.usesUp (e.transmitNext t.bus now).1 = false ∨
        ∃ packet row, e.encode packet = .ok row ∧ rows = t.rows ++ [row]) ∧
      e.transmitNext t now =
        ((e.transmitNext t.bus now).1, (e.transmitNext t.bus now).2.1, ⟨(e.transmitNext t.bus now).2.2, rows⟩) := by
  rw [Engine.transmitNext, Engine.transmitNext]
  split
  · exact ⟨_, .inl ⟨rfl, rfl⟩, rfl⟩
  next action hfront =>
  split
  · exact ⟨_, .inl ⟨rfl, rfl⟩, rfl⟩
  split
  · exact ⟨_, .inl ⟨rfl, rfl⟩, rfl⟩
  next frame hframe =>
  obtain ⟨rows, hrows, hsend⟩ := send_tap e.arbiter frame t
  rw [Arbiter.transmit, Arbiter.transmit, hsend]
  generalize e.arbiter.send frame t.bus = sent at hrows ⊢
  obtain ⟨answer, bus⟩ := sent
  cases answer with
  | ok done =>
    obtain ⟨-, hfailed⟩ | hrows := hrows
    · exact absurd rfl hfailed
    · exact ⟨rows, .inr ⟨_, _, hframe, hrows⟩, rfl⟩
  | error cause => exact ⟨rows, hrows.imp (fun h => ⟨h.1, rfl⟩) fun h => ⟨_, _, hframe, h⟩, rfl⟩

/-- A pass of a boot is the pass of its engine. -/
theorem Bridge.service_eq (b : Bridge) (bus : β) (now : Nat) :
    (b.service bus now).engine = (b.engine.service bus b.store now).1 ∧
      (b.service bus now).store = (b.engine.service bus b.store now).2.2 := by
  obtain ⟨rows, -, htap⟩ := transmitNext_tap (b.engine.tick now) (Tap.mk bus b.rows) now
  rw [service, transmit, htap, flush, Engine.service]
  exact ⟨rfl, rfl⟩

namespace Bridge

variable {b : Bridge}

/-- A transmission uses up a code and steps the counter, or does neither. -/
theorem transmit_core (hplus2 : b.engine.settings.security = .plus2) (bus : β) (now : Nat) :
    (b.transmit bus now).codesUsed = b.codesUsed ∧ (b.transmit bus now).engine.core = b.engine.core ∨
      (b.transmit bus now).codesUsed = b.codesUsed + 1 ∧
        (b.transmit bus now).engine.core = { b.engine.core with identity := b.engine.identity.step } := by
  have hready := Engine.core_tick b.engine now
  obtain ⟨hidentity, hsecurity, -⟩ := Engine.core_eq_iff.mp hready
  rw [transmit]
  dsimp only
  generalize b.engine.tick now = ready at *
  generalize hsent : ready.transmitNext (Tap.mk bus b.rows) now = sent
  obtain ⟨answer, e, tap⟩ := sent
  have hcore := Engine.core_transmitNext (hsecurity.trans hplus2) hsent
  dsimp only
  cases huses : ready.usesUp answer with
  | false =>
    rw [huses, if_neg Bool.false_ne_true] at hcore
    exact .inl ⟨rfl, hcore.trans hready⟩
  | true =>
    rw [huses, if_pos rfl, hready, show ready.identity = b.engine.identity from hidentity] at hcore
    exact .inr ⟨rfl, hcore⟩

/-- What a transmission adds to the rows carries the code at hand, and it adds something whenever it uses up a code. -/
theorem transmit_rows (hplus2 : b.engine.settings.security = .plus2) (bus : β) (now : Nat) :
    ∃ new, (b.transmit bus now).rows = b.rows ++ new ∧
      (∀ row ∈ new, codeOf? row = some b.engine.identity.rolling) ∧
      ((b.transmit bus now).codesUsed = b.codesUsed ∨ new ≠ []) := by
  obtain ⟨hidentity, hsecurity, -⟩ := Engine.core_eq_iff.mp (Engine.core_tick b.engine now)
  obtain ⟨rows, hrows, htap⟩ := transmitNext_tap (b.engine.tick now) (Tap.mk bus b.rows) now
  rw [transmit]
  dsimp only at hrows htap ⊢
  rw [htap]
  generalize b.engine.tick now = ready at *
  obtain ⟨hsame, hunused⟩ | ⟨packet, row, hencode, hadd⟩ := hrows
  · refine ⟨[], ?_, fun row hrow => absurd hrow List.not_mem_nil, .inl ?_⟩
    · rw [List.append_nil]
      exact hsame
    · rw [hunused]
      rfl
  · refine ⟨[row], hadd, fun row' hrow => ?_, .inr (List.cons_ne_nil row [])⟩
    rw [List.mem_singleton.mp hrow, Engine.codeOf?_encode (hsecurity.trans hplus2) hencode]
    exact congrArg (fun i => some i.rolling) hidentity

end Bridge

end Tap

end DoorBridge
