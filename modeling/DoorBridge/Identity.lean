import DoorBridge.Storage
import DoorBridge.Frame.Counter
import DoorBridge.Notification

/-!
# Identity — the station id and the rolling counter

The counter is saved lazily, after every tenth step, and moved on by the same amount on every boot, so that it
restarts ahead of the last value the opener accepted.  Zero marks a counter that never moved; stepping skips it.
-/

namespace DoorBridge

/-- Steps between saves, and the step taken at boot. -/
def saveInterval : Nat := 10

/-- The counter moved on by some steps, zero skipped. -/
def advance (counter steps : Nat) : Nat :=
  match (counter + steps) % counterBound with
  | 0 => 1
  | next => next

/-- The station id, the rolling counter and the counter at the last attempt to save it. -/
structure Identity where
  idCode : UInt32 := 0
  rolling : Nat := 0
  lastSaved : Nat := 0
  deriving DecidableEq, Repr

namespace Identity

/-- An id made from entropy: twelve random bits, never all zero, above a fixed suffix. -/
def deriveId (entropy : UInt32) : UInt32 := .ofNat ((entropy.toNat % 0xfff + 1) * 0x1000 + 0x539)

/-- The counter after a transmission that uses it up. -/
def step (i : Identity) : Identity := { i with rolling := advance i.rolling 1 }

/-- Whether enough codes were used since the last save. -/
def needsSave (i : Identity) : Bool :=
  decide (saveInterval ≤ (i.rolling + counterBound - i.lastSaved % counterBound) % counterBound)

section Storing

variable {σ : Type} [Storage σ]

/-- What an operation on the identity leaves behind. -/
structure Outcome (σ : Type) where
  identity : Identity
  store : σ
  failure? : Option StorageError
  events : List Event

/-- Saves the counter.  The save point moves even if the write fails, so that a broken store is not written on
every transmission; the step taken at boot covers the gap. -/
def save (i : Identity) (store : σ) : Outcome σ :=
  let saved := { i with lastSaved := i.rolling }
  match writeWord store .rollingCode (.ofNat i.rolling) with
  | .ok store => ⟨saved, store, none, [.debug s!"Saved rolling code {i.rolling}"]⟩
  | .error e =>
    ⟨saved, store, some e, [.error s!"Failed to save rolling code {i.rolling}: {e.name}"]⟩

/-- The id found in the store; a zero id counts as none. -/
def loadId (store : σ) : Option UInt32 × Option StorageError × List Event :=
  match readWord store .idCode with
  | .ok found => (found.filter (· ≠ 0), none, [])
  | .error e => (none, some e, [.error s!"Failed to read id code: {e.name}"])

/-- The id to use: the one in the store, else a new one, which is stored at once. -/
def establishId (store : σ) (entropy : UInt32) : UInt32 × σ × Option StorageError × List Event :=
  match loadId store with
  | (some id, failure, events) => (id, store, failure, events)
  | (none, failure, events) =>
    let id := deriveId entropy
    let events := events ++ [.warn s!"Id code not found, generated {hexText id.toNat}"]
    match writeWord store .idCode id with
    | .ok store => (id, store, failure, events)
    | .error e => (id, store, failure.or (some e), events ++ [.error s!"Failed to store id code: {e.name}"])

/-- The counter to boot with, given the stored one. -/
def bootCounter (stored : Option UInt32) : Nat :=
  match (stored.getD 0).toNat % counterBound with
  | 0 => 0
  | counter => advance counter saveInterval

/-- A stored counter as log lines spell it. -/
def storedText : Option UInt32 → String
  | some w => s!"Some({w.toNat})"
  | none => "None"

def loadCounter (store : σ) : Option UInt32 × Option StorageError × List Event :=
  match readWord store .rollingCode with
  | .ok stored => (stored, none, [])
  | .error e => (none, some e, [.error s!"Failed to read rolling code: {e.name}"])

/-- Loads id and counter at boot and saves the counter moved on.  Every step is attempted, whatever failed before;
the first failure is reported. -/
def restore (store : σ) (entropy : UInt32) : Outcome σ :=
  let (id, store, idFailure, idEvents) := establishId store entropy
  let (stored, counterFailure, counterEvents) := loadCounter store
  let rolling := bootCounter stored
  let saved := save ⟨id, rolling, 0⟩ store
  { saved with
    failure? := (idFailure.or counterFailure).or saved.failure?
    events := idEvents ++ counterEvents ++
      [Event.info s!"Rolling code {rolling} (stored {storedText stored})"] ++ saved.events }

end Storing

end Identity

end DoorBridge
