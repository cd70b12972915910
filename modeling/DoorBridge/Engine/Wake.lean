import DoorBridge.Engine.Service

/-!
# Engine.Wake — what the engine wakes up for

The engine sleeps until there is something to take; `Engine.wake` takes it.  A servicing pass follows each time.
-/

namespace DoorBridge

/-- A byte received at a time in milliseconds. -/
structure TimedByte where
  byte : UInt8
  time : Nat
  deriving DecidableEq, Repr

inductive Wake where
  | bytes (row : List TimedByte)
  | request (r : ControlRequest)
  | beat
  | obstruction (obstructed : Bool)
  /-- Servicing has something to do. -/
  | timer
  deriving DecidableEq, Repr

namespace Engine

/-- The engine after an operation, a refusal of which is logged. -/
def orWarn (r : Result) (what : String) : Engine :=
  match r with
  | (.ok (), e) => e
  | (.error cause, e) => e.emit [.warn s!"{what} failed: {cause.text}"]

def wake (e : Engine) (w : Wake) (now : Nat) : Engine :=
  match w with
  | .bytes row => row.foldl (fun e b => e.onByte b.byte b.time) e
  | .request r => orWarn (e.apply r) s!"Control request {r.text}"
  | .beat => orWarn e.countTick "TTC step"
  | .obstruction obstructed => e.onObstruction obstructed now
  | .timer => e

end Engine

end DoorBridge
