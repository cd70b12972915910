import DoorBridge.Arbiter

/-!
# Arbiter.Script — a bus whose answers are laid down beforehand

The bus answers from a script and keeps a row of the calls made to it.
-/

namespace DoorBridge

/-- A call that acts on the wire. -/
inductive BusCall where
  | assert (held : Bool)
  | delay (time : Nat)
  | write (bytes : List UInt8)
  deriving DecidableEq, Repr

structure BusScript where
  /-- The next samples of the line; the line is idle once they are used up. -/
  busy : List Bool := []
  rxPending : Bool := false
  /-- The failure of the next write, if it is to fail. -/
  writeError? : Option WriteError := none
  /-- The calls so far, in order.  A failed write leaves no call. -/
  calls : List BusCall := []
  deriving DecidableEq, Repr

namespace BusScript

def call (s : BusScript) (c : BusCall) : BusScript := { s with calls := s.calls ++ [c] }

instance : Bus BusScript where
  lineBusy s := (s.busy.headD false, { s with busy := s.busy.tail })
  rxPending s := s.rxPending
  setAsserted held s := s.call (.assert held)
  delay time s := s.call (.delay time)
  write bytes s :=
    match s.writeError? with
    | some cause => (.error cause, { s with writeError? := none })
    | none => (.ok (), s.call (.write bytes))

end BusScript

end DoorBridge
