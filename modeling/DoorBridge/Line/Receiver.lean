import DoorBridge.Line.Edges

/-!
# Line.Receiver — the task that turns edges into bytes

The receiver takes edges off their queue as they come.  While a byte is partly decoded it waits only for the byte
timeout; a silence that long ends the byte.
-/

namespace DoorBridge

structure Receiver where
  decoder : EdgeDecoder
  /-- Longest wait for the next edge of a byte, in microseconds. -/
  patience : Nat
  /-- When the wait for the next edge began. -/
  since : Nat
  deriving DecidableEq, Repr

namespace Receiver

/-- A receiver that starts to wait on an idle line. -/
def new (line : LineSettings) (now : Nat) : Receiver :=
  ⟨.new line.bitTime line.invert, line.byteTimeout * 1000, now⟩

/-- When the wait for an edge ends by itself. -/
def deadline? (r : Receiver) : Option Nat :=
  if r.decoder.isBusy then some (r.since + r.patience) else none

/-- Whether the wait for an edge has ended by itself. -/
def isOverdue (r : Receiver) (now : Nat) : Bool := r.deadline?.any fun d => decide (d ≤ now)

/-- The receiver after the decoder answered. -/
def proceed (r : Receiver) (now : Nat) (a : Option UInt8 × EdgeDecoder) : Option UInt8 × Receiver :=
  (a.1, { r with decoder := a.2, since := now })

/-- The next step on the queued edges, with the byte it completes and the edges left; there is none while the
receiver waits.  A queued edge is taken even if the wait for it took too long. -/
def step? (r : Receiver) (now : Nat) : List Edge → Option ((Option UInt8 × Receiver) × List Edge)
  | e :: edges => some (r.proceed now (r.decoder.process e), edges)
  | [] => if r.isOverdue now then some (r.proceed now (r.decoder.timeout now), []) else none

end Receiver

end DoorBridge
