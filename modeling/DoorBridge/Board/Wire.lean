import DoorBridge.Board
import DoorBridge.Line.Transmitter

/-!
# Board.Wire — the board as a station on the door bus

The board drives the bus through its transmitting pin and hears it through its receiving pin.  While it drives the
bus it ignores the edges it hears.
-/

namespace DoorBridge

namespace Board

instance : LinePin Board where
  now b := b.now
  setLevel level b := { b with busOut := b.busOut.set level b.now }
  waitUntil := waitUntil

/-- Whether another station drives the line: its last level is not idle, or part of a byte has come. -/
def lineBusy (b : Board) : Bool := b.lineLevel != b.line.idleLevel || b.receiving

instance : Bus Board where
  lineBusy b := (b.lineBusy, b)
  rxPending b := !b.bytes.isEmpty || !b.edges.isEmpty || b.receiving
  setAsserted held b := Transmitter.setBreak b.line held { b with transmitting := held }
  delay time b := b.waitUntil (b.now + time)
  write bytes b :=
    let (done, b) := Transmitter.write b.line bytes { b with transmitting := true }
    (if done then .ok () else .error .timeout, { b with transmitting := false, traffic := true })

end Board

end DoorBridge
