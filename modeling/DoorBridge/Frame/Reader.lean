import DoorBridge.Frame

/-!
# Frame.Reader — frames out of a byte stream

The reader looks for the preamble, then collects the rest of a frame.  The frame-type bits at the head of each
half are checked as soon as their byte arrives, so that a preamble inside noise is dropped early.  A pause of more
than `frameTimeout` milliseconds between two bytes ends a partial frame.
-/

namespace DoorBridge

/-- Longest pause inside a frame, in milliseconds. -/
def frameTimeout : Nat := 100

/-- What a reader holds: the two bytes before the next one, or the bytes of a frame so far. -/
inductive FrameReader.Phase where
  | scanning (older newer : UInt8)
  | receiving (taken : List UInt8)
  deriving DecidableEq, Repr

structure FrameReader where
  phase : FrameReader.Phase := .scanning 0 0
  /-- Arrival time of the last byte, in milliseconds. -/
  lastByte : Nat := 0
  deriving DecidableEq, Repr

namespace FrameReader

/-- The reader at rest, any partial frame dropped. -/
def reset (r : FrameReader) : FrameReader := { r with phase := .scanning 0 0 }

def isReceiving (r : FrameReader) : Bool :=
  match r.phase with
  | .receiving _ => true
  | .scanning .. => false

/-- Last instant at which the partial frame may still go on. -/
def deadline? (r : FrameReader) : Option Nat :=
  if r.isReceiving then some (r.lastByte + frameTimeout) else none

def isOverdue (r : FrameReader) (now : Nat) : Bool :=
  match r.deadline? with
  | some deadline => decide (deadline < now)
  | none => false

def expire (r : FrameReader) (now : Nat) : FrameReader := if r.isOverdue now then r.reset else r

/-- The phase after one more byte outside a frame. -/
def scan (older newer byte : UInt8) : Phase :=
  if [older, newer, byte] = preamble then .receiving preamble else .scanning newer byte

/-- Whether the byte at an offset has the frame-type bits expected there. -/
def headerFits (offset : Nat) (byte : UInt8) : Bool :=
  match offset with
  | 3 => byte.toNat / 64 = 0
  | 11 => byte.toNat / 64 = 1
  | _ => true

/-- Takes one byte.  The answer is a frame if the byte completed one; an error says why a partial frame was given
up, and the byte then already counts for the next frame. -/
def feed (r : FrameReader) (byte : UInt8) (now : Nat) : Except FrameError (Option Frame) × FrameReader :=
  let overdue := r.isOverdue now
  match (r.expire now).phase with
  | .scanning older newer =>
    (if overdue then .error .timeout else .ok none, ⟨scan older newer byte, now⟩)
  | .receiving taken =>
    if headerFits taken.length byte then
      match Frame.ofBytes? (taken ++ [byte]) with
      | some frame => (.ok (some frame), ⟨.scanning 0 0, now⟩)
      | none => (.ok none, ⟨.receiving (taken ++ [byte]), now⟩)
    else (.error .badHeader, ⟨scan 0 0 byte, now⟩)

end FrameReader

end DoorBridge
