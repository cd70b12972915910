import DoorBridge.Record

/-!
# Record.Reader — records out of a byte stream

A key byte waits for its value; the value is whatever byte comes next, unless more than `recordTimeout`
milliseconds pass first.  Every other byte is a record of its own or noise.
-/

namespace DoorBridge

/-- Longest pause inside a status record, in milliseconds. -/
def recordTimeout : Nat := 100

structure RecordReader where
  /-- The key of a half-received status record. -/
  key? : Option RecordKey := none
  /-- Arrival time of the last byte, in milliseconds. -/
  lastByte : Nat := 0
  deriving DecidableEq, Repr

namespace RecordReader

/-- Last instant at which the value of the pending key may still come. -/
def deadline? (r : RecordReader) : Option Nat := r.key?.map fun _ => r.lastByte + recordTimeout

def isOverdue (r : RecordReader) (now : Nat) : Bool :=
  match r.deadline? with
  | some deadline => decide (deadline < now)
  | none => false

def expire (r : RecordReader) (now : Nat) : RecordReader :=
  if r.isOverdue now then { r with key? := none } else r

/-- Reads the byte that opens a record. -/
def start (byte : UInt8) (now : Nat) : Except RecordError (Option Record) × RecordReader :=
  match Button.ofByte? byte, RecordKey.ofByte? byte with
  | some b, _ => (.ok (some (.button b)), ⟨none, now⟩)
  | none, some key => (.ok none, ⟨some key, now⟩)
  | none, none =>
    (if byte = 0x36 ∨ byte = 0x37 then .ok (some (.other byte)) else .error .noise, ⟨none, now⟩)

/-- Takes one byte; the answer is a record if the byte completed one.  An overdue key is dropped without a word,
and the byte starts a record of its own. -/
def feed (r : RecordReader) (byte : UInt8) (now : Nat) : Except RecordError (Option Record) × RecordReader :=
  match (r.expire now).key? with
  | some key => ((RecordStatus.decode key byte).map fun s => some (.status s), ⟨none, now⟩)
  | none => start byte now

end RecordReader

end DoorBridge
