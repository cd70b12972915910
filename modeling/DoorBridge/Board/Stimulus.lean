import DoorBridge.Engine.Control
import DoorBridge.Line
import DoorBridge.Storage.Chip

/-!
# Board.Stimulus — what the world does to the board

A stimulus happens at an instant in microseconds.  Bytes on the bus, a pulsing beam and noise are rows of single
level settings.
-/

namespace DoorBridge

inductive BoardInput where
  /-- The receiving pin of the door bus. -/
  | bus
  | beam
  deriving DecidableEq, Repr

inductive Happening where
  /-- An input is driven to a level. -/
  | level (input : BoardInput) (high : Bool)
  | request (r : ControlRequest)
  /-- The flash chip changes what it refuses. -/
  | refuses (r : Refusals)
  deriving DecidableEq, Repr

structure Stimulus where
  time : Nat
  what : Happening
  deriving DecidableEq, Repr

namespace Stimulus

/-- An input that goes through the levels of consecutive bits of one length, from a level before them.  It is driven
only where a bit differs from the one before, so that between two changes it can be driven by others. -/
def ofLevels (input : BoardInput) (bitTime start : Nat) (before : Bool) : List Bool → List Stimulus
  | [] => []
  | level :: rest =>
    let later := ofLevels input bitTime (start + bitTime) level rest
    if level = before then later else ⟨start, .level input level⟩ :: later

/-- Bytes sent back to back on the inverted door bus, which is low before them. -/
def ofBytes (start bitTime : Nat) (bytes : List UInt8) : List Stimulus :=
  ofLevels .bus bitTime start false (bytes.flatMap (frameLevels · true))

/-- The beam falling `count` times, low for the first half of each period. -/
def ofPulses (start count period : Nat) : List Stimulus :=
  (List.range count).flatMap fun i =>
    [⟨start + i * period, .level .beam false⟩, ⟨start + i * period + period / 2, .level .beam true⟩]

/-- Alternating levels at one instant, the first high. -/
def ofNoise (input : BoardInput) (time count : Nat) : List Stimulus :=
  (List.range count).map fun i => ⟨time, .level input (i % 2 = 0)⟩

/-- Stimuli in the order of their times; those at one instant keep their order. -/
def sorted (row : List Stimulus) : List Stimulus := row.mergeSort fun a b => decide (a.time ≤ b.time)

end Stimulus

end DoorBridge
