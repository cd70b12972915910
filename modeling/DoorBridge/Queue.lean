import DoorBridge.Packet

/-!
# Queue — packets waiting for the bus

A bounded first-in, first-out queue.  Sequences such as a press and its release enter whole or not at all, and a
packet leaves the front only once it was sent, so that a sequence is never split.
-/

namespace DoorBridge

/-- A packet with what its transmission asks for. -/
structure PacketAction where
  packet : Packet
  /-- Whether sending it uses up a rolling code. -/
  usesCode : Bool
  /-- Quiet time after it, in milliseconds. -/
  postDelay : Nat
  deriving DecidableEq, Repr

def queueDepth : Nat := 8

structure Queue where
  /-- The waiting packets, the next one first. -/
  actions : List PacketAction := []
  deriving DecidableEq, Repr

namespace Queue

def size (q : Queue) : Nat := q.actions.length

def isEmpty (q : Queue) : Bool := q.actions.isEmpty

def front? (q : Queue) : Option PacketAction := q.actions.head?

def dropFront (q : Queue) : Queue := ⟨q.actions.tail⟩

def fits (q : Queue) (actions : List PacketAction) : Bool := decide (q.size + actions.length ≤ queueDepth)

/-- Appends a whole sequence, if it fits. -/
def push? (q : Queue) (actions : List PacketAction) : Option Queue :=
  if q.fits actions then some ⟨q.actions ++ actions⟩ else none

/-- Goes through the queue from front to back with a predicate that has a state of its own, and drops the actions
for which it says so.  The answer is the number of actions dropped. -/
def discard {σ : Type} (drop : σ → PacketAction → Bool × σ) (state : σ) (q : Queue) : Nat × Queue :=
  go state q.actions
where
  go (state : σ) : List PacketAction → Nat × Queue
    | [] => (0, ⟨[]⟩)
    | a :: rest =>
      let (dropped, state) := drop state a
      let (count, kept) := go state rest
      if dropped then (count + 1, kept) else (count, ⟨a :: kept.actions⟩)

/-! ## Discarding in place -/

/-- A discard on its way through the room that the queue has. -/
structure Sweep (σ : Type) where
  /-- The state of the predicate. -/
  state : σ
  /-- How many actions were dropped so far. -/
  count : Nat
  queue : Queue
  deriving DecidableEq

/-- Takes the front action off, and puts it back at the end if the predicate keeps it.  The end is as bounded as
ever: without room there the action would be lost. -/
def Sweep.turn {σ : Type} (drop : σ → PacketAction → Bool × σ) (s : Sweep σ) : Sweep σ :=
  match s.queue.front? with
  | none => s
  | some a =>
    let (dropped, state) := drop s.state a
    let rest := s.queue.dropFront
    if dropped then ⟨state, s.count + 1, rest⟩ else ⟨state, s.count, (rest.push? [a]).getD rest⟩

def Sweep.turns {σ : Type} (drop : σ → PacketAction → Bool × σ) : Nat → Sweep σ → Sweep σ
  | 0, s => s
  | n + 1, s => turns drop n (s.turn drop)

/-- A discard in place: one turn for every action that is queued at first. -/
def sweep {σ : Type} (drop : σ → PacketAction → Bool × σ) (state : σ) (q : Queue) : Sweep σ :=
  Sweep.turns drop q.size ⟨state, 0, q⟩

end Queue

end DoorBridge
