import DoorBridge.Frame.Counter

/-!
# Frame.Half — one half of a frame, scrambled under its indicator

A half carries nine counter digits (18 bits), 20 bits of the fixed value and 16 bits of the data word.  They form
three parts of 18 bits.  The first four digits are the half's indicator: two choose the order in which the parts
fill three slots, two choose which slots are inverted.  The slots are interleaved bit by bit behind two
frame-type bits and the eight indicator bits.

`Half.encode` writes a half and `Half.decode` reads it.
-/

namespace DoorBridge

/-- Three things of a kind, one per slot. -/
structure Trio (α : Type) where
  first : α
  second : α
  third : α
  deriving DecidableEq, Repr

namespace Trio

variable {α : Type}

def get (t : Trio α) (i : Fin 3) : α :=
  match i with
  | 0 => t.first
  | 1 => t.second
  | 2 => t.third

def ofFn (f : Fin 3 → α) : Trio α := ⟨f 0, f 1, f 2⟩

/-- The slot that holds part `p` when the slots are filled in the order `t`. -/
def slotOf (t : Trio (Fin 3)) (p : Fin 3) : Fin 3 := if t.first = p then 0 else if t.second = p then 1 else 2

end Trio

/-! ## The scramble -/

/-- Which part fills each slot, by the first two indicator digits. -/
def orderTable : Vector (Trio (Fin 3)) 9 :=
  #v[⟨2, 1, 0⟩, ⟨2, 0, 1⟩, ⟨0, 2, 1⟩, ⟨1, 2, 0⟩, ⟨1, 0, 2⟩, ⟨0, 1, 2⟩, ⟨1, 2, 0⟩, ⟨0, 2, 1⟩, ⟨2, 1, 0⟩]

/-- Which slots are inverted, by the last two indicator digits. -/
def invertTable : Vector (Trio Bool) 9 :=
  #v[⟨true, true, false⟩, ⟨false, true, false⟩, ⟨false, false, true⟩, ⟨true, true, true⟩,
    ⟨true, false, true⟩, ⟨false, true, true⟩, ⟨true, false, false⟩, ⟨false, false, false⟩,
    ⟨true, false, true⟩]

/-- How the parts of a half are ordered and inverted. -/
structure Scramble where
  order : Trio (Fin 3)
  invert : Trio Bool

namespace Scramble

def ofDigits (a b c d : Fin 3) : Scramble where
  order := orderTable[3 * a.val + b.val]
  invert := invertTable[3 * c.val + d.val]

/-- The scramble that eight indicator bits choose, if they hold digits. -/
def ofIndicator? (indicator : List Bool) : Option Scramble :=
  match digitsOfBits? indicator with
  | some [a, b, c, d] => some (ofDigits a b c d)
  | _ => none

def flip (inverted : Bool) (bits : List Bool) : List Bool := bits.map (· ^^ inverted)

/-- The slots filled from the parts. -/
def fill (s : Scramble) (parts : Trio (List Bool)) : Trio (List Bool) :=
  .ofFn fun i => flip (s.invert.get i) (parts.get (s.order.get i))

/-- The parts taken back from the slots. -/
def empty (s : Scramble) (slots : Trio (List Bool)) : Trio (List Bool) :=
  .ofFn fun p => flip (s.invert.get (s.order.slotOf p)) (slots.get (s.order.slotOf p))

end Scramble

def weave : List Bool → List Bool → List Bool → List Bool
  | a :: as, b :: bs, c :: cs => a :: b :: c :: weave as bs cs
  | _, _, _ => []

def unweave : List Bool → Trio (List Bool)
  | a :: b :: c :: rest =>
    let t := unweave rest
    ⟨a :: t.first, b :: t.second, c :: t.third⟩
  | _ => ⟨[], [], []⟩

/-! ## Halves -/

/-- The content of a half: 18 digit bits, 20 bits of the fixed value, 16 bits of the data word. -/
structure Half where
  digits : List Bool
  fixed : List Bool
  data : List Bool
  deriving DecidableEq, Repr

namespace Half

/-- The first four digits of a half. -/
def indicator (h : Half) : List Bool := h.digits.take 8

/-- The three parts of 18 bits. -/
def parts (h : Half) : Trio (List Bool) :=
  ⟨h.fixed.take 10 ++ h.data.take 8, h.fixed.drop 10 ++ h.data.drop 8, h.digits.drop 8 ++ h.indicator⟩

/-- The half as 64 bits behind its two frame-type bits. -/
def encode (header : List Bool) (h : Half) : List Bool :=
  let slots := match Scramble.ofIndicator? h.indicator with
    | some s => s.fill h.parts
    | none => h.parts
  header ++ h.indicator ++ weave slots.first slots.second slots.third

/-- Reads the 64 bits of a half: first the frame-type bits, then the indicator, then its copy. -/
def decode (header : List Bool) (bits : List Bool) : Except FrameError Half :=
  if bits.take 2 ≠ header then .error .badHeader
  else
    let indicator := (bits.drop 2).take 8
    match Scramble.ofIndicator? indicator with
    | none => .error .invalidTrit
    | some s =>
      let parts := s.empty (unweave (bits.drop 10))
      if parts.third.drop 10 ≠ indicator then .error .indicatorMismatch
      else .ok {
        digits := indicator ++ parts.third.take 10
        fixed := parts.first.take 10 ++ parts.second.take 10
        data := parts.first.drop 10 ++ parts.second.drop 10 }

end Half

end DoorBridge
