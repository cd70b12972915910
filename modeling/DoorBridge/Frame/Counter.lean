import DoorBridge.Frame

/-!
# Frame.Counter — the rolling counter as eighteen ternary digits

The 28 bits of the counter are mirrored, written in base three, and dealt digit by digit to the two halves of a
frame, low digit first.  Each digit takes two bits; `11` stands for no digit.
-/

namespace DoorBridge

def counterBound : Nat := 0x10000000

/-- The counter with its 28 bits in reverse order. -/
def mirror (counter : Nat) : Nat := ofBits (bitsOf 28 counter).reverse

def digitBits (d : Fin 3) : List Bool := bitsOf 2 d.val

/-- The digit that two bits stand for, if they are not `11`. -/
def digitOfBits? : Bool → Bool → Option (Fin 3)
  | false, false => some ⟨0, by decide⟩
  | false, true => some ⟨1, by decide⟩
  | true, false => some ⟨2, by decide⟩
  | true, true => none

/-- The digits written two bits each, if no pair is `11`. -/
def digitsOfBits? : List Bool → Option (List (Fin 3))
  | [] => some []
  | a :: b :: bits =>
    match digitOfBits? a b, digitsOfBits? bits with
    | some d, some digits => some (d :: digits)
    | _, _ => none
  | [_] => none

/-- A row dealt into two, the first row first. -/
def deal {α : Type} : List α → List α × List α
  | [] => ([], [])
  | a :: l => (a :: (deal l).2, (deal l).1)

/-- Two dealt rows put together again. -/
def riffle {α : Type} : List α → List α → List α
  | [], _ => []
  | a :: l, m => a :: (match m with
    | [] => []
    | b :: m => b :: riffle l m)

/-- The digit bits of a counter for each of the two halves. -/
def counterHalves (counter : Nat) : List Bool × List Bool :=
  let dealt := deal (ternary 18 (mirror counter))
  (dealt.1.flatMap digitBits, dealt.2.flatMap digitBits)

/-- The counter that the digit bits of two halves spell. -/
def counterOfHalves (first second : List Bool) : Except FrameError Nat :=
  match digitsOfBits? first, digitsOfBits? second with
  | some a, some b =>
    let value := ofTernary (riffle a b)
    if value < counterBound then .ok (mirror value) else .error .invalidTrit
  | _, _ => .error .invalidTrit

end DoorBridge
