/-!
# Bits — numbers as rows of bits and as rows of ternary digits

Frames are described bit by bit, high bit first; the counter in a frame is described digit by digit in base
three, low digit first.  Both views are lists, so that reordering and splitting a frame are list operations.

* `bitsOf n x` is the row of the low `n` bits of `x`, `ofBits` reads a row back.
* `ternary n x` is the row of the low `n` base-three digits of `x`, `ofTernary` reads a row back.
* `bytesOf` and `bitsOfBytes` pass between rows of bits and bytes.
-/

namespace DoorBridge

/-- The low `n` bits of `x`, high bit first. -/
def bitsOf : Nat → Nat → List Bool
  | 0, _ => []
  | n + 1, x => x.testBit n :: bitsOf n x

/-- The number written by a row of bits, high bit first. -/
def ofBits (bs : List Bool) : Nat := bs.foldl (fun v b => 2 * v + b.toNat) 0

/-- The low `n` ternary digits of `x`, low digit first. -/
def ternary : Nat → Nat → List (Fin 3)
  | 0, _ => []
  | n + 1, x => ⟨x % 3, Nat.mod_lt _ (by decide)⟩ :: ternary n (x / 3)

/-- The number written by a row of ternary digits, low digit first. -/
def ofTernary : List (Fin 3) → Nat
  | [] => 0
  | d :: ds => d.val + 3 * ofTernary ds

/-- The byte written by the eight bits that start at bit `8 * i` of a row. -/
def byteAt (bs : List Bool) (i : Nat) : UInt8 := .ofNat (ofBits ((bs.drop (8 * i)).take 8))

/-- A row of `8 * n` bits as `n` bytes. -/
def bytesOf (n : Nat) (bs : List Bool) : List UInt8 := (List.range n).map (byteAt bs)

def bitsOfBytes (bytes : List UInt8) : List Bool := bytes.flatMap fun b => bitsOf 8 b.toNat

@[simp] theorem length_bitsOf (n x : Nat) : (bitsOf n x).length = n := by
  induction n with
  | zero => rfl
  | succ n ih => simp [bitsOf, ih]

@[simp] theorem length_ternary (n x : Nat) : (ternary n x).length = n := by
  induction n generalizing x with
  | zero => rfl
  | succ n ih => simp [ternary, ih]

@[simp] theorem length_bytesOf (n : Nat) (bs : List Bool) : (bytesOf n bs).length = n := by
  simp [bytesOf]

end DoorBridge
