import Mathlib.Data.BitVec
import Mathlib.Data.Nat.Log

/-! Binary64 numbers as bit patterns, with the exact conversions from and to
64-bit integers that dynamic casts of boxed numbers perform. No arithmetic is
modelled: a stored number is only ever copied, compared or converted. -/

namespace SewaConnect.Values

/-- A binary64 number. Two numbers are the same when their bits are, so a NaN is
equal to itself and the two zeros differ. -/
structure Double where
  bits : BitVec 64
  deriving DecidableEq

namespace Double

instance : Zero Double := ⟨⟨0⟩⟩

def negative (d : Double) : Bool := d.bits.msb

def exponent (d : Double) : ℕ := (d.bits.extractLsb' 52 11).toNat

def fraction (d : Double) : ℕ := (d.bits.extractLsb' 0 52).toNat

/-- The magnitude of a finite number in units of `2 ^ (-1075)`. -/
def scaled (d : Double) : ℕ :=
  (if d.exponent = 0 then d.fraction else 2 ^ 52 + d.fraction) * 2 ^ max d.exponent 1

/-- `Int(exactly:)`: the integer with this value, if there is one of 64 bits. -/
def exactInt (d : Double) : Option ℤ :=
  if d.exponent = 2047 then none
  else if d.scaled % 2 ^ 1075 ≠ 0 then none
  else
    let n : ℤ := if d.negative then -(d.scaled / 2 ^ 1075 : ℕ) else (d.scaled / 2 ^ 1075 : ℕ)
    if -2 ^ 63 ≤ n ∧ n < 2 ^ 63 then some n else none

/-- `Double(exactly:)`: the number with this value, if its significand has 53 bits. -/
def ofExactInt (n : ℤ) : Option Double :=
  let m := n.natAbs
  if m = 0 then some 0
  else if m * 2 ^ 52 % 2 ^ m.log2 ≠ 0 then none
  else some ⟨BitVec.ofNat 64 ((if n < 0 then 2 ^ 63 else 0) + (m.log2 + 1023) * 2 ^ 52
    + (m * 2 ^ 52 / 2 ^ m.log2 - 2 ^ 52))⟩

/-- One and a half is no integer; minus three converts both ways. -/
example : (⟨0x3FF8000000000000⟩ : Double).exactInt = none ∧
    (ofExactInt (-3)).bind exactInt = some (-3) := by decide +kernel

end Double

end SewaConnect.Values
