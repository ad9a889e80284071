/-!
# Double precision numbers

A finite double is a sign and `mantissa * 2 ^ exponent` with a mantissa below `2 ^ 53` and an
exponent from `-1074` to `971`; the mantissa is at least `2 ^ 52` unless the exponent is the least
one.  Zero has mantissa zero and keeps its sign.

`ofDecimal` rounds a decimal number to the nearest double, a tie to the even mantissa.
-/

namespace TreeStore

/-- A double precision number, given exactly. -/
inductive Double where
  | finite (negative : Bool) (mantissa : Nat) (exponent : Int)
  | infinite (negative : Bool)
  | nan
deriving DecidableEq, Inhabited, Repr

namespace Double

def minExponent : Int := -1074

def maxExponent : Int := 971

/-- The value is neither zero nor minus zero. -/
def isNonzero : Double → Bool
  | finite _ m _ => m != 0
  | _ => true

/-- Two to a power. -/
def twoTo (k : Nat) : Nat := Nat.pow 2 k

/-- Ten to a power. -/
def tenTo (k : Nat) : Nat := Nat.pow 10 k

/-- `num / den` rounded to the nearest integer, a tie to the even one. -/
def roundHalfEven (num den : Nat) : Nat :=
  let q := num / den
  let r := num % den
  if 2 * r < den then q
  else if den < 2 * r then q + 1
  else q + q % 2

/-- `num / (den * 2 ^ e)` as a fraction of natural numbers. -/
def scaleDown (num den : Nat) (e : Int) : Nat × Nat :=
  if e < 0 then (num * twoTo (-e).toNat, den) else (num, den * twoTo e.toNat)

/-- The exponent for which `num / den` has a mantissa from `2 ^ 52` up to `2 ^ 53`. -/
def normalExponent (num den : Nat) : Int :=
  let e : Int := (Nat.log2 num : Int) - (Nat.log2 den : Int) - 52
  let (n, d) := scaleDown num den e
  if n < d * twoTo 52 then e - 1 else e

/-- The double nearest to the fraction `num / den`, both positive. -/
def ofFraction (negative : Bool) (num den : Nat) : Double :=
  let e := max minExponent (normalExponent num den)
  let (n, d) := scaleDown num den e
  let m := roundHalfEven n d
  let (m, e) := if m = twoTo 53 then (twoTo 52, e + 1) else (m, e)
  if maxExponent < e then infinite negative else finite negative m e

/-- The number of decimal digits of a natural number. -/
def digitCount (n : Nat) : Nat := (Nat.toDigits 10 n).length

/-- The double nearest to `digits * 10 ^ exponent`.  A number of more than 310 digits is infinite
and one below `10 ^ -400` is zero, whatever its digits. -/
def ofDecimal (negative : Bool) (digits : Nat) (exponent : Int) : Double :=
  if digits = 0 then finite negative 0 minExponent
  else if 310 < (digitCount digits : Int) + exponent then infinite negative
  else if (digitCount digits : Int) + exponent < -400 then finite negative 0 minExponent
  else if 0 ≤ exponent then ofFraction negative (digits * tenTo exponent.toNat) 1
  else ofFraction negative digits (tenTo (-exponent).toNat)

end Double

end TreeStore
