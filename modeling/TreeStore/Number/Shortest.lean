import TreeStore.Number.Double

/-!
# The shortest decimal of a double

Every real number that lies between the midpoints to the two neighbouring doubles rounds to a
double; the midpoints themselves do when its mantissa is even.  `shortest` finds the decimal number
with the fewest digits in that interval: for one digit, two digits and so on it tests the two
neighbours of the value on the grid of decimals with that many digits; of two hits the nearer one
counts, a tie goes to the even digit.  Seventeen digits always suffice.
-/

namespace TreeStore.Double

/-- A decimal number `digits * 10 ^ exponent`. -/
structure Decimal where
  digits : Nat
  exponent : Int
deriving DecidableEq, Inhabited, Repr

/-- `num * 10 ^ k / den` as a fraction of natural numbers. -/
def scaleTen (num den : Nat) (k : Int) : Nat × Nat :=
  if k < 0 then (num, den * tenTo (-k).toNat) else (num * tenTo k.toNat, den)

/-- The exponent of the leading decimal digit of `num / den`. -/
def leadingExponent (num den : Nat) : Int :=
  if den ≤ num then (digitCount (num / den) : Int) - 1
  else
    let c := digitCount (den / num)
    if den = num * tenTo (c - 1) then -((c : Int) - 1) else -(c : Int)

/-- The interval of reals that round to `m * 2 ^ e`, as the numerators of its lower end, of the
value and of its upper end over a common denominator. -/
def interval (m : Nat) (e : Int) : (Nat × Nat × Nat) × Nat :=
  let below := if m = twoTo 52 ∧ minExponent < e then 1 else 2
  let (lo, v, hi) := (4 * m - below, 4 * m, 4 * m + 2)
  let s := e - 2
  if s < 0 then ((lo, v, hi), twoTo (-s).toNat)
  else ((lo * twoTo s.toNat, v * twoTo s.toNat, hi * twoTo s.toNat), 1)

/-- Looks for a hit among the decimals with `count` significant digits. -/
def shortestWith (m : Nat) (e : Int) (count : Nat) : Option Decimal :=
  let ((lo, v, hi), den) := interval m e
  let closed := m % 2 = 0
  let x := leadingExponent v den - count + 1
  let (num, den') := scaleTen v den (-x)
  let q := num / den'
  let inside (d : Nat) : Bool :=
    let (a, b) := scaleTen d 1 x
    let atLeast := if closed then lo * b ≤ a * den else lo * b < a * den
    let atMost := if closed then a * den ≤ hi * b else a * den < hi * b
    atLeast && atMost
  match inside q, inside (q + 1) with
  | true, true => some ⟨roundHalfEven num den', x⟩
  | true, false => some ⟨q, x⟩
  | false, true => some ⟨q + 1, x⟩
  | false, false => none

/-- Moves the trailing zeros of the digits into the exponent. -/
def Decimal.trim (d : Decimal) : Decimal :=
  go d.digits d
where
  /-- As `trim`, at most `fuel` zeros. -/
  go : Nat → Decimal → Decimal
    | 0, d => d
    | fuel + 1, d =>
      if d.digits % 10 = 0 ∧ d.digits ≠ 0 then go fuel ⟨d.digits / 10, d.exponent + 1⟩ else d

/-- The shortest decimal that rounds to the positive double `m * 2 ^ e`. -/
def shortest (m : Nat) (e : Int) : Decimal :=
  (((List.range 17).map (· + 1)).findSome? (shortestWith m e)).getD ⟨m, e⟩ |>.trim

end TreeStore.Double
