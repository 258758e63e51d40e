import AgdaFrontEnd.Binary64

/-!
# The shortest decimal text of a double

A finite double is written with the fewest digits that read back as the same double, and of those
with the digits nearest to it.

* `Binary64.Interval`: the decimal numbers that read back as a given double.
* `Binary64.shortestDigits`: the digits and their power of ten.
* `Binary64.toText`: positional notation for a leading digit between `10 ^ -4` and `10 ^ 15`,
  otherwise an exponent of at least two digits.
-/

namespace AgdaFrontEnd.Binary64

/-- The fractions between `low / den` and `high / den` around `mid / den`; the ends belong to the
interval if `closed`. -/
structure Interval where
  low : Nat
  mid : Nat
  high : Nat
  den : Nat
  closed : Bool

/-- The numbers that round to the double `m * 2 ^ e`: half the way to either neighbour, where the
neighbour below a power of two is twice as near. -/
def interval (m : Nat) (e : Int) : Interval :=
  let near := m = leastFull && leastExponent < e
  let (num, den) := scale 2 1 4 e
  ⟨num * (if near then 4 * m - 1 else 4 * m - 2), num * (4 * m), num * (4 * m + 2), den, m % 2 == 0⟩

/-- The decimal number `n * 10 ^ power` lies in the interval. -/
def Interval.has (i : Interval) (n : Nat) (power : Int) : Bool :=
  let (num, den) := scale 10 n 1 power
  let x := num * i.den
  if i.closed then i.low * den ≤ x && x ≤ i.high * den else i.low * den < x && x < i.high * den

/-- The multiple of `10 ^ power` in the interval that is nearest to its middle, a tie going to the
even multiple. -/
def Interval.nearest? (i : Interval) (power : Int) : Option Nat :=
  let (num, den) := scale 10 i.mid i.den (-power)
  let below := num / den
  let twice := 2 * (num % den)
  match i.has below power, i.has (below + 1) power with
  | true, true => some (if den < twice || (twice == den && below % 2 == 1) then below + 1 else below)
  | true, false => some below
  | false, true => some (below + 1)
  | false, false => none

/-- The first multiple found on ever finer grids, with the power of ten of its grid. -/
def Interval.firstHit (i : Interval) : (steps : Nat) → (power : Int) → Nat × Int
  | 0, power => (0, power)
  | steps + 1, power =>
    match i.nearest? power with
    | some n => if n = 0 then i.firstHit steps (power - 1) else (n, power)
    | none => i.firstHit steps (power - 1)

/-- The power of ten of the leading digit of a positive fraction. -/
def leadingPower (num den : Nat) : Int :=
  if den ≤ num then (Text.ofNat (num / den)).length - 1
  else -((Text.ofNat ((den + num - 1) / num - 1)).length : Int)

/-- Digits without their trailing zeros, and the power of ten of the last one kept. -/
def trimZeros : (steps n : Nat) → (power : Int) → Nat × Int
  | 0, n, power => (n, power)
  | steps + 1, n, power =>
    if n ≠ 0 ∧ n % 10 = 0 then trimZeros steps (n / 10) (power + 1) else (n, power)

/-- The fewest digits that read back as `m * 2 ^ e`, and the power of ten of the last one.  Twenty
grids suffice: seventeen digits always read back. -/
def shortestDigits (m : Nat) (e : Int) : Nat × Int :=
  let i := interval m e
  let (n, power) := i.firstHit 20 (leadingPower i.mid i.den)
  trimZeros 20 n power

/-- A decimal exponent: a sign and at least two digits. -/
def exponentText (x : Int) : Text :=
  [if x < 0 then '-' else '+'] ++ Text.padLeft 2 '0' (Text.ofNat x.natAbs)

/-- The text of digits whose last one counts `10 ^ power`. -/
def decimalText (n : Nat) (power : Int) : Text :=
  let ds := Text.ofNat n
  let lead : Int := ds.length - 1 + power
  if lead < -4 || 16 ≤ lead then
    match ds with
    | [d] => [d, 'e'] ++ exponentText lead
    | d :: more => [d, '.'] ++ more ++ ['e'] ++ exponentText lead
    | [] => []
  else if 0 ≤ power then ds ++ List.replicate power.toNat '0' ++ ['.', '0']
  else if 0 ≤ lead then ds.take (lead.toNat + 1) ++ ['.'] ++ ds.drop (lead.toNat + 1)
  else ['0', '.'] ++ List.replicate (-lead - 1).toNat '0' ++ ds

/-- The text of a double. -/
def toText : Binary64 → Text
  | .nan => "nan".toList
  | .infinite negative => if negative then "-inf".toList else "inf".toList
  | .finite negative m e =>
    (if negative then ['-'] else []) ++
      (if m = 0 then "0.0".toList else
        let (n, power) := shortestDigits m e
        decimalText n power)

end AgdaFrontEnd.Binary64
