import AgdaFrontEnd.Text.Basic

/-!
# Binary floating point

`Binary64` is a double-precision number in exact form: a finite one is `mantissa * 2 ^ exponent`.
No machine arithmetic is involved, so every operation below can be computed and reasoned about in
the natural numbers.

* `Binary64.ofDecimal`: the double nearest to a decimal number, ties to the even mantissa.
* `Binary64.truncate?`: the integer part of a finite double.
-/

namespace AgdaFrontEnd

/-- A double-precision number.  A finite one has a mantissa below `2 ^ 53`, of full length unless
the exponent is the least one, `-1074`. -/
inductive Binary64 where
  | nan
  | infinite (negative : Bool)
  | finite (negative : Bool) (mantissa : Nat) (exponent : Int)
  deriving DecidableEq, Repr

namespace Binary64

/-- The exponent of the smallest doubles. -/
def leastExponent : Int := -1074

/-- The exponent of the largest doubles. -/
def greatestExponent : Int := 971

/-- The least mantissa of full length, `2 ^ 52`. -/
def leastFull : Nat := Nat.pow 2 52

/-- The quotient `num / den` rounded to the nearest integer, a half to the even one. -/
def roundQuotient (num den : Nat) : Nat :=
  let q := num / den
  let twice := 2 * (num % den)
  if den < twice || (twice == den && q % 2 == 1) then q + 1 else q

/-- The fraction `num / den`, multiplied by `base ^ power`, as a fraction again. -/
def scale (base num den : Nat) (power : Int) : Nat × Nat :=
  match power with
  | .ofNat k => (num * base.pow k, den)
  | .negSucc k => (num, den * base.pow (k + 1))

/-- At this exponent, the fraction has a mantissa of full length at least. -/
def fits (num den : Nat) (e : Int) : Bool :=
  let (n, d) := scale 2 num den (-e)
  d * leastFull ≤ n

/-- The exponent at which a positive fraction has a mantissa of full length. -/
def fullExponent (num den : Nat) : Int :=
  let guess : Int := (num.log2 : Int) - den.log2 - 52
  if fits num den guess then guess else guess - 1

/-- The double of a rounded mantissa.  A mantissa that has become too long is carried over, and an
exponent that is too great gives an infinite number. -/
def carried (negative : Bool) (m : Nat) (e : Int) : Binary64 :=
  let (m, e) := if m = 2 * leastFull then (leastFull, e + 1) else (m, e)
  if greatestExponent < e then .infinite negative else .finite negative m e

/-- The double nearest to the positive fraction `num / den`. -/
def ofFraction (negative : Bool) (num den : Nat) : Binary64 :=
  let e := max leastExponent (fullExponent num den)
  let q := scale 2 num den (-e)
  carried negative (roundQuotient q.1 q.2) e

/-- Zero, with a sign. -/
def signedZero (negative : Bool) : Binary64 := .finite negative 0 leastExponent

/-- The double nearest to `digits * 10 ^ power`.  A number of at least `10 ^ 310` is too large for
any finite double and one below `10 ^ -325` too small for any but zero. -/
def ofDecimal (negative : Bool) (digits : Nat) (power : Int) : Binary64 :=
  if digits = 0 then signedZero negative
  else
    let size : Int := (Text.ofNat digits).length + power
    if 310 < size then .infinite negative
    else if size < -325 then signedZero negative
    else
      let (num, den) := scale 10 digits 1 power
      ofFraction negative num den

/-- The integer part of a finite double. -/
def truncate? : Binary64 → Option Int
  | .finite negative m e =>
    let (num, den) := scale 2 m 1 e
    some (if negative then -((num / den : Nat) : Int) else ((num / den : Nat) : Int))
  | _ => none

end Binary64

end AgdaFrontEnd
