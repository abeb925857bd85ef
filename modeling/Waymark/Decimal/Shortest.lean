/-!
# The shortest decimal of a binary fraction

A positive binary fraction `m * 2 ^ q` stands for every real that rounds to it. Of the decimals in
that interval the shortest is taken, and of several shortest ones the nearest:

* `Binary`: the fraction with the interval around it, in quarters of its last place;
* `shortest`: digits and exponent of the chosen decimal;
* `ofFloat`: sign and fraction of a finite number of 64 bits.
-/

namespace Waymark.Decimal

/-- A positive fraction `significand * 2 ^ exponent`. -/
structure Binary where
  significand : Nat
  exponent : Int
  /-- The next smaller fraction is only half as far away as the next larger one. -/
  narrowBelow : Bool

/-- `digits * 10 ^ exponent`. -/
structure Numeral where
  digits : Nat
  exponent : Int
deriving DecidableEq

/-- Numerator and denominator of `n * 2 ^ e * 10 ^ t`. -/
def scaled (n : Nat) (e t : Int) : Nat × Nat :=
  (n * Nat.pow 2 e.toNat * Nat.pow 10 t.toNat, Nat.pow 2 (-e).toNat * Nat.pow 10 (-t).toNat)

/-- The number of decimal digits of a natural number; one for zero. -/
def digitCount (n : Nat) : Nat := (toString n).length

/-- The least `k` with the fraction below `10 ^ k`, searched upwards from a low estimate. -/
def ceilingPower (b : Binary) : Nat → Int → Int
  | 0, k => k
  | fuel + 1, k =>
    let (num, den) := scaled b.significand b.exponent (-k)
    if num < den then k else ceilingPower b fuel (k + 1)

/-- A low estimate of the power of ten above the fraction. -/
def powerEstimate (b : Binary) : Int :=
  ((Nat.log2 b.significand : Int) + b.exponent) * 30103 / 100000 - 2

/-- The decimal of at most `n` digits nearest to the fraction, if one rounds to it; a tie goes to
the even digit. -/
def withDigits (b : Binary) (top : Int) (n : Nat) : Option Numeral :=
  let grid := top - n
  let (num, den) := scaled (4 * b.significand) (b.exponent - 2) (-grid)
  let (low, _) := scaled (4 * b.significand - (if b.narrowBelow then 1 else 2))
    (b.exponent - 2) (-grid)
  let (high, _) := scaled (4 * b.significand + 2) (b.exponent - 2) (-grid)
  let closed := b.significand % 2 = 0
  let inside (d : Nat) : Bool :=
    if closed then low ≤ d * den && d * den ≤ high else low < d * den && d * den < high
  let below := num / den
  let above := below + 1
  let rest := num % den
  let belowIn := 0 < below && inside below
  let aboveIn := inside above
  if belowIn && aboveIn then
    if 2 * rest < den || (2 * rest = den && below % 2 = 0) then some ⟨below, grid⟩
    else some ⟨above, grid⟩
  else if belowIn then some ⟨below, grid⟩
  else if aboveIn then some ⟨above, grid⟩
  else none

/-- Takes trailing zeros of the digits into the exponent. -/
def trimmed : Nat → Numeral → Numeral
  | 0, d => d
  | fuel + 1, d =>
    if d.digits ≠ 0 ∧ d.digits % 10 = 0 then trimmed fuel ⟨d.digits / 10, d.exponent + 1⟩ else d

/-- The shortest decimal that rounds to the fraction. -/
def shortest (b : Binary) : Numeral :=
  let top := ceilingPower b 8 (powerEstimate b)
  let found := (List.range 17).findSome? (fun n => withDigits b top (n + 1))
  trimmed 18 (found.getD ⟨b.significand, b.exponent⟩)

/-- Sign and fraction of a finite number; no fraction for zero. -/
def ofFloat (x : Float) : Bool × Option Binary :=
  let bits : Nat := x.toBits.toNat
  let negative := bits / Nat.pow 2 63 == 1
  let biased : Nat := bits / Nat.pow 2 52 % 2048
  let fraction : Nat := bits % Nat.pow 2 52
  if biased = 0 then
    (negative, if fraction = 0 then none else some ⟨fraction, -1074, false⟩)
  else
    (negative, some ⟨Nat.pow 2 52 + fraction, (biased : Int) - 1075, fraction = 0 && 1 < biased⟩)

end Waymark.Decimal
