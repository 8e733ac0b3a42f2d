/-!
# Binary floating-point numbers of 32 bits

Coverage shares are numbers of the IEEE format binary32.  A `Single` is such a
number, held as its bits.  It arises by rounding an exact ratio to the nearest
representable number, ties to even (`ofRatio`), and is written with the fewest
decimal digits that read back as the same number (`render`): among the decimals
with that many digits that lie in the interval rounding to the number, the
nearest.

All arithmetic is exact, in natural numbers; nothing here depends on the
machine's own floating point.
-/
namespace Testplan

/-- **A number of the format binary32**, held as its bits. -/
structure Single where
  bits : UInt32
deriving DecidableEq, Inhabited

/-! ## Rounding -/

/-- `num / den` rounded to the nearest natural number, a half to the even one. -/
def roundHalfEven (num den : Nat) : Nat :=
  let q := num / den
  let r := num % den
  if 2 * r < den then q else if den < 2 * r then q + 1 else q + q % 2

/-- `num / den · 2^(-e)` as a ratio of natural numbers. -/
def scaledRatio (num den : Nat) (e : Int) : Nat × Nat :=
  if 0 ≤ e then (num, den <<< e.toNat) else (num <<< (-e).toNat, den)

/-- The multiple `m · 2^e` nearest to `num / den`, where `m` has at most `precision`
bits and `e` is at least `least`. -/
def roundBinary (precision : Nat) (least : Int) (num den : Nat) : Nat × Int :=
  if num = 0 then (0, least)
  else
    let guess : Int := (num.log2 : Int) - den.log2 - precision
    let fits (e : Int) : Bool :=
      let (a, b) := scaledRatio num den e
      a < b <<< precision
    let e := max least (if fits guess then guess else if fits (guess + 1) then guess + 1
      else guess + 2)
    let (a, b) := scaledRatio num den e
    let m := roundHalfEven a b
    if m = 1 <<< precision then (1 <<< (precision - 1), e + 1) else (m, e)

namespace Single

/-- The number zero. -/
def zero : Single := ⟨0⟩

/-- The infinities. -/
def infinity (negative : Bool) : Single := ⟨if negative then 0xFF800000 else 0x7F800000⟩

/-- A quiet NaN. -/
def nan : Single := ⟨0x7FC00000⟩

def isNegative (x : Single) : Bool := x.bits.toNat >>> 31 = 1

/-- The exponent field. -/
def exponentField (x : Single) : Nat := x.bits.toNat >>> 23 % 256

/-- The fraction field. -/
def fractionField (x : Single) : Nat := x.bits.toNat % 0x800000

def isNaN (x : Single) : Bool := x.exponentField = 255 && x.fractionField ≠ 0

def isFinite (x : Single) : Bool := x.exponentField ≠ 255

/-- The magnitude of a finite number as `m · 2^e`. -/
def magnitude (x : Single) : Nat × Int :=
  if x.exponentField = 0 then (x.fractionField, -149)
  else (x.fractionField + 0x800000, (x.exponentField : Int) - 150)

/-- The number with magnitude `m · 2^e`, where `m` has at most 24 bits, and has them
all unless `e` is the least exponent. -/
def ofMagnitude (negative : Bool) (m : Nat) (e : Int) : Single :=
  if 104 < e then infinity negative
  else
    let low := if m < 0x800000 then m else (e + 150).toNat <<< 23 + (m - 0x800000)
    ⟨UInt32.ofNat (low + if negative then 0x80000000 else 0)⟩

/-- The number nearest to `num / den`. -/
def ofRatio (negative : Bool) (num den : Nat) : Single :=
  let (m, e) := roundBinary 24 (-149) num den
  ofMagnitude negative m e

/-- The exact magnitude of a finite number as a ratio. -/
def ratio (x : Single) : Nat × Nat :=
  let (m, e) := x.magnitude
  if 0 ≤ e then (m <<< e.toNat, 1) else (m, 1 <<< (-e).toNat)

/-- The number nearest to a natural number. -/
def ofNat (n : Nat) : Single := ofRatio false n 1

/-- The quotient of two positive finite numbers. -/
def div (x y : Single) : Single :=
  let (a, b) := x.ratio
  let (c, d) := y.ratio
  ofRatio (x.isNegative != y.isNegative) (a * d) (b * c)

/-- The product of two finite numbers. -/
def mul (x y : Single) : Single :=
  let (a, b) := x.ratio
  let (c, d) := y.ratio
  ofRatio (x.isNegative != y.isNegative) (a * c) (b * d)

/-- The nearest whole number; a half goes away from zero. -/
def round (x : Single) : Single :=
  let (a, b) := x.ratio
  ofRatio x.isNegative ((2 * a + b) / (2 * b)) 1

/-- The number nearest to `±digits · 10^exponent`, rounded first to the 53 bits of a
number of twice the width, as decimals in documents are; nothing if the decimal is too
large even for that. -/
def ofDecimal? (negative : Bool) (digits : Nat) (exponent : Int) : Option Single :=
  let zero : Single := ⟨if negative then 0x80000000 else 0⟩
  if digits = 0 then some zero
  else if 400 < exponent + (Nat.toDigits 10 digits).length then none
  else if exponent + (Nat.toDigits 10 digits).length < -400 then some zero
  else
    let (num, den) :=
      if 0 ≤ exponent then (digits * Nat.pow 10 exponent.toNat, 1)
      else (digits, Nat.pow 10 (-exponent).toNat)
    let (m, e) := roundBinary 53 (-1074) num den
    if 971 < e then none
    else if 0 ≤ e then some (ofRatio negative (m <<< e.toNat) 1)
    else some (ofRatio negative m (1 <<< (-e).toNat))

/-! ## The fewest digits -/

/-- Four times the magnitude in units of `2^(e-2)`, with the ends of the interval of
reals that round to it and whether the ends belong to it. -/
def roundingInterval (x : Single) : Nat × Nat × Nat × Int × Bool :=
  let (m, e) := x.magnitude
  let low := if m = 0x800000 ∧ -149 < e then 4 * m - 1 else 4 * m - 2
  (low, 4 * m, 4 * m + 2, e - 2, m % 2 = 0)

/-- The ratio `n · 2^e / 10^t`. -/
def gridRatio (n : Nat) (e t : Int) : Nat × Nat :=
  let num := n <<< e.toNat * Nat.pow 10 (-t).toNat
  let den := 1 <<< (-e).toNat * Nat.pow 10 t.toNat
  (num, den)

/-- The multiple of `10^t` in the rounding interval that is nearest to the number, if
one of the two next to the number lies in it. -/
def gridPoint? (x : Single) (t : Int) : Option Nat :=
  let (low, mid, high, e, closed) := x.roundingInterval
  let inside (d : Nat) : Bool :=
    let (a, b) := gridRatio low e t
    let (c, f) := gridRatio high e t
    if closed then a ≤ d * b && d * f ≤ c else a < d * b && d * f < c
  let (num, den) := gridRatio mid e t
  let down := num / den
  let nearer := roundHalfEven num den
  if inside nearer then some nearer
  else if inside down then some down
  else if inside (down + 1) then some (down + 1)
  else none

/-- The exponent `t` with `10^t ≤ m · 2^e < 10^(t+1)`, searched downwards. -/
def decimalExponent (m : Nat) (e : Int) : Nat → Int → Int
  | 0, t => t
  | steps + 1, t =>
    let (num, den) := gridRatio m e t
    if den ≤ num then t else decimalExponent m e steps (t - 1)

/-- The digits and exponent of the shortest decimal, trying `count` digits and
more. -/
def shortestFrom (x : Single) (top : Int) : Nat → Int → Nat × Int
  | 0, t => ((x.gridPoint? t).getD 0, t)
  | more + 1, t =>
    match x.gridPoint? t with
    | some d => (d, t)
    | none => shortestFrom x top more (t - 1)

/-- A decimal without trailing zeros. -/
def dropZeros : Nat → Nat × Int → Nat × Int
  | 0, p => p
  | steps + 1, (d, t) => if d % 10 = 0 ∧ d ≠ 0 then dropZeros steps (d / 10, t + 1) else (d, t)

/-- The decimal `d · 10^t` with the fewest digits that reads back as the magnitude of
a finite number other than zero. -/
def shortest (x : Single) : Nat × Int :=
  let (m, e) := x.magnitude
  let top := decimalExponent m e 90 39
  dropZeros 12 (shortestFrom x top 9 top)

/-- The written magnitude of `d · 10^t`: positional from 10⁻⁵ up to 10¹³, otherwise
with an exponent; a whole number ends in `.0`. -/
def renderDecimal (d : Nat) (t : Int) : String :=
  let digits := Nat.toDigits 10 d
  let point : Int := digits.length + t
  let zeros (n : Int) : List Char := List.replicate n.toNat '0'
  if 0 ≤ t ∧ point ≤ 13 then String.ofList (digits ++ zeros t ++ ['.', '0'])
  else if 0 < point ∧ point ≤ 13 then
    String.ofList (digits.take point.toNat ++ '.' :: digits.drop point.toNat)
  else if -6 < point ∧ point ≤ 0 then String.ofList ('0' :: '.' :: zeros (-point) ++ digits)
  else
    let tail := digits.drop 1
    String.ofList (digits.take 1 ++ (if tail.isEmpty then [] else '.' :: tail)) ++ "e" ++
      toString (point - 1)

/-- The written form: the fewest digits that read back. -/
def render (x : Single) : String :=
  if x.isNaN then ".nan"
  else if !x.isFinite then (if x.isNegative then "-.inf" else ".inf")
  else
    let sign := if x.isNegative then "-" else ""
    if x.magnitude.1 = 0 then sign ++ "0.0"
    else
      let (d, t) := x.shortest
      sign ++ renderDecimal d t

end Single

end Testplan
