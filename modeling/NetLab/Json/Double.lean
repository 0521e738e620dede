/-!
# Double-precision numbers, exactly

A finite IEEE 754 double is a dyadic rational, kept here as `mantissa * 2 ^ exponent` with an odd
mantissa (or both parts zero).  Equal values are therefore equal terms.  There is one zero only:
minus zero is read as it, and written back as `0.0`, without its sign.

`Double.ofDecimal?` reads a decimal: the nearest double, a tie going to the even one, and nothing
when the result would not be finite.  `Double.shortest` writes one back: the fewest digits that
read back as the same double, and of those the nearest.
-/

namespace NetLab

/-- The finite double `mantissa * 2 ^ exponent`. -/
structure Double where
  mantissa : Int
  exponent : Int
deriving DecidableEq, Repr, Inhabited

namespace Double

/-- Moves the factors of two of a positive mantissa into the exponent. -/
def normalize (mantissa : Nat) (exponent : Int) : Nat × Int :=
  if h : mantissa ≠ 0 ∧ mantissa % 2 = 0 then normalize (mantissa / 2) (exponent + 1)
  else (mantissa, if mantissa = 0 then 0 else exponent)
termination_by mantissa
decreasing_by omega

/-- The quotient rounded to the nearest integer, a tie to the even one. -/
def roundDiv (num den : Nat) : Nat :=
  let quotient := num / den
  let twice := 2 * (num % den)
  if twice < den then quotient
  else if den < twice then quotient + 1
  else if quotient % 2 = 0 then quotient else quotient + 1

/-- `num / den / 2 ^ exponent`, as numerator and denominator. -/
def scaled (num den : Nat) (exponent : Int) : Nat × Nat :=
  match exponent with
  | .ofNat e => (num, den * Nat.pow 2 e)
  | .negSucc e => (num * Nat.pow 2 (e + 1), den)

/-- The nearest double to the positive quotient: 53 bits, the last one worth at least
`2 ^ (-1074)`.  `none` from `2 ^ 1024` on. -/
def ofRatio? (num den : Nat) : Option (Nat × Int) :=
  let guess : Int := (num.log2 : Int) - den.log2 - 53
  let (n, d) := scaled num den guess
  let fine := if d * Nat.pow 2 53 ≤ n then guess + 1 else guess
  let exponent := max fine (-1074)
  let (n, d) := scaled num den exponent
  let mantissa := roundDiv n d
  if 0 < exponent ∧ Nat.pow 2 1024 ≤ mantissa * Nat.pow 2 exponent.toNat then none
  else some (normalize mantissa exponent)

/-- The nearest double to `± digits * Nat.pow 10 exponent`. -/
def ofDecimal? (negative : Bool) (digits : Nat) (exponent : Int) : Option Double :=
  let size : Int := (Nat.toDigits 10 digits).length + exponent
  if digits = 0 ∨ size < -400 then some ⟨0, 0⟩
  else if 400 < size then none
  else
    let ratio := match exponent with
      | .ofNat e => ofRatio? (digits * Nat.pow 10 e) 1
      | .negSucc e => ofRatio? digits (Nat.pow 10 (e + 1))
    ratio.map fun (mantissa, e) => ⟨if negative then -mantissa else mantissa, e⟩

/-- The magnitude as a quotient of naturals. -/
def ratio (d : Double) : Nat × Nat :=
  match d.exponent with
  | .ofNat e => (d.mantissa.natAbs * Nat.pow 2 e, 1)
  | .negSucc e => (d.mantissa.natAbs, Nat.pow 2 (e + 1))

/-- The power of ten of the leading digit of a positive quotient. -/
def decimalExponent (num den : Nat) : Int :=
  if den ≤ num then (Nat.toDigits 10 (num / den)).length - 1
  else
    let shift := (Nat.toDigits 10 (den / num)).length
    if den ≤ num * Nat.pow 10 (shift - 1) then 1 - shift else -shift

/-- Digits and power of ten of the nearest decimal of `count` digits that reads back as the
magnitude of `d`, if one of the two neighbours on that grid does. -/
def onGrid? (d : Double) (count : Nat) : Option (Nat × Int) :=
  let (num, den) := d.ratio
  let power := decimalExponent num den - count + 1
  let (n, m) := match power with
    | .ofNat e => (num, den * Nat.pow 10 e)
    | .negSucc e => (num * Nat.pow 10 (e + 1), den)
  let below := n / m
  let near := roundDiv n m
  let far := if near = below then below + 1 else below
  [near, far].findSome? fun digits =>
    if ofDecimal? false digits power = some ⟨d.mantissa.natAbs, d.exponent⟩ then
      -- rounding up to the next power of ten leaves one zero too many
      some (if digits % 10 = 0 then (digits / 10, power + 1) else (digits, power))
    else none

/-- The fewest digits that read back as the magnitude of `d`, with their power of ten. -/
def shortest (d : Double) : Nat × Int :=
  if d.mantissa = 0 then (0, 0)
  else ((List.range 17).findSome? fun i => d.onGrid? (i + 1)).getD (0, 0)

/-- The decimal text: positional from `0.00001` up to sixteen integer digits, with a point in
either case, and with an exponent outside that range. -/
def text (d : Double) : String :=
  let (digits, power) := d.shortest
  let ds := Nat.toDigits 10 digits
  let point : Int := ds.length + power
  let body :=
    if digits = 0 then "0.0"
    else if 0 ≤ power ∧ point ≤ 16 then
      String.ofList (ds ++ List.replicate power.toNat '0') ++ ".0"
    else if 0 < point ∧ point ≤ 16 then
      String.ofList (ds.take point.toNat) ++ "." ++ String.ofList (ds.drop point.toNat)
    else if -5 < point ∧ point ≤ 0 then
      "0." ++ String.ofList (List.replicate (-point).toNat '0' ++ ds)
    else
      let fraction := if ds.length = 1 then "" else "." ++ String.ofList (ds.drop 1)
      String.ofList (ds.take 1) ++ fraction ++ "e" ++ toString (point - 1)
  if d.mantissa < 0 then "-" ++ body else body

end Double

end NetLab
