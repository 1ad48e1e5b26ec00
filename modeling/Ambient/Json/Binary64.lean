import Ambient.Json.Shortest
/-!
# Floating-point numbers in JSON

A JSON number that is no 64-bit integer is kept as a double, by its bits.

## Main definitions

* `Binary64`: the bits of a double.
* `Binary64.ofDecimal?`: the double read for a decimal significand and a power of ten.
* `Binary64.text`: the shortest text that reads back, positional from `1e-5` up to `1e16`.

## Design notes

Reading scales the rounded significand by one power of ten, so two roundings take place. This is the
documented arithmetic of the format's reader here and differs from correct rounding in the last bit
for some long decimals.
-/

namespace Ambient

/-- A double, given by its bits. -/
structure Binary64 where
  bits : UInt64
  deriving DecidableEq

namespace Binary64

/-- The bits of a machine double. -/
def ofFloat (x : Float) : Binary64 := ⟨x.toBits⟩

/-- Scale by a power of ten in steps that have a double of their own. There is no result when the
value grows beyond all doubles. -/
def scale? : Nat → Float → Int → Option Float
  | 0, x, _ => some x
  | fuel + 1, x, power =>
    if power.natAbs ≤ 308 then
      if 0 ≤ power then
        let y := x * Float.ofScientific 1 false power.natAbs
        if y.isInf then none else some y
      else some (x / Float.ofScientific 1 false power.natAbs)
    else if x == 0.0 then some x
    else if 0 ≤ power then none
    else scale? fuel (x / Float.ofScientific 1 false 308) (power + 308)

/-- The double for `significand * 10 ^ power`, negated on demand; none if it is out of range. -/
def ofDecimal? (negative : Bool) (significand : Nat) (power : Int) : Option Binary64 :=
  (scale? 4 (Float.ofNat significand) power).map fun x => ofFloat (if negative then -x else x)

/-- The digits of a decimal without trailing zeros, with the power of ten adjusted. -/
def stripZeros : Nat → Nat → Int → Nat × Int
  | 0, digits, power => (digits, power)
  | fuel + 1, digits, power =>
    if digits % 10 = 0 ∧ digits ≠ 0 then stripZeros fuel (digits / 10) (power + 1)
    else (digits, power)

/-- Layout of a decimal: positional while the point stands within 16 digits or after at most four
zeros, otherwise with an exponent. -/
def layout (digits : List Char) (power : Int) : List Char :=
  let count := digits.length
  let point := count + power
  if 0 ≤ power ∧ point ≤ 16 then
    digits ++ List.replicate power.toNat '0' ++ ['.', '0']
  else if 0 < point ∧ point ≤ 16 then
    digits.take point.toNat ++ '.' :: digits.drop point.toNat
  else if -5 < point ∧ point ≤ 0 then
    '0' :: '.' :: (List.replicate (-point).toNat '0' ++ digits)
  else
    let exponent := point - 1
    let exponentText := (if exponent < 0 then ['-'] else []) ++ Nat.toDigits 10 exponent.natAbs
    match digits with
    | [] => []
    | [d] => d :: 'e' :: exponentText
    | d :: rest => d :: '.' :: (rest ++ 'e' :: exponentText)

/-- The shortest text that reads back as this double. -/
def text (x : Binary64) : List Char :=
  let magnitude := x.bits.toNat % Nat.pow 2 63
  let sign := if Nat.pow 2 63 ≤ x.bits.toNat then ['-'] else []
  if magnitude = 0 then sign ++ ['0', '.', '0']
  else
    let (digits, power) := (Shortest.ofBits magnitude).decimal
    let (digits, power) := stripZeros 17 digits power
    sign ++ layout (Nat.toDigits 10 digits) power

end Binary64

end Ambient
