/-!
# Shortest decimals of binary floating-point values

A finite positive double is `m * 2 ^ q`. Among all decimals that round to it, this module picks one
with the fewest digits, and of those the nearest to the exact value.

## Main definitions

* `Shortest.Interval`: a value and the ends of the interval that rounds to it, as fractions over one
  denominator.
* `Shortest.ofBits`: the interval of a finite positive double.
* `Shortest.decimal`: the digits and the power of ten of the shortest decimal in an interval.

## Design notes

All arithmetic is exact. On the grid of decimals with `n` digits only the two neighbours of the
value have to be tested: if some point of the grid lies in the interval, so does one of them.
-/

namespace Ambient.Shortest

/-- A value between the ends of an interval; all three are numerators over one denominator. -/
structure Interval where
  value : Nat
  lower : Nat
  upper : Nat
  denominator : Nat
  /-- Whether the two ends belong to the interval. -/
  closed : Bool

/-- The interval of reals that round to the finite positive double with the given bits. A boundary
lies half way to the neighbour, which below a power of two is only half as far. -/
def ofBits (bits : Nat) : Interval :=
  let fraction : Nat := bits % Nat.pow 2 52
  let exponent : Nat := bits / Nat.pow 2 52 % Nat.pow 2 11
  let m := if exponent = 0 then fraction else fraction + Nat.pow 2 52
  let q : Int := ((max exponent 1 : Nat) : Int) - 1077
  let below := if fraction = 0 ∧ exponent > 1 then 1 else 2
  let scale := Nat.pow 2 q.toNat
  { value := 4 * m * scale
    lower := (4 * m - below) * scale
    upper := (4 * m + 2) * scale
    denominator := Nat.pow 2 (-q).toNat
    closed := m % 2 = 0 }

/-- Whether `digits * 10 ^ power` lies in the interval. -/
def Interval.admits (i : Interval) (digits : Nat) (power : Int) : Bool :=
  let point := digits * Nat.pow 10 power.toNat * i.denominator
  let scale := Nat.pow 10 (-power).toNat
  if i.closed then i.lower * scale ≤ point && point ≤ i.upper * scale
  else i.lower * scale < point && point < i.upper * scale

/-- The number of zeros right after the decimal point of a value below one, counted from `count` on.
No double has more than 400 of them. -/
def Interval.zerosFrom (i : Interval) : Nat → Nat → Nat
  | 0, count => count
  | fuel + 1, count =>
    if i.denominator ≤ i.value * Nat.pow 10 (count + 1) then count else i.zerosFrom fuel (count + 1)

/-- The number of digits before the decimal point; zero or negative below one tenth. -/
def Interval.magnitude (i : Interval) : Int :=
  let whole := i.value / i.denominator
  if whole = 0 then -(i.zerosFrom 400 0 : Int) else (Nat.toDigits 10 whole).length

/-- The best decimal with `count` digits, if one lies in the interval. Of two neighbours the nearer
is taken, and of two equally near ones the even one. -/
def Interval.decimalOf? (i : Interval) (count : Nat) : Option (Nat × Int) :=
  let power := i.magnitude - count
  let scaled := i.value * Nat.pow 10 (-power).toNat
  let step := i.denominator * Nat.pow 10 power.toNat
  let low := scaled / step
  let remainder := scaled % step
  match i.admits low power, i.admits (low + 1) power with
  | false, false => none
  | true, false => some (low, power)
  | false, true => some (low + 1, power)
  | true, true =>
    if 2 * remainder < step then some (low, power)
    else if step < 2 * remainder then some (low + 1, power)
    else if low % 2 = 0 then some (low, power) else some (low + 1, power)

/-- The digits and the power of ten of the shortest decimal; seventeen digits always suffice. -/
def Interval.decimal (i : Interval) : Nat × Int :=
  ((List.range 17).findSome? fun n => i.decimalOf? (n + 1)).getD (i.value / i.denominator, 0)

end Ambient.Shortest
