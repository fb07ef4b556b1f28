import LogTemplate.Text.Basic

/-!
# Decimal text of floating-point numbers

The fewest digits that read back as the same number, and how they are laid out.

* `Binary` is a positive floating-point number `m · 2 ^ q` with the interval of the reals that
  round to it, and `Binary.shortest` the decimal of fewest digits in that interval, of several
  the nearest;
* `isFinite` tells infinities and what is no number from the others;
* `Style` says which numbers are written without an exponent, `Style.print` writes a number.
-/

namespace LogTemplate.Decimal

/-- The decimal number `digits · 10 ^ exponent`. -/
structure Scientific where
  digits : Nat
  exponent : Int
  deriving DecidableEq, Repr

/-- A positive binary floating-point number: its value is `4 · mantissa / 4` units of
`2 ^ exponent`. The numbers nearest to it lie `4` quarters of a unit above and, below, `4` or, at a
power of two, `2` quarters of a unit away. -/
structure Binary where
  mantissa : Nat
  exponent : Int
  /-- The neighbour below is only half as far away as the one above. -/
  atPower : Bool
  deriving DecidableEq, Repr

namespace Binary

/-- The fields of a double: mantissa and exponent of a finite number. -/
def ofBits (bits : Nat) : Binary :=
  let fraction := bits % Nat.pow 2 52
  let field : Nat := bits / Nat.pow 2 52 % Nat.pow 2 11
  if field = 0 then ⟨fraction, -1074, false⟩
  else ⟨Nat.pow 2 52 + fraction, (field : Int) - 1075, fraction = 0 && field ≠ 1⟩

/-- Numerators of the value and of the ends of its interval over `2 ^ (2 - exponent)`, or times
`2 ^ (exponent - 2)`. -/
def scale (b : Binary) : Nat := Nat.pow 2 (b.exponent - 2).toNat

/-- The common denominator. -/
def denominator (b : Binary) : Nat := Nat.pow 2 (2 - b.exponent).toNat

/-- The value over the common denominator. -/
def value (b : Binary) : Nat := 4 * b.mantissa * b.scale

/-- The lower end of the interval over the common denominator. -/
def low (b : Binary) : Nat := (4 * b.mantissa - if b.atPower then 1 else 2) * b.scale

/-- The upper end of the interval over the common denominator. -/
def high (b : Binary) : Nat := (4 * b.mantissa + 2) * b.scale

/-- The ends of the interval round to the number itself when its mantissa is even. -/
def closed (b : Binary) : Bool := b.mantissa % 2 = 0

/-- The place of the first digit: the `e` with `10 ^ e ≤ n / d < 10 ^ (e + 1)`. -/
def firstPlace (n d : Nat) : Int :=
  if d ≤ n then ((Nat.toDigits 10 (n / d)).length : Int) - 1
  else -(below 400 1 : Nat)
where
  /-- The number of places behind the point up to the first digit. -/
  below : Nat → Nat → Nat
    | 0, j => j
    | fuel + 1, j => if d ≤ n * Nat.pow 10 j then j else below fuel (j + 1)

/-- Of the two neighbours of the value on the grid of step `10 ^ k`, the one in the interval, of
two the nearer one, and of two equally near ones the even one. -/
def onGrid? (b : Binary) (k : Int) : Option Nat :=
  -- One of these two is one; they bring the grid and the value to whole numbers.
  let up := Nat.pow 10 k.toNat
  let down := Nat.pow 10 (-k).toNat
  let step := up * b.denominator
  let value := b.value * down
  let inside (c : Nat) : Bool :=
    let x := c * step
    if b.closed then b.low * down ≤ x && x ≤ b.high * down
    else b.low * down < x && x < b.high * down
  let floor := value / step
  let left := value - floor * step
  let right := (floor + 1) * step - value
  match inside floor, inside (floor + 1) with
  | true, true =>
    if left < right then some floor
    else if right < left then some (floor + 1)
    else some (if floor % 2 = 0 then floor else floor + 1)
  | true, false => some floor
  | false, true => some (floor + 1)
  | false, false => none

/-- The decimal with the fewest digits, at least `17 - fuel`, that lies in the interval. -/
def shortestFrom (b : Binary) (first : Int) : Nat → Scientific
  | 0 => ⟨b.value * Nat.pow 10 (16 - first).toNat / b.denominator, first - 16⟩
  | fuel + 1 =>
    let k := first - (16 - fuel : Nat)
    match b.onGrid? k with
    | some c => ⟨c, k⟩
    | none => shortestFrom b first fuel

/-- The decimal with the fewest digits that rounds to the number. -/
def shortest (b : Binary) : Scientific := shortestFrom b (firstPlace b.value b.denominator) 17

end Binary

/-- The digits without the zeros at their end, with the number of these. -/
def dropZeros : Text → Text × Nat
  | [] => ([], 0)
  | c :: rest =>
    match dropZeros rest with
    | ([], n) => if c = '0' then ([], n + 1) else ([c], n)
    | (kept, n) => (c :: kept, n)

/-- Which numbers are written without an exponent: those whose first digit stands in a place from
`least` to below `limit`. -/
structure Style where
  least : Int
  limit : Int
  deriving DecidableEq, Repr

/-- The double of these bits is finite: not all bits of its exponent are set. -/
def isFinite (bits : Nat) : Bool := bits / Nat.pow 2 52 % Nat.pow 2 11 ≠ Nat.pow 2 11 - 1

namespace Style

/-- Digits whose first one stands in place `e`. -/
def layout (style : Style) (digits : Text) (e : Int) : Text :=
  if style.least ≤ e && e < style.limit then
    if e < 0 then "0.".toList ++ List.replicate ((-e).toNat - 1) '0' ++ digits
    else
      let whole := e.toNat + 1
      let fraction := digits.drop whole
      digits.take whole ++ List.replicate (whole - digits.length) '0' ++ ['.'] ++
        (if fraction.isEmpty then ['0'] else fraction)
  else
    let fraction := digits.drop 1
    digits.take 1 ++ (if fraction.isEmpty then [] else '.' :: fraction) ++ ['e'] ++
      (if e < 0 then '-' else '+') :: Text.ofNat e.natAbs

/-- A finite double, given by its bits. -/
def print (style : Style) (bits : Nat) : Text :=
  let sign : Text := if bits / Nat.pow 2 63 % 2 = 1 then ['-'] else []
  if bits % Nat.pow 2 63 = 0 then sign ++ "0.0".toList
  else
    let s := (Binary.ofBits bits).shortest
    let all := Text.ofNat s.digits
    sign ++ style.layout (dropZeros all).1 (s.exponent + all.length - 1)

end Style

end LogTemplate.Decimal
