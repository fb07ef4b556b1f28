import LogTemplate.Decimal
import LogTemplate.Json.Tree
import LogTemplate.Text.Table

/-!
# JSON values

What well-formed JSON stands for. A tree has no value when it is nested too deeply, when a string
holds half of a surrogate pair, or when a number is too large.

* `decodeString?` joins surrogate pairs, `Number.ofNumeral?` reads a number;
* `Tree.value?` is the value of a tree, `Value.parse?` that of a text;
* `Number.print` writes a number.
-/

namespace LogTemplate.Json

/-- A number: an integer of 64 bits, or a double. -/
inductive Number where
  | integer (n : Int)
  | double (x : Float)
  deriving Repr

/-- A JSON value. The members of an object are in the order of their keys. -/
inductive Value where
  | null
  | bool (b : Bool)
  | number (n : Number)
  | string (s : Text)
  | array (items : List Value)
  | object (members : List (Text × Value))

/-! ### Strings -/

/-- The first half of a surrogate pair. -/
def isHighSurrogate (n : Nat) : Bool := 0xD800 ≤ n && n < 0xDC00

/-- The second half of a surrogate pair. -/
def isLowSurrogate (n : Nat) : Bool := 0xDC00 ≤ n && n < 0xE000

/-- The text of a string; `none` when half of a surrogate pair stands alone. -/
def decodeString? : List StringUnit → Option Text
  | [] => some []
  | .char c :: rest => (decodeString? rest).map (c :: ·)
  | .code n :: rest =>
    if isLowSurrogate n then none
    else if isHighSurrogate n then
      match rest with
      | .code m :: rest =>
        if isLowSurrogate m then
          (decodeString? rest).map
            (Char.ofNat (0x10000 + (n - 0xD800) * 0x400 + (m - 0xDC00)) :: ·)
        else none
      | _ => none
    else (decodeString? rest).map (Char.ofNat n :: ·)

/-! ### Numbers -/

namespace Number

/-- Numbers below this one fit into 64 bits. -/
def wordLimit : Nat := Nat.pow 2 64

/-- Take digits into a number as long as it fits into 64 bits; the digits that remain. -/
def gather (n : Nat) : Text → Nat × Text
  | [] => (n, [])
  | c :: rest =>
    let m := 10 * n + (c.toNat - '0'.toNat)
    if m < wordLimit then gather m rest else (n, c :: rest)

/-- `x / 10 ^ n`, by at most 308 places at a time. -/
def shrink (x : Float) (n : Nat) : Float :=
  if n ≤ 308 then x / Float.ofScientific 1 false n
  else if x == 0 then x
  else shrink (x / Float.ofScientific 1 false 308) (n - 308)
termination_by n

/-- `significand · 10 ^ exponent`; `none` when it is too large. -/
def scale? (significand : Nat) (exponent : Int) : Option Float :=
  -- Reading the digits and scaling them round once each, so the last bit may not be the nearest.
  let x := significand.toUInt64.toFloat
  if exponent < 0 then some (shrink x exponent.natAbs)
  else if exponent.natAbs ≤ 308 then
    let y := x * Float.ofScientific 1 false exponent.natAbs
    if y.isInf then none else some y
  else if x == 0 then some x
  else none

/-- Exponents below this one are told apart. -/
def exponentLimit : Nat := Nat.pow 2 31

/-- The number with a sign in front. -/
def signed (negative : Bool) (x : Float) : Number := .double (if negative then -x else x)

/-- What a numeral stands for. Integers of 64 bits are exact; digits beyond 64 bits only count as
places. `none` when the number is too large for a double. -/
def ofNumeral? (t : Numeral) : Option Number :=
  let (n, more) := gather 0 t.whole
  match more, t.fraction, t.exponent with
  | [], [], none =>
    if !t.negative then some (.integer n)
    else if n = 0 || Nat.pow 2 63 < n then some (signed true n.toUInt64.toFloat)
    else some (.integer (-n))
  | _, _, _ =>
    let (m, dropped) := gather n t.fraction
    let places : Int := more.length - (t.fraction.length - dropped.length : Nat)
    match t.exponent with
    | none => (scale? m places).map (signed t.negative)
    | some (negative, digits) =>
      match Text.toNatBelow? exponentLimit digits with
      | some e =>
        let e : Int := if negative then places - e else places + e
        (scale? m e).map (signed t.negative)
      | none => if m ≠ 0 && !negative then none else some (signed t.negative 0)

/-- Doubles are written without an exponent from `0.00001` up to below `10 ^ 16`. -/
def style : Decimal.Style := ⟨-5, 16⟩

/-- A number in JSON text. A double that is not finite has no numeral there. -/
def print : Number → Text
  | integer n => if n < 0 then '-' :: Text.ofNat n.natAbs else Text.ofNat n.natAbs
  | double x =>
    if Decimal.isFinite x.toBits.toNat then style.print x.toBits.toNat else "null".toList

end Number

/-! ### Values -/

/-- Arrays and objects may be nested less deeply than this. -/
def depthLimit : Nat := 128

mutual

/-- The value of a tree that may hold `depth` levels of arrays and objects. -/
def Tree.value? (depth : Nat) : Tree → Option Value
  | .null => some .null
  | .bool b => some (.bool b)
  | .number n => (Number.ofNumeral? n).map .number
  | .string units => (decodeString? units).map .string
  | .array items =>
    match depth with
    | 0 => none
    | depth + 1 => (itemValues? depth items).map .array
  | .object members =>
    match depth with
    | 0 => none
    | depth + 1 => (memberValues? depth members).map fun found => .object (Table.ofEntries found)
termination_by structural t => t

/-- The values of the items of an array. -/
def itemValues? (depth : Nat) : List Tree → Option (List Value)
  | [] => some []
  | t :: rest =>
    match t.value? depth, itemValues? depth rest with
    | some v, some values => some (v :: values)
    | _, _ => none
termination_by structural items => items

/-- The keys and values of the members of an object. -/
def memberValues? (depth : Nat) : List (List StringUnit × Tree) → Option (List (Text × Value))
  | [] => some []
  | (key, t) :: rest =>
    match decodeString? key, t.value? depth, memberValues? depth rest with
    | some k, some v, some values => some ((k, v) :: values)
    | _, _, _ => none
termination_by structural members => members

end

/-- The value of a text. -/
def Value.parse? (text : Text) : Option Value :=
  (Tree.parse? text).bind (Tree.value? (depthLimit - 1))

end LogTemplate.Json
