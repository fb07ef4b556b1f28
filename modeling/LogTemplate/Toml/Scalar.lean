import LogTemplate.Toml.Value

/-!
# Scalars of TOML

Values that are written without quotes: truth values, numbers, dates and times.

* `integer?` reads an integer in one of four bases, `isFloat` tells other numbers;
* `isTime` tells dates and times;
* `Value.ofScalar?` reads a scalar.
-/

namespace LogTemplate.Toml

/-! ### Numbers -/

/-- Digits without the underscores that may stand between two of them. -/
def joinDigits? (isDigit : Char → Bool) (text : Text) : Option Text :=
  let groups := Text.splitAt '_' text
  if groups.all fun group => !group.isEmpty && group.all isDigit then some groups.flatten else none

/-- Decimal digits that do not begin with a superfluous zero. -/
def whole? (text : Text) : Option Text :=
  if text.head? == some '0' && text.length ≠ 1 then none else joinDigits? Char.isDigit text

/-- A sign in front of a text; a minus makes it negative. -/
def unsign : Text → Bool × Text
  | '-' :: rest => (true, rest)
  | '+' :: rest => (false, rest)
  | text => (false, text)

/-- The integers that can be read: from `-2 ^ 127` to below `2 ^ 128`. -/
def inRange (n : Int) : Bool := -Nat.pow 2 127 ≤ n && n < Nat.pow 2 128

/-- The number of digits in a base. -/
def inBase? (base : Nat) (digits : Text) : Option Int := do
  let digits ← joinDigits? (fun c => (Text.digitValue? base c).isSome) digits
  return (← Text.toNatInBase? base digits : Nat)

/-- An integer. Other bases than ten are marked and take no sign. -/
def integer? : Text → Option Int
  | '0' :: 'x' :: digits => inBase? 16 digits
  | '0' :: 'o' :: digits => inBase? 8 digits
  | '0' :: 'b' :: digits => inBase? 2 digits
  | text => do
    let (negative, body) := unsign text
    let n ← Text.toNatInBase? 10 (← whole? body)
    return if negative then -n else n

/-- The numbers that round to a finite double lie below `2 ^ 1024 - 2 ^ 970`. -/
def finiteLimit : Nat := Nat.pow 2 1024 - Nat.pow 2 970

/-- `digits · 10 ^ exponent` is below the limit of finite numbers. Numbers with many more or fewer
places than the limit are told by their places alone. -/
def isFinite (digits : Text) (exponent : Int) : Bool :=
  let digits := digits.dropWhile (· = '0')
  let places : Int := digits.length + exponent
  if digits.isEmpty || places < 300 then true
  else if 320 < places then false
  else
    Text.digitsValue digits * Nat.pow 10 exponent.toNat <
      finiteLimit * Nat.pow 10 (-exponent).toNat

/-- An exponent in decimal digits with a sign. -/
def exponent? (text : Text) : Option Int := do
  let (negative, body) := unsign text
  let n := Text.digitsValue (← joinDigits? Char.isDigit body)
  return if negative then -n else n

/-- The number is finite, and it is written with a fraction or an exponent or both. -/
def isDecimal (body : Text) : Bool :=
  let isMark (c : Char) : Bool := c == 'e' || c == 'E'
  let mantissa := body.takeWhile (!isMark ·)
  let power? := match body.dropWhile (!isMark ·) with
    | [] => some 0
    | _ :: text => exponent? text
  let digits? := match Text.cut? '.' mantissa with
    | none => if body.any isMark then (whole? mantissa).map (·, []) else none
    | some (left, right) => do return (← whole? left, ← joinDigits? Char.isDigit right)
  match digits?, power? with
  | some (left, right), some power => isFinite (left ++ right) (power - right.length)
  | _, _ => false

/-- A number that is no integer. -/
def isFloat (text : Text) : Bool :=
  let body := (unsign text).2
  body = "inf".toList || body = "nan".toList || isDecimal body

/-! ### Dates and times -/

/-- The number of exactly so many digits. -/
def fixed? (length : Nat) (text : Text) : Option Nat :=
  if text.length = length && text.all Char.isDigit then some (Text.digitsValue text) else none

/-- The days of a month. -/
def daysIn (year month : Nat) : Nat :=
  if month = 2 then
    if year % 4 = 0 && (year % 100 ≠ 0 || year % 400 = 0) then 29 else 28
  else if month ∈ [4, 6, 9, 11] then 30
  else 31

/-- A date `YYYY-MM-DD`. -/
def isDate (text : Text) : Bool :=
  match Text.splitAt '-' text with
  | [year, month, day] =>
    match fixed? 4 year, fixed? 2 month, fixed? 2 day with
    | some year, some month, some day =>
      1 ≤ month && month ≤ 12 && 1 ≤ day && day ≤ daysIn year month
    | _, _, _ => false
  | _ => false

/-- Two digits that stand for a number up to `last`. -/
def isField (last : Nat) (text : Text) : Bool := (fixed? 2 text).any (· ≤ last)

/-- Seconds, which may have a fraction. -/
def isSeconds (text : Text) : Bool :=
  match Text.cut? '.' text with
  | none => isField 60 text
  | some (whole, fraction) => isField 60 whole && !fraction.isEmpty && fraction.all Char.isDigit

/-- A time `hh:mm` or `hh:mm:ss`. -/
def isClock (text : Text) : Bool :=
  match Text.splitAt ':' text with
  | [hour, minute] => isField 23 hour && isField 59 minute
  | [hour, minute, second] => isField 23 hour && isField 59 minute && isSeconds second
  | _ => false

/-- A difference `hh:mm` to universal time. -/
def isShift (text : Text) : Bool :=
  match Text.splitAt ':' text with
  | [hour, minute] => isField 23 hour && isField 59 minute
  | _ => false

/-- A time, which may be followed by its difference to universal time. -/
def isPlacedClock (text : Text) : Bool :=
  let isEnd (c : Char) : Bool := c ∈ "Zz+-".toList
  let clock := text.takeWhile (!isEnd ·)
  isClock clock &&
    match text.dropWhile (!isEnd ·) with
    | [] => true
    | sign :: shift => if sign = 'Z' || sign = 'z' then shift.isEmpty else isShift shift

/-- The length of a date. -/
def dateLength : Nat := 10

/-- A date, a time, or both with a mark between them. -/
def isTime (text : Text) : Bool :=
  isClock text || isDate text ||
    (isDate (text.take dateLength) &&
      match text.drop dateLength with
      | mark :: clock => mark ∈ "Tt ".toList && isPlacedClock clock
      | [] => false)

/-! ### Scalars -/

/-- A value that is written without quotes. -/
def Value.ofScalar? (text : Text) : Option Value :=
  if text = "true".toList then some (.boolean true)
  else if text = "false".toList then some (.boolean false)
  else
    match integer? text with
    | some n => if inRange n then some (.integer n) else none
    | none =>
      if isFloat text then some (.float text)
      else if isTime text then some (.time text)
      else none

end LogTemplate.Toml
