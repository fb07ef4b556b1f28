/-!
# Text

Text is a list of characters. Positions in a text are counted in bytes of its UTF-8 form, the
unit in which placeholder offsets are written.

* `bytes` is the length in bytes, `utf8` the bytes themselves;
* `dropBytes?` and `takeBytes` cut at a byte position;
* `isSpace` is the Unicode white space, `trimStart`, `trimEnd` and `trim` remove it;
* `before` orders texts by code points, which is the order of their bytes;
* `toNatBelow?` and `toNatInBase?` read a number, `ofNat` and `hex` write one;
* `splitAt`, `cut?` and `joinWith` take a text apart at a mark and put it together again.
-/

namespace LogTemplate

/-- A sequence of characters. -/
abbrev Text := List Char

namespace Text

/-- The length of the UTF-8 form. -/
def bytes : Text → Nat
  | [] => 0
  | c :: rest => c.utf8Size + bytes rest

@[simp] theorem bytes_nil : bytes [] = 0 := rfl

@[simp] theorem bytes_cons (c : Char) (rest : Text) :
    bytes (c :: rest) = c.utf8Size + bytes rest := rfl

@[simp] theorem bytes_append (s t : Text) : bytes (s ++ t) = bytes s + bytes t := by
  induction s with
  | nil => simp
  | cons c rest ih => simp [ih, Nat.add_assoc]

/-- The UTF-8 form. -/
def utf8 (t : Text) : List UInt8 := t.flatMap String.utf8EncodeChar

/-- The text from byte `n` on; `none` when `n` is beyond the end or inside a character. -/
def dropBytes? : Text → Nat → Option Text
  | t, 0 => some t
  | [], _ + 1 => none
  | c :: rest, n + 1 =>
    if c.utf8Size ≤ n + 1 then dropBytes? rest (n + 1 - c.utf8Size) else none

/-- The longest beginning of at most `n` bytes. -/
def takeBytes : Text → Nat → Text
  | [], _ => []
  | c :: rest, n =>
    if c.utf8Size ≤ n then c :: takeBytes rest (n - c.utf8Size) else []

theorem dropBytes?_bytes_append (s t : Text) : dropBytes? (s ++ t) s.bytes = some t := by
  induction s with
  | nil => simp [dropBytes?]
  | cons c rest ih =>
    have hc : 0 < c.utf8Size := Char.utf8Size_pos c
    obtain ⟨n, hn⟩ : ∃ n, c.utf8Size + bytes rest = n + 1 := ⟨c.utf8Size + bytes rest - 1, by omega⟩
    have hle : c.utf8Size ≤ n + 1 := by omega
    have hsub : n + 1 - c.utf8Size = bytes rest := by omega
    simp [hn, dropBytes?, hle, hsub, ih]

theorem takeBytes_bytes_append (s t : Text) : takeBytes (s ++ t) s.bytes = s := by
  induction s with
  | nil =>
    cases t with
    | nil => rfl
    | cons c rest =>
      have hc : 0 < c.utf8Size := Char.utf8Size_pos c
      simp [takeBytes, Nat.not_le.2 hc]
  | cons c rest ih => simp [takeBytes, ih]

/-- White space of the Unicode standard. -/
def isSpace (c : Char) : Bool :=
  let n := c.toNat
  (9 ≤ n && n ≤ 13) || n == 0x20 || n == 0x85 || n == 0xA0 || n == 0x1680 ||
    (0x2000 ≤ n && n ≤ 0x200A) || n == 0x2028 || n == 0x2029 || n == 0x202F ||
    n == 0x205F || n == 0x3000

/-- The text without the white space in front. -/
def trimStart (t : Text) : Text := t.dropWhile isSpace

/-- The text without the white space at its end. -/
def trimEnd : Text → Text
  | [] => []
  | c :: rest =>
    match trimEnd rest with
    | [] => if isSpace c then [] else [c]
    | kept => c :: kept

/-- The text without the white space at either end. -/
def trim (t : Text) : Text := trimEnd (trimStart t)

/-- The text holds nothing but white space. -/
def isBlank (t : Text) : Bool := t.all isSpace

/-- The code point of the character lies in one of the closed ranges. -/
def inRanges (ranges : List (Nat × Nat)) (c : Char) : Bool :=
  ranges.any fun (first, last) => first ≤ c.toNat && c.toNat ≤ last

/-- The order of texts by code points. -/
def before : Text → Text → Bool
  | [], [] => false
  | [], _ :: _ => true
  | _ :: _, [] => false
  | c :: s, d :: t => if c = d then before s t else c < d

/-- The parts of the text between occurrences of `mark`, of which there is always one more. -/
def splitAt (mark : Char) : Text → List Text
  | [] => [[]]
  | c :: rest =>
    if c = mark then [] :: splitAt mark rest
    else
      match splitAt mark rest with
      | part :: parts => (c :: part) :: parts
      | [] => [[c]]

/-- What stands before and after the first `mark`. -/
def cut? (mark : Char) : Text → Option (Text × Text)
  | [] => none
  | c :: rest =>
    if c = mark then some ([], rest)
    else (cut? mark rest).map fun (left, right) => (c :: left, right)

/-- The decimal digits of a number. -/
def ofNat (n : Nat) : Text := Nat.toDigits 10 n

/-- The number that a row of decimal digits stands for. -/
def digitsValue (digits : Text) : Nat :=
  digits.foldl (fun n c => 10 * n + (c.toNat - '0'.toNat)) 0

/-- A hexadecimal digit. -/
def hexDigit (n : Nat) : Char :=
  if n < 10 then Char.ofNat ('0'.toNat + n) else Char.ofNat ('a'.toNat + n - 10)

/-- The last `n` hexadecimal digits of a number. -/
def hex : Nat → Nat → Text
  | 0, _ => []
  | n + 1, x => hex n (x / 16) ++ [hexDigit (x % 16)]

/-- The value of a hexadecimal digit. -/
def hexValue? (c : Char) : Option Nat :=
  if c.isDigit then some (c.toNat - '0'.toNat)
  else if 'a' ≤ c && c ≤ 'f' then some (c.toNat - 'a'.toNat + 10)
  else if 'A' ≤ c && c ≤ 'F' then some (c.toNat - 'A'.toNat + 10)
  else none

/-- The value of a digit of a base up to sixteen. -/
def digitValue? (base : Nat) (c : Char) : Option Nat := (hexValue? c).filter (· < base)

/-- The number that a row of digits of a base up to sixteen stands for, behind the digits of `n`. -/
def readDigits? (base n : Nat) : Text → Option Nat
  | [] => some n
  | c :: rest => (digitValue? base c).bind fun d => readDigits? base (base * n + d) rest

/-- The number that a row of digits of a base up to sixteen stands for. -/
def toNatInBase? (base : Nat) (digits : Text) : Option Nat :=
  if digits.isEmpty then none else readDigits? base 0 digits

/-- A number in decimal digits below `limit`, which may carry a plus sign. -/
def toNatBelow? (limit : Nat) (t : Text) : Option Nat :=
  let digits := match t with
    | '+' :: rest => rest
    | _ => t
  if digits.isEmpty || !digits.all Char.isDigit then none
  else
    if digitsValue digits < limit then some (digitsValue digits) else none

/-- Texts set one after the other with `mark` between them. -/
def joinWith (mark : Text) : List Text → Text
  | [] => []
  | [t] => t
  | t :: ts => t ++ mark ++ joinWith mark ts

end Text

end LogTemplate
