import LogTemplate.Text.Basic

/-!
# Symbols of JSON

The words of JSON text: brackets, marks, strings, numbers and the three constants.

* `StringUnit` is a character of a string, or a code unit that was written in hexadecimal digits;
* `string?` reads a string behind its opening quote, `number?` a number;
* `symbols?` cuts a text into symbols. Blanks, tabs and line ends between symbols are dropped.
-/

namespace LogTemplate.Json

/-- A part of a string. -/
inductive StringUnit where
  | char (c : Char)
  | code (n : Nat)
  deriving DecidableEq, Repr

/-- A number as it is written. -/
structure Numeral where
  negative : Bool
  whole : Text
  fraction : Text
  /-- Whether the exponent is negative, and its digits. -/
  exponent : Option (Bool × Text)
  deriving DecidableEq, Repr

/-- A word of JSON text. -/
inductive Symbol where
  | beginArray
  | endArray
  | beginObject
  | endObject
  | colon
  | comma
  | null
  | bool (b : Bool)
  | number (n : Numeral)
  | string (units : List StringUnit)
  deriving DecidableEq, Repr

/-- White space between symbols. -/
def isBlank (c : Char) : Bool := c == ' ' || c == '\t' || c == '\n' || c == '\r'

/-- The code unit of four hexadecimal digits. -/
def codeUnit? (a b c d : Char) : Option Nat := Text.toNatInBase? 16 [a, b, c, d]

/-- The character that a backslash and a letter stand for. -/
def escape? : Char → Option Char
  | '"' => some '"'
  | '\\' => some '\\'
  | '/' => some '/'
  | 'b' => some '\x08'
  | 'f' => some '\x0c'
  | 'n' => some '\n'
  | 'r' => some '\r'
  | 't' => some '\t'
  | _ => none

/-- A string behind its opening quote, and what follows it. Control characters are refused. -/
def string? : Text → Option (List StringUnit × Text)
  | [] => none
  | '"' :: rest => some ([], rest)
  | ['\\'] => none
  | '\\' :: 'u' :: a :: b :: c :: d :: rest =>
    match codeUnit? a b c d with
    | some n => (string? rest).map fun (units, after) => (.code n :: units, after)
    | none => none
  | '\\' :: e :: rest =>
    match escape? e with
    | some c => (string? rest).map fun (units, after) => (.char c :: units, after)
    | none => none
  | c :: rest =>
    if c.toNat < 0x20 then none
    else (string? rest).map fun (units, after) => (.char c :: units, after)

/-- The digits at the beginning of a text, and what follows them. -/
def digits (text : Text) : Text × Text :=
  (text.takeWhile Char.isDigit, text.dropWhile Char.isDigit)

/-- The fraction of a number, if there is one; a point without digits is refused. -/
def fraction? : Text → Option (Text × Text)
  | '.' :: rest =>
    match digits rest with
    | ([], _) => none
    | found => some found
  | text => some ([], text)

/-- The sign of an exponent, where a minus makes it negative, and what follows it. -/
def unsignExponent : Text → Bool × Text
  | '+' :: rest => (false, rest)
  | '-' :: rest => (true, rest)
  | text => (false, text)

/-- The exponent of a number, if there is one; a mark without digits is refused. -/
def exponent? : Text → Option (Option (Bool × Text) × Text)
  | c :: rest =>
    if c = 'e' || c = 'E' then
      match digits (unsignExponent rest).2 with
      | ([], _) => none
      | (found, after) => some (some ((unsignExponent rest).1, found), after)
    else some (none, c :: rest)
  | [] => some (none, [])

/-- The digits in front of the point, and what follows them. A leading zero stands alone. -/
def whole : Text → Text × Text
  | '0' :: rest => (['0'], rest)
  | text => digits text

/-- A number without its sign. -/
def numeral? (negative : Bool) (text : Text) : Option (Numeral × Text) :=
  if (whole text).1.isEmpty then none
  else do
    let (fraction, rest) ← fraction? (whole text).2
    let (exponent, rest) ← exponent? rest
    return (⟨negative, (whole text).1, fraction, exponent⟩, rest)

/-- The symbol at the beginning of a text that is not blank, and what follows it. -/
def symbol? : Text → Option (Symbol × Text)
  | '[' :: rest => some (.beginArray, rest)
  | ']' :: rest => some (.endArray, rest)
  | '\x7b' :: rest => some (.beginObject, rest)
  | '\x7d' :: rest => some (.endObject, rest)
  | ':' :: rest => some (.colon, rest)
  | ',' :: rest => some (.comma, rest)
  | '"' :: rest => (string? rest).map fun (units, after) => (.string units, after)
  | '-' :: rest => (numeral? true rest).map fun (n, after) => (.number n, after)
  | 'n' :: 'u' :: 'l' :: 'l' :: rest => some (.null, rest)
  | 't' :: 'r' :: 'u' :: 'e' :: rest => some (.bool true, rest)
  | 'f' :: 'a' :: 'l' :: 's' :: 'e' :: rest => some (.bool false, rest)
  | text => (numeral? false text).map fun (n, after) => (.number n, after)

/-! ### Progress

Every symbol takes at least one character of the text. -/

theorem string?_shorter {text after : Text} {units : List StringUnit}
    (h : string? text = some (units, after)) : after.length < text.length := by
  fun_induction string? text generalizing units with
  | case1 => simp at h
  | case2 rest =>
    simp only [Option.some.injEq, Prod.mk.injEq] at h
    simp [← h.2]
  | case3 => simp at h
  | case4 a b c d rest n hn ih =>
    obtain ⟨found, hfound, he⟩ := Option.map_eq_some_iff.1 h
    cases he
    have := ih hfound
    simp only [List.length_cons]; omega
  | case5 => simp at h
  | case6 e rest _ c _ ih =>
    obtain ⟨found, hfound, he⟩ := Option.map_eq_some_iff.1 h
    cases he
    have := ih hfound
    simp only [List.length_cons]; omega
  | case7 => simp at h
  | case8 => simp at h
  | case9 c rest _ _ _ _ _ ih =>
    obtain ⟨found, hfound, he⟩ := Option.map_eq_some_iff.1 h
    cases he
    have := ih hfound
    simp only [List.length_cons]; omega

theorem length_digits (text : Text) :
    (digits text).1.length + (digits text).2.length = text.length := by
  rw [← List.length_append, digits, List.takeWhile_append_dropWhile]

theorem fraction?_shorter {text after found : Text} (h : fraction? text = some (found, after)) :
    after.length ≤ text.length := by
  unfold fraction? at h
  split at h
  · rename_i rest
    have := length_digits rest
    split at h
    · simp at h
    · simp only [Option.some.injEq] at h
      rw [h] at this
      simp only [List.length_cons] at this ⊢; omega
  · simp only [Option.some.injEq, Prod.mk.injEq] at h
    simp [h.2]

theorem unsignExponent_length (text : Text) : (unsignExponent text).2.length ≤ text.length := by
  unfold unsignExponent
  split <;> simp

theorem exponent?_shorter {text after : Text} {found : Option (Bool × Text)}
    (h : exponent? text = some (found, after)) : after.length ≤ text.length := by
  unfold exponent? at h
  split at h
  · rename_i c rest
    split at h
    · have hdigits := length_digits (unsignExponent rest).2
      have hsign := unsignExponent_length rest
      split at h
      · simp at h
      · rename_i hd
        simp only [Option.some.injEq, Prod.mk.injEq] at h
        rw [hd, h.2] at hdigits
        simp only [List.length_cons] at hdigits hsign ⊢; omega
    · simp only [Option.some.injEq, Prod.mk.injEq] at h
      simp [← h.2]
  · simp only [Option.some.injEq, Prod.mk.injEq] at h
    simp [← h.2]

theorem whole_shorter {text : Text} (h : (whole text).1.isEmpty = false) :
    (whole text).2.length < text.length := by
  unfold whole at h ⊢
  split
  · simp
  · have hdigits := length_digits text
    have : (digits text).1 ≠ [] := by simpa using h
    have := List.length_pos_iff.2 this
    omega

theorem numeral?_shorter {negative : Bool} {text after : Text} {n : Numeral}
    (h : numeral? negative text = some (n, after)) : after.length < text.length := by
  unfold numeral? at h
  split at h
  · simp at h
  · rename_i hw
    have hwhole := whole_shorter (by simpa using hw : (whole text).1.isEmpty = false)
    obtain ⟨⟨fraction, rest⟩, hf, h⟩ := Option.bind_eq_some_iff.1 h
    obtain ⟨⟨exponent, rest'⟩, he, h⟩ := Option.bind_eq_some_iff.1 h
    have hfraction := fraction?_shorter hf
    have hexponent := exponent?_shorter he
    cases h
    omega

theorem symbol?_shorter {text after : Text} {symbol : Symbol}
    (h : symbol? text = some (symbol, after)) : after.length < text.length := by
  unfold symbol? at h
  split at h
  · cases h; simp
  · cases h; simp
  · cases h; simp
  · cases h; simp
  · cases h; simp
  · cases h; simp
  · obtain ⟨found, hfound, he⟩ := Option.map_eq_some_iff.1 h
    cases he
    exact Nat.lt_succ_of_lt (string?_shorter hfound)
  · obtain ⟨found, hfound, he⟩ := Option.map_eq_some_iff.1 h
    cases he
    exact Nat.lt_succ_of_lt (numeral?_shorter hfound)
  · cases h; simp only [List.length_cons]; omega
  · cases h; simp only [List.length_cons]; omega
  · cases h; simp only [List.length_cons]; omega
  · obtain ⟨found, hfound, he⟩ := Option.map_eq_some_iff.1 h
    cases he
    exact numeral?_shorter hfound

/-- The symbols of a text. -/
def symbols? (text : Text) : Option (List Symbol) :=
  match text with
  | [] => some []
  | c :: rest =>
    if isBlank c then symbols? rest
    else
      match h : symbol? (c :: rest) with
      | none => none
      | some (symbol, after) =>
        have : after.length < (c :: rest).length := symbol?_shorter h
        (symbols? after).map (symbol :: ·)
termination_by text.length
decreasing_by
  · exact Nat.lt_succ_self _
  · assumption

end LogTemplate.Json
