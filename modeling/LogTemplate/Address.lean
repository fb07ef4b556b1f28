import LogTemplate.Text.Alphanumeric
import LogTemplate.Token

/-!
# Colon-separated addresses

Runs of hexadecimal digits and colons: MAC addresses, IPv6 addresses, and other runs with at least
two colons, which are literals.

* `isWordChar` is the class of the characters that continue a word, after which no address ends;
* `ColonRun` is what is known of the run that was read so far;
* `ColonRun.read?` reads on to the end of the run and gives its length and kind.
-/

namespace LogTemplate

/-- A character that continues a word. -/
def isWordChar (c : Char) : Bool :=
  c ∈ ['+', '-', '_', '\\', '%', '*', '@', '$', '.', '/', '~'] || Text.isAlphanumeric c

/-- A hexadecimal digit. -/
def isHexDigit (c : Char) : Bool :=
  c.isDigit || ('a' ≤ c && c ≤ 'f') || ('A' ≤ c && c ≤ 'F')

/-- A run of hexadecimal digits and colons. -/
structure ColonRun where
  /-- Digits at the end of the run. -/
  digits : Nat := 0
  /-- Colons at the end of the run. -/
  streak : Nat := 0
  /-- Colons in the run. -/
  colons : Nat := 0
  /-- The longest row of adjacent colons. -/
  longest : Nat := 0
  /-- Rows of two adjacent colons. -/
  doubles : Nat := 0
  deriving DecidableEq, Repr

namespace ColonRun

/-- One more digit. A fifth digit in a row ends all hope of an address. -/
def digit? (r : ColonRun) : Option ColonRun :=
  if r.digits < 4 then some { r with digits := r.digits + 1, streak := 0 } else none

/-- One more colon. A third colon in a row ends all hope of an address. -/
def colon? (r : ColonRun) : Option ColonRun :=
  if r.streak < 2 then
    some {
      digits := 0
      streak := r.streak + 1
      colons := r.colons + 1
      longest := max r.longest (r.streak + 1)
      doubles := if r.streak = 1 then r.doubles + 1 else r.doubles }
  else none

/-- What a finished run is. A run with fewer than two colons is nothing. -/
def kind? (r : ColonRun) : Option Kind :=
  if r.colons ≤ 1 then none
  else if r.colons = 5 && r.longest = 1 then some .mac
  else if (r.doubles = 1 && r.colons ≤ 7) || (r.colons = 7 && r.doubles = 0) then some .ipv6
  else some .literal

/-- Read on after `n` characters: the length of the whole run and its kind. -/
def read? (r : ColonRun) (n : Nat) : Text → Option (Nat × Kind)
  | [] => r.kind?.map (n, ·)
  | c :: rest =>
    if isHexDigit c then
      match r.digit? with
      | some r' => read? r' (n + 1) rest
      | none => none
    else if c = ':' then
      match r.colon? with
      | some r' => read? r' (n + 1) rest
      | none => none
    else if isWordChar c then none
    else r.kind?.map (n, ·)

end ColonRun

/-- The address at the beginning of a text: its length in characters and its kind. -/
def address? (text : Text) : Option (Nat × Kind) := ColonRun.read? {} 0 text

end LogTemplate
