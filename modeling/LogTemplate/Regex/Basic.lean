import LogTemplate.Text.Alphanumeric

/-!
# Regular expressions

Regular expressions over characters, with the two anchors, and the places where a match can end.

* `CharSet` is a class of characters, possibly negated;
* `Regex.ends` gives the positions at which a match that starts at a given position can end;
* `Regex.isMatch` asks for a match anywhere in a text.
-/

namespace LogTemplate

/-- A part of a character class. -/
inductive CharItem where
  | range (first last : Char)
  | digit (positive : Bool)
  | space (positive : Bool)
  | word (positive : Bool)
  deriving DecidableEq, Repr

/-- The character belongs to the part. -/
def CharItem.contains : CharItem → Char → Bool
  | .range first last, c => first ≤ c && c ≤ last
  | .digit positive, c => Text.isDecimalDigit c == positive
  | .space positive, c => Text.isSpace c == positive
  | .word positive, c => (Text.isAlphanumeric c || c == '_') == positive

/-- A class of characters: the union of its parts, or all other characters. -/
structure CharSet where
  negated : Bool
  items : List CharItem
  deriving DecidableEq, Repr

/-- The character belongs to the class. -/
def CharSet.contains (s : CharSet) (c : Char) : Bool :=
  (s.items.any (·.contains c)) != s.negated

/-- The class of one character. -/
def CharSet.single (c : Char) : CharSet := ⟨false, [.range c c]⟩

/-- Every character but the line feed. -/
def CharSet.dot : CharSet := ⟨true, [.range '\n' '\n']⟩

/-- A regular expression. -/
inductive Regex where
  | empty
  | one (set : CharSet)
  | start
  | finish
  | both (a b : Regex)
  | either (a b : Regex)
  | times (a : Regex) (least : Nat) (most : Option Nat)
  deriving DecidableEq, Repr

namespace Regex

/-- The positions reached from `places` by at most `n` steps. -/
def reach (step : Nat → List Nat) : Nat → List Nat → List Nat
  | 0, places => places
  | n + 1, places => reach step n (places ++ (places.flatMap step)).eraseDups

/-- The positions reached from `places` by exactly `n` steps. -/
def advance (step : Nat → List Nat) : Nat → List Nat → List Nat
  | 0, places => places
  | n + 1, places => advance step n (places.flatMap step).eraseDups

/-- The positions at which a match that starts at position `i` of the text can end. -/
def ends (text : Text) : Regex → Nat → List Nat
  | .empty, i => [i]
  | .one set, i =>
    match text[i]? with
    | some c => if set.contains c then [i + 1] else []
    | none => []
  | .start, i => if i = 0 then [i] else []
  | .finish, i => if i = text.length then [i] else []
  | .both a b, i => ((ends text a i).flatMap (ends text b)).eraseDups
  | .either a b, i => (ends text a i ++ ends text b i).eraseDups
  | .times a least most, i =>
    -- Without an upper bound, each repetition that reaches a new position takes a character.
    let more := match most with
      | some n => n - least
      | none => text.length + 1 - i
    reach (ends text a) more (advance (ends text a) least [i])

/-- Some part of the text matches. -/
def isMatch (r : Regex) (text : Text) : Bool :=
  (List.range (text.length + 1)).any fun i => !(r.ends text i).isEmpty

end Regex

end LogTemplate
