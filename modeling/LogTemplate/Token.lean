import LogTemplate.Text.Basic

/-!
# Tokens

A token is one positional element of a message or of a template.

* `Kind` is the shape class of a token, `Kind.accepts` says which kinds may stand in for which;
* `Tag` names the meaning of a value; tag zero is the reserved unknown tag;
* `Modifier` says how many tokens a placeholder takes;
* `Token` is the token itself, `Token.isPlaceholder` tells placeholders from literals.
-/

namespace LogTemplate

/-- The shape class of a token. -/
inductive Kind where
  | unknown
  | literal
  | integer
  | float
  | ipv4
  | ipv6
  | mac
  | uri
  | string
  | time
  | multiline
  deriving DecidableEq, Repr, Inhabited

namespace Kind

/-- All kinds in their order. -/
def all : List Kind :=
  [unknown, literal, integer, float, ipv4, ipv6, mac, uri, string, time, multiline]

/-- The name of a kind in pattern text. -/
def name : Kind → Text
  | unknown => "unknown".toList
  | literal => "literal".toList
  | integer => "integer".toList
  | float => "float".toList
  | ipv4 => "ipv4".toList
  | ipv6 => "ipv6".toList
  | mac => "mac".toList
  | uri => "uri".toList
  | string => "string".toList
  | time => "time".toList
  | multiline => "multiline".toList

/-- The kind of that name. -/
def ofName? (name : Text) : Option Kind := all.find? (·.name = name)

theorem mem_all (k : Kind) : k ∈ all := by cases k <;> decide

theorem ofName?_name (k : Kind) : ofName? k.name = some k := by cases k <;> decide

/-- A placeholder may be of this kind: all but `unknown` and `literal`. -/
def isPlaceholder : Kind → Bool
  | unknown | literal => false
  | _ => true

/-- A value of kind `input` may fill a place of this kind: equal kinds, any scalar in a string, an
integer in a float. -/
def accepts (slot input : Kind) : Bool :=
  slot == input ||
    match slot with
    | string => input ∈ [literal, integer, float, uri, mac, ipv6, ipv4]
    | float => input == integer
    | _ => false

@[simp] theorem accepts_self (k : Kind) : k.accepts k = true := by simp [accepts]

/-- The rank that decides between equally frequent kinds; the lowest is the most specific. -/
def specificity : Kind → Nat
  | integer => 0
  | float => 1
  | ipv4 => 2
  | string | literal => 3
  | ipv6 => 4
  | mac => 5
  | uri => 6
  | time => 7
  | multiline => 8
  | unknown => 9

end Kind

/-- The meaning of a value, by its number in a vocabulary. -/
structure Tag where
  id : Nat
  deriving DecidableEq, Repr, Inhabited

/-- No known meaning. -/
def Tag.unknown : Tag := ⟨0⟩

/-- How many tokens a placeholder takes. -/
inductive Modifier where
  /-- Exactly one token. -/
  | single
  /-- One or more tokens of the placeholder's kind. -/
  | plus
  /-- One or more tokens of any kind, up to a stop word or to the end. -/
  | minus
  /-- Any number of tokens of the placeholder's kind. -/
  | star
  deriving DecidableEq, Repr, Inhabited

namespace Modifier

/-- The sign of a modifier in pattern text. -/
def sign? : Modifier → Option Text
  | single => none
  | plus => some ['+']
  | minus => some ['-']
  | star => some ['*']

/-- The modifier of a sign. -/
def ofSign? (sign : Text) : Option Modifier :=
  if sign = ['+'] then some plus
  else if sign = ['-'] then some minus
  else if sign = ['*'] then some star
  else none

theorem ofSign?_eq_some_iff {sign : Text} {m : Modifier} :
    ofSign? sign = some m ↔ m.sign? = some sign := by
  constructor
  · intro h
    unfold ofSign? at h
    split at h
    · cases h; simp [sign?, *]
    · split at h
      · cases h; simp [sign?, *]
      · split at h
        · cases h; simp [sign?, *]
        · cases h
  · intro h
    cases m <;> simp [sign?] at h <;> subst h <;> decide

/-- The placeholder takes a run of tokens. -/
def isVariable (m : Modifier) : Bool := m != single

end Modifier

/-- One element of a message or of a template. -/
structure Token where
  /-- The text of the token. -/
  value : Text
  /-- Its shape class. -/
  kind : Kind
  /-- Its meaning. -/
  tag : Tag := .unknown
  /-- White space stood before it. -/
  spaceBefore : Bool := false
  /-- How many tokens it takes, as a placeholder. -/
  modifier : Modifier := .single
  /-- The value before which a `minus` run stops. -/
  stop : Option Text := none
  /-- The timestamp group of a verified timestamp. -/
  group : Option Text := none
  deriving DecidableEq, Repr, Inhabited

namespace Token

/-- A literal token. -/
def literal (value : Text) : Token := { value, kind := .literal }

/-- A placeholder without a value. -/
def placeholder (tag : Tag) (kind : Kind) : Token := { value := [], kind, tag }

/-- The token stands for a value: it is tagged, or of a kind that placeholders have. -/
def isPlaceholder (t : Token) : Bool := t.tag != .unknown || t.kind.isPlaceholder

/-- The token stands for itself. -/
def isLiteral (t : Token) : Bool := !t.isPlaceholder

/-- A literal that holds nothing but white space. -/
def isSpace (t : Token) : Bool := t.isLiteral && !t.value.isEmpty && t.value.isBlank

@[simp] theorem isLiteral_literal (value : Text) : (literal value).isLiteral = true := rfl

end Token

end LogTemplate
