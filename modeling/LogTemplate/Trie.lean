import LogTemplate.Line

/-!
# Tries of templates

Templates that begin alike share what they begin with. A template is a path from the root: a
literal leads to the branch of its value, a placeholder to the branch of its slot.

* `Slot` is what a placeholder asks of the tokens it takes;
* `Trie` is a node with the number of the template that ends there, its literal branches and its
  slots; slots stand in the order plain, star, plus, minus;
* `Trie.find?` gives the number of the template of a path, `Trie.insert` adds a path.
-/

namespace LogTemplate

/-- What a placeholder asks of the tokens it takes. -/
structure Slot where
  tag : Tag
  kind : Kind
  modifier : Modifier
  stop : Option Text
  group : Option Text
  deriving DecidableEq, Repr

namespace Slot

/-- The slot of a placeholder. -/
def ofToken (t : Token) : Slot := ⟨t.tag, t.kind, t.modifier, t.stop, t.group⟩

/-- The token may fill the slot. A verified timestamp has to be of the slot's own group. -/
def accepts (regextime : Tag) (s : Slot) (t : Token) : Bool :=
  if s.kind = .time && s.tag = regextime then t.kind == .time && t.group == s.group
  else s.kind.accepts t.kind

/-- The place of a slot among the slots of a node. -/
def rank (s : Slot) : Nat :=
  match s.modifier with
  | .single => 0
  | .star => 1
  | .plus => 2
  | .minus => 3

end Slot

/-- Templates by their paths. -/
inductive Trie where
  | node (terminal : Option Nat) (literals : List (Text × Trie)) (slots : List (Slot × Trie))

namespace Trie

/-- No template. -/
def empty : Trie := node none [] []

/-- The number of the template that ends at the root. -/
def terminal? : Trie → Option Nat
  | node terminal _ _ => terminal

/-- The branches of literals. -/
def literals : Trie → List (Text × Trie)
  | node _ literals _ => literals

/-- The branches of slots. -/
def slots : Trie → List (Slot × Trie)
  | node _ _ slots => slots

/-- The branch of a token. -/
def child? (trie : Trie) (t : Token) : Option Trie :=
  if t.isLiteral then trie.literals.lookup t.value else trie.slots.lookup (.ofToken t)

/-- The number of the template whose path the line is. -/
def find? : Line → Trie → Option Nat
  | [], trie => trie.terminal?
  | t :: rest, trie => (trie.child? t).bind (find? rest)

/-- Change the branch of a literal, which is added when it is missing. -/
def updateLiteral (word : Text) (f : Trie → Trie) : List (Text × Trie) → List (Text × Trie)
  | [] => [(word, f empty)]
  | (w, child) :: rest =>
    if w = word then (w, f child) :: rest else (w, child) :: updateLiteral word f rest

/-- Change the branch of a slot. When it is missing it is added behind the slots of its rank. -/
def updateSlot (slot : Slot) (f : Trie → Trie) : List (Slot × Trie) → List (Slot × Trie)
  | [] => [(slot, f empty)]
  | (s, child) :: rest =>
    if s = slot then (s, f child) :: rest
    else if slot.rank < s.rank then (slot, f empty) :: (s, child) :: rest
    else (s, child) :: updateSlot slot f rest

/-- Add the path of a line. A path that ends a template already keeps it. -/
def insert (ordinal : Nat) : Line → Trie → Trie
  | [], node terminal literals slots => node (terminal <|> some ordinal) literals slots
  | t :: rest, node terminal literals slots =>
    if t.isLiteral then node terminal (updateLiteral t.value (insert ordinal rest) literals) slots
    else node terminal literals (updateSlot (.ofToken t) (insert ordinal rest) slots)

end Trie

end LogTemplate
