import LogTemplate.Text.Basic

/-!
# Timestamps

Timestamps are recognised by layouts. A layout is an example of a timestamp whose characters stand
for classes: a digit for any digit, a letter for any letter, `_` for a blank or a digit, `±` for a
sign, and anything else for itself. Layouts come in numbered groups, and a group may demand more
of the text than its layouts do.

* `LayoutTrie` holds all layouts with their groups, sharing what they begin with;
* `LayoutTrie.walk` follows a text through the trie. One character may fit several branches, so
  the walk keeps every node that is still alive, and it lists the beginnings of the text that
  fit a layout, with the group;
* `TimeMatcher.match?` is the longest of these beginnings that its group admits.
-/

namespace LogTemplate

/-- What a character of a layout stands for. -/
inductive LayoutClass where
  | digit
  | letter
  | blankOrDigit
  | sign
  | exactly (c : Char)
  deriving DecidableEq, Repr

namespace LayoutClass

/-- The class of a layout character. -/
def of (c : Char) : LayoutClass :=
  if c = '_' then blankOrDigit
  else if c = '±' then sign
  else if c.isDigit then digit
  else if c.isAlpha then letter
  else exactly c

/-- The character belongs to the class. -/
def accepts : LayoutClass → Char → Bool
  | digit, c => c.isDigit
  | letter, c => c.isAlpha
  | blankOrDigit, c => c == ' ' || c.isDigit
  | sign, c => c == '+' || c == '-'
  | exactly d, c => c == d

end LayoutClass

/-- A group of layouts with one number. -/
structure TimeGroup where
  id : Nat
  layouts : List Text
  /-- What the group demands of the whole timestamp. -/
  check : Option (Text → Bool) := none

/-- Layouts by their classes: the groups with a layout that ends here, and the branches. -/
inductive LayoutTrie where
  | node (groups : List Nat) (branches : List (LayoutClass × LayoutTrie))

namespace LayoutTrie

/-- No layout. -/
def empty : LayoutTrie := node [] []

/-- The groups with a layout that ends here. -/
def groups : LayoutTrie → List Nat
  | node groups _ => groups

/-- The branches, in the order in which they were added. -/
def branches : LayoutTrie → List (LayoutClass × LayoutTrie)
  | node _ branches => branches

/-- Change the branch of a class, which is added when it is missing. -/
def updateBranch (k : LayoutClass) (f : LayoutTrie → LayoutTrie) :
    List (LayoutClass × LayoutTrie) → List (LayoutClass × LayoutTrie)
  | [] => [(k, f empty)]
  | (k', child) :: rest =>
    if k' = k then (k', f child) :: rest else (k', child) :: updateBranch k f rest

/-- Add a layout, given by its classes, for a group. -/
def insert (group : Nat) : List LayoutClass → LayoutTrie → LayoutTrie
  | [], node groups branches =>
    node (if group ∈ groups then groups else groups ++ [group]) branches
  | k :: rest, node groups branches => node groups (updateBranch k (insert group rest) branches)

/-- The nodes behind the branches that accept a character. -/
def after (c : Char) (t : LayoutTrie) : List LayoutTrie :=
  (t.branches.filter (·.1.accepts c)).map (·.2)

/-- Follow a text from the nodes `live`, which were reached after `n` characters, and list where
layouts end, with their groups. -/
def walk (live : List LayoutTrie) (n : Nat) : Text → List (Nat × Nat)
  | [] => []
  | c :: rest =>
    let next := live.flatMap (after c)
    if next.isEmpty then []
    else next.flatMap (fun t => t.groups.map (n + 1, ·)) ++ walk next (n + 1) rest

end LayoutTrie

/-- A timestamp at the beginning of a text. -/
structure TimeMatch where
  /-- Its length in characters. -/
  length : Nat
  /-- The number of its group. -/
  group : Nat
  /-- The group demands more than its layouts. -/
  verified : Bool
  deriving DecidableEq, Repr

/-- The layouts of all groups, and the demands of the groups that have some. -/
structure TimeMatcher where
  trie : LayoutTrie := .empty
  checks : List (Nat × (Text → Bool)) := []

namespace TimeMatcher

/-- Add a group. The demand of a later group replaces that of an earlier one with its number. An
empty layout is passed over. -/
def add (m : TimeMatcher) (g : TimeGroup) : TimeMatcher where
  trie := (g.layouts.filter (!·.isEmpty)).foldl
    (fun t layout => t.insert g.id (layout.map .of)) m.trie
  checks := match g.check with
    | some check => (g.id, check) :: m.checks
    | none => m.checks

/-- The matcher of a list of groups. -/
def ofGroups (groups : List TimeGroup) : TimeMatcher := groups.foldl add {}

/-- The demand of a group. -/
def check? (m : TimeMatcher) (group : Nat) : Option (Text → Bool) := m.checks.lookup group

/-- The group admits the timestamp. -/
def admits (m : TimeMatcher) (group : Nat) (stamp : Text) : Bool :=
  match m.check? group with
  | some check => check stamp
  | none => true

/-- The longer of two candidates, and of two equally long ones that of the smaller group. -/
def better (a b : Nat × Nat) : Nat × Nat :=
  if a.1 < b.1 || (a.1 == b.1 && b.2 < a.2) then b else a

/-- The best of the candidates. -/
def best? : List (Nat × Nat) → Option (Nat × Nat)
  | [] => none
  | a :: rest => some (rest.foldl better a)

/-- The longest timestamp at the beginning of a text. -/
def match? (m : TimeMatcher) (text : Text) : Option TimeMatch :=
  let candidates := (LayoutTrie.walk [m.trie] 0 text).filter fun (n, g) => m.admits g (text.take n)
  (best? candidates).map fun (n, g) => ⟨n, g, (m.check? g).isSome⟩

end TimeMatcher

end LogTemplate
