import LogTemplate.Trie

/-!
# Searching a trie

A search walks a trie against one line and considers every way in which a template covers the whole
line. Of these it keeps the one that covers the fewest tokens by placeholders, and of equally good
ones that of the template with the smallest number.

* `Slot.spans` are the numbers of tokens that a placeholder may take, in the order in which they are
  tried;
* `Trie.search` is the walk. It turns back where the placeholders have taken more tokens already
  than in the best way so far.
-/

namespace LogTemplate

/-- A way in which a template covers a line. -/
structure Cover where
  /-- The number of the template. -/
  ordinal : Nat
  /-- The tokens that placeholders took. -/
  wildcards : Nat
  /-- For each token of the line, the slot that took it; none for a literal. -/
  slots : List (Option Slot)
  deriving DecidableEq, Repr

/-- The first way is better than the second. -/
def Cover.isBetter (a b : Cover) : Bool :=
  a.wildcards < b.wildcards || (a.wildcards == b.wildcards && a.ordinal < b.ordinal)

/-- Keep the better of two ways, the earlier one of two equally good. -/
def Cover.offer (a : Cover) (best : Option Cover) : Option Cover :=
  match best with
  | none => some a
  | some b => if a.isBetter b then some a else some b

namespace Slot

/-- The tokens that a run of the slot may take at most. -/
def reach (regextime : Tag) (s : Slot) (input : Line) : Nat :=
  (input.takeWhile (s.accepts regextime)).length

/-- `n`, `n - 1`, …, `1`. -/
def downFrom : Nat → List Nat
  | 0 => []
  | n + 1 => (n + 1) :: downFrom n

/-- A run without a stop word may end before a token that the node behind it can take up, which is
any token when the node has slots. -/
def mayEnd (child : Trie) (t : Token) : Bool :=
  !child.slots.isEmpty || (t.isLiteral && (child.literals.lookup t.value).isSome)

/-- Where a run may end: the lengths of the beginnings of the line, from one token on, before which
`p` holds, and its whole length. -/
def endsBefore (p : Token → Bool) (n : Nat) : Line → List Nat
  | [] => [n]
  | t :: rest => if p t then n :: endsBefore p (n + 1) rest else endsBefore p (n + 1) rest

/-- The numbers of tokens that a placeholder may take in front of a node. -/
def spans (regextime : Tag) (s : Slot) (child : Trie) (input : Line) : List Nat :=
  match s.modifier with
  | .single =>
    match input with
    | t :: _ => if s.accepts regextime t then [1] else []
    | [] => []
  | .star => 0 :: downFrom (s.reach regextime input)
  | .plus => downFrom (s.reach regextime input)
  | .minus =>
    match input with
    | [] => []
    | _ :: rest =>
      match s.stop with
      | some word =>
        match rest.findIdx? (·.value = word) with
        | some i => [i + 1]
        | none => []
      | none => endsBefore (mayEnd child) 1 rest

end Slot

namespace Trie

/-- Some way takes fewer tokens by placeholders than `wildcards`. -/
def isBeaten (wildcards : Nat) (best : Option Cover) : Bool :=
  best.any (·.wildcards < wildcards)

mutual

/-- Search a trie for the input. `taken` holds the slots of the tokens before it, latest first, of
which `wildcards` were taken by placeholders, and `best` the best way so far. -/
def search (regextime : Tag) (taken : List (Option Slot)) (wildcards : Nat) (input : Line)
    (best : Option Cover) : Trie → Option Cover
  | node terminal literals slots =>
    -- Every way on from here takes at least `wildcards` tokens by placeholders.
    if isBeaten wildcards best then best
    else
      let best := match input with
        | [] =>
          match terminal with
          | some ordinal => Cover.offer ⟨ordinal, wildcards, taken.reverse⟩ best
          | none => best
        | t :: rest =>
          if t.isLiteral then searchLiteral regextime taken wildcards t.value rest best literals
          else best
      searchSlots regextime taken wildcards input best slots
termination_by structural trie => trie

/-- Search the branch of a literal. -/
def searchLiteral (regextime : Tag) (taken : List (Option Slot)) (wildcards : Nat) (word : Text)
    (rest : Line) (best : Option Cover) : List (Text × Trie) → Option Cover
  | [] => best
  | (w, child) :: others =>
    if w = word then child.search regextime (none :: taken) wildcards rest best
    else searchLiteral regextime taken wildcards word rest best others
termination_by structural literals => literals

/-- Search the branches of slots, each with all numbers of tokens that it may take. -/
def searchSlots (regextime : Tag) (taken : List (Option Slot)) (wildcards : Nat) (input : Line)
    (best : Option Cover) : List (Slot × Trie) → Option Cover
  | [] => best
  | (s, child) :: others =>
    -- The numbers are tried in their order, and of equally good ways the first one stays.
    let best := (s.spans regextime child input).foldl
      (fun best n => child.search regextime (List.replicate n (some s) ++ taken) (wildcards + n)
        (input.drop n) best)
      best
    searchSlots regextime taken wildcards input best others
termination_by structural slots => slots

end

end Trie

end LogTemplate
