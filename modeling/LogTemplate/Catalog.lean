import LogTemplate.Id
import LogTemplate.Scan
import LogTemplate.Search

/-!
# Catalogs

A catalog holds templates and finds the one that covers a line.

Templates without variable runs stand in one trie for each number of tokens, the others share a
trie; a line is looked up in the trie of its own length and in the shared one.

* `Catalog.add` registers a tagged line, `Catalog.addText` pattern text;
* `Catalog.match?` finds the best template for a line and tags the line's tokens.
-/

namespace LogTemplate

/-- A registered template. -/
structure Template where
  id : Text
  text : Text
  /-- The byte positions of its placeholders, as they were announced. -/
  offsets : List Nat
  line : Line
  /-- Its number: templates are numbered in the order of their registration. -/
  ordinal : Nat
  deriving DecidableEq, Repr, Inhabited

/-- Why a template is refused or a line has none. -/
inductive CatalogError where
  | noMatch
  | noTokens
  | noAnchor
  | scan (e : ScanError)
  deriving DecidableEq, Repr

/-- The wording of an error. -/
def CatalogError.message? : CatalogError → Option Text
  | noMatch => some "No registered pattern matches the sequence".toList
  | noTokens => some "Pattern rejected: pattern has no tokens".toList
  | noAnchor => some "Pattern rejected: pattern has no literal anchor".toList
  | scan e => e.message?.map ("Scan failed: ".toList ++ ·)

/-- Templates with the tries that find them. -/
structure Catalog where
  templates : List Template := []
  /-- The tries of templates without variable runs, by the number of their tokens. -/
  fixed : List (Nat × Trie) := []
  /-- The trie of the other templates. -/
  variadic : Trie := .empty

/-- A template that covers a line. -/
structure Match where
  id : Text
  text : Text
  offsets : List Nat
  /-- The line, tagged by the placeholders that took its tokens. -/
  line : Line
  deriving DecidableEq, Repr

namespace Catalog

/-- The number of templates. -/
def size (c : Catalog) : Nat := c.templates.length

/-- The line has a placeholder that takes a variable number of tokens. -/
def isVariadic (line : Line) : Bool := line.any (·.modifier.isVariable)

/-- The trie that a template belongs to. -/
def trieOf (c : Catalog) (line : Line) : Trie :=
  if isVariadic line then c.variadic else (c.fixed.lookup line.length).getD .empty

/-- Set the trie for a number of tokens. -/
def setTrie (n : Nat) (trie : Trie) : List (Nat × Trie) → List (Nat × Trie)
  | [] => [(n, trie)]
  | (m, t) :: rest => if m = n then (n, trie) :: rest else (m, t) :: setTrie n trie rest

/-- Set the trie that a template belongs to. -/
def withTrie (c : Catalog) (line : Line) (trie : Trie) : Catalog :=
  if isVariadic line then { c with variadic := trie }
  else { c with fixed := setTrie line.length trie c.fixed }

/-- Register a line. A template of the same text, or one of the same path, is kept in its place. The
announced positions of the placeholders, if there are none, are the printed ones. -/
def register (v : Vocabulary) (c : Catalog) (line : Line) (offsets? : Option (List Nat)) :
    Catalog × Text :=
  let printed := Line.print v line
  -- A text may be that of several paths, so it is looked for on its own.
  match c.templates.find? (·.text = printed.text) with
  | some known => (c, known.id)
  | none =>
    let trie := c.trieOf line
    match (trie.find? line).bind (c.templates[·]?) with
    | some known => (c, known.id)
    | none =>
      let template : Template :=
        { id := Id.ofTemplate printed.text, text := printed.text
          offsets := offsets?.getD printed.offsets, line, ordinal := c.size }
      ({ c.withTrie line (trie.insert c.size line) with templates := c.templates ++ [template] },
        template.id)

/-- Register a line that has tokens. -/
def addUnanchored (v : Vocabulary) (c : Catalog) (line : Line) :
    Except CatalogError (Catalog × Text) :=
  if line.isEmpty then .error .noTokens else .ok (c.register v line none)

/-- Register a line that has a literal. -/
def addAnchored (v : Vocabulary) (c : Catalog) (line : Line) (offsets? : Option (List Nat)) :
    Except CatalogError (Catalog × Text) :=
  if line.isEmpty then .error .noTokens
  else if !line.any (·.isLiteral) then .error .noAnchor
  else .ok (c.register v line offsets?)

/-- Register a tagged line. -/
def add (v : Vocabulary) (c : Catalog) (line : Line) : Except CatalogError (Catalog × Text) :=
  c.addAnchored v line none

/-- Register pattern text with the announced positions of its placeholders. -/
def addText (v : Vocabulary) (c : Catalog) (text : Text) (offsets : List Nat) :
    Except CatalogError (Catalog × Text) :=
  match Scan.pattern v text offsets with
  | .error e => .error (.scan e)
  | .ok line => c.addAnchored v line (some offsets)

/-- The best way in which a template covers a line. -/
def cover? (v : Vocabulary) (c : Catalog) (line : Line) : Option Cover :=
  let best := match c.fixed.lookup line.length with
    | some trie => trie.search v.regextime [] 0 line none
    | none => none
  c.variadic.search v.regextime [] 0 line best

/-- A token, tagged by the slot that took it. -/
def retag (t : Token) (slot? : Option Slot) : Token :=
  match slot? with
  | some slot => { t with tag := slot.tag }
  | none => t

/-- The best template for a line. -/
def match? (v : Vocabulary) (c : Catalog) (line : Line) : Option Match :=
  if line.isEmpty || c.templates.isEmpty then none
  else do
    let cover ← c.cover? v line
    let template ← c.templates[cover.ordinal]?
    return {
      id := template.id, text := template.text, offsets := template.offsets
      line := line.zipWith retag cover.slots }

end Catalog

end LogTemplate
