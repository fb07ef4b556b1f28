import LogTemplate.Regex.Basic

/-!
# Reading regular expressions

A part of the usual notation: literals, the dot, classes in brackets, the escapes for digits, white
space and word characters, groups, alternatives, anchors, and the quantifiers `*`, `+`, `?` and
counts in braces. Another compiler may read more of it.

* `Regex.symbols?` cuts the notation into symbols;
* `Regex.parse?` reads the symbols with a stack of open groups: each group holds the alternatives
  that are finished and the items of the one that is being read;
* a group that is left open, a parenthesis that closes nothing, a quantifier with nothing before it,
  a class that is left open and a range or a count that runs backwards are refused.
-/

namespace LogTemplate.Regex

/-- A symbol of the notation. -/
inductive Symbol where
  | item (r : Regex)
  | opening
  | closing
  | bar
  | quantifier (least : Nat) (most : Option Nat)
  deriving DecidableEq, Repr

/-- Characters that a backslash makes literal. -/
def isPunctuation (c : Char) : Bool :=
  c.toNat < 0x80 && !c.isAlphanum && c != '<' && c != '>'

/-- What an escape stands for. -/
def escape? (c : Char) : Option CharItem :=
  match c with
  | 'd' => some (.digit true)
  | 'D' => some (.digit false)
  | 's' => some (.space true)
  | 'S' => some (.space false)
  | 'w' => some (.word true)
  | 'W' => some (.word false)
  | 't' => some (.range '\t' '\t')
  | 'n' => some (.range '\n' '\n')
  | 'r' => some (.range '\r' '\r')
  | 'f' => some (.range '\x0c' '\x0c')
  | 'v' => some (.range '\x0b' '\x0b')
  | 'a' => some (.range '\x07' '\x07')
  | _ => if isPunctuation c then some (.range c c) else none

/-- The parts of a class up to its closing bracket, and what follows. A range needs two single
characters in order. -/
def classItems? : Nat → Text → Option (List CharItem × Text)
  | 0, _ => none
  | fuel + 1, text =>
    let item? : Option (CharItem × Text) :=
      match text with
      | '\\' :: c :: rest => (escape? c).map (·, rest)
      | c :: rest => some (.range c c, rest)
      | [] => none
    match text, item? with
    | ']' :: rest, _ => some ([], rest)
    | _, none => none
    | _, some (.range first _, '-' :: rest) =>
      match rest with
      | ']' :: _ =>
        (classItems? fuel rest).map fun (items, after) =>
          (.range first first :: .range '-' '-' :: items, after)
      | [] => none
      | c :: more =>
        let last? : Option (Char × Text) :=
          if c = '\\' then
            match more with
            | d :: after =>
              match escape? d with
              | some (.range e _) => some (e, after)
              | _ => none
            | [] => none
          else some (c, more)
        match last? with
        | none => none
        | some (last, after) =>
          if first ≤ last then
            (classItems? fuel after).map fun (items, after) => (.range first last :: items, after)
          else none
    | _, some (item, '-' :: rest) =>
      match rest with
      | ']' :: _ =>
        (classItems? fuel rest).map fun (items, after) =>
          (item :: .range '-' '-' :: items, after)
      | _ => none
    | _, some (item, rest) =>
      (classItems? fuel rest).map fun (items, after) => (item :: items, after)

/-- A class behind its opening bracket. A bracket that closes at once is a member. -/
def class? (text : Text) : Option (CharSet × Text) :=
  let (negated, body) := match text with
    | '^' :: rest => (true, rest)
    | _ => (false, text)
  match body with
  | ']' :: rest =>
    (classItems? (rest.length + 1) rest).map fun (items, after) =>
      (⟨negated, .range ']' ']' :: items⟩, after)
  | _ => (classItems? (body.length + 1) body).map fun (items, after) => (⟨negated, items⟩, after)

/-- A number, with blanks allowed around it. -/
def count? (text : Text) : Option (Nat × Text) :=
  let body := text.dropWhile Text.isSpace
  let digits := body.takeWhile Char.isDigit
  if digits.isEmpty then none
  else
    some (Text.digitsValue digits,
      (body.dropWhile Char.isDigit).dropWhile Text.isSpace)

/-- A count behind its opening brace. -/
def counts? (text : Text) : Option (Symbol × Text) :=
  match count? text with
  | some (n, '\x7d' :: rest) => some (.quantifier n (some n), rest)
  | some (n, ',' :: rest) =>
    match rest with
    | '\x7d' :: after => some (.quantifier n none, after)
    | _ =>
      match count? rest with
      | some (m, '\x7d' :: after) => if n ≤ m then some (.quantifier n (some m), after) else none
      | _ => none
  | _ => none

/-- A question mark behind a quantifier asks for the shortest match first, which is the same set of
matches. -/
def dropLazy : Text → Text
  | '?' :: rest => rest
  | text => text

/-- The symbols of the notation; `none` when an escape, a class or a count is malformed. -/
def symbols? : Nat → Text → Option (List Symbol)
  | 0, _ => none
  | fuel + 1, text =>
    let more (s : Symbol) (rest : Text) : Option (List Symbol) :=
      (symbols? fuel rest).map (s :: ·)
    match text with
    | [] => some []
    | '(' :: '?' :: ':' :: rest => more .opening rest
    | '(' :: '?' :: _ => none
    | '(' :: rest => more .opening rest
    | ')' :: rest => more .closing rest
    | '|' :: rest => more .bar rest
    | '.' :: rest => more (.item (.one .dot)) rest
    | '^' :: rest => more (.item .start) rest
    | '$' :: rest => more (.item .finish) rest
    | '*' :: rest => more (.quantifier 0 none) (dropLazy rest)
    | '+' :: rest => more (.quantifier 1 none) (dropLazy rest)
    | '?' :: rest => more (.quantifier 0 (some 1)) (dropLazy rest)
    | '\x7b' :: rest =>
      match counts? rest with
      | some (s, after) => more s (dropLazy after)
      | none => none
    | '[' :: rest =>
      match class? rest with
      | some (set, after) => more (.item (.one set)) after
      | none => none
    | '\\' :: 'A' :: rest => more (.item .start) rest
    | '\\' :: 'z' :: rest => more (.item .finish) rest
    | '\\' :: c :: rest =>
      match escape? c with
      | some item => more (.item (.one ⟨false, [item]⟩)) rest
      | none => none
    | ['\\'] => none
    | c :: rest => more (.item (.one (.single c))) rest

/-- A group that is being read: the alternatives that are finished and the items of the current
one, both with the latest first. -/
structure Group where
  alternatives : List Regex
  items : List Regex

/-- The items of an alternative, latest first, one after the other. -/
def sequence (items : List Regex) : Regex :=
  match items with
  | [] => .empty
  | r :: rest => rest.foldl (fun joined item => .both item joined) r

/-- The expression of a finished group. -/
def Group.close (g : Group) : Regex :=
  g.alternatives.foldl (fun joined r => .either r joined) (sequence g.items)

/-- Read the symbols with the current group and the groups around it. -/
def assemble? (current : Group) (around : List Group) : List Symbol → Option Regex
  | [] => if around.isEmpty then some current.close else none
  | .item r :: rest => assemble? { current with items := r :: current.items } around rest
  | .opening :: rest => assemble? ⟨[], []⟩ (current :: around) rest
  | .closing :: rest =>
    match around with
    | [] => none
    | outer :: more => assemble? { outer with items := current.close :: outer.items } more rest
  | .bar :: rest =>
    assemble? ⟨sequence current.items :: current.alternatives, []⟩ around rest
  | .quantifier least most :: rest =>
    match current.items with
    | [] => none
    | r :: items => assemble? { current with items := .times r least most :: items } around rest

/-- Read a regular expression. -/
def parse? (text : Text) : Option Regex :=
  match symbols? (text.length + 1) text with
  | some symbols => assemble? ⟨[], []⟩ [] symbols
  | none => none

/-- Read a regular expression and tell which texts it finds a match in. -/
def compile (text : Text) : Option (Text → Bool) := (parse? text).map isMatch

end LogTemplate.Regex
