import LogTemplate.Text.Basic

/-!
# Symbols of TOML

The pieces of TOML text: marks, strings, white space, and runs of other characters.

* `unifyLines` ends every line with a line feed;
* `line?` and `paragraph?` find the end of a string, `unescape?` decodes what stands inside;
* `symbols?` cuts a text into symbols. A comment is white space.
-/

namespace LogTemplate.Toml

/-- A piece of TOML text. -/
inductive Symbol where
  /-- Blanks and tabs, or a comment. -/
  | blank (text : Text)
  | newline
  /-- Characters that are neither white space nor marks. -/
  | atom (text : Text)
  /-- A string on one line. -/
  | string (value : Text)
  /-- A string that may span lines. -/
  | paragraph (value : Text)
  | dot
  | equals
  | comma
  | openBracket
  | closeBracket
  | openBrace
  | closeBrace
  deriving DecidableEq, Repr

/-! ### Characters -/

/-- White space inside a line. -/
def isBlank (c : Char) : Bool := c == ' ' || c == '\t'

/-- A character that may stand in strings and comments: all but control characters. -/
def isPlain (c : Char) : Bool := c == '\t' || (0x20 ≤ c.toNat && c != '\x7f')

/-- A character that ends an atom. -/
def endsAtom (c : Char) : Bool := isBlank c || c == '\n' || c ∈ ".=,[]\x7b\x7d#".toList

/-- The text with a line feed for every carriage return and line feed. -/
def unifyLines : Text → Text
  | '\r' :: '\n' :: rest => '\n' :: unifyLines rest
  | c :: rest => c :: unifyLines rest
  | [] => []

/-! ### Strings -/

/-- A backslash between double quotes protects the character behind it. -/
def protects (quote c : Char) : Bool := quote == '"' && c == '\\'

/-- The inside of a string on one line, behind its opening quote, and what follows the closing one;
`kept` says that the first character is protected. -/
def line? (quote : Char) (kept : Bool) : Text → Option (Text × Text)
  | [] => none
  | c :: rest =>
    if c = '\n' then none
    else if c = quote && !kept then some ([], rest)
    else
      (line? quote (!kept && protects quote c) rest).map fun (inside, after) => (c :: inside, after)

/-- The inside of a string between triple quotes, and what follows it. Up to two quotes directly
before the closing ones belong to the string. -/
def paragraph? (quote : Char) (kept : Bool) : Text → Option (Text × Text)
  | [] => none
  | c :: rest =>
    if c = quote && !kept && rest.take 2 = [quote, quote] then
      let quotes := ((rest.drop 2).take 2).takeWhile (· = quote)
      some (quotes, rest.drop (2 + quotes.length))
    else
      (paragraph? quote (!kept && protects quote c) rest).map fun (inside, after) =>
        (c :: inside, after)

/-- The character that a backslash and a letter stand for. -/
def escape? : Char → Option Char
  | 'b' => some '\x08'
  | 't' => some '\t'
  | 'n' => some '\n'
  | 'f' => some '\x0c'
  | 'r' => some '\r'
  | 'e' => some '\x1b'
  | '"' => some '"'
  | '\\' => some '\\'
  | _ => none

/-- The number of hexadecimal digits behind a backslash and a letter. -/
def codeLength? : Char → Option Nat
  | 'x' => some 2
  | 'u' => some 4
  | 'U' => some 8
  | _ => none

/-- The character with a code point of `length` hexadecimal digits. -/
def codePoint? (length : Nat) (digits : Text) : Option Char :=
  if digits.length = length then
    (Text.toNatInBase? 16 digits).bind fun n => if n.isValidChar then some (Char.ofNat n) else none
  else none

/-- White space that a backslash at the end of a line removes. -/
def isFolded (c : Char) : Bool := isBlank c || c == '\n'

/-- The text that the inside of a string between double quotes stands for. Only over several lines
may it hold line ends; there a backslash at the end of a line removes the white space behind it. -/
def unescape? (multiline : Bool) (text : Text) : Option Text :=
  match text with
  | [] => some []
  | '\\' :: [] => none
  | '\\' :: e :: rest =>
    match escape? e, codeLength? e with
    | some c, _ => (unescape? multiline rest).map (c :: ·)
    | none, some n =>
      (codePoint? n (rest.take n)).bind fun c => (unescape? multiline (rest.drop n)).map (c :: ·)
    | none, none =>
      if multiline && ((e :: rest).dropWhile isBlank).head? == some '\n' then
        unescape? multiline (rest.dropWhile isFolded)
      else none
  | c :: rest =>
    if isPlain c || (multiline && c == '\n') then (unescape? multiline rest).map (c :: ·) else none
termination_by text.length
decreasing_by
  · simp only [List.length_cons]; omega
  · simp only [List.length_drop, List.length_cons]; omega
  · have := (List.dropWhile_sublist isFolded (l := rest)).length_le
    simp only [List.length_cons]; omega
  · simp only [List.length_cons]; omega

/-- The inside of a string between single quotes, which stands for itself. -/
def verbatim? (multiline : Bool) (text : Text) : Option Text :=
  if text.all fun c => isPlain c || (multiline && c == '\n') then some text else none

/-- What the inside of a string stands for. -/
def decode? (quote : Char) (multiline : Bool) (inside : Text) : Option Text :=
  if quote = '"' then unescape? multiline inside else verbatim? multiline inside

/-- A line feed directly behind the opening quotes does not count. -/
def dropFirstNewline : Text → Text
  | '\n' :: rest => rest
  | text => text

/-- The string behind a quote, and what follows it. -/
def string? (quote : Char) (text : Text) : Option (Symbol × Text) :=
  if text.take 2 = [quote, quote] then do
    let (inside, after) ← paragraph? quote false (dropFirstNewline (text.drop 2))
    return (.paragraph (← decode? quote true inside), after)
  else do
    let (inside, after) ← line? quote false text
    return (.string (← decode? quote false inside), after)

/-! ### Cutting a text -/

/-- The comment behind its mark, and what follows it. -/
def comment? (text : Text) : Option (Symbol × Text) :=
  let after := text.dropWhile isPlain
  if after.isEmpty || after.head? == some '\n' then
    some (.blank ('#' :: text.takeWhile isPlain), after)
  else none

/-- The mark that a character is. -/
def mark? : Char → Option Symbol
  | '\n' => some .newline
  | '.' => some .dot
  | '=' => some .equals
  | ',' => some .comma
  | '[' => some .openBracket
  | ']' => some .closeBracket
  | '\x7b' => some .openBrace
  | '\x7d' => some .closeBrace
  | _ => none

/-- The symbol that begins with `c` and goes on in `rest`, and what follows it. -/
def symbol? (c : Char) (rest : Text) : Option (Symbol × Text) :=
  match mark? c with
  | some mark => some (mark, rest)
  | none =>
    if c = '"' || c = '\'' then string? c rest
    else if c = '#' then comment? rest
    else if isBlank c then some (.blank (c :: rest.takeWhile isBlank), rest.dropWhile isBlank)
    else some (.atom (c :: rest.takeWhile (!endsAtom ·)), rest.dropWhile (!endsAtom ·))

/-! ### Progress

Every symbol takes at least one character of the text. -/

theorem line?_shorter {quote : Char} {kept : Bool} {text inside after : Text}
    (h : line? quote kept text = some (inside, after)) : after.length < text.length := by
  induction text generalizing kept inside with
  | nil => simp [line?] at h
  | cons c rest ih =>
    unfold line? at h
    split at h
    · simp at h
    · split at h
      · cases h; simp
      · obtain ⟨found, hfound, he⟩ := Option.map_eq_some_iff.1 h
        cases he
        exact Nat.lt_succ_of_lt (ih hfound)

theorem paragraph?_shorter {quote : Char} {kept : Bool} {text inside after : Text}
    (h : paragraph? quote kept text = some (inside, after)) : after.length < text.length := by
  induction text generalizing kept inside with
  | nil => simp [paragraph?] at h
  | cons c rest ih =>
    unfold paragraph? at h
    split at h
    · cases h
      simp only [List.length_drop, List.length_cons]; omega
    · obtain ⟨found, hfound, he⟩ := Option.map_eq_some_iff.1 h
      cases he
      exact Nat.lt_succ_of_lt (ih hfound)

theorem dropFirstNewline_length (text : Text) :
    (dropFirstNewline text).length ≤ text.length := by
  unfold dropFirstNewline
  split <;> simp

theorem string?_shorter {quote : Char} {text after : Text} {symbol : Symbol}
    (h : string? quote text = some (symbol, after)) : after.length ≤ text.length := by
  unfold string? at h
  split at h
  · obtain ⟨⟨inside, rest⟩, hp, h⟩ := Option.bind_eq_some_iff.1 h
    obtain ⟨value, -, h⟩ := Option.bind_eq_some_iff.1 h
    cases h
    have hparagraph := paragraph?_shorter hp
    have hnewline := dropFirstNewline_length (text.drop 2)
    simp only [List.length_drop] at hnewline; omega
  · obtain ⟨⟨inside, rest⟩, hl, h⟩ := Option.bind_eq_some_iff.1 h
    obtain ⟨value, -, h⟩ := Option.bind_eq_some_iff.1 h
    cases h
    exact Nat.le_of_lt (line?_shorter hl)

theorem comment?_shorter {text after : Text} {symbol : Symbol}
    (h : comment? text = some (symbol, after)) : after.length ≤ text.length := by
  simp only [comment?] at h
  split at h
  · cases h
    exact (List.dropWhile_sublist isPlain).length_le
  · simp at h

theorem symbol?_shorter {c : Char} {rest after : Text} {symbol : Symbol}
    (h : symbol? c rest = some (symbol, after)) : after.length ≤ rest.length := by
  unfold symbol? at h
  split at h
  · cases h; exact Nat.le_refl _
  · split at h
    · exact string?_shorter h
    · split at h
      · exact comment?_shorter h
      · split at h
        · cases h; exact (List.dropWhile_sublist _).length_le
        · cases h; exact (List.dropWhile_sublist _).length_le

/-- The symbols of a text. -/
def symbols? (text : Text) : Option (List Symbol) :=
  match text with
  | [] => some []
  | c :: rest =>
    match h : symbol? c rest with
    | none => none
    | some (symbol, after) =>
      have : after.length < (c :: rest).length := Nat.lt_succ_of_le (symbol?_shorter h)
      (symbols? after).map (symbol :: ·)
termination_by text.length
decreasing_by
  assumption

end LogTemplate.Toml
