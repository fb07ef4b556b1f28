import LogTemplate.Line

/-!
# Consensus

A template for lines of one length: column by column, what the lines have in common.

* `columnKind?` is the kind of a column with different values;
* `columnToken` is the token of a column, `inferTags` adds the tags that words hint at;
* `collapse` joins neighbouring placeholders of one kind to a run, and `widenTail` lets a last
  placeholder whose values vary much in length run to the end of the line;
* `generalize` puts these together.
-/

namespace LogTemplate.Consensus

/-- The columns of lines of one length. -/
def columns (rows : List Line) : List (List Token) :=
  (List.range ((rows.head?.map List.length).getD 0)).map fun j => rows.filterMap (·[j]?)

/-! ### Kinds -/

/-- The kind that a token counts as: a literal is a string. -/
def countedKind (t : Token) : Kind :=
  match t.kind with
  | .literal | .unknown => .string
  | kind => kind

/-- How often a kind is counted in a column. -/
def count (column : List Token) (kind : Kind) : Nat := column.countP (countedKind · = kind)

/-- The more frequent of two kinds, of equally frequent ones the more specific. -/
def preferred (column : List Token) (a b : Kind) : Kind :=
  if count column a < count column b then b
  else if count column a = count column b && b.specificity < a.specificity then b
  else a

/-- The most frequent kind of a column. -/
def majority (column : List Token) : Kind :=
  match Kind.all.filter (fun kind => 0 < count column kind) with
  | [] => .string
  | kind :: rest => rest.foldl (preferred column) kind

/-- The kind of a column: the most frequent one, float or string, the first that accepts every
token; none when even string does not. -/
def columnKind? (column : List Token) : Option Kind :=
  [majority column, .float, .string].find? fun kind => column.all fun t => kind.accepts t.kind

/-! ### Columns -/

/-- Every token is the literal of that value. -/
def isConstant (value : Text) (column : List Token) : Bool :=
  column.all fun t => t.isLiteral && t.value = value

/-- The group that all timestamps of a column share. -/
def commonGroup? (v : Vocabulary) (first : Token) (column : List Token) : Option Text :=
  if column.all fun t => t.tag = v.regextime && t.group = first.group then first.group else none

/-- The token that stands for a column. A column without a kind is a run of any tokens. -/
def columnToken (v : Vocabulary) (first : Token) (column : List Token) : Token :=
  let blank : Token := { value := first.value, kind := .string, spaceBefore := first.spaceBefore }
  if isConstant first.value column then { blank with kind := .literal }
  else
    match columnKind? column with
    | none => { blank with modifier := .minus }
    | some .time =>
      match commonGroup? v first column with
      | some group => { blank with kind := .time, tag := v.regextime, group := some group }
      | none => { blank with kind := .time }
    | some kind => { blank with kind }

/-- The tokens that stand for columns. -/
def columnTokens (v : Vocabulary) (columns : List (List Token)) : Line :=
  columns.filterMap fun column => column.head?.map (columnToken v · column)

/-! ### Tags -/

/-- The nearest word among the literals before a column, nearest first. Marks are passed over, a
placeholder ends the search. -/
def precedingWord? : Line → Option Text
  | [] => none
  | t :: rest =>
    if t.isPlaceholder then none
    else if t.value.any Text.isAlphanumeric then some t.value
    else precedingWord? rest

/-- The tag that a word hints at. -/
def hint? (v : Vocabulary) (word : Text) : Option Tag := v.keyword? word <|> (v.prekey word).head?

/-- A placeholder of this kind is never part of a run and gets no hinted tag. -/
def isFixedKind (kind : Kind) : Bool := kind = .time || kind = .multiline

/-- The token with the tag that the tokens before it, nearest first, hint at. -/
def inferTag (v : Vocabulary) (before : Line) (t : Token) : Token :=
  if t.isLiteral || t.tag != .unknown || isFixedKind t.kind then t
  else
    match (precedingWord? before).bind (hint? v) with
    | some tag => { t with tag }
    | none => t

/-- Add the hinted tags, behind tokens that are given nearest first. -/
def inferTags (v : Vocabulary) (before : Line) : Line → Line
  | [] => []
  | t :: rest =>
    let t := inferTag v before t
    t :: inferTags v (t :: before) rest

/-! ### Runs -/

/-- A token that stands for neighbouring columns. -/
structure Group where
  token : Token
  /-- The first column. -/
  start : Nat
  /-- The number of columns. -/
  width : Nat
  deriving DecidableEq, Repr

/-- A placeholder that may become part of a run. -/
def isCollapsible (t : Token) : Bool :=
  t.isPlaceholder && t.modifier = .single && t.group.isNone && !isFixedKind t.kind

/-- Two neighbours are one run. -/
def joins (a b : Token) : Bool :=
  isCollapsible b && isCollapsible a && a.tag = b.tag && a.kind = b.kind && a.group = b.group

/-- Take the next column into the groups, which are given latest first. -/
def collapseStep (groups : List Group) (t : Token) (j : Nat) : List Group :=
  match groups with
  | last :: rest =>
    if joins last.token t then
      { last with token := { last.token with modifier := .plus }, width := last.width + 1 } :: rest
    else ⟨t, j, 1⟩ :: last :: rest
  | [] => [⟨t, j, 1⟩]

/-- Join neighbouring placeholders; the groups are given latest first. -/
def collapse (line : Line) : List Group :=
  line.zipIdx.foldl (fun groups (t, j) => collapseStep groups t j) []

/-! ### The tail -/

/-- A last placeholder whose lengths vary by more than this part of their mean is a tail. -/
def tailThreshold : Float := 0.5

/-- The standard deviation as a part of the mean. -/
def variation (values : List Float) : Float :=
  if values.isEmpty then 0
  else
    let n := values.length.toFloat
    let mean := values.foldl (· + ·) 0 / n
    if mean ≤ 0 then 0
    else
      let variance := (values.map fun x => (x - mean) * (x - mean)).foldl (· + ·) 0 / n
      variance.sqrt / mean

/-- The lengths vary so much that they make a tail. -/
def isScattered (lengths : List Nat) : Bool :=
  tailThreshold < variation (lengths.map Nat.toFloat)

/-- The length of what a group stands for in a row. -/
def spanLength (g : Group) (row : Line) : Nat :=
  (((row.drop g.start).take g.width).map (·.value.length)).foldr (· + ·) 0

/-- Let a last placeholder run to the end of the line when its values vary much in length. -/
def widenTail (rows : List Line) (g : Group) : Token :=
  if g.token.isPlaceholder && !isFixedKind g.token.kind &&
      isScattered (rows.map (spanLength g)) then
    { g.token with modifier := .minus }
  else g.token

/-- The template of lines of one length. -/
def generalize (v : Vocabulary) (rows : List Line) : Line :=
  -- The groups are given latest first, so the first of them is the tail.
  match collapse (inferTags v [] (columnTokens v (columns rows))) with
  | [] => []
  | last :: rest => (widenTail rows last :: rest.map (·.token)).reverse

end LogTemplate.Consensus
