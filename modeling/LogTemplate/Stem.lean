import LogTemplate.Text.LowerCase

/-!
# English stems

The second Porter stemmer for English: words with a common stem denote the same keyword.

* `Stem.stem` is the stem of a word in lower case, `Stem.ofWord` of any word;
* a word is worked on with its last letter first, so that an ending is a beginning of the list;
* `Marks` are the lengths at which the two regions of a word begin: an ending lies in a region
  when what stands before it is at least that long;
* `replaceLongest` tries the endings of one step: only the longest ending that is present counts,
  whether or not its condition then holds.
-/

namespace LogTemplate.Stem

/-- A vowel. A capital `Y` marks a `y` that is read as a consonant. -/
def isVowel (c : Char) : Bool := c ∈ ['a', 'e', 'i', 'o', 'u', 'y']

/-- The lengths at which the first and the second region begin. -/
structure Marks where
  first : Nat
  second : Nat

/-- An ending, what replaces it, and the condition on the letters before it. -/
structure Rule where
  ending : String
  into : String
  allowed : Text → Bool := fun _ => true

/-- The letters before an ending, last letter first. -/
def before? (letters : Text) (ending : String) : Option Text :=
  let back := ending.toList.reverse
  if back.isPrefixOf letters then some (letters.drop back.length) else none

/-- The rule with the longest ending that the word has, with the letters before the ending. -/
def longest? (letters : Text) (rules : List Rule) : Option (Rule × Text) :=
  rules.foldl
    (fun found rule =>
      match before? letters rule.ending with
      | none => found
      | some rest =>
        match found with
        | some (_, shorter) => if rest.length < shorter.length then some (rule, rest) else found
        | none => some (rule, rest))
    none

/-- Put `into` at the end of the word. -/
def attach (into : String) (letters : Text) : Text := into.toList.reverse ++ letters

/-- One step: replace the longest ending, if it lies in the region and its condition holds. -/
def replaceLongest (region : Nat) (rules : List Rule) (letters : Text) : Text :=
  match longest? letters rules with
  | none => letters
  | some (rule, rest) =>
    if region ≤ rest.length && rule.allowed rest then attach rule.into rest else letters

/-- The word ends in a short syllable. -/
def endsShort : Text → Bool
  | c :: v :: d :: _ =>
    (!isVowel c && c ∉ ['w', 'x', 'Y']) && isVowel v && !isVowel d
  | [c, v] => !isVowel c && isVowel v
  | _ => false

/-- The first letter satisfies `p`. -/
def nextIs (p : Char → Bool) : Text → Bool
  | [] => false
  | c :: _ => p c

/-! ### Regions -/

/-- Mark each `y` that opens the word or follows a vowel. -/
def markConsonants (afterVowel : Bool) : Text → Text
  | [] => []
  | c :: rest =>
    if c = 'y' && afterVowel then 'Y' :: markConsonants false rest
    else c :: markConsonants (isVowel c) rest

/-- What follows the first consonant behind a vowel. -/
def afterSyllable? (word : Text) : Option Text :=
  match (word.dropWhile (!isVowel ·)).dropWhile isVowel with
  | [] => none
  | _ :: rest => some rest

/-- Beginnings whose first region is fixed. -/
def fixedBeginnings : List String := ["gener", "commun", "arsen"]

/-- The regions of a word. A region that does not exist begins at the end. -/
def marks (word : Text) : Marks :=
  let whole := word.length
  let tail? :=
    match fixedBeginnings.find? (fun s => s.toList.isPrefixOf word) with
    | some s => some (word.drop s.toList.length)
    | none => afterSyllable? word
  match tail? with
  | none => ⟨whole, whole⟩
  | some tail =>
    match afterSyllable? tail with
    | none => ⟨whole - tail.length, whole⟩
    | some rest => ⟨whole - tail.length, whole - rest.length⟩

/-! ### Steps -/

/-- Possessive endings go. -/
def dropPossessive : Text → Text :=
  replaceLongest 0 [⟨"'", "", fun _ => true⟩, ⟨"'s", "", fun _ => true⟩, ⟨"'s'", "", fun _ => true⟩]

/-- Plural endings. -/
def dropPlural (letters : Text) : Text :=
  match longest? letters
      [⟨"sses", "ss", fun _ => true⟩, ⟨"ied", "i", fun _ => true⟩, ⟨"ies", "i", fun _ => true⟩,
        ⟨"s", "", fun rest => (rest.drop 1).any isVowel⟩, ⟨"us", "us", fun _ => true⟩,
        ⟨"ss", "ss", fun _ => true⟩] with
  | none => letters
  | some (rule, rest) =>
    if !rule.allowed rest then letters
    else if rule.into == "i" && rest.length < 2 then attach "ie" rest
    else attach rule.into rest

/-- Letters that are written twice before an ending and once without it. -/
def doubled : List Char := ['b', 'd', 'f', 'g', 'm', 'n', 'p', 'r', 't']

/-- Mend the end of a word that lost its past or progressive ending. -/
def mend (m : Marks) (letters : Text) : Text :=
  if ["at", "bl", "iz"].any fun s => (before? letters s).isSome then attach "e" letters
  else
    match letters with
    | c :: d :: rest =>
      if c = d && c ∈ doubled then d :: rest
      else if letters.length = m.first && endsShort letters then attach "e" letters
      else letters
    | _ => if letters.length = m.first && endsShort letters then attach "e" letters else letters

/-- Past and progressive endings. -/
def dropPast (m : Marks) (letters : Text) : Text :=
  match longest? letters
      [⟨"eed", "ee", fun _ => true⟩, ⟨"eedly", "ee", fun _ => true⟩,
        ⟨"ed", "", fun _ => true⟩, ⟨"edly", "", fun _ => true⟩,
        ⟨"ing", "", fun _ => true⟩, ⟨"ingly", "", fun _ => true⟩] with
  | none => letters
  | some (rule, rest) =>
    if rule.into == "ee" then
      if m.first ≤ rest.length then attach "ee" rest else letters
    else if rest.any isVowel then mend m rest
    else letters

/-- A final `y` behind a consonant inside the word becomes `i`. -/
def turnY : Text → Text
  | c :: d :: e :: rest =>
    if (c = 'y' || c = 'Y') && !isVowel d then 'i' :: d :: e :: rest else c :: d :: e :: rest
  | letters => letters

/-- Long derivational endings. -/
def derivational : List Rule := [
  { ending := "tional", into := "tion" }, { ending := "enci", into := "ence" },
  { ending := "anci", into := "ance" }, { ending := "abli", into := "able" },
  { ending := "entli", into := "ent" }, { ending := "izer", into := "ize" },
  { ending := "ization", into := "ize" }, { ending := "ational", into := "ate" },
  { ending := "ation", into := "ate" }, { ending := "ator", into := "ate" },
  { ending := "alism", into := "al" }, { ending := "aliti", into := "al" },
  { ending := "alli", into := "al" }, { ending := "fulness", into := "ful" },
  { ending := "ousli", into := "ous" }, { ending := "ousness", into := "ous" },
  { ending := "iveness", into := "ive" }, { ending := "iviti", into := "ive" },
  { ending := "biliti", into := "ble" }, { ending := "bli", into := "ble" },
  { ending := "ogi", into := "og", allowed := nextIs (· = 'l') },
  { ending := "fulli", into := "ful" }, { ending := "lessli", into := "less" },
  { ending := "li", into := "",
    allowed := nextIs (· ∈ ['c', 'd', 'e', 'g', 'h', 'k', 'm', 'n', 'r', 't']) }]

/-- Short derivational endings; `second` is the mark of the second region. -/
def adjectival (second : Nat) : List Rule := [
  { ending := "tional", into := "tion" }, { ending := "ational", into := "ate" },
  { ending := "alize", into := "al" }, { ending := "icate", into := "ic" },
  { ending := "iciti", into := "ic" }, { ending := "ical", into := "ic" },
  { ending := "ful", into := "" }, { ending := "ness", into := "" },
  { ending := "ative", into := "", allowed := fun rest => second ≤ rest.length }]

/-- Endings that go when they lie in the second region. -/
def residual : List Rule :=
  ["al", "ance", "ence", "er", "ic", "able", "ible", "ant", "ement", "ment", "ent", "ism", "ate",
    "iti", "ous", "ive", "ize"].map (fun s => { ending := s, into := "" }) ++
  [{ ending := "ion", into := "", allowed := nextIs (fun c => c = 's' || c = 't') }]

/-- A final `e`, and the second of two final `l`. -/
def dropFinal (m : Marks) : Text → Text
  | 'e' :: rest =>
    if m.second ≤ rest.length || (m.first ≤ rest.length && !endsShort rest) then rest
    else 'e' :: rest
  | 'l' :: rest => if m.second ≤ rest.length && nextIs (· = 'l') rest then rest else 'l' :: rest
  | letters => letters

/-! ### Words with a stem of their own -/

/-- Irregular words. -/
def irregular : List (String × String) := [
  ("skis", "ski"), ("skies", "sky"), ("dying", "die"), ("lying", "lie"), ("tying", "tie"),
  ("idly", "idl"), ("gently", "gentl"), ("ugly", "ugli"), ("early", "earli"), ("only", "onli"),
  ("singly", "singl"), ("sky", "sky"), ("news", "news"), ("howe", "howe"), ("atlas", "atlas"),
  ("cosmos", "cosmos"), ("bias", "bias"), ("andes", "andes")]

/-- Words that are left alone once their plural ending is gone. -/
def invariant : List String :=
  ["inning", "outing", "canning", "herring", "earring", "proceed", "exceed", "succeed"]

/-- The steps on a word of at least three letters. -/
def regular (word : Text) : Text :=
  let bare := match word with
    | '\'' :: rest => rest
    | _ => word
  let marked := markConsonants true bare
  -- The regions are those of the whole word, and they stay while its endings go.
  let m := marks marked
  let singular := dropPlural (dropPossessive marked.reverse)
  let letters :=
    if invariant.any (fun s => s.toList.reverse = singular) then singular
    else
      dropFinal m <| replaceLongest m.second residual <|
        replaceLongest m.first (adjectival m.second) <|
        replaceLongest m.first derivational <| turnY <| dropPast m singular
  letters.reverse.map fun c => if c = 'Y' then 'y' else c

/-- The stem of a word in lower case. Words of one or two letters are their own stem. -/
def stem (word : Text) : Text :=
  match irregular.find? (fun (w, _) => w.toList = word) with
  | some (_, s) => s.toList
  | none => if word.length < 3 then word else regular word

/-- The stem of a word in any case. -/
def ofWord (word : Text) : Text := stem word.toLower

end LogTemplate.Stem
