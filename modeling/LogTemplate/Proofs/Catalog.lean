import LogTemplate.Catalog
import LogTemplate.Proofs.Row
import LogTemplate.Proofs.Ways

/-!
# Catalogs find the best template

* `Catalog.Sound` is the invariant of catalogs: the tries hold exactly the covers of the registered
  templates, which are numbered in their order and have different texts;
* `Catalog.sound_register` is its step, `Catalog.sound_ofRequests` its run;
* `Catalog.match?_eq_best` compares a catalog with trying every template on its own.
-/

namespace LogTemplate

/-- A request to register a template: a tagged line, or pattern text with the announced positions of
its placeholders. -/
inductive Request where
  | line (line : Line)
  | text (text : Text) (offsets : List Nat)

namespace Catalog

variable {v : Vocabulary} {c : Catalog}

/-- The catalog after a request. One that is refused leaves the catalog as it was. -/
def apply (v : Vocabulary) (c : Catalog) (request : Request) : Catalog :=
  let answer := match request with
    | .line line => c.add v line
    | .text text offsets => c.addText v text offsets
  match answer with
  | .ok (c, _) => c
  | .error _ => c

/-- The catalog after a list of requests. -/
def ofRequests (v : Vocabulary) (requests : List Request) : Catalog := requests.foldl (apply v) {}

/-! ### Tries of a catalog -/

/-- Two lines belong to the same trie. -/
def SameTrie (a b : Line) : Prop :=
  isVariadic a = isVariadic b ∧ (isVariadic a = false → a.length = b.length)

theorem lookup_setTrie (n : Nat) (trie : Trie) (tries : List (Nat × Trie)) (m : Nat) :
    (setTrie n trie tries).lookup m = if m = n then some trie else tries.lookup m := by
  induction tries with
  | nil =>
    by_cases h : m = n
    · simp [setTrie, h]
    · simp [setTrie, List.lookup_cons, beq_false_of_ne h, h]
  | cons e tries ih =>
    obtain ⟨k, t⟩ := e
    unfold setTrie
    by_cases hk : k = n
    · subst hk
      by_cases h : m = k
      · simp [h]
      · simp [List.lookup_cons, beq_false_of_ne h, h]
    · by_cases h : m = n
      · subst h
        simp [hk, List.lookup_cons, beq_false_of_ne fun e => hk e.symm, ih]
      · simp [hk, List.lookup_cons, h, ih]

theorem trieOf_withTrie_self {a b : Line} (h : SameTrie a b) (trie : Trie) :
    (c.withTrie a trie).trieOf b = trie := by
  obtain ⟨same, len⟩ := h
  cases ha : isVariadic a with
  | true => simp [withTrie, trieOf, ← same, ha]
  | false => simp [withTrie, trieOf, ← same, ha, lookup_setTrie, len ha]

theorem trieOf_withTrie_of_not {a b : Line} (h : ¬SameTrie a b) (trie : Trie) :
    (c.withTrie a trie).trieOf b = c.trieOf b := by
  cases ha : isVariadic a <;> cases hb : isVariadic b
  · have : b.length ≠ a.length := fun e => h ⟨by rw [ha, hb], fun _ => e.symm⟩
    simp [withTrie, trieOf, ha, hb, lookup_setTrie, this]
  · simp [withTrie, trieOf, ha, hb]
  · simp [withTrie, trieOf, ha, hb]
  · exact absurd ⟨by rw [ha, hb], fun e => by rw [ha] at e; cases e⟩ h

theorem trieOf_congr {a b : Line} (h : SameTrie a b) : c.trieOf a = c.trieOf b := by
  obtain ⟨same, len⟩ := h
  cases ha : isVariadic a with
  | true => simp [trieOf, ← same, ha]
  | false => simp [trieOf, ← same, ha, len ha]

/-! ### The invariant -/

/-- The tries hold exactly the covers of the templates. -/
structure Sound (v : Vocabulary) (c : Catalog) : Prop where
  /-- Templates are numbered in their order. -/
  ordinal : ∀ (i : Nat) (T : Template), c.templates[i]? = some T → T.ordinal = i
  /-- The text of a template is its line's, and its identifier that of the text. -/
  text : ∀ T ∈ c.templates, T.text = (Line.print v T.line).text ∧ T.id = Id.ofTemplate T.text
  /-- No two templates have the same text. -/
  distinct : (c.templates.map (·.text)).Nodup
  /-- The ways through a trie are the covers of the templates that belong to it. -/
  way : ∀ (kin line : Line) (slots : List (Option Slot)) (i : Nat),
    (c.trieOf kin).Way v.regextime line slots i ↔
      ∃ T, c.templates[i]? = some T ∧ SameTrie T.line kin ∧ Covers v.regextime T.line line slots
  /-- A path in a trie ends in the template of that path. -/
  path : ∀ (kin line : Line) (i : Nat), (c.trieOf kin).find? line = some i →
    ∃ T, c.templates[i]? = some T ∧ T.line.steps = line.steps

/-- Templates are known by their texts. -/
theorem Sound.eq_of_text (h : Sound v c) {S T : Template} (hS : S ∈ c.templates)
    (hT : T ∈ c.templates) (text : S.text = T.text) : S = T :=
  List.inj_on_of_nodup_map h.distinct hS hT text

theorem sound_empty (v : Vocabulary) : Sound v {} where
  ordinal i T h := by simp at h
  text T h := by simp at h
  distinct := .nil
  way kin line slots i := by
    have : trieOf {} kin = .empty := by unfold trieOf; split <;> rfl
    simp [this, Trie.not_way_empty]
  path kin line i h := by
    have : trieOf {} kin = .empty := by unfold trieOf; split <;> rfl
    simp [this] at h

/-- The template that a request adds. -/
def newTemplate (v : Vocabulary) (c : Catalog) (line : Line) (offsets? : Option (List Nat)) :
    Template where
  id := Id.ofTemplate (Line.print v line).text
  text := (Line.print v line).text
  offsets := offsets?.getD (Line.print v line).offsets
  line := line
  ordinal := c.size

/-- The catalog with one more template. -/
def extend (v : Vocabulary) (c : Catalog) (line : Line) (offsets? : Option (List Nat)) : Catalog :=
  { c.withTrie line ((c.trieOf line).insert c.size line) with
    templates := c.templates ++ [newTemplate v c line offsets?] }

section Register

variable {line : Line} {T : Template}

/-- A known text is found first, -/
theorem register_of_text (h : Sound v c) (hT : T ∈ c.templates)
    (text : T.text = (Line.print v line).text) (offsets? : Option (List Nat)) :
    c.register v line offsets? = (c, T.id) := by
  unfold register
  cases known : c.templates.find? (·.text = (Line.print v line).text) with
  | some S =>
    have same : S.text = (Line.print v line).text := by simpa using List.find?_some known
    have : S = T := h.eq_of_text (List.mem_of_find?_eq_some known) hT (same.trans text.symm)
    simp [known, this]
  | none =>
    have fresh := List.find?_eq_none.1 known T hT
    simp [text] at fresh

/-- then a known path; -/
theorem register_of_path (fresh : ∀ T ∈ c.templates, T.text ≠ (Line.print v line).text) {i : Nat}
    (path : (c.trieOf line).find? line = some i) (hT : c.templates[i]? = some T)
    (offsets? : Option (List Nat)) : c.register v line offsets? = (c, T.id) := by
  have unknown : c.templates.find? (·.text = (Line.print v line).text) = none := by
    simpa using fresh
  simp [register, unknown, path, hT]

/-- what has neither is added. -/
theorem register_of_new (fresh : ∀ T ∈ c.templates, T.text ≠ (Line.print v line).text)
    (path : (c.trieOf line).find? line = none) (offsets? : Option (List Nat)) :
    c.register v line offsets? =
      (c.extend v line offsets?, (newTemplate v c line offsets?).id) := by
  have unknown : c.templates.find? (·.text = (Line.print v line).text) = none := by
    simpa using fresh
  simp [register, unknown, path, extend, newTemplate]

end Register

/-- Registration finds a template of the same text or of the same path, or adds one. -/
theorem register_cases (h : Sound v c) (line : Line) (offsets? : Option (List Nat)) :
    (∃ T ∈ c.templates, (T.text = (Line.print v line).text ∨ T.line.steps = line.steps) ∧
      c.register v line offsets? = (c, T.id)) ∨
    ((∀ T ∈ c.templates, T.text ≠ (Line.print v line).text) ∧
      (c.trieOf line).find? line = none ∧
      c.register v line offsets? =
        (c.extend v line offsets?, (newTemplate v c line offsets?).id)) := by
  by_cases known : ∃ T ∈ c.templates, T.text = (Line.print v line).text
  · obtain ⟨T, hT, text⟩ := known
    exact Or.inl ⟨T, hT, Or.inl text, register_of_text h hT text offsets?⟩
  · have fresh : ∀ T ∈ c.templates, T.text ≠ (Line.print v line).text := by simpa using known
    cases path : (c.trieOf line).find? line with
    | some i =>
      obtain ⟨T, hT, steps⟩ := h.path line line i path
      exact Or.inl ⟨T, List.mem_of_getElem? hT, Or.inr steps,
        register_of_path fresh path hT offsets?⟩
    | none => exact Or.inr ⟨fresh, rfl, register_of_new fresh path offsets?⟩

theorem trieOf_extend (line : Line) (offsets? : Option (List Nat)) (kin : Line) :
    (c.extend v line offsets?).trieOf kin =
      (c.withTrie line ((c.trieOf line).insert c.size line)).trieOf kin := rfl

theorem templates_extend (line : Line) (offsets? : Option (List Nat)) :
    (c.extend v line offsets?).templates = c.templates ++ [newTemplate v c line offsets?] := rfl

/-- The templates of an extended catalog by their numbers. -/
theorem getElem?_extend {line : Line} {offsets? : Option (List Nat)} {i : Nat} {T : Template} :
    (c.extend v line offsets?).templates[i]? = some T ↔
      c.templates[i]? = some T ∨ (i = c.size ∧ T = newTemplate v c line offsets?) := by
  rw [templates_extend, getElem?_concat, size]

/-- Adding a template with a new text and a new path keeps the invariant. -/
theorem sound_extend (h : Sound v c) {line : Line} {offsets? : Option (List Nat)}
    (text : ∀ T ∈ c.templates, T.text ≠ (Line.print v line).text)
    (path : (c.trieOf line).find? line = none) : Sound v (c.extend v line offsets?) where
  ordinal i T hT := by
    rcases getElem?_extend.1 hT with hT | ⟨rfl, rfl⟩
    · exact h.ordinal i T hT
    · rfl
  text T hT := by
    rw [templates_extend, List.mem_append, List.mem_singleton] at hT
    rcases hT with hT | rfl
    · exact h.text T hT
    · exact ⟨rfl, rfl⟩
  distinct := by
    rw [templates_extend, List.map_append, List.map_singleton]
    refine h.distinct.append (List.nodup_singleton _) ?_
    intro t ht hnew
    obtain ⟨S, hS, rfl⟩ := List.mem_map.1 ht
    exact text S hS (List.mem_singleton.1 hnew)
  way kin other slots i := by
    rw [trieOf_extend]
    by_cases same : SameTrie line kin
    · rw [trieOf_withTrie_self same, Trie.way_insert _ _ path, trieOf_congr same, h.way]
      constructor
      · rintro (⟨T, hT, hs, covers⟩ | ⟨rfl, covers⟩)
        · exact ⟨T, getElem?_extend.2 (Or.inl hT), hs, covers⟩
        · exact ⟨_, getElem?_extend.2 (Or.inr ⟨rfl, rfl⟩), same, covers⟩
      · rintro ⟨T, hT, hs, covers⟩
        rcases getElem?_extend.1 hT with hT | ⟨rfl, rfl⟩
        · exact Or.inl ⟨T, hT, hs, covers⟩
        · exact Or.inr ⟨rfl, covers⟩
    · rw [trieOf_withTrie_of_not same, h.way]
      constructor
      · rintro ⟨T, hT, hs, covers⟩
        exact ⟨T, getElem?_extend.2 (Or.inl hT), hs, covers⟩
      · rintro ⟨T, hT, hs, covers⟩
        rcases getElem?_extend.1 hT with hT | ⟨rfl, rfl⟩
        · exact ⟨T, hT, hs, covers⟩
        · exact absurd hs same
  path kin other i found := by
    rw [trieOf_extend] at found
    by_cases same : SameTrie line kin
    · rw [trieOf_withTrie_self same] at found
      rcases Trie.find?_insert found with ⟨rfl, steps⟩ | found
      · exact ⟨_, getElem?_extend.2 (Or.inr ⟨rfl, rfl⟩), steps.symm⟩
      · obtain ⟨T, hT, steps⟩ := h.path _ _ _ found
        exact ⟨T, getElem?_extend.2 (Or.inl hT), steps⟩
    · rw [trieOf_withTrie_of_not same] at found
      obtain ⟨T, hT, steps⟩ := h.path _ _ _ found
      exact ⟨T, getElem?_extend.2 (Or.inl hT), steps⟩

/-- Registration keeps the invariant. -/
theorem sound_register (h : Sound v c) (line : Line) (offsets? : Option (List Nat)) :
    Sound v (c.register v line offsets?).1 := by
  rcases register_cases h line offsets? with ⟨T, -, -, eq⟩ | ⟨text, path, eq⟩
  · rw [eq]; exact h
  · rw [eq]; exact sound_extend h text path

theorem sound_addAnchored (h : Sound v c) {line : Line} {offsets? : Option (List Nat)}
    {c' : Catalog} {id : Text} (hc : c.addAnchored v line offsets? = .ok (c', id)) :
    Sound v c' := by
  unfold addAnchored at hc
  split at hc
  · cases hc
  · split at hc
    · cases hc
    · have := sound_register h line offsets?
      rw [Except.ok.inj hc] at this
      exact this

theorem sound_addText (h : Sound v c) {text : Text} {offsets : List Nat} {c' : Catalog} {id : Text}
    (hc : c.addText v text offsets = .ok (c', id)) : Sound v c' := by
  unfold addText at hc
  split at hc
  · cases hc
  · exact sound_addAnchored h hc

/-- A request keeps the invariant, whether it is granted or refused. -/
theorem sound_apply (h : Sound v c) (request : Request) : Sound v (c.apply v request) := by
  unfold apply
  cases request with
  | line line =>
    cases hc : c.add v line with
    | ok answer => simpa [hc] using sound_addAnchored h hc
    | error e => simpa [hc] using h
  | text text offsets =>
    cases hc : c.addText v text offsets with
    | ok answer => simpa [hc] using sound_addText h hc
    | error e => simpa [hc] using h

/-- Every catalog that requests lead to is sound. -/
theorem sound_ofRequests (v : Vocabulary) (requests : List Request) :
    Sound v (ofRequests v requests) := by
  have run : ∀ c, Sound v c → Sound v (requests.foldl (apply v) c) := by
    induction requests with
    | nil => exact fun c h => h
    | cons request requests ih => exact fun c h => ih _ (sound_apply h request)
  exact run {} (sound_empty v)

/-! ### The best template -/

/-- A template without runs that covers a line belongs to the trie of the line's length. -/
theorem sameTrie_of_covers {template line kin : Line} {slots : List (Option Slot)}
    (covers : Covers v.regextime template line slots) (fixed : isVariadic template = false)
    (hk : isVariadic kin = false) (len : kin.length = line.length) : SameTrie template kin := by
  refine ⟨by rw [fixed, hk], fun _ => ?_⟩
  rw [len]
  refine (covers.length_eq fun t ht => ?_).symm
  simpa using (List.any_eq_false.1 fixed) t ht

/-- The covers that the templates of a catalog make. -/
def templateCovers (v : Vocabulary) (c : Catalog) (line : Line) : Cover → Prop :=
  fun cover => ∃ T, c.templates[cover.ordinal]? = some T ∧
    Covers v.regextime T.line line cover.slots ∧ cover.wildcards = wildcards cover.slots

/-- A line without runs, of a given length. -/
def fixedKin (n : Nat) : Line := List.replicate n (.literal [])

theorem isVariadic_fixedKin (n : Nat) : isVariadic (fixedKin n) = false := by
  simp [isVariadic, fixedKin, List.any_replicate, Token.literal, Modifier.isVariable]

theorem length_fixedKin (n : Nat) : (fixedKin n).length = n := List.length_replicate

/-- A line with a run. -/
def variadicKin : Line := [{ Token.literal [] with modifier := .plus }]

theorem isVariadic_variadicKin : isVariadic variadicKin = true := rfl

/-- The ways that a look-up goes over. -/
def ways (v : Vocabulary) (c : Catalog) (line : Line) : List (List (Option Slot) × Nat) :=
  (c.trieOf (fixedKin line.length)).ways v.regextime line ++
    (c.trieOf variadicKin).ways v.regextime line

theorem cover?_eq (v : Vocabulary) (c : Catalog) (line : Line) :
    c.cover? v line =
      Cover.offerAll ((c.ways v line).map fun way => ⟨way.2, wildcards way.1, way.1⟩) none := by
  have whole : (fun way => ⟨way.2, wildcards way.1, way.1⟩) = Trie.coverOf [] 0 := by
    funext way
    simp [Trie.coverOf]
  have variadic : c.trieOf variadicKin = c.variadic := rfl
  have fixed : c.trieOf (fixedKin line.length) = (c.fixed.lookup line.length).getD .empty := by
    rw [trieOf, isVariadic_fixedKin, length_fixedKin]
    rfl
  rw [whole, ways, List.map_append, Cover.offerAll_append, variadic, fixed, ← Trie.search_eq]
  unfold cover?
  cases c.fixed.lookup line.length with
  | none => simp [Cover.offerAll]
  | some trie => rw [Option.getD_some, ← Trie.search_eq]

/-- These are the covers of all templates. -/
theorem mem_ways (h : Sound v c) {line : Line} {slots : List (Option Slot)} {i : Nat} :
    (slots, i) ∈ c.ways v line ↔
      ∃ T, c.templates[i]? = some T ∧ Covers v.regextime T.line line slots := by
  rw [ways, List.mem_append, Trie.mem_ways, Trie.mem_ways, h.way, h.way]
  constructor
  · rintro (⟨T, hT, -, covers⟩ | ⟨T, hT, -, covers⟩) <;> exact ⟨T, hT, covers⟩
  · rintro ⟨T, hT, covers⟩
    cases hv : isVariadic T.line with
    | false =>
      exact Or.inl ⟨T, hT, sameTrie_of_covers covers hv (isVariadic_fixedKin _)
        (length_fixedKin _), covers⟩
    | true =>
      refine Or.inr ⟨T, hT, ⟨by rw [hv, isVariadic_variadicKin], ?_⟩, covers⟩
      intro e
      rw [hv] at e
      cases e

/-- The two searches of a look-up go over the covers of all templates. -/
theorem cover?_improves (h : Sound v c) (line : Line) :
    Improves (templateCovers v c line) none (c.cover? v line) := by
  rw [cover?_eq]
  refine (Cover.offerAll_improves _ none).congr fun cover => ?_
  rw [List.mem_map]
  constructor
  · rintro ⟨⟨slots, i⟩, mem, rfl⟩
    obtain ⟨T, hT, covers⟩ := (mem_ways h).1 mem
    exact ⟨T, hT, covers, rfl⟩
  · rintro ⟨T, hT, covers, hw⟩
    exact ⟨(cover.slots, cover.ordinal), (mem_ways h).2 ⟨T, hT, covers⟩, by simp only [← hw]⟩

/-- The template covers the line by these slots, and of all covers by registered templates this one
leaves the fewest tokens to placeholders; among equally good ones its template is the oldest. -/
structure IsBest (v : Vocabulary) (c : Catalog) (line : Line) (T : Template)
    (slots : List (Option Slot)) : Prop where
  registered : T ∈ c.templates
  covers : Covers v.regextime T.line line slots
  least : ∀ T' ∈ c.templates, ∀ slots', Covers v.regextime T'.line line slots' →
    wildcards slots < wildcards slots' ∨
      wildcards slots = wildcards slots' ∧ T.ordinal ≤ T'.ordinal

/-- The cover that a look-up finds is a best one. -/
theorem isBest_of_cover? (h : Sound v c) {line : Line} {cover : Cover}
    (found : c.cover? v line = some cover) :
    ∃ T, c.templates[cover.ordinal]? = some T ∧ cover.wildcards = wildcards cover.slots ∧
      c.IsBest v line T cover.slots := by
  have improves := cover?_improves h line
  rcases improves.sound cover found with hn | ⟨T, hT, covers, hw⟩
  · cases hn
  · refine ⟨T, hT, hw, List.mem_of_getElem? hT, covers, ?_⟩
    intro T' hT' slots' covers'
    obtain ⟨i, hi⟩ := List.mem_iff_getElem?.1 hT'
    obtain ⟨best, hbest, least⟩ :=
      improves.reaches ⟨i, wildcards slots', slots'⟩ ⟨T', hi, covers', rfl⟩
    rw [found] at hbest
    cases hbest
    rw [h.ordinal _ _ hT, h.ordinal _ _ hi, ← hw]
    exact least

/-- A match is made of a cover and its template. -/
theorem exists_cover_of_match? {line : Line} {m : Match} (hm : c.match? v line = some m) :
    ∃ cover T, c.cover? v line = some cover ∧ c.templates[cover.ordinal]? = some T ∧
      m = ⟨T.id, T.text, T.offsets, line.zipWith retag cover.slots⟩ := by
  unfold match? at hm
  split at hm
  · cases hm
  · simp only [Option.bind_eq_bind, Option.bind_eq_some_iff] at hm
    obtain ⟨cover, found, T, hT, hm⟩ := hm
    exact ⟨cover, T, found, hT, (Option.some.inj hm).symm⟩

theorem match?_of_cover? {line : Line} (hl : line ≠ []) {cover : Cover}
    (found : c.cover? v line = some cover) {T : Template}
    (hT : c.templates[cover.ordinal]? = some T) :
    c.match? v line = some ⟨T.id, T.text, T.offsets, line.zipWith retag cover.slots⟩ := by
  have ne : c.templates ≠ [] := List.ne_nil_of_mem (List.mem_of_getElem? hT)
  simp [match?, hl, ne, found, hT]

/-- A template that was found is the best one. -/
theorem isBest_of_match? (h : Sound v c) {line : Line} {m : Match} (hm : c.match? v line = some m) :
    ∃ T slots, c.IsBest v line T slots ∧
      m = ⟨T.id, T.text, T.offsets, line.zipWith retag slots⟩ := by
  obtain ⟨cover, T, found, hT, rfl⟩ := exists_cover_of_match? hm
  obtain ⟨T', hT', -, best⟩ := isBest_of_cover? h found
  rw [hT] at hT'
  cases hT'
  exact ⟨T, cover.slots, best, rfl⟩

/-- A line that some template covers has a match. -/
theorem match?_isSome (h : Sound v c) {line : Line} (hl : line ≠ []) {T : Template}
    (hT : T ∈ c.templates) {slots : List (Option Slot)}
    (covers : Covers v.regextime T.line line slots) : (c.match? v line).isSome := by
  obtain ⟨i, hi⟩ := List.mem_iff_getElem?.1 hT
  have improves := cover?_improves h line
  obtain ⟨best, found, -⟩ := improves.reaches ⟨i, wildcards slots, slots⟩ ⟨T, hi, covers, rfl⟩
  obtain ⟨T', hT', -⟩ := isBest_of_cover? h found
  rw [match?_of_cover? hl found hT']
  rfl

/-- A look-up agrees with trying every registered template on its own, for all catalogs that
requests lead to. It fails just when the line is empty or no template covers it, and else gives the
best template. -/
theorem match?_eq_best (v : Vocabulary) (requests : List Request) (line : Line) :
    ((ofRequests v requests).match? v line = none ↔
      line = [] ∨ ∀ T ∈ (ofRequests v requests).templates, ∀ slots,
        ¬Covers v.regextime T.line line slots) ∧
    ∀ m, (ofRequests v requests).match? v line = some m →
      ∃ T slots, (ofRequests v requests).IsBest v line T slots ∧
        m = ⟨T.id, T.text, T.offsets, line.zipWith retag slots⟩ := by
  have h := sound_ofRequests v requests
  refine ⟨⟨fun none => ?_, ?_⟩, fun m hm => isBest_of_match? h hm⟩
  · by_cases hl : line = []
    · exact Or.inl hl
    · refine Or.inr fun T hT slots covers => ?_
      have := match?_isSome h hl hT covers
      rw [none] at this
      cases this
  · intro uncovered
    cases hm : (ofRequests v requests).match? v line with
    | none => rfl
    | some m =>
      obtain ⟨T, slots, best, -⟩ := isBest_of_match? h hm
      rcases uncovered with rfl | uncovered
      · simp [match?] at hm
      · exact absurd best.covers (uncovered T best.registered slots)

end Catalog

end LogTemplate
