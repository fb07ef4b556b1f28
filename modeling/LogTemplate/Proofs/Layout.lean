import LogTemplate.Proofs.ArenaTrie
import LogTemplate.Proofs.Line
import LogTemplate.Proofs.Registration

/-!
# Catalogs by positions

A layout is a catalog as it lies in memory: a row of templates, an index of their texts, and arenas
in place of tries. A registration updates them one after the other and can find out in between that
its template is there already; the positions that it reads are not checked.

* `Layout.answer` is what a layout does at a request, `Layout.ofRequests` a run of requests;
* `Layout.Holds` says how the row, the index and the arenas belong together, `Layout.answer_spec`
  that each request keeps it, and that the layout goes on to show the same catalog;
* `Layout.holds_ofRequests` is the run.
-/

namespace LogTemplate

/-- A catalog by positions. -/
structure Layout where
  templates : List Template := []
  /-- The number of the template of a text. -/
  byText : Text → Option Nat := fun _ => none
  /-- The arenas of templates without variable runs, by the number of their tokens. -/
  fixed : Nat → Option Arena := fun _ => none
  /-- The arena of the other templates. -/
  variadic : Arena := {}

/-! ### Texts and steps -/

/-- A placeholder is written as its slot says. -/
theorem Placeholder.print_congr {v : Vocabulary} {t u : Token}
    (same : Slot.ofToken t = .ofToken u) :
    Placeholder.print v t = Placeholder.print v u := by
  simp only [Slot.ofToken, Slot.mk.injEq] at same
  obtain ⟨tag, kind, modifier, stop, group⟩ := same
  simp only [Placeholder.print, body, body.suffixes, runSuffix, tag, kind, modifier, stop, group]

theorem Line.printToken_congr {v : Vocabulary} {t u : Token} (same : Step.of t = Step.of u) :
    Line.printToken v t = Line.printToken v u := by
  rcases Step.cases_of_eq same with ⟨ht, hu, value⟩ | ⟨ht, hu, slot⟩
  · rw [printToken_literal ht, printToken_literal hu, value]
  · rw [printToken_placeholder ht, printToken_placeholder hu, Placeholder.print_congr slot]

/-- Where white space is not kept, all that a line is written by are its steps. -/
theorem Line.print_congr {v : Vocabulary} (unmarked : v.markSpaces = false) {line other : Line}
    (same : line.steps = other.steps) : Line.print v line = Line.print v other := by
  have behind : ∀ (p p' : Option Token) (start : Nat), p.isSome = p'.isSome →
      Line.printFrom v p start line = Line.printFrom v p' start other := by
    induction line generalizing other with
    | nil =>
      intro p p' start _
      obtain rfl : other = [] := by simpa [Line.steps, eq_comm] using same
      rfl
    | cons t line ih =>
      intro p p' start both
      rcases other with _ | ⟨u, other⟩
      · simp at same
      · rw [steps_cons, steps_cons, List.cons.injEq] at same
        have gap : separator v p t = separator v p' u := by
          cases p <;> cases p' <;> simp_all [separator]
        simp only [printFrom, gap, printToken_congr same.1, Step.isPlaceholder_congr same.1]
        rw [ih same.2 (some t) (some u) _ rfl]
  exact behind none none 0 rfl

namespace Layout

variable {v : Vocabulary} {l : Layout} {c : Catalog} {line kin : Line} {i k o : Nat}

/-! ### Requests -/

/-- The arena that a line belongs to. One that is not there yet is a bare root. -/
def arenaOf (l : Layout) (line : Line) : Arena :=
  if Catalog.isVariadic line then l.variadic else (l.fixed line.length).getD {}

/-- Set the arena that a line belongs to. -/
def withArena (l : Layout) (line : Line) (a : Arena) : Layout :=
  if Catalog.isVariadic line then { l with variadic := a }
  else { l with fixed := Function.update l.fixed line.length (some a) }

/-- The template at a position is kept. There is no value when there is none. -/
def known (l : Layout) (i : Nat) : Option (Layout × Text) :=
  (l.templates[i]?).map fun T => (l, T.id)

/-- Add a template to the row and to the index. -/
def push (l : Layout) (T : Template) : Layout :=
  { l with
    templates := l.templates ++ [T]
    byText := Function.update l.byText T.text (some l.templates.length) }

/-- Register a line. Its text is looked for in the index, then its path is added to its arena; the
template is added when neither was there. -/
def register (v : Vocabulary) (l : Layout) (line : Line) (offsets? : Option (List Nat)) :
    Option (Layout × Text) :=
  let printed := Line.print v line
  match l.byText printed.text with
  | some i => l.known i
  | none =>
    let ordinal := l.templates.length
    match (l.arenaOf line).insert ordinal 0 line with
    | (a, some i) => (l.withArena line a).known i
    | (a, none) =>
      let id := Id.ofTemplate printed.text
      let offsets := offsets?.getD printed.offsets
      some ((l.withArena line a).push { id, text := printed.text, offsets, line, ordinal }, id)

/-- Register a line that has a literal. -/
def grant (v : Vocabulary) (l : Layout) (line : Line) (offsets? : Option (List Nat)) :
    Option (Layout × Except CatalogError Text) :=
  if line.isEmpty then some (l, .error .noTokens)
  else if !line.any (·.isLiteral) then some (l, .error .noAnchor)
  else (l.register v line offsets?).map fun (l, id) => (l, .ok id)

/-- What a layout answers to a request, and what it is then. -/
def answer (v : Vocabulary) (l : Layout) : Request → Option (Layout × Except CatalogError Text)
  | .line line => l.grant v line none
  | .text written offsets =>
    match Scan.pattern v written offsets with
    | .error e => some (l, .error (.scan e))
    | .ok line => l.grant v line (some offsets)

/-- The layout behind a list of requests. -/
def ofRequests (v : Vocabulary) (requests : List Request) : Option Layout :=
  requests.foldlM (fun l request => (l.answer v request).map (·.1)) {}

theorem templates_push (l : Layout) (line : Line) (a : Arena) (T : Template) :
    ((l.withArena line a).push T).templates = l.templates ++ [T] := by
  unfold withArena
  split <;> rfl

theorem byText_push (l : Layout) (line : Line) (a : Arena) (T : Template) :
    ((l.withArena line a).push T).byText =
      Function.update l.byText T.text (some l.templates.length) := by
  unfold withArena
  split <;> rfl

theorem arenaOf_push (l : Layout) (T : Template) (kin : Line) :
    (l.push T).arenaOf kin = l.arenaOf kin := rfl

/-! ### What a layout shows -/

/-- The layout is one of this catalog. -/
structure Shows (l : Layout) (c : Catalog) : Prop where
  templates : c.templates = l.templates
  fixed : ∀ n, c.fixed.lookup n = (l.fixed n).map (·.trie 0)
  variadic : c.variadic = l.variadic.trie 0

/-- The row, the index and the arenas belong together. -/
structure Holds (l : Layout) : Prop where
  /-- Templates are numbered by their positions and identified by their texts, -/
  ordinal : ∀ (i : Nat) (T : Template), l.templates[i]? = some T →
    T.ordinal = i ∧ T.id = Id.ofTemplate T.text
  /-- which are all different. -/
  distinct : (l.templates.map (·.text)).Nodup
  /-- The index leads from each text to the position of its template, and from no other text. -/
  byText : Indexes l.byText (·.text) l.templates
  grown : ∀ kin, Arena.Grown (l.arenaOf kin)
  /-- The path of a template ends at its number. -/
  ends : ∀ T ∈ l.templates, ∃ k, (l.arenaOf T.line).walk? 0 T.line = some k ∧
    ((l.arenaOf T.line).node k).terminal = some T.ordinal
  /-- Where a number stands the path of its template ends. -/
  terminals : ∀ kin k o, ((l.arenaOf kin).node k).terminal = some o →
    ∃ T, l.templates[o]? = some T ∧ Catalog.SameTrie T.line kin ∧
      (l.arenaOf kin).walk? 0 T.line = some k

theorem trie_start : ({} : Arena).trie 0 = .empty := by
  rw [Arena.trie_eq Arena.grown_start]
  rfl

theorem arenaOf_start (kin : Line) : ({} : Layout).arenaOf kin = {} := by
  unfold arenaOf
  split <;> rfl

theorem shows_start : Shows {} {} := ⟨rfl, fun _ => rfl, trie_start.symm⟩

theorem holds_start : Holds {} where
  ordinal i T h := by simp at h
  distinct := .nil
  byText := .start _
  grown kin := by rw [arenaOf_start]; exact Arena.grown_start
  ends T h := by simp at h
  terminals kin k o h := by
    rw [arenaOf_start] at h
    cases k <;> cases h

theorem Shows.trieOf (h : l.Shows c) (kin : Line) : c.trieOf kin = (l.arenaOf kin).trie 0 := by
  unfold Catalog.trieOf arenaOf
  split
  · exact h.variadic
  · rw [h.fixed]
    cases l.fixed kin.length with
    | some a => rfl
    | none => exact trie_start.symm

/-- The path of a line ends in the arena where it does in the trie. -/
theorem Shows.snd_insert (h : l.Shows c) (holds : l.Holds) (o : Nat) (line : Line) :
    ((l.arenaOf line).insert o 0 line).2 = (c.trieOf line).find? line := by
  have grown := holds.grown line
  rw [Arena.snd_insert grown grown.root, h.trieOf, Arena.find?_trie grown]

theorem arenaOf_congr (same : Catalog.SameTrie line kin) : l.arenaOf line = l.arenaOf kin := by
  obtain ⟨kind, len⟩ := same
  unfold arenaOf
  cases hl : Catalog.isVariadic line with
  | true => simp [← kind, hl]
  | false => simp [← kind, hl, len hl]

theorem arenaOf_withArena_self (same : Catalog.SameTrie line kin) (a : Arena) :
    (l.withArena line a).arenaOf kin = a := by
  rw [← arenaOf_congr same]
  unfold withArena arenaOf
  split <;> simp

theorem arenaOf_withArena_of_not (apart : ¬Catalog.SameTrie line kin) (a : Arena) :
    (l.withArena line a).arenaOf kin = l.arenaOf kin := by
  unfold withArena arenaOf
  cases hl : Catalog.isVariadic line <;> cases hk : Catalog.isVariadic kin
  · have : kin.length ≠ line.length := fun e => apart ⟨by rw [hl, hk], fun _ => e.symm⟩
    simp [Function.update_of_ne this]
  · simp
  · simp
  · exact absurd ⟨by rw [hl, hk], fun e => by rw [hl] at e; cases e⟩ apart

theorem Shows.withArena (h : l.Shows c) (line : Line) (a : Arena) :
    (l.withArena line a).Shows (c.withTrie line (a.trie 0)) := by
  unfold Layout.withArena Catalog.withTrie
  split
  · exact ⟨h.templates, h.fixed, rfl⟩
  · refine ⟨h.templates, fun n => ?_, h.variadic⟩
    rw [Catalog.lookup_setTrie]
    by_cases hn : n = line.length
    · simp [hn]
    · simp [hn, h.fixed]

/-! ### Registration -/

theorem Holds.getElem?_ordinal (holds : l.Holds) {T : Template} (hT : T ∈ l.templates) :
    l.templates[T.ordinal]? = some T := by
  obtain ⟨i, hi⟩ := List.mem_iff_getElem?.1 hT
  rwa [(holds.ordinal i T hi).1]

/-- A path that ends in an arena is in no arena that is not there, so that setting the arena to what
it is changes nothing. -/
theorem withArena_arenaOf (known : ((l.arenaOf line).insert o 0 line).2 = some i) :
    l.withArena line (l.arenaOf line) = l := by
  unfold withArena
  unfold arenaOf at known ⊢
  cases hl : Catalog.isVariadic line with
  | true => simp
  | false =>
    rw [hl] at known
    cases here : l.fixed line.length with
    | some a =>
      have : Function.update l.fixed line.length (some a) = l.fixed := by simp [← here]
      simp [this]
    | none =>
      -- No path ends in a bare root.
      have grown := Arena.grown_start
      rw [here] at known
      simp only [Bool.false_eq_true, if_false, Option.getD_none] at known
      rw [Arena.snd_insert grown grown.root, ← Arena.find?_trie grown, trie_start,
        Trie.find?_empty] at known
      cases known

/-- The template that is added for a line. -/
theorem Shows.newTemplate (h : l.Shows c) (line : Line) (offsets? : Option (List Nat)) :
    Catalog.newTemplate v c line offsets? =
      { id := Id.ofTemplate (Line.print v line).text, text := (Line.print v line).text
        offsets := offsets?.getD (Line.print v line).offsets, line
        ordinal := l.templates.length } := by
  rw [Catalog.newTemplate, Catalog.size, h.templates]

/-- Set the arena of a template to what it is with the path of the template. -/
def withPath (l : Layout) (T : Template) : Layout :=
  l.withArena T.line ((l.arenaOf T.line).insert T.ordinal 0 T.line).1

/-- Paths of templates end where they did, and a new path ends at its number. -/
theorem Holds.ends_withPath (holds : l.Holds) {T : Template}
    (new : ((l.arenaOf T.line).insert T.ordinal 0 T.line).2 = none) :
    ∀ S ∈ l.templates ++ [T], ∃ k, ((l.withPath T).arenaOf S.line).walk? 0 S.line = some k ∧
      (((l.withPath T).arenaOf S.line).node k).terminal = some S.ordinal := by
  intro S hS
  have grown := holds.grown T.line
  rw [List.mem_append, List.mem_singleton] at hS
  rcases hS with hS | rfl
  · obtain ⟨k, walk, terminal⟩ := holds.ends S hS
    refine ⟨k, ?_⟩
    by_cases same : Catalog.SameTrie T.line S.line
    · rw [← arenaOf_congr same] at walk terminal
      rw [withPath, arenaOf_withArena_self same]
      exact ⟨Arena.walk?_insert grown grown.root _ _ walk,
        Arena.terminal_insert_of_some grown grown.root _ _ terminal⟩
    · rw [withPath, arenaOf_withArena_of_not same]
      exact ⟨walk, terminal⟩
  · obtain ⟨k, walk, terminal⟩ := Arena.walk?_insert_self grown grown.root S.ordinal S.line
    rw [new, Option.getD_none] at terminal
    rw [withPath, arenaOf_withArena_self ⟨rfl, fun _ => rfl⟩]
    exact ⟨k, walk, terminal⟩

/-- A number that stands in an arena stood there, or it is that of the new path, where this path
ends. -/
theorem Holds.terminals_withPath (holds : l.Holds) {T : Template}
    (terminal : (((l.withPath T).arenaOf kin).node k).terminal = some o) :
    ∃ S, (l.templates[o]? = some S ∨ (o = T.ordinal ∧ S = T)) ∧ Catalog.SameTrie S.line kin ∧
      ((l.withPath T).arenaOf kin).walk? 0 S.line = some k := by
  have grown := holds.grown T.line
  unfold withPath at terminal ⊢
  by_cases same : Catalog.SameTrie T.line kin
  · rw [arenaOf_withArena_self same] at terminal ⊢
    rcases Arena.terminal_insert grown grown.root terminal with old | ⟨walk, rfl⟩
    · rw [arenaOf_congr same] at old
      obtain ⟨S, hS, kindred, walk⟩ := holds.terminals kin k o old
      rw [← arenaOf_congr same] at walk
      exact ⟨S, .inl hS, kindred, Arena.walk?_insert grown grown.root _ _ walk⟩
    · exact ⟨T, .inr ⟨rfl, rfl⟩, same, walk⟩
  · rw [arenaOf_withArena_of_not same] at terminal ⊢
    obtain ⟨S, hS, kindred, walk⟩ := holds.terminals kin k o terminal
    exact ⟨S, .inl hS, kindred, walk⟩

/-- A template of a new text and a new path is added to the row, to the index and to its arena. -/
theorem Holds.push (holds : l.Holds) {T : Template} (ordinal : T.ordinal = l.templates.length)
    (id : T.id = Id.ofTemplate T.text) (fresh : ∀ S ∈ l.templates, S.text ≠ T.text)
    (new : ((l.arenaOf T.line).insert T.ordinal 0 T.line).2 = none) :
    ((l.withPath T).push T).Holds where
  ordinal i S hS := by
    rw [withPath, templates_push] at hS
    rcases getElem?_concat.1 hS with hS | ⟨rfl, rfl⟩
    · exact holds.ordinal i S hS
    · exact ⟨ordinal, id⟩
  distinct := by
    rw [withPath, templates_push]
    exact (holds.byText.push fresh).distinct
  byText := by
    rw [withPath, templates_push, byText_push]
    exact holds.byText.push fresh
  grown kin := by
    rw [arenaOf_push, withPath]
    by_cases same : Catalog.SameTrie T.line kin
    · rw [arenaOf_withArena_self same]
      exact (holds.grown T.line).insert (holds.grown T.line).root _ _
    · rw [arenaOf_withArena_of_not same]
      exact holds.grown kin
  ends S hS := by
    rw [withPath, templates_push] at hS
    exact holds.ends_withPath new S hS
  terminals kin k o terminal := by
    obtain ⟨S, hS, kindred, walk⟩ := holds.terminals_withPath terminal
    refine ⟨S, ?_, kindred, walk⟩
    rw [withPath, templates_push, getElem?_concat, ← ordinal]
    exact hS

/-- The layout with one more template shows the catalog with it. -/
theorem Shows.extend (shows : l.Shows c) (holds : l.Holds) (line : Line)
    (offsets? : Option (List Nat)) :
    ((l.withArena line ((l.arenaOf line).insert l.templates.length 0 line).1).push
      (Catalog.newTemplate v c line offsets?)).Shows (c.extend v line offsets?) := by
  have grown := holds.grown line
  have trie : ((l.arenaOf line).insert l.templates.length 0 line).1.trie 0 =
      (c.trieOf line).insert c.size line := by
    rw [Arena.trie_insert grown grown.root, shows.trieOf, Catalog.size, shows.templates]
  have arenas := shows.withArena line ((l.arenaOf line).insert l.templates.length 0 line).1
  rw [trie] at arenas
  refine ⟨?_, arenas.fixed, arenas.variadic⟩
  rw [templates_push, Catalog.templates_extend, shows.templates]

/-- A registration finds the positions that it reads, and the layout goes on to show the catalog. -/
theorem register_spec (sound : Catalog.Sound v c) (shows : l.Shows c) (holds : l.Holds)
    (line : Line) (offsets? : Option (List Nat)) :
    ∃ l', l.register v line offsets? = some (l', (c.register v line offsets?).2) ∧
      l'.Shows (c.register v line offsets?).1 ∧ l'.Holds := by
  have known : ∀ {i T}, c.templates[i]? = some T → l.known i = some (l, T.id) := by
    intro i T hT
    rw [Layout.known, ← shows.templates, hT]
    rfl
  unfold register
  cases indexed : l.byText (Line.print v line).text with
  | some i =>
    obtain ⟨T, hT, text⟩ := (holds.byText _ i).1 indexed
    rw [← shows.templates] at hT
    rw [Catalog.register_of_text sound (List.mem_of_getElem? hT) text]
    exact ⟨l, by simp [indexed, known hT], shows, holds⟩
  | none =>
    have fresh : ∀ T ∈ c.templates, T.text ≠ (Line.print v line).text := by
      rw [shows.templates]
      exact (holds.byText.eq_none_iff _).1 indexed
    have grown := holds.grown line
    have number := shows.snd_insert holds l.templates.length line
    cases path : (c.trieOf line).find? line with
    | some i =>
      obtain ⟨T, hT, -⟩ := sound.path line line i path
      rw [path] at number
      have kept := Arena.fst_insert_of_known grown grown.root number
      have answer : (l.arenaOf line).insert l.templates.length 0 line = (l.arenaOf line, some i) :=
        Prod.ext kept number
      rw [Catalog.register_of_path fresh path hT]
      exact ⟨l, by simp [indexed, answer, withArena_arenaOf number, known hT], shows, holds⟩
    | none =>
      rw [path] at number
      have answer : (l.arenaOf line).insert l.templates.length 0 line = (_, none) :=
        Prod.ext rfl number
      have new := shows.newTemplate (v := v) line offsets?
      rw [Catalog.register_of_new fresh path]
      refine ⟨_, ?_, shows.extend holds line offsets?, ?_⟩
      · dsimp only
        rw [indexed, answer, new]
      · let T : Template := {
          id := Id.ofTemplate (Line.print v line).text, text := (Line.print v line).text
          offsets := offsets?.getD (Line.print v line).offsets, line
          ordinal := l.templates.length }
        rw [new]
        exact holds.push (T := T) rfl rfl (shows.templates ▸ fresh) number

/-! ### Runs -/

/-- What a layout answers is what a catalog does. A granted request leaves a layout of the catalog,
and a refused one leaves all as it was. -/
inductive Follows (l : Layout) :
    Except CatalogError (Catalog × Text) → Option (Layout × Except CatalogError Text) → Prop
  | granted {l' : Layout} {c' : Catalog} {id : Text} (shows : l'.Shows c') (holds : l'.Holds) :
    Follows l (.ok (c', id)) (some (l', .ok id))
  | refused {e : CatalogError} : Follows l (.error e) (some (l, .error e))

theorem grant_spec (sound : Catalog.Sound v c) (shows : l.Shows c) (holds : l.Holds) (line : Line)
    (offsets? : Option (List Nat)) :
    l.Follows (c.addAnchored v line offsets?) (l.grant v line offsets?) := by
  unfold grant Catalog.addAnchored
  split
  · exact .refused
  · split
    · exact .refused
    · obtain ⟨l', eq, shows', holds'⟩ := register_spec sound shows holds line offsets?
      rw [eq]
      exact .granted shows' holds'

/-- A layout follows its catalog at each request. -/
theorem answer_spec (sound : Catalog.Sound v c) (shows : l.Shows c) (holds : l.Holds)
    (request : Request) : l.Follows (c.answer v request) (l.answer v request) := by
  cases request with
  | line line => exact grant_spec sound shows holds line none
  | text written offsets =>
    simp only [answer, Catalog.answer, Catalog.addText]
    cases Scan.pattern v written offsets with
    | error e => exact .refused
    | ok line => exact grant_spec sound shows holds line (some offsets)

/-- A layout follows its catalog through a run of requests. -/
theorem foldlM_spec (sound : Catalog.Sound v c) (shows : l.Shows c) (holds : l.Holds)
    (requests : List Request) :
    ∃ l', requests.foldlM (fun l request => (l.answer v request).map (·.1)) l = some l' ∧
      l'.Shows (requests.foldl (Catalog.apply v) c) ∧ l'.Holds := by
  induction requests generalizing l c with
  | nil => exact ⟨l, rfl, shows, holds⟩
  | cons request requests ih =>
    have sound' := Catalog.sound_apply sound request
    have step := answer_spec sound shows holds request
    rw [List.foldlM_cons, List.foldl_cons]
    generalize known : c.answer v request = answered at step
    generalize l.answer v request = answer at step ⊢
    cases step with
    | granted shows' holds' =>
      rw [Catalog.apply_of_ok known] at sound' ⊢
      exact ih sound' shows' holds'
    | refused =>
      rw [Catalog.apply_of_error known] at sound' ⊢
      exact ih sound' shows holds

/-- Where white space is not kept, a path that ends in an arena belongs to a known text. -/
theorem snd_insert_of_unmarked (sound : Catalog.Sound v c) (shows : l.Shows c) (holds : l.Holds)
    (unmarked : v.markSpaces = false) (fresh : l.byText (Line.print v line).text = none) (o : Nat) :
    ((l.arenaOf line).insert o 0 line).2 = none := by
  rw [shows.snd_insert holds]
  cases path : (c.trieOf line).find? line with
  | none => rfl
  | some i =>
    obtain ⟨T, hT, steps⟩ := sound.path line line i path
    have registered := List.mem_of_getElem? hT
    have text := (sound.text T registered).1.trans
      (congrArg Line.Printed.text (Line.print_congr unmarked steps))
    exact absurd text
      ((holds.byText.eq_none_iff _).1 fresh T (shows.templates ▸ registered))

/-- Through any run of requests the positions that are read are there, and the layout is that of the
catalog. Its row, its index and its arenas belong together: each number that stands in an arena is
that of exactly one template. Where white space is not kept, a text that is not in the index has a
path that is not in the arena. The next request is answered as the catalog answers it, and one that
is refused leaves all as it was. -/
theorem holds_ofRequests (v : Vocabulary) (requests : List Request) :
    ∃ l, ofRequests v requests = some l ∧ l.Shows (Catalog.ofRequests v requests) ∧ l.Holds ∧
      (∀ kin k o, ((l.arenaOf kin).node k).terminal = some o →
        ∃! T, T ∈ l.templates ∧ T.ordinal = o) ∧
      (v.markSpaces = false → ∀ line, l.byText (Line.print v line).text = none →
        ((l.arenaOf line).insert l.templates.length 0 line).2 = none) ∧
      ∀ request,
        l.Follows ((Catalog.ofRequests v requests).answer v request) (l.answer v request) := by
  have sound := Catalog.sound_ofRequests v requests
  obtain ⟨l, run, shows, holds⟩ :=
    foldlM_spec (Catalog.sound_empty v) shows_start holds_start requests
  refine ⟨l, run, shows, holds, fun kin k o terminal => ?_, fun unmarked line fresh => ?_,
    answer_spec sound shows holds⟩
  · obtain ⟨T, hT, -, -⟩ := holds.terminals kin k o terminal
    refine ⟨T, ⟨List.mem_of_getElem? hT, (holds.ordinal o T hT).1⟩, ?_⟩
    rintro S ⟨hS, rfl⟩
    have := holds.getElem?_ordinal hS
    rw [hT] at this
    exact (Option.some.inj this).symm
  · exact snd_insert_of_unmarked sound shows holds unmarked fresh _

/-- Where white space is kept, two texts can be of one path. -/
example :
    let v : Vocabulary := {
      tags := [("regextime".toList, .time), ("multiline".toList, .multiline)]
      regextime := ⟨1⟩
      multiline := ⟨2⟩
      markSpaces := true }
    let apart := { Token.literal "b".toList with spaceBefore := true }
    let a := Token.literal "a".toList
    let joined := Token.literal "b".toList
    (Line.print v [a, apart]).text ≠ (Line.print v [a, joined]).text ∧
      (ofRequests v [.line [a, apart], .line [a, joined]]).map (·.templates.length) = some 1 := by
  decide +kernel

end Layout

end LogTemplate
