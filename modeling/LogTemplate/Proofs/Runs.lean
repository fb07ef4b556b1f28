import LogTemplate.Proofs.Consensus
import Mathlib.Data.List.SplitBy

/-!
# The runs of a template

Neighbouring placeholders of one kind and tag are joined two by two: a run that was made of two
columns is not joined to the third.

* `stretches` are the longest rows of columns that might be one run, `pairs` what becomes of them;
* `joinPairs` joins the tokens of a line by recursion, `map_collapse` says that `collapse` does it,
  and `joinPairs_eq` that it joins each stretch on its own;
* `generalize_pairs` says so of templates, and `generalize_stretch` shows one that has two
  tokens for one stretch.
-/

namespace LogTemplate.Consensus

variable {v : Vocabulary} {t u : Token} {line : Line}

/-- The longest rows of neighbours that are joined, if each is held against the one before it. -/
def stretches (line : Line) : List Line := line.splitBy joins

/-- A stretch, two by two. -/
def pairs : Line → Line
  | [] => []
  | [t] => [t]
  | t :: _ :: rest => { t with modifier := .plus } :: pairs rest

theorem length_pairs (stretch : Line) : (pairs stretch).length = (stretch.length + 1) / 2 := by
  induction stretch using pairs.induct with
  | case1 => rfl
  | case2 t => simp [pairs]
  | case3 t u rest ih =>
    simp only [pairs, List.length_cons, ih]
    omega

/-! ### What is joined -/

/-- Join each token to the one before it, unless that is a run already. -/
def joinPairs : Line → Line
  | [] => []
  | [t] => [t]
  | t :: u :: rest =>
    if joins t u then { t with modifier := .plus } :: joinPairs rest
    else t :: joinPairs (u :: rest)

/-- A run is not joined any further. -/
theorem joins_plus (t u : Token) : joins { t with modifier := .plus } u = false := by
  simp [joins, isCollapsible]

theorem collapseStep_of_joins {g : Group} {groups : List Group} {j : Nat}
    (h : joins g.token t = true) : collapseStep (g :: groups) t j =
      { g with token := { g.token with modifier := .plus }, width := g.width + 1 } :: groups := by
  simp [collapseStep, h]

/-- A token that is not joined begins a group. -/
theorem collapseStep_of_not {groups : List Group} {j : Nat}
    (h : ∀ g ∈ groups.head?, joins g.token t = false) :
    collapseStep groups t j = ⟨t, j, 1⟩ :: groups := by
  cases groups with
  | nil => rfl
  | cons g groups => simp [collapseStep, h g rfl]

/-- The tokens that are taken into groups, when the first of them is not joined. -/
theorem map_foldl_collapseStep (groups : List Group) (j : Nat)
    (apart : ∀ g ∈ groups.head?, ∀ t ∈ line.head?, joins g.token t = false) :
    ((line.zipIdx j).foldl (fun groups (t, j) => collapseStep groups t j) groups).map (·.token) =
      (joinPairs line).reverse ++ groups.map (·.token) := by
  -- A run that was just made is apart from whatever comes next, so the groups can be anything.
  induction line using joinPairs.induct generalizing groups j with
  | case1 => simp [joinPairs]
  | case2 t =>
    have first := collapseStep_of_not (j := j) fun g hg => apart g hg t rfl
    simp [joinPairs, first]
  | case3 t u rest joined ih =>
    have first := collapseStep_of_not (j := j) fun g hg => apart g hg t rfl
    have second : collapseStep (⟨t, j, 1⟩ :: groups) u (j + 1) =
        ⟨{ t with modifier := .plus }, j, 2⟩ :: groups := collapseStep_of_joins joined
    simp only [List.zipIdx_cons, List.foldl_cons, first, second]
    rw [ih]
    · simp [joinPairs, joined]
    · rintro _ ⟨⟩ w -
      exact joins_plus t w
  | case4 t u rest apart' ih =>
    have first := collapseStep_of_not (j := j) fun g hg => apart g hg t rfl
    simp only [List.zipIdx_cons, List.foldl_cons, first] at ih ⊢
    rw [ih]
    · simp [joinPairs, apart']
    · rintro _ ⟨⟩ _ ⟨⟩
      simpa using apart'

/-- The tokens of the groups of a line. -/
theorem map_collapse (line : Line) : (collapse line).map (·.token) = (joinPairs line).reverse :=
  (map_foldl_collapseStep [] 0 (by simp)).trans (List.append_nil _)

/-! ### Stretches -/

/-- A token that is not joined to the next one is a stretch of its own. -/
theorem stretches_cons_of_not (h : ∀ u ∈ line.head?, joins t u = false) :
    stretches (t :: line) = [t] :: stretches line :=
  List.splitBy_append (r := joins) (l := [t]) (m := line) (by simpa using h)

/-- A token that is joined to the next one begins its stretch. -/
theorem stretches_cons_of_joins (rest : Line) (h : joins t u = true) :
    ∃ stretch others, stretches (u :: rest) = (u :: stretch) :: others ∧
      stretches (t :: u :: rest) = (t :: u :: stretch) :: others := by
  obtain ⟨whole, full, chains, ends⟩ := List.splitBy_eq_iff.1 (Eq.refl (stretches (u :: rest)))
  cases eq : stretches (u :: rest) with
  | nil => simp [eq] at whole
  | cons first others =>
    rw [eq] at whole full chains ends
    obtain ⟨w, stretch, rfl⟩ : ∃ w stretch, first = w :: stretch :=
      List.exists_cons_of_ne_nil fun none => full (none ▸ List.mem_cons_self)
    obtain ⟨rfl, behind⟩ := List.cons.inj whole
    refine ⟨stretch, others, rfl, List.splitBy_eq_iff.2 ⟨?_, ?_, ?_, ?_⟩⟩
    · simpa using behind
    · simpa using full
    · rw [List.forall_mem_cons] at chains ⊢
      exact ⟨List.isChain_cons_cons.2 ⟨h, chains.1⟩, chains.2⟩
    · rw [List.isChain_cons] at ends ⊢
      refine ⟨fun next mem => ?_, ends.2⟩
      obtain ⟨_, some, apart⟩ := ends.1 next mem
      exact ⟨by simp, some, by simpa using apart⟩

/-- Each stretch is joined on its own, two by two. -/
theorem joinPairs_eq (line : Line) : joinPairs line = (stretches line).flatMap pairs := by
  induction line using joinPairs.induct with
  | case1 => rfl
  | case2 t => rfl
  | case3 t u rest joined ih =>
    rw [joinPairs, if_pos joined, ih]
    obtain ⟨stretch, others, own, whole⟩ := stretches_cons_of_joins rest joined
    rw [whole]
    -- The pair is the whole stretch, or the stretch goes on behind it.
    cases rest with
    | nil =>
      rw [stretches_cons_of_not (by simp)] at own
      cases own
      rfl
    | cons w rest =>
      by_cases next : joins u w = true
      · obtain ⟨stretch', others', own', whole'⟩ := stretches_cons_of_joins rest next
        rw [whole'] at own
        cases own
        rw [own']
        rfl
      · rw [stretches_cons_of_not (by simpa using next)] at own
        cases own
        rfl
  | case4 t u rest apart ih =>
    have own : stretches (t :: u :: rest) = [t] :: stretches (u :: rest) :=
      stretches_cons_of_not (by simpa using apart)
    rw [joinPairs, if_neg apart, ih, own]
    rfl

/-! ### Templates -/

/-- A template has the columns of its lines, each stretch joined two by two, where a last
placeholder may run to the end of the line. So a stretch of more than two columns is more than one
token. -/
theorem generalize_pairs (v : Vocabulary) (rows : List Line) :
    let runs := (stretches (slots v rows)).flatMap pairs
    (generalize v rows = runs ∨ ∃ front t, runs = front ++ [t] ∧ t.isPlaceholder ∧
      isFixedKind t.kind = false ∧ generalize v rows = front ++ [{ t with modifier := .minus }]) ∧
    ∀ stretch ∈ stretches (slots v rows), (pairs stretch).length = (stretch.length + 1) / 2 := by
  intro runs
  refine ⟨?_, fun stretch _ => length_pairs stretch⟩
  have tokens : ((collapse (slots v rows)).map (·.token)).reverse = runs := by
    rw [map_collapse, List.reverse_reverse, joinPairs_eq]
  rw [← tokens, generalize, ← slots]
  cases collapse (slots v rows) with
  | nil => exact .inl rfl
  | cons last groups =>
    by_cases widens : (last.token.isPlaceholder && !isFixedKind last.token.kind &&
        isScattered (rows.map (spanLength last))) = true
    · right
      simp only [widenTail, widens, if_true]
      simp only [Bool.and_eq_true, Bool.not_eq_true'] at widens
      exact ⟨(groups.map (·.token)).reverse, last.token, by simp, widens.1.1, widens.1.2, by simp⟩
    · left
      simp only [widenTail, widens]
      simp

/-- Three columns of numbers are one stretch, and two tokens of the template. -/
theorem generalize_stretch : ∃ v, Vocabulary.ofSettings {} = .ok v ∧
    let rows := ["a 1 2 3 b".toList, "a 4 5 6 b".toList].map (Scan.message v)
    (stretches (slots v rows)).map List.length = [1, 3, 1] ∧
      (generalize v rows).map (fun t => (t.kind, t.modifier, t.tag)) =
        [(.literal, .single, .unknown), (.integer, .plus, .unknown), (.integer, .single, .unknown),
          (.literal, .single, .unknown)] := by
  refine ⟨_, rfl, ?_, ?_⟩
  · decide +kernel
  · decide +kernel

end LogTemplate.Consensus
