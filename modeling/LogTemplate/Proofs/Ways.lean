import LogTemplate.Proofs.Trie
import Mathlib.Data.List.Basic
import Mathlib.Data.List.Induction

/-!
# The order in which covers are found

A search comes to the covers of a line in a fixed order and keeps the first of the best ones.

* `Slot.choices` are the numbers of tokens that a placeholder may take, in the order in which they
  are tried, and `Line.coverings` the covers of one template in the order that they make;
* `Trie.ways` lists the ways through a trie in the order of the search, `Trie.mem_ways`, and
  `Trie.search_eq` is the specification of the search: it offers all of them, although it passes
  branches over;
* `Trie.waysTo_insert_of_ne` and `Trie.waysTo_insert_self` say how a new path changes the list: the
  ways to the other templates keep their order, and those to the new one are its own covers.
-/

namespace LogTemplate

variable {regextime : Tag}

/-! ### Offers -/

namespace Cover

/-- The best of the covers that are offered one after the other, and of the best one so far. -/
def offerAll (covers : List Cover) (best : Option Cover) : Option Cover :=
  covers.foldl (fun best a => a.offer best) best

theorem offerAll_append (covers others : List Cover) (best : Option Cover) :
    offerAll (covers ++ others) best = offerAll others (offerAll covers best) :=
  List.foldl_append

theorem offerAll_flatMap {α : Type} (xs : List α) (f : α → List Cover) (best : Option Cover) :
    offerAll (xs.flatMap f) best = xs.foldl (fun best x => offerAll (f x) best) best :=
  List.foldl_flatMap

theorem offerAll_improves (covers : List Cover) (best : Option Cover) :
    Improves (· ∈ covers) best (offerAll covers best) := by
  refine (Improves.foldl covers (fun a _ best => offer_improves a best) best).congr fun a => ?_
  simp

/-- Covers that take more tokens by placeholders than the best one are offered in vain. -/
theorem offerAll_of_isBeaten {covers : List Cover} {w : Nat} {best : Option Cover}
    (beaten : Trie.isBeaten w best) (more : ∀ a ∈ covers, w ≤ a.wildcards) :
    offerAll covers best = best := by
  obtain ⟨b, rfl, less⟩ := (Option.any_eq_true _ _).1 beaten
  have less : b.wildcards < w := by simpa using less
  refine List.foldlRecOn covers _ (motive := (· = some b)) rfl ?_
  rintro _ rfl a ha
  have worse : a.isBetter b = false := by
    have := more a ha
    simp only [isBetter, Bool.or_eq_false_iff, Bool.and_eq_false_iff, decide_eq_false_iff_not,
      beq_eq_false_iff_ne]
    omega
  simp [offer, worse]

theorem isBetter_iff {a b : Cover} :
    a.isBetter b ↔
      a.wildcards < b.wildcards ∨ a.wildcards = b.wildcards ∧ a.ordinal < b.ordinal := by
  simp [isBetter]

/-- Of the best covers, which are those of as few tokens and of the same template, the first one is
kept. -/
theorem find?_of_offerAll {covers : List Cover} {a : Cover} (h : offerAll covers none = some a) :
    covers.find? (fun b => b.ordinal = a.ordinal && b.wildcards = a.wildcards) = some a := by
  induction covers using List.reverseRecOn generalizing a with
  | nil => cases h
  | append_singleton covers c ih =>
    rw [offerAll_append] at h
    have improves := offerAll_improves covers none
    rw [List.find?_append]
    cases before : offerAll covers none with
    | none =>
      obtain rfl : covers = [] := by
        refine List.eq_nil_iff_forall_not_mem.2 fun b hb => ?_
        obtain ⟨kept, hkept, -⟩ := improves.reaches b hb
        rw [before] at hkept
        cases hkept
      cases h
      simp
    | some b =>
      rw [before] at h
      by_cases better : c.isBetter b
      · have new : a = c := by simpa [offerAll, offer, better] using h.symm
        subst new
        rw [isBetter_iff] at better
        have first : covers.find? (fun b => b.ordinal = a.ordinal && b.wildcards = a.wildcards) =
            none := by
          refine List.find?_eq_none.2 fun d hd => ?_
          obtain ⟨best, hbest, least⟩ := improves.reaches d hd
          rw [before] at hbest
          cases hbest
          unfold AtLeast at least
          simp only [Bool.and_eq_true, decide_eq_true_eq]
          omega
        rw [first]
        simp
      · have kept : a = b := by simpa [offerAll, offer, better] using h.symm
        rw [kept, ih before]
        rfl

end Cover

/-! ### Numbers of tokens -/

namespace Slot

variable {s : Slot} {line : Line} {n : Nat}

/-- A node at which every run may end. -/
def anywhere (s : Slot) : Trie := .node none [] [(s, .empty)]

/-- The numbers of tokens that a placeholder may take from the beginning of a line, in the order in
which they are tried. -/
def choices (regextime : Tag) (s : Slot) (line : Line) : List Nat :=
  s.spans regextime s.anywhere line

theorem mayEnd_anywhere (s : Slot) (t : Token) : mayEnd s.anywhere t := by
  simp [mayEnd, anywhere, Trie.slots]

/-- All numbers that a placeholder may take are tried, and no others. -/
theorem mem_choices :
    n ∈ s.choices regextime line ↔
      n ≤ line.length ∧ s.Takes regextime (line.take n) (line.drop n) := by
  constructor
  · exact takes_of_mem_spans
  · rintro ⟨le, takes⟩
    have tried := mem_spans_of_takes takes fun t _ => mayEnd_anywhere s t
    rwa [List.take_append_drop, List.length_take_of_le le] at tried

/-- Ends at which nothing goes on can be left out. -/
theorem flatMap_endsBefore {α : Type} {p q : Token → Bool} (pq : ∀ t, p t → q t) (n : Nat)
    (line : Line) {f : Nat → List α}
    (goesOn : ∀ m, f (n + m) ≠ [] → ∀ t ∈ (line.drop m).head?, p t) :
    (endsBefore p n line).flatMap f = (endsBefore q n line).flatMap f := by
  induction line generalizing n with
  | nil => rfl
  | cons t line ih =>
    have others := ih (n + 1) fun m some => by
      have := goesOn (m + 1) (by rwa [Nat.add_comm m 1, ← Nat.add_assoc])
      simpa using this
    unfold endsBefore
    by_cases hp : p t
    · simp only [hp, pq t hp, if_true, List.flatMap_cons, others]
    · have none : f n = [] := by
        by_contra some
        exact hp (goesOn 0 some t rfl)
      simp only [hp, Bool.false_eq_true, if_false, others]
      split
      · rw [List.flatMap_cons, none, List.nil_append]
      · rfl

/-- A node behind a placeholder lets numbers out only where nothing goes on. -/
theorem flatMap_spans {α : Type} (child : Trie) {f : Nat → List α}
    (goesOn : ∀ n, f n ≠ [] → ∀ t ∈ (line.drop n).head?, mayEnd child t) :
    (s.spans regextime child line).flatMap f = (s.choices regextime line).flatMap f := by
  unfold choices spans
  cases s.modifier with
  | single => rfl
  | plus => rfl
  | star => rfl
  | minus =>
    cases line with
    | nil => rfl
    | cons x line =>
      cases s.stop with
      | some word => rfl
      | none =>
        refine flatMap_endsBefore (fun t _ => mayEnd_anywhere s t) 1 line fun m some => ?_
        have := goesOn (1 + m) some
        rwa [Nat.add_comm, List.drop_succ_cons] at this

end Slot

/-! ### The covers of a template -/

/-- The covers of a line by a template, in the order in which the numbers of tokens that its
placeholders may take are tried. -/
def Line.coverings (regextime : Tag) : Line → Line → List (List (Option Slot))
  | [], line => if line = [] then [[]] else []
  | t :: template, line =>
    if t.isLiteral then
      match line with
      | [] => []
      | x :: rest =>
        if x.isLiteral && x.value = t.value then (coverings regextime template rest).map (none :: ·)
        else []
    else
      ((Slot.ofToken t).choices regextime line).flatMap fun n =>
        (coverings regextime template (line.drop n)).map
          (List.replicate n (some (Slot.ofToken t)) ++ ·)

namespace Line

variable {t : Token} {template line : Line}

theorem coverings_literal_nil (ht : t.isLiteral) :
    coverings regextime (t :: template) [] = [] := by
  simp [coverings, ht]

theorem coverings_literal_cons (ht : t.isLiteral) (x : Token) (rest : Line) :
    coverings regextime (t :: template) (x :: rest) =
      if x.isLiteral && x.value = t.value then (coverings regextime template rest).map (none :: ·)
      else [] := by
  simp [coverings, ht]

theorem coverings_placeholder (ht : ¬t.isLiteral) (line : Line) :
    coverings regextime (t :: template) line =
      ((Slot.ofToken t).choices regextime line).flatMap fun n =>
        (coverings regextime template (line.drop n)).map
          (List.replicate n (some (Slot.ofToken t)) ++ ·) := by
  cases line <;> simp [coverings, ht]

/-- These are all covers. -/
theorem mem_coverings {slots : List (Option Slot)} :
    slots ∈ coverings regextime template line ↔ Covers regextime template line slots := by
  induction template generalizing line slots with
  | nil => simp [coverings, covers_nil_iff]
  | cons t template ih =>
    by_cases ht : t.isLiteral
    · rw [covers_literal_iff ht]
      cases line with
      | nil => simp [coverings_literal_nil ht]
      | cons x rest =>
        rw [coverings_literal_cons ht]
        by_cases fits : x.isLiteral && x.value = t.value
        · simp only [fits, if_true, List.mem_map]
          simp only [Bool.and_eq_true, decide_eq_true_eq] at fits
          constructor
          · rintro ⟨found, mem, rfl⟩
            exact ⟨x, rest, found, rfl, rfl, fits.1, fits.2, ih.1 mem⟩
          · rintro ⟨_, _, found, same, rfl, -, -, behind⟩
            cases same
            exact ⟨found, ih.2 behind, rfl⟩
        · simp only [fits, Bool.false_eq_true, if_false, List.not_mem_nil, false_iff]
          rintro ⟨_, _, _, same, -, hx, value, -⟩
          cases same
          exact fits (by simp [hx, value])
    · rw [coverings_placeholder ht, covers_placeholder_iff (by simpa [Token.isLiteral] using ht)]
      simp only [List.mem_flatMap, List.mem_map]
      constructor
      · rintro ⟨n, hn, found, mem, rfl⟩
        obtain ⟨le, takes⟩ := Slot.mem_choices.1 hn
        exact ⟨line.take n, line.drop n, found, (List.take_append_drop n line).symm,
          by rw [List.length_take_of_le le], takes, ih.1 mem⟩
      · rintro ⟨taken, rest, found, rfl, rfl, takes, behind⟩
        exact ⟨taken.length, Slot.mem_choices.2 (by simpa using takes), found,
          by simpa using ih.2 behind, rfl⟩

end Line

/-! ### The ways through a trie -/

namespace Trie

/-- A way behind tokens that were taken already. -/
def after (front : List (Option Slot)) (way : List (Option Slot) × Nat) :
    List (Option Slot) × Nat :=
  (front ++ way.1, way.2)

mutual

/-- The ways through a trie that consume the line, in the order of the search: the slots that take
the line's tokens and the number of the template at the end. -/
def ways (regextime : Tag) (line : Line) : Trie → List (List (Option Slot) × Nat)
  | node terminal literals slots =>
    (match line with
      | [] => terminal.toList.map ([], ·)
      | x :: rest => if x.isLiteral then waysOfLiteral regextime x.value rest literals else []) ++
    waysOfSlots regextime line slots
termination_by structural trie => trie

/-- The ways that begin with a literal. -/
def waysOfLiteral (regextime : Tag) (word : Text) (rest : Line) :
    List (Text × Trie) → List (List (Option Slot) × Nat)
  | [] => []
  | (w, child) :: others =>
    if w = word then (child.ways regextime rest).map (after [none])
    else waysOfLiteral regextime word rest others
termination_by structural literals => literals

/-- The ways that begin with a slot. -/
def waysOfSlots (regextime : Tag) (line : Line) :
    List (Slot × Trie) → List (List (Option Slot) × Nat)
  | [] => []
  | (s, child) :: others =>
    ((s.choices regextime line).flatMap fun n =>
      (child.ways regextime (line.drop n)).map (after (List.replicate n (some s)))) ++
    waysOfSlots regextime line others
termination_by structural slots => slots

end

@[simp] theorem ways_empty (line : Line) : empty.ways regextime line = [] := by
  cases line <;> simp [empty, ways, waysOfLiteral, waysOfSlots]

theorem waysOfLiteral_eq (word : Text) (rest : Line) (literals : List (Text × Trie)) :
    waysOfLiteral regextime word rest literals =
      (((literals.lookup word).getD empty).ways regextime rest).map (after [none]) := by
  induction literals with
  | nil => simp [waysOfLiteral]
  | cons e literals ih =>
    obtain ⟨w, child⟩ := e
    unfold waysOfLiteral
    by_cases hw : w = word
    · simp [hw]
    · simp [hw, List.lookup_cons, beq_false_of_ne (Ne.symm hw), ih]

/-- The ways that end at a node or begin with one of its literals. -/
def waysByLiterals (regextime : Tag) (terminal : Option Nat) (literals : List (Text × Trie)) :
    Line → List (List (Option Slot) × Nat)
  | [] => terminal.toList.map ([], ·)
  | x :: rest =>
    if x.isLiteral then
      (((literals.lookup x.value).getD empty).ways regextime rest).map (after [none])
    else []

/-- The ways that begin with a slot of a node. -/
def waysBySlot (regextime : Tag) (line : Line) (e : Slot × Trie) :
    List (List (Option Slot) × Nat) :=
  (e.1.choices regextime line).flatMap fun n =>
    (e.2.ways regextime (line.drop n)).map (after (List.replicate n (some e.1)))

theorem waysOfSlots_eq (line : Line) (slots : List (Slot × Trie)) :
    waysOfSlots regextime line slots = slots.flatMap (waysBySlot regextime line) := by
  induction slots with
  | nil => rfl
  | cons e slots ih => rw [List.flatMap_cons, ← ih]; rfl

theorem ways_node (line : Line) (terminal : Option Nat) (literals : List (Text × Trie))
    (slots : List (Slot × Trie)) :
    (node terminal literals slots).ways regextime line =
      waysByLiterals regextime terminal literals line ++
        slots.flatMap (waysBySlot regextime line) := by
  unfold ways
  rw [waysOfSlots_eq]
  cases line with
  | nil => rfl
  | cons x rest => simp only [waysOfLiteral_eq, waysByLiterals]

section Members

variable {terminal : Option Nat} {literals : List (Text × Trie)} {branches : List (Slot × Trie)}
  {line : Line} {slots : List (Option Slot)} {ordinal : Nat}

theorem mem_waysByLiterals
    (onLiterals : ∀ e ∈ literals, ∀ {line : Line} {slots : List (Option Slot)},
      (slots, ordinal) ∈ e.2.ways regextime line ↔ e.2.Way regextime line slots ordinal) :
    (slots, ordinal) ∈ waysByLiterals regextime terminal literals line ↔
      (line = [] ∧ slots = [] ∧ terminal = some ordinal) ∨
        LiteralWay regextime literals line slots ordinal := by
  constructor
  · intro h
    cases line with
    | nil =>
      simp only [waysByLiterals, List.mem_map, Option.mem_toList, Prod.mk.injEq] at h
      obtain ⟨i, terminal, rfl, rfl⟩ := h
      exact .inl ⟨rfl, rfl, terminal⟩
    | cons x rest =>
      simp only [waysByLiterals] at h
      by_cases hx : x.isLiteral
      · rw [if_pos hx] at h
        cases branch : literals.lookup x.value with
        | none => simp [branch] at h
        | some child =>
          simp only [branch, Option.getD_some, List.mem_map, after, Prod.mk.injEq] at h
          obtain ⟨⟨found, i⟩, mem, rfl, rfl⟩ := h
          exact .inr ⟨x, rest, found, child, rfl, rfl, hx, branch,
            (onLiterals _ (mem_of_lookup branch)).1 mem⟩
      · rw [if_neg hx] at h
        cases h
  · rintro (⟨rfl, rfl, rfl⟩ | ⟨x, rest, found, child, rfl, rfl, hx, branch, behind⟩)
    · exact List.mem_map_of_mem (Option.mem_toList.2 rfl)
    · have mem := (onLiterals _ (mem_of_lookup branch)).2 behind
      rw [waysByLiterals, if_pos hx, branch]
      exact List.mem_map_of_mem mem

theorem mem_waysBySlots
    (onSlots : ∀ e ∈ branches, ∀ {line : Line} {slots : List (Option Slot)},
      (slots, ordinal) ∈ e.2.ways regextime line ↔ e.2.Way regextime line slots ordinal) :
    (slots, ordinal) ∈ branches.flatMap (waysBySlot regextime line) ↔
      SlotWay regextime branches line slots ordinal := by
  constructor
  · intro h
    obtain ⟨⟨s, child⟩, branch, h⟩ := List.mem_flatMap.1 h
    simp only [waysBySlot, List.mem_flatMap, List.mem_map, after, Prod.mk.injEq] at h
    obtain ⟨n, hn, ⟨found, i⟩, mem, rfl, rfl⟩ := h
    obtain ⟨le, takes⟩ := Slot.mem_choices.1 hn
    exact ⟨s, line.take n, line.drop n, found, child, (List.take_append_drop n line).symm,
      by rw [List.length_take_of_le le], takes, branch, (onSlots _ branch).1 mem⟩
  · rintro ⟨s, taken, rest, found, child, rfl, rfl, takes, branch, behind⟩
    have mem := (onSlots _ branch).2 behind
    have tried : taken.length ∈ s.choices regextime (taken ++ rest) :=
      Slot.mem_choices.2 (by simpa using takes)
    refine List.mem_flatMap.2 ⟨(s, child), branch, ?_⟩
    refine List.mem_flatMap.2 ⟨taken.length, tried, List.mem_map.2 ⟨(found, ordinal), ?_, rfl⟩⟩
    rwa [List.drop_left]

/-- The list holds all ways, and nothing else. -/
theorem mem_ways {trie : Trie} :
    (slots, ordinal) ∈ trie.ways regextime line ↔ trie.Way regextime line slots ordinal := by
  induction trie using Trie.induct generalizing line slots with
  | node terminal literals branches onLiterals onSlots =>
    rw [ways_node, List.mem_append, mem_waysByLiterals onLiterals, mem_waysBySlots onSlots,
      way_node, or_assoc]

end Members

/-! ### The search -/

/-- The cover that a way makes of what was taken before it. -/
def coverOf (taken : List (Option Slot)) (w : Nat) (way : List (Option Slot) × Nat) : Cover :=
  ⟨way.2, w + wildcards way.1, taken.reverse ++ way.1⟩

theorem coverOf_none (taken : List (Option Slot)) (w : Nat) (way : List (Option Slot) × Nat) :
    coverOf taken w (after [none] way) = coverOf (none :: taken) w way := by
  simp [coverOf, after]

theorem coverOf_run (taken : List (Option Slot)) (w n : Nat) (s : Slot)
    (way : List (Option Slot) × Nat) :
    coverOf taken w (after (List.replicate n (some s)) way) =
      coverOf (List.replicate n (some s) ++ taken) (w + n) way := by
  have run : wildcards (List.replicate n (some s) ++ way.1) = n + wildcards way.1 := by simp
  simp [coverOf, after, run, Nat.add_assoc]

/-- The search of a slot offers the covers that begin with it, when that of its branch does. -/
theorem search_slot {e : Slot × Trie} {taken : List (Option Slot)} {w : Nat} {line : Line}
    (onBranch : ∀ taken w line best, e.2.search regextime taken w line best =
      Cover.offerAll ((e.2.ways regextime line).map (coverOf taken w)) best)
    (best : Option Cover) :
    (e.1.spans regextime e.2 line).foldl
        (fun best n => e.2.search regextime (List.replicate n (some e.1) ++ taken) (w + n)
          (line.drop n) best) best =
      Cover.offerAll ((waysBySlot regextime line e).map (coverOf taken w)) best := by
  simp only [onBranch]
  rw [← Cover.offerAll_flatMap, waysBySlot, List.map_flatMap]
  simp only [List.map_map, Function.comp_def, coverOf_run]
  -- Of the numbers that the branch does not let through, none leads to a way.
  rw [Slot.flatMap_spans]
  intro n goesOn t ht
  have ne : e.2.ways regextime (line.drop n) ≠ [] := by
    intro none
    rw [none] at goesOn
    exact goesOn rfl
  obtain ⟨way, mem⟩ := List.exists_mem_of_ne_nil _ ne
  exact (mem_ways.1 mem).mayEnd t ht

/-- The search offers the covers that all ways make, one after the other. -/
theorem search_eq (trie : Trie) (taken : List (Option Slot)) (w : Nat) (line : Line)
    (best : Option Cover) :
    trie.search regextime taken w line best =
      Cover.offerAll ((trie.ways regextime line).map (coverOf taken w)) best := by
  induction trie using Trie.induct generalizing taken w line best with
  | node terminal literals slots onLiterals onSlots =>
    by_cases beaten : isBeaten w best
    · -- What is passed over would be offered in vain.
      rw [Cover.offerAll_of_isBeaten beaten]
      · unfold search
        rw [if_pos beaten]
      · intro a ha
        obtain ⟨way, -, rfl⟩ := List.mem_map.1 ha
        exact Nat.le_add_right _ _
    · have behind : ∀ best, searchSlots regextime taken w line best slots =
          Cover.offerAll ((slots.flatMap (waysBySlot regextime line)).map (coverOf taken w))
            best := by
        intro best
        rw [searchSlots_eq, List.map_flatMap, Cover.offerAll_flatMap]
        exact List.foldl_ext _ _ _ fun best e he => search_slot (onSlots e he) best
      unfold search
      rw [if_neg beaten, ways_node, List.map_append, Cover.offerAll_append, behind]
      congr 1
      cases line with
      | nil => cases terminal <;> simp [waysByLiterals, Cover.offerAll, coverOf]
      | cons x rest =>
        by_cases hx : x.isLiteral
        · simp only [hx, if_true, searchLiteral_eq, waysByLiterals]
          cases branch : literals.lookup x.value with
          | none => simp [Cover.offerAll]
          | some child =>
            simp only [onLiterals _ (mem_of_lookup branch), Option.getD_some, List.map_map,
              Function.comp_def, coverOf_none]
        · simp [hx, waysByLiterals, Cover.offerAll]

/-! ### The ways to one template -/

/-- The slots of those ways in a list that lead to a template. -/
def slotsTo (i : Nat) (ways : List (List (Option Slot) × Nat)) : List (List (Option Slot)) :=
  ways.filterMap fun way => if way.2 = i then some way.1 else none

@[simp] theorem slotsTo_append (i : Nat) (ways others : List (List (Option Slot) × Nat)) :
    slotsTo i (ways ++ others) = slotsTo i ways ++ slotsTo i others := List.filterMap_append

theorem slotsTo_flatMap {α : Type} (i : Nat) (xs : List α)
    (f : α → List (List (Option Slot) × Nat)) :
    slotsTo i (xs.flatMap f) = xs.flatMap fun x => slotsTo i (f x) := List.filterMap_flatMap

@[simp] theorem slotsTo_after (i : Nat) (front : List (Option Slot))
    (ways : List (List (Option Slot) × Nat)) :
    slotsTo i (ways.map (after front)) = (slotsTo i ways).map (front ++ ·) := by
  simp only [slotsTo, List.filterMap_map, List.map_filterMap]
  refine List.filterMap_congr fun way _ => ?_
  by_cases hi : way.2 = i <;> simp [after, hi]

theorem mem_slotsTo {i : Nat} {ways : List (List (Option Slot) × Nat)}
    {slots : List (Option Slot)} : slots ∈ slotsTo i ways ↔ (slots, i) ∈ ways := by
  simp only [slotsTo, List.mem_filterMap, Option.ite_none_right_eq_some, Option.some.injEq]
  constructor
  · rintro ⟨way, mem, rfl, rfl⟩
    exact mem
  · intro mem
    exact ⟨_, mem, rfl, rfl⟩

theorem find?_slotsTo (i : Nat) (p : List (Option Slot) → Bool)
    (ways : List (List (Option Slot) × Nat)) :
    (slotsTo i ways).find? p = (ways.find? fun way => way.2 = i && p way.1).map (·.1) := by
  induction ways with
  | nil => rfl
  | cons way ways ih =>
    by_cases hi : way.2 = i
    · by_cases hp : p way.1
      · simp [slotsTo, hi, hp]
      · simpa [slotsTo, List.find?_cons, hi, hp] using ih
    · simpa [slotsTo, List.find?_cons, hi] using ih

/-- The slots of the ways to a template, in the order of the search. -/
def waysTo (regextime : Tag) (i : Nat) (line : Line) (trie : Trie) : List (List (Option Slot)) :=
  slotsTo i (trie.ways regextime line)

@[simp] theorem waysTo_empty (i : Nat) (line : Line) : empty.waysTo regextime i line = [] := by
  simp [waysTo, slotsTo]

/-- The slots of the ways to a template that begin with a slot of a node. -/
def waysToBySlot (regextime : Tag) (i : Nat) (line : Line) (e : Slot × Trie) :
    List (List (Option Slot)) :=
  (e.1.choices regextime line).flatMap fun n =>
    (e.2.waysTo regextime i (line.drop n)).map (List.replicate n (some e.1) ++ ·)

theorem waysTo_node (i : Nat) (line : Line) (terminal : Option Nat) (literals : List (Text × Trie))
    (slots : List (Slot × Trie)) :
    (node terminal literals slots).waysTo regextime i line =
      slotsTo i (waysByLiterals regextime terminal literals line) ++
        slots.flatMap (waysToBySlot regextime i line) := by
  simp only [waysTo, ways_node, slotsTo_append, slotsTo_flatMap, waysBySlot, slotsTo_after]
  rfl

theorem slotsTo_waysByLiterals_nil (i : Nat) (terminal : Option Nat)
    (literals : List (Text × Trie)) :
    slotsTo i (waysByLiterals regextime terminal literals []) =
      if terminal = some i then [[]] else [] := by
  cases terminal with
  | none => rfl
  | some j =>
    by_cases same : j = i <;> simp [waysByLiterals, slotsTo, same]

theorem slotsTo_waysByLiterals_cons (i : Nat) (terminal : Option Nat)
    (literals : List (Text × Trie)) (x : Token) (rest : Line) :
    slotsTo i (waysByLiterals regextime terminal literals (x :: rest)) =
      if x.isLiteral then
        (((literals.lookup x.value).getD empty).waysTo regextime i rest).map (none :: ·)
      else [] := by
  simp only [waysByLiterals]
  by_cases hx : x.isLiteral
  · simp [hx, waysTo]
  · simp [hx, slotsTo]

@[simp] theorem waysToBySlot_empty (regextime : Tag) (i : Nat) (line : Line) (s : Slot) :
    waysToBySlot regextime i line (s, empty) = [] := by
  simp [waysToBySlot]

/-- Of what the branches of slots give, a change of one branch changes what this one gives. -/
theorem flatMap_updateSlot {α : Type} (s : Slot) (f : Trie → Trie) (slots : List (Slot × Trie))
    {g : Slot × Trie → List α} (none : g (s, empty) = []) :
    ∃ child before behind, (slots.lookup s = some child ∨ child = empty) ∧
      slots.flatMap g = before ++ (g (s, child) ++ behind) ∧
      (updateSlot s f slots).flatMap g = before ++ (g (s, f child) ++ behind) := by
  obtain ⟨before, behind, hb, ⟨child, h₁, h₂⟩ | ⟨h₁, h₂⟩⟩ := updateSlot_cases s f slots
  · refine ⟨child, before.flatMap g, behind.flatMap g, .inl ?_, ?_, ?_⟩
    · simp [h₁, List.lookup_append, hb]
    · rw [h₁, List.flatMap_append, List.flatMap_cons]
    · rw [h₂, List.flatMap_append, List.flatMap_cons]
  · refine ⟨empty, before.flatMap g, behind.flatMap g, .inr rfl, ?_, ?_⟩
    · rw [h₁, List.flatMap_append, none, List.nil_append]
    · rw [h₂, List.flatMap_append, List.flatMap_cons]

section Insert

variable {new i : Nat} {template line : Line} {trie : Trie}

/-- A new path leaves the ways to the other templates in their order. -/
theorem waysTo_insert_of_ne (other : i ≠ new) (fresh : trie.find? template = none) (line : Line) :
    (trie.insert new template).waysTo regextime i line = trie.waysTo regextime i line := by
  induction template generalizing trie line with
  | nil =>
    obtain ⟨terminal, literals, branches⟩ := trie
    obtain rfl : terminal = none := fresh
    rw [insert, waysTo_node, waysTo_node]
    cases line with
    | nil => simp [slotsTo_waysByLiterals_nil, other.symm]
    | cons x rest => simp only [slotsTo_waysByLiterals_cons]
  | cons t template ih =>
    obtain ⟨terminal, literals, branches⟩ := trie
    by_cases ht : t.isLiteral
    · have behind := ih (find?_of_literal ht fresh)
      rw [insert, if_pos ht, waysTo_node, waysTo_node]
      congr 1
      cases line with
      | nil => simp only [slotsTo_waysByLiterals_nil]
      | cons x rest =>
        simp only [slotsTo_waysByLiterals_cons, lookup_updateLiteral]
        by_cases same : x.value = t.value
        · simp only [same, if_true, Option.getD_some, behind]
        · simp only [same, if_false]
    · rw [insert, if_neg ht, waysTo_node, waysTo_node]
      obtain ⟨child, before, behind, branch, old, changed⟩ := flatMap_updateSlot (.ofToken t)
        (insert new template) branches (waysToBySlot_empty regextime i line _)
      rw [old, changed]
      simp only [waysToBySlot, ih (find?_of_slot ht fresh branch)]

/-- The ways to a new template are its covers, in their order. -/
theorem waysTo_insert_self (fresh : trie.find? template = none)
    (unused : trie.waysTo regextime new line = []) :
    (trie.insert new template).waysTo regextime new line =
      Line.coverings regextime template line := by
  induction template generalizing trie line with
  | nil =>
    obtain ⟨terminal, literals, branches⟩ := trie
    obtain rfl : terminal = none := fresh
    have added : (none <|> some new) = some new := rfl
    rw [waysTo_node, List.append_eq_nil_iff] at unused
    rw [insert, waysTo_node, unused.2, List.append_nil, added]
    cases line with
    | nil => simp [slotsTo_waysByLiterals_nil, Line.coverings]
    | cons x rest =>
      have none := unused.1
      rw [slotsTo_waysByLiterals_cons] at none ⊢
      simpa [Line.coverings] using none
  | cons t template ih =>
    obtain ⟨terminal, literals, branches⟩ := trie
    rw [waysTo_node, List.append_eq_nil_iff] at unused
    obtain ⟨noLiteral, noSlot⟩ := unused
    by_cases ht : t.isLiteral
    · rw [insert, if_pos ht, waysTo_node, noSlot, List.append_nil]
      cases line with
      | nil =>
        rw [Line.coverings_literal_nil ht]
        rwa [slotsTo_waysByLiterals_nil] at noLiteral ⊢
      | cons x rest =>
        rw [slotsTo_waysByLiterals_cons] at noLiteral ⊢
        rw [lookup_updateLiteral, Line.coverings_literal_cons ht]
        by_cases hx : x.isLiteral
        · by_cases same : x.value = t.value
          · rw [if_pos hx, same, List.map_eq_nil_iff] at noLiteral
            simp only [hx, same, if_true, Option.getD_some, decide_true, Bool.and_self,
              ih (find?_of_literal ht fresh) noLiteral]
          · simpa [hx, same] using noLiteral
        · simp [hx]
    · rw [insert, if_neg ht, waysTo_node, noLiteral, List.nil_append, Line.coverings_placeholder ht]
      obtain ⟨child, before, behind, branch, old, changed⟩ := flatMap_updateSlot (.ofToken t)
        (insert new template) branches (waysToBySlot_empty regextime new line _)
      rw [old, List.append_eq_nil_iff, List.append_eq_nil_iff] at noSlot
      obtain ⟨rfl, none, rfl⟩ := noSlot
      rw [changed, List.nil_append, List.append_nil]
      refine List.flatMap_congr fun n hn => ?_
      rw [ih (find?_of_slot ht fresh branch)
        (List.map_eq_nil_iff.1 (List.flatMap_eq_nil_iff.1 none n hn))]

end Insert

end Trie

end LogTemplate
