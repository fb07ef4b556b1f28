import LogTemplate.Proofs.Order
import Mathlib.Data.List.Forall2

/-!
# One buffer for all branches

A search may note the slots that took the tokens in a single buffer, which all branches write into
and none restores. What a failed branch left behind stays there, until another branch has come as
far and writes over it.

* `Trie.walk` is the search with such a buffer, `Notes.Shows` how the buffer belongs to the slots of
  the branch that is walked, and `Trie.walk_shows` that every walk keeps this;
* `Catalog.noted?_eq` says that a look-up with one buffer for both of its searches finds the same
  cover;
* `Derives` tells how a template consumes a line and tags its tokens, and `Catalog.match?_derives`
  that this is how a match comes about.
-/

namespace LogTemplate

/-- What a search notes: for each token of the line the slot that took it last, and the best cover
so far. -/
structure Notes where
  slots : List (Option Slot)
  best : Option Cover

namespace Notes

variable {taken stale : List (Option Slot)} {rest : Line} {notes : Notes} {best : Option Cover}

/-- Note a slot for `n` tokens from a position on. -/
def put (notes : Notes) (pos n : Nat) (slot? : Option Slot) : Notes :=
  { notes with
    slots := notes.slots.take pos ++ (List.replicate n slot? ++ notes.slots.drop (pos + n)) }

/-- A template ends here: the whole buffer is copied when it is a better cover. -/
def offer (notes : Notes) (ordinal wildcards : Nat) : Notes :=
  { notes with best := Cover.offer ⟨ordinal, wildcards, notes.slots⟩ notes.best }

/-- The buffer begins with the slots of the tokens that were taken, latest first; behind them, in
the place of the rest of the line, may stand anything. -/
structure Shows (taken : List (Option Slot)) (rest : Line) (best : Option Cover) (notes : Notes) :
    Prop where
  slots : ∃ stale, notes.slots = taken.reverse ++ stale ∧ stale.length = rest.length
  best : notes.best = best

/-- Writing at the end of what was taken takes more. -/
theorem Shows.put (h : notes.Shows taken rest best) (n : Nat) (slot? : Option Slot) :
    (notes.put taken.length n slot?).Shows (List.replicate n slot? ++ taken) (rest.drop n)
      best where
  slots := by
    obtain ⟨stale, eq, len⟩ := h.slots
    refine ⟨stale.drop n, ?_, by rw [List.length_drop, List.length_drop, len]⟩
    have pos : taken.length = taken.reverse.length := List.length_reverse.symm
    simp only [Notes.put, eq]
    rw [pos, List.take_left, List.drop_length_add_append]
    simp
  best := h.best

/-- What a branch has taken is a part of the rest for the next one. -/
theorem Shows.back {n : Nat} (le : n ≤ rest.length) {slot? : Option Slot}
    (h : notes.Shows (List.replicate n slot? ++ taken) (rest.drop n) best) :
    notes.Shows taken rest best where
  slots := by
    obtain ⟨stale, eq, len⟩ := h.slots
    refine ⟨List.replicate n slot? ++ stale, by simp [eq], ?_⟩
    rw [List.length_append, List.length_replicate, len, List.length_drop]
    omega
  best := h.best

/-- At the end of a line nothing stands behind what was taken. -/
theorem Shows.offer (h : notes.Shows taken [] best) (ordinal w : Nat) :
    (notes.offer ordinal w).Shows taken [] (Cover.offer ⟨ordinal, w, taken.reverse⟩ best) where
  slots := h.slots
  best := by
    obtain ⟨stale, eq, len⟩ := h.slots
    obtain rfl : stale = [] := List.eq_nil_of_length_eq_zero len
    rw [List.append_nil] at eq
    rw [Notes.offer, eq, h.best]

end Notes

/-! ### The walk -/

namespace Trie

variable {regextime : Tag}

mutual

/-- Walk a trie for the input, which begins at a position of the line. -/
def walk (regextime : Tag) (pos wildcards : Nat) (input : Line) (notes : Notes) : Trie → Notes
  | node terminal literals slots =>
    if isBeaten wildcards notes.best then notes
    else
      let notes := match input with
        | [] =>
          match terminal with
          | some ordinal => notes.offer ordinal wildcards
          | none => notes
        | t :: rest =>
          if t.isLiteral then walkLiteral regextime pos wildcards t.value rest notes literals
          else notes
      walkSlots regextime pos wildcards input notes slots
termination_by structural trie => trie

/-- Walk the branch of a literal. -/
def walkLiteral (regextime : Tag) (pos wildcards : Nat) (word : Text) (rest : Line)
    (notes : Notes) : List (Text × Trie) → Notes
  | [] => notes
  | (w, child) :: others =>
    if w = word then child.walk regextime (pos + 1) wildcards rest (notes.put pos 1 none)
    else walkLiteral regextime pos wildcards word rest notes others
termination_by structural literals => literals

/-- Walk the branches of slots. -/
def walkSlots (regextime : Tag) (pos wildcards : Nat) (input : Line) (notes : Notes) :
    List (Slot × Trie) → Notes
  | [] => notes
  | (s, child) :: others =>
    let notes := (s.spans regextime child input).foldl
      (fun notes n => child.walk regextime (pos + n) (wildcards + n) (input.drop n)
        (notes.put pos n (some s)))
      notes
    walkSlots regextime pos wildcards input notes others
termination_by structural slots => slots

end

theorem walkLiteral_eq (pos w : Nat) (word : Text) (rest : Line) (notes : Notes)
    (literals : List (Text × Trie)) :
    walkLiteral regextime pos w word rest notes literals =
      match literals.lookup word with
      | some child => child.walk regextime (pos + 1) w rest (notes.put pos 1 none)
      | none => notes := by
  induction literals with
  | nil => rfl
  | cons e literals ih =>
    obtain ⟨value, child⟩ := e
    unfold walkLiteral
    by_cases hv : value = word
    · simp [hv]
    · have : (word == value) = false := by simpa using fun e => hv e.symm
      simp [hv, List.lookup_cons, this, ih]

theorem walkSlots_eq (pos w : Nat) (input : Line) (notes : Notes) (slots : List (Slot × Trie)) :
    walkSlots regextime pos w input notes slots =
      slots.foldl (fun notes e => (e.1.spans regextime e.2 input).foldl
        (fun notes n => e.2.walk regextime (pos + n) (w + n) (input.drop n)
          (notes.put pos n (some e.1))) notes) notes := by
  induction slots generalizing notes with
  | nil => rfl
  | cons e slots ih =>
    obtain ⟨s, child⟩ := e
    unfold walkSlots
    simp [ih]

/-- A walk behind `n` tokens that were noted goes on as the search does, and leaves the buffer to
the next branch. -/
theorem walk_put {child : Trie} {taken : List (Option Slot)} {w n : Nat} {line : Line}
    {notes : Notes} {best : Option Cover} (slot? : Option Slot)
    (onBranch : ∀ {taken w line notes best}, notes.Shows taken line best →
      (child.walk regextime taken.length w line notes).Shows taken line
        (child.search regextime taken w line best))
    (le : n ≤ line.length) (h : notes.Shows taken line best) :
    (child.walk regextime (taken.length + n) w (line.drop n)
      (notes.put taken.length n slot?)).Shows taken line
        (child.search regextime (List.replicate n slot? ++ taken) w (line.drop n) best) := by
  have behind := onBranch (w := w) (h.put n slot?)
  rw [List.length_append, List.length_replicate, Nat.add_comm] at behind
  exact behind.back le

/-- A walk finds what the search finds, whatever earlier branches left in the buffer. It writes only
in the place of the rest of the line. -/
theorem walk_shows (trie : Trie) {taken : List (Option Slot)} {w : Nat} {line : Line}
    {notes : Notes} {best : Option Cover} (h : notes.Shows taken line best) :
    (trie.walk regextime taken.length w line notes).Shows taken line
      (trie.search regextime taken w line best) := by
  induction trie using Trie.induct generalizing taken w line notes best with
  | node terminal literals slots onLiterals onSlots =>
    unfold walk search
    rw [h.best]
    by_cases beaten : isBeaten w best
    · rw [if_pos beaten, if_pos beaten]
      exact h
    · rw [if_neg beaten, if_neg beaten]
      have behind {notes : Notes} {best : Option Cover} (h : notes.Shows taken line best) :
          (walkSlots regextime taken.length w line notes slots).Shows taken line
            (searchSlots regextime taken w line best slots) := by
        rw [walkSlots_eq, searchSlots_eq]
        refine List.foldl_rel h fun e he notes best h => ?_
        refine List.foldl_rel h fun n hn notes best h => ?_
        exact walk_put (some e.1) (onSlots e he) (Slot.takes_of_mem_spans hn).1 h
      refine behind ?_
      cases line with
      | nil =>
        cases terminal with
        | none => exact h
        | some ordinal => exact h.offer ordinal w
      | cons x rest =>
        by_cases hx : x.isLiteral
        · simp only [hx, if_true, walkLiteral_eq, searchLiteral_eq]
          cases branch : literals.lookup x.value with
          | none => exact h
          | some child =>
            have one : 1 ≤ (x :: rest).length := Nat.le_add_left 1 rest.length
            exact walk_put none (onLiterals _ (mem_of_lookup branch)) one h
        · simp only [hx, Bool.false_eq_true, if_false]
          exact h

end Trie

/-! ### Derivations -/

/-- A template consumes a line. A literal consumes a token of its value and leaves it as it is, a
placeholder consumes the tokens that its slot takes and puts its tag on them. The number counts the
tokens that placeholders consume. -/
inductive Derives (regextime : Tag) : Line → Line → Line → Nat → Prop
  | nil : Derives regextime [] [] [] 0
  | literal {t x : Token} {template line tagged : Line} {n : Nat} (ht : t.isLiteral)
      (hx : x.isLiteral) (value : x.value = t.value)
      (behind : Derives regextime template line tagged n) :
      Derives regextime (t :: template) (x :: line) (x :: tagged) n
  | placeholder {t : Token} {template taken line tagged : Line} {n : Nat} (ht : t.isPlaceholder)
      (takes : (Slot.ofToken t).Takes regextime taken line)
      (behind : Derives regextime template line tagged n) :
      Derives regextime (t :: template) (taken ++ line)
        (taken.map (fun x => { x with tag := t.tag }) ++ tagged) (taken.length + n)

namespace Derives

variable {regextime : Tag} {template line tagged : Line} {n : Nat}

theorem zipWith_retag_run (taken : Line) (t : Token) :
    taken.zipWith Catalog.retag (List.replicate taken.length (some (.ofToken t))) =
      taken.map fun x => { x with tag := t.tag } := by
  induction taken with
  | nil => rfl
  | cons x taken ih =>
    rw [List.length_cons, List.replicate_succ, List.zipWith_cons_cons, ih]
    rfl

/-- A cover derives the line that it tags. -/
theorem of_covers {slots : List (Option Slot)} (h : Covers regextime template line slots) :
    Derives regextime template line (line.zipWith Catalog.retag slots) (wildcards slots) := by
  induction h with
  | nil => exact .nil
  | literal ht hx value behind ih =>
    rw [wildcards_none]
    exact .literal ht hx value ih
  | placeholder ht takes behind ih =>
    rw [wildcards_run, List.zipWith_append (List.length_replicate).symm, zipWith_retag_run]
    exact .placeholder ht takes ih

/-- Each derivation is that of a cover. -/
theorem exists_covers (h : Derives regextime template line tagged n) :
    ∃ slots, Covers regextime template line slots ∧ wildcards slots = n := by
  induction h with
  | nil => exact ⟨[], .nil, rfl⟩
  | literal ht hx value behind ih =>
    obtain ⟨slots, covers, count⟩ := ih
    exact ⟨none :: slots, .literal ht hx value covers, by rw [wildcards_none, count]⟩
  | @placeholder t _ taken _ _ _ ht takes behind ih =>
    obtain ⟨slots, covers, count⟩ := ih
    exact ⟨_, .placeholder ht takes covers, by rw [wildcards_run, count]⟩

/-- Nothing but tags is changed. -/
theorem forall₂ (h : Derives regextime template line tagged n) :
    List.Forall₂ (fun x y => y = { x with tag := y.tag }) line tagged := by
  induction h with
  | nil => exact .nil
  | literal ht hx value behind ih => exact .cons rfl ih
  | @placeholder t _ taken _ _ _ ht takes behind ih =>
    refine List.rel_append ?_ ih
    rw [List.forall₂_map_right_iff]
    exact List.forall₂_same.2 fun x _ => rfl

end Derives

/-! ### Look-ups -/

namespace Catalog

variable {v : Vocabulary} {c : Catalog}

/-- The best cover that is noted when both tries of a look-up are walked with one buffer. -/
def noted? (v : Vocabulary) (c : Catalog) (line : Line) : Option Cover :=
  let notes : Notes := ⟨List.replicate line.length none, none⟩
  let notes := match c.fixed.lookup line.length with
    | some trie => trie.walk v.regextime 0 0 line notes
    | none => notes
  (c.variadic.walk v.regextime 0 0 line notes).best

theorem noted?_eq (v : Vocabulary) (c : Catalog) (line : Line) :
    c.noted? v line = c.cover? v line := by
  have start : Notes.Shows [] line none ⟨List.replicate line.length none, none⟩ :=
    ⟨⟨_, rfl, List.length_replicate⟩, rfl⟩
  unfold noted? cover?
  cases c.fixed.lookup line.length with
  | none => exact (c.variadic.walk_shows start).best
  | some trie => exact (c.variadic.walk_shows (trie.walk_shows start)).best

/-- A match has the tokens of the line, with other tags at most. Its template derives them from the
line, with as few tokens consumed by placeholders as in any derivation of this template, and the
derivation is that of the slots which stand in the one buffer when the best cover is noted. -/
theorem match?_derives (built : Built v c) {line : Line} {m : Match}
    (hm : c.match? v line = some m) :
    m.line.length = line.length ∧
    List.Forall₂ (fun x y => y = { x with tag := y.tag }) line m.line ∧
    ∃ T ∈ c.templates, m.id = T.id ∧ m.text = T.text ∧ m.offsets = T.offsets ∧
      ∃ slots, c.noted? v line = some ⟨T.ordinal, wildcards slots, slots⟩ ∧
        m.line = line.zipWith retag slots ∧
        Derives v.regextime T.line line m.line (wildcards slots) ∧
        ∀ tagged n, Derives v.regextime T.line line tagged n → wildcards slots ≤ n := by
  obtain ⟨cover, T, found, hT, rfl⟩ := exists_cover_of_match? hm
  obtain ⟨T', hT', count, best⟩ := isBest_of_cover? built.sound found
  rw [hT] at hT'
  cases hT'
  have derives := Derives.of_covers best.covers
  have ordinal : T.ordinal = cover.ordinal := built.sound.ordinal _ T hT
  refine ⟨derives.forall₂.length_eq.symm, derives.forall₂, T, best.registered, rfl, rfl, rfl,
    cover.slots, ?_, rfl, derives, fun tagged n other => ?_⟩
  · rw [noted?_eq, found, ordinal, ← count]
  · obtain ⟨slots, covers, rfl⟩ := other.exists_covers
    exact (best.least T best.registered slots covers).elim Nat.le_of_lt fun h => Nat.le_of_eq h.1

/-- A branch of another trie fails at the last token, and leaves its slots in the buffer. -/
theorem match?_derives_up : ∃ v, Vocabulary.ofSettings {} = .ok v ∧
    let c := ofRequests v [.text "disk %string% %string% %string% stop".toList [5, 14, 23],
      .text "disk %string:-% full %string:*% done".toList [5, 21]]
    let line := Scan.message v "disk a is full done".toList
    Built v c ∧ ∃ m, c.match? v line = some m ∧
      List.Forall₂ (fun x y => y = { x with tag := y.tag }) line m.line ∧
      ∃ T ∈ c.templates, m.id = T.id ∧ T.ordinal = 1 ∧
        ∃ n, Derives v.regextime T.line line m.line n ∧
          ∀ tagged k, Derives v.regextime T.line line tagged k → n ≤ k := by
  let v : Vocabulary := {
    tags := [("regextime".toList, .time), ("multiline".toList, .multiline)]
    regextime := ⟨1⟩
    multiline := ⟨2⟩ }
  refine ⟨v, rfl, ?_⟩
  intro c line
  have built : Built v c := built_ofRequests v _
  have found : (c.match? v line).isSome := by decide +kernel
  obtain ⟨m, hm⟩ := Option.isSome_iff_exists.1 found
  obtain ⟨-, tokens, T, hT, id, -, -, slots, noted, -, derives, least⟩ := match?_derives built hm
  have late : (c.noted? v line).map (·.ordinal) = some 1 := by decide +kernel
  rw [noted, Option.map_some, Option.some.injEq] at late
  exact ⟨built, m, hm, tokens, T, hT, id, late, _, derives, least⟩

end Catalog

end LogTemplate
