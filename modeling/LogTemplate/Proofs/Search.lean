import LogTemplate.Proofs.Cover

/-!
# What a search goes over

* `Improves` says what going over some covers makes of the best one so far;
* `Trie.Way` are the ways through a trie that consume a line;
* `Slot.takes_of_mem_spans` and `Slot.mem_spans_of_takes` say that the numbers of tokens that are
  tried for a slot are right, and that they lose no way;
* `Trie.induct` is induction over tries, whose branches stand in lists.
-/

namespace LogTemplate

/-! ### Better covers -/

/-- The first cover is at least as good as the second. -/
def Cover.AtLeast (a b : Cover) : Prop :=
  a.wildcards < b.wildcards ∨ a.wildcards = b.wildcards ∧ a.ordinal ≤ b.ordinal

theorem Cover.AtLeast.refl (a : Cover) : a.AtLeast a := Or.inr ⟨rfl, Nat.le_refl _⟩

theorem Cover.AtLeast.trans {a b c : Cover} (hab : a.AtLeast b) (hbc : b.AtLeast c) :
    a.AtLeast c := by
  unfold Cover.AtLeast at *
  omega

/-- What a search that goes over the covers in `ways` makes of the best cover so far: it invents
nothing, forgets nothing and misses nothing. -/
structure Improves (ways : Cover → Prop) (before after : Option Cover) : Prop where
  sound : ∀ a ∈ after, a ∈ before ∨ ways a
  keeps : ∀ b ∈ before, ∃ a ∈ after, a.AtLeast b
  reaches : ∀ w, ways w → ∃ a ∈ after, a.AtLeast w

namespace Improves

variable {ways ways' : Cover → Prop} {first second third : Option Cover}

/-- Nothing to go over. -/
theorem of_none (h : ∀ w, ¬ways w) : Improves ways first first where
  sound _ ha := Or.inl ha
  keeps b hb := ⟨b, hb, .refl b⟩
  reaches w hw := absurd hw (h w)

/-- Ways that are no better than the best cover so far may be passed over. -/
theorem of_beaten {b : Cover} (hb : b ∈ first) (h : ∀ w, ways w → b.AtLeast w) :
    Improves ways first first where
  sound _ ha := Or.inl ha
  keeps b hb := ⟨b, hb, .refl b⟩
  reaches w hw := ⟨b, hb, h w hw⟩

/-- One search after the other. -/
theorem trans (h : Improves ways first second) (h' : Improves ways' second third) :
    Improves (fun w => ways w ∨ ways' w) first third where
  sound a ha := by
    rcases h'.sound a ha with hs | hw
    · exact (h.sound a hs).imp_right Or.inl
    · exact Or.inr (Or.inr hw)
  keeps b hb := by
    obtain ⟨a, ha, hab⟩ := h.keeps b hb
    obtain ⟨a', ha', haa⟩ := h'.keeps a ha
    exact ⟨a', ha', haa.trans hab⟩
  reaches w hw := by
    rcases hw with hw | hw
    · obtain ⟨a, ha, haw⟩ := h.reaches w hw
      obtain ⟨a', ha', haa⟩ := h'.keeps a ha
      exact ⟨a', ha', haa.trans haw⟩
    · exact h'.reaches w hw

theorem congr (h : Improves ways first second) (same : ∀ w, ways w ↔ ways' w) :
    Improves ways' first second where
  sound a ha := (h.sound a ha).imp_right (same a).1
  keeps := h.keeps
  reaches w hw := h.reaches w ((same w).2 hw)

/-- A fold of searches goes over all their ways. -/
theorem foldl {α : Type} {ways : α → Cover → Prop} {f : Option Cover → α → Option Cover}
    (xs : List α) (h : ∀ x ∈ xs, ∀ best, Improves (ways x) best (f best x))
    (best : Option Cover) : Improves (fun w => ∃ x ∈ xs, ways x w) best (xs.foldl f best) := by
  induction xs generalizing best with
  | nil => exact of_none fun w hw => by simp at hw
  | cons x xs ih =>
    have first := h x List.mem_cons_self best
    have others := ih (fun y hy => h y (List.mem_cons_of_mem _ hy)) (f best x)
    refine (first.trans others).congr fun w => ?_
    simp

end Improves

/-- Offering a cover goes over that cover alone. -/
theorem Cover.offer_improves (a : Cover) (best : Option Cover) :
    Improves (· = a) best (a.offer best) := by
  unfold Cover.offer
  rcases best with _ | b
  · exact ⟨by simp, by simp, fun w hw => ⟨a, by simp, hw ▸ .refl a⟩⟩
  · by_cases hab : a.isBetter b
    · have better : a.AtLeast b := by
        simp only [Cover.isBetter, Bool.or_eq_true, Bool.and_eq_true, decide_eq_true_eq,
          beq_iff_eq] at hab
        unfold Cover.AtLeast
        omega
      simp only [hab, if_true]
      exact ⟨by simp, fun c hc => ⟨a, rfl, by cases hc; exact better⟩,
        fun w hw => ⟨a, rfl, hw ▸ .refl a⟩⟩
    · have worse : b.AtLeast a := by
        simp only [Cover.isBetter, Bool.or_eq_true, Bool.and_eq_true, decide_eq_true_eq,
          beq_iff_eq] at hab
        unfold Cover.AtLeast
        omega
      simp only [hab, Bool.false_eq_true, if_false]
      exact Improves.of_beaten rfl fun w hw => hw ▸ worse

/-! ### Ways through a trie -/

/-- The ways through a trie that consume the line, each with the slots that took the line's tokens
and the number of the template at its end. -/
inductive Trie.Way (regextime : Tag) : Trie → Line → List (Option Slot) → Nat → Prop
  | here {trie : Trie} {ordinal : Nat} (terminal : trie.terminal? = some ordinal) :
      Way regextime trie [] [] ordinal
  | literal {trie child : Trie} {x : Token} {line : Line} {slots : List (Option Slot)}
      {ordinal : Nat} (hx : x.isLiteral) (branch : trie.literals.lookup x.value = some child)
      (behind : Way regextime child line slots ordinal) :
      Way regextime trie (x :: line) (none :: slots) ordinal
  | slot {trie child : Trie} {s : Slot} {taken line : Line} {slots : List (Option Slot)}
      {ordinal : Nat} (branch : (s, child) ∈ trie.slots) (takes : s.Takes regextime taken line)
      (behind : Way regextime child line slots ordinal) :
      Way regextime trie (taken ++ line) (List.replicate taken.length (some s) ++ slots) ordinal

/-- Where a way begins, a run without a stop word may end. -/
theorem Trie.Way.mayEnd {regextime : Tag} {trie : Trie} {line : Line}
    {slots : List (Option Slot)} {ordinal : Nat} (h : trie.Way regextime line slots ordinal) :
    ∀ t ∈ line.head?, Slot.mayEnd trie t := by
  intro t ht
  rcases h with _ | ⟨hx, branch, -⟩ | ⟨branch, -, -⟩
  · cases ht
  · cases ht
    simp [Slot.mayEnd, hx, branch]
  · have : trie.slots ≠ [] := List.ne_nil_of_mem branch
    simp [Slot.mayEnd, this]

/-! ### The numbers of tokens that are tried -/

namespace Slot

variable {regextime : Tag} {s : Slot} {child : Trie}

theorem mem_downFrom {n m : Nat} : m ∈ downFrom n ↔ 1 ≤ m ∧ m ≤ n := by
  induction n with
  | zero => simp [downFrom]; omega
  | succ n ih => simp [downFrom, ih]; omega

/-- All tokens of a beginning of the line are accepted when it is no longer than the reach. -/
theorem le_reach_iff {line : Line} {n : Nat} (hn : n ≤ line.length) :
    n ≤ s.reach regextime line ↔ ∀ t ∈ line.take n, s.accepts regextime t := by
  unfold reach
  induction line generalizing n with
  | nil => simp at hn; simp [hn]
  | cons x line ih =>
    rcases n with _ | n
    · simp
    · by_cases hx : s.accepts regextime x
      · simpa [hx] using ih (by simpa using hn)
      · simp [hx]

theorem reach_le (line : Line) : s.reach regextime line ≤ line.length :=
  (List.takeWhile_sublist _).length_le

theorem mem_endsBefore {p : Token → Bool} {n m : Nat} {line : Line} :
    m ∈ endsBefore p n line ↔
      n ≤ m ∧ m ≤ n + line.length ∧ ∀ t ∈ (line.drop (m - n)).head?, p t := by
  induction line generalizing n with
  | nil => simp [endsBefore]; omega
  | cons x line ih =>
    have here : m ∈ endsBefore p (n + 1) line ↔
        n < m ∧ m ≤ n + (line.length + 1) ∧ ∀ t ∈ ((x :: line).drop (m - n)).head?, p t := by
      rw [ih]
      by_cases hm : n < m
      · have : m - n = m - (n + 1) + 1 := by omega
        rw [this, List.drop_succ_cons]
        constructor <;> rintro ⟨h₁, h₂, h₃⟩ <;> exact ⟨by omega, by omega, h₃⟩
      · constructor <;> rintro ⟨h₁, -⟩ <;> omega
    have start : m = n → ((x :: line).drop (m - n)).head? = some x := by
      rintro rfl; simp
    unfold endsBefore
    by_cases hx : p x
    · simp only [hx, if_true, List.mem_cons, here, List.length_cons]
      constructor
      · rintro (rfl | ⟨h₁, h₂, h₃⟩)
        · exact ⟨Nat.le_refl _, by omega, by simp [hx]⟩
        · exact ⟨by omega, h₂, h₃⟩
      · rintro ⟨h₁, h₂, h₃⟩
        by_cases hm : m = n
        · exact Or.inl hm
        · exact Or.inr ⟨by omega, h₂, h₃⟩
    · simp only [hx, Bool.false_eq_true, if_false, here, List.length_cons]
      constructor
      · rintro ⟨h₁, h₂, h₃⟩
        exact ⟨by omega, h₂, h₃⟩
      · rintro ⟨h₁, h₂, h₃⟩
        have : m ≠ n := fun e => hx (h₃ x (by rw [start e]; rfl))
        exact ⟨by omega, h₂, h₃⟩

/-- Every number that is tried lets the slot take that many tokens. -/
theorem takes_of_mem_spans {line : Line} {n : Nat} (h : n ∈ s.spans regextime child line) :
    n ≤ line.length ∧ s.Takes regextime (line.take n) (line.drop n) := by
  unfold spans at h
  unfold Takes
  cases hm : s.modifier with
  | single =>
    rw [hm] at h
    rcases line with _ | ⟨x, line⟩
    · simp at h
    · by_cases hx : s.accepts regextime x
      · simp only [hx, if_true, List.mem_singleton] at h
        subst h
        exact ⟨by simp, x, by simp, hx⟩
      · simp [hx] at h
  | plus =>
    simp only [hm, mem_downFrom] at h
    have hle := Nat.le_trans h.2 (s.reach_le line)
    refine ⟨hle, ?_, (le_reach_iff hle).1 h.2⟩
    intro e
    have := congrArg List.length e
    rw [List.length_take, List.length_nil] at this
    omega
  | star =>
    have hr : n ≤ s.reach regextime line := by
      simp only [hm, List.mem_cons, mem_downFrom] at h
      omega
    have hle := Nat.le_trans hr (s.reach_le line)
    exact ⟨hle, (le_reach_iff hle).1 hr⟩
  | minus =>
    rw [hm] at h
    rcases line with _ | ⟨x, line⟩
    · simp at h
    · cases hs : s.stop with
      | none =>
        simp only [hs, mem_endsBefore] at h
        refine ⟨by simp; omega, ?_⟩
        have : n ≠ 0 := by omega
        simp [this]
      | some word =>
        simp only [hs] at h
        cases hf : line.findIdx? (·.value = word) with
        | none => simp [hf] at h
        | some i =>
          simp only [hf, List.mem_singleton] at h
          subst h
          obtain ⟨hi, hword, before⟩ := List.findIdx?_eq_some_iff_getElem.1 hf
          refine ⟨by simp; omega, by simp, ?_, (line)[i], ?_, by simpa using hword⟩
          · intro t ht
            simp only [List.take_succ_cons, List.tail_cons] at ht
            obtain ⟨j, hj, rfl⟩ := List.getElem_of_mem ht
            simp only [List.length_take] at hj
            have := before j (by omega)
            simpa [List.getElem_take] using this
          · simp [List.head?_drop, hi]

/-- No way is lost: when the slot may take tokens in front of a line at which a run may end, their
number is tried. -/
theorem mem_spans_of_takes {taken line : Line} (h : s.Takes regextime taken line)
    (ends : ∀ t ∈ line.head?, mayEnd child t) :
    taken.length ∈ s.spans regextime child (taken ++ line) := by
  have take : (taken ++ line).take taken.length = taken := by simp
  unfold Takes at h
  unfold spans
  cases hm : s.modifier with
  | single =>
    simp only [hm] at h
    obtain ⟨t, rfl, ht⟩ := h
    simp [ht]
  | plus =>
    simp only [hm] at h ⊢
    have pos : taken.length ≠ 0 := by simpa using h.1
    refine mem_downFrom.2 ⟨by omega, (le_reach_iff (by simp)).2 ?_⟩
    rw [take]
    exact h.2
  | star =>
    simp only [hm] at h ⊢
    have hr : taken.length ≤ s.reach regextime (taken ++ line) :=
      (le_reach_iff (by simp)).2 (by rw [take]; exact h)
    rcases Nat.eq_zero_or_pos taken.length with h0 | h0
    · simp [h0]
    · exact List.mem_cons_of_mem _ (mem_downFrom.2 ⟨h0, hr⟩)
  | minus =>
    cases hs : s.stop with
    | none =>
      simp only [hm, hs] at h ⊢
      rcases taken with _ | ⟨x, taken⟩
      · exact absurd rfl h
      · refine mem_endsBefore.2 ⟨by simp, by simp; omega, ?_⟩
        rcases line with _ | ⟨t, line⟩
        · simp
        · simpa using ends t rfl
    | some word =>
      simp only [hm, hs] at h ⊢
      obtain ⟨hne, before, t, ht, hword⟩ := h
      rcases taken with _ | ⟨x, taken⟩
      · exact absurd rfl hne
      · rcases line with _ | ⟨t', line⟩
        · simp at ht
        · have : t' = t := by simpa using ht
          subst this
          have hf : (taken ++ t' :: line).findIdx? (·.value = word) = some taken.length := by
            rw [List.findIdx?_append, List.findIdx?_eq_none_iff.2 (by simpa using before)]
            simp [List.findIdx?_cons, hword]
          simp [hf]

end Slot

/-! ### Branches of a search -/

/-- Induction over tries: a property of all branches of a node is one of the node. -/
@[elab_as_elim]
theorem Trie.induct {P : Trie → Prop}
    (node : ∀ terminal literals slots, (∀ e ∈ literals, P e.2) → (∀ e ∈ slots, P e.2) →
      P (.node terminal literals slots)) (trie : Trie) : P trie :=
  @Trie.rec P (fun literals => ∀ e ∈ literals, P e.2) (fun slots => ∀ e ∈ slots, P e.2)
    (fun e => P e.2) (fun e => P e.2) node (by simp)
    (fun _ _ he hrest => List.forall_mem_cons.2 ⟨he, hrest⟩) (by simp)
    (fun _ _ he hrest => List.forall_mem_cons.2 ⟨he, hrest⟩) (fun _ _ h => h) (fun _ _ h => h) trie

namespace Trie

variable {regextime : Tag}

theorem mem_of_lookup {α β : Type} [BEq α] [LawfulBEq α] {l : List (α × β)} {a : α} {b : β}
    (h : l.lookup a = some b) : (a, b) ∈ l := by
  obtain ⟨l₁, l₂, rfl, -⟩ := List.lookup_eq_some_iff.1 h
  simp

theorem lookup_map {α β γ : Type} [BEq α] (f : β → γ) (table : List (α × β)) (key : α) :
    (table.map fun entry => (entry.1, f entry.2)).lookup key = (table.lookup key).map f := by
  induction table with
  | nil => rfl
  | cons entry table ih =>
    rw [List.map_cons, List.lookup_cons, List.lookup_cons, ih]
    cases key == entry.1 <;> rfl

theorem lookup_cons_ite {α β : Type} [BEq α] [LawfulBEq α] [DecidableEq α] (key : α) (value : β)
    (l : List (α × β)) (a : α) :
    ((key, value) :: l).lookup a = if a = key then some value else l.lookup a := by
  by_cases h : a = key
  · simp [h]
  · simp [List.lookup_cons, beq_false_of_ne h, h]

/-- Searching the branch of a literal is searching what it leads to. -/
theorem searchLiteral_eq (taken : List (Option Slot)) (w : Nat) (word : Text) (line : Line)
    (best : Option Cover) (literals : List (Text × Trie)) :
    searchLiteral regextime taken w word line best literals =
      match literals.lookup word with
      | some child => child.search regextime (none :: taken) w line best
      | none => best := by
  induction literals with
  | nil => rfl
  | cons e literals ih =>
    obtain ⟨value, child⟩ := e
    unfold searchLiteral
    by_cases hv : value = word
    · simp [hv]
    · have : (word == value) = false := by simpa using fun e => hv e.symm
      simp [hv, List.lookup_cons, this, ih]

/-- Searching the slots is searching them one after the other. -/
theorem searchSlots_eq (taken : List (Option Slot)) (w : Nat) (line : Line) (best : Option Cover)
    (slots : List (Slot × Trie)) :
    searchSlots regextime taken w line best slots =
      slots.foldl (fun best e => (e.1.spans regextime e.2 line).foldl
        (fun best n => e.2.search regextime (List.replicate n (some e.1) ++ taken) (w + n)
          (line.drop n) best) best) best := by
  induction slots generalizing best with
  | nil => rfl
  | cons e slots ih =>
    obtain ⟨s, child⟩ := e
    unfold searchSlots
    simp [ih]

end Trie

end LogTemplate
