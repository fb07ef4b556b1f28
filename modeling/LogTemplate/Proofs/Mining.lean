import LogTemplate.Miner
import LogTemplate.Proofs.Catalog

/-!
# The messages of a service

* `Mining.missed?` is the line of a message that no known template covers, `Mining.Learned` a
  learner that was given certain lines and has finished;
* `Mining.Pass.Holds` is what a pass knows after some messages, `Mining.Pass.holds_foldl` its run;
* `Mining.report_outcomes` tells the outcome of each message of a report by that message and the
  missed lines alone.
-/

namespace LogTemplate.Mining

variable {v : Vocabulary} {c : Catalog} {service : Text}

/-! ### The catalog of the stored templates -/

/-- Loading stored templates is requesting them by their texts. -/
theorem catalog_eq_ofRequests (v : Vocabulary) (stored : List StoredTemplate) :
    catalog v stored = .ofRequests v (stored.map fun t => .text t.text t.offsets) := by
  unfold catalog Catalog.ofRequests
  rw [List.foldl_map]
  rfl

theorem sound_catalog (v : Vocabulary) (stored : List StoredTemplate) :
    (catalog v stored).Sound v := by
  rw [catalog_eq_ofRequests]
  exact Catalog.sound_ofRequests _ _

/-- No two texts of templates of the catalog have the same identifier. -/
def DistinctIds (c : Catalog) : Prop :=
  ∀ S ∈ c.templates, ∀ T ∈ c.templates, Id.ofTemplate S.text = Id.ofTemplate T.text →
    S.text = T.text

theorem distinctIds_of_length_le_one (h : c.templates.length ≤ 1) : DistinctIds c := by
  intro S hS T hT _
  match hc : c.templates, h with
  | [], _ => rw [hc] at hS; cases hS
  | [U], _ =>
    rw [hc, List.mem_singleton] at hS hT
    rw [hS, hT]

/-- A template is found by its identifier. -/
theorem complexityOf_id (h : c.Sound v) (ids : DistinctIds c) {T : Template}
    (hT : T ∈ c.templates) : complexityOf c T.id = Line.complexity T.line := by
  unfold complexityOf
  cases found : c.templates.reverse.find? (·.id = T.id) with
  | none =>
    have := List.find?_eq_none.1 found T (List.mem_reverse.2 hT)
    simp at this
  | some S =>
    have hS : S ∈ c.templates := List.mem_reverse.1 (List.mem_of_find?_eq_some found)
    have sameId : S.id = T.id := by simpa using List.find?_some found
    have sameText : S.text = T.text := by
      rw [(h.text S hS).2, (h.text T hT).2] at sameId
      exact ids S hS T hT sameId
    simp [h.eq_of_text hS hT sameText]

/-! ### What is asked of a message -/

/-- The line of a message that no known template covers; none when there is such a template, when
the message cannot be scanned or has no tokens. -/
def missed? (v : Vocabulary) (c : Catalog) (message : Text) : Option Line :=
  match Scan.auto v message with
  | .error _ => none
  | .ok line => if line ≠ [] ∧ c.match? v line = none then some line else none

theorem missed?_eq_some_iff {message : Text} {line : Line} :
    missed? v c message = some line ↔
      Scan.auto v message = .ok line ∧ line ≠ [] ∧ c.match? v line = none := by
  unfold missed?
  cases h : Scan.auto v message with
  | error e => simp
  | ok found =>
    simp only [Option.ite_none_right_eq_some, Option.some.injEq, Except.ok.injEq]
    constructor
    · rintro ⟨ok, rfl⟩; exact ⟨rfl, ok⟩
    · rintro ⟨rfl, ok⟩; exact ⟨ok, rfl⟩

/-- The learner has collected these lines in their order, and then it has finished. -/
def Learned (v : Vocabulary) (lines : List Line) (l : Learner) : Prop :=
  ∃ collected templates, lines.foldlM Learner.add {} = .ok collected ∧
    collected.finish v = .ok (l, templates)

/-- The hit of a message that a known template covers. -/
def KnownHit (v : Vocabulary) (c : Catalog) (service message : Text) (h : Hit) : Prop :=
  ∃ line m T, Scan.auto v message = .ok line ∧ c.match? v line = some m ∧
    T ∈ c.templates ∧ m.id = T.id ∧ m.text = T.text ∧ m.offsets = T.offsets ∧
    h = {
      id := Id.inService m.text service
      text := m.text
      offsets := m.offsets
      complexity := Line.complexity T.line
      isNew := false }

/-- The hit of a message that a template covers which is found for the missed lines. -/
def NewHit (v : Vocabulary) (c : Catalog) (service : Text) (missed : List Line) (message : Text)
    (h : Hit) : Prop :=
  ∃ line l template, Scan.auto v message = .ok line ∧ line ≠ [] ∧ c.match? v line = none ∧
    Learned v missed l ∧ l.templateOf? v line = some template ∧
    (∃ t ∈ template, t.isLiteral) ∧
    h = {
      id := Id.inService (Line.print v template).text service
      text := (Line.print v template).text
      offsets := (Line.print v template).offsets
      complexity := Line.complexity template
      isNew := true }

theorem newHit?_eq_some_iff {template : Line} {h : Hit} :
    newHit? v service template = some h ↔ (∃ t ∈ template, t.isLiteral) ∧
      h = {
        id := Id.inService (Line.print v template).text service
        text := (Line.print v template).text
        offsets := (Line.print v template).offsets
        complexity := Line.complexity template
        isNew := true } := by
  unfold newHit?
  constructor
  · intro found
    split at found
    · next hl => exact ⟨by simpa using hl, (Option.some.inj found).symm⟩
    · cases found
  · rintro ⟨hl, rfl⟩
    rw [if_pos (by simpa using hl)]

/-- The hit of the known template that covers a message. -/
def firstHit? (v : Vocabulary) (c : Catalog) (service message : Text) : Option Hit :=
  match Scan.auto v message with
  | .error _ => none
  | .ok line => (c.match? v line).map (knownHit c service)

theorem firstHit?_eq_some_iff (h : c.Sound v) (ids : DistinctIds c) {message : Text} {hit : Hit} :
    firstHit? v c service message = some hit ↔ KnownHit v c service message hit := by
  unfold firstHit? KnownHit
  cases scan : Scan.auto v message with
  | error e => simp
  | ok line =>
    simp only [Option.map_eq_some_iff]
    constructor
    · rintro ⟨m, hm, rfl⟩
      obtain ⟨T, slots, best, rfl⟩ := Catalog.isBest_of_match? h hm
      refine ⟨line, _, T, rfl, hm, best.registered, rfl, rfl, rfl, ?_⟩
      simp [knownHit, complexityOf_id h ids best.registered]
    · rintro ⟨line', m, T, same, hm, hT, id, text, offsets, rfl⟩
      cases same
      exact ⟨m, hm, by simp [knownHit, id, complexityOf_id h ids hT]⟩

theorem not_isNew_of_firstHit? {message : Text} {hit : Hit}
    (h : firstHit? v c service message = some hit) : hit.isNew = false := by
  unfold firstHit? at h
  split at h
  · cases h
  · obtain ⟨m, -, rfl⟩ := Option.map_eq_some_iff.1 h
    rfl

/-- A missed message has no known template. -/
theorem firstHit?_of_missed {message : Text} {line : Line}
    (h : missed? v c message = some line) : firstHit? v c service message = none := by
  obtain ⟨scan, -, none⟩ := missed?_eq_some_iff.1 h
  simp [firstHit?, scan, none]

/-! ### The first pass -/

/-- What a pass knows after some messages. -/
structure Pass.Holds (v : Vocabulary) (c : Catalog) (service : Text) (seen : List Text)
    (p : Pass) : Prop where
  outcomes : p.outcomes.toList = seen.map fun message => ⟨message, firstHit? v c service message⟩
  /-- A miss is remembered with the position of its message. -/
  misses : ∀ i line, (i, line) ∈ p.misses ↔
    ∃ message, seen[i]? = some message ∧ missed? v c message = some line
  learner : (seen.filterMap (missed? v c)).foldlM Learner.add {} = .ok p.learner
  collecting : p.learner.findings = none

theorem collect_ne_nil (key : BucketKey) (line : Line) (buckets : List (BucketKey × List Line)) :
    Learner.collect key line buckets ≠ [] := by
  unfold Learner.collect
  split
  · simp
  · split
    · simp
    · split <;> simp

/-- A learner that has not finished takes every line that has tokens. -/
theorem add_eq_ok {l : Learner} (h : l.findings = none) {line : Line} (hl : line ≠ []) :
    ∃ l', l.add line = .ok l' ∧ l'.findings = none ∧ l'.pending ≠ [] := by
  refine ⟨{ l with pending := Learner.collect (.of line) line l.pending }, ?_, h,
    collect_ne_nil _ _ _⟩
  simp [Learner.add, h, hl]

theorem add_nil (l : Learner) : ∃ e, l.add [] = .error e := by
  unfold Learner.add
  split
  · exact ⟨_, rfl⟩
  · exact ⟨_, rfl⟩

theorem getElem?_append_singleton_eq_some {α : Type} {l : List α} {a b : α} {i : Nat} :
    (l ++ [a])[i]? = some b ↔ l[i]? = some b ∨ (i = l.length ∧ b = a) := by
  rw [List.getElem?_append]
  by_cases h : i < l.length
  · simp [h]; omega
  · by_cases hi : i = l.length
    · subst hi; simp [eq_comm]
    · have : 1 ≤ i - l.length := by omega
      simp [h, hi, List.getElem?_eq_none (l := [a]) this]

namespace Pass

/-- A message whose line is not missed. -/
theorem Holds.push {seen : List Text} {p : Pass} (h : p.Holds v c service seen) (message : Text)
    (hm : missed? v c message = none) :
    (p.push message (firstHit? v c service message)).Holds v c service (seen ++ [message]) where
  outcomes := by simp [Pass.push, h.outcomes]
  misses i line := by
    rw [show (p.push message _).misses = p.misses from rfl, h.misses]
    simp only [getElem?_append_singleton_eq_some]
    constructor
    · rintro ⟨m, hi, hline⟩
      exact ⟨m, Or.inl hi, hline⟩
    · rintro ⟨m, hi | ⟨-, rfl⟩, hline⟩
      · exact ⟨m, hi, hline⟩
      · rw [hm] at hline; cases hline
  learner := by
    rw [List.filterMap_append, List.filterMap_cons_none hm, List.filterMap_nil, List.append_nil]
    exact h.learner
  collecting := h.collecting

/-- A message whose line is missed, and which the learner takes. -/
theorem Holds.miss {seen : List Text} {p : Pass} (h : p.Holds v c service seen) {message : Text}
    {line : Line} {learner : Learner} (missed : missed? v c message = some line)
    (add : p.learner.add line = .ok learner) (collecting : learner.findings = none) :
    Holds v c service (seen ++ [message])
      { p.push message none with misses := p.misses.push (p.outcomes.size, line), learner } where
  outcomes := by simp [Pass.push, h.outcomes, firstHit?_of_missed missed]
  misses i other := by
    have size : p.outcomes.size = seen.length := by
      rw [← Array.length_toList, h.outcomes, List.length_map]
    simp only [Array.mem_push, h.misses, getElem?_append_singleton_eq_some, Prod.mk.injEq, size]
    constructor
    · rintro (⟨m, hi, hother⟩ | ⟨rfl, rfl⟩)
      · exact ⟨m, Or.inl hi, hother⟩
      · exact ⟨message, Or.inr ⟨rfl, rfl⟩, missed⟩
    · rintro ⟨m, hi | ⟨rfl, rfl⟩, hother⟩
      · exact Or.inl ⟨m, hi, hother⟩
      · rw [missed] at hother
        exact Or.inr ⟨rfl, (Option.some.inj hother).symm⟩
  learner := by
    rw [List.filterMap_append, List.filterMap_cons_some missed, List.filterMap_nil,
      List.foldlM_append, h.learner]
    simp [bind, Except.bind, add]
    rfl
  collecting := collecting

/-- One message more. -/
theorem Holds.step {seen : List Text} {p : Pass} (h : p.Holds v c service seen) (message : Text) :
    (p.step v c service message).Holds v c service (seen ++ [message]) := by
  unfold Pass.step
  cases scan : Scan.auto v message with
  | error e =>
    have first : firstHit? v c service message = none := by simp [firstHit?, scan]
    have := h.push message (by simp [missed?, scan])
    rw [first] at this
    exact this
  | ok line =>
    cases hm : c.match? v line with
    | some m =>
      have first : firstHit? v c service message = some (knownHit c service m) := by
        simp [firstHit?, scan, hm]
      have := h.push message (by simp [missed?, scan, hm])
      rw [first] at this
      simpa only [hm] using this
    | none =>
      have first : firstHit? v c service message = none := by simp [firstHit?, scan, hm]
      by_cases hl : line = []
      · subst hl
        obtain ⟨e, he⟩ := add_nil p.learner
        have := h.push message (by simp [missed?, scan])
        rw [first] at this
        simpa only [hm, he] using this
      · obtain ⟨l', add, collecting, -⟩ := add_eq_ok h.collecting hl
        simp only [hm, add]
        exact h.miss (missed?_eq_some_iff.2 ⟨scan, hl, hm⟩) add collecting

/-- The first pass over all messages. -/
theorem holds_foldl (v : Vocabulary) (c : Catalog) (service : Text) (messages : List Text) :
    (messages.foldl (Pass.step v c service) {}).Holds v c service messages := by
  have run : ∀ (rest seen : List Text) (p : Pass), p.Holds v c service seen →
      (rest.foldl (Pass.step v c service) p).Holds v c service (seen ++ rest) := by
    intro rest
    induction rest with
    | nil => intro seen p h; simpa using h
    | cons message rest ih =>
      intro seen p h
      simpa using ih _ _ (h.step message)
  refine run messages [] {} ⟨rfl, fun i line => ?_, rfl, rfl⟩
  simp

end Pass

/-! ### The second pass -/

theorem getElem?_writeNew (l : Learner) (outcomes : Array Outcome) (miss : Nat × Line) (i : Nat) :
    (writeNew v service l outcomes miss)[i]? =
      outcomes[i]?.map fun o =>
        match (l.templateOf? v miss.2).bind (newHit? v service) with
        | some h => if miss.1 = i then { o with hit := some h } else o
        | none => o := by
  unfold writeNew
  cases (l.templateOf? v miss.2).bind (newHit? v service) with
  | none => simp
  | some h =>
    simp only [Array.getElem?_modify]
    by_cases hi : miss.1 = i <;> simp [hi]

/-- A position without a found template keeps its outcome. -/
theorem getElem?_foldl_writeNew_of_none {l : Learner} {i : Nat} {misses : List (Nat × Line)}
    (h : ∀ line, (i, line) ∈ misses → (l.templateOf? v line).bind (newHit? v service) = none)
    (outcomes : Array Outcome) :
    (misses.foldl (writeNew v service l) outcomes)[i]? = outcomes[i]? := by
  induction misses generalizing outcomes with
  | nil => rfl
  | cons miss misses ih =>
    obtain ⟨j, line⟩ := miss
    rw [List.foldl_cons, ih fun line' h' => h line' (List.mem_cons_of_mem _ h'), getElem?_writeNew]
    by_cases hj : j = i
    · subst hj
      simp [h line List.mem_cons_self]
    · cases (l.templateOf? v line).bind (newHit? v service) <;> simp [hj]

/-- A position whose only line has a found template gets its hit. -/
theorem getElem?_foldl_writeNew_of_some {l : Learner} {i : Nat} {misses : List (Nat × Line)}
    {line : Line} {hit : Hit} (mem : (i, line) ∈ misses)
    (only : ∀ line', (i, line') ∈ misses → line' = line)
    (h : (l.templateOf? v line).bind (newHit? v service) = some hit) (outcomes : Array Outcome) :
    (misses.foldl (writeNew v service l) outcomes)[i]? =
      outcomes[i]?.map fun o => { o with hit := some hit } := by
  induction misses generalizing outcomes with
  | nil => simp at mem
  | cons miss misses ih =>
    obtain ⟨j, line'⟩ := miss
    have onlyRest : ∀ line', (i, line') ∈ misses → line' = line :=
      fun line' h' => only line' (List.mem_cons_of_mem _ h')
    rw [List.foldl_cons]
    by_cases again : (i, line) ∈ misses
    · rw [ih again onlyRest, getElem?_writeNew]
      cases (l.templateOf? v line').bind (newHit? v service) with
      | none => simp
      | some other =>
        by_cases hj : j = i <;> simp [hj, Function.comp_def]
    · have head : (i, line) = (j, line') := (List.mem_cons.1 mem).resolve_right again
      cases head
      rw [getElem?_foldl_writeNew_of_none, getElem?_writeNew, h]
      · simp
      · intro line' h'
        rw [onlyRest line' h'] at h'
        exact absurd h' again

/-! ### Reports -/

/-- The learner of the missed lines, once it has finished. -/
def learned? (v : Vocabulary) (missed : List Line) : Option Learner :=
  match missed.foldlM Learner.add {} with
  | .error _ => none
  | .ok collected =>
    match collected.finish v with
    | .error _ => none
    | .ok (l, _) => some l

theorem learned?_eq_some_iff {missed : List Line} {l : Learner} :
    learned? v missed = some l ↔ Learned v missed l := by
  unfold learned? Learned
  cases missed.foldlM Learner.add {} with
  | error e => simp
  | ok collected =>
    cases h : collected.finish v with
    | error e => simp [h]
    | ok answer => simp [h, Prod.ext_iff]

/-- The hit of the template that is found for a missed message. -/
def laterHit? (v : Vocabulary) (c : Catalog) (service : Text) (missed : List Line)
    (message : Text) : Option Hit :=
  (missed? v c message).bind fun line => (learned? v missed).bind fun l =>
    (l.templateOf? v line).bind (newHit? v service)

theorem laterHit?_eq_some_iff {missed : List Line} {message : Text} {hit : Hit} :
    laterHit? v c service missed message = some hit ↔
      NewHit v c service missed message hit := by
  simp only [laterHit?, NewHit, Option.bind_eq_some_iff, missed?_eq_some_iff,
    learned?_eq_some_iff, newHit?_eq_some_iff]
  constructor
  · rintro ⟨line, ⟨scan, hl, hm⟩, l, learned, template, ht, anchored, rfl⟩
    exact ⟨line, l, template, scan, hl, hm, learned, ht, anchored, rfl⟩
  · rintro ⟨line, l, template, scan, hl, hm, learned, ht, anchored, rfl⟩
    exact ⟨line, ⟨scan, hl, hm⟩, l, learned, template, ht, anchored, rfl⟩

theorem Pass.Holds.getElem?_outcomes {seen : List Text} {p : Pass} (h : p.Holds v c service seen)
    (i : Nat) : p.outcomes[i]? =
      seen[i]?.map fun message => ⟨message, firstHit? v c service message⟩ := by
  rw [← Array.getElem?_toList, h.outcomes, List.getElem?_map]

/-- With what a learner found, the second pass completes the outcomes of the missed messages and no
others. -/
theorem Pass.Holds.getElem?_misses {seen : List Text} {p : Pass} (h : p.Holds v c service seen)
    (l : Learner) (i : Nat) :
    (p.misses.foldl (writeNew v service l) p.outcomes)[i]? = seen[i]?.map fun message =>
      ⟨message, (firstHit? v c service message).or
        ((missed? v c message).bind fun line =>
          (l.templateOf? v line).bind (newHit? v service))⟩ := by
  have misses : ∀ line, (i, line) ∈ p.misses.toList ↔
      ∃ message, seen[i]? = some message ∧ missed? v c message = some line :=
    fun line => Array.mem_toList_iff.trans (h.misses i line)
  rw [← Array.foldl_toList]
  cases hs : seen[i]? with
  | none =>
    rw [getElem?_foldl_writeNew_of_none, h.getElem?_outcomes, hs]
    · rfl
    · intro line hline
      obtain ⟨message, hs', -⟩ := (misses line).1 hline
      rw [hs] at hs'
      cases hs'
  | some message =>
    have only : ∀ line, (i, line) ∈ p.misses.toList → missed? v c message = some line := by
      intro line hline
      obtain ⟨message', hs', hm⟩ := (misses line).1 hline
      rw [hs] at hs'
      cases hs'
      exact hm
    cases later : (missed? v c message).bind fun line =>
        (l.templateOf? v line).bind (newHit? v service) with
    | none =>
      rw [getElem?_foldl_writeNew_of_none, h.getElem?_outcomes, hs]
      · simp [later]
      · intro line hline
        rw [only line hline] at later
        exact later
    | some hit =>
      obtain ⟨line, hm, found⟩ := Option.bind_eq_some_iff.1 later
      rw [getElem?_foldl_writeNew_of_some ((misses line).2 ⟨message, hs, hm⟩) ?_ found,
        h.getElem?_outcomes, hs]
      · simp [firstHit?_of_missed hm, later]
      · intro line' hline'
        exact Option.some.inj ((only line' hline').symm.trans hm)

/-- The second pass writes the hits of what was learned from precisely the missed lines. -/
theorem getElem?_finish {seen : List Text} {p : Pass} (h : p.Holds v c service seen) (i : Nat) :
    (p.finish v service)[i]? = seen[i]?.map fun message =>
      ⟨message, (firstHit? v c service message).or
        (laterHit? v c service (seen.filterMap (missed? v c)) message)⟩ := by
  have learner : learned? v (seen.filterMap (missed? v c)) =
      match p.learner.finish v with
      | .error _ => none
      | .ok (l, _) => some l := by
    simp [learned?, h.learner]
  -- Where nothing was missed, or nothing was learned, the first outcomes stay.
  have stays : (∀ message, seen[i]? = some message →
      laterHit? v c service (seen.filterMap (missed? v c)) message = none) →
      p.outcomes[i]? = seen[i]?.map fun message =>
        ⟨message, (firstHit? v c service message).or
          (laterHit? v c service (seen.filterMap (missed? v c)) message)⟩ := by
    intro none
    rw [h.getElem?_outcomes]
    cases hs : seen[i]? with
    | none => rfl
    | some message => simp [none message hs]
  unfold Pass.finish
  split
  · next empty =>
    refine stays fun message hs => ?_
    cases hm : missed? v c message with
    | none => simp [laterHit?, hm]
    | some line =>
      have := (h.misses i line).2 ⟨message, hs, hm⟩
      simp [Array.isEmpty_iff.1 empty] at this
  · cases finish : p.learner.finish v with
    | error e =>
      refine stays fun message _ => ?_
      simp [laterHit?, learner, finish]
    | ok answer =>
      simp only [h.getElem?_misses, laterHit?, learner, finish, Option.bind_some]

/-- The outcome of each message. -/
theorem outcomes_report (v : Vocabulary) (service : Text) (stored : List StoredTemplate)
    (messages : List Text) :
    (report v service stored messages).outcomes = messages.map fun message =>
      ⟨message, (firstHit? v (catalog v stored) service message).or
        (laterHit? v (catalog v stored) service
          (messages.filterMap (missed? v (catalog v stored))) message)⟩ := by
  refine List.ext_getElem? fun i => ?_
  rw [List.getElem?_map]
  have h := Pass.holds_foldl v (catalog v stored) service messages
  simpa [report] using getElem?_finish h i

/-- Lines that have tokens can always be learned from, if there are some. -/
theorem learned_exists {lines : List Line} (hne : lines ≠ []) (hl : ∀ line ∈ lines, line ≠ []) :
    ∃ l, Learned v lines l := by
  have run : ∀ lines : List Line, (∀ line ∈ lines, line ≠ []) → ∀ l : Learner, l.findings = none →
      (lines ≠ [] ∨ l.pending ≠ []) →
      ∃ l', lines.foldlM Learner.add l = .ok l' ∧ l'.findings = none ∧ l'.pending ≠ [] := by
    intro lines
    induction lines with
    | nil => exact fun _ l collecting h => ⟨l, rfl, collecting, h.resolve_left fun e => e rfl⟩
    | cons line lines ih =>
      intro hl l collecting _
      obtain ⟨l', add, collecting', ne⟩ := add_eq_ok collecting (hl line List.mem_cons_self)
      obtain ⟨l'', adds, h⟩ :=
        ih (fun other h => hl other (List.mem_cons_of_mem _ h)) l' collecting' (Or.inr ne)
      exact ⟨l'', by rw [List.foldlM_cons, add]; exact adds, h⟩
  obtain ⟨collected, adds, collecting, ne⟩ := run lines hl {} rfl (Or.inl hne)
  refine ⟨{ collected with findings := some (Learner.findAll v {} collected.pending) }, collected,
    (Learner.findAll v {} collected.pending).templates, adds, ?_⟩
  simp [Learner.finish, collecting, ne]

/-- An outcome tells by its mark which of the two passes has set it down. -/
theorem or_hit_iff {first later : Option Hit} (old : ∀ h, first = some h → h.isNew = false)
    (new : ∀ h, later = some h → h.isNew = true) (apart : ∀ h, later = some h → first = none) :
    (∀ h, first.or later = some h ∧ h.isNew = false ↔ first = some h) ∧
    (∀ h, first.or later = some h ∧ h.isNew = true ↔ later = some h) ∧
    (first.or later = none ↔ ∀ h, ¬first = some h ∧ ¬later = some h) := by
  cases first with
  | some a =>
    have none : later = none := by
      cases later with
      | none => rfl
      | some b => cases apart b rfl
    subst none
    have := old a rfl
    refine ⟨fun h => ?_, fun h => ?_, ?_⟩
    · constructor
      · exact fun h => h.1
      · rintro ⟨rfl⟩; exact ⟨rfl, this⟩
    · simp only [Option.some_or, reduceCtorEq, iff_false, not_and]
      rintro ⟨rfl⟩
      simp [this]
    · simp
  | none =>
    refine ⟨fun h => ?_, fun h => ?_, ?_⟩
    · simp only [Option.none_or, reduceCtorEq, iff_false, not_and]
      intro eq
      simp [new h eq]
    · simp only [Option.none_or, and_iff_left_iff_imp]
      exact new h
    · simp [Option.eq_none_iff_forall_ne_some]

/-- A report has one outcome for each message, in their order, and the message and the missed lines
decide what it is: the hit of the known template that covers the message; when none does, that of
the template which a learner of precisely the missed lines finds for it, if it has a literal; else
no hit. -/
theorem report_outcomes (v : Vocabulary) (service : Text) (stored : List StoredTemplate)
    (messages : List Text) (ids : DistinctIds (catalog v stored)) :
    let c := catalog v stored
    let missed := messages.filterMap (missed? v c)
    let outcomes := (report v service stored messages).outcomes
    outcomes.map (·.message) = messages ∧
    (missed ≠ [] → ∃ l, Learned v missed l) ∧
    ∀ o ∈ outcomes,
      (∀ h, o.hit = some h ∧ h.isNew = false ↔ KnownHit v c service o.message h) ∧
      (∀ h, o.hit = some h ∧ h.isNew = true ↔ NewHit v c service missed o.message h) ∧
      (o.hit = none ↔
        ∀ h, ¬KnownHit v c service o.message h ∧ ¬NewHit v c service missed o.message h) := by
  intro c missed outcomes
  have eq : outcomes = messages.map fun message => ⟨message,
      (firstHit? v c service message).or (laterHit? v c service missed message)⟩ :=
    outcomes_report v service stored messages
  refine ⟨by simp [eq, Function.comp_def], fun hne => learned_exists hne ?_, ?_⟩
  · intro line hline
    obtain ⟨message, -, hm⟩ := List.mem_filterMap.1 hline
    exact (missed?_eq_some_iff.1 hm).2.1
  · intro o ho
    rw [eq] at ho
    obtain ⟨message, -, rfl⟩ := List.mem_map.1 ho
    have known : ∀ h, KnownHit v c service message h ↔ firstHit? v c service message = some h :=
      fun h => (firstHit?_eq_some_iff (sound_catalog v stored) ids).symm
    have new : ∀ h, NewHit v c service missed message h ↔
        laterHit? v c service missed message = some h := fun h => laterHit?_eq_some_iff.symm
    simp only [known, new]
    refine or_hit_iff (fun h => not_isNew_of_firstHit?) (fun h hh => ?_) (fun h hh => ?_)
    · obtain ⟨_, _, _, -, -, -, -, -, -, rfl⟩ := laterHit?_eq_some_iff.1 hh
      rfl
    · obtain ⟨line, hm, -⟩ := Option.bind_eq_some_iff.1 hh
      exact firstHit?_of_missed hm

/-- A service that knows one template and has two messages, one of which it covers. -/
theorem report_outcomes_up :
    let stored : List StoredTemplate := [⟨"up %integer%".toList, [3]⟩]
    let messages := ["up 5".toList, "down 7".toList]
    let c := catalog {} stored
    let missed := messages.filterMap (missed? {} c)
    DistinctIds c ∧ missed ≠ [] ∧
    ∀ o ∈ (report {} "s".toList stored messages).outcomes,
      (∀ h, o.hit = some h ∧ h.isNew = false ↔ KnownHit {} c "s".toList o.message h) ∧
      (∀ h, o.hit = some h ∧ h.isNew = true ↔ NewHit {} c "s".toList missed o.message h) := by
  intro stored messages c missed
  have ids : DistinctIds c := distinctIds_of_length_le_one (by decide +kernel)
  obtain ⟨-, -, outcomes⟩ := report_outcomes {} "s".toList stored messages ids
  have length : missed.length = 1 := by decide +kernel
  exact ⟨ids, fun none => by simp [none] at length,
    fun o ho => ⟨(outcomes o ho).1, (outcomes o ho).2.1⟩⟩

end LogTemplate.Mining
