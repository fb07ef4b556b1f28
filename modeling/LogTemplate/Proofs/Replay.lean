import LogTemplate.Proofs.Registration
import LogTemplate.Proofs.Stable
import LogTemplate.Proofs.Store

/-!
# Batches that come again

* `Mining.templateFor?` is the template that a service which knows none finds for a message, and
  `Mining.exists_isReading` reads it back if it is stable;
* `Mining.reads_catalog` tells what the catalog of stored templates holds;
* `Mining.Lasts` says that the template of a message is found again, `Mining.misread` lists what is
  read of templates that are not stable;
* `Mining.report_again` compares two reports on the messages of a service, `Miner.runBatch_twice`
  the first run of a batch on an empty store with the second.
-/

namespace LogTemplate

/-- The line that is read of a stored template; none when its text cannot be scanned. -/
def StoredTemplate.line? (v : Vocabulary) (s : StoredTemplate) : Option Line :=
  Request.target? v (.text s.text s.offsets)

/-- The text of a template with the positions of its placeholders. -/
def Line.stored (v : Vocabulary) (template : Line) : StoredTemplate :=
  ⟨(Line.print v template).text, (Line.print v template).offsets⟩

/-! ### What a learner has found -/

namespace Findings

/-- Templates are known by their texts, and a finding is one of them with a catalog that holds
nothing else. -/
structure Holds (v : Vocabulary) (f : Findings) : Prop where
  distinct : ∀ S ∈ f.templates, ∀ T ∈ f.templates,
    (Line.print v S).text = (Line.print v T).text → S = T
  alone : ∀ key finding, (key, finding) ∈ f.byBucket → finding.template ∈ f.templates ∧
    finding.catalog = (Catalog.register v {} finding.template none).1

theorem holds_empty (v : Vocabulary) : Holds v {} := ⟨by simp, by simp⟩

/-- The finding of one more bucket. -/
theorem Holds.findingOf {v : Vocabulary} {f : Findings} (h : f.Holds v) (key : BucketKey)
    (rows : List Line) :
    Holds v ⟨(Learner.findingOf v f.templates rows).1,
      f.byBucket ++ [(key, (Learner.findingOf v f.templates rows).2)]⟩ := by
  unfold Learner.findingOf
  simp only
  cases known : f.templates.find? fun line =>
      (Line.print v line).text = (Line.print v (Consensus.generalize v rows)).text with
  | some line =>
    refine ⟨h.distinct, fun k finding mem => ?_⟩
    rcases List.mem_append.1 mem with mem | mem
    · exact h.alone k finding mem
    · cases List.mem_singleton.1 mem
      exact ⟨List.mem_of_find?_eq_some known, rfl⟩
  | none =>
    have fresh : ∀ line ∈ f.templates,
        (Line.print v line).text ≠ (Line.print v (Consensus.generalize v rows)).text := by
      simpa using List.find?_eq_none.1 known
    refine ⟨fun S hS T hT same => ?_, fun k finding mem => ?_⟩
    · simp only [List.mem_append, List.mem_singleton] at hS hT
      rcases hS with hS | rfl <;> rcases hT with hT | rfl
      · exact h.distinct S hS T hT same
      · exact absurd same (fresh S hS)
      · exact absurd same.symm (fresh T hT)
      · rfl
    · rcases List.mem_append.1 mem with mem | mem
      · exact ⟨List.mem_append_left _ (h.alone k finding mem).1, (h.alone k finding mem).2⟩
      · cases List.mem_singleton.1 mem
        exact ⟨List.mem_append_right _ (List.mem_singleton.2 rfl), rfl⟩

/-- The findings of all buckets. -/
theorem Holds.findAll {v : Vocabulary} (buckets : List (BucketKey × List Line)) {f : Findings}
    (h : f.Holds v) : (Learner.findAll v f buckets).Holds v := by
  induction buckets generalizing f with
  | nil => exact h
  | cons bucket buckets ih => exact ih (h.findingOf bucket.1 bucket.2)

end Findings

namespace Mining

variable {v : Vocabulary}

theorem match?_empty (line : Line) : ({} : Catalog).match? v line = none := by
  simp [Catalog.match?]

/-- The template that a service which knows none finds for one of its messages. -/
def templateFor? (v : Vocabulary) (messages : List Text) (message : Text) : Option Line :=
  (missed? v {} message).bind fun line =>
    (learned? v (messages.filterMap (missed? v {}))).bind fun l => l.templateOf? v line

theorem outcomes_report_nil (service : Text) (messages : List Text) :
    (report v service [] messages).outcomes = messages.map fun message =>
      ⟨message, (templateFor? v messages message).bind (newHit? v service)⟩ := by
  have first : ∀ message, firstHit? v {} service message = none := by
    intro message
    unfold firstHit?
    split
    · rfl
    · rw [match?_empty]; rfl
  rw [outcomes_report]
  refine List.map_congr_left fun message _ => ?_
  rw [show catalog v [] = {} from rfl, first, Option.none_or]
  simp [laterHit?, templateFor?, Option.bind_assoc]

theorem holds_of_learned {missed : List Line} {l : Learner} (h : Learned v missed l) :
    ∃ f, l.findings = some f ∧ f.Holds v := by
  obtain ⟨collected, templates, adds, finish⟩ := h
  have collecting : ∀ (lines : List Line) (l l' : Learner), l.findings = none →
      lines.foldlM Learner.add l = .ok l' → l'.findings = none := by
    intro lines
    induction lines with
    | nil => rintro l l' h ⟨⟩; exact h
    | cons line lines ih =>
      intro l l' h run
      rw [List.foldlM_cons] at run
      by_cases hl : line = []
      · obtain ⟨e, he⟩ := add_nil l
        rw [hl, he] at run
        cases run
      · obtain ⟨next, add, none, -⟩ := add_eq_ok h hl
        rw [add] at run
        exact ih next l' none run
  have none := collecting _ _ _ rfl adds
  unfold Learner.finish at finish
  rw [none] at finish
  simp only at finish
  split at finish
  · cases finish
  · cases finish
    exact ⟨_, rfl, (Findings.holds_empty v).findAll _⟩

/-- A template is found for a message only if it covers the message, and templates that are found
are known by their texts. -/
theorem templateFor?_eq_some {messages : List Text} {message : Text} {template : Line}
    (h : templateFor? v messages message = some template) :
    ∃ line slots f, missed? v {} message = some line ∧ Covers v.regextime template line slots ∧
      learned? v (messages.filterMap (missed? v {})) = some f ∧
      ∃ found, f.findings = some found ∧ found.Holds v ∧ template ∈ found.templates := by
  unfold templateFor? at h
  obtain ⟨line, missed, h⟩ := Option.bind_eq_some_iff.1 h
  obtain ⟨l, learned, h⟩ := Option.bind_eq_some_iff.1 h
  obtain ⟨found, findings, holds⟩ := holds_of_learned (learned?_eq_some_iff.1 learned)
  unfold Learner.templateOf? at h
  simp only [findings, Option.bind_eq_bind, Option.bind_some, Option.bind_eq_some_iff] at h
  obtain ⟨finding, lookup, m, hm, same⟩ := h
  cases Option.some.inj same
  obtain ⟨mem, alone⟩ := holds.alone _ _ (Trie.mem_of_lookup lookup)
  rw [alone] at hm
  obtain ⟨slots, covers⟩ := Catalog.covers_of_match?_register (Option.isSome_of_mem hm)
  exact ⟨line, slots, l, missed, covers, learned, found, findings, holds, mem⟩

theorem templateFor?_inj {messages : List Text} {message other : Text} {S T : Line}
    (hS : templateFor? v messages message = some S) (hT : templateFor? v messages other = some T)
    (text : (Line.print v S).text = (Line.print v T).text) : S = T := by
  obtain ⟨-, -, l, -, -, learned, found, findings, holds, memS⟩ := templateFor?_eq_some hS
  obtain ⟨-, -, l', -, -, learned', found', findings', -, memT⟩ := templateFor?_eq_some hT
  rw [learned] at learned'
  cases learned'
  rw [findings] at findings'
  cases findings'
  exact holds.distinct S memS T memT text

/-! ### The catalog of stored templates -/

/-- What the catalog holds when these stored templates were registered. -/
structure Reads (v : Vocabulary) (seen : List StoredTemplate) (c : Catalog) : Prop where
  sound : c.Sound v
  /-- It is read of something stored. -/
  origin : ∀ T ∈ c.templates, ∃ s ∈ seen, s.line? v = some T.line
  /-- It is all that is read, up to lines that are written alike. -/
  holds : ∀ s ∈ seen, ∀ line ∈ s.line? v, (∃ t ∈ line, t.isLiteral) →
    (∀ s' ∈ seen, ∀ other ∈ s'.line? v,
      (Line.print v other).text = (Line.print v line).text → other.steps = line.steps) →
    ∃ T ∈ c.templates, T.line.steps = line.steps

/-- What cannot be read, or has no literal, adds nothing. -/
theorem Reads.skip {seen : List StoredTemplate} {c : Catalog} (h : Reads v seen c)
    {s : StoredTemplate} (none : ∀ line ∈ s.line? v, ¬ ∃ t ∈ line, t.isLiteral) :
    Reads v (seen ++ [s]) c where
  sound := h.sound
  origin T hT := by
    obtain ⟨s', hs, line⟩ := h.origin T hT
    exact ⟨s', List.mem_append_left _ hs, line⟩
  holds s' hs line hline literal alike := by
    rcases List.mem_append.1 hs with hs | hs
    · exact h.holds s' hs line hline literal fun s' hs => alike s' (List.mem_append_left _ hs)
    · rw [List.mem_singleton.1 hs] at hline
      exact absurd literal (none line hline)

/-- What is read is registered. -/
theorem Reads.register {seen : List StoredTemplate} {c : Catalog} (h : Reads v seen c)
    {s : StoredTemplate} {line : Line} (hs : s.line? v = some line)
    (offsets? : Option (List Nat)) :
    Reads v (seen ++ [s]) (c.register v line offsets?).1 where
  sound := Catalog.sound_register h.sound line offsets?
  origin T hT := by
    have known (hT : T ∈ c.templates) : ∃ s' ∈ seen ++ [s], s'.line? v = some T.line := by
      obtain ⟨s', hs', line'⟩ := h.origin T hT
      exact ⟨s', List.mem_append_left _ hs', line'⟩
    rcases Catalog.register_cases h.sound line offsets? with ⟨_, -, -, eq⟩ | ⟨-, -, eq⟩
    · rw [eq] at hT
      exact known hT
    · rw [eq, Catalog.templates_extend, List.mem_append, List.mem_singleton] at hT
      rcases hT with hT | rfl
      · exact known hT
      · exact ⟨s, List.mem_append_right _ (List.mem_singleton.2 rfl), hs⟩
  holds s' hs' line' hline' literal alike := by
    rcases List.mem_append.1 hs' with mem | mem
    · obtain ⟨T, hT, steps⟩ := h.holds s' mem line' hline' literal fun s' hs =>
        alike s' (List.mem_append_left _ hs)
      exact ⟨T, Catalog.subset_register h.sound line offsets? hT, steps⟩
    · obtain ⟨T, hT, -, -, steps⟩ := Catalog.exists_of_register h.sound line offsets?
      rw [List.mem_singleton.1 mem, hs] at hline'
      cases hline'
      -- A template of this text is read of what was stored before.
      refine ⟨T, hT, steps fun S hS text => ?_⟩
      obtain ⟨s₀, hs₀, read⟩ := h.origin S hS
      exact alike s₀ (List.mem_append_left _ hs₀) _ read ((h.sound.text S hS).1.symm.trans text)

/-- One more stored template. -/
theorem Reads.apply {seen : List StoredTemplate} {c : Catalog} (h : Reads v seen c)
    (s : StoredTemplate) : Reads v (seen ++ [s]) (c.apply v (.text s.text s.offsets)) := by
  cases answer : c.answer v (.text s.text s.offsets) with
  | error e =>
    rw [Catalog.apply_of_error answer]
    refine h.skip fun line read literal => ?_
    obtain ⟨offsets?, asked⟩ := Catalog.answer_of_target c read
    have ne : line ≠ [] := List.ne_nil_of_mem literal.choose_spec.1
    have granted := asked.trans (Catalog.addAnchored_eq_ok.2 ⟨ne, literal, rfl⟩)
    rw [answer] at granted
    cases granted
  | ok granted =>
    rw [Catalog.apply_of_ok answer]
    obtain ⟨line, read⟩ := Catalog.exists_target answer
    obtain ⟨offsets?, asked⟩ := Catalog.answer_of_target c read
    obtain ⟨-, -, eq⟩ := Catalog.addAnchored_eq_ok.1 (asked.symm.trans answer)
    have registered := h.register read offsets?
    rwa [eq] at registered

/-- The catalog of a service holds what is read of its stored templates. -/
theorem reads_catalog (v : Vocabulary) (stored : List StoredTemplate) :
    Reads v stored (catalog v stored) := by
  induction stored using List.reverseRecOn with
  | nil => exact ⟨Catalog.sound_empty v, by simp [catalog], by simp⟩
  | append_singleton seen s ih =>
    have behind : catalog v (seen ++ [s]) =
        (catalog v seen).apply v (.text s.text s.offsets) := by
      simp only [catalog_eq_ofRequests, Catalog.ofRequests, List.map_append, List.foldl_append]
      rfl
    rw [behind]
    exact ih.apply s

/-! ### A service that hears its messages again -/

/-- A hit of what was found tells its template. -/
theorem newHit?_eq_some {service : Text} {template : Line} {h : Hit}
    (found : newHit? v service template = some h) :
    (∃ t ∈ template, t.isLiteral) ∧ h.stored = template.stored v ∧
      h.id = Id.inService h.text service ∧ h.isNew = true := by
  obtain ⟨anchored, rfl⟩ := newHit?_eq_some_iff.1 found
  exact ⟨anchored, rfl, rfl, rfl⟩

/-- The hits of a service that knew no template. -/
theorem mem_hits_report_nil {service : Text} {messages : List Text} {message : Text} {h : Hit} :
    (message, h) ∈ (report v service [] messages).hits ↔ message ∈ messages ∧
      ∃ template, templateFor? v messages message = some template ∧
        newHit? v service template = some h := by
  unfold Report.hits
  rw [outcomes_report_nil]
  simp only [List.filterMap_map, List.mem_filterMap, Function.comp, Option.map_eq_some_iff,
    Option.bind_eq_some_iff, Prod.mk.injEq]
  constructor
  · rintro ⟨m, hm, h', ⟨template, found, hit⟩, rfl, rfl⟩
    exact ⟨hm, template, found, hit⟩
  · rintro ⟨hm, template, found, hit⟩
    exact ⟨message, hm, h, ⟨template, found, hit⟩, rfl, rfl⟩

/-- No two texts of hits in the report have the same identifier. -/
def DistinctHits (r : Report) : Prop :=
  ∀ hit ∈ r.hits, ∀ other ∈ r.hits, hit.2.id = other.2.id → hit.2.text = other.2.text

instance (r : Report) : Decidable (DistinctHits r) :=
  inferInstanceAs (Decidable (∀ hit ∈ r.hits, ∀ other ∈ r.hits, _ → _))

/-- The lines that are read of the templates in which printing changes something, among those that a
service which knows none finds for its messages. The literals of the others stand in these texts. -/
def misread (v : Vocabulary) (texts messages : List Text) : List Line :=
  messages.filterMap fun message => (templateFor? v messages message).bind fun template =>
    if (∃ t ∈ template, t.isLiteral) ∧ ¬ template.Stable v texts then (template.stored v).line? v
    else none

theorem mem_misread {texts messages : List Text} {line : Line} :
    line ∈ misread v texts messages ↔ ∃ message ∈ messages, ∃ template,
      templateFor? v messages message = some template ∧ (∃ t ∈ template, t.isLiteral) ∧
      ¬ template.Stable v texts ∧ (template.stored v).line? v = some line := by
  simp [misread, Option.bind_eq_some_iff, and_assoc]

/-- The template that a service which knows none finds for the message is found again when it is
read: printing changes nothing in it, and nothing is misread in its words, but with other steps. -/
def Lasts (v : Vocabulary) (texts messages : List Text) (message : Text) : Prop :=
  ∀ template ∈ templateFor? v messages message, (∃ t ∈ template, t.isLiteral) →
    template.Stable v texts ∧
    ∀ line ∈ misread v texts messages, (Line.print v line).text = (Line.print v template).text →
      ∀ again ∈ (template.stored v).line? v, line.steps = again.steps

instance (v : Vocabulary) (texts messages : List Text) (message : Text) :
    Decidable (Lasts v texts messages message) :=
  inferInstanceAs (Decidable (∀ template ∈ _, _ → _ ∧ ∀ line ∈ _, _ → ∀ again ∈ _, _))

/-- The placeholders of a template come from scans of messages, so that it reads back if it is
stable. -/
theorem exists_isReading {texts messages : List Text} {message : Text} {template : Line}
    (h : v.Proper) (found : templateFor? v messages message = some template)
    (stable : template.Stable v texts) : ∃ again, template.IsReading v again := by
  refine stable.exists_isReading h fun t ht placeholder => ?_
  obtain ⟨-, -, l, -, -, learned, f, findings, -, hT⟩ := templateFor?_eq_some found
  have produced : Produced v t := by
    refine .template (learned?_eq_some_iff.1 learned) (fun line hline t ht => ?_)
      (by rw [Learner.templates?, findings]; rfl) hT ht
    obtain ⟨message, -, missed⟩ := List.mem_filterMap.1 hline
    exact .of_mem_auto (missed?_eq_some_iff.1 missed).1 ht
  exact produced.isExpressible h placeholder

theorem line?_stored {template again : Line} (reading : template.IsReading v again) :
    (template.stored v).line? v = some again := by
  simp [StoredTemplate.line?, Request.target?, Line.stored, reading.scan, Except.toOption]

/-- What the first hearing of its messages leaves on the shelf of a service. -/
structure FirstShelf (v : Vocabulary) (service : Text) (messages : List Text)
    (shelf : List Statistics) : Prop where
  /-- It is found for a message. -/
  found : ∀ s ∈ shelf, ∃ message ∈ messages, ∃ template,
    templateFor? v messages message = some template ∧ (∃ t ∈ template, t.isLiteral) ∧
      s.stored = template.stored v ∧ s.id = Id.inService s.text service
  /-- It is all that is found. -/
  all : ∀ message ∈ messages, ∀ template, templateFor? v messages message = some template →
    (∃ t ∈ template, t.isLiteral) → template.stored v ∈ shelf.map (·.stored)

theorem firstShelf {service : Text} {messages : List Text} (maxExamples : Nat)
    (ids : DistinctHits (report v service [] messages)) :
    FirstShelf v service messages
      (Shelf.recordAll maxExamples [] (report v service [] messages).hits) := by
  have e := Shelf.extends_recordAll maxExamples [] (report v service [] messages).hits
  obtain ⟨added, eq, new⟩ := e.grows
  have hit : ∀ h ∈ added, ∃ message ∈ messages, ∃ template,
      templateFor? v messages message = some template ∧ newHit? v service template = some h ∧
      (message, h) ∈ (report v service [] messages).hits := fun h hh => by
    obtain ⟨⟨message, h'⟩, mem, rfl⟩ := List.mem_map.1 (new h hh).1
    obtain ⟨hm, template, found, hit⟩ := mem_hits_report_nil.1 mem
    exact ⟨message, hm, template, found, hit, mem⟩
  refine ⟨fun s hs => ?_, fun message hm template found anchored => ?_⟩
  · have mem : s.key ∈ added.map (·.key) := by
      rw [List.map_nil, List.nil_append] at eq
      rw [← eq]; exact List.mem_map.2 ⟨s, hs, rfl⟩
    obtain ⟨h, hh, same⟩ := List.mem_map.1 mem
    obtain ⟨id, stored⟩ := Prod.mk.inj same
    obtain ⟨message, hm, template, found, hit, -⟩ := hit h hh
    obtain ⟨anchored, stored', id', -⟩ := newHit?_eq_some hit
    refine ⟨message, hm, template, found, anchored, stored.symm.trans stored', ?_⟩
    rw [← id, id', show s.text = h.text from congrArg StoredTemplate.text stored.symm]
  · let h : Hit := ⟨Id.inService (Line.print v template).text service, (Line.print v template).text,
      (Line.print v template).offsets, Line.complexity template, true⟩
    have newHit : newHit? v service template = some h := newHit?_eq_some_iff.2 ⟨anchored, rfl⟩
    have memHit := mem_hits_report_nil.2 ⟨hm, template, found, newHit⟩
    have holds := e.holds h (List.mem_map.2 ⟨_, memHit, rfl⟩)
    rw [Shelf.ids_of_keys eq, List.map_nil, List.nil_append] at holds
    obtain ⟨h', hh', id⟩ := List.mem_map.1 holds
    obtain ⟨message', -, template', found', hit', mem'⟩ := hit h' hh'
    obtain ⟨-, stored', -, -⟩ := newHit?_eq_some hit'
    have text : h'.text = h.text := ids _ mem' _ memHit id
    have same : template' = template := templateFor?_inj found' found
      ((congrArg StoredTemplate.text stored').symm.trans text)
    rw [Shelf.stored_of_keys eq, List.map_nil, List.nil_append, ← same, ← stored']
    exact List.mem_map.2 ⟨h', hh', rfl⟩

/-- The second report on the messages of a service beside the first, with what the store held for
the service between them and what it holds after the second. -/
structure Again (v : Vocabulary) (texts : List Text) (first second : Report)
    (between after : List StoredTemplate) : Prop where
  messages : second.outcomes.map (·.message) = first.outcomes.map (·.message)
  /-- What had a template that lasts has a known one now. -/
  known : ∀ (i : Nat) (message : Text) (h : Hit),
    first.outcomes[i]? = some (Outcome.mk message (some h)) →
    Lasts v texts (first.outcomes.map (·.message)) message →
      ∃ h' : Hit, second.outcomes[i]? = some (Outcome.mk message (some h')) ∧ h'.isNew = false
  /-- What the store gained is found for messages that had no template, or none that lasts, or it is
  misread. -/
  gained : ∃ added, after = between ++ added ∧ ∀ s ∈ added,
    ∃ (i : Nat) (message : Text) (h : Hit),
      second.outcomes[i]? = some (Outcome.mk message (some h)) ∧ s = h.stored ∧
      (h.isNew = true ∧ (first.outcomes[i]? = some (Outcome.mk message none) ∨
        ¬ Lasts v texts (first.outcomes.map (·.message)) message) ∨
      h.isNew = false ∧ ∃ line ∈ misread v texts (first.outcomes.map (·.message)),
        (Line.print v line).text = h.text)

/-- If printing changes nothing in the templates, then everything that had one has a known one, and
a store in which all was found gains nothing. -/
theorem Again.of_stable {texts : List Text} {first second : Report}
    {between after : List StoredTemplate} (again : Again v texts first second between after)
    (stable : ∀ o ∈ first.outcomes,
      ∀ template ∈ templateFor? v (first.outcomes.map (·.message)) o.message,
        (∃ t ∈ template, t.isLiteral) → template.Stable v texts) :
    (∀ (i : Nat) (message : Text) (h : Hit),
      first.outcomes[i]? = some (Outcome.mk message (some h)) →
        ∃ h' : Hit, second.outcomes[i]? = some (Outcome.mk message (some h')) ∧
          h'.isNew = false) ∧
    ((∀ o ∈ first.outcomes, o.hit.isSome) → after = between) := by
  have none : misread v texts (first.outcomes.map (·.message)) = [] := by
    refine List.eq_nil_iff_forall_not_mem.2 fun line mem => ?_
    obtain ⟨message, hm, template, found, anchored, unstable, -⟩ := mem_misread.1 mem
    obtain ⟨o, ho, rfl⟩ := List.mem_map.1 hm
    exact unstable (stable o ho template found anchored)
  have lasts (o : Outcome) (ho : o ∈ first.outcomes) :
      Lasts v texts (first.outcomes.map (·.message)) o.message :=
    fun template found anchored => ⟨stable o ho template found anchored, by simp [none]⟩
  refine ⟨fun i message h hi => again.known i message h hi
    (lasts _ (List.mem_of_getElem? hi)), fun all => ?_⟩
  obtain ⟨added, eq, gained⟩ := again.gained
  suffices added = [] by rw [eq, this, List.append_nil]
  refine List.eq_nil_iff_forall_not_mem.2 fun s hs => ?_
  obtain ⟨i, message, h, hi, -, ⟨-, first | unlasting⟩ | ⟨-, line, mem, -⟩⟩ := gained s hs
  · cases all _ (List.mem_of_getElem? first)
  · have same : message ∈ first.outcomes.map (·.message) := by
      rw [← again.messages]
      exact List.mem_map.2 ⟨_, List.mem_of_getElem? hi, rfl⟩
    obtain ⟨o, ho, rfl⟩ := List.mem_map.1 same
    exact unlasting (lasts o ho)
  · rw [none] at mem
    cases mem

section FirstShelf

variable {service : Text} {texts messages : List Text} {shelf : List Statistics}

/-- What is read of the shelf is misread, or it is what is read of a stable template. -/
theorem FirstShelf.misread_or_isReading (h : FirstShelf v service messages shelf)
    (proper : v.Proper) (texts : List Text) {s : StoredTemplate}
    (hs : s ∈ shelf.map (·.stored)) {line : Line} (read : s.line? v = some line) :
    line ∈ misread v texts messages ∨
      ∃ message template, templateFor? v messages message = some template ∧
        s = template.stored v ∧ template.IsReading v line := by
  obtain ⟨s, mem, rfl⟩ := List.mem_map.1 hs
  obtain ⟨message, hm, template, found, anchored, stored, -⟩ := h.found s mem
  rw [stored] at read ⊢
  by_cases stable : template.Stable v texts
  · obtain ⟨again, reading⟩ := exists_isReading proper found stable
    cases Option.some.inj ((line?_stored reading).symm.trans read)
    exact .inr ⟨message, template, found, rfl, reading⟩
  · exact .inl (mem_misread.2 ⟨message, hm, template, found, anchored, stable, read⟩)

/-- A message with a template that lasts in the first report has a known one in the second. -/
theorem FirstShelf.firstHit?_isSome (h : FirstShelf v service messages shelf) (proper : v.Proper)
    {message : Text} (hm : message ∈ messages) (lasts : Lasts v texts messages message) {hit : Hit}
    (first : (templateFor? v messages message).bind (newHit? v service) = some hit) :
    (firstHit? v (catalog v (shelf.map (·.stored))) service message).isSome := by
  obtain ⟨template, found, hit⟩ := Option.bind_eq_some_iff.1 first
  have anchored := (newHit?_eq_some hit).1
  obtain ⟨stable, unrivalled⟩ := lasts template found anchored
  obtain ⟨line, slots, -, missed, covers, -⟩ := templateFor?_eq_some found
  obtain ⟨scan, nonempty, -⟩ := missed?_eq_some_iff.1 missed
  obtain ⟨again, reading⟩ := exists_isReading proper found stable
  have read := line?_stored reading
  -- What is misread has no other steps, and a stable template of this text is the same one.
  have alike : ∀ s ∈ shelf.map (·.stored), ∀ other ∈ s.line? v,
      (Line.print v other).text = (Line.print v again).text → other.steps = again.steps := by
    intro s hs other read' text
    rw [reading.print] at text
    rcases h.misread_or_isReading proper texts hs read' with
      mem | ⟨_, template', found', rfl, reading'⟩
    · exact unrivalled other mem text again read
    · rw [reading'.print] at text
      cases templateFor?_inj found' found text
      cases Option.some.inj (read.symm.trans read')
      rfl
  have reads := reads_catalog v (shelf.map (·.stored))
  obtain ⟨T, hT, same⟩ := reads.holds _ (h.all message hm template found anchored) again read
    (reading.literal anchored) alike
  obtain ⟨slots, covers⟩ := reading.covers line slots covers
  have := Catalog.match?_isSome reads.sound nonempty hT (covers.congr same)
  simp [firstHit?, scan, this]

/-- A known template is on the shelf already, or it is misread. -/
theorem FirstShelf.id_mem_or_misread (h : FirstShelf v service messages shelf) (proper : v.Proper)
    {message : Text} {hit : Hit}
    (first : firstHit? v (catalog v (shelf.map (·.stored))) service message = some hit) :
    hit.id ∈ shelf.map (·.id) ∨
      ∃ line ∈ misread v texts messages, (Line.print v line).text = hit.text := by
  have reads := reads_catalog v (shelf.map (·.stored))
  unfold firstHit? at first
  split at first
  · cases first
  · obtain ⟨m, hm, rfl⟩ := Option.map_eq_some_iff.1 first
    obtain ⟨T, slots, best, rfl⟩ := Catalog.isBest_of_match? reads.sound hm
    obtain ⟨stored, mem, read⟩ := reads.origin T best.registered
    have own : T.text = (Line.print v T.line).text := (reads.sound.text T best.registered).1
    rcases h.misread_or_isReading proper texts mem read with
      misread | ⟨_, template, -, rfl, reading⟩
    · exact .inr ⟨T.line, misread, own.symm⟩
    · obtain ⟨s, hs, same⟩ := List.mem_map.1 mem
      obtain ⟨_, -, _, -, -, -, id⟩ := h.found s hs
      have text : s.text = T.text := by
        rw [own, reading.print]
        exact congrArg StoredTemplate.text same
      refine .inl (List.mem_map.2 ⟨s, hs, ?_⟩)
      rw [id, text]
      rfl

/-- A hit that is not on the shelf yet is that of a message which had no template in the first
report, or none that lasts, or it is misread. -/
theorem FirstShelf.of_fresh (h : FirstShelf v service messages shelf) (proper : v.Proper)
    {missed : List Line} {message : Text} (hm : message ∈ messages) {hit : Hit}
    (second : (firstHit? v (catalog v (shelf.map (·.stored))) service message).or
      (laterHit? v (catalog v (shelf.map (·.stored))) service missed message) = some hit)
    (fresh : hit.id ∉ shelf.map (·.id)) :
    hit.isNew = true ∧ ((templateFor? v messages message).bind (newHit? v service) = none ∨
      ¬ Lasts v texts messages message) ∨
    hit.isNew = false ∧ ∃ line ∈ misread v texts messages,
      (Line.print v line).text = hit.text := by
  cases known : firstHit? v (catalog v (shelf.map (·.stored))) service message with
  | some k =>
    simp only [known, Option.some_or, Option.some.injEq] at second
    rw [second] at known
    exact .inr ⟨not_isNew_of_firstHit? known,
      (h.id_mem_or_misread proper known).resolve_left fresh⟩
  | none =>
    simp only [known, Option.none_or] at second
    obtain ⟨_, _, _, -, -, -, -, -, -, rfl⟩ := laterHit?_eq_some_iff.1 second
    refine .inl ⟨rfl, ?_⟩
    cases first : (templateFor? v messages message).bind (newHit? v service) with
    | none => exact .inl rfl
    | some k =>
      refine .inr fun lasts => ?_
      have := h.firstHit?_isSome proper hm lasts first
      rw [known] at this
      cases this

end FirstShelf

/-- A service knows the messages whose templates last when they come again. -/
theorem report_again {service : Text} {messages : List Text} {maxExamples : Nat}
    {shelf after : List Statistics} (h : v.Proper)
    (ids : DistinctHits (report v service [] messages)) (texts : List Text)
    (taken : shelf = Shelf.recordAll maxExamples [] (report v service [] messages).hits)
    (takenAgain : after = Shelf.recordAll maxExamples shelf
      (report v service (shelf.map (·.stored)) messages).hits) :
    Again v texts (report v service [] messages) (report v service (shelf.map (·.stored)) messages)
      (shelf.map (·.stored)) (after.map (·.stored)) := by
  have shelved : FirstShelf v service messages shelf := by
    rw [taken]
    exact firstShelf maxExamples ids
  have outcomes := outcomes_report v service (shelf.map (·.stored)) messages
  have outcomes' := outcomes_report_nil (v := v) service messages
  have own : (report v service [] messages).outcomes.map (·.message) = messages := by
    simp [outcomes', Function.comp_def]
  refine ⟨by simp [outcomes, outcomes', Function.comp_def], ?_, ?_⟩
  · intro i message hit hi lasts
    rw [own] at lasts
    simp only [outcomes', List.getElem?_map, Option.map_eq_some_iff, Outcome.mk.injEq] at hi
    obtain ⟨message, hm, rfl, hit⟩ := hi
    obtain ⟨h', known⟩ := Option.isSome_iff_exists.1
      (shelved.firstHit?_isSome h (List.mem_of_getElem? hm) lasts hit)
    exact ⟨h', by simp [outcomes, hm, known], not_isNew_of_firstHit? known⟩
  · obtain ⟨added, eq, new⟩ := (Shelf.extends_recordAll maxExamples shelf
      (report v service (shelf.map (·.stored)) messages).hits).grows
    rw [← takenAgain] at eq
    refine ⟨added.map (·.stored), Shelf.stored_of_keys eq, fun s hs => ?_⟩
    rw [own]
    obtain ⟨hit, hh, rfl⟩ := List.mem_map.1 hs
    obtain ⟨mem, fresh⟩ := new hit hh
    obtain ⟨entry, he, rfl⟩ := List.mem_map.1 mem
    obtain ⟨o, ho, found⟩ := List.mem_filterMap.1 he
    obtain ⟨hit, second, rfl⟩ := Option.map_eq_some_iff.1 found
    obtain ⟨i, hi⟩ := List.mem_iff_getElem?.1 ho
    have place := hi
    simp only [outcomes, List.getElem?_map, Option.map_eq_some_iff] at hi
    obtain ⟨message, hm, rfl⟩ := hi
    refine ⟨i, message, hit, place.trans (by rw [← second]), rfl, ?_⟩
    refine (shelved.of_fresh h (List.mem_of_getElem? hm) second fresh).imp_left fun late => ?_
    exact ⟨late.1, late.2.imp_left fun none => by simp [outcomes', hm, none]⟩

end Mining

/-! ### A batch that comes again -/

namespace Miner

/-- Run a batch on an empty store, and run it again. Each service knows the messages that had a
template which lasts in the first run, and its shelf gains nothing but templates of others and what
is misread. -/
theorem runBatch_twice {v : Vocabulary} (h : v.Proper) (maxExamples : Nat) (counters : Counters)
    (batch : List Record) (nanos nanos' : UInt64) (services : DistinctServices batch) :
    let first := Miner.runBatch ⟨v, { maxExamples }, counters⟩ batch nanos
    let second := first.2.runBatch batch nanos'
    second.1.map (·.service) = first.1.map (·.service) ∧
    (∀ id, id ∉ first.1.map (·.serviceId) → second.2.store.load id = []) ∧
    ∀ R ∈ first.1, Mining.DistinctHits R → ∀ texts,
      ∃ S ∈ second.1, S.service = R.service ∧ Mining.Again v texts R S
        (first.2.store.load R.serviceId) (second.2.store.load R.serviceId) := by
  intro first second
  have vocabulary : first.2.vocabulary = v := vocabulary_runBatch _ batch nanos
  have limit : first.2.store.maxExamples = maxExamples := maxExamples_runBatch _ batch nanos
  refine ⟨by simp [first, second, runBatch, Mining.report, Function.comp_def], fun id hid => ?_,
    fun R hR distinct texts => ?_⟩
  · have hid' : id ∉ second.1.map (·.serviceId) := by
      rw [serviceIds_runBatch] at hid ⊢
      exact hid
    rw [Store.load, templates_runBatch_of_not_mem _ hid', templates_runBatch_of_not_mem _ hid]
    rfl
  · obtain ⟨⟨service, messages⟩, entry, rfl⟩ := List.mem_map.1 hR
    have shelf : first.2.store.templates (Id.ofService service) =
        Shelf.recordAll maxExamples [] (Mining.report v service [] messages).hits :=
      templates_runBatch_of_mem services _ hR
    -- The second report on the service is made from what the store holds for it now.
    have hS : Mining.report v service (first.2.store.load (Id.ofService service)) messages ∈
        second.1 := by
      rw [← vocabulary]
      exact List.mem_map.2 ⟨_, entry, rfl⟩
    have shelf' := templates_runBatch_of_mem services first.2 hS
    exact ⟨_, hS, rfl, Mining.report_again h distinct texts shelf (limit ▸ shelf')⟩

/-- In the vocabulary of any settings, a batch that comes again is known, as far as the templates
that were found for it last. -/
theorem runBatch_again {compile : Vocabulary.Compiler} {s : Settings} {v : Vocabulary}
    (h : Vocabulary.build compile s = .ok v) (maxExamples : Nat) (counters : Counters)
    (batch : List Record) (nanos nanos' : UInt64) (services : DistinctServices batch) :
    let first := Miner.runBatch ⟨v, { maxExamples }, counters⟩ batch nanos
    let second := first.2.runBatch batch nanos'
    second.1.map (·.service) = first.1.map (·.service) ∧
    (∀ id, id ∉ first.1.map (·.serviceId) → second.2.store.load id = []) ∧
    ∀ R ∈ first.1, Mining.DistinctHits R → ∀ texts,
      ∃ S ∈ second.1, S.service = R.service ∧ Mining.Again v texts R S
        (first.2.store.load R.serviceId) (second.2.store.load R.serviceId) :=
  runBatch_twice (Vocabulary.proper_build h) maxExamples counters batch nanos nanos' services

/-- A service with times, a quotation and an object, and one with a template that does not last. -/
theorem runBatch_again_up :
    let s : Settings := {
      tags := ["n:integer".toList]
      formats := [("1".toList, ["00:00".toList])] }
    let batch : List Record := [
      ⟨"s".toList, "at 11:22 \"so so\" 5 ok.".toList⟩,
      ⟨"s".toList, "at 12:33 \"so so\" 7 ok.".toList⟩,
      ⟨"s".toList, "\x7b\"n\":5\x7d".toList⟩,
      ⟨"t".toList, "up. ".toList⟩,
      ⟨"t".toList, "up 5".toList⟩]
    let texts : List Text := "n = 5".toList :: batch.map (·.message)
    ∃ v, Vocabulary.ofSettings s = .ok v ∧
    let first := Miner.runBatch ⟨v, { maxExamples := 3 }, {}⟩ batch 0
    let second := first.2.runBatch batch 0
    DistinctServices batch ∧
    (first.1.map fun R => R.outcomes.map fun o =>
      decide (o.hit.isSome ∧ Mining.Lasts v texts (R.outcomes.map (·.message)) o.message)) =
        [[true, true, true], [false, true]] ∧
    ∀ R ∈ first.1, Mining.DistinctHits R ∧
      ∃ S ∈ second.1, S.service = R.service ∧ Mining.Again v texts R S
        (first.2.store.load R.serviceId) (second.2.store.load R.serviceId) := by
  intro s batch texts
  have services : DistinctServices batch := by decide +kernel
  obtain ⟨v, h, lasts, distinct⟩ : ∃ v, Vocabulary.ofSettings s = .ok v ∧
      let first := Miner.runBatch ⟨v, { maxExamples := 3 }, {}⟩ batch 0
      (first.1.map fun R => R.outcomes.map fun o =>
        decide (o.hit.isSome ∧ Mining.Lasts v texts (R.outcomes.map (·.message)) o.message)) =
          [[true, true, true], [false, true]] ∧
      ∀ R ∈ first.1, Mining.DistinctHits R :=
    ⟨_, rfl, by decide +kernel, by decide +kernel⟩
  obtain ⟨-, -, again⟩ := runBatch_again h 3 {} batch 0 0 services
  exact ⟨v, h, services, lasts, fun R hR => ⟨distinct R hR,
    again R hR (distinct R hR) texts⟩⟩

/-- A batch is known when it comes again: each message with a template in the first run, on an empty
store, has a known one in the second, and the store gains no template. -/
def KnownAgain (v : Vocabulary) (batch : List Record) : Prop :=
  let first := Miner.runBatch ⟨v, { maxExamples := 3 }, {}⟩ batch 0
  let second := first.2.runBatch batch 0
  (∀ reports ∈ first.1.zip second.1, ∀ outcomes ∈ reports.1.outcomes.zip reports.2.outcomes,
    outcomes.1.hit.isSome → ∃ h ∈ outcomes.2.hit, h.isNew = false) ∧
  second.2.store.size = first.2.store.size

instance (v : Vocabulary) (batch : List Record) : Decidable (KnownAgain v batch) :=
  inferInstanceAs (Decidable (_ ∧ _))

/-- With these settings, the messages of a service are not known when they come again. -/
def LearnsAgain (s : Settings) (messages : List String) : Prop :=
  ∃ v, Vocabulary.ofSettings s = .ok v ∧
    ¬ KnownAgain v (messages.map fun message => ⟨"s".toList, message.toList⟩)

instance (s : Settings) (messages : List String) : Decidable (LearnsAgain s messages) :=
  match h : Vocabulary.ofSettings s with
  | .ok v =>
    decidable_of_iff (¬ KnownAgain v (messages.map fun message => ⟨"s".toList, message.toList⟩))
      (by simp [LearnsAgain, h])
  | .error _ => isFalse (by simp [LearnsAgain, h])

/-- Without these conditions a batch may be learned again. -/
theorem runBatch_learns_again :
    let layout (layout : String) : Settings := { formats := [("1".toList, [layout.toList])] }
    let tag (definition : String) : Settings := { tags := [definition.toList] }
    let marked : Settings := { markSpaces := true }
    let messages : List Text := ["a %integer% x 5 b. ".toList, "a 5 x 6 b .".toList]
    -- What is read of the first template is written like the second, which is stable.
    (let batch := messages.map (Record.mk "s".toList)
    ∃ v, Vocabulary.ofSettings {} = .ok v ∧
      (messages.map fun message => (Mining.templateFor? v messages message).map fun template =>
        decide (template.Stable v messages)) = [some false, some true] ∧
      let first := Miner.runBatch ⟨v, { maxExamples := 3 }, {}⟩ batch 0
      ((first.2.runBatch batch 0).1.map fun R => R.outcomes.map fun o => o.hit.map (·.isNew)) =
        [[some true, some true]]) ∧
    -- The name of a kind is that of a tag which takes less, or whose runs are written otherwise.
    LearnsAgain (tag "string:integer") ["x foo", "x bar"] ∧
    LearnsAgain (tag "integer:integer") ["x 1 2 a", "x 3 4 b"] ∧
    -- A literal is not clear: a run, a timestamp, an address or a scheme begins there, or a blank
    -- is escaped.
    LearnsAgain {} ["x %integer% y"] ∧
    LearnsAgain (layout "Mon Jan") ["Tue  Feb"] ∧
    LearnsAgain {} ["\"1:2:3:4:5:6."] ∧
    LearnsAgain marked ["ht::1"] ∧
    LearnsAgain {} ["a\\  'x  y'"] ∧
    -- A literal stands in no message like this: not at all, not outside of quotations, not behind
    -- an address, or not at the end.
    LearnsAgain {} ["\x7b\"a b\":1\x7d"] ∧
    LearnsAgain {} ["\x7b\"\":null\x7d"] ∧
    LearnsAgain {} ["'1.2.3/a b'", "xx '/a b'"] ∧
    LearnsAgain {} ["\x7b\"'\":5,\"b\":6\x7d"] ∧
    LearnsAgain {} ["\x7b\"#\":\"10.0.0.1\",\"/a\":5\x7d"] ∧
    LearnsAgain {} ["abc. "] ∧
    -- A quotation keeps a literal together with a slash.
    LearnsAgain {} ["'1.2.3/x'"] ∧
    -- White space is no token, is a value, comes twice or cuts the text, or a blank is none.
    LearnsAgain {} ["\x7b\" \":5\x7d"] ∧
    LearnsAgain marked ["\x7b\"a\":\" \"\x7d"] ∧
    LearnsAgain marked ["\x7b\"\":\" \",\" \":5\x7d"] ∧
    LearnsAgain marked ["\x7b\"\\t\":null,\"\\n\":null\x7d"] ∧
    LearnsAgain marked ["a  b", "a   b"] ∧
    -- A message without a template has one in the second run, and leaves the others of its shape
    -- to a new template.
    LearnsAgain (layout "00:00")
      ["aa bb zz 11:22", "cc dd zz 11:22", "aa yy 11:22", "bb zz 11:22"] := by
  intro layout tag marked messages
  exact ⟨⟨_, rfl, by decide +kernel, by decide +kernel⟩, by decide +kernel⟩

end Miner

end LogTemplate
