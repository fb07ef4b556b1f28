import LogTemplate.Miner
import LogTemplate.Proofs.Text
import Mathlib.Data.List.Nodup

/-!
# Batches and what a store keeps of them

* `Table.Sorted` says that the keys of a table ascend, so that none comes twice;
* `Shelf.recordAll` takes in the hits of a report, `Shelf.Extends` is what it does to a shelf;
* `Miner.store_runBatch` tells what a batch leaves on each shelf of the store.
-/

namespace LogTemplate

/-! ### Tables -/

/-- Where a key comes once, one element has it. -/
theorem filter_of_nodup {α β : Type} [DecidableEq β] {f : α → β} {l : List α}
    (distinct : (l.map f).Nodup) {a : α} (ha : a ∈ l) : l.filter (f · = f a) = [a] := by
  induction l with
  | nil => cases ha
  | cons b l ih =>
    rw [List.map_cons, List.nodup_cons] at distinct
    obtain ⟨fresh, distinct⟩ := distinct
    rcases List.mem_cons.1 ha with rfl | ha
    · rw [List.filter_cons_of_pos (by simp), List.filter_eq_nil_iff.2]
      intro c hc
      simpa using fun same => fresh (List.mem_map.2 ⟨c, hc, same⟩)
    · have apart : f b ≠ f a := fun same => fresh (List.mem_map.2 ⟨a, ha, same.symm⟩)
      rw [List.filter_cons_of_neg (by simpa using apart), ih distinct ha]

namespace Table

variable {α : Type}

/-- The keys ascend. -/
def Sorted (table : Table α) : Prop := table.Pairwise fun a b => Text.before a.1 b.1

theorem get?_insert_of_ne {key other : Text} (h : other ≠ key) (value : α) (table : Table α) :
    (insert key value table).get? other = table.get? other := by
  have hb : (other == key) = false := beq_false_of_ne h
  induction table with
  | nil => simp [insert, get?, List.lookup_cons, hb]
  | cons entry table ih =>
    obtain ⟨k, a⟩ := entry
    unfold insert
    split
    · next hk => simp [get?, List.lookup_cons, hb, hk]
    · split
      · simp [get?, List.lookup_cons, hb]
      · unfold get? at ih ⊢
        simp only [List.lookup_cons, ih]

theorem mem_insert_key {key : Text} {value : α} {table : Table α} {entry : Text × α}
    (h : entry ∈ insert key value table) : entry.1 = key ∨ entry ∈ table := by
  induction table with
  | nil => exact Or.inl (by simp_all [insert])
  | cons e table ih =>
    unfold insert at h
    split at h
    · rcases List.mem_cons.1 h with rfl | h
      · exact Or.inl rfl
      · exact Or.inr (List.mem_cons_of_mem _ h)
    · split at h
      · rcases List.mem_cons.1 h with rfl | h
        · exact Or.inl rfl
        · exact Or.inr h
      · rcases List.mem_cons.1 h with rfl | h
        · exact Or.inr List.mem_cons_self
        · exact (ih h).imp_right (List.mem_cons_of_mem _)

theorem sorted_insert {table : Table α} (h : table.Sorted) (key : Text) (value : α) :
    (insert key value table).Sorted := by
  induction table with
  | nil => exact List.pairwise_singleton _ _
  | cons e table ih =>
    obtain ⟨k, a⟩ := e
    obtain ⟨head, tail⟩ := List.pairwise_cons.1 h
    unfold insert
    split
    · next hk => exact List.pairwise_cons.2 ⟨by rw [← hk]; exact head, tail⟩
    · next hk =>
      split
      · next hb =>
        refine List.pairwise_cons.2 ⟨fun entry he => ?_, h⟩
        rcases List.mem_cons.1 he with rfl | he
        · exact hb
        · exact Text.before_trans hb (head entry he)
      · next hb =>
        refine List.pairwise_cons.2 ⟨fun entry he => ?_, ih tail⟩
        rcases mem_insert_key he with he | he
        · rw [he]
          exact Text.before_of_not (Ne.symm hk) (by simpa using hb)
        · exact head entry he

/-- No key comes twice. -/
theorem Sorted.nodup {table : Table α} (h : table.Sorted) : (table.map (·.1)).Nodup := by
  refine List.pairwise_map.2 (h.imp fun {a b} before same => ?_)
  rw [same, Text.before_irrefl] at before
  cases before

theorem get?_eq_none_iff {table : Table α} {key : Text} :
    table.get? key = none ↔ ∀ entry ∈ table, entry.1 ≠ key := by
  rw [get?, List.lookup_eq_none_iff]
  simp only [bne_iff_ne, ne_comm]

theorem mem_keys_insert {key other : Text} {value : α} {table : Table α} :
    other ∈ (insert key value table).map (·.1) ↔ other ∈ table.map (·.1) ∨ other = key := by
  have mem_iff : ∀ table : Table α, other ∈ table.map (·.1) ↔ table.get? other ≠ none := by
    intro table
    simp [get?_eq_none_iff]
  rw [mem_iff, mem_iff]
  by_cases h : other = key
  · simp [h, get?_insert_self]
  · simp [h, get?_insert_of_ne h]

/-- The entries of a key. -/
theorem Sorted.filter {table : Table α} (h : table.Sorted) (key : Text) :
    table.filter (·.1 = key) = (table.get? key).toList.map (key, ·) := by
  cases found : table.get? key with
  | none => simpa using get?_eq_none_iff.1 found
  | some value =>
    obtain ⟨before, behind, eq, -⟩ := List.lookup_eq_some_iff.1 found
    exact filter_of_nodup h.nodup (a := (key, value)) (by simp [eq])

theorem Sorted.get?_of_mem {table : Table α} (h : table.Sorted) {entry : Text × α}
    (he : entry ∈ table) : table.get? entry.1 = some entry.2 := by
  have own := h.filter entry.1
  rw [filter_of_nodup h.nodup he] at own
  cases found : table.get? entry.1 with
  | none => simp [found] at own
  | some value =>
    simp only [found, Option.toList_some, List.map_singleton, List.cons.injEq, and_true] at own
    rw [own]

end Table

/-! ### Shelves -/

/-- What is kept of a hit besides its statistics. -/
def Hit.stored (h : Hit) : StoredTemplate := ⟨h.text, h.offsets⟩

/-- What is kept of a template, for use on messages. -/
def Statistics.stored (s : Statistics) : StoredTemplate := ⟨s.text, s.offsets⟩

/-- A hit as it is known to a shelf. -/
def Hit.key (h : Hit) : Text × StoredTemplate := (h.id, h.stored)

/-- A template as it is known to a shelf. -/
def Statistics.key (s : Statistics) : Text × StoredTemplate := (s.id, s.stored)

namespace Shelf

/-- Take in hits with their messages. -/
def recordAll (maxExamples : Nat) (templates : List Statistics) (hits : List (Text × Hit)) :
    List Statistics :=
  hits.foldl (fun templates (message, h) => record maxExamples message h templates) templates

/-- The templates come from hits that were taken in behind those of `start`, each under an
identifier of its own. -/
structure Extends (start : List Statistics) (hits : List Hit) (templates : List Statistics) :
    Prop where
  /-- What was there stays there, and what is new comes behind it. -/
  grows : ∃ added : List Hit,
    templates.map (·.key) = start.map (·.key) ++ added.map (·.key) ∧
    ∀ h ∈ added, h ∈ hits ∧ h.id ∉ start.map (·.id)
  /-- Every hit has its template. -/
  holds : ∀ h ∈ hits, h.id ∈ templates.map (·.id)
  distinct : (start.map (·.id)).Nodup → (templates.map (·.id)).Nodup

variable {start templates : List Statistics} {added : List Hit}

theorem recordAll_append (maxExamples : Nat) (templates : List Statistics)
    (hits more : List (Text × Hit)) :
    recordAll maxExamples templates (hits ++ more) =
      recordAll maxExamples (recordAll maxExamples templates hits) more := List.foldl_append

theorem ids_of_keys (eq : templates.map (·.key) = start.map (·.key) ++ added.map (·.key)) :
    templates.map (·.id) = start.map (·.id) ++ added.map (·.id) := by
  simpa [Function.comp_def, Statistics.key, Hit.key] using congrArg (List.map Prod.fst) eq

theorem stored_of_keys (eq : templates.map (·.key) = start.map (·.key) ++ added.map (·.key)) :
    templates.map (·.stored) = start.map (·.stored) ++ added.map (·.stored) := by
  simpa [Function.comp_def, Statistics.key, Hit.key] using congrArg (List.map Prod.snd) eq

/-- A hit either counts for a template that is there, or it is added. -/
theorem map_record {α : Type} (f : Statistics → α) (maxExamples : Nat) (message : Text) (h : Hit)
    (templates : List Statistics)
    (hf : ∀ s, f (s.record maxExamples message) = f s) :
    (record maxExamples message h templates).map f =
      if h.id ∈ templates.map (·.id) then templates.map f
      else templates.map f ++ [f (Statistics.ofHit h)] := by
  induction templates with
  | nil => simp [record, hf]
  | cons s templates ih =>
    unfold record
    by_cases hid : s.id = h.id
    · simp [hid, hf]
    · have : h.id ≠ s.id := fun e => hid e.symm
      simp only [hid, if_false, List.map_cons, ih, List.mem_cons, this, false_or]
      split <;> rfl

theorem Extends.refl (start : List Statistics) : Extends start [] start where
  grows := ⟨[], by simp, by simp⟩
  holds := by simp
  distinct := id

/-- One hit more. -/
theorem Extends.record {hits : List Hit}
    (e : Extends start hits templates) (maxExamples : Nat) (message : Text) (h : Hit) :
    Extends start (hits ++ [h]) (record maxExamples message h templates) := by
  have keys := map_record (·.key) maxExamples message h templates fun _ => rfl
  have ids := map_record (·.id) maxExamples message h templates fun _ => rfl
  obtain ⟨added, eq, new⟩ := e.grows
  by_cases known : h.id ∈ templates.map (·.id)
  · rw [if_pos known] at keys ids
    refine ⟨⟨added, by rw [keys, eq], fun k hk => ?_⟩, fun k hk => ?_, fun nodup => ?_⟩
    · exact ⟨List.mem_append_left _ (new k hk).1, (new k hk).2⟩
    · rw [ids]
      rcases List.mem_append.1 hk with hk | hk
      · exact e.holds k hk
      · rw [List.mem_singleton.1 hk]; exact known
    · rw [ids]; exact e.distinct nodup
  · rw [if_neg known] at keys ids
    have fresh : h.id ∉ start.map (·.id) := by
      intro mem
      refine known ?_
      rw [ids_of_keys eq]
      exact List.mem_append_left _ mem
    refine ⟨⟨added ++ [h], ?_, fun k hk => ?_⟩, fun k hk => ?_, fun nodup => ?_⟩
    · rw [keys, eq, List.append_assoc, List.map_append]
      rfl
    · rcases List.mem_append.1 hk with hk | hk
      · exact ⟨List.mem_append_left _ (new k hk).1, (new k hk).2⟩
      · rw [List.mem_singleton.1 hk]
        exact ⟨List.mem_append_right _ (List.mem_singleton.2 rfl), fresh⟩
    · rw [ids]
      rcases List.mem_append.1 hk with hk | hk
      · exact List.mem_append_left _ (e.holds k hk)
      · rw [List.mem_singleton.1 hk]
        exact List.mem_append_right _ (by simp [Statistics.ofHit])
    · rw [ids]
      refine (e.distinct nodup).append (List.nodup_singleton _) ?_
      intro k hk hnew
      rw [List.mem_singleton.1 hnew] at hk
      exact known hk

/-- All hits of a report. -/
theorem extends_recordAll (maxExamples : Nat) (start : List Statistics)
    (hits : List (Text × Hit)) :
    Extends start (hits.map (·.2)) (recordAll maxExamples start hits) := by
  have run : ∀ (rest : List (Text × Hit)) (seen : List Hit) (templates : List Statistics),
      Extends start seen templates →
      Extends start (seen ++ rest.map (·.2)) (recordAll maxExamples templates rest) := by
    intro rest
    induction rest with
    | nil => intro seen templates e; simpa [recordAll] using e
    | cons hit rest ih =>
      intro seen templates e
      obtain ⟨message, h⟩ := hit
      simpa [recordAll] using ih _ _ (e.record maxExamples message h)
  simpa using run hits [] start (.refl start)

end Shelf

/-! ### Stores -/

namespace Store

/-- A report changes the shelf of its service only. -/
theorem templates_save (s : Store) (r : Report) (id : Text) :
    (s.save r).templates id =
      if id = r.serviceId then Shelf.recordAll s.maxExamples (s.templates id) r.hits
      else s.templates id := by
  unfold templates save
  by_cases h : id = r.serviceId
  · subst h
    simp only [Table.get?_insert_self, if_true]
    cases s.shelves.get? r.serviceId <;> rfl
  · simp only [Table.get?_insert_of_ne h, h, if_false]

@[simp] theorem maxExamples_foldl_save (reports : List Report) (s : Store) :
    (reports.foldl save s).maxExamples = s.maxExamples := by
  induction reports generalizing s with
  | nil => rfl
  | cons r reports ih => exact ih (s.save r)

/-- A shelf takes in the hits of all reports on its service. -/
theorem templates_foldl_save_eq (reports : List Report) (s : Store) (id : Text) :
    (reports.foldl save s).templates id =
      Shelf.recordAll s.maxExamples (s.templates id)
        ((reports.filter (·.serviceId = id)).flatMap (·.hits)) := by
  induction reports generalizing s with
  | nil => rfl
  | cons r reports ih =>
    have same : (s.save r).maxExamples = s.maxExamples := rfl
    rw [List.foldl_cons, ih, templates_save, same]
    by_cases h : id = r.serviceId
    · rw [if_pos h, List.filter_cons_of_pos (by simp [h]), List.flatMap_cons,
        Shelf.recordAll_append]
    · rw [if_neg h, List.filter_cons_of_neg (by simp [Ne.symm h])]

theorem templates_foldl_save_of_not_mem {reports : List Report} {id : Text}
    (h : ∀ r ∈ reports, r.serviceId ≠ id) (s : Store) :
    (reports.foldl save s).templates id = s.templates id := by
  rw [templates_foldl_save_eq, List.filter_eq_nil_iff.2 (by simpa using h)]
  rfl

/-- Where the reports are of different services, each shelf takes in one report. -/
theorem templates_foldl_save {reports : List Report}
    (distinct : (reports.map (·.serviceId)).Nodup) {r : Report} (hr : r ∈ reports) (s : Store) :
    (reports.foldl save s).templates r.serviceId =
      Shelf.recordAll s.maxExamples (s.templates r.serviceId) r.hits := by
  rw [templates_foldl_save_eq, filter_of_nodup distinct hr, List.flatMap_singleton]

end Store

/-! ### Batches -/

namespace Miner

theorem sorted_group (records : List Record) : (group records).Sorted := by
  have run : ∀ groups : Table (List Text), groups.Sorted →
      (records.foldl (fun groups r => groups.modify r.service [] (· ++ [r.message]))
        groups).Sorted := by
    induction records with
    | nil => exact fun _ h => h
    | cons r records ih => exact fun _ h => ih _ (Table.sorted_insert h _ _)
  exact run [] .nil

/-- Every group is of the service of a record. -/
theorem exists_record_of_mem_group {records : List Record} {entry : Text × List Text}
    (h : entry ∈ group records) : ∃ r ∈ records, r.service = entry.1 := by
  have run : ∀ (rest : List Record) (groups : Table (List Text)),
      entry ∈ rest.foldl (fun groups r => groups.modify r.service [] (· ++ [r.message])) groups →
      entry ∈ groups ∨ ∃ r ∈ rest, r.service = entry.1 := by
    intro rest
    induction rest with
    | nil => exact fun _ h => Or.inl h
    | cons r rest ih =>
      intro groups h
      rcases ih _ h with h | ⟨r', hr', eq⟩
      · rcases Table.mem_insert_key h with eq | h
        · exact Or.inr ⟨r, List.mem_cons_self, eq.symm⟩
        · exact Or.inl h
      · exact Or.inr ⟨r', List.mem_cons_of_mem _ hr', eq⟩
  exact (run records [] h).resolve_left (by simp)

/-- The messages of a service, in their order. -/
def messagesOf (service : Text) (records : List Record) : List Text :=
  (records.filter (·.service = service)).map (·.message)

/-- The group of a service holds its messages. There is none when the service has no message. -/
theorem get?_group (records : List Record) (service : Text) :
    (group records).get? service =
      if messagesOf service records = [] then none else some (messagesOf service records) := by
  have run : ∀ groups : Table (List Text),
      (records.foldl (fun groups r => groups.modify r.service [] (· ++ [r.message]))
        groups).get? service =
      if messagesOf service records = [] then groups.get? service
      else some ((groups.get? service).getD [] ++ messagesOf service records) := by
    induction records with
    | nil => exact fun _ => rfl
    | cons r records ih =>
      intro groups
      rw [List.foldl_cons, ih]
      by_cases h : r.service = service
      · subst h
        have head : messagesOf r.service (r :: records) =
            r.message :: messagesOf r.service records := by
          simp [messagesOf]
        rw [head, Table.modify, Table.get?_insert_self]
        split <;> simp [*]
      · have tail : messagesOf service (r :: records) = messagesOf service records := by
          simp [messagesOf, h]
        rw [tail, Table.modify, Table.get?_insert_of_ne (Ne.symm h)]
  exact run []

/-- No two services of a batch have the same identifier. -/
def DistinctServices (records : List Record) : Prop :=
  ∀ r ∈ records, ∀ r' ∈ records, Id.ofService r.service = Id.ofService r'.service →
    r.service = r'.service

instance (records : List Record) : Decidable (DistinctServices records) :=
  inferInstanceAs (Decidable (∀ r ∈ records, ∀ r' ∈ records, _ → _))

theorem nodup_serviceId {records : List Record} (services : DistinctServices records) :
    ((group records).map fun entry => Id.ofService entry.1).Nodup := by
  have keys := (sorted_group records).nodup
  rw [List.nodup_map_iff_inj_on ((sorted_group records).nodup.of_map _)]
  intro a ha b hb same
  obtain ⟨r, hr, eq⟩ := exists_record_of_mem_group ha
  obtain ⟨r', hr', eq'⟩ := exists_record_of_mem_group hb
  refine List.inj_on_of_nodup_map keys ha hb ?_
  rw [← eq, ← eq']
  exact services r hr r' hr' (by rw [eq, eq']; exact same)

theorem store_foldl_save (reports : List Report) (m : Miner) :
    (reports.foldl save m).store = reports.foldl Store.save m.store := by
  induction reports generalizing m with
  | nil => rfl
  | cons r reports ih => exact ih (m.save r)

theorem vocabulary_foldl_save (reports : List Report) (m : Miner) :
    (reports.foldl save m).vocabulary = m.vocabulary := by
  induction reports generalizing m with
  | nil => rfl
  | cons r reports ih => exact ih (m.save r)

@[simp] theorem vocabulary_runBatch (m : Miner) (records : List Record) (nanos : UInt64) :
    (m.runBatch records nanos).2.vocabulary = m.vocabulary := vocabulary_foldl_save _ m

theorem store_runBatch (m : Miner) (records : List Record) (nanos : UInt64) :
    (m.runBatch records nanos).2.store =
      (m.runBatch records nanos).1.foldl Store.save m.store := store_foldl_save _ m

theorem serviceIds_runBatch (m : Miner) (records : List Record) (nanos : UInt64) :
    (m.runBatch records nanos).1.map (·.serviceId) =
      (group records).map fun entry => Id.ofService entry.1 := by
  rw [runBatch, List.map_map]
  rfl

/-- The shelf of a service takes in the report on it. -/
theorem templates_runBatch_of_mem {records : List Record} (services : DistinctServices records)
    (m : Miner) {nanos : UInt64} {r : Report} (hr : r ∈ (m.runBatch records nanos).1) :
    (m.runBatch records nanos).2.store.templates r.serviceId =
      Shelf.recordAll m.store.maxExamples (m.store.templates r.serviceId) r.hits := by
  rw [store_runBatch]
  refine Store.templates_foldl_save ?_ hr m.store
  rw [serviceIds_runBatch]
  exact nodup_serviceId services

/-- Without a report, a shelf is left as it is. -/
theorem templates_runBatch_of_not_mem (m : Miner) {records : List Record} {nanos : UInt64}
    {id : Text} (hid : id ∉ (m.runBatch records nanos).1.map (·.serviceId)) :
    (m.runBatch records nanos).2.store.templates id = m.store.templates id := by
  rw [store_runBatch]
  exact Store.templates_foldl_save_of_not_mem
    (fun r hr same => hid (List.mem_map.2 ⟨r, hr, same⟩)) m.store

@[simp] theorem maxExamples_runBatch (m : Miner) (records : List Record) (nanos : UInt64) :
    (m.runBatch records nanos).2.store.maxExamples = m.store.maxExamples := by
  rw [store_runBatch, Store.maxExamples_foldl_save]

end Miner

end LogTemplate
