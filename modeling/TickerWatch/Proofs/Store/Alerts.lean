import TickerWatch.Store.Call

namespace TickerWatch

namespace Store

variable {s after : Store} {id : RecordId} {a : Alert}

def adding (s : Store) (a : Alert) : Store := { s with alerts := s.alerts ++ [a] }

def rewriting (s : Store) (id : RecordId) (f : Alert → Alert) : Store :=
  { s with alerts := s.alerts.map fun a => if a.id = id then f a else a }

def without (s : Store) (id : RecordId) : Store := { s with alerts := s.alerts.filter (·.id ≠ id) }

@[simp] theorem adding_alerts : (s.adding a).alerts = s.alerts ++ [a] := rfl
@[simp] theorem adding_history : (s.adding a).history = s.history := rfl
@[simp] theorem rewriting_history (f : Alert → Alert) :
    (s.rewriting id f).history = s.history := rfl
@[simp] theorem without_history : (s.without id).history = s.history := rfl

/-- Every record after a change that leaves identifiers alone stems from one before it. -/
theorem mem_rewriting {f : Alert → Alert} {b : Alert} (keeps : ∀ a, a.id = id → (f a).id = id)
    (member : b ∈ (s.rewriting id f).alerts) :
    ∃ a ∈ s.alerts, a.id = b.id ∧ b = if b.id = id then f a else a := by
  obtain ⟨a, before, rfl⟩ := List.mem_map.mp member
  by_cases same : a.id = id
  · simp only [same, ↓reduceIte]
    exact ⟨a, before, by rw [same, keeps a same], by simp [keeps a same]⟩
  · simp only [same, ↓reduceIte]
    exact ⟨a, before, rfl, rfl⟩

theorem rewriting_ids {f : Alert → Alert} (keeps : ∀ a, a.id = id → (f a).id = id) :
    (s.rewriting id f).alerts.map Alert.id = s.alerts.map Alert.id := by
  simp only [rewriting, List.map_map]
  apply List.map_congr_left
  intro a _
  by_cases same : a.id = id
  · simp [same, keeps a same]
  · simp [same]

theorem mem_without {b : Alert} : b ∈ (s.without id).alerts ↔ b ∈ s.alerts ∧ b.id ≠ id := by
  simp [without]

theorem mem_of_find? (found : s.find? id = some a) : a ∈ s.alerts :=
  List.mem_of_find?_eq_some found

theorem id_of_find? (found : s.find? id = some a) : a.id = id := by
  simpa using List.find?_some found

theorem find?_eq_none : s.find? id = none ↔ ∀ a ∈ s.alerts, a.id ≠ id := by
  simp [find?, List.find?_eq_none]

theorem has_eq_false : s.has id = false ↔ ∀ a ∈ s.alerts, a.id ≠ id := by
  simp [has, find?_eq_none]

def Lists (s : Store) (listing : List Alert) : Prop :=
  ∃ keep : Alert → Bool, (∀ a, keep a = true → a.isActive = true) ∧
    listing.Perm (s.alerts.filter keep)

theorem lists_nil (s : Store) : s.Lists [] := ⟨fun _ => false, by simp, by simp⟩

theorem lists_active (s : Store) : s.Lists s.listActive :=
  ⟨Alert.isActive, fun _ active => active, List.mergeSort_perm _ _⟩

theorem lists_activeOf (s : Store) (code : String) : s.Lists (s.listActiveOf code) := by
  refine ⟨_, fun a kept => ?_, List.mergeSort_perm _ _⟩
  simp only [Bool.and_eq_true] at kept
  exact kept.1

theorem Lists.active {listing : List Alert} (lists : s.Lists listing) (member : a ∈ listing) :
    a ∈ s.alerts ∧ a.isActive = true := by
  obtain ⟨keep, active, perm⟩ := lists
  obtain ⟨stored, kept⟩ := List.mem_filter.mp (perm.mem_iff.mp member)
  exact ⟨stored, active a kept⟩

theorem Lists.distinct {listing : List Alert} (lists : s.Lists listing)
    (distinct : (s.alerts.map Alert.id).Nodup) : (listing.map Alert.id).Nodup := by
  obtain ⟨keep, -, perm⟩ := lists
  have fewer : ((s.alerts.filter keep).map Alert.id).Sublist (s.alerts.map Alert.id) :=
    List.filter_sublist.map _
  exact (perm.map Alert.id).nodup_iff.mpr (fewer.nodup distinct)

theorem insert_ok (h : s.insert a = .ok after) : s.find? a.id = none ∧ after = s.adding a := by
  unfold insert at h
  split at h
  · cases h
  · rename_i absent
    exact ⟨by simpa [has] using absent, (Except.ok.inj h).symm⟩

theorem modify?_some {f : Alert → Alert} (h : s.modify? id f = some after) :
    s.has id = true ∧ after = s.rewriting id f := by
  unfold modify? at h
  split at h
  · rename_i present
    exact ⟨present, (Option.some.inj h).symm⟩
  · cases h

theorem modify?_none {f : Alert → Alert} (h : s.modify? id f = none) : s.has id = false := by
  unfold modify? at h
  split at h
  · cases h
  · rename_i absent
    simpa using absent

theorem erase?_some (h : s.erase? id = some after) : s.has id = true ∧ after = s.without id := by
  unfold erase? at h
  split at h
  · rename_i present
    exact ⟨present, (Option.some.inj h).symm⟩
  · cases h

theorem find?_adding (fresh : s.find? a.id = none) (other : RecordId) :
    (s.adding a).find? other = if other = a.id then some a else s.find? other := by
  unfold find? at *
  by_cases same : other = a.id
  · subst other
    simp [List.find?_append, fresh]
  · have miss : a.id ≠ other := fun h => same h.symm
    simp [List.find?_append, same, miss]

theorem distinct_adding (distinct : (s.alerts.map Alert.id).Nodup) (fresh : s.find? a.id = none) :
    ((s.adding a).alerts.map Alert.id).Nodup := by
  simp only [adding_alerts, List.map_append, List.map_singleton]
  refine List.nodup_append.mpr ⟨distinct, by simp, ?_⟩
  rintro _ before _ new rfl
  obtain ⟨b, member, same⟩ := List.mem_map.mp before
  exact find?_eq_none.mp fresh b member (same.trans (List.mem_singleton.mp new))

theorem distinct_rewriting {f : Alert → Alert} (distinct : (s.alerts.map Alert.id).Nodup)
    (keeps : ∀ a, a.id = id → (f a).id = id) : ((s.rewriting id f).alerts.map Alert.id).Nodup := by
  rw [rewriting_ids keeps]
  exact distinct

theorem distinct_without (distinct : (s.alerts.map Alert.id).Nodup) (id : RecordId) :
    ((s.without id).alerts.map Alert.id).Nodup :=
  (List.filter_sublist.map _).nodup distinct

/-- A change that leaves identifiers alone is seen under the one identifier only. -/
theorem find?_rewriting {f : Alert → Alert} (keeps : ∀ a, a.id = id → (f a).id = id)
    (other : RecordId) :
    (s.rewriting id f).find? other =
      if other = id then (s.find? other).map f else s.find? other := by
  have unmoved : ∀ a : Alert, (if a.id = id then f a else a).id = a.id := by
    intro a
    split
    · rename_i same
      rw [keeps a same, same]
    · rfl
  have composed : ((fun a : Alert => decide (a.id = other)) ∘
      fun a => if a.id = id then f a else a) = fun a => decide (a.id = other) := by
    funext a
    simp only [Function.comp_apply, unmoved a]
  simp only [find?, rewriting, List.find?_map, composed]
  cases found : s.alerts.find? (fun a => decide (a.id = other)) with
  | none => simp
  | some a =>
    have matched : a.id = other := by simpa using List.find?_some found
    by_cases same : other = id <;> simp [matched, same]

theorem find?_without (other : RecordId) :
    (s.without id).find? other = if other = id then none else s.find? other := by
  by_cases same : other = id
  · subst other
    simp [find?_eq_none, mem_without]
  · simp only [find?, without, List.find?_filter, same, ↓reduceIte]
    congr 1
    funext a
    by_cases matched : a.id = other <;> simp [matched, same]

end Store

namespace Outages

variable {o : Outages} {c : Call}

def Works (o : Outages) (c : Call) : Prop := ∀ reason, o c ≠ some (.failure reason)

theorem guard_ok {α : Type} {answer : Except String α} {a : α} (h : o.guard c answer = .ok a) :
    answer = .ok a := by
  unfold guard at h
  split at h
  · cases h
  · exact h

theorem guard_answers {α : Type} {answer : Except String α} (works : o.Works c) :
    o.guard c answer = answer := by
  unfold guard
  split
  · rename_i reason fails
    exact absurd fails (works reason)
  · rfl

theorem guardWrite_some {answer : Option Store} {after : Store}
    (h : o.guardWrite c answer = .ok (some after)) : answer = some after := by
  unfold guardWrite at h
  split at h
  · cases h
  · cases h
  · exact Except.ok.inj h

theorem guardWrite_answers {answer : Option Store} (works : o c = .none) :
    o.guardWrite c answer = .ok answer := by
  simp [guardWrite, works]

end Outages

end TickerWatch
