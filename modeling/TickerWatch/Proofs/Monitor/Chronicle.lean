import TickerWatch.Proofs.Monitor.WellFormed

namespace TickerWatch

namespace Store

variable {s : Store} {alert : Option RecordId} {limit more : Int}

def entries (s : Store) (alert : Option RecordId) : List HistoryEntry :=
  s.history.filter fun h => alert.all (· = h.alertId)

def latest (s : Store) (alert : Option RecordId) (limit : Int) : List HistoryEntry :=
  (s.entries alert).reverse.take (min (max limit 1).toNat (s.entries alert).length)

theorem listHistory_eq (s : Store) (alert : Option RecordId) (limit : Int) :
    s.listHistory alert (max limit 1) = s.latest alert limit := by
  rw [listHistory, List.filter_reverse, List.take_eq_take_min, List.length_reverse]
  rfl

theorem latest_prefix (fewer : limit ≤ more) : s.latest alert limit <+: s.latest alert more := by
  apply List.take_prefix_take_left
  omega

theorem latest_sublist : (s.latest alert limit).Sublist (s.entries alert).reverse :=
  List.take_sublist _ _

theorem latest_all (enough : (s.entries alert).length ≤ limit) :
    s.latest alert limit = (s.entries alert).reverse := by
  apply List.take_of_length_le
  rw [List.length_reverse]
  omega

theorem latest_own {id : RecordId} (enough : (s.entries (some id)).length ≤ limit)
    (wide : s.history.length ≤ more) :
    s.latest (some id) limit = (s.latest none more).filter (·.alertId = id) := by
  have all : s.entries none = s.history := List.filter_true _
  have own : s.entries (some id) = s.history.filter (·.alertId = id) := by
    apply List.filter_congr
    intro h _
    exact decide_eq_decide.mpr eq_comm
  rw [latest_all enough, latest_all (all ▸ wide), own, all, List.filter_reverse]

/-- Entries stand in the order of their times, none of which is after a reading ahead. -/
structure Chronicled (s : Store) (ahead : List Int) : Prop where
  ordered : s.history.Pairwise fun older newer => older.triggeredAt ≤ newer.triggeredAt
  past : ∀ h ∈ s.history, ∀ u ∈ ahead, h.triggeredAt ≤ u

theorem Chronicled.latest {ahead : List Int} (chronicled : s.Chronicled ahead) :
    (s.latest alert limit).Pairwise fun newer older => older.triggeredAt ≤ newer.triggeredAt := by
  have own : (s.entries alert).Pairwise fun older newer => older.triggeredAt ≤ newer.triggeredAt :=
    chronicled.ordered.filter _
  exact (List.pairwise_reverse.mpr own).sublist latest_sublist

end Store

namespace Scene

variable {s : Scene} {deed : Deed} {ahead : List Int}

theorem perform_history (s : Scene) (deed : Deed) :
    (s.perform deed).store.history = s.store.history ∨
      ∃ h : HistoryEntry, h.triggeredAt = deed.now ∧
        (s.perform deed).store.history = s.store.history ++ [h] := by
  rcases s.perform_cases deed with
    still | ⟨e, r, rfl⟩ | ⟨i, e, f, rfl, found⟩ | ⟨copy, x, message, e, rfl⟩
  · rw [store, still]
    exact .inl rfl
  · exact .inl (Desk.serve_frame s.desk e r).1
  · rcases advance_history e found with same | ⟨-, grown⟩
    · exact .inl same
    · exact .inr ⟨_, rfl, grown⟩
  · have written : (s.desk.fire e copy x message).2.store.history =
        (s.desk.record e copy x message).store.history :=
      (Desk.retire_rewrites _ e copy).history.trans (Desk.stamp_rewrites _ e copy).history
    rcases s.desk.record_store e copy x message with same | grown
    · exact .inl (written.trans (congrArg Store.history same))
    · exact .inr ⟨_, rfl, written.trans (congrArg Store.history grown)⟩

theorem perform_chronicled (chronicled : s.store.Chronicled (deed.now :: ahead))
    (order : ∀ u ∈ ahead, deed.now ≤ u) : (s.perform deed).store.Chronicled ahead := by
  obtain ⟨ordered, past⟩ := chronicled
  have later : ∀ h ∈ s.store.history, ∀ u ∈ ahead, h.triggeredAt ≤ u :=
    fun h member u after => past h member u (List.mem_cons_of_mem _ after)
  rcases s.perform_history deed with same | ⟨new, time, grown⟩
  · constructor
    · rw [same]
      exact ordered
    · rw [same]
      exact later
  · constructor
    · rw [grown, List.pairwise_append]
      refine ⟨ordered, List.pairwise_singleton _ _, fun h member k added => ?_⟩
      rw [List.mem_singleton.mp added, time]
      exact past h member deed.now List.mem_cons_self
    · rw [grown]
      intro h member u after
      rcases List.mem_append.mp member with before | added
      · exact later h before u after
      · rw [List.mem_singleton.mp added, time]
        exact order u after

theorem play_chronicled {deeds : List Deed} (chronicled : s.store.Chronicled (deeds.map Deed.now))
    (forward : (deeds.map Deed.now).Pairwise (· ≤ ·)) : (s.play deeds).store.Chronicled [] := by
  induction deeds generalizing s with
  | nil => exact chronicled
  | cons deed deeds ih =>
    obtain ⟨first, rest⟩ := List.pairwise_cons.mp forward
    exact ih (perform_chronicled chronicled first) rest

/-- Callers are shown the latest entries, the shorter listing as the beginning of the longer one,
and one alert's entries as they stand among all. Nothing is shown twice or left out. As a fire reads
the clock in the act that appends its entry, the newest comes first if the clock is never set back.
-/
theorem history_newest_first (s : Scene) (deeds : List Deed) :
    let d := (s.play deeds).desk
    (∀ e alert limit, e.outages.Works (.listHistory alert) →
      d.history e alert limit = .ok (d.store.latest alert limit)) ∧
    (∀ alert limit more, limit ≤ more →
      d.store.latest alert limit <+: d.store.latest alert more) ∧
    (∀ id limit more, ((d.store.entries (some id)).length : Int) ≤ limit →
      (d.store.history.length : Int) ≤ more →
      d.store.latest (some id) limit = (d.store.latest none more).filter (·.alertId = id)) ∧
    (∀ alert limit, (d.store.latest alert limit).Sublist (d.store.entries alert).reverse ∧
      (((d.store.entries alert).length : Int) ≤ limit →
        (d.store.latest alert limit).Perm (d.store.entries alert))) ∧
    (s.store.Chronicled (deeds.map Deed.now) → (deeds.map Deed.now).Pairwise (· ≤ ·) →
      ∀ alert limit, (d.store.latest alert limit).Pairwise
        fun newer older => older.triggeredAt ≤ newer.triggeredAt) := by
  refine ⟨?_, ?_, ?_, ?_, ?_⟩
  · intro e alert limit works
    rw [Desk.history, Outages.listHistory, Desk.reading_works works, Store.listHistory_eq]
  · exact fun alert limit more => Store.latest_prefix
  · exact fun id limit more => Store.latest_own
  · intro alert limit
    refine ⟨Store.latest_sublist, fun enough => ?_⟩
    rw [Store.latest_all enough]
    exact List.reverse_perm _
  · intro chronicled forward alert limit
    exact (play_chronicled chronicled forward).latest

def oneAfterAnother : List Deed :=
  [.act (.request { now := 0 } (.create (.rise 2 .once))), .act (.tick { now := 10 })] ++
    (turn 0 (some { changePercent := 6.2 }) { now := 20 } { now := 30 }).map .act ++
    [.act (.request { now := 40 } (.create (.rise 2 .keepActive))), .act (.tick { now := 40 })] ++
    (turn 0 (some { changePercent := 7.5 }) { now := 40 } { now := 40 }).map .act

theorem one_after_another_newest_first :
    let d := (opening.play oneAfterAnother).desk
    (d.store.latest none 5).map (fun h => (h.alertId, h.triggeredAt)) = [(⟨3⟩, 40), (⟨1⟩, 30)] ∧
      d.history { now := 50 } none (-7) = .ok (d.store.latest none (-7)) ∧
      d.store.latest none (-7) <+: d.store.latest none 5 ∧
      d.store.latest (some ⟨1⟩) 1 = (d.store.latest none 5).filter (·.alertId = ⟨1⟩) ∧
      (d.store.latest none 5).Perm (d.store.entries none) ∧
      (d.store.latest none 5).Pairwise
        fun newer older => older.triggeredAt ≤ newer.triggeredAt := by
  have forward : (oneAfterAnother.map Deed.now).Pairwise (· ≤ ·) := by decide
  have begun : opening.store.Chronicled (oneAfterAnother.map Deed.now) :=
    ⟨List.Pairwise.nil, List.forall_mem_nil _⟩
  obtain ⟨shown, beginning, own, whole, order⟩ := history_newest_first opening oneAfterAnother
  exact ⟨by decide +kernel, shown _ _ _ nofun, beginning none (-7) 5 (by decide),
    own ⟨1⟩ 1 5 (by decide +kernel) (by decide +kernel), (whole none 5).2 (by decide +kernel),
    order begun forward none 5⟩

end Scene

end TickerWatch
