import TickerWatch.Proofs.Monitor.WellFormed
import TickerWatch.Proofs.Store.Listings

namespace TickerWatch

namespace Scene

variable {s : Scene}

theorem perform_distinct (distinct : (s.store.alerts.map Alert.id).Nodup) (deed : Deed) :
    ((s.perform deed).store.alerts.map Alert.id).Nodup := by
  rcases s.perform_cases deed with
    still | ⟨e, r, rfl⟩ | ⟨i, e, f, rfl, found⟩ | ⟨copy, x, message, e, rfl⟩
  · rw [store, still]
    exact distinct
  · exact Desk.serve_distinct s.desk e r distinct
  · rw [perform, store, step_advance found, f.advance_ids]
    exact distinct
  · rw [perform, store, Desk.fire_ids]
    exact distinct

theorem play_distinct (distinct : (s.store.alerts.map Alert.id).Nodup) (deeds : List Deed) :
    ((s.play deeds).store.alerts.map Alert.id).Nodup := by
  induction deeds generalizing s with
  | nil => exact distinct
  | cons deed deeds ih => exact ih (perform_distinct distinct deed)

/-- After every run there is one listing of the stored alerts, each once and no two level. In
whatever order the store comes upon its alerts, callers are shown that listing, or, of active alerts
and those of a code, what it leaves of itself. -/
theorem listings_canonical (s : Scene) (deeds : List Deed)
    (distinct : (s.store.alerts.map Alert.id).Nodup) :
    let d := (s.play deeds).desk
    ∃ all : List Alert, all.Perm d.store.alerts ∧ all.Nodup ∧ all.Pairwise Store.Before ∧
      ∀ alerts : List Alert, alerts.Perm d.store.alerts → ∀ e,
        let shuffled := d.withStore { d.store with alerts }
        (e.outages.Works .listAlerts → shuffled.list e = .ok all) ∧
        (e.outages.Works .listActive →
          shuffled.listActive e = .ok (all.filter Alert.isActive)) ∧
        ∀ code, e.outages.Works (.listActiveOf (Desk.normalCode code)) →
          shuffled.listActiveOf e code = .ok
            ((all.filter Alert.isActive).filter (·.code == Text.upper (Text.trim code))) := by
  intro d
  have once : (d.store.alerts.map Alert.id).Nodup := play_distinct distinct deeds
  have listed : (d.store.alerts.mergeSort Store.precedes).Perm d.store.alerts :=
    List.mergeSort_perm _ _
  refine ⟨d.store.list, listed, listed.nodup_iff.mpr once.of_map, Store.sorted_before once, ?_⟩
  intro alerts perm e
  have onceToo : (alerts.map Alert.id).Nodup := (perm.map Alert.id).nodup_iff.mpr once
  have active : (alerts.filter Alert.isActive).mergeSort Store.precedes =
      d.store.list.filter Alert.isActive := by
    rw [Store.sorted_filter onceToo, Store.sorted_perm once perm]
    rfl
  refine ⟨fun works => ?_, fun works => ?_, fun code works => ?_⟩
  · rw [Desk.list, Outages.list, Desk.reading_works works]
    exact congrArg Except.ok (Store.sorted_perm once perm)
  · rw [Desk.listActive, Outages.listActive, Desk.reading_works works]
    exact congrArg Except.ok active
  · rw [Desk.listActiveOf, Outages.listActiveOf, Desk.reading_works works,
      Store.listActiveOf_eq onceToo, ← active]
    rfl

def twins : List Deed :=
  [.act (.request { now := 0 } (.create (.rise 2 .once))),
    .act (.request { now := 0 } (.create { Definition.rise 2 .once with code := "aapl" })),
    .act (.request { now := 5 } (.toggle ⟨1⟩))]

theorem twins_listed_by_number :
    let d := (opening.play twins).desk
    d.store.alerts.map (fun a => (a.id, a.createdAt, a.isActive)) =
        [(⟨1⟩, 0, false), (⟨2⟩, 0, true)] ∧
      d.list { now := 9 } = .ok d.store.alerts.reverse ∧
      d.listActive { now := 9 } = .ok (d.store.alerts.reverse.filter Alert.isActive) ∧
      d.listActiveOf { now := 9 } " aapl" = .ok
        ((d.store.alerts.reverse.filter Alert.isActive).filter (·.code == "AAPL")) := by
  have stored : (opening.play twins).desk.store.alerts.map
      (fun a => (a.id, a.createdAt, a.isActive)) = [(⟨1⟩, 0, false), (⟨2⟩, 0, true)] := by
    decide +kernel
  have latest : (opening.play twins).desk.store.alerts.reverse.mergeSort Store.precedes =
      (opening.play twins).desk.store.alerts.reverse :=
    List.mergeSort_of_pairwise (by decide +kernel)
  have code : Text.upper (Text.trim " aapl") = "AAPL" := by decide +kernel
  have listings := listings_canonical opening twins (by decide)
  generalize (opening.play twins).desk = d at *
  obtain ⟨all, -, -, -, shown⟩ := listings
  have turned := (shown d.store.alerts.reverse (List.reverse_perm _) { now := 9 }).1 nofun
  obtain rfl : all = d.store.alerts.reverse := (Except.ok.inj turned).symm.trans latest
  obtain ⟨list, active, own⟩ := shown d.store.alerts (.refl _) { now := 9 }
  exact ⟨stored, list nofun, active nofun, code ▸ own " aapl" nofun⟩

end Scene

end TickerWatch
