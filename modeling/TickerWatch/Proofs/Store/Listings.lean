import Mathlib.Data.List.Nodup
import TickerWatch.Proofs.Store.Alerts

namespace TickerWatch

namespace Store

variable {a b c : Alert} {alerts : List Alert}

theorem precedes_iff :
    precedes a b = true ↔
      b.createdAt < a.createdAt ∨ a.createdAt = b.createdAt ∧ b.id.number ≤ a.id.number := by
  simp [precedes]

theorem precedes_trans (first : precedes a b = true) (second : precedes b c = true) :
    precedes a c = true := by
  rw [precedes_iff] at first second ⊢
  omega

theorem precedes_total (a b : Alert) : (precedes a b || precedes b a) = true := by
  rw [Bool.or_eq_true, precedes_iff, precedes_iff]
  omega

theorem id_of_precedes (first : precedes a b = true) (second : precedes b a = true) :
    a.id = b.id := by
  rw [precedes_iff] at first second
  have number : a.id.number = b.id.number := by omega
  exact congrArg RecordId.mk number

theorem sorted (alerts : List Alert) :
    (alerts.mergeSort precedes).Pairwise fun a b => precedes a b = true := by
  apply List.pairwise_mergeSort
  · exact fun a b c => precedes_trans
  · exact precedes_total

theorem sorted_unique {listing : List Alert} (distinct : (alerts.map Alert.id).Nodup)
    (perm : listing.Perm alerts) (order : listing.Pairwise fun a b => precedes a b = true) :
    listing = alerts.mergeSort precedes := by
  refine (perm.trans (List.mergeSort_perm _ _).symm).eq_of_pairwise ?_ order (sorted alerts)
  intro a b left right first second
  have stored : a ∈ alerts := perm.mem_iff.mp left
  have storedToo : b ∈ alerts := List.mem_mergeSort.mp right
  exact List.inj_on_of_nodup_map distinct stored storedToo (id_of_precedes first second)

theorem sorted_filter (distinct : (alerts.map Alert.id).Nodup) (keep : Alert → Bool) :
    (alerts.filter keep).mergeSort precedes = (alerts.mergeSort precedes).filter keep := by
  have fewer : ((alerts.filter keep).map Alert.id).Nodup :=
    (List.filter_sublist.map Alert.id).nodup distinct
  have perm : ((alerts.mergeSort precedes).filter keep).Perm (alerts.filter keep) :=
    (List.mergeSort_perm alerts precedes).filter keep
  exact (sorted_unique fewer perm ((sorted alerts).filter keep)).symm

theorem sorted_perm {order : List Alert} (distinct : (alerts.map Alert.id).Nodup)
    (perm : order.Perm alerts) : order.mergeSort precedes = alerts.mergeSort precedes :=
  sorted_unique distinct ((List.mergeSort_perm _ _).trans perm) (sorted order)

/-- The order of the listings, which leaves no two alerts level. -/
def Before (a b : Alert) : Prop :=
  b.createdAt < a.createdAt ∨ a.createdAt = b.createdAt ∧ b.id.number < a.id.number

theorem sorted_before (distinct : (alerts.map Alert.id).Nodup) :
    (alerts.mergeSort precedes).Pairwise Before := by
  have apart : (alerts.mergeSort precedes).Pairwise fun a b => a.id ≠ b.id :=
    List.pairwise_map.mp
      (((List.mergeSort_perm alerts precedes).map Alert.id).nodup_iff.mpr distinct)
  refine (sorted alerts).imp₂ ?_ apart
  intro a b first other
  have numbers : a.id.number ≠ b.id.number := fun same => other (congrArg RecordId.mk same)
  rw [precedes_iff] at first
  unfold Before
  omega

variable {s : Store} {code : String}

theorem mem_listActiveOf :
    a ∈ s.listActiveOf code ↔ a ∈ s.alerts ∧ a.isActive = true ∧ a.code = code := by
  rw [listActiveOf, List.mem_mergeSort, List.mem_filter]
  simp

theorem code_of_listActiveOf : ∀ a ∈ s.listActiveOf code, a.code = code :=
  fun _ member => (mem_listActiveOf.mp member).2.2

theorem listActiveOf_eq (distinct : (s.alerts.map Alert.id).Nodup) (code : String) :
    s.listActiveOf code = s.listActive.filter (·.code == code) := by
  have fewer : ((s.alerts.filter Alert.isActive).map Alert.id).Nodup :=
    (List.filter_sublist.map Alert.id).nodup distinct
  rw [listActive, ← sorted_filter fewer, List.filter_filter, listActiveOf]
  congr 2
  funext a
  exact Bool.and_comm ..

end Store

end TickerWatch
