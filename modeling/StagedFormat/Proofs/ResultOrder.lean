import Mathlib.Data.List.Basic
import Mathlib.Data.List.Perm.Basic
import StagedFormat.Outcome.Report

/-! Results in the order of reports: by severity and name. Sorting them again in another order makes no
difference but for those that tie. -/

namespace StagedFormat.Proofs.ResultOrder
open StagedFormat Std

def rung (result : Result) : Nat × String := (result.rank, result.name)

def compareRungs : Nat × String → Nat × String → Ordering :=
  compareLex (compareOn Prod.fst) (compareOn Prod.snd)

/-- The same results in the same order; those of the same rank and name can have changed places. -/
structure SameReport (one other : List Result) : Prop where
  results : one.Perm other
  rungs : one.map rung = other.map rung

theorem order_eq (a b : Result) : a.order b = compareRungs (rung a) (rung b) := rfl

instance : TransCmp compareRungs := inferInstanceAs (TransCmp (compareLex _ _))

theorem order_trans (a b c : Result) (below : (a.order b != .gt) = true) (above : (b.order c != .gt) = true) :
    (a.order c != .gt) = true := by
  simp only [bne_iff_ne, ← Ordering.isLE_iff_ne_gt, order_eq] at below above ⊢
  exact TransCmp.isLE_trans below above

theorem order_total (a b : Result) : (a.order b != .gt || b.order a != .gt) = true := by
  simp only [Bool.or_eq_true, bne_iff_ne, order_eq]
  by_cases greater : compareRungs (rung a) (rung b) = .gt
  · exact .inr (by rw [OrientedCmp.lt_of_gt greater]; decide)
  · exact .inl greater

theorem sorted_perm (results : List Result) : (Result.sorted results).Perm results :=
  List.mergeSort_perm results _

theorem sorted_ascends (results : List Result) :
    ((Result.sorted results).map rung).Pairwise fun a b => compareRungs a b ≠ .gt := by
  refine List.pairwise_map.mpr ?_
  exact (List.pairwise_mergeSort order_trans order_total results).imp fun least => by simpa [order_eq] using least

/-- Sorting undoes a change of order. -/
theorem sorted_of_perm {one other : List Result} (same : one.Perm other) :
    SameReport (Result.sorted one) (Result.sorted other) := by
  have perm : (Result.sorted one).Perm (Result.sorted other) :=
    (sorted_perm one).trans (same.trans (sorted_perm other).symm)
  refine ⟨perm, (perm.map rung).eq_of_pairwise ?_ (sorted_ascends one) (sorted_ascends other)⟩
  intro a b _ _ below above
  have equal : compareRungs a b = .eq := OrientedCmp.isLE_antisymm
    (Ordering.isLE_iff_ne_gt.mpr below) (Ordering.isLE_iff_ne_gt.mpr above)
  obtain ⟨ranks, names⟩ := compareLex_eq_eq.mp equal
  exact Prod.ext (LawfulEqOrd.eq_of_compare ranks) (LawfulEqOrd.eq_of_compare names)

/-- The status of results: a failure comes first, and then a change where changes matter. -/
def statusOf (strict : Bool) (results : List Result) : ExitStatus :=
  if ∃ result ∈ results, result.isError then .failure
  else if strict ∧ ∃ result ∈ results, result.isChange then .fileChanged
  else .success

theorem any_sorted (results : List Result) (property : Result → Bool) :
    (Result.sorted results).any property = true ↔ ∃ result ∈ results, property result := by
  rw [List.any_eq_true]
  exact exists_congr fun _ => and_congr_left fun _ => (sorted_perm results).mem_iff

private theorem statusOf_perm (strict : Bool) {one other : List Result} (same : one.Perm other) :
    statusOf strict one = statusOf strict other := by
  simp only [statusOf, same.mem_iff]

theorem exitStatus_render (results : List Result) (prePush strict : Bool) :
    (Report.render results prePush).exitStatus strict = statusOf strict results := by
  simp only [Report.exitStatus, Report.render, statusOf, Bool.and_eq_true, List.any_eq_true]

theorem exitStatus_sorted (results : List Result) (prePush strict : Bool) :
    (Report.render (Result.sorted results) prePush).exitStatus strict = statusOf strict results :=
  (exitStatus_render _ prePush strict).trans (statusOf_perm strict (sorted_perm results))

end StagedFormat.Proofs.ResultOrder
