import StagedFormat.Scope.Basic

/-! Paths in ascending order. The order of paths is that of their components, a linear one; sorting
paths and dropping repetitions leaves each place once, the lesser places first. -/

namespace StagedFormat.Proofs.PathOrder
open StagedFormat StagedFormat.Path Std

instance : TransOrd ByteString := inferInstanceAs (TransCmp (compareOn ByteString.bytes))

instance : LawfulEqOrd ByteString where
  eq_of_compare same := ByteString.ext (LawfulEqOrd.eq_of_compare same)

def kind : Component → Nat
  | .top => 0
  | .current => 1
  | .parent => 2
  | .name _ => 3

def word : Component → ByteString
  | .name name => name
  | _ => ""

private theorem order_eq : Component.order = compareLex (compareOn kind) (compareOn word) := by
  funext a b
  cases a <;> cases b <;> rfl

instance : TransCmp Component.order := order_eq ▸ inferInstance

instance : LawfulEqCmp Component.order where
  eq_of_compare {a b} same := by
    rw [order_eq, compareLex_eq_eq] at same
    obtain ⟨kinds, words⟩ := same
    have kinds := LawfulEqOrd.eq_of_compare kinds
    have words := LawfulEqOrd.eq_of_compare words
    cases a <;> cases b <;> simp_all [kind, word]

private theorem orderComponents_eq : orderComponents = List.compareLex Component.order := by
  funext a b
  induction a generalizing b with
  | nil => cases b <;> simp [orderComponents, List.compareLex_nil_nil, List.compareLex_nil_cons]
  | cons a s ih =>
    cases b with
    | nil => simp [orderComponents, List.compareLex_cons_nil]
    | cons b t => rw [orderComponents, List.compareLex_cons_cons, ih]

instance : TransCmp orderComponents := orderComponents_eq ▸ inferInstance

instance : LawfulEqCmp orderComponents := orderComponents_eq ▸ inferInstance

instance : TransCmp Path.order where
  eq_swap {a b} := by
    have swapped : orderComponents a.components b.components = _ := OrientedCmp.eq_swap
    exact swapped
  isLE_trans {a b c} below above := by
    have below : (orderComponents a.components b.components).isLE := below
    have above : (orderComponents b.components c.components).isLE := above
    have through : (orderComponents a.components c.components).isLE := TransCmp.isLE_trans below above
    exact through

theorem order_self (path : Path) : path.order path = .eq := ReflCmp.compare_self

private theorem same_iff {a b : Path} : a.same b = true ↔ a.order b = .eq := by
  rw [Path.same, beq_iff_eq, Path.order, LawfulEqCmp.compare_eq_iff_eq]

theorem mem_of_mem_distinct {path : Path} {paths : List Path} (member : path ∈ Scope.distinct paths) :
    path ∈ paths := by
  induction paths with
  | nil => exact member
  | cons first rest ih =>
    unfold Scope.distinct at member
    split at member
    · exact List.mem_singleton.mp member ▸ List.mem_cons_self
    · rename_i next others left
      rw [left] at ih
      split at member
      · rcases List.mem_cons.mp member with rfl | member
        · exact List.mem_cons_self
        · exact .tail _ (ih (.tail _ member))
      · rcases List.mem_cons.mp member with rfl | member
        · exact List.mem_cons_self
        · exact .tail _ (ih member)

theorem same_of_mem {path : Path} {paths : List Path} (member : path ∈ paths) :
    ∃ kept ∈ Scope.distinct paths, path.same kept := by
  induction paths with
  | nil => cases member
  | cons first rest ih =>
    have itself : first.same first = true := same_iff.mpr (order_self first)
    unfold Scope.distinct
    split
    · rename_i left
      rcases List.mem_cons.mp member with rfl | member
      · exact ⟨path, List.mem_singleton_self _, itself⟩
      · obtain ⟨kept, inside, _⟩ := ih member
        rw [left] at inside
        cases inside
    · rename_i next others left
      rw [left] at ih
      split
      · rename_i repeated
        rcases List.mem_cons.mp member with rfl | member
        · exact ⟨path, List.mem_cons_self, itself⟩
        · obtain ⟨kept, inside, same⟩ := ih member
          rcases List.mem_cons.mp inside with rfl | inside
          · refine ⟨first, List.mem_cons_self, same_iff.mpr ?_⟩
            exact TransCmp.eq_trans (same_iff.mp same) (OrientedCmp.eq_symm (same_iff.mp repeated))
          · exact ⟨kept, .tail _ inside, same⟩
      · rcases List.mem_cons.mp member with rfl | member
        · exact ⟨path, List.mem_cons_self, itself⟩
        · obtain ⟨kept, inside, same⟩ := ih member
          exact ⟨kept, .tail _ inside, same⟩

private theorem distinct_ascends {paths : List Path} (sorted : paths.Pairwise fun a b => a.order b ≠ .gt) :
    (Scope.distinct paths).Pairwise fun a b => a.order b = .lt := by
  induction paths with
  | nil => exact .nil
  | cons first rest ih =>
    obtain ⟨least, sorted⟩ := List.pairwise_cons.mp sorted
    have ascends := ih sorted
    unfold Scope.distinct
    split
    · exact List.pairwise_singleton _ _
    · rename_i next others left
      rw [left] at ascends
      obtain ⟨above, others⟩ := List.pairwise_cons.mp ascends
      split
      · rename_i repeated
        refine List.pairwise_cons.mpr ⟨?_, others⟩
        intro other member
        exact TransCmp.lt_of_eq_of_lt (same_iff.mp repeated) (above other member)
      · rename_i new
        have inside : next ∈ rest := mem_of_mem_distinct (left ▸ List.mem_cons_self)
        have below : first.order next = .lt := by
          cases compared : first.order next with
          | lt => rfl
          | eq => exact (new (same_iff.mpr compared)).elim
          | gt => exact (least next inside compared).elim
        refine List.pairwise_cons.mpr ⟨?_, ascends⟩
        intro other member
        rcases List.mem_cons.mp member with rfl | member
        · exact below
        · exact TransCmp.lt_trans below (above other member)

theorem sortedPaths_ascends (paths : List Path) :
    (Scope.sortedPaths paths).Pairwise fun a b => a.order b = .lt := by
  have trans (a b c : Path) (below : (a.order b != .gt) = true) (above : (b.order c != .gt) = true) :
      (a.order c != .gt) = true := by
    simp only [bne_iff_ne, ← Ordering.isLE_iff_ne_gt] at below above ⊢
    exact TransCmp.isLE_trans below above
  have total (a b : Path) : (a.order b != .gt || b.order a != .gt) = true := by
    simp only [Bool.or_eq_true, bne_iff_ne]
    by_cases greater : a.order b = .gt
    · exact .inr (by rw [OrientedCmp.lt_of_gt greater]; decide)
    · exact .inl greater
  have sorted := List.pairwise_mergeSort trans total paths
  exact distinct_ascends (sorted.imp fun least => by simpa using least)

theorem mem_sortedPaths {paths : List Path} {path : Path}
    (single : ∀ other ∈ paths, path.same other → path = other) :
    path ∈ Scope.sortedPaths paths ↔ path ∈ paths := by
  constructor
  · intro member
    exact List.mem_mergeSort.mp (mem_of_mem_distinct member)
  · intro member
    obtain ⟨kept, inside, same⟩ := same_of_mem (List.mem_mergeSort.mpr member)
    rwa [single kept (List.mem_mergeSort.mp (mem_of_mem_distinct inside)) same]

/-- Paths in strictly ascending order are determined by which ones they are. -/
theorem eq_of_ascending {paths others : List Path} (first : paths.Pairwise fun a b => a.order b = .lt)
    (second : others.Pairwise fun a b => a.order b = .lt) (same : ∀ path, path ∈ paths ↔ path ∈ others) :
    paths = others := by
  have apart {a b : Path} (less : a.order b = .lt) : a ≠ b := by
    rintro rfl
    rw [order_self] at less
    cases less
  have perm : paths.Perm others :=
    (List.perm_ext_iff_of_nodup (first.imp apart) (second.imp apart)).mpr same
  refine perm.eq_of_pairwise ?_ first second
  intro a b _ _ less more
  rw [OrientedCmp.gt_of_lt less] at more
  cases more

private theorem eq_of_same {paths : List Path} (ascends : paths.Pairwise fun a b => a.order b = .lt) {a b : Path}
    (first : a ∈ paths) (second : b ∈ paths) (same : a.order b = .eq) : a = b := by
  induction paths with
  | nil => cases first
  | cons least rest ih =>
    obtain ⟨above, ascends⟩ := List.pairwise_cons.mp ascends
    rcases List.mem_cons.mp first with rfl | one
    · rcases List.mem_cons.mp second with rfl | other
      · rfl
      · rw [above b other] at same
        cases same
    · rcases List.mem_cons.mp second with rfl | other
      · rw [OrientedCmp.gt_of_lt (above a one)] at same
        cases same
      · exact ih ascends one other

/-- What is sorted can be given: the same paths, in strictly ascending order. -/
theorem sortedPaths_eq {paths ascending : List Path} (ascends : ascending.Pairwise fun a b => a.order b = .lt)
    (kept : ascending ⊆ paths) (whole : paths ⊆ ascending) : Scope.sortedPaths paths = ascending := by
  refine eq_of_ascending (sortedPaths_ascends paths) ascends fun path => ?_
  constructor
  · intro member
    exact whole (List.mem_mergeSort.mp (mem_of_mem_distinct member))
  · intro member
    refine (mem_sortedPaths fun other inside same => ?_).mpr (kept member)
    exact eq_of_same ascends member (whole inside) (same_iff.mp same)

end StagedFormat.Proofs.PathOrder
