import Mathlib.Data.Multiset.Sort

/-!
# The largest values of a multiset

`largest k M` lists the `k` largest values of `M` in descending order.  A bounded ranking is kept
without storing what it dropped: as long as its values dominate the dropped ones, they are the
largest values of everything seen (`coe_largest`), and the domination survives both outcomes of
offering a new value (`Dominates.reject`, `Dominates.replace`).
-/

namespace Largest

variable {α : Type*} [LinearOrder α]

/-- The `k` largest values of `M`, in descending order. -/
def largest (k : ℕ) (M : Multiset α) : List α := (M.sort (· ≥ ·)).take k

/-- Every kept value is at least every dropped one. -/
def Dominates (T R : Multiset α) : Prop := ∀ x ∈ T, ∀ y ∈ R, y ≤ x

/-- A value that is at most every kept value can be dropped. -/
theorem Dominates.reject {T R : Multiset α} (h : Dominates T R) {v : α} (small : ∀ x ∈ T, v ≤ x) :
    Dominates T (v ::ₘ R) := by
  intro x hx y hy
  rcases Multiset.mem_cons.1 hy with rfl | hy
  · exact small x hx
  · exact h x hx y hy

/-- A value above the least kept value takes its place. -/
theorem Dominates.replace {T R : Multiset α} {t v : α} (h : Dominates (t ::ₘ T) R)
    (least : ∀ x ∈ T, t ≤ x) (above : t ≤ v) : Dominates (v ::ₘ T) (t ::ₘ R) := by
  intro x hx y hy
  rcases Multiset.mem_cons.1 hx with rfl | hx <;> rcases Multiset.mem_cons.1 hy with rfl | hy
  · exact above
  · exact (h t (Multiset.mem_cons_self t T) y hy).trans above
  · exact least x hx
  · exact h x (Multiset.mem_cons_of_mem hx) y hy

theorem sort_add_of_dominates {T R : Multiset α} (h : Dominates T R) :
    (T + R).sort (· ≥ ·) = T.sort (· ≥ ·) ++ R.sort (· ≥ ·) := by
  have perm : ((T + R).sort (· ≥ ·)).Perm (T.sort (· ≥ ·) ++ R.sort (· ≥ ·)) := by
    rw [← Multiset.coe_eq_coe]
    simp only [← Multiset.coe_add, Multiset.sort_eq]
  apply perm.eq_of_pairwise' (Multiset.pairwise_sort _ _)
  refine List.pairwise_append.2 ⟨Multiset.pairwise_sort _ _, Multiset.pairwise_sort _ _, ?_⟩
  intro x hx y hy
  exact h x ((Multiset.mem_sort _).1 hx) y ((Multiset.mem_sort _).1 hy)

/-- `k` values that dominate the rest are the `k` largest. -/
theorem coe_largest {T R : Multiset α} (h : Dominates T R) :
    (largest T.card (T + R) : Multiset α) = T := by
  rw [largest, sort_add_of_dominates h, List.take_left' (Multiset.length_sort _)]
  exact Multiset.sort_eq _ _

/-- Every value is at most one of the `k` largest. -/
theorem exists_ge_mem_largest {k : ℕ} (positive : 0 < k) {M : Multiset α} {v : α} (h : v ∈ M) :
    ∃ x ∈ largest k M, v ≤ x := by
  have sorted := Multiset.pairwise_sort M (· ≥ ·)
  have mem : v ∈ M.sort (· ≥ ·) := (Multiset.mem_sort _).2 h
  unfold largest
  cases hs : M.sort (· ≥ ·) with
  | nil => simp [hs] at mem
  | cons x xs =>
    rw [hs] at sorted mem
    refine ⟨x, ?_, ?_⟩
    · obtain ⟨n, rfl⟩ : ∃ n, k = n + 1 := ⟨k - 1, by omega⟩
      simp
    · rcases List.mem_cons.1 mem with rfl | mem
      · exact le_rfl
      · exact (List.pairwise_cons.1 sorted).1 v mem

end Largest
