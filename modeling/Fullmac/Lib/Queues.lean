import Mathlib.Algebra.BigOperators.Group.Finset.Piecewise
import Mathlib.Algebra.Order.BigOperators.Group.Finset
import Mathlib.Tactic.Abel
import Mathlib.Tactic.Common

/-!
# Banks of queues

A bank of `n` queues is a function from queue numbers to lists. `total n w q` adds up what a weight
`w` says about each queue: the length, the multiset of the entries, the entries of one kind. When
one queue of the bank changes, the total changes by what that queue's weight changes
(`total_update`).
-/

namespace Fullmac.Queues

variable {α M : Type*} [AddCommMonoid M]

/-- The weights of the first `n` queues, added up. -/
def total (n : ℕ) (w : List α → M) (q : ℕ → List α) : M := ∑ r ∈ Finset.range n, w (q r)

/-- Exchanging one queue exchanges its weight. -/
theorem total_update {n r : ℕ} (hr : r < n) (w : List α → M) (q : ℕ → List α) (l : List α) :
    total n w (Function.update q r l) + w (q r) = total n w q + w l := by
  have hmem : r ∈ Finset.range n := Finset.mem_range.mpr hr
  have hcomp : (fun i => w (Function.update q r l i))
      = Function.update (fun i => w (q i)) r (w l) := by
    funext i
    by_cases hi : i = r
    · subst hi; simp
    · simp [Function.update_of_ne hi]
  rw [total, hcomp, Finset.sum_update_of_mem hmem, total,
    ← Finset.add_sum_erase _ _ hmem, Finset.sdiff_singleton_eq_erase]
  abel

/-- A bank of empty queues weighs nothing. -/
theorem total_eq_zero {n : ℕ} {w : List α → M} {q : ℕ → List α} (hw : w [] = 0)
    (hq : ∀ r < n, q r = []) : total n w q = 0 :=
  Finset.sum_eq_zero fun r hr => by rw [hq r (Finset.mem_range.mp hr), hw]

/-- The bank holds no entry exactly when every queue is empty. -/
theorem total_length_eq_zero {n : ℕ} {q : ℕ → List α} :
    total n List.length q = 0 ↔ ∀ r < n, q r = [] := by
  simp [total, Finset.sum_eq_zero_iff]

/-- Appending an entry to one queue. -/
theorem total_length_push {n r : ℕ} (hr : r < n) (q : ℕ → List α) (a : α) :
    total n List.length (Function.update q r (q r ++ [a])) = total n List.length q + 1 := by
  have h := total_update hr List.length q (q r ++ [a])
  simp only [List.length_append, List.length_singleton] at h
  omega

/-- Taking the first entry of one queue. -/
theorem total_length_pop {n r : ℕ} (hr : r < n) {q : ℕ → List α} {a : α} {l : List α}
    (hq : q r = a :: l) :
    total n List.length (Function.update q r l) + 1 = total n List.length q := by
  have h := total_update hr List.length q l
  rw [hq, List.length_cons] at h
  omega

end Fullmac.Queues
