import Mathlib.Algebra.BigOperators.Fin
import Mathlib.Algebra.BigOperators.Group.Finset.Piecewise
import Mathlib.Algebra.Order.BigOperators.Group.Finset
import Mathlib.Tactic.Abel
import Mathlib.Tactic.Common

/-!
# Sums over finite tables

A table is a function from a finite type of indices. `total w t` adds up what a weight says about
each entry: one for the entries of a kind (`count`), the length of a queue, the multiset of what an
entry owns. A change of one entry changes the total by what it changes in that entry's weight
(`total_update`), and everything a counter has to keep up with is an instance of that.
-/

namespace Fullmac.Table

variable {ι α β M : Type*}

/-- What an exchange of one entry does not change there, it changes nowhere. -/
theorem apply_update_of_eq [DecidableEq ι] {t : ι → α} {i : ι} {a : α} (g : α → β)
    (h : g a = g (t i)) (j : ι) : g (Function.update t i a j) = g (t j) := by
  by_cases hj : j = i
  · subst hj
    rw [Function.update_self, h]
  · rw [Function.update_of_ne hj]

variable [Fintype ι]

section Total

variable [AddCommMonoid M]

/-- The weights of all entries, added up. -/
def total (w : ι → α → M) (t : ι → α) : M := ∑ i, w i (t i)

/-- Exchanging one entry exchanges its weight. -/
theorem total_update [DecidableEq ι] (w : ι → α → M) (t : ι → α) (i : ι) (a : α) :
    total w (Function.update t i a) + w i (t i) = total w t + w i a := by
  have hcomp : (fun j => w j (Function.update t i a j))
      = Function.update (fun j => w j (t j)) i (w i a) := by
    funext j
    by_cases hj : j = i
    · subst hj; simp
    · simp [Function.update_of_ne hj]
  rw [total, hcomp, Finset.sum_update_of_mem (Finset.mem_univ i), total,
    ← Finset.add_sum_erase _ _ (Finset.mem_univ i), Finset.sdiff_singleton_eq_erase]
  abel

/-- An entry with the same weight does not change the total. -/
theorem total_update_of_eq [DecidableEq ι] {w : ι → α → M} {t : ι → α} {i : ι} {a : α}
    (h : w i a = w i (t i)) :
    total w (Function.update t i a) = total w t := by
  refine Finset.sum_congr rfl fun j _ => ?_
  by_cases hj : j = i
  · subst hj
    rw [Function.update_self, h]
  · rw [Function.update_of_ne hj]

/-- Tables whose entries weigh the same have the same total. -/
theorem total_congr {w : ι → α → M} {t t' : ι → α} (h : ∀ i, w i (t i) = w i (t' i)) :
    total w t = total w t' :=
  Finset.sum_congr rfl fun i _ => h i

theorem total_eq_zero {w : ι → α → M} {t : ι → α} (h : ∀ i, w i (t i) = 0) : total w t = 0 :=
  Finset.sum_eq_zero fun i _ => h i

end Total

section Count

/-- How many entries are of a kind. -/
def count (p : α → Bool) (t : ι → α) : ℕ := total (fun _ a => if p a then 1 else 0) t

/-- An entry of the same kind is exchanged for another. -/
theorem count_update_of_eq [DecidableEq ι] {p : α → Bool} {t : ι → α} {i : ι} {a : α}
    (h : p a = p (t i)) : count p (Function.update t i a) = count p t :=
  total_update_of_eq (by rw [h])

/-- An entry becomes one of the kind. -/
theorem count_update_succ [DecidableEq ι] {p : α → Bool} {t : ι → α} {i : ι} {a : α}
    (h : p (t i) = false) (ha : p a = true) :
    count p (Function.update t i a) = count p t + 1 := by
  have hu := total_update (fun _ b => if p b then 1 else 0) t i a
  simp only [h, ha, if_true, Bool.false_eq_true, if_false, add_zero] at hu
  exact hu

/-- An entry ceases to be one of the kind. -/
theorem count_update_pred [DecidableEq ι] {p : α → Bool} {t : ι → α} {i : ι} {a : α}
    (h : p (t i) = true) (ha : p a = false) :
    count p (Function.update t i a) + 1 = count p t := by
  have hu := total_update (fun _ b => if p b then 1 else 0) t i a
  simp only [h, ha, if_true, Bool.false_eq_true, if_false, add_zero] at hu
  exact hu

/-- Two tables whose entries are of a kind at the same places. -/
theorem count_congr {p : α → Bool} {q : β → Bool} {t : ι → α} {u : ι → β}
    (h : ∀ i, p (t i) = q (u i)) : count p t = count q u :=
  Finset.sum_congr rfl fun i _ => by simp only [h i]

theorem count_eq_zero {p : α → Bool} {t : ι → α} (h : ∀ i, p (t i) = false) : count p t = 0 :=
  total_eq_zero fun i => by simp [h i]

theorem count_le (p : α → Bool) (t : ι → α) : count p t ≤ Fintype.card ι := by
  rw [count, total]
  calc ∑ j, (if p (t j) then 1 else 0) ≤ ∑ _j : ι, 1 :=
        Finset.sum_le_sum fun j _ => by split <;> omega
    _ = Fintype.card ι := (Finset.card_eq_sum_ones _).symm

/-- If one entry is not of the kind, not all are. -/
theorem count_lt {p : α → Bool} {t : ι → α} {i : ι} (h : p (t i) = false) :
    count p t < Fintype.card ι := by
  rw [count, total, ← Finset.card_univ, Finset.card_eq_sum_ones]
  refine Finset.sum_lt_sum (fun j _ => by split <;> omega) ⟨i, Finset.mem_univ i, ?_⟩
  rw [h]
  exact Nat.one_pos

/-- An entry of the kind is counted. -/
theorem count_pos {p : α → Bool} {t : ι → α} {i : ι} (h : p (t i) = true) : 0 < count p t := by
  have hle : (if p (t i) then 1 else 0) ≤ count p t :=
    Finset.single_le_sum (f := fun j => if p (t j) then 1 else 0) (fun j _ => Nat.zero_le _)
      (Finset.mem_univ i)
  rw [if_pos h] at hle
  omega

/-- Of two kinds, one contained in the other, there are equally many only if they are the same. -/
theorem count_eq_iff_of_imp {p q : α → Bool} {t : ι → α}
    (h : ∀ i, q (t i) = true → p (t i) = true) :
    count p t = count q t ↔ ∀ i, p (t i) = q (t i) := by
  have hle : ∀ i ∈ Finset.univ, (if q (t i) then 1 else 0) ≤ if p (t i) then 1 else 0 := by
    intro i _
    cases hq : q (t i) with
    | false => exact Nat.zero_le _
    | true => rw [h i hq]
  have hsum := Finset.sum_eq_sum_iff_of_le hle
  rw [count, count, total, total, eq_comm, hsum]
  refine ⟨fun heq i => ?_, fun heq i _ => by rw [heq i]⟩
  have hi := heq i (Finset.mem_univ i)
  cases hp : p (t i) <;> cases hq : q (t i) <;> simp [hp, hq] at hi ⊢

/-- Over a table with numbered entries the count is the length of a list. -/
theorem count_eq_length_filter {n : ℕ} (p : α → Bool) (t : Fin n → α) :
    count p t = ((List.finRange n).filter fun i => p (t i)).length := by
  rw [← List.countP_eq_length_filter, count, total, Fin.sum_univ_def]
  induction List.finRange n with
  | nil => rfl
  | cons i is ih => rw [List.map_cons, List.sum_cons, ih, List.countP_cons, Nat.add_comm]

end Count

end Fullmac.Table
