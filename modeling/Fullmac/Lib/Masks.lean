import Mathlib.Data.List.Basic
import Mathlib.Tactic.Common

/-!
# Loops that set and clear bits

A mask is often filled by a loop over the bit numbers that sets the bit of every number with some
property, and thinned out by one that clears such bits. Bit by bit, either is a formula.
-/

namespace Fullmac.Masks

variable {w : ℕ}

/-- Set the bit of every number below `k` with `p`, in an empty mask. -/
def setWhere (w : ℕ) (p : ℕ → Bool) (k : ℕ) : BitVec w :=
  (List.range k).foldl (fun m i => if p i then m ||| BitVec.twoPow w i else m) 0

/-- Clear the bit of every number below `k` with `p`, where it is set. -/
def clearWhere (p : ℕ → Bool) (k : ℕ) (m : BitVec w) : BitVec w :=
  (List.range k).foldl
    (fun m i => if m.getLsbD i && p i then m &&& ~~~ BitVec.twoPow w i else m) m

/-- One step of setting. -/
theorem getLsbD_setStep (m : BitVec w) (b : Bool) (i j : ℕ) :
    (if b then m ||| BitVec.twoPow w i else m).getLsbD j
      = (m.getLsbD j || (b && decide (j < w) && decide (j = i))) := by
  cases b
  · simp
  · rw [if_pos rfl, BitVec.getLsbD_or, BitVec.getLsbD_twoPow]
    rcases eq_or_ne j i with rfl | hne
    · simp
    · simp [hne, hne.symm]

/-- One step of clearing. -/
theorem getLsbD_clearStep (m : BitVec w) (b : Bool) (i j : ℕ) :
    (if b then m &&& ~~~ BitVec.twoPow w i else m).getLsbD j
      = (m.getLsbD j && !(b && decide (j = i))) := by
  cases b
  · simp
  · rw [if_pos rfl]
    by_cases hw : j < w
    · rcases eq_or_ne j i with rfl | hne
      · simp [hw]
      · simp [hw, hne]
    · simp [BitVec.getLsbD_of_ge _ _ (Nat.not_lt.mp hw)]

theorem getLsbD_setWhere (p : ℕ → Bool) (k j : ℕ) :
    (setWhere w p k).getLsbD j = (decide (j < w) && decide (j < k) && p j) := by
  induction k with
  | zero => simp [setWhere]
  | succ k ih =>
    have hsnoc : setWhere w p (k + 1)
        = if p k then setWhere w p k ||| BitVec.twoPow w k else setWhere w p k := by
      simp [setWhere, List.range_succ]
    rw [hsnoc, getLsbD_setStep, ih]
    simp only [Nat.lt_succ_iff_lt_or_eq]
    rcases eq_or_ne j k with rfl | hne
    · cases p j <;> simp
    · simp [hne]

theorem getLsbD_clearWhere (p : ℕ → Bool) (k j : ℕ) (m : BitVec w) :
    (clearWhere p k m).getLsbD j = (m.getLsbD j && !(decide (j < k) && p j)) := by
  induction k with
  | zero => simp [clearWhere]
  | succ k ih =>
    have hsnoc : clearWhere p (k + 1) m
        = if (clearWhere p k m).getLsbD k && p k then clearWhere p k m &&& ~~~ BitVec.twoPow w k
          else clearWhere p k m := by
      simp [clearWhere, List.range_succ]
    rw [hsnoc, getLsbD_clearStep, ih]
    simp only [Nat.lt_succ_iff_lt_or_eq]
    rcases eq_or_ne j k with rfl | hne
    · cases hm : m.getLsbD j <;> cases hp : p j <;> simp [ih, hm, hp]
    · simp [hne]

/-- The numbers of a list whose bits are set, after the bit of the first of them is cleared. -/
theorem filter_clear {m : BitVec w} {is : List ℕ} (his : is.Nodup) {i : ℕ} {rest : List ℕ}
    (h : is.filter m.getLsbD = i :: rest) :
    is.filter (m &&& ~~~ BitVec.twoPow w i).getLsbD = rest := by
  have hbit : ∀ j, (m &&& ~~~ BitVec.twoPow w i).getLsbD j = (decide (j ≠ i) && m.getLsbD j) := by
    intro j
    have hstep := getLsbD_clearStep m true i j
    rw [if_pos rfl] at hstep
    rw [hstep, Bool.true_and, Bool.and_comm, decide_not]
  have hnodup : (i :: rest).Nodup := h ▸ his.filter _
  calc is.filter (m &&& ~~~ BitVec.twoPow w i).getLsbD
      = (is.filter m.getLsbD).filter fun j => decide (j ≠ i) := by
        rw [List.filter_filter]
        exact List.filter_congr fun j _ => hbit j
    _ = rest := by
        rw [h, List.filter_cons_of_neg (by simp)]
        refine List.filter_eq_self.mpr fun j hj => ?_
        have hne : j ≠ i := fun heq => (List.nodup_cons.mp hnodup).1 (heq ▸ hj)
        simpa using hne

end Fullmac.Masks
