import Mathlib.Data.List.Basic
import Mathlib.Data.List.Induction
import Mathlib.Order.Lattice
import Mathlib.Tactic.Common

/-!
# The last of the least

A loop that looks for an element with the least key, and takes every element whose key is not
greater than that of the one it has, ends with the last of those with the least key. For the
greatest key the order is turned around.
-/

namespace Fullmac.Extremum

variable {α κ : Type*} [LinearOrder κ] {f : α → κ} {before : α → α → Prop}

/-- An element takes the place of the one so far, unless its key is greater. -/
def lastMinStep (f : α → κ) (best : Option α) (c : α) : Option α :=
  best.elim (some c) fun b => if f c ≤ f b then some c else some b

/-- The loop. -/
def lastMin (f : α → κ) (l : List α) : Option α := l.foldl (lastMinStep f) none

/-- What the loop ends with is an element of the list. -/
theorem lastMin_mem {l : List α} {c : α} (h : lastMin f l = some c) : c ∈ l := by
  induction l using List.reverseRecOn generalizing c with
  | nil => exact absurd h (by simp [lastMin])
  | append_singleton l x ih =>
    rw [lastMin, List.foldl_concat, ← lastMin, lastMinStep] at h
    cases hb : lastMin f l with
    | none => simp_all
    | some b =>
      have hbl := ih hb
      rw [hb, Option.elim_some] at h
      split at h
      · simp_all
      · obtain rfl : b = c := by simpa using h
        exact List.mem_append_left _ hbl

/-- An element with the least key of all, and the last one of them. -/
structure IsLastMin (f : α → κ) (before : α → α → Prop) (p : α → Prop) (c : α) : Prop where
  mem : p c
  le : ∀ d, p d → f c ≤ f d
  last : ∀ d, p d → before c d → f c < f d

/-- There is only one. -/
theorem IsLastMin.unique {p : α → Prop} {c d : α} (hc : IsLastMin f before p c)
    (hd : IsLastMin f before p d) (htri : before c d ∨ c = d ∨ before d c) : c = d := by
  rcases htri with h | h | h
  · exact absurd (hd.le c hc.mem) (not_le_of_gt (hc.last d hd.mem h))
  · exact h
  · exact absurd (hc.le d hd.mem) (not_le_of_gt (hd.last c hc.mem h))

/-- The loop finds it. -/
theorem lastMin_spec {l : List α} (hl : l.Pairwise before)
    (hasymm : ∀ a b, before a b → ¬ before b a) (hne : l ≠ []) :
    ∃ c, lastMin f l = some c ∧ IsLastMin f before (· ∈ l) c := by
  induction l using List.reverseRecOn with
  | nil => exact absurd rfl hne
  | append_singleton l x ih =>
    have hirr : ∀ a, ¬ before a a := fun a h => hasymm a a h h
    obtain ⟨hl, -, hlt⟩ := List.pairwise_append.mp hl
    have hbefore : ∀ d ∈ l, before d x := fun d hd => hlt d hd x (List.mem_singleton_self x)
    have hlast : lastMin f (l ++ [x]) = lastMinStep f (lastMin f l) x := List.foldl_concat ..
    have hmem : ∀ d, d ∈ l ++ [x] ↔ d ∈ l ∨ d = x := by simp
    rcases eq_or_ne l [] with rfl | hne'
    · refine ⟨x, rfl, by simp, fun d hd => ?_, fun d hd hxd => ?_⟩
      · obtain rfl : d = x := by simpa using hd
        exact le_refl _
      · obtain rfl : d = x := by simpa using hd
        exact absurd hxd (hirr d)
    obtain ⟨b, hb, hmin⟩ := ih hl hne'
    rw [hlast, hb]
    simp only [hmem, lastMinStep, Option.elim_some]
    by_cases hx : f x ≤ f b
    · rw [if_pos hx]
      refine ⟨x, rfl, .inr rfl, fun d hd => ?_, fun d hd hxd => ?_⟩
      · rcases hd with hd | rfl
        · exact hx.trans (hmin.le d hd)
        · exact le_refl _
      · rcases hd with hd | rfl
        · exact absurd hxd (hasymm d x (hbefore d hd))
        · exact absurd hxd (hirr d)
    · rw [if_neg hx]
      have hlt : f b < f x := lt_of_not_ge hx
      refine ⟨b, rfl, .inl hmin.mem, fun d hd => ?_, fun d hd hbd => ?_⟩
      · rcases hd with hd | rfl
        · exact hmin.le d hd
        · exact hlt.le
      · rcases hd with hd | rfl
        · exact hmin.last d hd hbd
        · exact hlt

end Fullmac.Extremum
