import Mathlib.Data.List.Nodup
import Mathlib.Data.List.Range
import Mathlib.Data.List.Perm.Basic
import Mathlib.Logic.Function.Basic
import Mathlib.Tactic.Common

/-!
# Arrays of optional slots

An array of `n` slots, each empty or holding one thing, is a function `ℕ → Option α` read below `n`.
`contents n buf` lists what it holds in slot order. Filling an empty slot adds one thing to the
contents, emptying a slot removes one, and no other slot is touched.
-/

namespace Fullmac.Slots

variable {α : Type*}

/-- What the first `n` slots hold, in slot order. -/
def contents (n : ℕ) (buf : ℕ → Option α) : List α := (List.range n).filterMap buf

theorem contents_succ (n : ℕ) (buf : ℕ → Option α) :
    contents (n + 1) buf = contents n buf ++ (buf n).toList := by
  simp only [contents, List.range_succ, List.filterMap_append]
  cases h : buf n <;> simp [h]

/-- Slots that agree below `n` have the same contents. -/
theorem contents_congr {n : ℕ} {buf buf' : ℕ → Option α} (h : ∀ i < n, buf i = buf' i) :
    contents n buf = contents n buf' :=
  List.filterMap_congr fun i hi => h i (List.mem_range.mp hi)

theorem contents_eq_nil {n : ℕ} {buf : ℕ → Option α} :
    contents n buf = [] ↔ ∀ i < n, buf i = none := by
  simp [contents, List.filterMap_eq_nil_iff]

/-- Filling an empty slot adds its thing to the contents. -/
theorem contents_fill {n i : ℕ} {buf : ℕ → Option α} (hi : i < n) (h : buf i = none) (x : α) :
    (contents n (Function.update buf i (some x))).Perm (x :: contents n buf) := by
  induction n with
  | zero => omega
  | succ n ih =>
    rw [contents_succ, contents_succ]
    rcases Nat.lt_or_ge i n with hlt | hge
    · have hne : n ≠ i := by omega
      rw [Function.update_of_ne hne]
      exact (ih hlt).append_right _
    · have hin : i = n := by omega
      subst hin
      have hsame : contents i (Function.update buf i (some x)) = contents i buf :=
        contents_congr fun j hj => Function.update_of_ne (by omega) _ _
      rw [hsame, h, Function.update_self]
      simp only [Option.toList_some, Option.toList_none, List.append_nil]
      exact List.perm_append_singleton x (contents i buf)

/-- Emptying a full slot removes its thing from the contents. -/
theorem contents_take {n i : ℕ} {buf : ℕ → Option α} (hi : i < n) {x : α} (h : buf i = some x) :
    (contents n buf).Perm (x :: contents n (Function.update buf i none)) := by
  have hempty : Function.update buf i none i = none := Function.update_self ..
  have hfill := contents_fill hi hempty x
  rwa [Function.update_idem, ← h, Function.update_eq_self] at hfill

end Fullmac.Slots
