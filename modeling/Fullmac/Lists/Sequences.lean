import Mathlib.Data.List.Basic
import Mathlib.Logic.Function.Basic
import Mathlib.Tactic.Common

/-!
# Sequences under heads

What the driver's lists are for, without the links: each head that is in use stands for a sequence
of elements. The lists implement appending, inserting behind an element, deleting an element and
taking the first one.

A memory represents such sequences if each list is in order by itself and no two lists share a cell
(`Family`). Then an operation on one list that touches only cells of that list and new ones leaves
the other lists in order (`Family.modify`).
-/

namespace Fullmac.Lists

variable {α β : Type*}

/-- The heads in use, each with its sequence. -/
abbrev Seqs (β α : Type*) := β → Option (List α)

/-- Another sequence under one head. -/
def Seqs.modify [DecidableEq β] (s : Seqs β α) (h : β) (f : List α → List α) : Seqs β α :=
  Function.update s h ((s h).map f)

theorem Seqs.modify_eq [DecidableEq β] {s : Seqs β α} {h : β} {xs : List α} (hh : s h = some xs)
    (f : List α → List α) : s.modify h f = Function.update s h (some (f xs)) := by
  rw [Seqs.modify, hh, Option.map_some]

/-- `x` behind the element `p`. -/
def insertAfter [DecidableEq α] (p x : α) : List α → List α
  | [] => []
  | a :: l => if a = p then a :: x :: l else a :: insertAfter p x l

theorem insertAfter_append [DecidableEq α] {p x : α} {l₁ l₂ : List α} (hp : p ∉ l₁) :
    insertAfter p x (l₁ ++ p :: l₂) = l₁ ++ p :: x :: l₂ := by
  induction l₁ with
  | nil => rw [List.nil_append, insertAfter, if_pos rfl, List.nil_append]
  | cons a l₁ ih =>
    rw [List.mem_cons, not_or] at hp
    rw [List.cons_append, insertAfter, if_neg (Ne.symm hp.1), ih hp.2, List.cons_append]

theorem mem_insertAfter [DecidableEq α] {a p x : α} {l : List α} (ha : a ∈ insertAfter p x l) :
    a = x ∨ a ∈ l := by
  induction l with
  | nil => exact .inr ha
  | cons b l ih =>
    rw [insertAfter] at ha
    split at ha
    · simp only [List.mem_cons] at ha ⊢
      tauto
    · simp only [List.mem_cons] at ha ⊢
      rcases ha with ha | ha
      · exact .inr (.inl ha)
      · exact (ih ha).imp_right .inr

/-- `x` behind the element `p`, or in front of the sequence where `p` is its head. -/
def insertBehind [DecidableEq α] (h p x : α) (xs : List α) : List α :=
  if p = h then x :: xs else insertAfter p x xs

theorem cons_insertBehind [DecidableEq α] (h p x : α) (xs : List α) :
    h :: insertBehind h p x xs = insertAfter p x (h :: xs) := by
  rw [insertBehind, insertAfter]
  by_cases hp : p = h
  · rw [if_pos hp, if_pos hp.symm]
  · rw [if_neg hp, if_neg (Ne.symm hp)]

/-! ## Lists side by side in one memory -/

variable {P P' : β → List α → Prop} {cells : β → List α → List α} {s : Seqs β α} {h : β}
  {xs xs' : List α} {null : α}

/-- Each list is in order, as `P` says, and no cell is part of two lists. -/
structure Family (P : β → List α → Prop) (cells : β → List α → List α) (s : Seqs β α) : Prop where
  holds : ∀ h xs, s h = some xs → P h xs
  apart : ∀ h xs h' xs' a, s h = some xs → s h' = some xs' → a ∈ cells h xs → a ∈ cells h' xs' →
    h = h'

/-- `x` is an address that no list uses. -/
structure Fresh (null : α) (cells : β → List α → List α) (s : Seqs β α) (x : α) : Prop where
  ne_null : x ≠ null
  not_mem : ∀ h xs, s h = some xs → x ∉ cells h xs

namespace Family

theorem none : Family P cells (fun _ => none) where
  holds _ _ hh := nomatch hh
  apart _ _ _ _ _ hh := nomatch hh

/-- What is no part of a list may change. -/
theorem congr (hs : Family P cells s) (hP : ∀ h xs, s h = some xs → P h xs → P' h xs) :
    Family P' cells s where
  holds h xs hh := hP h xs hh (hs.holds h xs hh)
  apart := hs.apart

variable [DecidableEq β]

/-- One list changes, the others stay in order. -/
theorem update (hs : Family P cells s) (hh : P' h xs')
    (hapart : ∀ h' ys a, h' ≠ h → s h' = some ys → a ∈ cells h' ys → a ∉ cells h xs')
    (hframe : ∀ h' ys, h' ≠ h → s h' = some ys → P h' ys → P' h' ys) :
    Family P' cells (Function.update s h (some xs')) := by
  refine ⟨fun h₁ ys h₁s => ?_, fun h₁ ys h₂ zs a h₁s h₂s ha ha' => ?_⟩
  · by_cases h₁h : h₁ = h
    · subst h₁h
      rw [Function.update_self, Option.some_inj] at h₁s
      exact h₁s ▸ hh
    · rw [Function.update_of_ne h₁h] at h₁s
      exact hframe h₁ ys h₁h h₁s (hs.holds h₁ ys h₁s)
  · by_cases h₁h : h₁ = h <;> by_cases h₂h : h₂ = h
    · rw [h₁h, h₂h]
    · subst h₁h
      rw [Function.update_self, Option.some_inj] at h₁s
      rw [Function.update_of_ne h₂h] at h₂s
      exact absurd (h₁s ▸ ha) (hapart h₂ zs a h₂h h₂s ha')
    · subst h₂h
      rw [Function.update_self, Option.some_inj] at h₂s
      rw [Function.update_of_ne h₁h] at h₁s
      exact absurd (h₂s ▸ ha') (hapart h₁ ys a h₁h h₁s ha)
    · rw [Function.update_of_ne h₁h] at h₁s
      rw [Function.update_of_ne h₂h] at h₂s
      exact hs.apart h₁ ys h₂ zs a h₁s h₂s ha ha'

/-- One list changes, by its own cells and new ones. -/
theorem modify (hs : Family P cells s) (null : α) (hh : s h = some xs) (hP : P' h xs')
    (hcells : ∀ a ∈ cells h xs', a ∈ cells h xs ∨ Fresh null cells s a)
    (hframe : ∀ h' ys, h' ≠ h → (∀ a ∈ cells h' ys, a ∉ cells h xs ∧ ¬ Fresh null cells s a) →
      P h' ys → P' h' ys) :
    Family P' cells (Function.update s h (some xs')) := by
  have hother : ∀ h' ys, h' ≠ h → s h' = some ys → ∀ a ∈ cells h' ys,
      a ∉ cells h xs ∧ ¬ Fresh null cells s a := fun h' ys hne hh' a ha =>
    ⟨fun hmem => hne (hs.apart h' ys h xs a hh' hh ha hmem), fun hf => hf.not_mem h' ys hh' ha⟩
  refine hs.update hP (fun h' ys a hne hh' ha hmem => ?_)
    fun h' ys hne hh' => hframe h' ys hne (hother h' ys hne hh')
  obtain ⟨hxs, hfresh⟩ := hother h' ys hne hh' a ha
  exact (hcells a hmem).elim hxs hfresh

end Family

end Fullmac.Lists
