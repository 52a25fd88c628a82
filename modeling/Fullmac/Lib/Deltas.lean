import Mathlib.Algebra.BigOperators.Group.List.Basic
import Mathlib.Algebra.GroupWithZero.Nat
import Mathlib.Tactic.Common

/-!
# Delta lists

A queue of deadlines kept as a list in which each entry holds only the time from the entry before
it. `stamps` is the meaning of such a list: its entries with their absolute times, the running sums
of the deltas. `advance` is what is left of a stamped list after some time has passed.

Changing one delta moves every later stamp, so two lists with the same entries have the same stamps
exactly when they have the same deltas (`stamps_inj`), and shortening deltas lowers the sum of the
stamps unless nothing was shortened (`eq_of_total_stamps_le`).
-/

namespace Fullmac.Deltas

variable {α β : Type*}

/-- The entries of a delta list with their absolute times, the list starting at `b`. `f` is what is
looked at of an entry and `d` is its delta. -/
def stamps (f : α → β) (d : α → ℕ) (b : ℕ) : List α → List (β × ℕ)
  | [] => []
  | a :: l => (f a, b + d a) :: stamps f d (b + d a) l

/-- The sum of all absolute times. -/
def total (l : List (β × ℕ)) : ℕ := (l.map Prod.snd).sum

/-- The entries of a stamped list whose time has come when `x` has passed. -/
def elapsed (x : ℕ) (l : List (β × ℕ)) : List β := (l.filter (fun e => e.2 ≤ x)).map Prod.fst

/-- What is left of a stamped list when `x` has passed. -/
def advance (x : ℕ) (l : List (β × ℕ)) : List (β × ℕ) :=
  (l.filter (fun e => x < e.2)).map (fun e => (e.1, e.2 - x))

section Stamps

variable {f : α → β} {d : α → ℕ} {b : ℕ}

@[simp] theorem stamps_nil : stamps f d b [] = [] := rfl

@[simp] theorem stamps_cons (a : α) (l : List α) :
    stamps f d b (a :: l) = (f a, b + d a) :: stamps f d (b + d a) l := rfl

@[simp] theorem length_stamps (l : List α) : (stamps f d b l).length = l.length := by
  induction l generalizing b with
  | nil => rfl
  | cons a l ih => simp [ih]

/-- The absolute times of a list start where it starts. -/
theorem le_of_mem_stamps {l : List α} {e : β × ℕ} (h : e ∈ stamps f d b l) : b ≤ e.2 := by
  induction l generalizing b with
  | nil => simp at h
  | cons a l ih =>
    rcases List.mem_cons.mp h with rfl | h
    · exact Nat.le_add_right b (d a)
    · exact Nat.le_trans (Nat.le_add_right b (d a)) (ih h)

/-- Every stamp is that of an entry. -/
theorem exists_of_mem_stamps {l : List α} {e : β × ℕ} (h : e ∈ stamps f d b l) :
    ∃ a ∈ l, f a = e.1 := by
  induction l generalizing b with
  | nil => simp at h
  | cons a l ih =>
    rcases List.mem_cons.mp h with rfl | h
    · exact ⟨a, List.mem_cons_self, rfl⟩
    · obtain ⟨a', ha', hf⟩ := ih h
      exact ⟨a', List.mem_cons_of_mem a ha', hf⟩

/-- Entries with no delta before a list do not delay it. -/
theorem stamps_append_of_zero {l : List α} (h : ∀ a ∈ l, d a = 0) (l' : List α) :
    stamps f d b (l ++ l') = l.map (fun a => (f a, b)) ++ stamps f d b l' := by
  induction l with
  | nil => rfl
  | cons a l ih =>
    have ha := h a List.mem_cons_self
    have hl := ih fun a' ha' => h a' (List.mem_cons_of_mem a ha')
    rw [List.cons_append, stamps_cons, ha, Nat.add_zero, hl]
    rfl

/-- The stamps of a list whose entries were changed. -/
theorem stamps_map {γ : Type*} (g : γ → α) (l : List γ) :
    stamps f d b (l.map g) = stamps (fun c => f (g c)) (fun c => d (g c)) b l := by
  induction l generalizing b with
  | nil => rfl
  | cons c l ih => simp [ih]

/-- Only the deltas of the entries of the list matter. -/
theorem stamps_congr {d' : α → ℕ} {l : List α} (h : ∀ a ∈ l, d' a = d a) :
    stamps f d' b l = stamps f d b l := by
  induction l generalizing b with
  | nil => rfl
  | cons a l ih =>
    rw [stamps_cons, stamps_cons, h a List.mem_cons_self,
      ih fun a' ha' => h a' (List.mem_cons_of_mem a ha')]

/-- Entries and stamps determine the deltas. -/
theorem stamps_inj {l l' : List α} (h : stamps f d b l = stamps f d b l') :
    l.map (fun a => (f a, d a)) = l'.map (fun a => (f a, d a)) := by
  induction l generalizing b l' with
  | nil =>
    cases l' with
    | nil => rfl
    | cons a' l' => simp at h
  | cons a l ih =>
    cases l' with
    | nil => simp at h
    | cons a' l' =>
      simp only [stamps_cons, List.cons.injEq, Prod.mk.injEq] at h
      obtain ⟨⟨hf, hd⟩, htail⟩ := h
      have hda : d a = d a' := by omega
      rw [hda] at htail
      simp [hf, hda, ih htail]

end Stamps

section Total

variable {f : α → β} {d d' : α → ℕ}

@[simp] theorem total_nil : total ([] : List (β × ℕ)) = 0 := rfl

@[simp] theorem total_cons (e : β × ℕ) (l : List (β × ℕ)) : total (e :: l) = e.2 + total l := by
  simp [total]

theorem total_append (l l' : List (β × ℕ)) : total (l ++ l') = total l + total l' := by
  simp [total]

/-- Smaller deltas and an earlier start make no absolute time larger. -/
theorem total_stamps_le (f : α → β) {b b' : ℕ} {l : List α} (hb : b' ≤ b)
    (hd : ∀ a ∈ l, d' a ≤ d a) : total (stamps f d' b' l) ≤ total (stamps f d b l) := by
  induction l generalizing b b' with
  | nil => exact Nat.le_refl 0
  | cons a l ih =>
    have ha := hd a List.mem_cons_self
    have hstart : b' + d' a ≤ b + d a := by omega
    have hl := ih hstart fun a' ha' => hd a' (List.mem_cons_of_mem a ha')
    simp only [stamps_cons, total_cons]
    omega

/-- Shortening deltas lowers the sum of the absolute times, unless nothing was shortened. -/
theorem eq_of_total_stamps_le {b : ℕ} {l : List α} (hd : ∀ a ∈ l, d' a ≤ d a)
    (h : total (stamps f d b l) ≤ total (stamps f d' b l)) : ∀ a ∈ l, d' a = d a := by
  induction l generalizing b with
  | nil => simp
  | cons a l ih =>
    have ha := hd a List.mem_cons_self
    have hl : ∀ a' ∈ l, d' a' ≤ d a' := fun a' ha' => hd a' (List.mem_cons_of_mem a ha')
    have hstart : b + d' a ≤ b + d a := by omega
    have htail := total_stamps_le f hstart hl
    simp only [stamps_cons, total_cons] at h
    have heq : d' a = d a := by omega
    rw [heq] at h
    exact List.forall_mem_cons.mpr ⟨heq, ih (b := b + d a) hl (by omega)⟩

end Total

section Advance

/-- Time passes in pieces. -/
theorem advance_advance (y z : ℕ) (l : List (β × ℕ)) :
    advance z (advance y l) = advance (y + z) l := by
  induction l with
  | nil => rfl
  | cons e l ih =>
    simp only [advance] at ih ⊢
    by_cases hy : y < e.2
    · by_cases hz : y + z < e.2
      · have hz' : z < e.2 - y := by omega
        have hsub : e.2 - y - z = e.2 - (y + z) := by omega
        simp [hy, hz, hz', hsub, ih]
      · have hz' : ¬ z < e.2 - y := by omega
        simp [hy, hz, hz', ih]
    · have hz : ¬ y + z < e.2 := by omega
      simp [hy, hz, ih]

variable {f : α → β} {d : α → ℕ} {b x : ℕ}

/-- Before a list starts all of it is left. -/
theorem advance_stamps (hb : x < b) (l : List α) :
    advance x (stamps f d b l) = stamps f d (b - x) l := by
  induction l generalizing b with
  | nil => rfl
  | cons a l ih =>
    have htail := ih (b := b + d a) (by omega)
    have hhead : x < b + d a := by omega
    have hsub : b + d a - x = b - x + d a := by omega
    simp only [advance, hsub] at htail
    simp [advance, hhead, hsub, htail]

/-- Before its first entry all of a list is left. -/
theorem advance_stamps_cons {a : α} (ha : x < b + d a) (l : List α) :
    advance x (stamps f d b (a :: l)) = (f a, b + d a - x) :: stamps f d (b + d a - x) l := by
  have htail := advance_stamps (f := f) (d := d) ha l
  simp only [advance] at htail
  simp [advance, ha, htail]

theorem elapsed_stamps (hb : x < b) (l : List α) : elapsed x (stamps f d b l) = [] := by
  have hnone : ∀ e ∈ stamps f d b l, ¬ e.2 ≤ x := fun e he => by
    have := le_of_mem_stamps he
    omega
  simpa [elapsed, List.filter_eq_nil_iff] using hnone

theorem elapsed_stamps_cons {a : α} (ha : x < b + d a) (l : List α) :
    elapsed x (stamps f d b (a :: l)) = [] := by
  have htail := elapsed_stamps (f := f) (d := d) ha l
  have hhead : ¬ b + d a ≤ x := Nat.not_le.mpr ha
  simp only [elapsed] at htail
  simp [elapsed, hhead, htail]

/-- Entries with no delta leave with the time the list starts at. -/
theorem advance_append_of_zero (hb : b ≤ x) {l : List α} (h : ∀ a ∈ l, d a = 0) (l' : List α) :
    advance x (stamps f d b (l ++ l')) = advance x (stamps f d b l') := by
  have hnone : (l.map (fun a => (f a, b))).filter (fun e => x < e.2) = [] := by
    simp [List.filter_map, Function.comp_def, hb]
  rw [stamps_append_of_zero h, advance, List.filter_append, hnone, List.nil_append]
  rfl

theorem elapsed_append_of_zero (hb : b ≤ x) {l : List α} (h : ∀ a ∈ l, d a = 0) (l' : List α) :
    elapsed x (stamps f d b (l ++ l')) = l.map f ++ elapsed x (stamps f d b l') := by
  have hall : (l.map (fun a => (f a, b))).filter (fun e => e.2 ≤ x)
      = l.map (fun a => (f a, b)) := by
    simp [List.filter_map, Function.comp_def, hb]
  rw [stamps_append_of_zero h, elapsed, List.filter_append, hall, List.map_append, List.map_map]
  rfl

end Advance

/-- A statement about all ways to split a list at an element, at its head and in its tail. -/
theorem forall_split_cons {Q : List α → α → List α → Prop} {a : α} {l : List α} :
    (∀ pre t post, a :: l = pre ++ t :: post → Q pre t post) ↔
      Q [] a l ∧ ∀ pre t post, l = pre ++ t :: post → Q (a :: pre) t post := by
  constructor
  · intro h
    exact ⟨h [] a l rfl, fun pre t post hl => h (a :: pre) t post (by rw [hl]; rfl)⟩
  · rintro ⟨hhead, htail⟩ pre t post hl
    cases pre with
    | nil =>
      obtain ⟨rfl, rfl⟩ := List.cons.inj hl
      exact hhead
    | cons c pre =>
      obtain ⟨rfl, hrest⟩ := List.cons.inj hl
      exact htail pre t post hrest

end Fullmac.Deltas
