import Mathlib.Data.List.Nodup
import Mathlib.Data.List.Range
import Mathlib.Tactic.Common

/-!
# Lists threaded through memory

A list whose cells lie in memory is given by its head and by the link each cell holds. `Threads next
null h l` says that following the links from `h` visits exactly the cells `l` and ends at `null`.
The links determine the list (`Threads.unique`), so a list that ends visits no cell twice
(`Threads.nodup`), and only the links of its own cells matter (`Threads.congr`).
-/

namespace Fullmac

variable {α : Type*} {next next' : α → α} {null h : α} {l l' : List α}

/-- Following `next` from `h` visits the cells `l`, none of them `null`, and ends at `null`. -/
def Threads (next : α → α) (null : α) : α → List α → Prop
  | h, [] => h = null
  | h, a :: l => h = a ∧ a ≠ null ∧ Threads next null (next a) l

namespace Threads

@[simp] theorem nil_iff : Threads next null h [] ↔ h = null := Iff.rfl

@[simp] theorem cons_iff {a : α} :
    Threads next null h (a :: l) ↔ h = a ∧ a ≠ null ∧ Threads next null (next a) l := Iff.rfl

/-- A list that starts at `null` is empty. -/
theorem eq_nil (hl : Threads next null null l) : l = [] := by
  cases l with
  | nil => rfl
  | cons a l => exact absurd hl.1.symm hl.2.1

/-- A list that starts elsewhere starts with its head. -/
theorem exists_cons (hl : Threads next null h l) (hh : h ≠ null) :
    ∃ l', l = h :: l' ∧ Threads next null (next h) l' := by
  cases l with
  | nil => exact absurd hl hh
  | cons a l =>
    obtain ⟨rfl, -, hl⟩ := hl
    exact ⟨l, rfl, hl⟩

theorem unique (hl : Threads next null h l) (hl' : Threads next null h l') : l = l' := by
  induction l generalizing h l' with
  | nil =>
    rw [nil_iff] at hl
    rw [hl] at hl'
    exact hl'.eq_nil.symm
  | cons a l ih =>
    obtain ⟨rfl, hne, hl⟩ := hl
    obtain ⟨l'', rfl, hl''⟩ := hl'.exists_cons hne
    rw [ih hl hl'']

/-- The list from one of its cells on. -/
theorem of_mem {a : α} (hl : Threads next null h l) (ha : a ∈ l) :
    ∃ l', Threads next null a l' ∧ l'.length ≤ l.length := by
  induction l generalizing h with
  | nil => simp at ha
  | cons b l ih =>
    rcases List.mem_cons.mp ha with rfl | ha
    · exact ⟨a :: l, ⟨rfl, hl.2⟩, Nat.le_refl _⟩
    · obtain ⟨l', hl', hlen⟩ := ih hl.2.2 ha
      exact ⟨l', hl', Nat.le_succ_of_le hlen⟩

theorem nodup (hl : Threads next null h l) : l.Nodup := by
  induction l generalizing h with
  | nil => exact List.nodup_nil
  | cons a l ih =>
    refine List.nodup_cons.mpr ⟨fun ha => ?_, ih hl.2.2⟩
    -- from the second visit on the list would be as long as from the first
    obtain ⟨l', hl', hlen⟩ := hl.2.2.of_mem ha
    have hsame : a :: l = l' := unique ⟨rfl, hl.2⟩ hl'
    rw [← hsame, List.length_cons] at hlen
    omega

theorem null_not_mem (hl : Threads next null h l) : null ∉ l := by
  induction l generalizing h with
  | nil => exact List.not_mem_nil
  | cons a l ih => exact List.not_mem_cons_of_ne_of_not_mem hl.2.1.symm (ih hl.2.2)

theorem congr (hnext : ∀ a ∈ l, next' a = next a) (hl : Threads next null h l) :
    Threads next' null h l := by
  induction l generalizing h with
  | nil => exact hl
  | cons a l ih =>
    obtain ⟨rfl, hne, hl⟩ := hl
    refine ⟨rfl, hne, ?_⟩
    rw [hnext h List.mem_cons_self]
    exact ih (fun b hb => hnext b (List.mem_cons_of_mem h hb)) hl

/-- A new cell in front of the list. -/
theorem push {a : α} (hl : Threads next null h l) (hne : a ≠ null) (ha : a ∉ l)
    (hhead : next' a = h) (hnext : ∀ b, b ≠ a → next' b = next b) :
    Threads next' null a (a :: l) := by
  refine ⟨rfl, hne, ?_⟩
  rw [hhead]
  exact hl.congr fun b hb => hnext b fun hba => ha (hba ▸ hb)

/-- A new cell behind the last. -/
theorem append {z x : α} (hl : Threads next null h (l ++ [z])) (hne : x ≠ null)
    (hlast : next' z = x) (hend : next' x = null) (hnext : ∀ b ∈ l, next' b = next b) :
    Threads next' null h (l ++ [z] ++ [x]) := by
  induction l generalizing h with
  | nil =>
    obtain ⟨rfl, hz, -⟩ := hl
    refine ⟨rfl, hz, ?_⟩
    rw [hlast]
    exact ⟨rfl, hne, hend⟩
  | cons a l ih =>
    obtain ⟨rfl, ha, hl⟩ := hl
    refine ⟨rfl, ha, ?_⟩
    rw [hnext h List.mem_cons_self]
    exact ih hl fun b hb => hnext b (List.mem_cons_of_mem h hb)

/-- Cells each of which links to the following one. -/
theorem map_range' {addr : ℕ → α} {n : ℕ} (hne : ∀ k < n, addr k ≠ null)
    (hnext : ∀ k, k + 1 < n → next (addr k) = addr (k + 1))
    (hlast : ∀ k, k + 1 = n → next (addr k) = null) {i m : ℕ} (him : i + (m + 1) = n) :
    Threads next null (addr i) ((List.range' i (m + 1)).map addr) := by
  induction m generalizing i with
  | zero => exact ⟨rfl, hne i (by omega), hlast i (by omega)⟩
  | succ m ih =>
    refine ⟨rfl, hne i (by omega), ?_⟩
    rw [hnext i (by omega)]
    exact ih (by omega)

end Threads

end Fullmac
