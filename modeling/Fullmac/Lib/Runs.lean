import Mathlib.Data.List.Basic
import Mathlib.Data.List.Nodup
import Mathlib.Data.List.Perm.Subperm
import Mathlib.Data.Nat.Basic
import Mathlib.Tactic.Common

/-!
# Runs of an ascending list

A list of numbers falls into runs whose members are `d` apart. A run is kept as its first and its
last member, and the list is what its runs stand for (`flatMap_members_runs`). How many runs there
are can be told from the list: as many as it has members without a member `d` below
(`length_runs`).
-/

namespace Fullmac.Runs

variable {d s e : ℕ} {cs : List ℕ}

/-- The runs of the rest of a list, the first of which goes from `s` to `e` so far. -/
def runsFrom (d : ℕ) : ℕ → ℕ → List ℕ → List (ℕ × ℕ)
  | s, e, [] => [(s, e)]
  | s, e, c :: cs => if e + d = c then runsFrom d s c cs else (s, e) :: runsFrom d c c cs

/-- The runs of a list. -/
def runs (d : ℕ) : List ℕ → List (ℕ × ℕ)
  | [] => []
  | c :: cs => runsFrom d c c cs

/-- How many members a run has. -/
def size (d : ℕ) (r : ℕ × ℕ) : ℕ := (r.2 - r.1) / d + 1

/-- The members of a run. -/
def members (d : ℕ) (r : ℕ × ℕ) : List ℕ := (List.range (size d r)).map fun k => r.1 + d * k

/-- The members with which a run begins. -/
def starts (d : ℕ) (cs : List ℕ) : List ℕ := cs.filter fun c => ∀ x ∈ cs, x + d ≠ c

theorem runsFrom_ne_nil (d s e : ℕ) (cs : List ℕ) : runsFrom d s e cs ≠ [] := by
  induction cs generalizing s e with
  | nil => exact List.cons_ne_nil _ _
  | cons c cs ih =>
    rw [runsFrom]
    split
    · exact ih s c
    · exact List.cons_ne_nil _ _

theorem runs_ne_nil (d : ℕ) (hcs : cs ≠ []) : runs d cs ≠ [] := by
  cases cs with
  | nil => exact absurd rfl hcs
  | cons c cs => exact runsFrom_ne_nil d c c cs

theorem members_one (hd : 0 < d) (k : ℕ) :
    members d (s, s + d * k) = (List.range (k + 1)).map fun j => s + d * j := by
  rw [members, size, Nat.add_sub_cancel_left, Nat.mul_div_cancel_left _ hd]

/-- A member `d` above the last belongs to the run. -/
theorem members_extend (hd : 0 < d) (k : ℕ) :
    members d (s, s + d * k + d) = members d (s, s + d * k) ++ [s + d * k + d] := by
  rw [show s + d * k + d = s + d * (k + 1) by rw [Nat.mul_succ, Nat.add_assoc], members_one hd,
    members_one hd, List.range_succ, List.map_append, List.map_singleton]

theorem flatMap_members_runsFrom (hd : 0 < d) (k : ℕ) (cs : List ℕ) :
    (runsFrom d s (s + d * k) cs).flatMap (members d) = members d (s, s + d * k) ++ cs := by
  induction cs generalizing s k with
  | nil => rw [runsFrom, List.flatMap_singleton, List.append_nil]
  | cons c cs ih =>
    rw [runsFrom]
    split
    next hc =>
      subst hc
      rw [show s + d * k + d = s + d * (k + 1) by rw [Nat.mul_succ, Nat.add_assoc], ih,
        Nat.mul_succ, ← Nat.add_assoc, members_extend hd, List.append_assoc, List.singleton_append]
    next =>
      have hrest := ih (s := c) 0
      have hself : members d (c, c) = [c] := by simp [members, size]
      rw [Nat.mul_zero, Nat.add_zero, hself] at hrest
      rw [List.flatMap_cons, hrest, List.singleton_append]

/-- The runs of a list stand for the list. -/
theorem flatMap_members_runs (hd : 0 < d) (cs : List ℕ) :
    (runs d cs).flatMap (members d) = cs := by
  cases cs with
  | nil => rfl
  | cons c cs =>
    have hrest := flatMap_members_runsFrom (s := c) hd 0 cs
    have hself : members d (c, c) = [c] := by simp [members, size]
    rwa [Nat.mul_zero, Nat.add_zero, hself] at hrest

/-- The ends of a run are members of the list. -/
theorem mem_runsFrom {r : ℕ × ℕ} (hr : r ∈ runsFrom d s e cs) :
    (r.1 = s ∨ r.1 ∈ cs) ∧ (r.2 = e ∨ r.2 ∈ cs) := by
  induction cs generalizing s e with
  | nil =>
    rw [runsFrom, List.mem_singleton] at hr
    exact ⟨.inl (by rw [hr]), .inl (by rw [hr])⟩
  | cons c cs ih =>
    rw [runsFrom] at hr
    split at hr
    · have hmem := ih hr
      exact ⟨hmem.1.imp_right (List.mem_cons_of_mem c), .inr (List.mem_cons.mpr hmem.2)⟩
    · rcases List.mem_cons.mp hr with rfl | hr
      · exact ⟨.inl rfl, .inl rfl⟩
      · have hmem := ih hr
        exact ⟨.inr (List.mem_cons.mpr hmem.1), .inr (List.mem_cons.mpr hmem.2)⟩

theorem mem_runs {r : ℕ × ℕ} (hr : r ∈ runs d cs) : r.1 ∈ cs ∧ r.2 ∈ cs := by
  cases cs with
  | nil => cases hr
  | cons c cs =>
    have hmem := mem_runsFrom hr
    exact ⟨List.mem_cons.mpr hmem.1, List.mem_cons.mpr hmem.2⟩

/-- A run goes upwards. -/
theorem le_of_mem_runsFrom {r : ℕ × ℕ} (hse : s ≤ e) (hr : r ∈ runsFrom d s e cs) : r.1 ≤ r.2 := by
  induction cs generalizing s e with
  | nil =>
    rw [runsFrom, List.mem_singleton] at hr
    rwa [hr]
  | cons c cs ih =>
    rw [runsFrom] at hr
    split at hr
    next hc => exact ih (by omega) hr
    next =>
      rcases List.mem_cons.mp hr with rfl | hr
      · exact hse
      · exact ih (Nat.le_refl c) hr

theorem le_of_mem_runs {r : ℕ × ℕ} (hr : r ∈ runs d cs) : r.1 ≤ r.2 := by
  cases cs with
  | nil => cases hr
  | cons c cs => exact le_of_mem_runsFrom (Nat.le_refl c) hr

/-- Where the members of a list are at least `d` apart, a run ends before each member that has no
member `d` below it. -/
theorem length_runsFrom (hd : 0 < d) (h : (e :: cs).Pairwise fun a b => a + d ≤ b) :
    (runsFrom d s e cs).length = 1 + cs.countP fun c => ∀ x ∈ e :: cs, x + d ≠ c := by
  induction cs generalizing s e with
  | nil => rfl
  | cons c cs ih =>
    obtain ⟨hec, hcs⟩ := List.pairwise_cons.mp h
    have hgap := hec c List.mem_cons_self
    have hlow := (List.pairwise_cons.mp hcs).1
    -- what lies below `e` plays no part further up
    have hrest : cs.countP (fun y => ∀ x ∈ e :: c :: cs, x + d ≠ y) =
        cs.countP (fun y => ∀ x ∈ c :: cs, x + d ≠ y) := by
      refine List.countP_congr fun y hy => ?_
      have hey : e + d ≠ y := by
        have := hlow y hy
        omega
      simp only [decide_eq_true_iff, List.forall_mem_cons (a := e)]
      exact and_iff_right hey
    have hfirst : (∀ x ∈ e :: c :: cs, x + d ≠ c) ↔ e + d ≠ c := by
      refine ⟨fun hall => hall e List.mem_cons_self, fun hne x hx => ?_⟩
      rcases List.mem_cons.mp hx with rfl | hx
      · exact hne
      · rcases List.mem_cons.mp hx with rfl | hx
        · omega
        · have := hlow x hx
          omega
    rw [runsFrom, List.countP_cons, hrest]
    simp only [decide_eq_true_iff, hfirst]
    split
    next heq => rw [ih hcs, if_neg fun hne : e + d ≠ c => hne heq, Nat.add_zero]
    next => rw [List.length_cons, ih hcs, Nat.add_assoc]

theorem length_runs (hd : 0 < d) (h : cs.Pairwise fun a b => a + d ≤ b) :
    (runs d cs).length = (starts d cs).length := by
  cases cs with
  | nil => rfl
  | cons c cs =>
    have hlow := (List.pairwise_cons.mp h).1
    have hfirst : ∀ x ∈ c :: cs, x + d ≠ c := fun x hx => by
      rcases List.mem_cons.mp hx with rfl | hx
      · omega
      · have := hlow x hx
        omega
    rw [runs, length_runsFrom hd h, starts, ← List.countP_eq_length_filter, List.countP_cons,
      if_pos (decide_eq_true hfirst), Nat.add_comm]

/-- Below each run lies a place that is not taken. -/
theorem two_mul_length_starts_le {n : ℕ} (hcs : cs.Nodup) (hlow : ∀ c ∈ cs, d ≤ c)
    (hhigh : ∀ c ∈ cs, c ≤ n) : 2 * (starts d cs).length ≤ n + 1 := by
  have hmem : ∀ c ∈ starts d cs, c ∈ cs := fun c hc => (List.mem_filter.mp hc).1
  have hnodup : (starts d cs).Nodup := hcs.filter _
  have hbelow : ((starts d cs).map fun c => c - d).Nodup := by
    refine List.Nodup.map_on (fun a ha c hc hac => ?_) hnodup
    have ha' := hlow a (hmem a ha)
    have hc' := hlow c (hmem c hc)
    omega
  have hdisjoint : (starts d cs).Disjoint ((starts d cs).map fun c => c - d) := by
    intro x hx hx'
    obtain ⟨c, hc, rfl⟩ := List.mem_map.mp hx'
    have hgap := of_decide_eq_true (List.mem_filter.mp hc).2 (c - d) (hmem _ hx)
    have hdc := hlow c (hmem c hc)
    omega
  have hsub : starts d cs ++ ((starts d cs).map fun c => c - d) ⊆ List.range (n + 1) := by
    intro x hx
    rw [List.mem_range]
    rcases List.mem_append.mp hx with hx | hx
    · have hxn := hhigh x (hmem x hx)
      omega
    · obtain ⟨c, hc, rfl⟩ := List.mem_map.mp hx
      have hcn := hhigh c (hmem c hc)
      omega
  have hle := (List.nodup_append'.mpr ⟨hnodup, hbelow, hdisjoint⟩ |>.subperm hsub).length_le
  rw [List.length_append, List.length_map, List.length_range] at hle
  omega

end Fullmac.Runs
