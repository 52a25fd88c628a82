import Mathlib.Data.Nat.ModEq
import Mathlib.Data.List.Basic
import Mathlib.Data.List.Pairwise
import Mathlib.Tactic.Common

/-!
# Sliding windows over a ring of slots

Numbers that count modulo `M` are kept in a ring of `b` slots, number `p` in slot `p % b`. A window
of `b` consecutive numbers meets every slot exactly once as long as `b` divides `M` (`slot_shift`,
`slot_inj`). When it does not, the last number before the wrap shares its slot with a number less
than `b - 1` places behind it (`last_slot_lt`).

Walking the ring from slot `r` gives the slots from `r` on, then those before it
(`filterMap_ring_from`), and walking it from slot 0 gives the two parts the other way round. Where
the first walk is in order, the second is only if one part has nothing to give
(`pairwise_swap_iff`).

The last part is the order in which a moving head gives things out. A `Move` advances the head by
`advance` and may give out one thing found `offset` places behind the head. If no offset reaches the
advance of its own move, then the absolute places strictly increase along the whole list.
-/

namespace Fullmac.RingWindow

/-- The slot of the number `k` places behind `p`. -/
theorem slot_shift {M b : ℕ} (h : b ∣ M) (p k : ℕ) : (p + k) % M % b = (p % b + k) % b := by
  rw [Nat.mod_mod_of_dvd _ h, Nat.mod_add_mod]

/-- Two numbers of one window that share a slot are the same. -/
theorem slot_inj {b r k k' : ℕ} (hk : k < b) (hk' : k' < b) (h : (r + k) % b = (r + k') % b) :
    k = k' := by
  have hmod : k ≡ k' [MOD b] := Nat.ModEq.add_left_cancel' r h
  exact hmod.eq_of_lt_of_lt hk hk'

/-- If `b` does not divide `M`, the last number before the wrap is not in the last slot. -/
theorem last_slot_lt {M b : ℕ} (hb : 0 < b) (hM : 0 < M) (h : ¬ b ∣ M) : (M - 1) % b + 1 < b := by
  have hlt : (M - 1) % b < b := Nat.mod_lt _ hb
  rcases Nat.lt_or_ge ((M - 1) % b + 1) b with hlt' | hge
  · exact hlt'
  · -- a last slot of `b - 1` would make `M` a multiple of `b`
    have hlast : (M - 1) % b + 1 = b := by omega
    have hdvd : b ∣ M := by
      have hdiv := Nat.div_add_mod (M - 1) b
      refine ⟨(M - 1) / b + 1, ?_⟩
      rw [Nat.mul_add, Nat.mul_one]
      omega
    exact absurd hdvd h

/-- How many steps it takes from slot `j` round the ring to slot `i`. -/
def stepsTo (b i j : ℕ) : ℕ := if j ≤ i then i - j else b - j + i

theorem stepsTo_lt {b i j : ℕ} (hi : i < b) (hj : j < b) : stepsTo b i j < b := by
  unfold stepsTo
  split <;> omega

/-- A step round the ring is one step less to go. -/
theorem stepsTo_succ {b i j : ℕ} (hi : i < b) (hj : j < b) (hne : j ≠ i) :
    stepsTo b i ((j + 1) % b) + 1 = stepsTo b i j := by
  unfold stepsTo
  rcases Nat.lt_or_ge (j + 1) b with hlt | hge
  · rw [Nat.mod_eq_of_lt hlt]
    split <;> split <;> omega
  · -- from the last slot to slot 0
    have hlast : j + 1 = b := by omega
    rw [hlast, Nat.mod_self]
    split <;> split <;> omega

variable {α : Type*}

/-! ## Two walks around the ring -/

/-- The slots below `b` in ring order from slot `r`. -/
theorem filterMap_ring_from {b r : ℕ} (hr : r ≤ b) (g : ℕ → Option α) :
    (List.range b).filterMap (fun k => g ((r + k) % b))
      = (List.range (b - r)).filterMap (fun k => g (r + k)) ++ (List.range r).filterMap g := by
  have hsplit : List.range b = List.range (b - r) ++ (List.range r).map (b - r + ·) := by
    rw [← List.range_add, Nat.sub_add_cancel hr]
  rw [hsplit, List.filterMap_append, List.filterMap_map]
  congr 1
  · refine List.filterMap_congr fun k hk => ?_
    rw [List.mem_range] at hk
    rw [Nat.mod_eq_of_lt (by omega)]
  · refine List.filterMap_congr fun k hk => ?_
    rw [List.mem_range] at hk
    have hturn : r + (b - r + k) = k + b := by omega
    rw [Function.comp_apply, hturn, Nat.add_mod_right, Nat.mod_eq_of_lt (by omega)]

/-- The slots below `b` in slot order, cut at slot `r`. -/
theorem filterMap_range_split {b r : ℕ} (hr : r ≤ b) (g : ℕ → Option α) :
    (List.range b).filterMap g
      = (List.range r).filterMap g ++ (List.range (b - r)).filterMap (fun k => g (r + k)) := by
  have hsplit : List.range b = List.range r ++ (List.range (b - r)).map (r + ·) := by
    rw [← List.range_add, Nat.add_sub_cancel' hr]
  rw [hsplit, List.filterMap_append, List.filterMap_map]
  rfl

/-- If `ys` before `xs` is in order, `xs` before `ys` is only if one of them is empty. -/
theorem pairwise_swap_iff {R : α → α → Prop} (hR : ∀ x y, R x y → ¬ R y x) {xs ys : List α}
    (h : (ys ++ xs).Pairwise R) : (xs ++ ys).Pairwise R ↔ xs = [] ∨ ys = [] := by
  constructor
  · intro hswap
    rw [List.pairwise_append] at h hswap
    rcases xs with _ | ⟨x, xs⟩
    · exact Or.inl rfl
    rcases ys with _ | ⟨y, ys⟩
    · exact Or.inr rfl
    have hxy := hswap.2.2 x (by simp) y (by simp)
    have hyx := h.2.2 y (by simp) x (by simp)
    exact absurd hyx (hR x y hxy)
  · rintro (rfl | rfl)
    · simpa using h
    · simpa using h

/-- The two lists put together either way are the same only if one of them is empty. -/
theorem append_swap_iff {R : α → α → Prop} (hR : ∀ x y, R x y → ¬ R y x) {xs ys : List α}
    (h : (ys ++ xs).Pairwise R) : xs ++ ys = ys ++ xs ↔ xs = [] ∨ ys = [] := by
  constructor
  · intro heq
    rw [← heq] at h
    exact (pairwise_swap_iff hR (heq ▸ h)).mp h
  · rintro (rfl | rfl) <;> simp

/-! ## Moves of the head -/

/-- One move of the head: how far it goes, and what it gives out `offset` places behind where the
head stood. -/
structure Move (α : Type*) where
  advance : ℕ
  out : Option (ℕ × α)

/-- The absolute places of what the moves give out, the head starting at `base`. -/
def places : ℕ → List (Move α) → List (ℕ × α)
  | _, [] => []
  | base, m :: ms =>
    (m.out.map fun o => (base + o.1, o.2)).toList ++ places (base + m.advance) ms

/-- What a move gives out lies before the place the move leaves the head at. -/
def Move.Within (m : Move α) : Prop := ∀ o ∈ m.out, o.1 < m.advance

theorem mem_places_cons {base : ℕ} {m : Move α} {ms : List (Move α)} {d : ℕ × α} :
    d ∈ places base (m :: ms) ↔
      (∃ o ∈ m.out, (base + o.1, o.2) = d) ∨ d ∈ places (base + m.advance) ms := by
  simp only [places, List.mem_append, Option.mem_toList, Option.mem_def, Option.map_eq_some_iff]

theorem le_of_mem_places {base : ℕ} {ms : List (Move α)} {d : ℕ × α} (h : d ∈ places base ms) :
    base ≤ d.1 := by
  induction ms generalizing base with
  | nil => simp [places] at h
  | cons m ms ih =>
    rcases mem_places_cons.mp h with ⟨o, _, rfl⟩ | h
    · simp
    · have := ih h
      omega

/-- The head only moves forward, so what it gives out comes at strictly increasing places. -/
theorem places_pairwise {base : ℕ} {ms : List (Move α)} (h : ∀ m ∈ ms, m.Within) :
    (places base ms).Pairwise (fun d d' => d.1 < d'.1) := by
  induction ms generalizing base with
  | nil => simp [places]
  | cons m ms ih =>
    simp only [places]
    rw [List.pairwise_append]
    refine ⟨?_, ih fun m' hm' => h m' (by simp [hm']), ?_⟩
    · cases m.out <;> simp
    · intro d hd d' hd'
      simp only [Option.mem_toList, Option.map_eq_some_iff] at hd
      obtain ⟨o, ho, rfl⟩ := hd
      have hwithin := h m (by simp) o ho
      have hle := le_of_mem_places hd'
      show base + o.1 < d'.1
      omega

end Fullmac.RingWindow
