import Mathlib.Data.Nat.Digits.Defs
import Mathlib.Tactic.Common

/-!
# Numerals

A numeral is read from the front of a text: `digits f s` are the digits up to the first character
that `f` does not take for one, `value b ds` is their value in base `b`. Two readings of a text
differ in how `f` takes its characters. One that takes more characters goes on behind the digits of
the other (`digits_eq_append`); one that refuses a digit ends before it (`exists_of_refused`).
-/

namespace Fullmac.Numerals

variable {α : Type*} {f g : α → Option ℕ}

/-- The digits at the front of a text. -/
def digits (f : α → Option ℕ) : List α → List ℕ
  | [] => []
  | c :: s =>
    match f c with
    | none => []
    | some d => d :: digits f s

/-- The value of digits, the highest first. -/
def value (b : ℕ) (ds : List ℕ) : ℕ := Nat.ofDigits b ds.reverse

@[simp] theorem digits_nil (f : α → Option ℕ) : digits f [] = [] := rfl

theorem digits_cons_some {c : α} {s : List α} {d : ℕ} (h : f c = some d) :
    digits f (c :: s) = d :: digits f s := by
  rw [digits, h]

theorem digits_cons_none {c : α} {s : List α} (h : f c = none) : digits f (c :: s) = [] := by
  rw [digits, h]

@[simp] theorem value_nil (b : ℕ) : value b [] = 0 := rfl

theorem value_append (b : ℕ) (ds us : List ℕ) :
    value b (ds ++ us) = value b ds * b ^ us.length + value b us := by
  rw [value, List.reverse_append, Nat.ofDigits_append, List.length_reverse, Nat.add_comm,
    Nat.mul_comm]
  rfl

theorem value_cons (b d : ℕ) (ds : List ℕ) :
    value b (d :: ds) = d * b ^ ds.length + value b ds := by
  have happend := value_append b [d] ds
  rwa [List.singleton_append, show value b [d] = d from Nat.ofDigits_singleton] at happend

/-- Digits that follow make a number larger, unless they are zero. -/
theorem lt_value_append {b d : ℕ} (hb : 0 < b) (hd : 0 < d) (ds more : List ℕ) :
    value b ds < value b (ds ++ d :: more) := by
  have hpow : 0 < b ^ more.length := Nat.pow_pos hb
  have hle : value b ds ≤ value b ds * b ^ (d :: more).length :=
    Nat.le_mul_of_pos_right _ (Nat.pow_pos hb)
  have hpos : 0 < d * b ^ more.length := Nat.mul_pos hd hpow
  rw [value_append, value_cons]
  omega

theorem value_lt {b : ℕ} {ds : List ℕ} (h : ∀ d ∈ ds, d < b) : value b ds < b ^ ds.length := by
  induction ds with
  | nil => exact Nat.one_pos
  | cons d ds ih =>
    have hrest := ih fun e he => h e (List.mem_cons_of_mem _ he)
    have hd : d + 1 ≤ b := h d List.mem_cons_self
    rw [value_cons, List.length_cons, Nat.pow_succ']
    calc d * b ^ ds.length + value b ds < d * b ^ ds.length + b ^ ds.length :=
          Nat.add_lt_add_left hrest _
      _ = (d + 1) * b ^ ds.length := (Nat.succ_mul _ _).symm
      _ ≤ b * b ^ ds.length := Nat.mul_le_mul_right _ hd

/-- Of two numerals of one length, the first digit that differs decides. -/
theorem value_cons_lt {b d u : ℕ} {ds us : List ℕ} (hlen : ds.length = us.length)
    (hds : ∀ e ∈ ds, e < b) (hdu : d < u) : value b (d :: ds) < value b (u :: us) := by
  have hrest := value_lt hds
  have hmul : (d + 1) * b ^ us.length ≤ u * b ^ us.length := Nat.mul_le_mul_right _ hdu
  rw [value_cons, value_cons, hlen]
  rw [hlen] at hrest
  rw [Nat.succ_mul] at hmul
  omega

/-- Nothing is read in front of a character that is no digit. -/
theorem digits_eq_nil {s : List α} (h : ∀ c ∈ s.head?, f c = none) : digits f s = [] := by
  cases s with
  | nil => rfl
  | cons c s => exact digits_cons_none (h c rfl)

/-- Behind the digits there is no digit. -/
theorem eq_none_of_head {s : List α} {c : α} (h : c ∈ (s.drop (digits f s).length).head?) :
    f c = none := by
  induction s with
  | nil => cases h
  | cons c' s ih =>
    cases hf : f c' with
    | none =>
      rw [digits_cons_none hf] at h
      obtain rfl : c' = c := Option.some.inj h
      exact hf
    | some d =>
      rw [digits_cons_some hf, List.length_cons, List.drop_succ_cons] at h
      exact ih h

/-- The digits are digits. -/
theorem ne_none_of_mem {s : List α} {c : α} (h : c ∈ s.take (digits f s).length) : f c ≠ none := by
  induction s with
  | nil => cases h
  | cons c' s ih =>
    cases hf : f c' with
    | none =>
      rw [digits_cons_none hf] at h
      cases h
    | some d =>
      rw [digits_cons_some hf, List.length_cons, List.take_succ_cons] at h
      rcases List.mem_cons.mp h with rfl | h
      · rw [hf]
        exact Option.some_ne_none d
      · exact ih h

/-- A reading that takes everything another takes goes on where that one ends. -/
theorem digits_eq_append {s : List α} (h : ∀ c ∈ s.take (digits f s).length, g c = f c) :
    digits g s = digits f s ++ digits g (s.drop (digits f s).length) := by
  induction s with
  | nil => rfl
  | cons c s ih =>
    cases hf : f c with
    | none =>
      rw [digits_cons_none hf]
      rfl
    | some d =>
      rw [digits_cons_some hf, List.length_cons, List.take_succ_cons, List.forall_mem_cons] at h
      have hg : g c = some d := h.1.trans hf
      rw [digits_cons_some hf, digits_cons_some hg, List.length_cons, List.drop_succ_cons, ih h.2,
        List.cons_append]

/-- Two readings that differ nowhere. -/
theorem digits_congr {s : List α} (h : ∀ c ∈ s, g c = f c) : digits g s = digits f s := by
  induction s with
  | nil => rfl
  | cons c s ih =>
    rw [List.forall_mem_cons] at h
    rw [digits, digits, h.1, ih h.2]

/-- A reading that refuses one of the digits of another ends before the first of these. -/
theorem exists_of_refused {s : List α}
    (h : ∀ c ∈ s.take (digits f s).length, g c = f c ∨ g c = none)
    (hrefused : ∃ c ∈ s.take (digits f s).length, g c = none) :
    ∃ d more c, f c = some d ∧ g c = none ∧ digits f s = digits g s ++ d :: more := by
  induction s with
  | nil =>
    obtain ⟨c, hc, -⟩ := hrefused
    cases hc
  | cons c s ih =>
    cases hf : f c with
    | none =>
      rw [digits_cons_none hf] at hrefused
      obtain ⟨c', hc', -⟩ := hrefused
      cases hc'
    | some d =>
      rw [digits_cons_some hf, List.length_cons, List.take_succ_cons] at h hrefused
      rw [List.forall_mem_cons] at h
      cases hg : g c with
      | none =>
        refine ⟨d, digits f s, c, hf, hg, ?_⟩
        rw [digits_cons_some hf, digits_cons_none hg, List.nil_append]
      | some d' =>
        have hsame : some d' = some d := by
          rcases h.1 with hsame | hnone
          · rw [← hg, hsame, hf]
          · rw [hg] at hnone
            cases hnone
        rw [hsame] at hg
        have hlater : ∃ c' ∈ s.take (digits f s).length, g c' = none := by
          obtain ⟨c', hc', hnone⟩ := hrefused
          rcases List.mem_cons.mp hc' with rfl | hc'
          · rw [hg] at hnone
            cases hnone
          · exact ⟨c', hc', hnone⟩
        obtain ⟨d'', more, c', hf', hg', hsplit⟩ := ih h.2 hlater
        refine ⟨d'', more, c', hf', hg', ?_⟩
        rw [digits_cons_some hf, digits_cons_some hg, hsplit, List.cons_append]

end Fullmac.Numerals
