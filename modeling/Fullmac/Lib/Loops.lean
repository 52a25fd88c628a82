import Mathlib.Data.Nat.Basic
import Mathlib.Tactic.Common

/-!
# Loops that need not end

A loop is given by one pass of its body, `σ → σ ⊕ ρ`: it goes on with another state or leaves with a
result. `passes body n` makes at most `n` passes and answers `none` if the loop has not been left by
then, so a loop that goes round for ever answers `none` for every `n`.

`passes_of_measure` is for a loop that ends, `of_passes` for what its result is like,
`passes_eq_none` for one that does not end, and `passes_eq_of_measure` for a loop whose result is
already known as a function that is cut off after some number of steps: if the cut comes late enough
it is not noticed.
-/

namespace Fullmac.Loops

variable {σ ρ : Type*} {body : σ → σ ⊕ ρ}

/-- At most `n` passes of a loop. -/
def passes (body : σ → σ ⊕ ρ) : ℕ → σ → Option ρ
  | 0, _ => none
  | n + 1, s =>
    match body s with
    | .inl s' => passes body n s'
    | .inr r => some r

theorem passes_succ_of_inl {s s' : σ} (h : body s = .inl s') (n : ℕ) :
    passes body (n + 1) s = passes body n s' := by
  rw [passes, h]

theorem passes_succ_of_inr {s : σ} {r : ρ} (h : body s = .inr r) (n : ℕ) :
    passes body (n + 1) s = some r := by
  rw [passes, h]

/-- A loop whose every pass makes a measure smaller computes what a function computes that is cut
off after `k` steps, provided that neither `n` nor `k` is too small. -/
theorem passes_eq_of_measure {I : σ → Prop} {μ : σ → ℕ} {g : ℕ → σ → ρ}
    (leave : ∀ s r k, I s → body s = .inr r → μ s ≤ k → g k s = r)
    (next : ∀ s s', I s → body s = .inl s' →
      I s' ∧ μ s' < μ s ∧ ∀ k, g (k + 1) s = g k s')
    {s : σ} (hs : I s) {n k : ℕ} (hn : μ s < n) (hk : μ s ≤ k) :
    passes body n s = some (g k s) := by
  induction n generalizing s k with
  | zero => omega
  | succ n ih =>
    cases hbody : body s with
    | inl s' =>
      obtain ⟨hs', hlt, hg⟩ := next s s' hs hbody
      obtain ⟨k, rfl⟩ : ∃ k', k = k' + 1 := ⟨k - 1, by omega⟩
      rw [passes_succ_of_inl hbody, hg k]
      exact ih hs' (by omega) (by omega)
    | inr r => rw [passes_succ_of_inr hbody, leave s r k hs hbody hk]

/-- A loop whose every pass makes a measure smaller ends. -/
theorem passes_of_measure {I : σ → Prop} {μ : σ → ℕ}
    (next : ∀ s s', I s → body s = .inl s' → I s' ∧ μ s' < μ s) {s : σ} (hs : I s) {n : ℕ}
    (hn : μ s < n) : ∃ r, passes body n s = some r := by
  induction n generalizing s with
  | zero => omega
  | succ n ih =>
    cases hbody : body s with
    | inl s' =>
      obtain ⟨hs', hlt⟩ := next s s' hs hbody
      rw [passes_succ_of_inl hbody]
      exact ih hs' (by omega)
    | inr r => exact ⟨r, passes_succ_of_inr hbody n⟩

/-- What an invariant says when a loop is left holds of its result, if it has one. -/
theorem of_passes {I : σ → Prop} {Q : ρ → Prop} (leave : ∀ s r, I s → body s = .inr r → Q r)
    (next : ∀ s s', I s → body s = .inl s' → I s') {s : σ} (hs : I s) {n : ℕ} {r : ρ}
    (h : passes body n s = some r) : Q r := by
  induction n generalizing s with
  | zero => cases h
  | succ n ih =>
    cases hbody : body s with
    | inl s' =>
      rw [passes_succ_of_inl hbody] at h
      exact ih (next s s' hs hbody) h
    | inr r' =>
      rw [passes_succ_of_inr hbody] at h
      obtain rfl : r' = r := Option.some.inj h
      exact leave s r' hs hbody

/-- A loop that always goes on never ends. -/
theorem passes_eq_none {I : σ → Prop} (next : ∀ s, I s → ∃ s', body s = .inl s' ∧ I s') {s : σ}
    (hs : I s) (n : ℕ) : passes body n s = none := by
  induction n generalizing s with
  | zero => rfl
  | succ n ih =>
    obtain ⟨s', hbody, hs'⟩ := next s hs
    rw [passes_succ_of_inl hbody]
    exact ih hs'

/-- Two loops that go on and leave together, with the same result, from states that are related. -/
theorem passes_congr {τ : Type*} {body' : τ → τ ⊕ ρ} {R : σ → τ → Prop}
    (next : ∀ s t, R s t → (∃ r, body s = .inr r ∧ body' t = .inr r) ∨
      ∃ s' t', body s = .inl s' ∧ body' t = .inl t' ∧ R s' t') {s : σ} {t : τ} (hst : R s t)
    (n : ℕ) : passes body n s = passes body' n t := by
  induction n generalizing s t with
  | zero => rfl
  | succ n ih =>
    obtain ⟨r, hs, ht⟩ | ⟨s', t', hs, ht, hst'⟩ := next s t hst
    · rw [passes_succ_of_inr hs, passes_succ_of_inr ht]
    · rw [passes_succ_of_inl hs, passes_succ_of_inl ht]
      exact ih hst'

end Fullmac.Loops
