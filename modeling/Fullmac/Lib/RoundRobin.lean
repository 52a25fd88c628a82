import Mathlib.Data.List.Basic
import Mathlib.Tactic.Common
import Mathlib.Tactic.Ring

/-!
# Rounds

A list is served from the front and taken up again from its start when it is exhausted. However many
items are served, they come in rounds: of a service that started with the whole list, every
consecutive block that starts at a multiple of the length is the list.
-/

namespace Fullmac.RoundRobin

variable {α : Type*}

/-- The next `n` items, when `rest` is left of the round at hand. -/
def serve (all : List α) : ℕ → List α → List α
  | 0, _ => []
  | n + 1, x :: rest => x :: serve all n rest
  | n + 1, [] =>
    match all with
    | [] => []
    | x :: rest => x :: serve all n rest

variable {all : List α}

/-- First the rest of the round is served. -/
theorem serve_append (rest : List α) (n : ℕ) :
    serve all (rest.length + n) rest = rest ++ serve all n [] := by
  induction rest with
  | nil => simp
  | cons x rest ih =>
    have hlen : (x :: rest).length + n = rest.length + n + 1 := by
      rw [List.length_cons]
      ring
    rw [hlen, serve, ih, List.cons_append]

/-- An exhausted round is followed by a full one. -/
theorem serve_nil (hall : all ≠ []) (n : ℕ) : serve all n [] = serve all n all := by
  cases n with
  | zero => rfl
  | succ n =>
    cases all with
    | nil => exact absurd rfl hall
    | cons x rest => rfl

/-- A full round and what follows. -/
theorem serve_round (hall : all ≠ []) (n : ℕ) :
    serve all (all.length + n) all = all ++ serve all n all := by
  rw [serve_append, serve_nil hall]

/-- Every block of a service is the list. -/
theorem serve_block (hall : all ≠ []) {r n : ℕ} (hn : (r + 1) * all.length ≤ n) :
    ((serve all n all).drop (r * all.length)).take all.length = all := by
  induction r generalizing n with
  | zero =>
    obtain ⟨m, rfl⟩ := Nat.exists_eq_add_of_le (by simpa using hn : all.length ≤ n)
    rw [serve_round hall, Nat.zero_mul, List.drop_zero, List.take_left]
  | succ r ih =>
    have hsplit : (r + 1 + 1) * all.length = all.length + (r + 1) * all.length := by ring
    obtain ⟨m, rfl⟩ := Nat.exists_eq_add_of_le (by omega : all.length ≤ n)
    rw [serve_round hall, Nat.succ_mul, Nat.add_comm, ← List.drop_drop, List.drop_left]
    exact ih (by omega)

/-- What is served is an item of the list or was left over. -/
theorem mem_serve {n : ℕ} {rest : List α} {x : α} (hx : x ∈ serve all n rest) :
    x ∈ rest ∨ x ∈ all := by
  induction n generalizing rest with
  | zero => simp [serve] at hx
  | succ n ih =>
    cases rest with
    | cons y rest =>
      rw [serve, List.mem_cons] at hx
      rcases hx with rfl | hx
      · exact .inl List.mem_cons_self
      · exact (ih hx).imp (List.mem_cons_of_mem y) id
    | nil =>
      cases all with
      | nil => simp [serve] at hx
      | cons y all =>
        rw [serve, List.mem_cons] at hx
        rcases hx with rfl | hx
        · exact .inr List.mem_cons_self
        · exact (ih hx).elim (fun h => .inr (List.mem_cons_of_mem y h)) .inr

end Fullmac.RoundRobin
