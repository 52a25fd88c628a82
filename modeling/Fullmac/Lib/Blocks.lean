import Mathlib.Data.List.Basic
import Mathlib.Tactic.Common

/-!
# A stream taken in block by block

A state takes in blocks of `n` elements. `absorb` feeds it the whole blocks of a list, and `rest` is
what is left at the end, fewer than `n` elements. A list may come in pieces: what is left of the one
is put in front of the next (`absorb_append`, `rest_append`).
-/

namespace Fullmac.Blocks

variable {σ α : Type*} (n : ℕ) (f : σ → List α → σ)

/-- The state takes in the first `k` blocks of a list. -/
def absorbBlocks : ℕ → σ → List α → σ
  | 0, s, _ => s
  | k + 1, s, l => absorbBlocks k (f s (l.take n)) (l.drop n)

/-- The state takes in the whole blocks of a list. -/
def absorb (s : σ) (l : List α) : σ := absorbBlocks n f (l.length / n) s l

/-- What is left of a list. -/
def rest (l : List α) : List α := l.drop (n * (l.length / n))

variable {n f}

theorem absorb_of_lt {s : σ} {l : List α} (h : l.length < n) : absorb n f s l = s := by
  rw [absorb, Nat.div_eq_of_lt h]
  rfl

theorem rest_of_lt {l : List α} (h : l.length < n) : rest n l = l := by
  rw [rest, Nat.div_eq_of_lt h]
  rfl

theorem absorb_of_le (hn : 0 < n) {s : σ} {l : List α} (h : n ≤ l.length) :
    absorb n f s l = absorb n f (f s (l.take n)) (l.drop n) := by
  rw [absorb, Nat.div_eq_sub_div hn h, absorbBlocks, absorb, List.length_drop]

theorem rest_of_le (hn : 0 < n) {l : List α} (h : n ≤ l.length) : rest n l = rest n (l.drop n) := by
  rw [rest, rest, List.drop_drop, List.length_drop, Nat.div_eq_sub_div hn h,
    Nat.mul_succ, Nat.add_comm]

@[simp] theorem length_rest (l : List α) : (rest n l).length = l.length % n := by
  rw [rest, List.length_drop, Nat.mod_eq_sub]

/-- A block in front is taken in first. -/
theorem absorb_block_append (hn : 0 < n) {b : List α} (hb : b.length = n) (s : σ) (l : List α) :
    absorb n f s (b ++ l) = absorb n f (f s b) l := by
  rw [absorb_of_le hn (by rw [List.length_append]; omega), List.take_append_of_le_length (by omega),
    List.take_of_length_le (by omega), List.drop_left' hb]

theorem rest_block_append (hn : 0 < n) {b : List α} (hb : b.length = n) (l : List α) :
    rest n (b ++ l) = rest n l := by
  rw [rest_of_le hn (by rw [List.length_append]; omega), List.drop_left' hb]

/-- What holds of a list shorter than a block, and is kept when a block is put in front, holds of
every list. -/
theorem block_induction (hn : 0 < n) {P : List α → Prop} (short : ∀ l, l.length < n → P l)
    (block : ∀ b l, b.length = n → P l → P (b ++ l)) (l : List α) : P l := by
  induction hlen : l.length using Nat.strongRecOn generalizing l with
  | _ len ih =>
    rcases Nat.lt_or_ge l.length n with hlt | hge
    · exact short l hlt
    · have hrest : P (l.drop n) := ih _ (by rw [List.length_drop]; omega) _ rfl
      have h := block (l.take n) (l.drop n) (List.length_take_of_le hge) hrest
      rwa [List.take_append_drop] at h

/-- The second piece is taken in behind what is left of the first one. -/
theorem absorb_append (hn : 0 < n) (s : σ) (l m : List α) :
    absorb n f s (l ++ m) = absorb n f (absorb n f s l) (rest n l ++ m) := by
  induction l using block_induction hn generalizing s with
  | short l hlt => rw [absorb_of_lt hlt, rest_of_lt hlt]
  | block b l hb ih =>
    rw [List.append_assoc, absorb_block_append hn hb, absorb_block_append hn hb,
      rest_block_append hn hb]
    exact ih _

theorem rest_append (hn : 0 < n) (l m : List α) : rest n (l ++ m) = rest n (rest n l ++ m) := by
  induction l using block_induction hn with
  | short l hlt => rw [rest_of_lt hlt]
  | block b l hb ih =>
    rw [List.append_assoc, rest_block_append hn hb, rest_block_append hn hb]
    exact ih

end Fullmac.Blocks
