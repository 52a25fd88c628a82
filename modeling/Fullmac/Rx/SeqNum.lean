import Mathlib.Data.Int.ModEq
import Mathlib.Tactic.Common

/-!
# 802.11 sequence-number arithmetic

Reference: `host/core/txrx_hdl.c`, `seq_less`, `seq_inc` and `seq_sub`.

The source works on `u16` arguments promoted to `int`, so a difference may be negative before it is
masked with `SEQ_MASK`; the model keeps that as an integer remainder. No argument is assumed to be
below `SEQ_MODULO`: the head of a fresh session is whatever `u16` the ADDBA event carried.
-/

namespace Fullmac.Rx

/-- `SEQ_MODULO`. -/
def seqModulo : ℕ := 4096

/-- `(sq1 - sq2) & SEQ_MASK`. -/
def seqSub (sq1 sq2 : ℕ) : ℕ := (((sq1 : ℤ) - sq2) % 4096).toNat

/-- `(sq + 1) & SEQ_MASK`. -/
def seqInc (sq : ℕ) : ℕ := (sq + 1) % 4096

/-- `((sq1 - sq2) & SEQ_MASK) > (SEQ_MODULO >> 1)`. -/
def seqLess (sq1 sq2 : ℕ) : Bool := decide (2048 < seqSub sq1 sq2)

theorem seqLess_eq_true {a b : ℕ} : seqLess a b = true ↔ 2048 < seqSub a b := by
  simp [seqLess]

theorem seqLess_eq_false {a b : ℕ} : seqLess a b = false ↔ seqSub a b ≤ 2048 := by
  simp [seqLess]

/-- A masked difference is a 12-bit number. -/
theorem seqSub_lt (a b : ℕ) : seqSub a b < 4096 := by
  simp only [seqSub]
  omega

/-- `seqSub a b` is the distance that leads from `b` to `a`. -/
theorem add_seqSub_mod (a b : ℕ) : (b + seqSub a b) % 4096 = a % 4096 := by
  simp only [seqSub]
  omega

/-- The distance is the only 12-bit number that does. -/
theorem seqSub_eq_iff {a b d : ℕ} (hd : d < 4096) :
    seqSub a b = d ↔ (b + d) % 4096 = a % 4096 := by
  simp only [seqSub]
  omega

theorem seqSub_eq_of_add {a b d : ℕ} (hd : d < 4096) (h : (b + d) % 4096 = a % 4096) :
    seqSub a b = d :=
  (seqSub_eq_iff hd).mpr h

/-- Only the residues of the arguments matter. -/
theorem seqSub_congr {a a' b b' : ℕ} (ha : a % 4096 = a' % 4096) (hb : b % 4096 = b' % 4096) :
    seqSub a b = seqSub a' b' := by
  simp only [seqSub]
  omega

@[simp] theorem seqSub_self (a : ℕ) : seqSub a a = 0 := by
  simp [seqSub]

theorem seqSub_eq_zero_iff {a b : ℕ} : seqSub a b = 0 ↔ a % 4096 = b % 4096 := by
  simp only [seqSub]
  omega

/-- Moving the reference forward by one shortens every positive distance by one. -/
theorem seqSub_seqInc {a b : ℕ} (h : 0 < seqSub a b) : seqSub a (seqInc b) = seqSub a b - 1 := by
  simp only [seqSub, seqInc] at *
  omega

/-- Moving the reference forward by `k` shortens every distance of at least `k` by `k`. -/
theorem seqSub_add_right {a b k : ℕ} (h : k ≤ seqSub a b) :
    seqSub a ((b + k) % 4096) = seqSub a b - k := by
  simp only [seqSub] at *
  omega

/-- A number is exactly one before its successor. -/
theorem seqSub_seqInc_self (a : ℕ) : seqSub (seqInc a) a = 1 := by
  simp only [seqSub, seqInc]
  omega

end Fullmac.Rx
