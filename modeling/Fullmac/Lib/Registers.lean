import Mathlib.Data.List.Basic
import Mathlib.Tactic.Common

/-!
# A value carried through registers

A step takes a value and the content of one register and gives a new value and a new content. A
pass (`pass`) carries a value through all registers, numbered upwards, and several passes go on with
the numbers where the last one stopped (`passes`). The same way back takes the registers and the
passes from the last to the first (`passBack`, `passesBack`).

If a step can be undone, so can a pass and all passes, on either side: `passesBack_passes` and
`passes_passesBack`, which are one statement with the two directions exchanged.
-/

namespace Fullmac.Registers

variable {α ρ : Type*} (f g : ℕ → α × ρ → α × ρ)

/-- The value goes through the registers; the first step has number `t`. -/
def pass : ℕ → α → List ρ → α × List ρ
  | _, a, [] => (a, [])
  | t, a, r :: rs =>
    let first := f t (a, r)
    let rest := pass (t + 1) first.1 rs
    (rest.1, first.2 :: rest.2)

/-- The value goes through the registers from the last one down. -/
def passBack : ℕ → α → List ρ → α × List ρ
  | _, a, [] => (a, [])
  | t, a, r :: rs =>
    let rest := passBack (t + 1) a rs
    let first := g t (rest.1, r)
    (first.1, first.2 :: rest.2)

/-- `k` passes, the first of which starts with number `t`. -/
def passes : ℕ → ℕ → α × List ρ → α × List ρ
  | 0, _, s => s
  | k + 1, t, s => passes k (t + s.2.length) (pass f t s.1 s.2)

/-- `k` passes back, the last of which ends with number `t`. -/
def passesBack : ℕ → ℕ → α × List ρ → α × List ρ
  | 0, _, s => s
  | k + 1, t, s =>
    let s' := passesBack k (t + s.2.length) s
    passBack g t s'.1 s'.2

variable {f g}

@[simp] theorem length_pass (t : ℕ) (a : α) (rs : List ρ) :
    (pass f t a rs).2.length = rs.length := by
  induction rs generalizing t a with
  | nil => rfl
  | cons r rs ih => rw [pass, List.length_cons, List.length_cons, ih]

@[simp] theorem length_passBack (t : ℕ) (a : α) (rs : List ρ) :
    (passBack g t a rs).2.length = rs.length := by
  induction rs generalizing t with
  | nil => rfl
  | cons r rs ih => rw [passBack, List.length_cons, List.length_cons, ih]

@[simp] theorem length_passes (k t : ℕ) (s : α × List ρ) :
    (passes f k t s).2.length = s.2.length := by
  induction k generalizing t s with
  | zero => rfl
  | succ k ih => rw [passes, ih, length_pass]

@[simp] theorem length_passesBack (k t : ℕ) (s : α × List ρ) :
    (passesBack g k t s).2.length = s.2.length := by
  induction k generalizing t s with
  | zero => rfl
  | succ k ih => rw [passesBack, length_passBack, ih]

theorem passBack_pass (h : ∀ t s, g t (f t s) = s) (t : ℕ) (a : α) (rs : List ρ) :
    passBack g t (pass f t a rs).1 (pass f t a rs).2 = (a, rs) := by
  induction rs generalizing t a with
  | nil => rfl
  | cons r rs ih =>
    rw [pass, passBack, ih]
    show ((g t (f t (a, r))).1, (g t (f t (a, r))).2 :: rs) = (a, r :: rs)
    rw [h]

theorem pass_passBack (h : ∀ t s, f t (g t s) = s) (t : ℕ) (a : α) (rs : List ρ) :
    pass f t (passBack g t a rs).1 (passBack g t a rs).2 = (a, rs) := by
  induction rs generalizing t a with
  | nil => rfl
  | cons r rs ih =>
    rw [passBack, pass]
    show ((pass f (t + 1) (f t (g t ((passBack g (t + 1) a rs).1, r))).1
        (passBack g (t + 1) a rs).2).1,
      (f t (g t ((passBack g (t + 1) a rs).1, r))).2 ::
        (pass f (t + 1) (f t (g t ((passBack g (t + 1) a rs).1, r))).1
          (passBack g (t + 1) a rs).2).2) = (a, r :: rs)
    rw [h, ih]

/-- The way back undoes the passes. -/
theorem passesBack_passes (h : ∀ t s, g t (f t s) = s) (k t : ℕ) (s : α × List ρ) :
    passesBack g k t (passes f k t s) = s := by
  induction k generalizing t s with
  | zero => rfl
  | succ k ih =>
    have hlen : (passes f (k + 1) t s).2.length = s.2.length := length_passes _ _ _
    rw [passesBack, hlen]
    show passBack g t (passesBack g k (t + s.2.length)
        (passes f k (t + s.2.length) (pass f t s.1 s.2))).1
      (passesBack g k (t + s.2.length)
        (passes f k (t + s.2.length) (pass f t s.1 s.2))).2 = s
    rw [ih, passBack_pass h]

/-- The passes undo the way back. -/
theorem passes_passesBack (h : ∀ t s, f t (g t s) = s) (k t : ℕ) (s : α × List ρ) :
    passes f k t (passesBack g k t s) = s := by
  induction k generalizing t s with
  | zero => rfl
  | succ k ih =>
    have hlen : (passesBack g (k + 1) t s).2.length = s.2.length := length_passesBack _ _ _
    rw [passes, hlen]
    show passes f k (t + s.2.length)
      (pass f t (passBack g t (passesBack g k (t + s.2.length) s).1
          (passesBack g k (t + s.2.length) s).2).1
        (passBack g t (passesBack g k (t + s.2.length) s).1
          (passesBack g k (t + s.2.length) s).2).2) = s
    rw [pass_passBack h]
    exact ih _ _

end Fullmac.Registers
