import Fullmac.Lib.Loops
import Fullmac.Lib.Reads

/-!
# Loops that read a buffer

A loop whose body reads is given by one pass, as in `Loops`, with the state and what is touched on
the way. What it computes is what the loop of the values computes (`val_loop`), so that the rules
for ending and for the result apply; `inside_loop` is the rule for what it touches.
-/

namespace Fullmac.Reads

open Bytes (Mem)
open Loops (passes)

variable {σ ρ : Type} {body : σ → Reads (σ ⊕ ρ)} {m : Mem} {n : ℕ}

/-- At most `k` passes of a loop that reads. -/
def loop (body : σ → Reads (σ ⊕ ρ)) : ℕ → σ → Reads (Option ρ)
  | 0, _ => pure none
  | k + 1, s => body s >>= Sum.elim (loop body k) (fun r => pure (some r))

theorem val_loop (m : Mem) (k : ℕ) (s : σ) :
    val m (loop body k s) = passes (fun s => val m (body s)) k s := by
  induction k generalizing s with
  | zero => rfl
  | succ k ih =>
    rw [loop, val_bind, passes]
    cases val m (body s) with
    | inl s' => exact ih s'
    | inr r => rfl

/-- A loop stays inside if each pass does, in every state it comes through. -/
theorem inside_loop {I : σ → Prop} (inside : ∀ s, I s → Inside n m (body s))
    (next : ∀ s s', I s → val m (body s) = .inl s' → I s') {s : σ} (hs : I s) (k : ℕ) :
    Inside n m (loop body k s) := by
  induction k generalizing s with
  | zero => exact inside_pure n m none
  | succ k ih =>
    rw [loop, inside_bind]
    refine ⟨inside s hs, ?_⟩
    cases hbody : val m (body s) with
    | inl s' => exact ih (next s s' hs hbody)
    | inr r => exact inside_pure n m (some r)

end Fullmac.Reads
