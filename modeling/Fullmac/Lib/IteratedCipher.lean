import Mathlib.Data.List.Basic
import Mathlib.Tactic.Common

/-!
# Ciphers made of rounds

A block is whitened with a first key, goes through rounds that substitute (`sub`), mix (`mix`) and
add a key, and through a last round without mixing (`apply`). The same rounds with the inverse maps,
the keys reversed and those of the full rounds mixed back, invert it (`apply_apply`) as soon as
mixing back respects the addition of keys: what stands behind a round on the way back is the
substituted block from before that round on the way out (`foldl_round_reverse`).
-/

namespace Fullmac.IteratedCipher

variable {σ : Type*} (add : σ → σ → σ) (sub sub' mix mix' : σ → σ)

/-- One round with a key. -/
def round (s k : σ) : σ := add (mix (sub s)) k

/-- All rounds: the first key, the keys of the full rounds, and the last key. -/
def apply (first : σ) (keys : List σ) (last s : σ) : σ :=
  add (sub (keys.foldl (round add sub mix) (add s first))) last

variable {add sub sub' mix mix'}

/-- The rounds on the way back start at the substituted result and end at the substituted block. -/
theorem foldl_round_reverse (hsub : ∀ s, sub' (sub s) = s) (hmix : ∀ s, mix' (mix s) = s)
    (hadd : ∀ s k, mix' (add s k) = add (mix' s) (mix' k)) (hself : ∀ s k, add (add s k) k = s)
    (keys : List σ) (s : σ) :
    (keys.reverse.map mix').foldl (round add sub' mix')
      (sub (keys.foldl (round add sub mix) s)) = sub s := by
  induction keys generalizing s with
  | nil => rfl
  | cons k keys ih =>
    have hback : round add sub' mix' (sub (round add sub mix s k)) (mix' k) = sub s := by
      show add (mix' (sub' (sub (add (mix (sub s)) k)))) (mix' k) = sub s
      rw [hsub, hadd, hmix, hself]
    rw [List.reverse_cons, List.map_append, List.foldl_append, List.foldl_cons, ih]
    exact hback

/-- The cipher with the inverse maps and the keys turned round inverts the cipher. -/
theorem apply_apply (hsub : ∀ s, sub' (sub s) = s) (hmix : ∀ s, mix' (mix s) = s)
    (hadd : ∀ s k, mix' (add s k) = add (mix' s) (mix' k)) (hself : ∀ s k, add (add s k) k = s)
    (first : σ) (keys : List σ) (last s : σ) :
    apply add sub' mix' last (keys.reverse.map mix') first (apply add sub mix first keys last s)
      = s := by
  rw [apply, apply, hself, foldl_round_reverse hsub hmix hadd hself, hsub, hself]

end Fullmac.IteratedCipher
