import Fullmac.Lib.Bytes

/-!
# Programs that read a buffer

A `Reads α` is a program that reads a memory and gives an `α`. It keeps a list of what it touches on
the way: the bytes it reads, the parts of the buffer it passes on with a length, and how much it
copies into fields of a fixed size. `Reads.Inside n` says that the buffer at hand has `n` bytes and
that all of this stays inside.

What a program needs is found by taking it apart: `inside_bind` splits a sequence, and each
primitive has its own bound. Whether a later step is inside may depend on what earlier steps have
read, so the value of a program (`Reads.val`) goes along.
-/

namespace Fullmac

open Bytes (Mem slice slice_succ getU16)

/-- Something a program does with a buffer. -/
inductive Touch
  /-- A byte is read. -/
  | read (off : ℕ)
  /-- The bytes from `off` on are passed on, as `len` of them. -/
  | hand (off len : ℕ)
  /-- A field of `size` bytes is filled with `len` bytes. -/
  | fill (size len : ℕ)
deriving DecidableEq, Repr

/-- It stays inside a buffer of `n` bytes, and inside the field it fills. -/
def Touch.Inside (n : ℕ) : Touch → Prop
  | .read off => off < n
  | .hand off len => len ≤ n - off
  | .fill size len => len ≤ size

instance (n : ℕ) : DecidablePred (Touch.Inside n)
  | .read off => inferInstanceAs (Decidable (off < n))
  | .hand off len => inferInstanceAs (Decidable (len ≤ n - off))
  | .fill size len => inferInstanceAs (Decidable (len ≤ size))

/-- A program: for every memory the result, and what is touched on the way. -/
def Reads (α : Type) : Type := Mem → α × List Touch

namespace Reads

variable {α β : Type} {m : Mem} {n : ℕ}

instance : Monad Reads where
  pure a := fun _ => (a, [])
  bind p f := fun m => ((f (p m).1 m).1, (p m).2 ++ (f (p m).1 m).2)

/-- The result. -/
def val (m : Mem) (p : Reads α) : α := (p m).1

/-- What is touched. -/
def touches (m : Mem) (p : Reads α) : List Touch := (p m).2

/-- In a memory whose first `n` bytes are the buffer, the program stays inside. -/
def Inside (n : ℕ) (m : Mem) (p : Reads α) : Prop := ∀ t ∈ p.touches m, t.Inside n

instance (n : ℕ) (m : Mem) (p : Reads α) : Decidable (p.Inside n m) :=
  inferInstanceAs (Decidable (∀ t ∈ p.touches m, t.Inside n))

/-! ## Taking programs apart -/

-- The equations of `val` are no definitional unfoldings to `simp`: a rewritten condition of an `if`
-- takes its decision procedure along.

@[simp] theorem val_pure (m : Mem) (a : α) : val m (pure a : Reads α) = a := (rfl)

@[simp] theorem val_bind (m : Mem) (p : Reads α) (f : α → Reads β) :
    val m (p >>= f) = val m (f (val m p)) := (rfl)

@[simp] theorem val_ite (m : Mem) (c : Prop) [Decidable c] (p q : Reads α) :
    val m (if c then p else q) = if c then val m p else val m q := by
  split <;> rfl

@[simp] theorem inside_pure (n : ℕ) (m : Mem) (a : α) : Inside n m (pure a : Reads α) := by
  intro t ht
  exact absurd ht (List.not_mem_nil)

@[simp] theorem inside_bind {p : Reads α} {f : α → Reads β} :
    Inside n m (p >>= f) ↔ Inside n m p ∧ Inside n m (f (val m p)) := by
  have htouches : touches m (p >>= f) = touches m p ++ touches m (f (val m p)) := rfl
  simp only [Inside, htouches, List.mem_append, or_imp, forall_and]

@[simp] theorem inside_ite {c : Prop} [Decidable c] {p q : Reads α} :
    Inside n m (if c then p else q) ↔ (c → Inside n m p) ∧ (¬ c → Inside n m q) := by
  split <;> simp_all

/-- Go on with the result, if there is one. -/
def bindSome (p : Reads (Option α)) (f : α → Reads (Option β)) : Reads (Option β) := do
  match ← p with
  | none => pure none
  | some a => f a

/-- Only a result has to be gone on with inside. -/
theorem inside_bindSome {p : Reads (Option α)} {f : α → Reads (Option β)} :
    Inside n m (p.bindSome f) ↔ Inside n m p ∧ ∀ a, val m p = some a → Inside n m (f a) := by
  rw [bindSome, inside_bind]
  refine and_congr_right fun _ => ?_
  cases val m p with
  | none => simp
  | some a => simp

theorem val_bindSome {p : Reads (Option α)} {f : α → Reads (Option β)} :
    val m (p.bindSome f) = (val m p).bind fun a => val m (f a) := by
  rw [bindSome, val_bind]
  cases val m p <;> rfl

/-- Do something with a value, if there is one. -/
def forSome (o : Option α) (f : α → Reads Unit) : Reads Unit :=
  match o with
  | none => pure ()
  | some a => f a

theorem inside_forSome {o : Option α} {f : α → Reads Unit} :
    Inside n m (forSome o f) ↔ ∀ a, o = some a → Inside n m (f a) := by
  cases o with
  | none => simp [forSome]
  | some a => simp [forSome]

/-! ## Primitives -/

/-- Read a byte. -/
def read (off : ℕ) : Reads UInt8 := fun m => (m off, [.read off])

/-- Read `len` bytes. -/
def readSlice (off len : ℕ) : Reads (List UInt8) :=
  fun m => (slice m off len, (List.range len).map fun i => .read (off + i))

/-- Read a little-endian 16-bit field. -/
def readU16 (off : ℕ) : Reads ℕ := fun m => (getU16 m off, [.read off, .read (off + 1)])

/-- Pass on the bytes from `off`, as `len` of them. -/
def hand (off len : ℕ) : Reads Unit := fun _ => ((), [.hand off len])

/-- Fill a field of `size` bytes with `len` bytes. -/
def fill (size len : ℕ) : Reads Unit := fun _ => ((), [.fill size len])

/-- The `n` bytes at `off` are those of `bs`. The comparison stops at the first difference, and a
list of another length is different. -/
def memcmp : ℕ → ℕ → List UInt8 → Reads Bool
  | _, 0, bs => pure bs.isEmpty
  | _, _ + 1, [] => pure false
  | off, n + 1, b :: bs => do
    let a ← read off
    if a = b then memcmp (off + 1) n bs else pure false

@[simp] theorem val_read (m : Mem) (off : ℕ) : val m (read off) = m off := (rfl)

@[simp] theorem val_readSlice (m : Mem) (off len : ℕ) :
    val m (readSlice off len) = slice m off len := (rfl)

@[simp] theorem val_readU16 (m : Mem) (off : ℕ) : val m (readU16 off) = getU16 m off := (rfl)

@[simp] theorem inside_read {off : ℕ} : Inside n m (read off) ↔ off < n := by
  simp [Inside, touches, read, Touch.Inside]

@[simp] theorem inside_readSlice {off len : ℕ} :
    Inside n m (readSlice off len) ↔ len = 0 ∨ off + len ≤ n := by
  have hall : Inside n m (readSlice off len) ↔ ∀ i < len, off + i < n := by
    simp [Inside, touches, readSlice, Touch.Inside]
  rw [hall]
  constructor
  · intro h
    rcases Nat.eq_zero_or_pos len with h0 | hpos
    · exact .inl h0
    · have hlast := h (len - 1) (by omega)
      exact .inr (by omega)
  · intro h i hi
    omega

@[simp] theorem inside_readU16 {off : ℕ} : Inside n m (readU16 off) ↔ off + 1 < n := by
  simp only [Inside, touches, readU16, List.forall_mem_cons, Touch.Inside]
  constructor
  · exact fun h => h.2.1
  · exact fun h => ⟨by omega, h, by simp⟩

@[simp] theorem inside_hand {off len : ℕ} : Inside n m (hand off len) ↔ len ≤ n - off := by
  simp [Inside, touches, hand, Touch.Inside]

@[simp] theorem inside_fill {size len : ℕ} : Inside n m (fill size len) ↔ len ≤ size := by
  simp [Inside, touches, fill, Touch.Inside]

@[simp] theorem val_memcmp (m : Mem) (off len : ℕ) (bs : List UInt8) :
    val m (memcmp off len bs) = decide (slice m off len = bs) := by
  induction len generalizing off bs with
  | zero => cases bs <;> simp [memcmp, slice]
  | succ len ih =>
    cases bs with
    | nil => simp [memcmp, slice_succ]
    | cons b bs =>
      rw [memcmp, val_bind, val_ite, ih, slice_succ]
      by_cases hb : m off = b <;> simp [hb]

/-- A comparison reads nothing beyond its length. -/
theorem inside_memcmp {off len : ℕ} {bs : List UInt8} (h : off + len ≤ n) :
    Inside n m (memcmp off len bs) := by
  induction len generalizing off bs with
  | zero => exact inside_pure n m _
  | succ len ih =>
    cases bs with
    | nil => exact inside_pure n m _
    | cons b bs =>
      rw [memcmp, inside_bind, inside_read, inside_ite]
      exact ⟨by omega, fun _ => ih (by omega), fun _ => inside_pure n m _⟩

end Reads

end Fullmac
