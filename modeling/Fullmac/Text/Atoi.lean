import Fullmac.Lib.Numerals
import Mathlib.Data.UInt

/-!
# Numbers in text

Reference: `host/lib/ssv_lib.c`, `ssv6xxx_atoi_base`, `ssv6xxx_atoi` and `ssv6xxx_64atoi`.

Both functions read a number whose base is told by a prefix, and find out by arithmetic on the codes
of the characters which are digits. The tests are not quite right. In hexadecimal the characters
between `9` and `A` are taken for digits: all seven by `ssv6xxx_atoi_base`, the six that come first
by `ssv6xxx_64atoi`. The latter knows the letters of one case only, that of the `x` of the prefix. A
`0` without a prefix ends the number, whatever follows, and the function for 64 bits keeps the value
in 32.
-/

namespace Fullmac.Text

open Numerals (digits value)

/-! ## The code -/

/-- A character of a string, which ends with NUL. -/
def chr (s : List UInt8) (i : ℕ) : UInt8 := s.getD i 0

/-- The code of a character. -/
def code (c : Char) : UInt8 := c.toUInt8

/-- The loop of both functions: `idx` is computed from the character. -/
def scanLoop (idx : UInt8 → UInt32) (base upbound value : UInt32) : List UInt8 → UInt32
  | [] => value
  | c :: s =>
    if c = 0 then value
    else if upbound < idx c then value
    else scanLoop idx base upbound (value * base + idx c) s

/-- `idx` of `ssv6xxx_atoi_base`. -/
def atoiIdx (base : UInt32) (c : UInt8) : UInt32 :=
  let v := c.toUInt32
  let idx := v - (code '0').toUInt32
  if 10 < idx ∧ base = 16 then
    (if (code 'a').toUInt32 ≤ v then v - (code 'a').toUInt32 else v - (code 'A').toUInt32) + 10
  else idx

/-- `ssv6xxx_atoi_base`. -/
def atoiBase (s : List UInt8) (base : UInt32) : UInt32 :=
  scanLoop (atoiIdx base) base (base - 1) 0 s

/-- `ssv6xxx_atoi`. -/
def atoi (s : List UInt8) : Int32 :=
  if chr s 0 = code '0' then
    if chr s 1 = code 'x' ∨ chr s 1 = code 'X' then (atoiBase (s.drop 2) 16).toInt32
    else if chr s 1 = code 'b' ∨ chr s 1 = code 'B' then (atoiBase (s.drop 2) 2).toInt32
    else 0
  else if chr s 0 = code '-' then -(atoiBase (s.drop 1) 10).toInt32
  else (atoiBase s 10).toInt32

/-- `idx` of `ssv6xxx_64atoi`, in `u8` arithmetic. -/
def atoi64Idx (base : UInt32) (bchar : UInt8) (c : UInt8) : UInt32 :=
  let idx := c - code '0'
  (if base = 16 ∧ bchar ≤ c ∧ c ≤ bchar + 5 then 10 + c - bchar else idx).toUInt32

/-- The loop of `ssv6xxx_64atoi`. -/
def atoi64Loop (s : List UInt8) (base upbound : UInt32) (bchar : UInt8) : UInt32 :=
  scanLoop (atoi64Idx base bchar) base upbound 0 s

/-- `ssv6xxx_64atoi`. The case of `x` falls through to that of `X`. -/
def atoi64 (s : List UInt8) : UInt64 :=
  if chr s 0 = code '0' then
    if chr s 1 = code 'x' then (atoi64Loop (s.drop 2) 16 15 (code 'a')).toUInt64
    else if chr s 1 = code 'X' then (atoi64Loop (s.drop 2) 16 15 (code 'A')).toUInt64
    else if chr s 1 = code 'b' ∨ chr s 1 = code 'B' then
      (atoi64Loop (s.drop 2) 2 1 (code 'A')).toUInt64
    else 0
  else if chr s 0 = code '-' then
    (-(atoi64Loop (s.drop 1) 10 9 (code 'A')).toInt32).toInt64.toUInt64
  else (atoi64Loop s 10 9 (code 'A')).toUInt64

/-! ## What they should return -/

/-- The value of a hexadecimal digit. -/
def hexDigit (c : UInt8) : Option ℕ :=
  if code '0' ≤ c ∧ c ≤ code '9' then some (c.toNat - (code '0').toNat)
  else if code 'a' ≤ c ∧ c ≤ code 'f' then some (c.toNat - (code 'a').toNat + 10)
  else if code 'A' ≤ c ∧ c ≤ code 'F' then some (c.toNat - (code 'A').toNat + 10)
  else none

/-- The value of a digit in base `b`. -/
def digit (b : ℕ) (c : UInt8) : Option ℕ := (hexDigit c).filter (· < b)

/-- What a string begins with. -/
inductive Prefix
  | hex | bin | minus | zero | none
deriving DecidableEq, Repr

/-- A `0` without a letter that tells the base is a prefix of its own: the code treats it so. -/
def prefixOf (s : List UInt8) : Prefix :=
  if chr s 0 = code '0' then
    if chr s 1 = code 'x' ∨ chr s 1 = code 'X' then .hex
    else if chr s 1 = code 'b' ∨ chr s 1 = code 'B' then .bin
    else .zero
  else if chr s 0 = code '-' then .minus
  else .none

namespace Prefix

/-- The base that is announced. -/
def base : Prefix → ℕ
  | hex => 16
  | bin => 2
  | _ => 10

/-- The characters before the digits. A `0` without a letter is a digit. -/
def length : Prefix → ℕ
  | hex => 2
  | bin => 2
  | minus => 1
  | _ => 0

end Prefix

/-- The digits of the number a string begins with. -/
def numberDigits (s : List UInt8) : List ℕ :=
  digits (digit (prefixOf s).base) (s.drop (prefixOf s).length)

/-- Its value, without the sign. -/
def number (s : List UInt8) : ℕ := value (prefixOf s).base (numberDigits s)

/-- `ssv6xxx_atoi` returns the number, modulo `2 ^ 32`. -/
def AtoiRight (s : List UInt8) : Prop :=
  atoi s = if prefixOf s = .minus then -Int32.ofNat (number s) else Int32.ofNat (number s)

/-- `ssv6xxx_64atoi` returns the number, if it is below `2 ^ 64`. -/
def Atoi64Right (s : List UInt8) : Prop :=
  number s < 2 ^ 64 →
    atoi64 s = if prefixOf s = .minus then -UInt64.ofNat (number s) else UInt64.ofNat (number s)

/-! ## When they do -/

/-- What a loop takes a character for. -/
def taken (idx : UInt8 → UInt32) (upbound : UInt32) (c : UInt8) : Option ℕ :=
  if c = 0 ∨ upbound < idx c then none else some (idx c).toNat

/-- What is behind the number. -/
def afterNumber (s : List UInt8) : List UInt8 :=
  (s.drop (prefixOf s).length).drop (numberDigits s).length

/-- The characters behind the number that a loop goes on with leave the value as it is, modulo
`2 ^ 32`. -/
def Coincides (f : UInt8 → Option ℕ) (s : List UInt8) : Prop :=
  (number s * 16 ^ (digits f (afterNumber s)).length + value 16 (digits f (afterNumber s))) % 2 ^ 32
    = number s % 2 ^ 32

/-- The character is one of those between `9` and `last`, which is not included. -/
def Stray (last c : UInt8) : Prop := code '9' < c ∧ c < last

/-- The character is a hexadecimal letter, but not from `bchar` on. -/
def OtherCase (bchar c : UInt8) : Prop :=
  hexDigit c ≠ none ∧ code '9' < c ∧ ¬ (bchar ≤ c ∧ c ≤ bchar + 5)

instance (last c : UInt8) : Decidable (Stray last c) := inferInstanceAs (Decidable (_ ∧ _))

instance (bchar c : UInt8) : Decidable (OtherCase bchar c) := inferInstanceAs (Decidable (_ ∧ _))

/-- `bchar` of `ssv6xxx_64atoi`, for a hexadecimal number. -/
def bchar (s : List UInt8) : UInt8 := if chr s 1 = code 'x' then code 'a' else code 'A'

/-- No character between `9` and `A` follows a hexadecimal number, or those that do change nothing;
and the value of what begins with a `0`, without a letter, is 0. -/
def AtoiCond (s : List UInt8) : Prop :=
  match prefixOf s with
  | .hex =>
    (∀ c ∈ (afterNumber s).head?, ¬ Stray (code 'A') c) ∨ Coincides (taken (atoiIdx 16) 15) s
  | .zero => number s % 2 ^ 32 = 0
  | _ => True

/-- The letters of a hexadecimal number are of the case of its `x`, and no character between `9` and
`@` follows it, or those that do change nothing; the value of what begins with a `0`, without a
letter, is 0; and the value has 32 bits, a negative one 31 and the sign. A negative number may also
be so large that its lowest 32 bits are enough. -/
def Atoi64Cond (s : List UInt8) : Prop :=
  2 ^ 64 ≤ number s ∨
    match prefixOf s with
    | .hex =>
      (∀ c ∈ (s.drop 2).take (numberDigits s).length, ¬ OtherCase (bchar s) c) ∧
        number s < 2 ^ 32 ∧
        ((∀ c ∈ (afterNumber s).head?, ¬ Stray (code '@') c) ∨
          Coincides (taken (atoi64Idx 16 (bchar s)) 15) s)
    | .zero => number s = 0
    | .minus => number s ≤ 2 ^ 31 ∨ 2 ^ 64 - 2 ^ 31 < number s
    | _ => number s < 2 ^ 32

/-! ## The loop -/

theorem toNat_scanLoop (idx : UInt8 → UInt32) (base upbound v : UInt32) (s : List UInt8) :
    (scanLoop idx base upbound v s).toNat
      = (v.toNat * base.toNat ^ (digits (taken idx upbound) s).length
          + value base.toNat (digits (taken idx upbound) s)) % 2 ^ 32 := by
  induction s generalizing v with
  | nil =>
    have hlt := v.toNat_lt
    simp only [scanLoop, Numerals.digits_nil, List.length_nil, Nat.pow_zero, Nat.mul_one,
      Numerals.value_nil, Nat.add_zero]
    omega
  | cons c s ih =>
    by_cases hstop : c = 0 ∨ upbound < idx c
    · have htaken : taken idx upbound c = none := if_pos hstop
      have hlt := v.toNat_lt
      have hloop : scanLoop idx base upbound v (c :: s) = v := by
        rw [scanLoop]
        rcases hstop with h | h
        · rw [if_pos h]
        · rw [if_pos h, ite_self]
      simp only [hloop, Numerals.digits_cons_none htaken, List.length_nil, Nat.pow_zero,
        Nat.mul_one, Numerals.value_nil, Nat.add_zero]
      omega
    · have htaken : taken idx upbound c = some (idx c).toNat := if_neg hstop
      rw [not_or] at hstop
      rw [scanLoop, if_neg hstop.1, if_neg hstop.2, ih, Numerals.digits_cons_some htaken,
        Numerals.value_cons, List.length_cons, UInt32.toNat_add, UInt32.toNat_mul]
      generalize digits (taken idx upbound) s = ds
      have hvalue : v.toNat * base.toNat ^ (ds.length + 1)
          + ((idx c).toNat * base.toNat ^ ds.length + value base.toNat ds)
            = (v.toNat * base.toNat + (idx c).toNat) * base.toNat ^ ds.length
              + value base.toNat ds := by
        ring
      have hstep : (v.toNat * base.toNat % 2 ^ 32 + (idx c).toNat) % 2 ^ 32
          ≡ v.toNat * base.toNat + (idx c).toNat [MOD 2 ^ 32] :=
        (Nat.mod_modEq _ _).trans ((Nat.mod_modEq _ _).add_right _)
      rw [hvalue]
      exact (hstep.mul_right _).add_right _

/-! ## Which characters are taken -/

/-- What holds of every code holds of every character. -/
theorem forall_char {P : UInt8 → Prop} (h : ∀ n < 256, P (UInt8.ofNat n)) (c : UInt8) : P c := by
  have hc := h c.toNat c.toNat_lt
  rwa [UInt8.ofNat_toNat] at hc

theorem taken_atoiIdx_dec (c : UInt8) : taken (atoiIdx 10) 9 c = digit 10 c :=
  forall_char (P := fun c => taken (atoiIdx 10) 9 c = digit 10 c) (by decide +kernel) c

theorem taken_atoiIdx_bin (c : UInt8) : taken (atoiIdx 2) 1 c = digit 2 c :=
  forall_char (P := fun c => taken (atoiIdx 2) 1 c = digit 2 c) (by decide +kernel) c

/-- In hexadecimal, `ssv6xxx_atoi_base` takes all digits, and what is between `9` and `A`. -/
theorem taken_atoiIdx_hex (c : UInt8) :
    (Stray (code 'A') c → digit 16 c = none) ∧
      (¬ Stray (code 'A') c → taken (atoiIdx 16) 15 c = digit 16 c) :=
  forall_char (P := fun c => (Stray (code 'A') c → digit 16 c = none) ∧
    (¬ Stray (code 'A') c → taken (atoiIdx 16) 15 c = digit 16 c)) (by decide +kernel) c

theorem taken_atoi64Idx_dec (c : UInt8) : taken (atoi64Idx 10 (code 'A')) 9 c = digit 10 c :=
  forall_char (P := fun c => taken (atoi64Idx 10 (code 'A')) 9 c = digit 10 c) (by decide +kernel) c

theorem taken_atoi64Idx_bin (c : UInt8) : taken (atoi64Idx 2 (code 'A')) 1 c = digit 2 c :=
  forall_char (P := fun c => taken (atoi64Idx 2 (code 'A')) 1 c = digit 2 c) (by decide +kernel) c

/-- What a character is to `ssv6xxx_64atoi` in hexadecimal. -/
def Char64 (bchar c : UInt8) : Prop :=
  (Stray (code '@') c → digit 16 c = none) ∧
    (OtherCase bchar c → digit 16 c ≠ some 0 ∧ taken (atoi64Idx 16 bchar) 15 c = none) ∧
    (¬ Stray (code '@') c → ¬ OtherCase bchar c →
      taken (atoi64Idx 16 bchar) 15 c = digit 16 c)

instance (bchar c : UInt8) : Decidable (Char64 bchar c) := inferInstanceAs (Decidable (_ ∧ _ ∧ _))

theorem char64_bchar (s : List UInt8) (c : UInt8) : Char64 (bchar s) c := by
  rw [bchar]
  split
  · exact forall_char (P := fun c => Char64 (code 'a') c) (by decide +kernel) c
  · exact forall_char (P := fun c => Char64 (code 'A') c) (by decide +kernel) c

/-! ## The results -/

variable {s : List UInt8}

theorem toInt32_eq_ofNat_iff (w : UInt32) (n : ℕ) :
    w.toInt32 = Int32.ofNat n ↔ w.toNat = n % 2 ^ 32 := by
  constructor
  · intro h
    exact congrArg (fun x : Int32 => x.toBitVec.toNat) h
  · intro h
    have hw : w = UInt32.ofNat n := UInt32.toNat_inj.mp h
    rw [hw]
    rfl

theorem toUInt64_eq_ofNat_iff (w : UInt32) {n : ℕ} (hn : n < 2 ^ 64) :
    w.toUInt64 = UInt64.ofNat n ↔ w.toNat = n := by
  rw [← UInt64.toNat_inj, UInt32.toNat_toUInt64, UInt64.toNat_ofNat', Nat.mod_eq_of_lt hn]

/-- A value of 32 bits, made negative and extended. -/
theorem toNat_neg_toInt64 (w : UInt32) :
    ((-w.toInt32).toInt64.toUInt64).toNat
      = if w.toNat = 0 then 0 else if w.toNat ≤ 2 ^ 31 then 2 ^ 64 - w.toNat
        else 2 ^ 32 - w.toNat := by
  have hbits : ((-w.toInt32).toInt64.toUInt64).toNat = ((-w.toBitVec).signExtend 64).toNat := rfl
  have hneg : (-w.toBitVec).toNat = (2 ^ 32 - w.toNat) % 2 ^ 32 := by
    rw [BitVec.toNat_neg]
    rfl
  have hlt := w.toNat_lt
  rw [hbits, BitVec.toNat_signExtend, BitVec.msb_eq_decide, BitVec.toNat_setWidth, hneg]
  grind

/-- The value of a loop that reads the digits of a number and nothing else. -/
theorem toNat_scanLoop_number (idx : UInt8 → UInt32) (base upbound : UInt32)
    (hbase : base.toNat = (prefixOf s).base)
    (h : ∀ c, taken idx upbound c = digit (prefixOf s).base c) :
    (scanLoop idx base upbound 0 (s.drop (prefixOf s).length)).toNat = number s % 2 ^ 32 := by
  rw [toNat_scanLoop, Numerals.digits_congr fun c _ => h c, UInt32.toNat_zero, Nat.zero_mul,
    Nat.zero_add, hbase]
  rfl

/-- The value of a loop that reads the digits of a hexadecimal number and goes on. -/
theorem toNat_scanLoop_hex {idx : UInt8 → UInt32} (hs : prefixOf s = .hex)
    (h : ∀ c ∈ (s.drop 2).take (numberDigits s).length, taken idx 15 c = digit 16 c) :
    (scanLoop idx 16 15 0 (s.drop 2)).toNat
      = (number s * 16 ^ (digits (taken idx 15) (afterNumber s)).length
          + value 16 (digits (taken idx 15) (afterNumber s))) % 2 ^ 32 := by
  have hdigits : numberDigits s = digits (digit 16) (s.drop 2) := by
    rw [numberDigits, hs]
    rfl
  have hafter : afterNumber s = (s.drop 2).drop (numberDigits s).length := by
    rw [afterNumber, hs]
    rfl
  have hnumber : number s = value 16 (numberDigits s) := by
    rw [number, hs]
    rfl
  rw [hdigits] at h
  rw [toNat_scanLoop, UInt32.toNat_zero, Nat.zero_mul, Nat.zero_add, Numerals.digits_eq_append h,
    show UInt32.toNat 16 = 16 from rfl, Numerals.value_append, hnumber, hafter, hdigits]

/-- Where the loop does not go on, nothing changes. -/
theorem coincides_of_stops {f : UInt8 → Option ℕ}
    (h : ∀ c ∈ (afterNumber s).head?, f c = none) : Coincides f s := by
  rw [Coincides, Numerals.digits_eq_nil h, List.length_nil, Nat.pow_zero, Nat.mul_one,
    Numerals.value_nil, Nat.add_zero]

/-- The character behind a hexadecimal number is no digit. -/
theorem digit_afterNumber (hs : prefixOf s = .hex) {c : UInt8} (hc : c ∈ (afterNumber s).head?) :
    digit 16 c = none := by
  rw [afterNumber, numberDigits, hs] at hc
  exact Numerals.eq_none_of_head hc

/-- The characters of a hexadecimal number are digits. -/
theorem digit_ne_none (hs : prefixOf s = .hex) {c : UInt8}
    (hc : c ∈ (s.drop 2).take (numberDigits s).length) : digit 16 c ≠ none := by
  rw [numberDigits, hs] at hc
  exact Numerals.ne_none_of_mem hc

theorem prefixOf_cases (s : List UInt8) :
    (prefixOf s = .hex ∧ atoi s = (atoiBase (s.drop 2) 16).toInt32 ∧
        atoi64 s = (atoi64Loop (s.drop 2) 16 15 (bchar s)).toUInt64) ∨
      (prefixOf s = .bin ∧ atoi s = (atoiBase (s.drop 2) 2).toInt32 ∧
        atoi64 s = (atoi64Loop (s.drop 2) 2 1 (code 'A')).toUInt64) ∨
      (prefixOf s = .zero ∧ atoi s = 0 ∧ atoi64 s = 0) ∨
      (prefixOf s = .minus ∧ atoi s = -(atoiBase (s.drop 1) 10).toInt32 ∧
        atoi64 s = (-(atoi64Loop (s.drop 1) 10 9 (code 'A')).toInt32).toInt64.toUInt64) ∨
      (prefixOf s = .none ∧ atoi s = (atoiBase s 10).toInt32 ∧
        atoi64 s = (atoi64Loop s 10 9 (code 'A')).toUInt64) := by
  have hxX : code 'X' ≠ code 'x' := by decide
  by_cases h0 : chr s 0 = code '0'
  · by_cases hx : chr s 1 = code 'x'
    · exact .inl (by simp [prefixOf, atoi, atoi64, bchar, h0, hx])
    · by_cases hX : chr s 1 = code 'X'
      · exact .inl (by simp [prefixOf, atoi, atoi64, bchar, h0, hX, hxX])
      · by_cases hb : chr s 1 = code 'b' ∨ chr s 1 = code 'B'
        · exact .inr (.inl (by simp [prefixOf, atoi, atoi64, h0, hx, hX, hb]))
        · exact .inr (.inr (.inl (by simp [prefixOf, atoi, atoi64, h0, hx, hX, hb])))
  · by_cases hminus : chr s 0 = code '-'
    · have hne : code '-' ≠ code '0' := by decide
      exact .inr (.inr (.inr (.inl (by simp [prefixOf, atoi, atoi64, hminus, hne]))))
    · exact .inr (.inr (.inr (.inr (by simp [prefixOf, atoi, atoi64, h0, hminus]))))

/-- `ssv6xxx_atoi` on a hexadecimal number. -/
theorem atoi_hex (hs : prefixOf s = .hex) :
    (atoiBase (s.drop 2) 16).toInt32 = Int32.ofNat (number s)
      ↔ (∀ c ∈ (afterNumber s).head?, ¬ Stray (code 'A') c) ∨
        Coincides (taken (atoiIdx 16) 15) s := by
  have hdigits : ∀ c ∈ (s.drop 2).take (numberDigits s).length,
      taken (atoiIdx 16) 15 c = digit 16 c := fun c hc =>
    (taken_atoiIdx_hex c).2 fun hstray => digit_ne_none hs hc ((taken_atoiIdx_hex c).1 hstray)
  have hstops : (∀ c ∈ (afterNumber s).head?, ¬ Stray (code 'A') c) →
      Coincides (taken (atoiIdx 16) 15) s := fun h =>
    coincides_of_stops fun c hc =>
      ((taken_atoiIdx_hex c).2 (h c hc)).trans (digit_afterNumber hs hc)
  rw [toInt32_eq_ofNat_iff, or_iff_right_of_imp hstops]
  exact (toNat_scanLoop_hex hs hdigits).congr_left

theorem not_stray_of_mem (hs : prefixOf s = .hex) {c : UInt8}
    (hc : c ∈ (s.drop 2).take (numberDigits s).length) : ¬ Stray (code '@') c := fun hstray =>
  digit_ne_none hs hc ((char64_bchar s c).1 hstray)

/-- The loop of `ssv6xxx_64atoi` ends before the first letter of the other case, which makes the
number larger. -/
theorem atoi64Loop_lt_of_otherCase (hs : prefixOf s = .hex) {c : UInt8}
    (hc : c ∈ (s.drop 2).take (numberDigits s).length) (hother : OtherCase (bchar s) c) :
    (atoi64Loop (s.drop 2) 16 15 (bchar s)).toNat < number s := by
  have hdigits : numberDigits s = digits (digit 16) (s.drop 2) := by
    rw [numberDigits, hs]
    rfl
  have hnumber : number s = value 16 (numberDigits s) := by
    rw [number, hs]
    rfl
  have hread : ∀ c ∈ (s.drop 2).take (digits (digit 16) (s.drop 2)).length,
      taken (atoi64Idx 16 (bchar s)) 15 c = digit 16 c ∨
        taken (atoi64Idx 16 (bchar s)) 15 c = none := by
    intro c hc
    rw [← hdigits] at hc
    by_cases hother : OtherCase (bchar s) c
    · exact .inr ((char64_bchar s c).2.1 hother).2
    · exact .inl ((char64_bchar s c).2.2 (not_stray_of_mem hs hc) hother)
  rw [hdigits] at hc
  obtain ⟨d, more, c', hd, hrefused, hsplit⟩ := Numerals.exists_of_refused hread
    ⟨c, hc, ((char64_bchar s c).2.1 hother).2⟩
  have hother' : OtherCase (bchar s) c' := by
    by_contra hnot
    have hstray : ¬ Stray (code '@') c' := fun hstray => by
      rw [(char64_bchar s c').1 hstray] at hd
      cases hd
    rw [(char64_bchar s c').2.2 hstray hnot, hd] at hrefused
    cases hrefused
  have hpos : 0 < d := Nat.pos_of_ne_zero fun hzero =>
    ((char64_bchar s c').2.1 hother').1 (hzero ▸ hd)
  have hless := Numerals.lt_value_append (b := 16) (by decide) hpos
    (digits (taken (atoi64Idx 16 (bchar s)) 15) (s.drop 2)) more
  rw [← hsplit, ← hdigits, ← hnumber] at hless
  rw [atoi64Loop, toNat_scanLoop, UInt32.toNat_zero, Nat.zero_mul, Nat.zero_add,
    show UInt32.toNat 16 = 16 from rfl]
  exact Nat.lt_of_le_of_lt (Nat.mod_le _ _) hless

/-- `ssv6xxx_64atoi` on a hexadecimal number. -/
theorem atoi64_hex (hs : prefixOf s = .hex) (hlt : number s < 2 ^ 64) :
    (atoi64Loop (s.drop 2) 16 15 (bchar s)).toUInt64 = UInt64.ofNat (number s)
      ↔ (∀ c ∈ (s.drop 2).take (numberDigits s).length, ¬ OtherCase (bchar s) c) ∧
        number s < 2 ^ 32 ∧
        ((∀ c ∈ (afterNumber s).head?, ¬ Stray (code '@') c) ∨
          Coincides (taken (atoi64Idx 16 (bchar s)) 15) s) := by
  rw [toUInt64_eq_ofNat_iff _ hlt]
  by_cases hcase : ∀ c ∈ (s.drop 2).take (numberDigits s).length, ¬ OtherCase (bchar s) c
  · have hdigits : ∀ c ∈ (s.drop 2).take (numberDigits s).length,
        taken (atoi64Idx 16 (bchar s)) 15 c = digit 16 c := fun c hc =>
      (char64_bchar s c).2.2 (not_stray_of_mem hs hc) (hcase c hc)
    have hstops : number s < 2 ^ 32 → (∀ c ∈ (afterNumber s).head?, ¬ Stray (code '@') c) →
        Coincides (taken (atoi64Idx 16 (bchar s)) 15) s := by
      intro _ h
      refine coincides_of_stops fun c hc => ?_
      by_cases hother : OtherCase (bchar s) c
      · exact ((char64_bchar s c).2.1 hother).2
      · exact ((char64_bchar s c).2.2 (h c hc) hother).trans (digit_afterNumber hs hc)
    have hloop := toNat_scanLoop_hex hs hdigits
    rw [and_iff_right hcase]
    constructor
    · intro h
      have hlt32 : number s < 2 ^ 32 := h ▸ UInt32.toNat_lt _
      refine ⟨hlt32, .inr ?_⟩
      rw [Coincides, Nat.mod_eq_of_lt hlt32, ← hloop]
      exact h
    · rintro ⟨hlt32, hor⟩
      have hco := hor.elim (hstops hlt32) id
      rw [Coincides, Nat.mod_eq_of_lt hlt32, ← hloop] at hco
      exact hco
  · simp only [hcase, false_and, iff_false]
    intro h
    simp only [not_forall, not_not] at hcase
    obtain ⟨c, hc, hother⟩ := hcase
    exact Nat.ne_of_lt (atoi64Loop_lt_of_otherCase hs hc hother) h

/-- `ssv6xxx_64atoi` on a negative number. -/
theorem atoi64_minus (hs : prefixOf s = .minus) (hlt : number s < 2 ^ 64) :
    (-(atoi64Loop (s.drop 1) 10 9 (code 'A')).toInt32).toInt64.toUInt64
        = -UInt64.ofNat (number s)
      ↔ number s ≤ 2 ^ 31 ∨ 2 ^ 64 - 2 ^ 31 < number s := by
  have hloop : (atoi64Loop (s.drop 1) 10 9 (code 'A')).toNat = number s % 2 ^ 32 := by
    have h := toNat_scanLoop_number (s := s) (atoi64Idx 10 (code 'A')) 10 9 (by rw [hs]; rfl)
      (by rw [hs]; exact taken_atoi64Idx_dec)
    rwa [hs] at h
  rw [← UInt64.toNat_inj, toNat_neg_toInt64, hloop, UInt64.toNat_neg, UInt64.toNat_ofNat',
    Nat.mod_eq_of_lt hlt]
  have hsize : UInt64.size = 2 ^ 64 := rfl
  grind

/-- `ssv6xxx_atoi` on every string. -/
theorem atoiRight_iff (s : List UInt8) : AtoiRight s ↔ AtoiCond s := by
  rcases prefixOf_cases s with ⟨hs, ha, -⟩ | ⟨hs, ha, -⟩ | ⟨hs, ha, -⟩ | ⟨hs, ha, -⟩ | ⟨hs, ha, -⟩
  · simp only [AtoiRight, AtoiCond, hs, ha, reduceCtorEq, if_false]
    exact atoi_hex hs
  · have hloop := toNat_scanLoop_number (s := s) (atoiIdx 2) 2 1 (by rw [hs]; rfl)
      (by rw [hs]; exact taken_atoiIdx_bin)
    rw [hs] at hloop
    simp only [AtoiRight, AtoiCond, hs, ha, reduceCtorEq, if_false, iff_true]
    exact (toInt32_eq_ofNat_iff _ _).mpr hloop
  · simp only [AtoiRight, AtoiCond, hs, ha, reduceCtorEq, if_false]
    exact (toInt32_eq_ofNat_iff 0 _).trans eq_comm
  · have hloop := toNat_scanLoop_number (s := s) (atoiIdx 10) 10 9 (by rw [hs]; rfl)
      (by rw [hs]; exact taken_atoiIdx_dec)
    rw [hs] at hloop
    simp only [AtoiRight, AtoiCond, hs, ha, if_true, iff_true]
    exact congrArg Neg.neg ((toInt32_eq_ofNat_iff _ _).mpr hloop)
  · have hloop := toNat_scanLoop_number (s := s) (atoiIdx 10) 10 9 (by rw [hs]; rfl)
      (by rw [hs]; exact taken_atoiIdx_dec)
    rw [hs] at hloop
    simp only [AtoiRight, AtoiCond, hs, ha, reduceCtorEq, if_false, iff_true]
    exact (toInt32_eq_ofNat_iff _ _).mpr hloop

/-- `ssv6xxx_64atoi` on every string. -/
theorem atoi64Right_iff (s : List UInt8) : Atoi64Right s ↔ Atoi64Cond s := by
  rw [Atoi64Right, Atoi64Cond]
  by_cases hlt : number s < 2 ^ 64
  · rw [or_iff_right (Nat.not_le.mpr hlt), forall_prop_of_true hlt]
    rcases prefixOf_cases s with
      ⟨hs, -, ha⟩ | ⟨hs, -, ha⟩ | ⟨hs, -, ha⟩ | ⟨hs, -, ha⟩ | ⟨hs, -, ha⟩
    · simp only [hs, ha, reduceCtorEq, if_false]
      exact atoi64_hex hs hlt
    · have hloop := toNat_scanLoop_number (s := s) (atoi64Idx 2 (code 'A')) 2 1 (by rw [hs]; rfl)
        (by rw [hs]; exact taken_atoi64Idx_bin)
      rw [hs] at hloop
      simp only [hs, ha, reduceCtorEq, if_false]
      rw [toUInt64_eq_ofNat_iff _ hlt]
      exact (Eq.congr_left hloop).trans (Nat.mod_eq_iff_lt (by decide))
    · simp only [hs, ha, reduceCtorEq, if_false]
      exact (toUInt64_eq_ofNat_iff 0 hlt).trans eq_comm
    · simp only [hs, ha, if_true]
      exact atoi64_minus hs hlt
    · have hloop := toNat_scanLoop_number (s := s) (atoi64Idx 10 (code 'A')) 10 9 (by rw [hs]; rfl)
        (by rw [hs]; exact taken_atoi64Idx_dec)
      rw [hs] at hloop
      simp only [hs, ha, reduceCtorEq, if_false]
      rw [toUInt64_eq_ofNat_iff _ hlt]
      exact (Eq.congr_left hloop).trans (Nat.mod_eq_iff_lt (by decide))
  · exact iff_of_true (fun h => absurd h hlt) (.inl (Nat.not_lt.mp hlt))

/-- On every string, `ssv6xxx_atoi` and `ssv6xxx_64atoi` return the number it begins with exactly
when the digits are followed by no character that is taken for one, there is no `0` in front without
a letter, and, for the latter, the letters have the right case and the value fits in 32 bits. -/
theorem atoi_atoi64_right_iff (s : List UInt8) :
    (AtoiRight s ∧ Atoi64Right s) ↔ AtoiCond s ∧ Atoi64Cond s :=
  and_congr (atoiRight_iff s) (atoi64Right_iff s)

/-- The string `0x1:`: the colon counts as a digit. -/
theorem not_right_hex_colon : ¬ (AtoiRight [0x30, 0x78, 0x31, 0x3A] ∧
    Atoi64Right [0x30, 0x78, 0x31, 0x3A]) := by
  rintro ⟨h, -⟩
  have hvalue : atoi [0x30, 0x78, 0x31, 0x3A] = 26 := by decide
  rw [AtoiRight, hvalue] at h
  exact absurd h (by decide)

end Fullmac.Text
