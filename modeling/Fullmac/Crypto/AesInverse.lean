import Fullmac.Crypto.Aes
import Fullmac.Lib.IteratedCipher
import Mathlib.Data.Set.Finite.List

/-!
# Decryption inverts encryption

`rijndaelDecrypt` does not run `rijndaelEncrypt` backwards: it takes the same steps in the same
order, with tables and round keys of its own. That this inverts the cipher (`aesDecrypt_aesEncrypt`)
rests on three things.

* What the tables hold, which is checked entry by entry: multiples of the substitution box and of
  its inverse (`te0At_octet`, `td0At_octet`), and that one box inverts the other (`inv_sbox`).
* Linear algebra over bytes: doubling respects exclusive or (`x2_xor`), so the columns of the two
  tables make inverse maps (`invMix_mix`), and mixing back goes through the addition of a key.
* `IteratedCipher.apply_apply`, for the rest.
-/

namespace Fullmac.Crypto

/-! ## Words of octets -/

/-- A word of four octets, the highest first. -/
def word (a b c d : Octet) : Word := a ++ b ++ c ++ d

theorem word_xor (a b c d a' b' c' d' : Octet) :
    word a b c d ^^^ word a' b' c' d'
      = word (a ^^^ a') (b ^^^ b') (c ^^^ c') (d ^^^ d') := by
  apply BitVec.eq_of_getLsbD_eq
  intro i _
  simp only [word, BitVec.getLsbD_xor, BitVec.getLsbD_append]
  split_ifs <;> rfl

theorem toNat_word (a b c d : Octet) :
    (word a b c d).toNat
      = a.toNat * 16777216 + b.toNat * 65536 + c.toNat * 256 + d.toNat := by
  have ha := a.isLt
  have hb := b.isLt
  have hc := c.isLt
  have hd := d.isLt
  rw [word, BitVec.toNat_append, BitVec.toNat_append, BitVec.toNat_append,
    ← Nat.shiftLeft_add_eq_or_of_lt hd, ← Nat.shiftLeft_add_eq_or_of_lt hc,
    ← Nat.shiftLeft_add_eq_or_of_lt hb]
  simp only [Nat.shiftLeft_eq]
  omega

theorem exists_word (w : Word) : ∃ a b c d, w = word a b c d := by
  refine ⟨w.extractLsb' 24 8, w.extractLsb' 16 8, w.extractLsb' 8 8, w.extractLsb' 0 8, ?_⟩
  have hw := w.isLt
  apply BitVec.eq_of_toNat_eq
  rw [toNat_word]
  simp only [BitVec.extractLsb'_toNat, Nat.shiftRight_eq_div_pow]
  omega

theorem and_ff_toNat (w : Word) : (w &&& 0xff).toNat = w.toNat % 256 := by
  rw [BitVec.toNat_and]
  exact Nat.and_two_pow_sub_one_eq_mod w.toNat 8

theorem word_high (a b c d : Octet) : word a b c d >>> 24 = a.setWidth 32 := by
  have ha := a.isLt
  have hb := b.isLt
  have hc := c.isLt
  have hd := d.isLt
  apply BitVec.eq_of_toNat_eq
  rw [BitVec.toNat_ushiftRight, toNat_word, BitVec.toNat_setWidth, Nat.shiftRight_eq_div_pow]
  omega

theorem word_octets (a b c d : Octet) :
    (word a b c d >>> 24) &&& 0xff = a.setWidth 32 ∧
      (word a b c d >>> 16) &&& 0xff = b.setWidth 32 ∧
      (word a b c d >>> 8) &&& 0xff = c.setWidth 32 ∧
      word a b c d &&& 0xff = d.setWidth 32 := by
  have ha := a.isLt
  have hb := b.isLt
  have hc := c.isLt
  have hd := d.isLt
  refine ⟨?_, ?_, ?_, ?_⟩ <;> apply BitVec.eq_of_toNat_eq <;>
    simp only [and_ff_toNat, BitVec.toNat_ushiftRight, toNat_word, BitVec.toNat_setWidth,
      Nat.shiftRight_eq_div_pow] <;> omega

theorem setWidth_eq_word (d : Octet) : d.setWidth 32 = word 0 0 0 d := by
  apply BitVec.eq_of_toNat_eq
  have hd := d.isLt
  rw [toNat_word, BitVec.toNat_setWidth]
  show d.toNat % 4294967296 = 0 * 16777216 + 0 * 65536 + 0 * 256 + d.toNat
  omega

/-- The lowest octet of a word, cut out and put back. -/
theorem setWidth_setWidth_and_ff (w : Word) :
    ((w &&& 0xff).setWidth 8).setWidth 32 = w &&& 0xff := by
  apply BitVec.eq_of_toNat_eq
  simp only [BitVec.toNat_setWidth, and_ff_toNat]
  omega

theorem shiftLeft_word (a b c d : Octet) : word a b c d <<< 8 = word b c d 0 := by
  have ha := a.isLt
  have hb := b.isLt
  have hc := c.isLt
  have hd := d.isLt
  apply BitVec.eq_of_toNat_eq
  rw [BitVec.toNat_shiftLeft, toNat_word, toNat_word, Nat.shiftLeft_eq]
  show _ = b.toNat * 16777216 + c.toNat * 65536 + d.toNat * 256 + 0
  omega

theorem shiftRight_word (a b c d : Octet) : word a b c d >>> 8 = word 0 a b c := by
  have ha := a.isLt
  have hb := b.isLt
  have hc := c.isLt
  have hd := d.isLt
  apply BitVec.eq_of_toNat_eq
  rw [BitVec.toNat_ushiftRight, toNat_word, toNat_word, Nat.shiftRight_eq_div_pow]
  show _ = 0 * 16777216 + a.toNat * 65536 + b.toNat * 256 + c.toNat
  omega

theorem word_and (a b c d a' b' c' d' : Octet) :
    word a b c d &&& word a' b' c' d'
      = word (a &&& a') (b &&& b') (c &&& c') (d &&& d') := by
  apply BitVec.eq_of_getLsbD_eq
  intro i _
  simp only [word, BitVec.getLsbD_and, BitVec.getLsbD_append]
  split_ifs <;> rfl

theorem word_or (a b c d a' b' c' d' : Octet) :
    word a b c d ||| word a' b' c' d'
      = word (a ||| a') (b ||| b') (c ||| c') (d ||| d') := by
  apply BitVec.eq_of_getLsbD_eq
  intro i _
  simp only [word, BitVec.getLsbD_or, BitVec.getLsbD_append]
  split_ifs <;> rfl

theorem rotr_word (a b c d : Octet) :
    rotr (word a b c d) 8 = word d a b c ∧ rotr (word a b c d) 16 = word c d a b ∧
      rotr (word a b c d) 24 = word b c d a := by
  have hleft : ∀ w : Word, w <<< 16 = w <<< 8 <<< 8 ∧ w <<< 24 = w <<< 8 <<< 8 <<< 8 :=
    fun w => ⟨BitVec.shiftLeft_add w 8 8, by
      rw [← BitVec.shiftLeft_add, ← BitVec.shiftLeft_add]⟩
  have hright : ∀ w : Word, w >>> 16 = w >>> 8 >>> 8 ∧ w >>> 24 = w >>> 8 >>> 8 >>> 8 :=
    fun w => ⟨BitVec.shiftRight_add w 8 8, by
      rw [← BitVec.shiftRight_add, ← BitVec.shiftRight_add]⟩
  have hor : ∀ d : Octet, 0 ||| d = d ∧ d ||| 0 = d :=
    fun d => ⟨BitVec.zero_or, BitVec.or_zero⟩
  simp only [rotr, show 32 - 8 = 24 from rfl, show 32 - 16 = 16 from rfl,
    show 32 - 24 = 8 from rfl, (hleft _).1, (hleft _).2, (hright _).1, (hright _).2,
    shiftLeft_word, shiftRight_word, word_or, (hor _).1, (hor _).2, and_self]

/-! ## What the tables hold -/

/-- An octet of the substitution box. -/
def sbox (b : Octet) : Octet := (te4 (b.setWidth 32)).setWidth 8

/-- An octet of the inverse box. -/
def invSbox (b : Octet) : Octet := (td4sAt (b.setWidth 32)).setWidth 8

/-- Doubling in the field of 256 elements. -/
def x2 (b : Octet) : Octet := (b <<< 1) ^^^ (if b.msb then 0x1b else 0)

/-- Three times an octet. -/
def x3 (b : Octet) : Octet := x2 b ^^^ b

/-- Nine times an octet. -/
def x9 (b : Octet) : Octet := x2 (x2 (x2 b)) ^^^ b

/-- Eleven times an octet. -/
def x11 (b : Octet) : Octet := x2 (x2 (x2 b)) ^^^ x2 b ^^^ b

/-- Thirteen times an octet. -/
def x13 (b : Octet) : Octet := x2 (x2 (x2 b)) ^^^ x2 (x2 b) ^^^ b

/-- Fourteen times an octet. -/
def x14 (b : Octet) : Octet := x2 (x2 (x2 b)) ^^^ x2 (x2 b) ^^^ x2 b

/-- Four octets, mixed. -/
def mixColumn (a b c d : Octet) : Word :=
  word (x2 a ^^^ x3 b ^^^ c ^^^ d) (a ^^^ x2 b ^^^ x3 c ^^^ d) (a ^^^ b ^^^ x2 c ^^^ x3 d)
    (x3 a ^^^ b ^^^ c ^^^ x2 d)

/-- Four octets, mixed back. -/
def invMixColumn (a b c d : Octet) : Word :=
  word (x14 a ^^^ x11 b ^^^ x13 c ^^^ x9 d) (x9 a ^^^ x14 b ^^^ x11 c ^^^ x13 d)
    (x13 a ^^^ x9 b ^^^ x14 c ^^^ x11 d) (x11 a ^^^ x13 b ^^^ x9 c ^^^ x14 d)

theorem te0At_octet : ∀ b : Octet,
    te0At (b.setWidth 32) = word (x2 (sbox b)) (sbox b) (sbox b) (x3 (sbox b)) := by
  decide +kernel

theorem td0At_octet : ∀ b : Octet,
    td0At (b.setWidth 32)
      = word (x14 (invSbox b)) (x9 (invSbox b)) (x13 (invSbox b)) (x11 (invSbox b)) := by
  decide +kernel

/-- One box inverts the other. -/
theorem inv_sbox : ∀ b : Octet, invSbox (sbox b) = b := by decide +kernel

/-! ## Access to the tables -/

theorem te4_octet (b : Octet) : te4 (b.setWidth 32) = (sbox b).setWidth 32 := by
  rw [sbox, te4, setWidth_setWidth_and_ff]

theorem td4sAt_octet (b : Octet) : td4sAt (b.setWidth 32) = word 0 0 0 (invSbox b) := by
  have hlow : ∀ d : Octet, (d.setWidth 32).setWidth 8 = d := fun d => by
    rw [BitVec.setWidth_setWidth_of_le d (by decide), BitVec.setWidth_eq]
  rw [← setWidth_eq_word, invSbox, td4sAt, hlow]

/-- One column of the state, substituted and mixed by the tables. -/
theorem te_columns (a b c d : Octet) :
    te0At (a.setWidth 32) ^^^ rotr (te0At (b.setWidth 32)) 8 ^^^
        rotr (te0At (c.setWidth 32)) 16 ^^^ rotr (te0At (d.setWidth 32)) 24
      = mixColumn (sbox a) (sbox b) (sbox c) (sbox d) := by
  simp only [te0At_octet, (rotr_word _ _ _ _).1, (rotr_word _ _ _ _).2.1,
    (rotr_word _ _ _ _).2.2, word_xor, mixColumn]

theorem td_columns (a b c d : Octet) :
    td0At (a.setWidth 32) ^^^ rotr (td0At (b.setWidth 32)) 8 ^^^
        rotr (td0At (c.setWidth 32)) 16 ^^^ rotr (td0At (d.setWidth 32)) 24
      = invMixColumn (invSbox a) (invSbox b) (invSbox c) (invSbox d) := by
  simp only [td0At_octet, (rotr_word _ _ _ _).1, (rotr_word _ _ _ _).2.1,
    (rotr_word _ _ _ _).2.2, word_xor, invMixColumn]

/-! ## Rounds of words -/

section Words

variable (a b c d : Octet)

theorem te_word : te0 (word a b c d) = te0At (a.setWidth 32) ∧
    te1 (word a b c d) = rotr (te0At (b.setWidth 32)) 8 ∧
    te2 (word a b c d) = rotr (te0At (c.setWidth 32)) 16 ∧
    te3 (word a b c d) = rotr (te0At (d.setWidth 32)) 24 := by
  obtain ⟨ha, hb, hc, hd⟩ := word_octets a b c d
  simp only [te0, te1, te2, te3, ha, hb, hc, hd, and_self]

theorem td_word : td0 (word a b c d) = td0At (a.setWidth 32) ∧
    td1 (word a b c d) = rotr (td0At (b.setWidth 32)) 8 ∧
    td2 (word a b c d) = rotr (td0At (c.setWidth 32)) 16 ∧
    td3 (word a b c d) = rotr (td0At (d.setWidth 32)) 24 := by
  obtain ⟨ha, hb, hc, hd⟩ := word_octets a b c d
  simp only [td0, td1, td2, td3, ha, hb, hc, hd, and_self]

theorem te4x_word : te41 (word a b c d) = word (sbox a) 0 0 0 ∧
    te42 (word a b c d) = word 0 (sbox b) 0 0 ∧ te43 (word a b c d) = word 0 0 (sbox c) 0 ∧
    te44 (word a b c d) = word 0 0 0 (sbox d) := by
  obtain ⟨ha, hb, hc, hd⟩ := word_octets a b c d
  have hmask : (0xff000000 : Word) = word 0xff 0 0 0 ∧ (0x00ff0000 : Word) = word 0 0xff 0 0 ∧
      (0x0000ff00 : Word) = word 0 0 0xff 0 ∧ (0x000000ff : Word) = word 0 0 0 0xff := by decide
  have hff : ∀ x : Octet, x &&& 0xff = x ∧ x &&& 0 = 0 :=
    fun x => ⟨BitVec.and_allOnes, BitVec.and_zero⟩
  simp only [te41, te42, te43, te44, ha, hb, hc, hd, te0At_octet]
  simp only [shiftLeft_word, shiftRight_word, hmask.1, hmask.2.1, hmask.2.2.1, hmask.2.2.2,
    word_and, (hff _).1, (hff _).2, and_self]

theorem td4x_word : td41 (word a b c d) = word (invSbox a) 0 0 0 ∧
    td42 (word a b c d) = word 0 (invSbox b) 0 0 ∧
    td43 (word a b c d) = word 0 0 (invSbox c) 0 ∧
    td44 (word a b c d) = word 0 0 0 (invSbox d) := by
  obtain ⟨ha, hb, hc, hd⟩ := word_octets a b c d
  have hleft : ∀ w : Word, w <<< 16 = w <<< 8 <<< 8 ∧ w <<< 24 = w <<< 8 <<< 8 <<< 8 :=
    fun w => ⟨BitVec.shiftLeft_add w 8 8, by
      rw [← BitVec.shiftLeft_add, ← BitVec.shiftLeft_add]⟩
  simp only [td41, td42, td43, td44, ha, hb, hc, hd, td4sAt_octet, (hleft _).1, (hleft _).2,
    shiftLeft_word, and_self]

theorem invMixWord_word : invMixWord (word a b c d) = invMixColumn a b c d := by
  obtain ⟨_, hb, hc, hd⟩ := word_octets a b c d
  have hff : ∀ x : Octet, x.setWidth 32 &&& (0xff : Word) = x.setWidth 32 := fun x => by
    rw [setWidth_eq_word]
    exact (word_octets 0 0 0 x).2.2.2.trans (setWidth_eq_word x)
  rw [invMixWord, word_high, hb, hc, hd, te4_octet, te4_octet, te4_octet, te4_octet, td0_, td1_,
    td2_, td3_, hff, hff, hff, hff, td_columns, inv_sbox, inv_sbox, inv_sbox, inv_sbox]

end Words

/-- One word, mixed. -/
def mixWord (w : Word) : Word :=
  mixColumn (w.extractLsb' 24 8) (w.extractLsb' 16 8) (w.extractLsb' 8 8) (w.extractLsb' 0 8)

theorem mixWord_word (a b c d : Octet) : mixWord (word a b c d) = mixColumn a b c d := by
  have ha := a.isLt
  have hb := b.isLt
  have hc := c.isLt
  have hd := d.isLt
  have hout : (word a b c d).extractLsb' 24 8 = a ∧ (word a b c d).extractLsb' 16 8 = b ∧
      (word a b c d).extractLsb' 8 8 = c ∧ (word a b c d).extractLsb' 0 8 = d := by
    refine ⟨?_, ?_, ?_, ?_⟩ <;> apply BitVec.eq_of_toNat_eq <;>
      simp only [BitVec.extractLsb'_toNat, toNat_word, Nat.shiftRight_eq_div_pow] <;> omega
  rw [mixWord, hout.1, hout.2.1, hout.2.2.1, hout.2.2.2]

/-! ## Mixing back -/

/-- Doubling respects exclusive or. -/
theorem x2_xor (a b : Octet) : x2 (a ^^^ b) = x2 a ^^^ x2 b := by
  have hself : ∀ k x : Octet, k ^^^ (k ^^^ x) = x := fun k x => by
    rw [← BitVec.xor_assoc, BitVec.xor_self, BitVec.zero_xor]
  simp only [x2, BitVec.shiftLeft_xor_distrib, BitVec.msb_xor]
  cases a.msb <;> cases b.msb
  · simp
  · simp
    ac_rfl
  · simp
    ac_rfl
  · simp
    exact (hself 0x1b (a <<< 1 ^^^ b <<< 1)).symm.trans (by ac_rfl)

theorem x3_xor (a b : Octet) : x3 (a ^^^ b) = x3 a ^^^ x3 b := by
  simp only [x3, x2_xor]
  ac_rfl

theorem x9_xor (a b : Octet) : x9 (a ^^^ b) = x9 a ^^^ x9 b := by
  simp only [x9, x2_xor]
  ac_rfl

theorem x11_xor (a b : Octet) : x11 (a ^^^ b) = x11 a ^^^ x11 b := by
  simp only [x11, x2_xor]
  ac_rfl

theorem x13_xor (a b : Octet) : x13 (a ^^^ b) = x13 a ^^^ x13 b := by
  simp only [x13, x2_xor]
  ac_rfl

theorem x14_xor (a b : Octet) : x14 (a ^^^ b) = x14 a ^^^ x14 b := by
  simp only [x14, x2_xor]
  ac_rfl

/-- The coefficients of the product of the two matrices. -/
theorem coefficients : ∀ a : Octet,
    x14 (x2 a) ^^^ x11 a ^^^ x13 a ^^^ x9 (x3 a) = a ∧
      x14 (x3 a) ^^^ x11 (x2 a) ^^^ x13 a ^^^ x9 a = 0 ∧
      x14 a ^^^ x11 (x3 a) ^^^ x13 (x2 a) ^^^ x9 a = 0 ∧
      x14 a ^^^ x11 a ^^^ x13 (x3 a) ^^^ x9 (x2 a) = 0 := by
  decide +kernel

/-- The first octet of a column that is mixed and mixed back; the others are the first ones of the
columns turned round. -/
theorem invMix_row (a b c d : Octet) :
    x14 (x2 a ^^^ x3 b ^^^ c ^^^ d) ^^^ x11 (a ^^^ x2 b ^^^ x3 c ^^^ d) ^^^
        x13 (a ^^^ b ^^^ x2 c ^^^ x3 d) ^^^ x9 (x3 a ^^^ b ^^^ c ^^^ x2 d) = a := by
  simp only [x14_xor, x11_xor, x13_xor, x9_xor]
  calc _ = (x14 (x2 a) ^^^ x11 a ^^^ x13 a ^^^ x9 (x3 a)) ^^^
        (x14 (x3 b) ^^^ x11 (x2 b) ^^^ x13 b ^^^ x9 b) ^^^
        (x14 c ^^^ x11 (x3 c) ^^^ x13 (x2 c) ^^^ x9 c) ^^^
        (x14 d ^^^ x11 d ^^^ x13 (x3 d) ^^^ x9 (x2 d)) := by ac_rfl
    _ = a := by
      rw [(coefficients a).1, (coefficients b).2.1, (coefficients c).2.2.1, (coefficients d).2.2.2]
      simp

theorem invMixWord_mixWord (w : Word) : invMixWord (mixWord w) = w := by
  obtain ⟨a, b, c, d, rfl⟩ := exists_word w
  have hb := invMix_row b c d a
  have hc := invMix_row c d a b
  have hd := invMix_row d a b c
  rw [mixWord_word, mixColumn, invMixWord_word, invMixColumn, invMix_row a b c d]
  congr 1
  · refine Eq.trans ?_ hb
    ac_rfl
  · refine Eq.trans ?_ hc
    ac_rfl
  · refine Eq.trans ?_ hd
    ac_rfl

theorem invMixWord_xor (w w' : Word) :
    invMixWord (w ^^^ w') = invMixWord w ^^^ invMixWord w' := by
  obtain ⟨a, b, c, d, rfl⟩ := exists_word w
  obtain ⟨a', b', c', d', rfl⟩ := exists_word w'
  rw [word_xor, invMixWord_word, invMixWord_word, invMixWord_word, invMixColumn, invMixColumn,
    invMixColumn, word_xor]
  simp only [x14_xor, x11_xor, x13_xor, x9_xor]
  congr 1 <;> ac_rfl

/-! ## Rounds of blocks -/

/-- The four words, mixed. -/
def mixBlock (s : Block) : Block :=
  ⟨mixWord s.s0, mixWord s.s1, mixWord s.s2, mixWord s.s3⟩

/-- The octets substituted and the rows shifted. -/
def subShift (s : Block) : Block := encLast s ⟨0, 0, 0, 0⟩

/-- The rows shifted back and the octets substituted back. -/
def invSubShift (s : Block) : Block := decLast s ⟨0, 0, 0, 0⟩

theorem addKey_self (s k : Block) : addKey (addKey s k) k = s := by
  simp [addKey, BitVec.xor_assoc]

theorem encLast_eq (s k : Block) : encLast s k = addKey (subShift s) k := by
  simp [encLast, subShift, addKey]

theorem decLast_eq (s k : Block) : decLast s k = addKey (invSubShift s) k := by
  simp [decLast, invSubShift, addKey]

section Octets

variable (a0 b0 c0 d0 a1 b1 c1 d1 a2 b2 c2 d2 a3 b3 c3 d3 : Octet)

theorem octet_xor_zero (x : Octet) : x ^^^ 0 = x ∧ 0 ^^^ x = x :=
  ⟨BitVec.xor_zero, BitVec.zero_xor⟩

theorem subShift_word :
    subShift ⟨word a0 b0 c0 d0, word a1 b1 c1 d1, word a2 b2 c2 d2, word a3 b3 c3 d3⟩
      = ⟨word (sbox a0) (sbox b1) (sbox c2) (sbox d3),
          word (sbox a1) (sbox b2) (sbox c3) (sbox d0),
          word (sbox a2) (sbox b3) (sbox c0) (sbox d1),
          word (sbox a3) (sbox b0) (sbox c1) (sbox d2)⟩ := by
  have hzero : (0 : Word) = word 0 0 0 0 := by decide
  simp only [subShift, encLast, (te4x_word _ _ _ _).1, (te4x_word _ _ _ _).2.1,
    (te4x_word _ _ _ _).2.2.1, (te4x_word _ _ _ _).2.2.2, hzero, word_xor, (octet_xor_zero _).1,
    (octet_xor_zero _).2]

theorem invSubShift_word :
    invSubShift ⟨word a0 b0 c0 d0, word a1 b1 c1 d1, word a2 b2 c2 d2, word a3 b3 c3 d3⟩
      = ⟨word (invSbox a0) (invSbox b3) (invSbox c2) (invSbox d1),
          word (invSbox a1) (invSbox b0) (invSbox c3) (invSbox d2),
          word (invSbox a2) (invSbox b1) (invSbox c0) (invSbox d3),
          word (invSbox a3) (invSbox b2) (invSbox c1) (invSbox d0)⟩ := by
  have hzero : (0 : Word) = word 0 0 0 0 := by decide
  simp only [invSubShift, decLast, (td4x_word _ _ _ _).1, (td4x_word _ _ _ _).2.1,
    (td4x_word _ _ _ _).2.2.1, (td4x_word _ _ _ _).2.2.2, hzero, word_xor, (octet_xor_zero _).1,
    (octet_xor_zero _).2]

end Octets

theorem invSubShift_subShift (s : Block) : invSubShift (subShift s) = s := by
  obtain ⟨s0, s1, s2, s3⟩ := s
  obtain ⟨a0, b0, c0, d0, rfl⟩ := exists_word s0
  obtain ⟨a1, b1, c1, d1, rfl⟩ := exists_word s1
  obtain ⟨a2, b2, c2, d2, rfl⟩ := exists_word s2
  obtain ⟨a3, b3, c3, d3, rfl⟩ := exists_word s3
  simp only [subShift_word, invSubShift_word, inv_sbox]

theorem invMixKey_mixBlock (s : Block) : invMixKey (mixBlock s) = s := by
  simp only [invMixKey, mixBlock, invMixWord_mixWord]

theorem invMixKey_addKey (s k : Block) :
    invMixKey (addKey s k) = addKey (invMixKey s) (invMixKey k) := by
  simp only [invMixKey, addKey, invMixWord_xor]

theorem encRound_eq :
    encRound = IteratedCipher.round addKey subShift mixBlock := by
  funext s k
  obtain ⟨s0, s1, s2, s3⟩ := s
  obtain ⟨a0, b0, c0, d0, rfl⟩ := exists_word s0
  obtain ⟨a1, b1, c1, d1, rfl⟩ := exists_word s1
  obtain ⟨a2, b2, c2, d2, rfl⟩ := exists_word s2
  obtain ⟨a3, b3, c3, d3, rfl⟩ := exists_word s3
  simp only [encRound, IteratedCipher.round, subShift_word, mixBlock, addKey,
    (te_word _ _ _ _).1, (te_word _ _ _ _).2.1, (te_word _ _ _ _).2.2.1, (te_word _ _ _ _).2.2.2,
    te_columns, mixWord_word]

theorem decRound_eq :
    decRound = IteratedCipher.round addKey invSubShift invMixKey := by
  funext s k
  obtain ⟨s0, s1, s2, s3⟩ := s
  obtain ⟨a0, b0, c0, d0, rfl⟩ := exists_word s0
  obtain ⟨a1, b1, c1, d1, rfl⟩ := exists_word s1
  obtain ⟨a2, b2, c2, d2, rfl⟩ := exists_word s2
  obtain ⟨a3, b3, c3, d3, rfl⟩ := exists_word s3
  simp only [decRound, IteratedCipher.round, invSubShift_word, invMixKey, addKey,
    (td_word _ _ _ _).1, (td_word _ _ _ _).2.1, (td_word _ _ _ _).2.2.1, (td_word _ _ _ _).2.2.2,
    td_columns, invMixWord_word]

/-! ## Bytes -/

theorem getU32_eq (pt : List UInt8) (i : ℕ) :
    getU32 pt i = word (pt.getD i 0).toBitVec (pt.getD (i + 1) 0).toBitVec
      (pt.getD (i + 2) 0).toBitVec (pt.getD (i + 3) 0).toBitVec := by
  have hleft : ∀ w : Word, w <<< 16 = w <<< 8 <<< 8 ∧ w <<< 24 = w <<< 8 <<< 8 <<< 8 :=
    fun w => ⟨BitVec.shiftLeft_add w 8 8, by
      rw [← BitVec.shiftLeft_add, ← BitVec.shiftLeft_add]⟩
  simp only [getU32, (hleft _).1, (hleft _).2, setWidth_eq_word, shiftLeft_word, word_xor,
    (octet_xor_zero _).1, (octet_xor_zero _).2]

theorem putU32_word (a b c d : Octet) : putU32 (word a b c d) = [⟨a⟩, ⟨b⟩, ⟨c⟩, ⟨d⟩] := by
  have ha := a.isLt
  have hb := b.isLt
  have hc := c.isLt
  have hd := d.isLt
  have hout : (word a b c d >>> 24).setWidth 8 = a ∧ (word a b c d >>> 16).setWidth 8 = b ∧
      (word a b c d >>> 8).setWidth 8 = c ∧ (word a b c d).setWidth 8 = d := by
    refine ⟨?_, ?_, ?_, ?_⟩ <;> apply BitVec.eq_of_toNat_eq <;>
      simp only [BitVec.toNat_setWidth, BitVec.toNat_ushiftRight, toNat_word,
        Nat.shiftRight_eq_div_pow] <;> omega
  rw [putU32, hout.1, hout.2.1, hout.2.2.1, hout.2.2.2]

theorem getBlock_putBlock (s : Block) : getBlock (putBlock s) = s := by
  obtain ⟨s0, s1, s2, s3⟩ := s
  obtain ⟨a0, b0, c0, d0, rfl⟩ := exists_word s0
  obtain ⟨a1, b1, c1, d1, rfl⟩ := exists_word s1
  obtain ⟨a2, b2, c2, d2, rfl⟩ := exists_word s2
  obtain ⟨a3, b3, c3, d3, rfl⟩ := exists_word s3
  simp only [getBlock, putBlock, putU32_word, getU32_eq]
  rfl

theorem putBlock_getBlock {pt : List UInt8} (h : pt.length = 16) :
    putBlock (getBlock pt) = pt := by
  simp only [getBlock, putBlock, putU32_word, getU32_eq]
  match pt, h with
  | [_, _, _, _, _, _, _, _, _, _, _, _, _, _, _, _], _ => rfl

@[simp] theorem length_putBlock (s : Block) : (putBlock s).length = 16 := rfl

/-! ## Keys -/

/-- The schedule for encryption. -/
theorem rijndaelKeySetupEnc_eq (key : List UInt8) : ∃ k0 k1 k2 k3 k4 k5 k6 k7 k8 k9 k10,
    rijndaelKeySetupEnc key = [k0, k1, k2, k3, k4, k5, k6, k7, k8, k9, k10] :=
  ⟨_, _, _, _, _, _, _, _, _, _, _, rfl⟩

/-- The schedule for decryption: the keys of the other one turned round, and those of the full
rounds mixed back. -/
theorem rijndaelKeySetupDec_eq {key : List UInt8} {k0 k1 k2 k3 k4 k5 k6 k7 k8 k9 k10 : Block}
    (h : rijndaelKeySetupEnc key = [k0, k1, k2, k3, k4, k5, k6, k7, k8, k9, k10]) :
    rijndaelKeySetupDec key
      = k10 :: ([k1, k2, k3, k4, k5, k6, k7, k8, k9].reverse.map invMixKey ++ [k0]) := by
  have hreverse : reverseKeys 0 nr (rijndaelKeySetupEnc key)
      = [k10, k9, k8, k7, k6, k5, k4, k3, k2, k1, k0] := by
    rw [h]
    simp [reverseKeys, swapKeys, nr]
  rw [rijndaelKeySetupDec, hreverse]
  rfl

theorem rijndaelEncrypt_eq (k0 k1 k2 k3 k4 k5 k6 k7 k8 k9 k10 : Block) (pt : List UInt8) :
    rijndaelEncrypt [k0, k1, k2, k3, k4, k5, k6, k7, k8, k9, k10] pt
      = putBlock (IteratedCipher.apply addKey subShift mixBlock k0
          [k1, k2, k3, k4, k5, k6, k7, k8, k9] k10 (getBlock pt)) := by
  simp only [rijndaelEncrypt, nr, roundLoop, encRound_eq, encLast_eq]
  rfl

theorem rijndaelDecrypt_eq (k0 k1 k2 k3 k4 k5 k6 k7 k8 k9 k10 : Block) (ct : List UInt8) :
    rijndaelDecrypt [k0, k1, k2, k3, k4, k5, k6, k7, k8, k9, k10] ct
      = putBlock (IteratedCipher.apply addKey invSubShift invMixKey k0
          [k1, k2, k3, k4, k5, k6, k7, k8, k9] k10 (getBlock ct)) := by
  simp only [rijndaelDecrypt, nr, roundLoop, decRound_eq, decLast_eq]
  rfl

@[simp] theorem length_aesEncrypt (key plain : List UInt8) : (aesEncrypt key plain).length = 16 :=
  length_putBlock _

@[simp] theorem length_aesDecrypt (key crypt : List UInt8) : (aesDecrypt key crypt).length = 16 :=
  length_putBlock _

/-- `aes_decrypt` inverts `aes_encrypt`, for every key and every block of sixteen bytes. -/
theorem aesDecrypt_aesEncrypt (key : List UInt8) {plain : List UInt8} (h : plain.length = 16) :
    aesDecrypt key (aesEncrypt key plain) = plain := by
  obtain ⟨k0, k1, k2, k3, k4, k5, k6, k7, k8, k9, k10, henc⟩ := rijndaelKeySetupEnc_eq key
  rw [aesEncrypt, aesDecrypt, rijndaelKeySetupDec_eq henc, henc, rijndaelEncrypt_eq]
  show rijndaelDecrypt [k10, invMixKey k9, invMixKey k8, invMixKey k7, invMixKey k6, invMixKey k5,
    invMixKey k4, invMixKey k3, invMixKey k2, invMixKey k1, k0] _ = plain
  rw [rijndaelDecrypt_eq, getBlock_putBlock]
  have hinverse := IteratedCipher.apply_apply invSubShift_subShift invMixKey_mixBlock
    invMixKey_addKey addKey_self k0 [k1, k2, k3, k4, k5, k6, k7, k8, k9] k10 (getBlock plain)
  rw [show [invMixKey k9, invMixKey k8, invMixKey k7, invMixKey k6, invMixKey k5, invMixKey k4,
    invMixKey k3, invMixKey k2, invMixKey k1]
      = [k1, k2, k3, k4, k5, k6, k7, k8, k9].reverse.map invMixKey from rfl, hinverse]
  exact putBlock_getBlock h

/-- `aes_encrypt` inverts `aes_decrypt`: the blocks are finitely many, so that an injective map of
them is onto. -/
theorem aesEncrypt_aesDecrypt (key : List UInt8) {crypt : List UInt8} (h : crypt.length = 16) :
    aesEncrypt key (aesDecrypt key crypt) = crypt := by
  have : Finite UInt8 := Finite.of_injective UInt8.toFin fun _ _ => UInt8.toFin_inj.mp
  have hleft : Set.LeftInvOn (aesDecrypt key) (aesEncrypt key) {b | b.length = 16} :=
    fun _ hb => aesDecrypt_aesEncrypt key hb
  have hbij := ((List.finite_length_eq UInt8 16).injOn_iff_bijOn_of_mapsTo
    fun b _ => length_aesEncrypt key b).mp hleft.injOn
  obtain ⟨b, hb, rfl⟩ := hbij.surjOn h
  rw [hleft hb]

/-- For every key `aes_encrypt` permutes the blocks of sixteen bytes, and `aes_decrypt` is its
inverse on both sides. -/
theorem aes_bijOn (key : List UInt8) :
    Set.BijOn (aesEncrypt key) {b | b.length = 16} {b | b.length = 16} ∧
      Set.InvOn (aesDecrypt key) (aesEncrypt key) {b | b.length = 16} {b | b.length = 16} := by
  have hinv : Set.InvOn (aesDecrypt key) (aesEncrypt key) {b | b.length = 16} {b | b.length = 16} :=
    ⟨fun _ hb => aesDecrypt_aesEncrypt key hb, fun _ hc => aesEncrypt_aesDecrypt key hc⟩
  exact ⟨hinv.bijOn (fun b _ => length_aesEncrypt key b) (fun c _ => length_aesDecrypt key c), hinv⟩

end Fullmac.Crypto
