import Fullmac.Crypto.AesInverse
import Fullmac.Crypto.Sha1
import Fullmac.Lib.Blocks

/-!
# The hash of a message

Reference: `host/ap/crypto/sha1-internal.c`.

The hash function as the standard states it, with the schedule of all eighty words, the choice and
the majority function, and a message that is padded as a whole (`Fips.sha1`). The code keeps sixteen
words of the schedule and overwrites them, has other formulas for the two functions, and takes a
message in pieces. It gives the same hash, however the message is cut (`sha1Vector_eq`).
-/

namespace Fullmac.Crypto

open Blocks

/-! ## The standard -/

namespace Fips

/-- `f_t`. -/
def f (t : ℕ) (x y z : Word) : Word :=
  if t < 20 then (x &&& y) ^^^ (~~~x &&& z)
  else if t < 40 then x ^^^ y ^^^ z
  else if t < 60 then (x &&& y) ^^^ (x &&& z) ^^^ (y &&& z)
  else x ^^^ y ^^^ z

/-- `K_t`. -/
def k (t : ℕ) : Word :=
  if t < 20 then 0x5A827999
  else if t < 40 then 0x6ED9EBA1
  else if t < 60 then 0x8F1BBCDC
  else 0xCA62C1D6

/-- `W_t` of the block `m`. -/
def w (m : List UInt8) (t : ℕ) : Word :=
  if 16 ≤ t then rol (w m (t - 3) ^^^ w m (t - 8) ^^^ w m (t - 14) ^^^ w m (t - 16)) 1
  else getU32 m (4 * t)

/-- Step `t`. -/
def step (m : List UInt8) (v : Chain) (t : ℕ) : Chain :=
  ⟨rol v.a 5 + f t v.b v.c v.d + v.e + k t + w m t, v.a, rol v.b 30, v.c, v.d⟩

/-- The next hash value. -/
def compress (h : Chain) (m : List UInt8) : Chain :=
  let v := (List.range 80).foldl (step m) h
  ⟨h.a + v.a, h.b + v.b, h.c + v.c, h.d + v.d, h.e + v.e⟩

/-- The initial hash value. -/
def init : Chain := ⟨0x67452301, 0xEFCDAB89, 0x98BADCFE, 0x10325476, 0xC3D2E1F0⟩

/-- The length of a message in bits, in eight bytes. -/
def lengthField (m : List UInt8) : List UInt8 :=
  let l : BitVec 64 := BitVec.ofNat 64 (8 * m.length)
  putU32 (l.extractLsb' 32 32) ++ putU32 (l.setWidth 32)

/-- A message is padded with a one, with zeros and with its length. -/
def pad (m : List UInt8) : List UInt8 :=
  m ++ 0x80 :: List.replicate ((119 - m.length % 64) % 64) 0 ++ lengthField m

/-- The bytes of a hash value. -/
def digest (h : Chain) : List UInt8 :=
  putU32 h.a ++ putU32 h.b ++ putU32 h.c ++ putU32 h.d ++ putU32 h.e

/-- The hash of a message. -/
def sha1 (m : List UInt8) : List UInt8 := digest (absorb 64 compress init (pad m))

end Fips

/-! ## The schedule in sixteen words -/

theorem and_15 (i : ℕ) : i &&& 15 = i % 16 := Nat.and_two_pow_sub_one_eq_mod i 4

theorem rol_eq_rotr (x : Word) {n : ℕ} (h : n ≤ 32) : rol x n = rotr x (32 - n) := by
  rw [rol, rotr, BitVec.or_comm, show 32 - (32 - n) = n by omega]

/-- A word of a little-endian machine, in the other byte order. -/
theorem swap_word (a b c d : Octet) :
    (rol (word d c b a) 24 &&& 0xff00ff00) ||| (rol (word d c b a) 8 &&& 0x00ff00ff)
      = word a b c d := by
  have hand : ∀ x : Octet, x &&& 0xff = x ∧ x &&& 0 = 0 := by decide
  have hor : ∀ x : Octet, x ||| 0 = x ∧ 0 ||| x = x := by decide
  rw [rol_eq_rotr _ (by decide), rol_eq_rotr _ (by decide), (rotr_word d c b a).1,
    (rotr_word d c b a).2.2, show (0xff00ff00 : Word) = word 0xff 0 0xff 0 from rfl,
    show (0x00ff00ff : Word) = word 0 0xff 0 0xff from rfl, word_and, word_and, word_or]
  simp only [hand, hor]

/-- The schedule after `n` rounds: the last sixteen words, and the words that are not yet in the
other byte order. -/
structure Scheduled (m : List UInt8) (n : ℕ) (block : List Word) : Prop where
  length : block.length = 16
  done : ∀ i, i < n → n ≤ i + 16 → block.getD (i % 16) 0 = Fips.w m i
  raw : ∀ i, n ≤ i → i < 16 → block.getD i 0 = (workspace m).getD i 0

theorem Fips.w_of_lt {m : List UInt8} {t : ℕ} (h : t < 16) : Fips.w m t = getU32 m (4 * t) := by
  rw [Fips.w, if_neg (by omega)]

theorem Fips.w_of_le {m : List UInt8} {t : ℕ} (h : 16 ≤ t) : Fips.w m t =
    rol (Fips.w m (t - 3) ^^^ Fips.w m (t - 8) ^^^ Fips.w m (t - 14) ^^^ Fips.w m (t - 16)) 1 := by
  rw [Fips.w, if_pos h]

theorem getD_workspace (m : List UInt8) {i : ℕ} (h : i < 16) : (workspace m).getD i 0 =
    word (m.getD (4 * i + 3) 0).toBitVec (m.getD (4 * i + 2) 0).toBitVec
      (m.getD (4 * i + 1) 0).toBitVec (m.getD (4 * i) 0).toBitVec := by
  rw [List.getD_eq_getElem?_getD, workspace, List.getElem?_map, List.getElem?_range h]
  rfl

theorem getD_set {l : List Word} {j : ℕ} (hj : j < l.length) (w : Word) (i : ℕ) :
    (l.set j w).getD i 0 = if i = j then w else l.getD i 0 := by
  rw [List.getD_eq_getElem?_getD, List.getD_eq_getElem?_getD, List.getElem?_set]
  by_cases hij : j = i
  · subst hij
    rw [if_pos rfl, if_pos hj, if_pos rfl, Option.getD_some]
  · rw [if_neg hij, if_neg (Ne.symm hij)]

theorem scheduled_zero (m : List UInt8) : Scheduled m 0 (workspace m) where
  length := by rw [workspace, List.length_map, List.length_range]
  done i hi _ := absurd hi (Nat.not_lt_zero i)
  raw _ _ _ := rfl

/-- Putting a word in the place of round `n`. -/
theorem Scheduled.set {m : List UInt8} {n : ℕ} {block : List Word} (h : Scheduled m n block)
    {v : Word} (hv : v = Fips.w m n) : Scheduled m (n + 1) (block.set (n % 16) v) := by
  have hpos : n % 16 < block.length := by rw [h.length]; omega
  refine ⟨by rw [List.length_set, h.length], fun i hi hn => ?_, fun i hi h16 => ?_⟩
  · rw [getD_set hpos]
    rcases Nat.lt_succ_iff_lt_or_eq.mp hi with hlt | rfl
    · rw [if_neg (by omega)]
      exact h.done i hlt (by omega)
    · rw [if_pos rfl, hv]
  · rw [getD_set hpos, if_neg (by omega)]
    exact h.raw i (by omega) h16

/-- The word of round `n` is the one of the standard. -/
theorem Scheduled.roundWord {m : List UInt8} {n : ℕ} {block : List Word}
    (h : Scheduled m n block) : (roundWord block n).1 = Fips.w m n ∧
      Scheduled m (n + 1) (roundWord block n).2 := by
  rcases Nat.lt_or_ge n 16 with hlt | hge
  · have hword : (blk0 block n).1 = Fips.w m n := by
      show (rol (block.getD n 0) 24 &&& _) ||| (rol (block.getD n 0) 8 &&& _) = _
      rw [h.raw n (Nat.le_refl n) hlt, getD_workspace m hlt, swap_word, Fips.w_of_lt hlt, getU32_eq]
    rw [Crypto.roundWord, if_pos hlt]
    refine ⟨hword, ?_⟩
    have hset := h.set hword
    rwa [Nat.mod_eq_of_lt hlt] at hset
  · have hword : (blk block n).1 = Fips.w m n := by
      have hback : ∀ d, 0 < d → d ≤ 16 → ∀ j, j = (n - d) % 16 →
          block.getD j 0 = Fips.w m (n - d) := fun d h0 h16 j hj => by
        rw [hj, h.done (n - d) (by omega) (by omega)]
      show rol _ 1 = _
      rw [Fips.w_of_le hge, and_15, and_15, and_15, and_15,
        hback 3 (by decide) (by decide) _ (by omega), hback 8 (by decide) (by decide) _ (by omega),
        hback 14 (by decide) (by decide) _ (by omega),
        hback 16 (by decide) (by decide) _ (by omega)]
    rw [Crypto.roundWord, if_neg (by omega)]
    refine ⟨hword, ?_⟩
    have hset := h.set hword
    rwa [← and_15] at hset

/-! ## The rounds -/

theorem roundTerm_eq (x y z : Word) (t : ℕ) : roundTerm x y z t = (Fips.f t x y z, Fips.k t) := by
  have hch : (x &&& (y ^^^ z)) ^^^ z = (x &&& y) ^^^ (~~~x &&& z) := by
    apply BitVec.eq_of_getLsbD_eq
    intro i hi
    simp only [BitVec.getLsbD_xor, BitVec.getLsbD_and, BitVec.getLsbD_not, hi, decide_true]
    cases x.getLsbD i <;> cases y.getLsbD i <;> cases z.getLsbD i <;> rfl
  have hmaj : ((x ||| y) &&& z) ||| (x &&& y) = (x &&& y) ^^^ (x &&& z) ^^^ (y &&& z) := by
    apply BitVec.eq_of_getLsbD_eq
    intro i _
    simp only [BitVec.getLsbD_xor, BitVec.getLsbD_and, BitVec.getLsbD_or]
    cases x.getLsbD i <;> cases y.getLsbD i <;> cases z.getLsbD i <;> rfl
  rw [roundTerm, Fips.f, Fips.k, hch, hmaj]
  split_ifs <;> rfl

theorem sha1Round_eq {m : List UInt8} {n : ℕ} {block : List Word} (v : Chain)
    (h : Scheduled m n block) : (sha1Round (v, block) n).1 = Fips.step m v n ∧
      Scheduled m (n + 1) (sha1Round (v, block) n).2 := by
  obtain ⟨hword, hnext⟩ := h.roundWord
  have hsum : v.e + (Fips.f n v.b v.c v.d + Fips.w m n + Fips.k n + rol v.a 5)
      = rol v.a 5 + Fips.f n v.b v.c v.d + v.e + Fips.k n + Fips.w m n := by ac_rfl
  refine ⟨?_, hnext⟩
  rw [sha1Round, roundTerm_eq, hword]
  exact congrArg (fun a => (⟨a, v.a, rol v.b 30, v.c, v.d⟩ : Chain)) hsum

theorem foldl_sha1Round (m : List UInt8) (v : Chain) (n : ℕ) :
    ((List.range n).foldl sha1Round (v, workspace m)).1 = (List.range n).foldl (Fips.step m) v ∧
      Scheduled m n ((List.range n).foldl sha1Round (v, workspace m)).2 := by
  induction n with
  | zero => exact ⟨rfl, scheduled_zero m⟩
  | succ n ih =>
    rw [List.range_succ, List.foldl_append, List.foldl_append, List.foldl_cons, List.foldl_nil,
      List.foldl_cons, List.foldl_nil, ← ih.1]
    exact sha1Round_eq _ ih.2

theorem sha1Transform_eq : sha1Transform = Fips.compress := by
  funext h m
  rw [sha1Transform, Fips.compress, (foldl_sha1Round m h 80).1]

/-! ## The pieces -/

/-- A block is not empty. -/
theorem block_pos : 0 < 64 := by decide

theorem transformBlocks_eq (h : Chain) (data : List UInt8) :
    transformBlocks h data = (absorb 64 Fips.compress h data, rest 64 data) := by
  rw [transformBlocks]
  split
  case isTrue hlt =>
    rw [absorb_of_le block_pos hlt, rest_of_le block_pos hlt, ← sha1Transform_eq]
    rw [transformBlocks_eq, sha1Transform_eq]
  case isFalse hge => rw [absorb_of_lt (by omega), rest_of_lt (by omega)]
termination_by data.length
decreasing_by rw [List.length_drop]; omega

/-- The context has taken in the message `m`. -/
structure Absorbed (ctx : Sha1Ctx) (m : List UInt8) : Prop where
  state : ctx.state = absorb 64 Fips.compress Fips.init m
  count : ctx.count1 ++ ctx.count0 = BitVec.ofNat 64 (8 * m.length)
  length : ctx.buffer.length = 64
  buffer : ctx.buffer.take (m.length % 64) = rest 64 m

theorem absorbed_nil (junk : {l : List UInt8 // l.length = 64}) :
    Absorbed (sha1Init junk) [] where
  state := by rw [absorb_of_lt (by decide)]; rfl
  count := show (0 : Word) ++ (0 : Word) = 0#64 by decide
  length := junk.2
  buffer := rfl

/-- The two words of the count, with the carry, are one number. -/
theorem append_add (c1 c0 : Word) (len : ℕ) :
    (c1 + (if c0 + BitVec.ofNat 32 len <<< 3 < BitVec.ofNat 32 len <<< 3 then (1 : Word) else 0)
        + BitVec.ofNat 32 (len >>> 29)) ++ (c0 + BitVec.ofNat 32 len <<< 3)
      = (c1 ++ c0 : BitVec 64) + BitVec.ofNat 64 (8 * len) := by
  have happend : ∀ a b : Word, (a ++ b).toNat = 4294967296 * a.toNat + b.toNat := fun a b => by
    rw [BitVec.toNat_append, ← Nat.shiftLeft_add_eq_or_of_lt b.isLt, Nat.shiftLeft_eq, Nat.mul_comm]
  have hbits : (BitVec.ofNat 32 len <<< 3 : Word).toNat = 8 * len % 4294967296 := by
    rw [BitVec.toNat_shiftLeft, BitVec.toNat_ofNat, Nat.shiftLeft_eq]
    omega
  have hcarry : (if c0 + BitVec.ofNat 32 len <<< 3 < BitVec.ofNat 32 len <<< 3 then (1 : Word)
      else 0).toNat = (c0.toNat + 8 * len % 4294967296) / 4294967296 := by
    have h0 := c0.isLt
    split_ifs with h
    all_goals rw [BitVec.lt_def, BitVec.toNat_add, hbits] at h
    · show 1 = _
      omega
    · show 0 = _
      omega
  apply BitVec.eq_of_toNat_eq
  rw [happend, BitVec.toNat_add (c1 ++ c0), happend, BitVec.toNat_add, BitVec.toNat_add, hcarry,
    BitVec.toNat_add, hbits, BitVec.toNat_ofNat, BitVec.toNat_ofNat, Nat.shiftRight_eq_div_pow]
  omega

/-- `j`, the number of bytes in the buffer. -/
theorem Absorbed.position {ctx : Sha1Ctx} {m : List UInt8} (h : Absorbed ctx m) :
    ((ctx.count0 >>> 3) &&& 63).toNat = m.length % 64 := by
  have hlow : ctx.count0 = (ctx.count1 ++ ctx.count0).setWidth 32 := by
    rw [BitVec.setWidth_append]
    simp
  rw [h.count] at hlow
  rw [hlow, BitVec.toNat_and, BitVec.toNat_ushiftRight, BitVec.toNat_setWidth, BitVec.toNat_ofNat]
  show _ &&& 63 = _
  rw [show (63 : ℕ) = 2 ^ 6 - 1 from rfl, Nat.and_two_pow_sub_one_eq_mod,
    Nat.shiftRight_eq_div_pow]
  omega

theorem length_copyIn {buffer data : List UInt8} {j : ℕ} (h : j + data.length ≤ buffer.length) :
    (copyIn buffer j data).length = buffer.length := by
  rw [copyIn, List.length_append, List.length_append, List.length_take, List.length_drop]
  omega

theorem take_copyIn {buffer data : List UInt8} {j : ℕ} (h : j + data.length ≤ buffer.length) :
    (copyIn buffer j data).take (j + data.length) = buffer.take j ++ data := by
  rw [copyIn]
  apply List.take_left'
  rw [List.length_append, List.length_take]
  omega

/-- A piece that fills the buffer: the first block is the bytes in the buffer and the start of the
piece. -/
theorem Absorbed.update_of_lt {ctx : Sha1Ctx} {m : List UInt8} (h : Absorbed ctx m)
    {data : List UInt8} (hmany : 63 < m.length % 64 + data.length) :
    (sha1Update ctx data).state = absorb 64 Fips.compress ctx.state (rest 64 m ++ data) ∧
      ∃ buffer : List UInt8, buffer.length = 64 ∧
        (sha1Update ctx data).buffer = copyIn buffer 0 (rest 64 (rest 64 m ++ data)) := by
  have hlen := h.length
  have hrest : (rest 64 m).length = m.length % 64 := length_rest m
  rw [sha1Update, h.position, if_pos hmany, sha1Transform_eq]
  by_cases hj : m.length % 64 = 0
  · rw [hj] at hrest ⊢
    rw [List.length_eq_zero_iff.mp hrest, List.nil_append]
    show (transformBlocks ctx.state data).1 = _ ∧ ∃ buffer : List UInt8, buffer.length = 64 ∧
      copyIn ctx.buffer 0 (transformBlocks ctx.state data).2 = _
    rw [transformBlocks_eq]
    exact ⟨rfl, ctx.buffer, h.length, rfl⟩
  · simp only [if_pos hj, ne_eq, transformBlocks_eq]
    have htake : (data.take (64 - m.length % 64)).length = 64 - m.length % 64 :=
      List.length_take_of_le (by omega)
    have hfit : m.length % 64 + (data.take (64 - m.length % 64)).length ≤ ctx.buffer.length := by
      omega
    have hblock : copyIn ctx.buffer (m.length % 64) (data.take (64 - m.length % 64))
        = rest 64 m ++ data.take (64 - m.length % 64) := by
      have hall := take_copyIn hfit
      rwa [List.take_of_length_le (by rw [length_copyIn hfit]; omega), h.buffer] at hall
    have hfull : (rest 64 m ++ data.take (64 - m.length % 64)).length = 64 := by
      rw [List.length_append]
      omega
    have hdata : rest 64 m ++ data = (rest 64 m ++ data.take (64 - m.length % 64)) ++
        data.drop (64 - m.length % 64) := by
      rw [List.append_assoc, List.take_append_drop]
    rw [hblock, hdata, absorb_block_append block_pos hfull,
      rest_block_append block_pos hfull]
    exact ⟨rfl, _, hfull, rfl⟩

/-- A piece that does not fill the buffer. -/
theorem Absorbed.update_of_le {ctx : Sha1Ctx} {m : List UInt8} (h : Absorbed ctx m)
    {data : List UInt8} (hfew : m.length % 64 + data.length ≤ 63) :
    (sha1Update ctx data).state = ctx.state ∧
      (sha1Update ctx data).buffer = copyIn ctx.buffer (m.length % 64) data := by
  rw [sha1Update, h.position, if_neg (by omega)]
  exact ⟨rfl, rfl⟩

/-- The bytes of a piece are taken in behind those that came before. -/
theorem Absorbed.update {ctx : Sha1Ctx} {m : List UInt8} (h : Absorbed ctx m)
    (data : List UInt8) : Absorbed (sha1Update ctx data) (m ++ data) := by
  have hcount : (sha1Update ctx data).count1 ++ (sha1Update ctx data).count0
      = BitVec.ofNat 64 (8 * (m ++ data).length) := by
    rw [List.length_append, Nat.mul_add, BitVec.ofNat_add, ← h.count, ← append_add, sha1Update]
    split <;> rfl
  have hlen := h.length
  have hrest : (rest 64 m).length = m.length % 64 := length_rest m
  have hleft : (rest 64 (m ++ data)).length = (m ++ data).length % 64 := length_rest _
  rcases Nat.lt_or_ge 63 (m.length % 64 + data.length) with hmany | hfew
  · obtain ⟨hstate, buffer, hbuffer, hcopy⟩ := h.update_of_lt hmany
    rw [← rest_append block_pos] at hcopy
    have hfit : 0 + (rest 64 (m ++ data)).length ≤ buffer.length := by omega
    refine ⟨?_, hcount, ?_, ?_⟩
    · rw [hstate, h.state, ← absorb_append block_pos]
    · rw [hcopy, length_copyIn hfit, hbuffer]
    · have htake := take_copyIn hfit
      rwa [List.take_zero, List.nil_append, Nat.zero_add, hleft, ← hcopy] at htake
  · obtain ⟨hstate, hcopy⟩ := h.update_of_le hfew
    have hshort : (rest 64 m ++ data).length < 64 := by rw [List.length_append]; omega
    refine ⟨?_, hcount, ?_, ?_⟩
    · rw [hstate, absorb_append block_pos, absorb_of_lt hshort, h.state]
    · rw [hcopy, length_copyIn (by omega), h.length]
    · have htake : (copyIn ctx.buffer (m.length % 64) data).take (m.length % 64 + data.length)
          = ctx.buffer.take (m.length % 64) ++ data := take_copyIn (by omega)
      rw [rest_append block_pos, rest_of_lt hshort, ← h.buffer, ← htake, hcopy, List.length_append,
        show (m.length + data.length) % 64 = m.length % 64 + data.length by omega]

/-! ## The end of the message -/

theorem Absorbed.finalcount {ctx : Sha1Ctx} {m : List UInt8} (h : Absorbed ctx m) :
    finalcount ctx = Fips.lengthField m := by
  have hhigh : (ctx.count1 ++ ctx.count0).extractLsb' 32 32 = ctx.count1 := by
    apply BitVec.eq_of_getLsbD_eq
    intro i hi
    rw [BitVec.getLsbD_extractLsb', BitVec.getLsbD_append]
    simp [hi]
  have hlow : (ctx.count1 ++ ctx.count0).setWidth 32 = ctx.count0 := by
    rw [BitVec.setWidth_append]
    simp
  rw [Crypto.finalcount, Fips.lengthField, ← h.count, hhigh, hlow]

/-- The padding that `SHA1Final` takes from `sha1_padding`. -/
theorem Absorbed.padding {ctx : Sha1Ctx} {m : List UInt8} (h : Absorbed ctx m) :
    sha1Padding.take (1 + (63 &&& (55 - ((ctx.count0 >>> 3) &&& 63)) : Word).toNat)
      = 0x80 :: List.replicate ((119 - m.length % 64) % 64) 0 := by
  have hlen : (63 &&& (55 - ((ctx.count0 >>> 3) &&& 63)) : Word).toNat
      = (119 - m.length % 64) % 64 := by
    rw [BitVec.toNat_and, BitVec.toNat_sub, h.position]
    show 63 &&& _ = _
    rw [Nat.and_comm, show (63 : ℕ) = 2 ^ 6 - 1 from rfl, Nat.and_two_pow_sub_one_eq_mod]
    show (4294967296 - m.length % 64 + 55) % 4294967296 % 64 = _
    omega
  rw [hlen, sha1Padding, Nat.add_comm, List.take_succ_cons, List.take_replicate]
  rw [Nat.min_eq_left (by omega)]

theorem Absorbed.final {ctx : Sha1Ctx} {m : List UInt8} (h : Absorbed ctx m) :
    sha1Final ctx = Fips.sha1 m := by
  have hend := (h.update (0x80 :: List.replicate ((119 - m.length % 64) % 64) 0)).update
    (Fips.lengthField m)
  rw [sha1Final, h.padding, h.finalcount, Fips.sha1, Fips.pad, ← hend.state]
  rfl

theorem foldl_update {ctx : Sha1Ctx} {m : List UInt8} (h : Absorbed ctx m)
    (pieces : List (List UInt8)) :
    Absorbed (pieces.foldl sha1Update ctx) (m ++ pieces.flatten) := by
  induction pieces generalizing ctx m with
  | nil => rwa [List.flatten_nil, List.append_nil]
  | cons data pieces ih =>
    rw [List.foldl_cons, List.flatten_cons, ← List.append_assoc]
    exact ih (h.update data)

/-- What `sha1_vector` gives is the hash of the message that its pieces make: however the message is
cut, and whatever the context held before. -/
theorem sha1Vector_eq (junk : {l : List UInt8 // l.length = 64}) (pieces : List (List UInt8)) :
    sha1Vector junk pieces = Fips.sha1 pieces.flatten :=
  (foldl_update (absorbed_nil junk) pieces).final

end Fullmac.Crypto
