import Fullmac.Crypto.Sha1Spec

/-!
# Keyed hashing and the pseudo-random function

Reference: `host/ap/crypto/sha1.c`, `gen_k_pad`, `prepare_hmac_sha1_vector`,
`exec_hmac_sha1_vector`, `hmac_sha1_vector`, `hmac_sha1`, `sha1_prf`.

The first block of either hash is the key, with a pattern added to it. `gen_k_pad` fills the words
behind the key first and then takes the key word by word where its address allows it; a key that is
longer than a block is hashed before. The two blocks are kept in a static buffer, and a call without
a key goes on with them.

Whatever the address of the key and whatever the buffer held, the outcome is the keyed hash of the
standard (`Fips.hmac`), and the pseudo-random function is the keyed hashes of a counter, one behind
the other.
-/

namespace Fullmac.Crypto

/-! ## The code -/

/-- The bytes of a word of a little-endian machine. -/
def leBytes (w : Word) : List UInt8 := (putU32 w).reverse

/-- The word at `i` in the memory of a little-endian machine. -/
def leWord (l : List UInt8) (i : ℕ) : Word :=
  (l.getD (i + 3) 0).toBitVec ++ (l.getD (i + 2) 0).toBitVec ++ (l.getD (i + 1) 0).toBitVec ++
    (l.getD i 0).toBitVec

/-- `gen_k_pad`. The address of the key is a multiple of four if `aligned`. -/
def genKPad (aligned : Bool) (key kPad : List UInt8) (pattern : Word) : List UInt8 :=
  let wordCnt := key.length / 4
  let filled := (List.range' wordCnt (16 - wordCnt)).foldl
    (fun buf i => copyIn buf (4 * i) (leBytes pattern)) kPad
  let s :=
    if aligned then
      ((List.range' 0 wordCnt).foldl
        (fun buf i => copyIn buf (4 * i) (leBytes (pattern ^^^ leWord key (4 * i)))) filled,
        4 * wordCnt)
    else (filled, 0)
  (List.range' s.2 (key.length - s.2)).foldl
    (fun buf i => copyIn buf (1 * i) [key.getD i 0 ^^^ ⟨pattern.setWidth 8⟩]) s.1

section

variable (junk : {l : List UInt8 // l.length = 64}) (aligned : Bool)

/-- `prepare_hmac_sha1_vector`. -/
def prepareHmacSha1Vector (key : List UInt8) (kPad : List UInt8 × List UInt8) :
    List UInt8 × List UInt8 :=
  let key := if 64 < key.length then sha1Vector junk [key] else key
  (genKPad aligned key kPad.1 0x36363636, genKPad aligned key kPad.2 0x5c5c5c5c)

/-- `exec_hmac_sha1_vector`. -/
def execHmacSha1Vector (kPad : List UInt8 × List UInt8) (pieces : List (List UInt8)) :
    List UInt8 :=
  sha1Vector junk [kPad.2, sha1Vector junk (kPad.1 :: pieces)]

/-- `hmac_sha1_vector`, with the static buffer `k_pad_buf` before and after. -/
def hmacSha1Vector (key : Option (List UInt8)) (pieces : List (List UInt8))
    (kPad : List UInt8 × List UInt8) : List UInt8 × (List UInt8 × List UInt8) :=
  let kPad := match key with
    | some key => prepareHmacSha1Vector junk aligned key kPad
    | none => kPad
  (execHmacSha1Vector junk kPad pieces, kPad)

/-- `hmac_sha1`. -/
def hmacSha1 (key data : List UInt8) (kPad : List UInt8 × List UInt8) :
    List UInt8 × (List UInt8 × List UInt8) :=
  hmacSha1Vector junk aligned (some key) [data] kPad

/-- The loop of `sha1_prf`, `left` bytes before its end. -/
def sha1PrfLoop (key label data : List UInt8) (counter : UInt8) (left : ℕ)
    (kPad : List UInt8 × List UInt8) : List UInt8 :=
  if left = 0 then []
  else
    let s := hmacSha1Vector junk aligned (some key) [label ++ [0], data, [counter]] kPad
    if 20 ≤ left then s.1 ++ sha1PrfLoop key label data (counter + 1) (left - 20) s.2
    else s.1.take left
termination_by left

/-- `sha1_prf`. The length of the label counts the null at its end. -/
def sha1Prf (key label data : List UInt8) (bufLen : ℕ) (kPad : List UInt8 × List UInt8) :
    List UInt8 :=
  sha1PrfLoop junk aligned key label data 0 bufLen kPad

end

/-! ## The standard -/

namespace Fips

/-- A key of at most a block, filled up with zeros and added to a pattern. -/
def padKey (pattern : UInt8) (key : List UInt8) : List UInt8 :=
  (key ++ List.replicate (64 - key.length) 0).map (· ^^^ pattern)

/-- The keyed hash of a message. -/
def hmac (key m : List UInt8) : List UInt8 :=
  let key := if 64 < key.length then sha1 key else key
  sha1 (padKey 0x5c key ++ sha1 (padKey 0x36 key ++ m))

/-- The first `n` bytes of the keyed hashes of a label, data and a counter. -/
def prf (key label data : List UInt8) (n : ℕ) : List UInt8 :=
  ((List.range (n / 20 + 1)).flatMap fun i =>
    hmac key (label ++ [0] ++ data ++ [UInt8.ofNat i])).take n

end Fips

/-! ## The first blocks -/

theorem getD_copyIn {buf data : List UInt8} {j : ℕ} (h : j + data.length ≤ buf.length) (k : ℕ) :
    (copyIn buf j data).getD k 0
      = if j ≤ k ∧ k < j + data.length then data.getD (k - j) 0 else buf.getD k 0 := by
  have htake : (buf.take j).length = j := List.length_take_of_le (by omega)
  rw [copyIn, List.append_assoc, List.getD_eq_getElem?_getD, List.getD_eq_getElem?_getD,
    List.getD_eq_getElem?_getD, List.getElem?_append, htake]
  split_ifs with h1 h2 h3
  · omega
  · rw [List.getElem?_take_of_lt h1]
  · rw [List.getElem?_append_left (by omega)]
  · rw [List.getElem?_append_right (by omega), List.getElem?_drop]
    rw [show j + data.length + (k - j - data.length) = k by omega]

/-- A loop that writes `w` bytes at a time writes all bytes from its start to its end. -/
theorem getD_foldl_copyIn {w : ℕ} (hw : 0 < w) (f : ℕ → List UInt8) (hf : ∀ i, (f i).length = w)
    (buf : List UInt8) (a n : ℕ) (h : w * (a + n) ≤ buf.length) :
    ((List.range' a n).foldl (fun b i => copyIn b (w * i) (f i)) buf).length = buf.length ∧
      ∀ k, ((List.range' a n).foldl (fun b i => copyIn b (w * i) (f i)) buf).getD k 0
        = if w * a ≤ k ∧ k < w * (a + n) then (f (k / w)).getD (k % w) 0 else buf.getD k 0 := by
  induction n with
  | zero => exact ⟨rfl, fun k => (if_neg (by rw [Nat.add_zero]; omega)).symm⟩
  | succ n ih =>
    have hlast : w * (a + (n + 1)) = w * (a + n) + w := by rw [← Nat.add_assoc, Nat.mul_succ]
    have hstart : w * a ≤ w * (a + n) := Nat.mul_le_mul_left w (Nat.le_add_right a n)
    obtain ⟨hlen, hget⟩ := ih (by omega)
    rw [List.range'_concat, List.foldl_append, List.foldl_cons, List.foldl_nil, Nat.one_mul]
    have hfit : w * (a + n) + (f (a + n)).length ≤
        ((List.range' a n).foldl (fun b i => copyIn b (w * i) (f i)) buf).length := by
      rw [hlen, hf]
      omega
    refine ⟨by rw [length_copyIn hfit, hlen], fun k => ?_⟩
    rw [getD_copyIn hfit, hf, hget, hlast]
    by_cases hk : w * (a + n) ≤ k ∧ k < w * (a + n) + w
    · have hdiv : k / w = a + n := by
        rw [Nat.div_eq_iff hw]
        rw [Nat.mul_comm]
        omega
      have hmod : k % w = k - w * (a + n) := by rw [Nat.mod_eq_sub, hdiv]
      rw [if_pos hk, if_pos (by omega), hdiv, hmod]
    · rw [if_neg hk]
      by_cases hk' : w * a ≤ k ∧ k < w * (a + n)
      · rw [if_pos hk', if_pos (by omega)]
      · rw [if_neg hk', if_neg (by omega)]

theorem leBytes_word (a b c d : Octet) : leBytes (word a b c d) = [⟨d⟩, ⟨c⟩, ⟨b⟩, ⟨a⟩] := by
  rw [leBytes, putU32_word]
  rfl

theorem length_leBytes (w : Word) : (leBytes w).length = 4 := rfl

/-- The bytes of a word of the key with the pattern. -/
theorem getD_leBytes_xor (p : Octet) (key : List UInt8) (i : ℕ) {r : ℕ} (h : r < 4) :
    (leBytes (word p p p p ^^^ leWord key i)).getD r 0 = key.getD (i + r) 0 ^^^ ⟨p⟩ := by
  have hbyte : ∀ b : UInt8, (⟨p ^^^ b.toBitVec⟩ : UInt8) = b ^^^ ⟨p⟩ := fun b => by
    rw [UInt8.xor_comm]
    rfl
  have hword : leWord key i = word (key.getD (i + 3) 0).toBitVec (key.getD (i + 2) 0).toBitVec
      (key.getD (i + 1) 0).toBitVec (key.getD i 0).toBitVec := rfl
  rw [hword, word_xor, leBytes_word, hbyte, hbyte, hbyte, hbyte]
  match r, h with
  | 0, _ | 1, _ | 2, _ | 3, _ => rfl

theorem getD_leBytes_pattern (p : Octet) {r : ℕ} (h : r < 4) :
    (leBytes (word p p p p)).getD r 0 = ⟨p⟩ := by
  rw [leBytes_word]
  match r, h with
  | 0, _ | 1, _ | 2, _ | 3, _ => rfl

theorem setWidth_word (a b c d : Octet) : (word a b c d).setWidth 8 = d := by
  rw [word, BitVec.setWidth_append]
  simp

theorem getD_padKey (pattern : UInt8) (key : List UInt8) {k : ℕ} (h : k < 64) :
    (Fips.padKey pattern key).getD k 0
      = if k < key.length then key.getD k 0 ^^^ pattern else pattern := by
  have hzero : (0 : UInt8) ^^^ pattern = pattern := UInt8.zero_xor
  rw [Fips.padKey, List.getD_eq_getElem?_getD, List.getElem?_map]
  split_ifs with hk
  · rw [List.getElem?_append_left hk, List.getElem?_eq_getElem hk, List.getD_eq_getElem?_getD,
      List.getElem?_eq_getElem hk]
    rfl
  · rw [List.getElem?_append_right (by omega), List.getElem?_replicate, if_pos (by omega)]
    exact hzero

theorem length_padKey (pattern : UInt8) {key : List UInt8} (h : key.length ≤ 64) :
    (Fips.padKey pattern key).length = 64 := by
  rw [Fips.padKey, List.length_map, List.length_append, List.length_replicate]
  omega

theorem ext_getD {l l' : List UInt8} (hl : l.length = 64) (hl' : l'.length = 64)
    (h : ∀ k, k < 64 → l.getD k 0 = l'.getD k 0) : l = l' := by
  apply List.ext_getElem (hl.trans hl'.symm)
  intro k hk hk'
  have hget := h k (by omega)
  rwa [List.getD_eq_getElem?_getD, List.getD_eq_getElem?_getD, List.getElem?_eq_getElem hk,
    List.getElem?_eq_getElem hk'] at hget

/-- The first block is the key, filled up with zeros, and the pattern: at any address. -/
theorem genKPad_eq (aligned : Bool) {key kPad : List UInt8} (p : Octet) (hkey : key.length ≤ 64)
    (hpad : kPad.length = 64) :
    genKPad aligned key kPad (word p p p p) = Fips.padKey ⟨p⟩ key := by
  obtain ⟨hlen1, hget1⟩ := getD_foldl_copyIn (w := 4) (by decide)
    (fun _ => leBytes (word p p p p)) (fun _ => length_leBytes _) kPad
    (key.length / 4) (16 - key.length / 4) (by omega)
  rw [genKPad]
  generalize (List.range' (key.length / 4) (16 - key.length / 4)).foldl _ kPad = filled at *
  rw [hpad] at hlen1
  -- the bytes that the last loop leaves as they are, and the place where it starts
  have hbytes : ∀ (buf : List UInt8) (start : ℕ), buf.length = 64 → start ≤ key.length →
      (∀ k, k < start → buf.getD k 0 = key.getD k 0 ^^^ ⟨p⟩) →
      (∀ k, key.length ≤ k → k < 64 → buf.getD k 0 = ⟨p⟩) →
      (List.range' start (key.length - start)).foldl
        (fun b i => copyIn b (1 * i) [key.getD i 0 ^^^ ⟨(word p p p p).setWidth 8⟩]) buf
        = Fips.padKey ⟨p⟩ key := by
    intro buf start hbuf hstart hdone hfill
    obtain ⟨hlen, hget⟩ := getD_foldl_copyIn (w := 1) (by decide)
      (fun i => [key.getD i 0 ^^^ ⟨(word p p p p).setWidth 8⟩]) (fun _ => rfl) buf
      start (key.length - start) (by omega)
    refine ext_getD (hlen.trans hbuf) (length_padKey _ hkey) fun k hk => ?_
    rw [hget, getD_padKey _ _ hk, setWidth_word, Nat.one_mul, Nat.one_mul, Nat.div_one, Nat.mod_one]
    by_cases hin : k < key.length
    · rw [if_pos hin]
      by_cases hk' : start ≤ k
      · rw [if_pos (by omega)]
        rfl
      · rw [if_neg (by omega), hdone k (by omega)]
    · rw [if_neg hin, if_neg (by omega), hfill k (by omega) hk]
  have hend : ∀ k, key.length ≤ k → k < 64 → filled.getD k 0 = ⟨p⟩ := fun k h1 h2 => by
    rw [hget1, if_pos (by omega), getD_leBytes_pattern p (Nat.mod_lt k (by decide))]
  cases aligned
  case false => exact hbytes filled 0 hlen1 (Nat.zero_le _) (fun k hk => by omega) hend
  case true =>
    obtain ⟨hlen2, hget2⟩ := getD_foldl_copyIn (w := 4) (by decide)
      (fun i => leBytes (word p p p p ^^^ leWord key (4 * i))) (fun _ => length_leBytes _)
      filled 0 (key.length / 4) (by omega)
    rw [if_pos rfl]
    refine hbytes _ (4 * (key.length / 4)) (hlen2.trans hlen1) (by omega) (fun k hk => ?_)
      (fun k h1 h2 => ?_)
    · rw [hget2, if_pos (by omega), getD_leBytes_xor p key _ (Nat.mod_lt k (by decide)),
        Nat.div_add_mod]
    · rw [hget2, if_neg (by omega)]
      exact hend k h1 h2

/-! ## The keyed hash -/

theorem length_sha1 (m : List UInt8) : (Fips.sha1 m).length = 20 := rfl

theorem length_hmac (key m : List UInt8) : (Fips.hmac key m).length = 20 := length_sha1 _

section

variable (junk : {l : List UInt8 // l.length = 64}) (aligned : Bool)

theorem prepareHmacSha1Vector_eq (key : List UInt8) {kPad : List UInt8 × List UInt8}
    (h1 : kPad.1.length = 64) (h2 : kPad.2.length = 64) :
    prepareHmacSha1Vector junk aligned key kPad =
      let key' := if 64 < key.length then Fips.sha1 key else key
      (Fips.padKey 0x36 key', Fips.padKey 0x5c key') := by
  have hhash : sha1Vector junk [key] = Fips.sha1 key := by
    have h := (foldl_update (absorbed_nil junk) [key]).final
    rwa [List.nil_append, List.flatten_cons, List.flatten_nil, List.append_nil] at h
  have hlen : (if 64 < key.length then Fips.sha1 key else key).length ≤ 64 := by
    split
    · rw [length_sha1]
      decide
    · omega
  rw [prepareHmacSha1Vector, hhash]
  exact Prod.ext (genKPad_eq aligned 0x36 hlen h1) (genKPad_eq aligned 0x5c hlen h2)

/-- With the two blocks of a key, the outcome is the keyed hash of the message that the pieces
make. -/
theorem execHmacSha1Vector_eq (key : List UInt8) (pieces : List (List UInt8)) :
    execHmacSha1Vector junk (Fips.padKey 0x36 (if 64 < key.length then Fips.sha1 key else key),
      Fips.padKey 0x5c (if 64 < key.length then Fips.sha1 key else key)) pieces
      = Fips.hmac key pieces.flatten := by
  have hvector : ∀ l, sha1Vector junk l = Fips.sha1 l.flatten := fun l =>
    (foldl_update (absorbed_nil junk) l).final
  rw [execHmacSha1Vector, hvector, hvector, List.flatten_cons, List.flatten_cons, List.flatten_cons,
    List.flatten_nil, List.append_nil, Fips.hmac]

/-- The static buffer has two blocks. -/
def TwoBlocks (kPad : List UInt8 × List UInt8) : Prop := kPad.1.length = 64 ∧ kPad.2.length = 64

/-- A call with a key gives the keyed hash, and leaves the blocks of the key. -/
theorem hmacSha1Vector_some (key : List UInt8) (pieces : List (List UInt8))
    {kPad : List UInt8 × List UInt8} (h : TwoBlocks kPad) :
    hmacSha1Vector junk aligned (some key) pieces kPad = (Fips.hmac key pieces.flatten,
      (Fips.padKey 0x36 (if 64 < key.length then Fips.sha1 key else key),
        Fips.padKey 0x5c (if 64 < key.length then Fips.sha1 key else key))) := by
  rw [hmacSha1Vector, prepareHmacSha1Vector_eq junk aligned key h.1 h.2]
  exact Prod.ext (execHmacSha1Vector_eq junk key pieces) rfl

theorem twoBlocks_hmacSha1Vector (key : Option (List UInt8)) (pieces : List (List UInt8))
    {kPad : List UInt8 × List UInt8} (h : TwoBlocks kPad) :
    TwoBlocks (hmacSha1Vector junk aligned key pieces kPad).2 := by
  cases key with
  | none => exact h
  | some key =>
    have hlen : (if 64 < key.length then Fips.sha1 key else key).length ≤ 64 := by
      split
      · rw [length_sha1]
        decide
      · omega
    rw [hmacSha1Vector_some junk aligned key pieces h]
    exact ⟨length_padKey _ hlen, length_padKey _ hlen⟩

end

/-- `k_pad_buf` after calls of `hmac_sha1_vector`, each with the address and the content of its
key and with its pieces. -/
def kPadAfter (junk : {l : List UInt8 // l.length = 64})
    (calls : List (Bool × Option (List UInt8) × List (List UInt8))) : List UInt8 × List UInt8 :=
  calls.foldl (fun kPad c => (hmacSha1Vector junk c.1 c.2.1 c.2.2 kPad).2)
    (List.replicate 64 0, List.replicate 64 0)

theorem twoBlocks_kPadAfter (junk : {l : List UInt8 // l.length = 64})
    (calls : List (Bool × Option (List UInt8) × List (List UInt8))) :
    TwoBlocks (kPadAfter junk calls) :=
  List.foldlRecOn calls _ ⟨List.length_replicate, List.length_replicate⟩
    fun _ h c _ => twoBlocks_hmacSha1Vector junk c.1 c.2.1 c.2.2 h

theorem sha1PrfLoop_eq (junk : {l : List UInt8 // l.length = 64}) (aligned : Bool)
    (key label data : List UInt8) (counter : UInt8) (left : ℕ) {kPad : List UInt8 × List UInt8}
    (h : TwoBlocks kPad) :
    sha1PrfLoop junk aligned key label data counter left kPad =
      ((List.range (left / 20 + 1)).flatMap fun i =>
        Fips.hmac key (label ++ [0] ++ data ++ [counter + UInt8.ofNat i])).take left := by
  have hpieces : [label ++ [0], data, [counter]].flatten = label ++ [0] ++ data ++ [counter] := by
    simp
  have hzero : counter + UInt8.ofNat 0 = counter := UInt8.add_zero counter
  have hnext : ∀ i, counter + 1 + UInt8.ofNat i = counter + UInt8.ofNat (i + 1) := fun i => by
    rw [UInt8.ofNat_add, UInt8.add_assoc, UInt8.add_comm 1]
    rfl
  rw [sha1PrfLoop]
  split
  case isTrue h0 => rw [h0, List.take_zero]
  case isFalse h0 =>
    have hblocks := twoBlocks_hmacSha1Vector junk aligned (some key)
      [label ++ [0], data, [counter]] h
    rw [List.range_succ_eq_map, List.flatMap_cons, List.flatMap_map, hzero]
    split
    case isTrue h20 =>
      have hdiv : left / 20 = (left - 20) / 20 + 1 := by omega
      show _ ++ sha1PrfLoop junk aligned key label data (counter + 1) (left - 20)
        (hmacSha1Vector junk aligned (some key) [label ++ [0], data, [counter]] kPad).2 = _
      rw [sha1PrfLoop_eq junk aligned key label data (counter + 1) (left - 20) hblocks,
        hmacSha1Vector_some junk aligned key _ h, hpieces, List.take_append, length_hmac,
        List.take_of_length_le
          (show (Fips.hmac key (label ++ [0] ++ data ++ [counter])).length ≤ left from h20), hdiv]
      simp only [hnext]
    case isFalse h20 =>
      rw [hmacSha1Vector_some junk aligned key _ h, hpieces,
        List.take_append_of_le_length (by rw [length_hmac]; omega)]
termination_by left

/-- The pseudo-random function is the keyed hashes of a counter, cut off at the length asked for:
after any calls, and at any address of the key. -/
theorem sha1Prf_eq (junk : {l : List UInt8 // l.length = 64})
    (calls : List (Bool × Option (List UInt8) × List (List UInt8))) (aligned : Bool)
    (key label data : List UInt8) (n : ℕ) :
    sha1Prf junk aligned key label data n (kPadAfter junk calls) = Fips.prf key label data n := by
  have hzero : ∀ i, (0 : UInt8) + UInt8.ofNat i = UInt8.ofNat i := fun i => UInt8.zero_add _
  rw [sha1Prf, sha1PrfLoop_eq junk aligned key label data 0 n (twoBlocks_kPadAfter junk calls),
    Fips.prf]
  simp only [hzero]

end Fullmac.Crypto
