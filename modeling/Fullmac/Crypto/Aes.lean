import Fullmac.Crypto.AesTables

/-!
# The block cipher

Reference: `host/ap/crypto/aes_i.h`; `host/ap/crypto/aes-internal.c`, `rijndaelKeySetupEnc`;
`host/ap/crypto/aes-internal-enc.c`, `rijndaelEncrypt`, `aes_encrypt_init`, `aes_encrypt`;
`host/ap/crypto/aes-internal-dec.c`, `rijndaelKeySetupDec`, `rijndaelDecrypt`, `aes_decrypt_init`,
`aes_decrypt`.

AES-128 with tables of words. The 44 words of a key schedule are kept as eleven `Block`s of four,
and `rk += 4` moves to the next one. The memory of the context is taken to be there; it is wiped and
given back at the end.
-/

namespace Fullmac.Crypto

/-- Four words: the cipher state, or the key of one round. -/
structure Block where
  s0 : Word
  s1 : Word
  s2 : Word
  s3 : Word
deriving DecidableEq, Repr, Inhabited

/-- `GETU32` of the bytes from `i` on. -/
def getU32 (pt : List UInt8) (i : ℕ) : Word :=
  ((pt.getD i 0).toBitVec.setWidth 32 <<< 24) ^^^
    ((pt.getD (i + 1) 0).toBitVec.setWidth 32 <<< 16) ^^^
    ((pt.getD (i + 2) 0).toBitVec.setWidth 32 <<< 8) ^^^
    (pt.getD (i + 3) 0).toBitVec.setWidth 32

/-- The bytes of `PUTU32`. -/
def putU32 (st : Word) : List UInt8 :=
  [⟨(st >>> 24).setWidth 8⟩, ⟨(st >>> 16).setWidth 8⟩, ⟨(st >>> 8).setWidth 8⟩, ⟨st.setWidth 8⟩]

/-- The block at the start of sixteen bytes. -/
def getBlock (pt : List UInt8) : Block := ⟨getU32 pt 0, getU32 pt 4, getU32 pt 8, getU32 pt 12⟩

/-- The sixteen bytes of a block. -/
def putBlock (s : Block) : List UInt8 := putU32 s.s0 ++ putU32 s.s1 ++ putU32 s.s2 ++ putU32 s.s3

/-! ## Access to the tables -/

/-- `rotr`. -/
def rotr (val : Word) (bits : ℕ) : Word := (val >>> bits) ||| (val <<< (32 - bits))

/-- `Te0[i]`. -/
def te0At (i : Word) : Word := te0Table.getD i.toNat 0

/-- `Td0[i]`. -/
def td0At (i : Word) : Word := td0Table.getD i.toNat 0

/-- `Td4s[i]`, as it is promoted before it is shifted. -/
def td4sAt (i : Word) : Word := (td4sTable.getD i.toNat 0).setWidth 32

/-- `RCON`. -/
def rcon (i : ℕ) : Word := (rconsTable.getD i 0).setWidth 32 <<< 24

/-- `TE0`. -/
def te0 (i : Word) : Word := te0At ((i >>> 24) &&& 0xff)

/-- `TE1`. -/
def te1 (i : Word) : Word := rotr (te0At ((i >>> 16) &&& 0xff)) 8

/-- `TE2`. -/
def te2 (i : Word) : Word := rotr (te0At ((i >>> 8) &&& 0xff)) 16

/-- `TE3`. -/
def te3 (i : Word) : Word := rotr (te0At (i &&& 0xff)) 24

/-- `TE41`. -/
def te41 (i : Word) : Word := (te0At ((i >>> 24) &&& 0xff) <<< 8) &&& 0xff000000

/-- `TE42`. -/
def te42 (i : Word) : Word := te0At ((i >>> 16) &&& 0xff) &&& 0x00ff0000

/-- `TE43`. -/
def te43 (i : Word) : Word := te0At ((i >>> 8) &&& 0xff) &&& 0x0000ff00

/-- `TE44`. -/
def te44 (i : Word) : Word := (te0At (i &&& 0xff) >>> 8) &&& 0x000000ff

/-- `TE421`. -/
def te421 (i : Word) : Word := (te0At ((i >>> 16) &&& 0xff) <<< 8) &&& 0xff000000

/-- `TE432`. -/
def te432 (i : Word) : Word := te0At ((i >>> 8) &&& 0xff) &&& 0x00ff0000

/-- `TE443`. -/
def te443 (i : Word) : Word := te0At (i &&& 0xff) &&& 0x0000ff00

/-- `TE414`. -/
def te414 (i : Word) : Word := (te0At ((i >>> 24) &&& 0xff) >>> 8) &&& 0x000000ff

/-- `TE4`. -/
def te4 (i : Word) : Word := (te0At i >>> 8) &&& 0x000000ff

/-- `TD0`. -/
def td0 (i : Word) : Word := td0At ((i >>> 24) &&& 0xff)

/-- `TD1`. -/
def td1 (i : Word) : Word := rotr (td0At ((i >>> 16) &&& 0xff)) 8

/-- `TD2`. -/
def td2 (i : Word) : Word := rotr (td0At ((i >>> 8) &&& 0xff)) 16

/-- `TD3`. -/
def td3 (i : Word) : Word := rotr (td0At (i &&& 0xff)) 24

/-- `TD41`. -/
def td41 (i : Word) : Word := td4sAt ((i >>> 24) &&& 0xff) <<< 24

/-- `TD42`. -/
def td42 (i : Word) : Word := td4sAt ((i >>> 16) &&& 0xff) <<< 16

/-- `TD43`. -/
def td43 (i : Word) : Word := td4sAt ((i >>> 8) &&& 0xff) <<< 8

/-- `TD44`. -/
def td44 (i : Word) : Word := td4sAt (i &&& 0xff)

/-- `TD0_`. -/
def td0_ (i : Word) : Word := td0At (i &&& 0xff)

/-- `TD1_`. -/
def td1_ (i : Word) : Word := rotr (td0At (i &&& 0xff)) 8

/-- `TD2_`. -/
def td2_ (i : Word) : Word := rotr (td0At (i &&& 0xff)) 16

/-- `TD3_`. -/
def td3_ (i : Word) : Word := rotr (td0At (i &&& 0xff)) 24

/-! ## Key schedules -/

/-- `Nr`. -/
def nr : ℕ := 10

/-- One pass of the loop of `rijndaelKeySetupEnc`. -/
def nextRoundKey (i : ℕ) (rk : Block) : Block :=
  let temp := rk.s3
  let rk4 := rk.s0 ^^^ te421 temp ^^^ te432 temp ^^^ te443 temp ^^^ te414 temp ^^^ rcon i
  let rk5 := rk.s1 ^^^ rk4
  let rk6 := rk.s2 ^^^ rk5
  let rk7 := rk.s3 ^^^ rk6
  ⟨rk4, rk5, rk6, rk7⟩

/-- The loop of `rijndaelKeySetupEnc`: `n` passes from `i` on. -/
def expandKey : ℕ → ℕ → Block → List Block
  | 0, _, rk => [rk]
  | n + 1, i, rk => rk :: expandKey n (i + 1) (nextRoundKey i rk)

/-- `rijndaelKeySetupEnc`. -/
def rijndaelKeySetupEnc (cipherKey : List UInt8) : List Block :=
  expandKey nr 0 (getBlock cipherKey)

/-- Two round keys are exchanged. -/
def swapKeys (rk : List Block) (i j : ℕ) : List Block :=
  (rk.set i (rk.getD j default)).set j (rk.getD i default)

/-- The loop of `rijndaelKeySetupDec` that inverts the order of the round keys. -/
def reverseKeys (i j : ℕ) (rk : List Block) : List Block :=
  if i < j then reverseKeys (i + 1) (j - 1) (swapKeys rk i j) else rk
termination_by j - i

/-- The inverse of `MixColumn`, as it is applied to one word of a round key. -/
def invMixWord (w : Word) : Word :=
  td0_ (te4 (w >>> 24)) ^^^ td1_ (te4 ((w >>> 16) &&& 0xff)) ^^^
    td2_ (te4 ((w >>> 8) &&& 0xff)) ^^^ td3_ (te4 (w &&& 0xff))

/-- The inverse of `MixColumn`, applied to the four words of a round key. -/
def invMixKey (k : Block) : Block :=
  ⟨invMixWord k.s0, invMixWord k.s1, invMixWord k.s2, invMixWord k.s3⟩

/-- `rijndaelKeySetupDec`. -/
def rijndaelKeySetupDec (cipherKey : List UInt8) : List Block :=
  (reverseKeys 0 nr (rijndaelKeySetupEnc cipherKey)).mapIdx fun i k =>
    if 1 ≤ i ∧ i < nr then invMixKey k else k

/-! ## Rounds -/

/-- Add a round key. -/
def addKey (s k : Block) : Block := ⟨s.s0 ^^^ k.s0, s.s1 ^^^ k.s1, s.s2 ^^^ k.s2, s.s3 ^^^ k.s3⟩

/-- `ROUND` of `rijndaelEncrypt`. -/
def encRound (s rk : Block) : Block :=
  ⟨te0 s.s0 ^^^ te1 s.s1 ^^^ te2 s.s2 ^^^ te3 s.s3 ^^^ rk.s0,
    te0 s.s1 ^^^ te1 s.s2 ^^^ te2 s.s3 ^^^ te3 s.s0 ^^^ rk.s1,
    te0 s.s2 ^^^ te1 s.s3 ^^^ te2 s.s0 ^^^ te3 s.s1 ^^^ rk.s2,
    te0 s.s3 ^^^ te1 s.s0 ^^^ te2 s.s1 ^^^ te3 s.s2 ^^^ rk.s3⟩

/-- The last round of `rijndaelEncrypt`. -/
def encLast (t rk : Block) : Block :=
  ⟨te41 t.s0 ^^^ te42 t.s1 ^^^ te43 t.s2 ^^^ te44 t.s3 ^^^ rk.s0,
    te41 t.s1 ^^^ te42 t.s2 ^^^ te43 t.s3 ^^^ te44 t.s0 ^^^ rk.s1,
    te41 t.s2 ^^^ te42 t.s3 ^^^ te43 t.s0 ^^^ te44 t.s1 ^^^ rk.s2,
    te41 t.s3 ^^^ te42 t.s0 ^^^ te43 t.s1 ^^^ te44 t.s2 ^^^ rk.s3⟩

/-- `ROUND` of `rijndaelDecrypt`. -/
def decRound (s rk : Block) : Block :=
  ⟨td0 s.s0 ^^^ td1 s.s3 ^^^ td2 s.s2 ^^^ td3 s.s1 ^^^ rk.s0,
    td0 s.s1 ^^^ td1 s.s0 ^^^ td2 s.s3 ^^^ td3 s.s2 ^^^ rk.s1,
    td0 s.s2 ^^^ td1 s.s1 ^^^ td2 s.s0 ^^^ td3 s.s3 ^^^ rk.s2,
    td0 s.s3 ^^^ td1 s.s2 ^^^ td2 s.s1 ^^^ td3 s.s0 ^^^ rk.s3⟩

/-- The last round of `rijndaelDecrypt`. -/
def decLast (t rk : Block) : Block :=
  ⟨td41 t.s0 ^^^ td42 t.s3 ^^^ td43 t.s2 ^^^ td44 t.s1 ^^^ rk.s0,
    td41 t.s1 ^^^ td42 t.s0 ^^^ td43 t.s3 ^^^ td44 t.s2 ^^^ rk.s1,
    td41 t.s2 ^^^ td42 t.s1 ^^^ td43 t.s0 ^^^ td44 t.s3 ^^^ rk.s2,
    td41 t.s3 ^^^ td42 t.s2 ^^^ td43 t.s1 ^^^ td44 t.s0 ^^^ rk.s3⟩

/-- The loop over the full rounds, two in a pass, left in the middle of the last pass: `r` passes
are left, and `rk` starts at the key before the next round. The result is the state `t` and where
`rk` points. -/
def roundLoop (round : Block → Block → Block) : ℕ → List Block → Block → Block × List Block
  | 0, rk, s => (s, rk)
  | r + 1, rk, s =>
    let t := round s (rk.getD 1 default)
    let rk := rk.drop 2
    if r = 0 then (t, rk) else roundLoop round r rk (round t (rk.getD 0 default))

/-- `rijndaelEncrypt`. -/
def rijndaelEncrypt (rk : List Block) (pt : List UInt8) : List UInt8 :=
  let s := addKey (getBlock pt) (rk.getD 0 default)
  let (t, rk) := roundLoop encRound (nr / 2) rk s
  putBlock (encLast t (rk.getD 0 default))

/-- `rijndaelDecrypt`. -/
def rijndaelDecrypt (rk : List Block) (ct : List UInt8) : List UInt8 :=
  let s := addKey (getBlock ct) (rk.getD 0 default)
  let (t, rk) := roundLoop decRound (nr / 2) rk s
  putBlock (decLast t (rk.getD 0 default))

/-- `aes_encrypt` with the context of `aes_encrypt_init`. -/
def aesEncrypt (key plain : List UInt8) : List UInt8 :=
  rijndaelEncrypt (rijndaelKeySetupEnc key) plain

/-- `aes_decrypt` with the context of `aes_decrypt_init`. -/
def aesDecrypt (key crypt : List UInt8) : List UInt8 :=
  rijndaelDecrypt (rijndaelKeySetupDec key) crypt

end Fullmac.Crypto
