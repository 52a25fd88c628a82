import Fullmac.Crypto.Aes

/-!
# SHA-1

Reference: `host/ap/crypto/sha1-internal.c`, `SHA1Transform`, `SHA1Init`, `SHA1Update`, `SHA1Final`,
`sha1_vector`; `host/ap/crypto/sha1_i.h`, `struct SHA1Context`.

The transform in software: `SHA1_HARDWARE_IMPLEMENT` is not set. The bytes come in pieces of any
length. What does not fill a block is kept in the buffer of the context, and `count` is a number of
bits in two words. The buffer of a piece is in memory, so that `j + len` and `i + 63` do not wrap.
-/

namespace Fullmac.Crypto

/-- `state[5]`, and the working variables of the transform. -/
structure Chain where
  a : Word
  b : Word
  c : Word
  d : Word
  e : Word
deriving DecidableEq, Repr

/-- `rol`. -/
def rol (value : Word) (bits : ℕ) : Word := (value <<< bits) ||| (value >>> (32 - bits))

/-! ## The transform -/

/-- `block->l[i]` of the bytes of a buffer: a word of a little-endian machine. -/
def workspace (buffer : List UInt8) : List Word :=
  (List.range 16).map fun i =>
    (buffer.getD (4 * i + 3) 0).toBitVec ++ (buffer.getD (4 * i + 2) 0).toBitVec ++
      (buffer.getD (4 * i + 1) 0).toBitVec ++ (buffer.getD (4 * i) 0).toBitVec

/-- `blk0(i)`: the word in the other byte order, also in its place. -/
def blk0 (block : List Word) (i : ℕ) : Word × List Word :=
  let l := block.getD i 0
  let w := (rol l 24 &&& 0xff00ff00) ||| (rol l 8 &&& 0x00ff00ff)
  (w, block.set i w)

/-- `blk(i)`: the next word of the schedule, in the place of the one it is no longer computed
from. -/
def blk (block : List Word) (i : ℕ) : Word × List Word :=
  let w := rol (block.getD ((i + 13) &&& 15) 0 ^^^ block.getD ((i + 8) &&& 15) 0 ^^^
    block.getD ((i + 2) &&& 15) 0 ^^^ block.getD (i &&& 15) 0) 1
  (w, block.set (i &&& 15) w)

/-- The word of a round: `R0` takes `blk0`, the others take `blk`. -/
def roundWord (block : List Word) (i : ℕ) : Word × List Word :=
  if i < 16 then blk0 block i else blk block i

/-- The operation and the constant of a round: `R0` and `R1`, `R2`, `R3`, `R4`. -/
def roundTerm (w x y : Word) (i : ℕ) : Word × Word :=
  if i < 20 then ((w &&& (x ^^^ y)) ^^^ y, 0x5A827999)
  else if i < 40 then (w ^^^ x ^^^ y, 0x6ED9EBA1)
  else if i < 60 then (((w ||| x) &&& y) ||| (w &&& x), 0x8F1BBCDC)
  else (w ^^^ x ^^^ y, 0xCA62C1D6)

/-- `R0` to `R4`. A round is called with its five names shifted by one place, so that the `z` of one
round is the `v` of the next. -/
def sha1Round (s : Chain × List Word) (i : ℕ) : Chain × List Word :=
  let v := s.1
  let f := roundTerm v.b v.c v.d i
  let blk := roundWord s.2 i
  (⟨v.e + (f.1 + blk.1 + f.2 + rol v.a 5), v.a, rol v.b 30, v.c, v.d⟩, blk.2)

/-- `SHA1Transform`. -/
def sha1Transform (state : Chain) (buffer : List UInt8) : Chain :=
  let v := ((List.range 80).foldl sha1Round (state, workspace buffer)).1
  ⟨state.a + v.a, state.b + v.b, state.c + v.c, state.d + v.d, state.e + v.e⟩

/-! ## The context -/

/-- `struct SHA1Context`; the buffer has 64 bytes. -/
structure Sha1Ctx where
  state : Chain
  count0 : Word
  count1 : Word
  buffer : List UInt8
deriving DecidableEq, Repr

/-- `SHA1Init`. The buffer is not written; `junk` is what is in it. -/
def sha1Init (junk : {l : List UInt8 // l.length = 64}) : Sha1Ctx :=
  { state := ⟨0x67452301, 0xEFCDAB89, 0x98BADCFE, 0x10325476, 0xC3D2E1F0⟩
    count0 := 0
    count1 := 0
    buffer := junk.1 }

/-- `os_memcpy(&buffer[j], data, ..)`. -/
def copyIn (buffer : List UInt8) (j : ℕ) (data : List UInt8) : List UInt8 :=
  buffer.take j ++ data ++ buffer.drop (j + data.length)

/-- The loop of `SHA1Update` over the whole blocks, with what it leaves. -/
def transformBlocks (state : Chain) (data : List UInt8) : Chain × List UInt8 :=
  if 63 < data.length then transformBlocks (sha1Transform state (data.take 64)) (data.drop 64)
  else (state, data)
termination_by data.length
decreasing_by rw [List.length_drop]; omega

/-- `SHA1Update`. -/
def sha1Update (ctx : Sha1Ctx) (data : List UInt8) : Sha1Ctx :=
  let len := data.length
  let j := ((ctx.count0 >>> 3) &&& 63).toNat
  let bits : Word := BitVec.ofNat 32 len <<< 3
  let count0 := ctx.count0 + bits
  let carry : Word := if count0 < bits then 1 else 0
  let count1 := ctx.count1 + carry + BitVec.ofNat 32 (len >>> 29)
  if 63 < j + len then
    let i := if j ≠ 0 then 64 - j else 0
    let buffer := if j ≠ 0 then copyIn ctx.buffer j (data.take i) else ctx.buffer
    let state := if j ≠ 0 then sha1Transform ctx.state buffer else ctx.state
    let s := transformBlocks state (data.drop i)
    { state := s.1, count0 := count0, count1 := count1, buffer := copyIn buffer 0 s.2 }
  else
    { state := ctx.state, count0 := count0, count1 := count1, buffer := copyIn ctx.buffer j data }

/-- `sha1_padding`. -/
def sha1Padding : List UInt8 := 0x80 :: List.replicate 63 0

/-- `finalcount`: the two words of the count, the high one first. -/
def finalcount (ctx : Sha1Ctx) : List UInt8 := putU32 ctx.count1 ++ putU32 ctx.count0

/-- `SHA1Final`. -/
def sha1Final (ctx : Sha1Ctx) : List UInt8 :=
  let padLen := 1 + (63 &&& (55 - ((ctx.count0 >>> 3) &&& 63)) : Word).toNat
  let ctx' := sha1Update (sha1Update ctx (sha1Padding.take padLen)) (finalcount ctx)
  putU32 ctx'.state.a ++ putU32 ctx'.state.b ++ putU32 ctx'.state.c ++ putU32 ctx'.state.d ++
    putU32 ctx'.state.e

/-- `sha1_vector`. -/
def sha1Vector (junk : {l : List UInt8 // l.length = 64}) (pieces : List (List UInt8)) :
    List UInt8 :=
  sha1Final (pieces.foldl sha1Update (sha1Init junk))

end Fullmac.Crypto
