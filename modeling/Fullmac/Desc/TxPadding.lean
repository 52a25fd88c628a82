import Fullmac.Desc.TxReqWord

/-!
# Taking the padding out of a transmit frame

Reference: `host/core/txrx_hdl.c`, `TxHdl_FrameProc` (with `SW_8023TO80211` 0), from the test of the
padding to `os_frame_pull`; `host/hal/SSV6006/ssv6006_pkt.c`, the setters and getters of
`struct cfg_host_txreq0`; `host/init/ssv_frame.c`, `os_frame_pull`.

The descriptor is edited where it stands and then moved up with the optional fields, over the
padding, byte by byte from the last one down. `frameProc_spec` says what becomes of a frame whose
flags tell how long the fields are; that they do is what `ssv6006_hal_fill_txreq0` leaves behind.
-/

namespace Fullmac.Desc

open Bytes

/-! ## The code -/

/-- `os_frame_pull`: nothing happens when there are not enough data. -/
def HostFrame.pull (f : HostFrame) (n : ℕ) : HostFrame :=
  if h : n ≤ f.len then
    { f with
      data := f.data + n
      len := f.len - n
      room := f.room + n
      room_le := Nat.add_le_add_right f.room_le n
      fits := by have := f.fits; omega }
  else f

/-- Assign to a field of `width` bits at bit `shift` of the first word. -/
def setTxField (m : Mem) (req0 shift width v : ℕ) : Mem :=
  setU32 m req0
    (getU32 m req0 - txField m req0 shift width * 2 ^ shift + v % 2 ^ width * 2 ^ shift)

/-- The part of `TxHdl_FrameProc` that takes the padding out. -/
def txHdlFrameProc (frame : HostFrame) : HostFrame :=
  let hostTxreq := frame.data
  let padding := txField frame.mem hostTxreq 24 2
  if padding ≠ 0 ∧ txField frame.mem hostTxreq 19 1 = 0 then
    let m := setTxField frame.mem hostTxreq 24 2 0
    let copyLen := txreq0Size
    let copyLen := if txField m hostTxreq 21 1 = 1 then copyLen + 4 else copyLen
    let copyLen := if txField m hostTxreq 20 1 = 1 then copyLen + 2 else copyLen
    let copyLen := if txField m hostTxreq 22 1 = 1 then copyLen + 6 else copyLen
    let len := (txField m hostTxreq 0 16 + 4294967296 - padding) % 4294967296
    let m := setTxField m hostTxreq 0 16 len
    let pS := frame.data + copyLen - 1
    let pD := pS + padding
    { frame with mem := moveDown copyLen m pS pD }.pull padding
  else frame

/-! ## The word -/

theorem setTxField_of_outside {m : Mem} {req0 shift width v i : ℕ} (h : i < req0 ∨ req0 + 4 ≤ i) :
    setTxField m req0 shift width v i = m i :=
  copy_of_outside h

theorem getU32_lt (m : Mem) (off : ℕ) : getU32 m off < 4294967296 := by
  have h0 := (m off).toNat_lt
  have h1 := (m (off + 1)).toNat_lt
  have h2 := (m (off + 2)).toNat_lt
  have h3 := (m (off + 3)).toNat_lt
  rw [getU32]
  omega

theorem getU32_setTxField_padding (m : Mem) (req0 : ℕ) :
    getU32 (setTxField m req0 24 2 0) req0
      = getU32 m req0 - txField m req0 24 2 * 2 ^ 24 := by
  have hlt := getU32_lt m req0
  rw [setTxField, getU32_setU32, txField]
  omega

theorem getU32_setTxField_len (m : Mem) (req0 v : ℕ) :
    getU32 (setTxField m req0 0 16 v) req0
      = getU32 m req0 - txField m req0 0 16 + v % 65536 := by
  have hlt := getU32_lt m req0
  rw [setTxField, getU32_setU32, txField]
  omega

/-- Only the word counts for a field. -/
theorem txField_congr {m m' : Mem} {req0 req0' : ℕ} (h : getU32 m' req0' = getU32 m req0)
    (shift width : ℕ) : txField m' req0' shift width = txField m req0 shift width := by
  rw [txField, txField, h]

/-- The fields besides `len` and `padding`: `c_type`, `f80211`, `qos`, `ht`, `use_4addr`,
`rvdtx_0`, `bc_que`, `security`, `more_data`, `stype_b5b4` and `extra_info`. -/
def otherFields : List (ℕ × ℕ) :=
  [(16, 3), (19, 1), (20, 1), (21, 1), (22, 1), (23, 1), (26, 1), (27, 1), (28, 1), (29, 2),
    (31, 1)]

/-! ## The move -/

/-- What the flags say about the length of descriptor and optional fields. -/
def flaggedLen (m : Mem) (req0 : ℕ) : ℕ :=
  txreq0Size + (if txField m req0 21 1 = 1 then 4 else 0)
    + (if txField m req0 20 1 = 1 then 2 else 0) + (if txField m req0 22 1 = 1 then 6 else 0)

/-- The frame `f` without its padding is `g`: descriptor and optional fields have moved up, the
length and the padding are taken off the first word, and nothing else has changed. -/
structure Compacted (f g : HostFrame) : Prop where
  data : g.data = f.data + txField f.mem f.data 24 2
  len : g.len = f.len - txField f.mem f.data 24 2
  word : getU32 g.mem g.data = getU32 f.mem f.data - txField f.mem f.data 24 2 * 2 ^ 24
    - txField f.mem f.data 24 2
  moved : ∀ i, 4 ≤ i → i < flaggedLen f.mem f.data → g.mem (g.data + i) = f.mem (f.data + i)
  behind : ∀ i, f.data + flaggedLen f.mem f.data + txField f.mem f.data 24 2 ≤ i →
    g.mem i = f.mem i

theorem flaggedLen_le (m : Mem) (req0 : ℕ) : txreq0Size ≤ flaggedLen m req0 := by
  rw [flaggedLen]
  omega

/-- Without the padding the other fields are the same. -/
theorem txField_setTxField_padding (m : Mem) (req0 : ℕ) :
    txField (setTxField m req0 24 2 0) req0 0 16 = txField m req0 0 16 ∧
      txField (setTxField m req0 24 2 0) req0 20 1 = txField m req0 20 1 ∧
      txField (setTxField m req0 24 2 0) req0 21 1 = txField m req0 21 1 ∧
      txField (setTxField m req0 24 2 0) req0 22 1 = txField m req0 22 1 := by
  have hword := getU32_setTxField_padding m req0
  simp only [txField] at hword ⊢
  refine ⟨?_, ?_, ?_, ?_⟩ <;> omega

/-- The pull finds enough data. -/
theorem pull_of_le {f : HostFrame} {n : ℕ} (h : n ≤ f.len) :
    (f.pull n).mem = f.mem ∧ (f.pull n).data = f.data + n ∧ (f.pull n).len = f.len - n := by
  rw [HostFrame.pull, dif_pos h]
  exact ⟨rfl, rfl, rfl⟩

/-- The edited descriptor, still in its old place. -/
def editedReq (f : HostFrame) : Mem :=
  setTxField (setTxField f.mem f.data 24 2 0) f.data 0 16 (f.len - txField f.mem f.data 24 2)

theorem getU32_editedReq {f : HostFrame} (hlen : txField f.mem f.data 0 16 = f.len)
    (hpad : txField f.mem f.data 24 2 ≤ f.len) :
    getU32 (editedReq f) f.data
      = getU32 f.mem f.data - txField f.mem f.data 24 2 * 2 ^ 24 - txField f.mem f.data 24 2 := by
  have hfits := f.fits
  rw [editedReq, getU32_setTxField_len, (txField_setTxField_padding f.mem f.data).1,
    getU32_setTxField_padding, Nat.mod_eq_of_lt (show _ < 65536 by omega)]
  simp only [txField] at hlen hpad ⊢
  omega

/-- With padding, an 802.3 frame is moved up over it. -/
theorem txHdlFrameProc_of_padding {f : HostFrame} (hpad : txField f.mem f.data 24 2 ≠ 0)
    (hf : txField f.mem f.data 19 1 = 0) (hlen : txField f.mem f.data 0 16 = f.len)
    (hle : txField f.mem f.data 24 2 ≤ f.len) :
    txHdlFrameProc f = { f with
      mem := copy (editedReq f) (f.data + txField f.mem f.data 24 2)
        (slice (editedReq f) f.data (flaggedLen f.mem f.data)) }.pull
          (txField f.mem f.data 24 2) := by
  obtain ⟨hlen', hqos, hht, haddr4⟩ := txField_setTxField_padding f.mem f.data
  have hfits := f.fits
  have hsub : (f.len + 4294967296 - txField f.mem f.data 24 2) % 4294967296
      = f.len - txField f.mem f.data 24 2 := by omega
  have hcopy : (if txField f.mem f.data 22 1 = 1 then
      (if txField f.mem f.data 20 1 = 1 then
        (if txField f.mem f.data 21 1 = 1 then txreq0Size + 4 else txreq0Size) + 2
        else if txField f.mem f.data 21 1 = 1 then txreq0Size + 4 else txreq0Size) + 6
      else if txField f.mem f.data 20 1 = 1 then
        (if txField f.mem f.data 21 1 = 1 then txreq0Size + 4 else txreq0Size) + 2
        else if txField f.mem f.data 21 1 = 1 then txreq0Size + 4 else txreq0Size)
      = flaggedLen f.mem f.data := by
    rw [flaggedLen]
    split <;> split <;> split <;> rfl
  rw [txHdlFrameProc, if_pos ⟨hpad, hf⟩]
  simp only [hlen', hqos, hht, haddr4, hlen, hsub, hcopy]
  rw [moveDown_eq _ (Nat.pos_of_ne_zero hpad)]
  rfl

/-- An 802.3 frame whose descriptor has its length is compacted. -/
theorem txHdlFrameProc_compacted {f : HostFrame} (hf : txField f.mem f.data 19 1 = 0)
    (hlen : txField f.mem f.data 0 16 = f.len) (hle : txField f.mem f.data 24 2 ≤ f.len) :
    Compacted f (txHdlFrameProc f) := by
  by_cases hpad : txField f.mem f.data 24 2 = 0
  · have hsame : txHdlFrameProc f = f := by
      rw [txHdlFrameProc, if_neg (by rw [hpad]; simp)]
    rw [hsame]
    constructor
    · rw [hpad, Nat.add_zero]
    · rw [hpad, Nat.sub_zero]
    · rw [hpad, Nat.zero_mul, Nat.sub_zero, Nat.sub_zero]
    · exact fun i _ _ => rfl
    · exact fun i _ => rfl
  · rw [txHdlFrameProc_of_padding hpad hf hlen hle]
    obtain ⟨hmem, hdata, hlen'⟩ := pull_of_le (f := { f with
      mem := copy (editedReq f) (f.data + txField f.mem f.data 24 2)
        (slice (editedReq f) f.data (flaggedLen f.mem f.data)) }) hle
    have hsize := flaggedLen_le f.mem f.data
    have hinfo : txreq0Size = 12 := rfl
    -- a byte that has been moved
    have hmoved : ∀ i < flaggedLen f.mem f.data,
        copy (editedReq f) (f.data + txField f.mem f.data 24 2)
          (slice (editedReq f) f.data (flaggedLen f.mem f.data))
          (f.data + txField f.mem f.data 24 2 + i) = editedReq f (f.data + i) := by
      intro i hi
      rw [copy_getElem (by rwa [length_slice])]
      simp [slice]
    constructor
    · exact hdata
    · exact hlen'
    · rw [hmem, hdata, ← getU32_editedReq hlen hle]
      exact getU32_of_bytes fun i hi => hmoved i (by omega)
    · intro i hi hi'
      rw [hmem, hdata]
      dsimp only
      rw [hmoved i hi', editedReq, setTxField_of_outside (by omega),
        setTxField_of_outside (by omega)]
    · intro i hi
      rw [hmem]
      dsimp only
      rw [copy_of_outside (by rw [length_slice]; omega), editedReq,
        setTxField_of_outside (by omega), setTxField_of_outside (by omega)]

/-! ## After `ssv6006_hal_fill_txreq0` -/

/-- What is left of the frame `f`, prefixed to `f'` with the optional fields `opt`, is `g`. -/
structure Unpadded (f f' g : HostFrame) (opt : List UInt8) : Prop where
  bytes : slice g.mem g.data g.len
    = slice g.mem g.data txreq0Size ++ (opt ++ slice f.mem f.data f.len)
  padding : txField g.mem g.data 24 2 = 0
  len : txField g.mem g.data 0 16 = g.len
  fields : ∀ p ∈ otherFields, txField g.mem g.data p.1 p.2 = txField f'.mem f'.data p.1 p.2
  words : ∀ i, 4 ≤ i → i < txreq0Size → g.mem (g.data + i) = f'.mem (f'.data + i)

/-- Taking the padding and the length of the padding off a word leaves the rest as it is. -/
theorem word_parts {w w' : ℕ} (hlt : w < 4294967296)
    (hword : w' = w - w / 16777216 % 4 * 16777216 - w / 16777216 % 4)
    (hle : w / 16777216 % 4 ≤ w % 65536) :
    w' % 65536 = w % 65536 - w / 16777216 % 4 ∧ w' / 65536 % 256 = w / 65536 % 256 ∧
      w' / 16777216 % 4 = 0 ∧ w' / 67108864 = w / 67108864 := by
  -- the parts of the word: length, flags, padding and the upper bits
  obtain ⟨l, hl⟩ : ∃ l, l = w % 65536 := ⟨_, rfl⟩
  obtain ⟨k, hk⟩ : ∃ k, k = w / 65536 % 256 := ⟨_, rfl⟩
  obtain ⟨p, hp⟩ : ∃ p, p = w / 16777216 % 4 := ⟨_, rfl⟩
  obtain ⟨h, hh⟩ : ∃ h, h = w / 67108864 := ⟨_, rfl⟩
  have hsum : w = l + 65536 * k + 16777216 * p + 67108864 * h := by omega
  have hl' : l < 65536 := by omega
  have hk' : k < 256 := by omega
  have hp' : p < 4 := by omega
  rw [← hl, ← hp, ← hk, ← hh]
  rw [← hp] at hword hle
  rw [← hl] at hle
  have hw' : w' = l - p + 65536 * k + 67108864 * h := by omega
  clear hword hp hk hh hl hsum
  refine ⟨?_, ?_, ?_, ?_⟩ <;> omega

/-- Each of the other fields lies in the flags or in the upper bits. -/
theorem otherFields_of_parts {m m' : Mem} {req0 req0' : ℕ}
    (hflags : getU32 m' req0' / 65536 % 256 = getU32 m req0 / 65536 % 256)
    (hupper : getU32 m' req0' / 67108864 = getU32 m req0 / 67108864) :
    ∀ p ∈ otherFields, txField m' req0' p.1 p.2 = txField m req0 p.1 p.2 := by
  simp only [otherFields, List.forall_mem_cons, txField, Nat.reducePow]
  generalize getU32 m req0 = w at *
  generalize getU32 m' req0' = w' at *
  have hdiv : ∀ k, w' / (67108864 * k) = w / (67108864 * k) := fun k => by
    rw [← Nat.div_div_eq_div_mul, ← Nat.div_div_eq_div_mul, hupper]
  clear hupper
  refine ⟨?_, ?_, ?_, ?_, ?_, ?_, ?_, ?_, ?_, ?_, ?_, fun p hp => absurd hp List.not_mem_nil⟩
  -- the first six are flags
  · omega
  · omega
  · omega
  · omega
  · omega
  · omega
  · exact congrArg (· % 2) (hdiv 1)
  · exact congrArg (· % 2) (hdiv 2)
  · exact congrArg (· % 2) (hdiv 4)
  · exact congrArg (· % 4) (hdiv 8)
  · exact congrArg (· % 2) (hdiv 32)

/-- The descriptor of a frame whose padding has been taken out. -/
theorem Compacted.descriptor {f g : HostFrame} (h : Compacted f g)
    (hlen : txField f.mem f.data 0 16 = f.len) (hle : txField f.mem f.data 24 2 ≤ f.len) :
    txField g.mem g.data 24 2 = 0 ∧ txField g.mem g.data 0 16 = g.len ∧
      ∀ p ∈ otherFields, txField g.mem g.data p.1 p.2 = txField f.mem f.data p.1 p.2 := by
  have hpadLe : txField f.mem f.data 24 2 ≤ txField f.mem f.data 0 16 := hlen ▸ hle
  have hword := h.word
  simp only [txField, Nat.reducePow, Nat.div_one] at hword hpadLe
  obtain ⟨hlow, hflags, hzero, hupper⟩ := word_parts (getU32_lt f.mem f.data) hword hpadLe
  refine ⟨?_, ?_, otherFields_of_parts hflags hupper⟩
  · simpa only [txField, Nat.reducePow, Nat.div_one] using hzero
  · have hlow' : txField g.mem g.data 0 16
        = txField f.mem f.data 0 16 - txField f.mem f.data 24 2 := by
      simpa only [txField, Nat.reducePow, Nat.div_one, Nat.pow_zero] using hlow
    rw [hlow', hlen, h.len]

theorem pushed_data (f : HostFrame) (priority : ℕ) (qos ht : Option ℕ) (addr4 : Option EtherAddr)
    (security txDscrpFlag vifIdx : UInt8) :
    (fillTxreq0 f priority qos ht addr4 false security txDscrpFlag vifIdx).data
        = (pushed f priority qos ht addr4).data ∧
      (fillTxreq0 f priority qos ht addr4 false security txDscrpFlag vifIdx).len
        = (pushed f priority qos ht addr4).len := by
  rw [fillTxreq0_eq]
  exact ⟨rfl, rfl⟩

/-- For every 802.3 frame in front of which there was room for descriptor, optional fields and
padding: they end up in front of the frame without a gap, and only the length and the padding have
changed in the descriptor. -/
theorem txHdlFrameProc_unpadded (f : HostFrame) (priority : ℕ) (qos ht : Option ℕ)
    (addr4 : Option EtherAddr) (security txDscrpFlag vifIdx : UInt8)
    (hroom : txreq0Size + (optFields priority qos ht addr4).length
      + paddingLen f priority qos ht addr4 ≤ f.room) :
    Unpadded f (fillTxreq0 f priority qos ht addr4 false security txDscrpFlag vifIdx)
      (txHdlFrameProc (fillTxreq0 f priority qos ht addr4 false security txDscrpFlag vifIdx))
      (optFields priority qos ht addr4) := by
  obtain ⟨hmem, hdata, hlen⟩ := pushed_spec f priority qos ht addr4 hroom
  obtain ⟨hfdata, hflen⟩ := pushed_data f priority qos ht addr4 security txDscrpFlag vifIdx
  obtain ⟨hlenField, -, hqos, hht, haddr4, hpad⟩ :=
    fillTxreq0_fields f priority qos ht addr4 security txDscrpFlag vifIdx
  obtain ⟨-, hopt, hbehind⟩ :=
    fillTxreq0_mem f priority qos ht addr4 security txDscrpFlag vifIdx
  have hf : txField (fillTxreq0 f priority qos ht addr4 false security txDscrpFlag vifIdx).mem
      (fillTxreq0 f priority qos ht addr4 false security txDscrpFlag vifIdx).data 19 1 = 0 :=
    (fillTxreq0_lowFields f priority qos ht addr4 false security txDscrpFlag vifIdx).2.2.1
  rw [hmem] at hbehind
  rw [← hfdata] at hdata
  rw [← hflen] at hlen
  generalize fillTxreq0 f priority qos ht addr4 false security txDscrpFlag vifIdx = f' at *
  have hsize : txreq0Size = 12 := rfl
  have hflagged : flaggedLen f'.mem f'.data
      = txreq0Size + (optFields priority qos ht addr4).length := by
    rw [flaggedLen, hqos, hht, haddr4, length_optFields]
    cases qos <;> cases ht <;> cases addr4 <;> simp
  rw [← hpad] at hdata hlen
  have hle : txField f'.mem f'.data 24 2 ≤ f'.len := by omega
  have h := txHdlFrameProc_compacted hf hlenField hle
  generalize txHdlFrameProc f' = g at *
  obtain ⟨hzero, hgfield, hothers⟩ := h.descriptor hlenField hle
  have hglen : g.len = txreq0Size + ((optFields priority qos ht addr4).length + f.len) := by
    rw [h.len]
    omega
  have hgdata := h.data
  constructor
  · have hoptBytes : slice g.mem (g.data + txreq0Size) (optFields priority qos ht addr4).length
        = optFields priority qos ht addr4 := by
      refine Eq.trans (slice_of_bytes fun i hi => ?_) (slice_copy_self f.mem
        (f'.data + txreq0Size) (optFields priority qos ht addr4))
      rw [Nat.add_assoc, h.moved _ (by omega) (by omega), ← Nat.add_assoc]
      exact hopt i hi
    have hdataBytes : slice g.mem
        (g.data + txreq0Size + (optFields priority qos ht addr4).length) f.len
          = slice f.mem f.data f.len := by
      apply slice_of_bytes
      intro i _
      rw [h.behind _ (by omega), hbehind _ (by omega)]
      congr 1
      omega
    rw [hglen, slice_append, slice_append, hoptBytes, hdataBytes]
  · exact hzero
  · exact hgfield
  · exact hothers
  · intro i hi hi'
    exact h.moved i hi (by omega)

/-- A frame of 60 bytes without optional fields: its two bytes of padding go. -/
theorem txHdlFrameProc_unpadded_someFrame :
    paddingLen someFrame 5 none none none = 2 ∧
      txField (txHdlFrameProc (fillTxreq0 someFrame 5 none none none false 1 0 0)).mem
        (txHdlFrameProc (fillTxreq0 someFrame 5 none none none false 1 0 0)).data 24 2 = 0 :=
  ⟨by decide, (txHdlFrameProc_unpadded someFrame 5 none none none 1 0 0 (by decide)).padding⟩

end Fullmac.Desc
