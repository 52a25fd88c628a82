import Fullmac.SmartLink.Model

/-!
# What a sender encodes and the decoder reads

The sender of the protocol is `encode`: four lengths that give the base away, then three commands,
each a list of bytes with its CRC-8 behind them and two lengths for every byte (`pairLens`), the
first with the index of the byte and the command number, the second with the byte.

A command is followed through two states. `Mid c₀ ds i` is the decoder right after the index `i`
has been seen: the bytes before `i` are stored. `Before c₀ k ds i` is the decoder when the index `i`
is due: the byte before it is kept but not yet stored. `rx_index` and `rx_byte` go from one to the
other, `rxAll_bytes` is the run over a whole command, and the last byte ends it
(`rx_crc`).

An index is sent shifted by the command number in a byte. In the third command, the SSID followed by
the password, that leaves six bits: the index of the CRC is the number of bytes, and from 64 bytes
on it is never seen. `Stuck` is kept by every frame whatever its length, so such a transfer never
ends. Besides, the password is copied with `strncpy`, which replaces what follows a NUL byte by
zeros (`strncpy_eq_self_iff`). `decode_encode_iff` says that nothing else goes wrong.
-/

namespace Fullmac.SmartLink

open Bytes (Mem copy slice)

/-! ## Sender -/

/-- The two lengths sent for byte `d` with index `i` of command `c`. -/
def pairLens (b : ℕ) (k : Mem) (c i : ℕ) (d : UInt8) : List ℕ :=
  [b + 256 + (((i <<< c) ||| c) ^^^ (k 0).toNat), b + (d ^^^ k i).toNat]

/-- Byte `i` of a command: the data and then their CRC-8. -/
def cmdByte (ds : List UInt8) (i : ℕ) : UInt8 := (ds ++ [crc8Msb poly ds]).getD i 0

/-- The lengths sent for the first `n` bytes of a command. -/
def bytesLens (b : ℕ) (k : Mem) (c : ℕ) (ds : List UInt8) (n : ℕ) : List ℕ :=
  (List.range n).flatMap fun i => pairLens b k c i (cmdByte ds i)

/-- The lengths sent for a command. -/
def cmdLens (b : ℕ) (k : Mem) (c : ℕ) (ds : List UInt8) : List ℕ :=
  bytesLens b k c ds (ds.length + 1)

/-- The lengths that carry an SSID, a password and the phone's IP address. -/
def encode (b : ℕ) (k : Mem) (ssid pass ip : List UInt8) : List ℕ :=
  [b, b + 1, b + 2, b + 3] ++ cmdLens b k 0 magicNum
    ++ cmdLens b k 1 ([UInt8.ofNat ssid.length, UInt8.ofNat pass.length] ++ ip)
    ++ cmdLens b k 2 (ssid ++ pass)

/-- Frame after frame through `rx_process_smartConf`. -/
def rxAll (s : Decoder) (fs : List Frame) : Decoder := fs.foldl rxProcessSmartConf s

/-- The caller is told that the transfer is complete and gets exactly this SSID and password. -/
def Decoded (s : Decoder) (ssid pass : List UInt8) : Prop :=
  getSmartLinkStatus s = .complete ∧ ∃ r, getSmartLinkResult s = some r ∧
    r.ssidLen.toNat = ssid.length ∧ slice r.ssid 0 r.ssidLen.toNat = ssid ∧
    r.keyLen.toNat = pass.length ∧ slice r.key 0 r.keyLen.toNat = pass

/-! ## One frame -/

/-- The decoder is past the search for the base, which is `b`, and in a command. -/
structure Locked (b : ℕ) (c : Chan) : Prop where
  active : c.state.val ≤ 2
  count : c.baseLenBufCount = 6
  base : (c.checkBaseLenBuf 0).toNat = b

@[simp] theorem setChan_setChan (s : Decoder) (m : Mode) (c c' : Chan) :
    (s.setChan m c).setChan m c' = s.setChan m c' := by simp [Decoder.setChan]

/-- What no frame of a command changes before the command is complete. -/
def Chan.fixed (c : Chan) : CmdNum × UInt8 × Mem × UInt8 × UInt8 :=
  (c.state, c.baseLenBufCount, c.checkBaseLenBuf, c.ssidLen, c.passLen)

@[simp] theorem fixed_setCmdLen (c : Chan) : (setCmdLen c).fixed = c.fixed := by
  unfold setCmdLen
  split <;> rfl

@[simp] theorem fixed_checkSeqSetPacket (k : Mem) (c : Chan) (v : UInt8) :
    (checkSeqSetPacket k c v).fixed = c.fixed := by
  unfold checkSeqSetPacket
  dsimp only
  split <;> rfl

@[simp] theorem fixed_saveData (c : Chan) (v : UInt8) : (saveData c v).fixed = c.fixed := by
  unfold saveData
  split <;> rfl

theorem state_of_fixed {c c' : Chan} (h : c'.fixed = c.fixed) : c'.state = c.state :=
  congrArg (·.1) h

theorem locked_of_fixed {b : ℕ} {c c' : Chan} (h : c'.fixed = c.fixed) (hc : Locked b c) :
    Locked b c' := by
  simp only [Chan.fixed, Prod.mk.injEq] at h
  obtain ⟨hst, hcount, hbuf, -, -⟩ := h
  exact ⟨hst ▸ hc.active, hcount ▸ hc.count, hbuf ▸ hc.base⟩

/-- The length of the command at hand depends on what is fixed. -/
theorem cmdNumLen_of_fixed {b : ℕ} {c c' : Chan} (h : c'.fixed = c.fixed) (hc : Locked b c) :
    (setCmdLen c').cmdNumLen = (setCmdLen c).cmdNumLen := by
  have hact := hc.active
  simp only [Chan.fixed, Prod.mk.injEq] at h
  obtain ⟨hst, -, -, hs, hp⟩ := h
  unfold setCmdLen
  rw [hst, hs, hp]
  cases hstate : c.state <;> simp_all [CmdNum.val]

theorem setCmdLen_backSeq (c : Chan) : (setCmdLen c).backSeq = c.backSeq := by
  unfold setCmdLen
  split <;> rfl

theorem setCmdLen_backData (c : Chan) : (setCmdLen c).backData = c.backData := by
  unfold setCmdLen
  split <;> rfl

theorem setCmdLen_packet (c : Chan) : (setCmdLen c).packet = c.packet := by
  unfold setCmdLen
  split <;> rfl

variable {s : Decoder} {c c₀ : Chan} {f : Frame} {b v : ℕ}

theorem rx_locked (hc : Locked b c) :
    rxProcessSmartConf (s.setChan f.type c) f = setSmartConfData (s.setChan f.type c) f.type f := by
  have hact := hc.active
  unfold rxProcessSmartConf
  rw [Decoder.setChan_chan_self]
  cases hstate : c.state <;> simp_all [CmdNum.val]

/-- A length of at least the base plus 256 is an index. -/
theorem rx_seq (hc : Locked b c) (hlen : f.rxLen = b + 256 + v) :
    rxProcessSmartConf (s.setChan f.type c) f
      = s.setChan f.type (checkSeqSetPacket s.sonkey (setCmdLen c) (UInt8.ofNat v)) := by
  have hcount : ¬ c.baseLenBufCount.toNat ≤ 5 := by rw [hc.count]; decide
  have hbase := hc.base
  have hsize : f.rxLen - (c.checkBaseLenBuf 0).toNat = 256 + v := by omega
  rw [rx_locked hc, setSmartConfData]
  simp only [Decoder.setChan_chan_self, if_neg hcount, hsize, setChan_setChan,
    Decoder.setChan_sonkey]
  rw [if_neg (by omega), if_pos (by omega), Nat.add_sub_cancel_left]

/-- A shorter one, not below the base, is a byte. -/
theorem rx_data (hc : Locked b c) (hv : v < 256) (hlen : f.rxLen = b + v) :
    rxProcessSmartConf (s.setChan f.type c) f
      = checkCrcWithSaveData (s.setChan f.type (setCmdLen c)) f.type f (UInt8.ofNat v) := by
  have hcount : ¬ c.baseLenBufCount.toNat ≤ 5 := by rw [hc.count]; decide
  have hbase := hc.base
  have hsize : f.rxLen - (c.checkBaseLenBuf 0).toNat = v := by omega
  rw [rx_locked hc, setSmartConfData]
  simp only [Decoder.setChan_chan_self, if_neg hcount, hsize, setChan_setChan]
  rw [if_neg (by omega), if_neg (by omega)]

/-- A byte that does not end a command is kept. -/
theorem rx_data_of_not_crcMatches (hc : Locked b c) (hv : v < 256) (hlen : f.rxLen = b + v)
    (hcrc : ¬ crcMatches s.sonkey (saveData (setCmdLen c) (UInt8.ofNat v))) :
    rxProcessSmartConf (s.setChan f.type c) f
      = s.setChan f.type (saveData (setCmdLen c) (UInt8.ofNat v)) := by
  rw [rx_data hc hv hlen, checkCrcWithSaveData]
  simp only [Decoder.setChan_chan_self, setChan_setChan, Decoder.setChan_sonkey, if_neg hcrc]

/-! ## Indices in a byte -/

theorem ofNat_xor_cancel (a : ℕ) (x : UInt8) :
    UInt8.ofNat (a ^^^ x.toNat) ^^^ x = UInt8.ofNat a := by
  rw [UInt8.ofNat_xor, UInt8.ofNat_toNat, UInt8.xor_assoc, UInt8.xor_self, UInt8.xor_zero]

theorem index_and_self (i c : ℕ) : (i <<< c ||| c) &&& c = c := by
  apply Nat.eq_of_testBit_eq
  intro j
  simp only [Nat.testBit_and, Nat.testBit_or]
  cases c.testBit j <;> simp

theorem index_shiftRight (i c : ℕ) : (i <<< c ||| c) >>> c = i := by
  rw [Nat.shiftRight_or_distrib, Nat.shiftLeft_shiftRight]
  have : c >>> c = 0 := by
    rw [Nat.shiftRight_eq_div_pow]
    exact Nat.div_eq_of_lt Nat.lt_two_pow_self
  rw [this, Nat.or_zero]

/-- Below 64, a shifted index fits into a byte. -/
theorem index_lt {i c : ℕ} (hi : i < 64) (hc : c ≤ 2) : i <<< c ||| c < 256 := by
  have hpow : 2 ^ c ≤ 2 ^ 2 := Nat.pow_le_pow_right (by decide) hc
  have hshift : i <<< c < 2 ^ 8 := by
    rw [Nat.shiftLeft_eq]
    calc i * 2 ^ c ≤ i * 2 ^ 2 := Nat.mul_le_mul_left i hpow
      _ < 2 ^ 8 := by omega
  exact Nat.or_lt_two_pow hshift (by omega)

/-! ## A command -/

/-- The index `i` has been seen: the bytes before it are stored, its own is due. -/
structure Mid (c₀ : Chan) (ds : List UInt8) (i : ℕ) (c : Chan) : Prop where
  fixed : c.fixed = c₀.fixed
  seq : c.backSeq.toNat = i
  data : c.backData = none
  stored : ∀ j < i, c.packet j = ds.getD j 0

/-- The index `i` is due: the byte before it is kept, the ones before that are stored. -/
def Before (c₀ : Chan) (k : Mem) (ds : List UInt8) : ℕ → Chan → Prop
  | 0, c => Mid c₀ ds 0 c
  | i + 1, c => ∃ c', Mid c₀ ds i c' ∧ c = saveData (setCmdLen c') (ds.getD i 0 ^^^ k i)

theorem mid_setCmdLen {ds : List UInt8} {i : ℕ} (h : Mid c₀ ds i c) :
    Mid c₀ ds i (setCmdLen c) where
  fixed := by rw [fixed_setCmdLen, h.fixed]
  seq := by rw [setCmdLen_backSeq, h.seq]
  data := by rw [setCmdLen_backData, h.data]
  stored := by rw [setCmdLen_packet]; exact h.stored

theorem mid_saveData {ds : List UInt8} {i : ℕ} (h : Mid c₀ ds i c) (d : UInt8) :
    saveData c d = { c with backData := some d } := by
  rw [saveData, h.data]

theorem fixed_of_before {k : Mem} {ds : List UInt8} {i : ℕ} (h : Before c₀ k ds i c) :
    c.fixed = c₀.fixed := by
  cases i with
  | zero => exact h.fixed
  | succ i =>
    obtain ⟨c', hmid, rfl⟩ := h
    simp [hmid.fixed]

/-- What `checkSeqSetPacket` has in the packet when the due index arrives. -/
theorem storeBack_of_before {k : Mem} {ds : List UInt8} {i : ℕ} (hi : i < 256)
    (h : Before c₀ k ds i c) : ∀ j < i, storeBack k (setCmdLen c) i j = ds.getD j 0 := by
  cases i with
  | zero => intro j hj; omega
  | succ i =>
    obtain ⟨c', hmid, rfl⟩ := h
    have hmid' := mid_setCmdLen hmid
    intro j hj
    rw [storeBack, setCmdLen_backData, setCmdLen_backSeq, setCmdLen_packet, mid_saveData hmid']
    simp only [hmid'.seq, if_true]
    rcases Nat.lt_succ_iff_lt_or_eq.mp hj with hlt | rfl
    · rw [Function.update_of_ne (by omega)]
      exact hmid'.stored j hlt
    · rw [Function.update_self, decryption, hmid'.seq, UInt8.xor_assoc, UInt8.xor_self,
        UInt8.xor_zero]

section Command

variable {ds : List UInt8} {i : ℕ}

/-- The due index arrives. -/
theorem rx_index (h₀ : Locked b c₀) (hlen₀ : (setCmdLen c₀).cmdNumLen.toNat = ds.length + 1)
    (hds : ds.length < 64) (hi : i ≤ ds.length)
    (h : Before c₀ s.sonkey ds i c)
    (hf : f.rxLen = b + 256 + ((i <<< c₀.state.val ||| c₀.state.val) ^^^ (s.sonkey 0).toNat)) :
    ∃ c', Mid c₀ ds i c' ∧
      rxProcessSmartConf (s.setChan f.type c) f = s.setChan f.type c' := by
  have hfixed := fixed_of_before h
  have hc := locked_of_fixed hfixed h₀
  have hcmd : (setCmdLen c).cmdNumLen.toNat = ds.length + 1 := by
    rw [cmdNumLen_of_fixed hfixed h₀, hlen₀]
  have hfit : i <<< c₀.state.val ||| c₀.state.val < 256 := index_lt (by omega) h₀.active
  have hstate : (setCmdLen c).state = c₀.state := state_of_fixed (by simp [hfixed])
  refine ⟨_, ?_, rx_seq hc hf⟩
  -- the byte decrypts to the shifted index with the command number in its low bits
  have hseq : (decryptionSeq s.sonkey (UInt8.ofNat
      ((i <<< c₀.state.val ||| c₀.state.val) ^^^ (s.sonkey 0).toNat))).toNat
        = i <<< c₀.state.val ||| c₀.state.val := by
    rw [decryptionSeq, ofNat_xor_cancel, UInt8.toNat_ofNat', Nat.mod_eq_of_lt hfit]
  have heq : checkSeqSetPacket s.sonkey (setCmdLen c) (UInt8.ofNat
      ((i <<< c₀.state.val ||| c₀.state.val) ^^^ (s.sonkey 0).toNat))
        = { setCmdLen c with packet := storeBack s.sonkey (setCmdLen c) i
                             backSeq := UInt8.ofNat i
                             backData := none } := by
    rw [checkSeqSetPacket]
    simp only [hstate, hseq, index_and_self, index_shiftRight]
    rw [if_pos ⟨trivial, by omega⟩]
  rw [heq]
  exact
    { fixed := (fixed_setCmdLen c).trans hfixed
      seq := by simp only [UInt8.toNat_ofNat']; omega
      data := rfl
      stored := storeBack_of_before (by omega) h }

/-- A byte arrives that is not the last one of the command. -/
theorem rx_byte (h₀ : Locked b c₀) (hlen₀ : (setCmdLen c₀).cmdNumLen.toNat = ds.length + 1)
    (hi : i < ds.length) (h : Mid c₀ ds i c)
    (hf : f.rxLen = b + (cmdByte ds i ^^^ s.sonkey i).toNat) :
    ∃ c', Before c₀ s.sonkey ds (i + 1) c' ∧
      rxProcessSmartConf (s.setChan f.type c) f = s.setChan f.type c' := by
  have hbyte : cmdByte ds i = ds.getD i 0 := by
    rw [cmdByte, List.getD_append _ _ _ _ hi]
  have hcmd : (setCmdLen c).cmdNumLen.toNat = ds.length + 1 := by
    rw [cmdNumLen_of_fixed h.fixed h₀, hlen₀]
  refine ⟨_, ⟨c, h, rfl⟩, ?_⟩
  rw [hbyte] at hf
  have hdata := rx_data_of_not_crcMatches (s := s) (locked_of_fixed h.fixed h₀)
    (UInt8.toNat_lt _) hf
  rw [UInt8.ofNat_toNat] at hdata
  apply hdata
  rintro ⟨hend, -⟩
  rw [mid_saveData (mid_setCmdLen h)] at hend
  have hseq := (mid_setCmdLen h).seq
  simp only at hend
  omega

theorem bytesLens_succ (b : ℕ) (k : Mem) (n : ℕ) (ds : List UInt8) (i : ℕ) :
    bytesLens b k n ds (i + 1) = bytesLens b k n ds i ++ pairLens b k n i (cmdByte ds i) := by
  simp [bytesLens, List.range_succ]

theorem rxAll_append (s : Decoder) (fs gs : List Frame) :
    rxAll s (fs ++ gs) = rxAll (rxAll s fs) gs := by simp [rxAll]

/-- The run over the first bytes of a command. -/
theorem rxAll_bytes {m : Mode} {fs : List Frame} (h₀ : Locked b c₀)
    (hlen₀ : (setCmdLen c₀).cmdNumLen.toNat = ds.length + 1)
    (hds : ds.length < 64) (hi : i ≤ ds.length) (h : Mid c₀ ds 0 c)
    (hm : ∀ f ∈ fs, f.type = m)
    (hfs : fs.map Frame.rxLen = bytesLens b s.sonkey c₀.state.val ds i) :
    ∃ c', Before c₀ s.sonkey ds i c' ∧ rxAll (s.setChan m c) fs = s.setChan m c' := by
  induction i generalizing fs with
  | zero =>
    have : fs = [] := by simpa [bytesLens] using hfs
    subst this
    exact ⟨c, h, rfl⟩
  | succ i ih =>
    rw [bytesLens_succ] at hfs
    obtain ⟨fs, gs, rfl, hfs, hgs⟩ := List.map_eq_append_iff.mp hfs
    obtain ⟨c₁, hbefore, hrun⟩ := ih (by omega) (fun f hf => hm f (by simp [hf])) hfs
    -- the pair of lengths for byte `i`
    obtain ⟨f₁, f₂, rfl, hf₁, hf₂⟩ : ∃ f₁ f₂, gs = [f₁, f₂] ∧
        f₁.rxLen = b + 256 + ((i <<< c₀.state.val ||| c₀.state.val) ^^^ (s.sonkey 0).toNat) ∧
        f₂.rxLen = b + (cmdByte ds i ^^^ s.sonkey i).toNat := by
      simpa [pairLens, List.map_eq_cons_iff, and_assoc] using hgs
    obtain rfl : f₁.type = m := hm f₁ (by simp)
    have hm₂ : f₂.type = f₁.type := hm f₂ (by simp)
    obtain ⟨c₂, hmid, hrx₁⟩ := rx_index h₀ hlen₀ hds (by omega) hbefore hf₁
    obtain ⟨c₃, hbefore', hrx₂⟩ := rx_byte (s := s) h₀ hlen₀ (by omega) hmid hf₂
    rw [hm₂] at hrx₂
    refine ⟨c₃, hbefore', ?_⟩
    rw [rxAll_append, hrun]
    simp only [rxAll, List.foldl_cons, List.foldl_nil, hrx₁, hrx₂]

/-- The run over a whole command, up to its last byte. -/
theorem rxAll_cmd {m : Mode} {fs : List Frame} (h₀ : Locked b c₀)
    (hlen₀ : (setCmdLen c₀).cmdNumLen.toNat = ds.length + 1) (hds : ds.length < 64)
    (h : Mid c₀ ds 0 c) (hm : ∀ f ∈ fs, f.type = m)
    (hfs : fs.map Frame.rxLen = cmdLens b s.sonkey c₀.state.val ds) :
    ∃ c' f, Mid c₀ ds ds.length c' ∧ f.type = m ∧
      f.rxLen = b + (crc8Msb poly ds ^^^ s.sonkey ds.length).toNat ∧
      rxAll (s.setChan m c) fs = rxProcessSmartConf (s.setChan m c') f := by
  rw [cmdLens, bytesLens_succ] at hfs
  obtain ⟨fs, gs, rfl, hfs, hgs⟩ := List.map_eq_append_iff.mp hfs
  have hcrc : cmdByte ds ds.length = crc8Msb poly ds := by
    rw [cmdByte, List.getD_append_right _ _ _ _ (Nat.le_refl _), Nat.sub_self]
    rfl
  obtain ⟨c₁, hbefore, hrun⟩ := rxAll_bytes h₀ hlen₀ hds (Nat.le_refl _) h
    (fun f hf => hm f (by simp [hf])) hfs
  obtain ⟨f₁, f₂, rfl, hf₁, hf₂⟩ : ∃ f₁ f₂, gs = [f₁, f₂] ∧
      f₁.rxLen = b + 256
        + ((ds.length <<< c₀.state.val ||| c₀.state.val) ^^^ (s.sonkey 0).toNat) ∧
      f₂.rxLen = b + (crc8Msb poly ds ^^^ s.sonkey ds.length).toNat := by
    simpa [pairLens, List.map_eq_cons_iff, and_assoc, hcrc] using hgs
  obtain rfl : f₁.type = m := hm f₁ (by simp)
  obtain ⟨c₂, hmid, hrx₁⟩ := rx_index h₀ hlen₀ hds (Nat.le_refl _) hbefore hf₁
  refine ⟨c₂, f₂, hmid, hm f₂ (by simp), hf₂, ?_⟩
  rw [rxAll_append, hrun]
  simp only [rxAll, List.foldl_cons, List.foldl_nil, hrx₁]

/-- What is stored when the last index has been seen. -/
theorem slice_of_mid (h : Mid c₀ ds ds.length c) : slice c.packet 0 ds.length = ds := by
  apply List.ext_getElem (by simp)
  intro j _ hj
  simp only [slice, List.getElem_map, List.getElem_range, Nat.zero_add, h.stored j hj]
  exact List.getD_eq_getElem ds 0 hj

/-- The last byte of a command is its CRC-8, and the command is complete. -/
theorem rx_crc (h₀ : Locked b c₀) (hlen₀ : (setCmdLen c₀).cmdNumLen.toNat = ds.length + 1)
    (h : Mid c₀ ds ds.length c)
    (hf : f.rxLen = b + (crc8Msb poly ds ^^^ s.sonkey ds.length).toNat) :
    ∃ c', c'.fixed = c₀.fixed ∧ slice c'.packet 0 ds.length = ds ∧
      rxProcessSmartConf (s.setChan f.type c) f = endCmd (s.setChan f.type c') f.type f := by
  have hmid := mid_setCmdLen h
  set d := crc8Msb poly ds ^^^ s.sonkey ds.length with hd
  have hcmd : (setCmdLen c).cmdNumLen.toNat = ds.length + 1 := by
    rw [cmdNumLen_of_fixed h.fixed h₀, hlen₀]
  have hsave := mid_saveData hmid d
  have hslice := slice_of_mid hmid
  have hcrc : crcMatches s.sonkey (saveData (setCmdLen c) d) := by
    rw [hsave, crcMatches]
    simp only [hmid.seq, hcmd, Nat.add_sub_cancel, Option.getD_some, decryption, true_and]
    rw [hslice, hd, UInt8.xor_assoc, UInt8.xor_self, UInt8.xor_zero]
  refine ⟨saveData (setCmdLen c) d, by simp [h.fixed], ?_, ?_⟩
  · rw [hsave]
    exact hslice
  · rw [rx_data (locked_of_fixed h.fixed h₀) (UInt8.toNat_lt _) hf, UInt8.ofNat_toNat,
      checkCrcWithSaveData]
    simp only [Decoder.setChan_chan_self, setChan_setChan, Decoder.setChan_sonkey, if_pos hcrc]

end Command

/-! ## From the first frame to the third command -/

/-- A command is about to begin. -/
structure Entry (b : ℕ) (st : CmdNum) (c : Chan) : Prop where
  state : c.state = st
  locked : Locked b c
  seq : c.backSeq = 0
  data : c.backData = none

theorem Entry.mid {st : CmdNum} (h : Entry b st c) (ds : List UInt8) : Mid c ds 0 c where
  fixed := rfl
  seq := by rw [h.seq]; rfl
  data := h.data
  stored := by intro j hj; omega

/-- A whole command, up to what its last byte brings about. -/
theorem rxAll_entry {st : CmdNum} {ds : List UInt8} {m : Mode} {fs : List Frame}
    (h : Entry b st c) (hlen : (setCmdLen c).cmdNumLen.toNat = ds.length + 1)
    (hds : ds.length < 64) (hm : ∀ f ∈ fs, f.type = m)
    (hfs : fs.map Frame.rxLen = cmdLens b s.sonkey st.val ds) :
    ∃ c' f, c'.fixed = c.fixed ∧ slice c'.packet 0 ds.length = ds ∧
      rxAll (s.setChan m c) fs = endCmd (s.setChan m c') m f := by
  rw [← h.state] at hfs
  obtain ⟨c₁, f, hmid, rfl, hf, hrun⟩ := rxAll_cmd h.locked hlen hds (h.mid ds) hm hfs
  obtain ⟨c₂, hfixed, hslice, hrx⟩ := rx_crc h.locked hlen hmid hf
  exact ⟨c₂, f, hfixed, hslice, hrun.trans hrx⟩

/-- The decoder with the lengths `b`, `b + 1`, ... seen, `j` of them. -/
def baseChan (b j : ℕ) : Chan :=
  { initChan with
    checkBaseLenBuf := fun i => if i < j then UInt8.ofNat (b + i) else 0
    baseLenBufCount := UInt8.ofNat j }

/-- The decoder when four lengths that go up by one have been seen. -/
def lockedChan (b : ℕ) : Chan := { baseChan b 4 with baseLenBufCount := 6, state := .start }

theorem entry_lockedChan (hb : b + 3 ≤ 255) : Entry b .start (lockedChan b) where
  state := rfl
  locked :=
    { active := Nat.zero_le 2
      count := rfl
      base := by
        have : (UInt8.ofNat b).toNat = b := by rw [UInt8.toNat_ofNat']; omega
        exact this }
  seq := rfl
  data := rfl

theorem baseChan_buf {j i : ℕ} (hb : b + 3 ≤ 255) (hi : i ≤ 3) :
    ((baseChan b j).checkBaseLenBuf i).toNat = if i < j then b + i else 0 := by
  simp only [baseChan]
  split
  · rw [UInt8.toNat_ofNat']
    omega
  · rfl

theorem update_baseChan_buf (b j : ℕ) :
    Function.update (baseChan b j).checkBaseLenBuf j (UInt8.ofNat (b + j))
      = (baseChan b (j + 1)).checkBaseLenBuf := by
  funext i
  simp only [Function.update_apply, baseChan]
  rcases Nat.lt_trichotomy i j with h | rfl | h
  · rw [if_neg (by omega), if_pos h, if_pos (by omega)]
  · simp
  · rw [if_neg (by omega), if_neg (by omega), if_neg (by omega)]

theorem storeBase_baseChan {j : ℕ} (hb : 0 < b ∧ b + 3 ≤ 255) (hj : j ≤ 3) :
    storeBase (baseChan b j) (UInt8.ofNat (b + j))
      = if j = 3 then lockedChan b else baseChan b (j + 1) := by
  have hcount : (baseChan b j).baseLenBufCount.toNat = j := by
    simp only [baseChan, UInt8.toNat_ofNat']
    omega
  have hup : goesUp (baseChan b (j + 1)).checkBaseLenBuf ↔ j = 3 := by
    constructor
    · intro h
      by_contra hne
      have h2 := h 2 (by omega)
      rw [baseChan_buf hb.2 (by omega), baseChan_buf hb.2 (by omega)] at h2
      split at h2 <;> split at h2 <;> omega
    · rintro rfl i hi
      rw [baseChan_buf hb.2 (by omega), baseChan_buf hb.2 (by omega), if_pos (by omega),
        if_pos (by omega)]
      omega
  rw [storeBase]
  simp only [hcount, update_baseChan_buf, hup]
  by_cases h3 : j = 3
  · subst h3
    rfl
  · rw [if_neg h3, if_neg (by omega), if_neg h3]
    have : (j + 1) % 5 = j + 1 := by omega
    rw [this]
    rfl

theorem checkBaseLen_baseChan {j : ℕ} (hb : 0 < b ∧ b + 3 ≤ 255) (hj : j ≤ 3) :
    checkBaseLen (baseChan b j) (UInt8.ofNat (b + j))
      = if j = 3 then lockedChan b else baseChan b (j + 1) := by
  have hvalue : (UInt8.ofNat (b + j)).toNat = b + j := by rw [UInt8.toNat_ofNat']; omega
  have hcount : (baseChan b j).baseLenBufCount.toNat = j := by
    simp only [baseChan, UInt8.toNat_ofNat']
    omega
  have hfirst : ¬ UInt8.ofNat (b + j) ≤ (baseChan b j).checkBaseLenBuf 0 := by
    rw [UInt8.le_iff_toNat_le, hvalue, baseChan_buf hb.2 (by omega)]
    split <;> omega
  have hlast : 0 < j →
      (UInt8.ofNat (b + j)).toNat = ((baseChan b j).checkBaseLenBuf (j - 1)).toNat + 1 := by
    intro hpos
    rw [hvalue, baseChan_buf hb.2 (by omega), if_pos (by omega)]
    omega
  have hpos : 0 < (baseChan b j).baseLenBufCount ↔ 0 < j := by
    rw [UInt8.lt_iff_toNat_lt, hcount]
    rfl
  rw [checkBaseLen]
  simp only [if_neg hfirst, hcount, hpos]
  rw [if_neg, if_neg]
  · exact storeBase_baseChan hb hj
  · rintro ⟨h, hne⟩
    exact hne (hlast h)
  · rintro ⟨h, heq⟩
    have := hlast h
    rw [heq] at this
    omega

theorem rx_check (hst : c.state = .check) (hcount : c.baseLenBufCount.toNat ≤ 5) :
    rxProcessSmartConf (s.setChan f.type c) f
      = s.setChan f.type (checkBaseLen c (UInt8.ofNat f.rxLen)) := by
  rw [rxProcessSmartConf]
  simp only [Decoder.setChan_chan_self, hst]
  rw [setSmartConfData]
  simp only [Decoder.setChan_chan_self, if_pos hcount, setChan_setChan]

/-- One of the four lengths at the beginning. -/
theorem rx_base {j : ℕ} (hb : 0 < b ∧ b + 3 ≤ 255) (hj : j ≤ 3) (hf : f.rxLen = b + j) :
    rxProcessSmartConf (s.setChan f.type (baseChan b j)) f
      = s.setChan f.type (if j = 3 then lockedChan b else baseChan b (j + 1)) := by
  rw [rx_check rfl, hf, checkBaseLen_baseChan hb hj]
  simp only [baseChan, UInt8.toNat_ofNat']
  omega

theorem rxAll_base {m : Mode} {fs : List Frame} (hb : 0 < b ∧ b + 3 ≤ 255)
    (hm : ∀ f ∈ fs, f.type = m) (hfs : fs.map Frame.rxLen = [b, b + 1, b + 2, b + 3]) :
    rxAll (s.setChan m (baseChan b 0)) fs = s.setChan m (lockedChan b) := by
  obtain ⟨f₀, f₁, f₂, f₃, rfl, h₀, h₁, h₂, h₃⟩ : ∃ f₀ f₁ f₂ f₃, fs = [f₀, f₁, f₂, f₃] ∧
      f₀.rxLen = b ∧ f₁.rxLen = b + 1 ∧ f₂.rxLen = b + 2 ∧ f₃.rxLen = b + 3 := by
    simpa [List.map_eq_cons_iff, and_assoc] using hfs
  obtain rfl := hm f₀ (by simp)
  have e₀ := rx_base (s := s) (j := 0) hb (by omega) h₀
  have e₁ := rx_base (s := s) (j := 1) hb (by omega) h₁
  have e₂ := rx_base (s := s) (j := 2) hb (by omega) h₂
  have e₃ := rx_base (s := s) (j := 3) hb (by omega) h₃
  rw [hm f₁ (by simp)] at e₁
  rw [hm f₂ (by simp)] at e₂
  rw [hm f₃ (by simp)] at e₃
  simp only [rxAll, List.foldl_cons, List.foldl_nil, e₀]
  simp [e₁, e₂, e₃]

/-- The first command carries the magic number. -/
theorem rxAll_start {m : Mode} {fs : List Frame} (h : Entry b .start c)
    (hm : ∀ f ∈ fs, f.type = m) (hfs : fs.map Frame.rxLen = cmdLens b s.sonkey 0 magicNum) :
    ∃ c', Entry b .info c' ∧ rxAll (s.setChan m c) fs = s.setChan m c' := by
  have hlen : (setCmdLen c).cmdNumLen.toNat = magicNum.length + 1 := by
    rw [setCmdLen, h.state]
    rfl
  obtain ⟨c', f, hfixed, hslice, hrun⟩ := rxAll_entry h hlen (by decide) hm hfs
  have hc' := locked_of_fixed hfixed h.locked
  have hst : c'.state = .start := (state_of_fixed hfixed).trans h.state
  refine ⟨endStart c', ?_, ?_⟩
  · rw [endStart, if_pos hslice]
    exact ⟨rfl, ⟨Nat.le_succ 1, hc'.count, hc'.base⟩, rfl, rfl⟩
  · rw [hrun, endCmd]
    simp only [Decoder.setChan_chan_self, hst, setChan_setChan]

/-- The second command carries the two lengths and the phone's address. -/
theorem rxAll_info {m : Mode} {fs : List Frame} {n p : UInt8} {ip : List UInt8}
    (hip : ip.length = 4) (h : Entry b .info c) (hm : ∀ f ∈ fs, f.type = m)
    (hfs : fs.map Frame.rxLen = cmdLens b s.sonkey 1 ([n, p] ++ ip)) :
    ∃ c', Entry b .ssidPassData c' ∧ c'.ssidLen = n ∧ c'.passLen = p ∧
      rxAll (s.setChan m c) fs = s.setChan m c' := by
  have hds : ([n, p] ++ ip).length = 6 := by simp [hip]
  have hlen : (setCmdLen c).cmdNumLen.toNat = ([n, p] ++ ip).length + 1 := by
    rw [setCmdLen, h.state, hds]
    rfl
  obtain ⟨c', f, hfixed, hslice, hrun⟩ := rxAll_entry h hlen (by omega) hm hfs
  have hc' := locked_of_fixed hfixed h.locked
  have hst : c'.state = .info := (state_of_fixed hfixed).trans h.state
  have hbytes : c'.packet 0 = n ∧ c'.packet 1 = p := by
    rw [hds] at hslice
    simp only [slice, List.range_succ_eq_map, List.map_cons, List.cons_append,
      List.cons.injEq] at hslice
    exact ⟨hslice.1, hslice.2.1⟩
  refine ⟨endInfo c' m f, ⟨rfl, ⟨Nat.le_refl 2, hc'.count, hc'.base⟩, rfl, rfl⟩, hbytes.1,
    hbytes.2, ?_⟩
  rw [hrun, endCmd]
  simp only [Decoder.setChan_chan_self, hst, setChan_setChan]

/-- Everything before the third command. -/
theorem rxAll_upToData {m : Mode} {fs : List Frame} {n p : UInt8} {ip : List UInt8}
    (hb : 0 < b ∧ b + 3 ≤ 255) (hip : ip.length = 4) (hm : ∀ f ∈ fs, f.type = m)
    (hfs : fs.map Frame.rxLen = [b, b + 1, b + 2, b + 3] ++ cmdLens b s.sonkey 0 magicNum
      ++ cmdLens b s.sonkey 1 ([n, p] ++ ip)) :
    ∃ c, Entry b .ssidPassData c ∧ c.ssidLen = n ∧ c.passLen = p ∧
      rxAll (s.setChan m initChan) fs = s.setChan m c := by
  obtain ⟨fs, fs₂, rfl, hfs, hfs₂⟩ := List.map_eq_append_iff.mp hfs
  obtain ⟨fs₀, fs₁, rfl, hfs₀, hfs₁⟩ := List.map_eq_append_iff.mp hfs
  have hinit : initChan = baseChan b 0 := by simp [baseChan, initChan]
  have e₀ := rxAll_base (s := s) hb (fun f hf => hm f (by simp [hf])) hfs₀
  obtain ⟨c₁, h₁, e₁⟩ := rxAll_start (entry_lockedChan hb.2) (fun f hf => hm f (by simp [hf])) hfs₁
  obtain ⟨c₂, h₂, hn, hp, e₂⟩ := rxAll_info hip h₁ (fun f hf => hm f (by simp [hf])) hfs₂
  refine ⟨c₂, h₂, hn, hp, ?_⟩
  rw [rxAll_append, rxAll_append, hinit, e₀, e₁, e₂]

/-! ## The third command -/

@[simp] theorem length_strncpy (src : List UInt8) : (strncpy src).length = src.length := by
  induction src with
  | nil => rfl
  | cons b src ih =>
    rw [strncpy]
    split <;> simp [ih]

/-- `strncpy` copies faithfully exactly when nothing but NUL bytes follows a NUL byte. -/
theorem strncpy_eq_self_iff (src : List UInt8) :
    strncpy src = src ↔ src.Pairwise fun x y => x = 0 → y = 0 := by
  induction src with
  | nil => simp [strncpy]
  | cons b src ih =>
    rw [strncpy, List.pairwise_cons]
    by_cases hb : b = 0
    · simp only [hb, if_true, List.cons.injEq, true_and, forall_const]
      constructor
      · intro h
        have hzero : ∀ y ∈ src, y = 0 := by
          intro y hy
          rw [← h, List.mem_map] at hy
          obtain ⟨-, -, rfl⟩ := hy
          rfl
        refine ⟨hzero, List.pairwise_of_forall_mem_list ?_⟩
        intro x _ y hy _
        exact hzero y hy
      · rintro ⟨hzero, -⟩
        calc src.map (fun _ => (0 : UInt8)) = src.map id :=
              List.map_congr_left fun y hy => (hzero y hy).symm
          _ = src := List.map_id src
    · simp [hb, ih]

theorem cmdNumLen_ssidPassData (h : c.state = .ssidPassData) :
    (setCmdLen c).cmdNumLen.toNat = (c.ssidLen.toNat + c.passLen.toNat + 1) % 256 := by
  rw [setCmdLen, h]
  simp only [UInt8.toNat_add, UInt8.reduceToNat]
  omega

/-- What the caller gets once the third command is complete. -/
theorem decoded_endData_iff {m : Mode} {ssid pass : List UInt8} (hn : c.ssidLen.toNat = ssid.length)
    (hp : c.passLen.toNat = pass.length)
    (hslice : slice c.packet 0 (ssid ++ pass).length = ssid ++ pass) :
    Decoded (endData (s.setChan m c) m) ssid pass
      ↔ pass.Pairwise fun x y => x = 0 → y = 0 := by
  rw [List.length_append, Bytes.slice_append, Nat.zero_add] at hslice
  obtain ⟨hssid, hpass⟩ := List.append_inj hslice (by simp)
  have hstatus : getSmartLinkStatus (endData (s.setChan m c) m) = .complete := by
    cases m <;> simp [getSmartLinkStatus, endData]
  rw [← strncpy_eq_self_iff, Decoded, getSmartLinkResult, if_pos hstatus]
  have hkey := Bytes.slice_copy_self s.connAP.key 0 (strncpy pass)
  have hcopy := Bytes.slice_copy_self s.connAP.ssid 0 ssid
  rw [length_strncpy] at hkey
  have hres : (endData (s.setChan m c) m).connAP
      = { ssid := copy s.connAP.ssid 0 ssid, ssidLen := c.ssidLen
          key := copy s.connAP.key 0 (strncpy pass), keyLen := c.passLen } := by
    simp only [endData, Decoder.setChan_chan_self, Decoder.setChan_connAP, hn, hp, hssid, hpass]
  simp only [hstatus, hres, true_and, Option.some.injEq, exists_eq_left', hn, hp, hkey, hcopy]

/-- With 64 bytes or more in the third command the index of its CRC-8 is out of reach: an index
has six bits, and a lost sequence is marked by a number beyond it. -/
structure Stuck (b : ℕ) (c : Chan) : Prop where
  state : c.state = .ssidPassData
  locked : Locked b c
  long : 64 ≤ c.ssidLen.toNat + c.passLen.toNat
  short : c.ssidLen.toNat + c.passLen.toNat ≤ 253
  seq : c.backSeq.toNat ≤ 63 ∨ c.backSeq.toNat = c.ssidLen.toNat + c.passLen.toNat + 2

theorem stuck_of_fixed {c c' : Chan} (h : Stuck b c) (hfixed : c'.fixed = c.fixed)
    (hseq : c'.backSeq.toNat ≤ 63 ∨ c'.backSeq.toNat = c.ssidLen.toNat + c.passLen.toNat + 2) :
    Stuck b c' := by
  have hlocked := locked_of_fixed hfixed h.locked
  simp only [Chan.fixed, Prod.mk.injEq] at hfixed
  obtain ⟨hst, -, -, hs, hp⟩ := hfixed
  exact ⟨hst.trans h.state, hlocked, by rw [hs, hp]; exact h.long, by rw [hs, hp]; exact h.short,
    by rw [hs, hp]; exact hseq⟩

theorem cmdNumLen_of_stuck (h : Stuck b c) :
    (setCmdLen c).cmdNumLen.toNat = c.ssidLen.toNat + c.passLen.toNat + 1 := by
  have := h.short
  rw [cmdNumLen_ssidPassData h.state]
  omega

theorem stuck_checkSeqSetPacket (k : Mem) (v : UInt8) (h : Stuck b c) :
    Stuck b (checkSeqSetPacket k (setCmdLen c) v) := by
  have hstate : (setCmdLen c).state = .ssidPassData := (state_of_fixed (by simp)).trans h.state
  have hlen := cmdNumLen_of_stuck h
  have hshort := h.short
  refine stuck_of_fixed h (by simp) ?_
  rw [checkSeqSetPacket]
  simp only [hstate, CmdNum.val]
  split
  · have hbyte := UInt8.toNat_lt (decryptionSeq k v)
    left
    simp only [UInt8.toNat_ofNat', Nat.shiftRight_eq_div_pow]
    omega
  · right
    simp only [UInt8.toNat_add, hlen, UInt8.reduceToNat]
    omega

theorem stuck_saveData (v : UInt8) (h : Stuck b c) : Stuck b (saveData (setCmdLen c) v) := by
  have hlen := cmdNumLen_of_stuck h
  have hshort := h.short
  refine stuck_of_fixed h (by simp) ?_
  rw [saveData]
  split
  · right
    simp only [UInt8.toNat_add, hlen, UInt8.reduceToNat]
    omega
  · rw [setCmdLen_backSeq]
    exact h.seq

theorem not_crcMatches_of_stuck (k : Mem) (v : UInt8) (h : Stuck b c) :
    ¬ crcMatches k (saveData (setCmdLen c) v) := by
  have hlen : (saveData (setCmdLen c) v).cmdNumLen.toNat
      = c.ssidLen.toNat + c.passLen.toNat + 1 := by
    rw [← cmdNumLen_of_stuck h, saveData]
    split <;> rfl
  have hfixed : (saveData (setCmdLen c) v).fixed = c.fixed := by simp
  have hseq := (stuck_saveData v h).seq
  have hlong := h.long
  simp only [Chan.fixed, Prod.mk.injEq] at hfixed
  rw [hfixed.2.2.2.1, hfixed.2.2.2.2] at hseq
  rintro ⟨hend, -⟩
  omega

/-- No frame ends a transfer that is stuck. -/
theorem rx_stuck (h : Stuck b c) :
    ∃ c', Stuck b c' ∧ rxProcessSmartConf (s.setChan f.type c) f = s.setChan f.type c' := by
  by_cases hlow : f.rxLen < b
  · refine ⟨c, h, ?_⟩
    have hcount : ¬ c.baseLenBufCount.toNat ≤ 5 := by rw [h.locked.count]; decide
    rw [rx_locked h.locked, setSmartConfData]
    simp only [Decoder.setChan_chan_self, if_neg hcount, h.locked.base, if_pos hlow]
  · obtain ⟨v, hv⟩ := Nat.exists_eq_add_of_le (Nat.le_of_not_lt hlow)
    by_cases hbyte : v < 256
    · exact ⟨_, stuck_saveData _ h, rx_data_of_not_crcMatches h.locked hbyte hv
        (not_crcMatches_of_stuck _ _ h)⟩
    · have hv' : f.rxLen = b + 256 + (v - 256) := by omega
      exact ⟨_, stuck_checkSeqSetPacket _ _ h, rx_seq h.locked hv'⟩

theorem rxAll_stuck {m : Mode} {fs : List Frame} (hm : ∀ f ∈ fs, f.type = m) (h : Stuck b c) :
    ∃ c', Stuck b c' ∧ rxAll (s.setChan m c) fs = s.setChan m c' := by
  induction fs generalizing c with
  | nil => exact ⟨c, h, rfl⟩
  | cons f fs ih =>
    obtain ⟨c₁, h₁, hrx⟩ := rx_stuck (s := s) (f := f) h
    rw [hm f (by simp)] at hrx
    obtain ⟨c₂, h₂, hrun⟩ := ih (fun g hg => hm g (by simp [hg])) h₁
    refine ⟨c₂, h₂, ?_⟩
    rw [rxAll, List.foldl_cons, hrx]
    exact hrun

/-! ## The whole transfer -/

theorem setChan_initChan (m : Mode) : initSmartLink.setChan m initChan = initSmartLink := by
  simp only [Decoder.setChan]
  congr 1
  exact Function.update_eq_self m _

theorem not_decoded_of_stuck {m : Mode} {ssid pass : List UInt8} (h : Stuck b c) :
    ¬ Decoded (initSmartLink.setChan m c) ssid pass := by
  rintro ⟨hstatus, -⟩
  have hst := h.state
  have hother : ∀ m, (initSmartLink.chan m).state = .check := fun _ => rfl
  cases m <;> simp [getSmartLinkStatus, hst, hother] at hstatus

section Transfer

variable {ssid pass ip : List UInt8} {m : Mode} {fs : List Frame}

/-- Everything before the SSID, with the lengths that were sent in the channel. -/
theorem rxAll_encode (hssid : ssid.length ≤ 32) (hpass : pass.length ≤ 63)
    (hip : ip.length = 4) (hb : 0 < b ∧ b + 3 ≤ 255) (hm : ∀ f ∈ fs, f.type = m)
    (hfs : fs.map Frame.rxLen = encode b initSmartLink.sonkey ssid pass ip) :
    ∃ c fs', Entry b .ssidPassData c ∧ c.ssidLen.toNat = ssid.length ∧
      c.passLen.toNat = pass.length ∧ (∀ f ∈ fs', f.type = m) ∧
      fs'.map Frame.rxLen = cmdLens b initSmartLink.sonkey 2 (ssid ++ pass) ∧
      rxAll initSmartLink fs = rxAll (initSmartLink.setChan m c) fs' := by
  rw [encode] at hfs
  obtain ⟨fs, fs', rfl, hfs, hfs'⟩ := List.map_eq_append_iff.mp hfs
  obtain ⟨c, hc, hn, hp, hrun⟩ := rxAll_upToData hb hip (fun f hf => hm f (by simp [hf])) hfs
  refine ⟨c, fs', hc, ?_, ?_, fun f hf => hm f (by simp [hf]), hfs', ?_⟩
  · rw [hn, UInt8.toNat_ofNat']
    omega
  · rw [hp, UInt8.toNat_ofNat']
    omega
  · rw [rxAll_append, ← hrun, setChan_initChan]

/-- A transfer of at least 64 bytes is never completed. -/
theorem not_decoded_of_long (hssid : ssid.length ≤ 32) (hpass : pass.length ≤ 63)
    (hip : ip.length = 4) (hb : 0 < b ∧ b + 3 ≤ 255) (hm : ∀ f ∈ fs, f.type = m)
    (hfs : fs.map Frame.rxLen = encode b initSmartLink.sonkey ssid pass ip)
    (hlong : 64 ≤ ssid.length + pass.length) :
    ¬ Decoded (rxAll initSmartLink fs) ssid pass := by
  obtain ⟨c, fs', hc, hn, hp, hm', -, hrun⟩ := rxAll_encode hssid hpass hip hb hm hfs
  have hstuck : Stuck b c :=
    { state := hc.state
      locked := hc.locked
      long := by omega
      short := by omega
      seq := by rw [hc.seq]; exact .inl (by decide) }
  obtain ⟨c', hstuck', hrun'⟩ := rxAll_stuck (s := initSmartLink) hm' hstuck
  rw [hrun, hrun']
  exact not_decoded_of_stuck hstuck'

/-- A shorter one is, with the password as `strncpy` leaves it. -/
theorem decoded_iff_of_short (hssid : ssid.length ≤ 32) (hpass : pass.length ≤ 63)
    (hip : ip.length = 4) (hb : 0 < b ∧ b + 3 ≤ 255) (hm : ∀ f ∈ fs, f.type = m)
    (hfs : fs.map Frame.rxLen = encode b initSmartLink.sonkey ssid pass ip)
    (hshort : ssid.length + pass.length < 64) :
    Decoded (rxAll initSmartLink fs) ssid pass ↔ pass.Pairwise fun x y => x = 0 → y = 0 := by
  obtain ⟨c, fs', hc, hn, hp, hm', hfs', hrun⟩ := rxAll_encode hssid hpass hip hb hm hfs
  have hlen : (setCmdLen c).cmdNumLen.toNat = (ssid ++ pass).length + 1 := by
    rw [cmdNumLen_ssidPassData hc.state, List.length_append]
    omega
  obtain ⟨c', f, hfixed, hslice, hrun'⟩ := rxAll_entry (s := initSmartLink) hc hlen
    (by rwa [List.length_append]) hm' hfs'
  have hst : c'.state = .ssidPassData := (state_of_fixed hfixed).trans hc.state
  simp only [Chan.fixed, Prod.mk.injEq] at hfixed
  obtain ⟨-, -, -, hs, hp'⟩ := hfixed
  have hend : rxAll initSmartLink fs = endData (initSmartLink.setChan m c') m := by
    rw [hrun, hrun', endCmd]
    simp only [Decoder.setChan_chan_self, hst]
  rw [hend]
  exact decoded_endData_iff (hs ▸ hn) (hp' ▸ hp) hslice

/-- The decoder undoes the encoding exactly when SSID and password have less than 64 bytes together
and nothing but NUL bytes follows a NUL byte in the password. -/
theorem decode_encode_iff (hssid : 1 ≤ ssid.length ∧ ssid.length ≤ 32) (hpass : pass.length ≤ 63)
    (hip : ip.length = 4) (hb : 0 < b ∧ b + 3 ≤ 255) (hm : ∀ f ∈ fs, f.type = m)
    (hfs : fs.map Frame.rxLen = encode b initSmartLink.sonkey ssid pass ip) :
    Decoded (rxAll initSmartLink fs) ssid pass
      ↔ ssid.length + pass.length ≤ 63 ∧ pass.Pairwise fun x y => x = 0 → y = 0 := by
  by_cases hlong : 64 ≤ ssid.length + pass.length
  · constructor
    · intro h
      exact absurd h (not_decoded_of_long hssid.2 hpass hip hb hm hfs hlong)
    · rintro ⟨hshort, -⟩
      omega
  · rw [decoded_iff_of_short hssid.2 hpass hip hb hm hfs (by omega)]
    constructor
    · intro h
      exact ⟨by omega, h⟩
    · exact fun h => h.2

end Transfer

/-- Frames of the given lengths, seen from an access point. -/
def apFrames (lens : List ℕ) : List Frame := lens.map fun n => ⟨n, true, [], []⟩

theorem apFrames_type (lens : List ℕ) : ∀ f ∈ apFrames lens, f.type = .ap := by
  intro f hf
  obtain ⟨n, -, rfl⟩ := List.mem_map.mp hf
  rfl

theorem map_rxLen_apFrames (lens : List ℕ) : (apFrames lens).map Frame.rxLen = lens := by
  simp [apFrames, Function.comp_def]

/-- A two byte SSID with a password of three bytes is decoded. -/
theorem decode_encode_short :
    Decoded (rxAll initSmartLink
      (apFrames (encode 17 initSmartLink.sonkey [0x41, 0x42] [0x31, 0x32, 0x33] [10, 0, 0, 7])))
      [0x41, 0x42] [0x31, 0x32, 0x33] :=
  (decode_encode_iff (by decide) (by decide) rfl (by decide) (apFrames_type _)
    (map_rxLen_apFrames _)).mpr (by decide)

/-- An SSID of 32 bytes with a password of 32 bytes is not. -/
theorem not_decoded_long :
    ¬ Decoded (rxAll initSmartLink
      (apFrames (encode 17 initSmartLink.sonkey (List.replicate 32 0x41) (List.replicate 32 0x31)
        [10, 0, 0, 7])))
      (List.replicate 32 0x41) (List.replicate 32 0x31) :=
  not_decoded_of_long (by decide) (by decide) rfl (by decide) (apFrames_type _)
    (map_rxLen_apFrames _) (by decide)

end Fullmac.SmartLink
