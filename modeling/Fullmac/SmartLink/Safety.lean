import Fullmac.Lib.Machine
import Fullmac.SmartLink.Decode

/-!
# Where the decoder reads and writes

Every function of the decoder has a twin here that lists the places it touches, in the order of the
source: `eventAccesses` for one frame or one `resetSmartLink`. `Access.InBounds` says that such a
place is inside its array, and a run of `smartStep` collects the places of all its events.

Indices into `packet` and `sonkey` are bytes and both have 256 entries, so that most of the decoder
is safe by its types. Two things go wrong. `checkBaseLen` reads the entry before the last one it
stored and looks only afterwards whether there is one (`checkBaseLenAccesses_inBounds_iff`): the
first frame of every search reads index `-1`. And the lengths of the second command are taken as
they come, so that a third command that is complete copies up to 255 bytes into 32
(`endAccesses_inBounds`). `smartLinkRun_safe_iff` says that nothing else does, over all runs.
-/

namespace Fullmac.SmartLink

open Bytes (Mem copy slice)
open Machine (run Meets)

/-! ## Places -/

/-- One entry of an array that the decoder reads or writes. `ssid` and `key` are those of `connAP`,
`ssidBuf` is the local array of `checkCrcWithSaveData`. -/
inductive Access
  | packet (i : ℕ)
  | sonkey (i : ℕ)
  | checkBaseLenBuf (i : ℤ)
  | ssid (i : ℕ)
  | key (i : ℕ)
  | ssidBuf (i : ℕ)
deriving DecidableEq, Repr

/-- The entry exists. -/
def Access.InBounds : Access → Prop
  | .packet i => i < 256
  | .sonkey i => i < 256
  | .checkBaseLenBuf i => 0 ≤ i ∧ i < 5
  | .ssid i => i < 32
  | .key i => i < 64
  | .ssidBuf i => i < 33

/-- An entry of `checkBaseLenBuf`. -/
def Access.IsBase : Access → Prop
  | .checkBaseLenBuf _ => True
  | _ => False

/-- `memset(checkBaseLenBuf, 0, 5)`. -/
def memsetBase : List Access := (List.range 5).map fun i : ℕ => .checkBaseLenBuf i

/-- `memset(packet, 0, CMD_DATA_MAX_LEN)`. -/
def memsetPacket : List Access := (List.range 256).map .packet

/-- The last loop of `checkBaseLen`, which ends at the first step that is not one. -/
def goesUpAccesses (buf : Mem) : List ℕ → List Access
  | [] => []
  | i :: is =>
    [.checkBaseLenBuf (i + 1), .checkBaseLenBuf i]
      ++ if (buf (i + 1)).toNat = (buf i).toNat + 1 then goesUpAccesses buf is else []

/-- The places of `storeBase`. -/
def storeBaseAccesses (c : Chan) (value : UInt8) : List Access :=
  let count := c.baseLenBufCount
  let buf := Function.update c.checkBaseLenBuf count.toNat value
  .checkBaseLenBuf count.toNat :: goesUpAccesses buf [0, 1, 2]
    ++ if ¬ goesUp buf ∧ 4 ≤ count.toNat then memsetBase else []

/-- The places of `checkBaseLen`. The entry before the last one is read before `count` is looked
at. -/
def checkBaseLenAccesses (c : Chan) (value : UInt8) : List Access :=
  let first := value ≤ c.checkBaseLenBuf 0
  let c' := if first then c.clearBase else c
  let count := c'.baseLenBufCount
  let lastBufVal := c'.checkBaseLenBuf (count.toNat - 1)
  .checkBaseLenBuf 0 :: (if first then memsetBase else [])
    ++ .checkBaseLenBuf ((count.toNat : ℤ) - 1)
      :: if 0 < count ∧ lastBufVal = value then []
        else if 0 < count ∧ value.toNat ≠ lastBufVal.toNat + 1 then memsetBase
        else storeBaseAccesses c' value

/-- The places of `checkSeqSetPacket`. -/
def checkSeqSetPacketAccesses (sonkey : Mem) (c : Chan) (cmdValue : UInt8) : List Access :=
  let cmdNum := c.state.val
  let seqData := (decryptionSeq sonkey cmdValue).toNat
  let numSeq := seqData >>> cmdNum
  .sonkey 0 ::
    if (seqData &&& cmdNum = cmdNum ∧ numSeq ≤ c.cmdNumLen.toNat) ∧
        numSeq = c.backSeq.toNat + 1 ∧ c.backData ≠ none then
      [.sonkey c.backSeq.toNat, .packet c.backSeq.toNat]
    else []

/-- The places of `compData` in the packet: it stops at the first difference. -/
def compDataAccesses (packet : Mem) : ℕ → List UInt8 → List Access
  | _, [] => []
  | i, b :: bs => .packet i :: if packet i = b then compDataAccesses packet (i + 1) bs else []

/-- How many bytes `strncpy` reads of `src`. -/
def strncpyReads : List UInt8 → ℕ
  | [] => 0
  | b :: src => 1 + if b = 0 then 0 else strncpyReads src

/-- The places of the branches behind a matching CRC-8. -/
def endAccesses (c : Chan) : List Access :=
  match c.state with
  | .start => compDataAccesses c.packet 0 magicNum
      ++ if slice c.packet 0 magicNum.length = magicNum then memsetPacket else []
  | .info => (List.range 6).map .packet ++ memsetPacket
  | .ssidPassData =>
    (List.range c.ssidLen.toNat).flatMap (fun i => [.packet i, .ssid i])
      ++ (List.range (strncpyReads (slice c.packet c.ssidLen.toNat c.passLen.toNat))).map
        (fun i => .packet (c.ssidLen.toNat + i))
      ++ (List.range c.passLen.toNat).map .key
      ++ (List.range c.ssidLen.toNat).flatMap (fun i => [.ssid i, .ssidBuf i])
      ++ memsetPacket
  | .apListCheck | .done | .check => []

/-- The places of `checkCrcWithSaveData`. The entry of the key stream is read up to three times. -/
def checkCrcWithSaveDataAccesses (sonkey : Mem) (c : Chan) (cmdValue : UInt8) : List Access :=
  let c := saveData c cmdValue
  if c.backSeq.toNat + 1 = c.cmdNumLen.toNat then
    (List.range (c.cmdNumLen.toNat - 1)).map .packet ++ .sonkey c.backSeq.toNat
      :: if crcMatches sonkey c then endAccesses c else []
  else []

/-- The places of `setSmartConfData`. -/
def setSmartConfDataAccesses (sonkey : Mem) (c : Chan) (f : Frame) : List Access :=
  if c.baseLenBufCount.toNat ≤ 5 then checkBaseLenAccesses c (UInt8.ofNat f.rxLen)
  else .checkBaseLenBuf 0 ::
    if f.rxLen < (c.checkBaseLenBuf 0).toNat then []
    else
      let size := f.rxLen - (c.checkBaseLenBuf 0).toNat
      let c := setCmdLen c
      .checkBaseLenBuf 0 ::
        if 256 ≤ size then checkSeqSetPacketAccesses sonkey c (UInt8.ofNat (size - 256))
        else checkCrcWithSaveDataAccesses sonkey c (UInt8.ofNat size)

/-- The places of `rx_process_smartConf`. -/
def rxAccesses (s : Decoder) (f : Frame) : List Access :=
  match (s.chan f.type).state with
  | .done | .apListCheck => []
  | .start | .info | .ssidPassData | .check => setSmartConfDataAccesses s.sonkey (s.chan f.type) f

/-! ## Runs -/

/-- What happens to the decoder: a frame is received, or it is reset. -/
inductive Event
  | frame (f : Frame)
  | reset

/-- One event, with the places it touches. -/
def smartStep (s : Decoder) : Event → Decoder × List Access
  | .frame f => (rxProcessSmartConf s f, rxAccesses s f)
  | .reset => (resetSmartLink s, memsetBase ++ memsetBase)

/-- When a mode is done, the lengths it has left fit the arrays of `connAP`. -/
def LengthsFit (s : Decoder) : Prop :=
  ∀ m, (s.chan m).state = .done → s.connAP.ssidLen.toNat ≤ 32 ∧ s.connAP.keyLen.toNat ≤ 64

/-- The decoder is safe so far: all places are inside their arrays, and so are the copies of what it
has completed. -/
def Safe (s : Decoder) (tr : List Access) : Prop := (∀ a ∈ tr, a.InBounds) ∧ LengthsFit s

/-- The same without the search for the base. -/
def SafeButBase (s : Decoder) (tr : List Access) : Prop :=
  (∀ a ∈ tr, ¬ a.IsBase → a.InBounds) ∧ LengthsFit s

/-- The frame goes to the search for the base. -/
def Searching (c : Chan) : Prop :=
  c.state ≠ .done ∧ c.state ≠ .apListCheck ∧ c.baseLenBufCount.toNat ≤ 5

/-- A base has been stored and the frame is longer, so that the search goes on. -/
def BaseStored (c : Chan) (f : Frame) : Prop :=
  0 < c.baseLenBufCount ∧ c.checkBaseLenBuf 0 < UInt8.ofNat f.rxLen

/-- The frame is the CRC-8 at the end of the third command. -/
def EndsTransfer (s : Decoder) (f : Frame) : Prop :=
  let c := s.chan f.type
  c.state = .ssidPassData ∧ ¬ c.baseLenBufCount.toNat ≤ 5 ∧
    (c.checkBaseLenBuf 0).toNat ≤ f.rxLen ∧ f.rxLen - (c.checkBaseLenBuf 0).toNat < 256 ∧
    crcMatches s.sonkey
      (saveData (setCmdLen c) (UInt8.ofNat (f.rxLen - (c.checkBaseLenBuf 0).toNat)))

/-- The search for the base is never entered without a stored length. -/
def SearchOk (s : Decoder) : Event → Prop
  | .frame f => Searching (s.chan f.type) → BaseStored (s.chan f.type) f
  | .reset => True

/-- A transfer only ends with lengths that fit. -/
def LengthsOk (s : Decoder) : Event → Prop
  | .frame f => EndsTransfer s f →
      (s.chan f.type).ssidLen.toNat ≤ 32 ∧ (s.chan f.type).passLen.toNat ≤ 64
  | .reset => True

/-! ## Places of one call -/

theorem memsetBase_inBounds : ∀ a ∈ memsetBase, a.InBounds := by
  simp only [memsetBase, List.mem_map, List.mem_range]
  rintro a ⟨i, hi, rfl⟩
  exact ⟨by omega, by omega⟩

/-- The first entries of the packet, up to all of them. -/
theorem packet_inBounds {n : ℕ} (h : n ≤ 256) :
    ∀ a ∈ (List.range n).map Access.packet, a.InBounds ∧ ¬ a.IsBase := by
  simp only [List.mem_map, List.mem_range]
  rintro a ⟨i, hi, rfl⟩
  exact ⟨by rw [Access.InBounds]; omega, id⟩

theorem memsetPacket_inBounds : ∀ a ∈ memsetPacket, a.InBounds ∧ ¬ a.IsBase :=
  packet_inBounds (Nat.le_refl 256)

theorem memsetBase_isBase : ∀ a ∈ memsetBase, a.IsBase := by
  simp [memsetBase, Access.IsBase]

theorem goesUpAccesses_inBounds (buf : Mem) {is : List ℕ} (h : ∀ i ∈ is, i < 3) :
    ∀ a ∈ goesUpAccesses buf is, a.InBounds ∧ a.IsBase := by
  induction is with
  | nil => simp [goesUpAccesses]
  | cons i is ih =>
    have hi := h i (by simp)
    have hrest := ih fun j hj => h j (by simp [hj])
    intro a ha
    rw [goesUpAccesses, List.mem_append] at ha
    rcases ha with ha | ha
    · rcases List.mem_cons.mp ha with rfl | ha
      · exact ⟨⟨by omega, by omega⟩, trivial⟩
      · obtain rfl := List.mem_singleton.mp ha
        exact ⟨⟨by omega, by omega⟩, trivial⟩
    · split at ha
      · exact hrest a ha
      · simp at ha

theorem storeBaseAccesses_inBounds {c : Chan} (value : UInt8)
    (h : c.baseLenBufCount.toNat ≤ 4) :
    ∀ a ∈ storeBaseAccesses c value, a.InBounds ∧ a.IsBase := by
  intro a ha
  rw [storeBaseAccesses, List.mem_append, List.mem_cons] at ha
  rcases ha with (rfl | ha) | ha
  · exact ⟨⟨by omega, by omega⟩, trivial⟩
  · exact goesUpAccesses_inBounds _ (by decide) a ha
  · split at ha
    · exact ⟨memsetBase_inBounds a ha, memsetBase_isBase a ha⟩
    · simp at ha

/-- The search for the base stays inside its array exactly when a length has been stored and is
kept. -/
theorem checkBaseLenAccesses_inBounds_iff {c : Chan} (value : UInt8)
    (h : c.baseLenBufCount.toNat ≤ 4) :
    (∀ a ∈ checkBaseLenAccesses c value, a.InBounds)
      ↔ 0 < c.baseLenBufCount ∧ c.checkBaseLenBuf 0 < value := by
  constructor
  · intro hall
    -- the place of `lastBufVal` is always touched
    have hlast := hall (.checkBaseLenBuf
      (((if value ≤ c.checkBaseLenBuf 0 then c.clearBase else c).baseLenBufCount.toNat : ℤ) - 1))
      (by simp [checkBaseLenAccesses])
    by_cases hfirst : value ≤ c.checkBaseLenBuf 0
    · rw [if_pos hfirst] at hlast
      have hzero : c.clearBase.baseLenBufCount.toNat = 0 := rfl
      have := hlast.1
      omega
    · rw [if_neg hfirst] at hlast
      refine ⟨UInt8.lt_iff_toNat_lt.mpr ?_, UInt8.not_le.mp hfirst⟩
      have := hlast.1
      simp only [UInt8.toNat_zero]
      omega
  · rintro ⟨hpos, hfirst⟩ a ha
    have hpos' : 0 < c.baseLenBufCount.toNat := UInt8.lt_iff_toNat_lt.mp hpos
    have hle : ¬ value ≤ c.checkBaseLenBuf 0 := UInt8.not_le.mpr hfirst
    simp only [checkBaseLenAccesses, if_neg hle, List.cons_append, List.nil_append,
      List.mem_cons] at ha
    rcases ha with rfl | rfl | ha
    · exact ⟨by decide, by decide⟩
    · exact ⟨by omega, by omega⟩
    · split at ha
      · simp at ha
      · split at ha
        · exact memsetBase_inBounds a ha
        · exact (storeBaseAccesses_inBounds value h a ha).1

theorem checkBaseLenAccesses_isBase (c : Chan) (value : UInt8)
    (h : c.baseLenBufCount.toNat ≤ 4) :
    ∀ a ∈ checkBaseLenAccesses c value, a.IsBase := by
  rw [checkBaseLenAccesses]
  have hcount : (if value ≤ c.checkBaseLenBuf 0 then c.clearBase else c).baseLenBufCount.toNat
      ≤ 4 := by
    split
    · exact Nat.zero_le 4
    · exact h
  generalize (if value ≤ c.checkBaseLenBuf 0 then c.clearBase else c) = c' at hcount ⊢
  intro a ha
  simp only [List.mem_append, List.mem_cons] at ha
  rcases ha with (rfl | ha) | rfl | ha
  · trivial
  · split at ha
    · exact memsetBase_isBase a ha
    · simp at ha
  · trivial
  · split at ha
    · simp at ha
    · split at ha
      · exact memsetBase_isBase a ha
      · exact (storeBaseAccesses_inBounds value hcount a ha).2

/-- A sequence number only ever leads to entries that a byte can name. -/
theorem checkSeqSetPacketAccesses_inBounds (k : Mem) (c : Chan) (v : UInt8) :
    ∀ a ∈ checkSeqSetPacketAccesses k c v, a.InBounds ∧ ¬ a.IsBase := by
  intro a ha
  rw [checkSeqSetPacketAccesses, List.mem_cons] at ha
  rcases ha with rfl | ha
  · exact ⟨Nat.succ_pos 255, id⟩
  · split at ha
    · rcases List.mem_cons.mp ha with rfl | ha
      · exact ⟨UInt8.toNat_lt _, id⟩
      · obtain rfl := List.mem_singleton.mp ha
        exact ⟨UInt8.toNat_lt _, id⟩
    · simp at ha

theorem compDataAccesses_inBounds (packet : Mem) {i : ℕ} {bs : List UInt8}
    (h : i + bs.length ≤ 256) :
    ∀ a ∈ compDataAccesses packet i bs, a.InBounds ∧ ¬ a.IsBase := by
  induction bs generalizing i with
  | nil => simp [compDataAccesses]
  | cons b bs ih =>
    rw [List.length_cons] at h
    intro a ha
    rw [compDataAccesses, List.mem_cons] at ha
    rcases ha with rfl | ha
    · exact ⟨by rw [Access.InBounds]; omega, id⟩
    · split at ha
      · exact ih (by omega) a ha
      · simp at ha

theorem strncpyReads_le (src : List UInt8) : strncpyReads src ≤ src.length := by
  induction src with
  | nil => exact Nat.le_refl 0
  | cons b src ih =>
    rw [strncpyReads, List.length_cons]
    split <;> omega

/-- The end of a command stays inside all arrays if the lengths at the end of the third one fit. -/
theorem endAccesses_inBounds {c : Chan}
    (h : c.state = .ssidPassData → c.ssidLen.toNat ≤ 32 ∧ c.passLen.toNat ≤ 64) :
    ∀ a ∈ endAccesses c, a.InBounds := by
  intro a ha
  rw [endAccesses] at ha
  split at ha
  · rcases List.mem_append.mp ha with ha | ha
    · exact (compDataAccesses_inBounds c.packet (by decide) a ha).1
    · split at ha
      · exact (memsetPacket_inBounds a ha).1
      · simp at ha
  · rcases List.mem_append.mp ha with ha | ha
    · exact (packet_inBounds (by decide) a ha).1
    · exact (memsetPacket_inBounds a ha).1
  · next hstate =>
    obtain ⟨hn, hp⟩ := h hstate
    have hreads := strncpyReads_le (slice c.packet c.ssidLen.toNat c.passLen.toNat)
    rw [Bytes.length_slice] at hreads
    simp only [List.mem_append, List.mem_flatMap, List.mem_map, List.mem_range, List.mem_cons,
      List.not_mem_nil, or_false] at ha
    rcases ha with (((⟨i, hi, rfl | rfl⟩ | ⟨i, hi, rfl⟩) | ⟨i, hi, rfl⟩) | ⟨i, hi, rfl | rfl⟩) | ha
    all_goals first
      | exact (memsetPacket_inBounds a ha).1
      | rw [Access.InBounds]; omega
  · simp at ha
  · simp at ha
  · simp at ha

theorem endAccesses_not_isBase (c : Chan) : ∀ a ∈ endAccesses c, ¬ a.IsBase := by
  intro a ha
  rw [endAccesses] at ha
  split at ha
  · rcases List.mem_append.mp ha with ha | ha
    · exact (compDataAccesses_inBounds c.packet (by decide) a ha).2
    · split at ha
      · exact (memsetPacket_inBounds a ha).2
      · simp at ha
  · rcases List.mem_append.mp ha with ha | ha
    · exact (packet_inBounds (by decide) a ha).2
    · exact (memsetPacket_inBounds a ha).2
  · simp only [List.mem_append, List.mem_flatMap, List.mem_map, List.mem_range, List.mem_cons,
      List.not_mem_nil, or_false] at ha
    rcases ha with (((⟨i, -, rfl | rfl⟩ | ⟨i, -, rfl⟩) | ⟨i, -, rfl⟩) | ⟨i, -, rfl | rfl⟩) | ha
    all_goals first
      | exact (memsetPacket_inBounds a ha).2
      | exact id
  · simp at ha
  · simp at ha
  · simp at ha

theorem checkCrcWithSaveDataAccesses_not_isBase (k : Mem) (c : Chan) (v : UInt8) :
    ∀ a ∈ checkCrcWithSaveDataAccesses k c v, ¬ a.IsBase := by
  intro a ha
  rw [checkCrcWithSaveDataAccesses] at ha
  split at ha
  · simp only [List.mem_append, List.mem_map, List.mem_cons] at ha
    rcases ha with ⟨i, -, rfl⟩ | rfl | ha
    · exact id
    · exact id
    · split at ha
      · exact endAccesses_not_isBase _ a ha
      · simp at ha
  · simp at ha

theorem checkCrcWithSaveDataAccesses_inBounds {k : Mem} {c : Chan} {v : UInt8}
    (h : crcMatches k (saveData c v) → c.state = .ssidPassData →
      c.ssidLen.toNat ≤ 32 ∧ c.passLen.toNat ≤ 64) :
    ∀ a ∈ checkCrcWithSaveDataAccesses k c v, a.InBounds := by
  have hfixed : (saveData c v).fixed = c.fixed := fixed_saveData c v
  simp only [Chan.fixed, Prod.mk.injEq] at hfixed
  obtain ⟨hst, -, -, hs, hp⟩ := hfixed
  intro a ha
  rw [checkCrcWithSaveDataAccesses] at ha
  split at ha
  · have hlen := UInt8.toNat_lt (saveData c v).cmdNumLen
    simp only [List.mem_append, List.mem_map, List.mem_range, List.mem_cons] at ha
    rcases ha with ⟨i, hi, rfl⟩ | rfl | ha
    · rw [Access.InBounds]
      omega
    · exact UInt8.toNat_lt _
    · split at ha
      · next hcrc =>
        refine endAccesses_inBounds ?_ a ha
        rw [hst, hs, hp]
        exact h hcrc
      · simp at ha
  · simp at ha

/-! ## One event -/

/-- How many lengths the search for the base has stored: never five, and six stands for an end. -/
def CountOk (c : Chan) : Prop := c.baseLenBufCount.toNat ≤ 4 ∨ c.baseLenBufCount = 6

/-- What `clearBase` and `storeBase` keep, `checkBaseLen` keeps. -/
theorem checkBaseLen_induction {P : Chan → Prop} {c : Chan} {value : UInt8} (hc : P c)
    (hclear : ∀ c, P c → P c.clearBase) (hstore : ∀ c, P c → P (storeBase c value)) :
    P (checkBaseLen c value) := by
  have hfirst : P (if value ≤ c.checkBaseLenBuf 0 then c.clearBase else c) := by
    split
    · exact hclear c hc
    · exact hc
  rw [checkBaseLen]
  generalize (if value ≤ c.checkBaseLenBuf 0 then c.clearBase else c) = c' at hfirst ⊢
  split
  · exact hfirst
  · split
    · exact hclear c' hfirst
    · exact hstore c' hfirst

theorem countOk_checkBaseLen {c : Chan} (value : UInt8) (h : CountOk c) :
    CountOk (checkBaseLen c value) := by
  refine checkBaseLen_induction h (fun _ _ => .inl (Nat.zero_le 4)) ?_
  intro c _
  have hcount : (UInt8.ofNat ((c.baseLenBufCount.toNat + 1) % 5)).toNat ≤ 4 := by
    rw [UInt8.toNat_ofNat']
    omega
  rw [storeBase]
  split
  · exact .inr rfl
  · split
    · exact .inl hcount
    · exact .inl hcount

theorem checkBaseLen_state_ne_done {c : Chan} (value : UInt8) (h : c.state ≠ .done) :
    (checkBaseLen c value).state ≠ .done := by
  refine checkBaseLen_induction (P := fun c => c.state ≠ .done) h (fun _ h => h) ?_
  intro c h
  rw [storeBase]
  split
  · exact CmdNum.noConfusion
  · split <;> exact h

@[simp] theorem setChan_self (s : Decoder) (m : Mode) : s.setChan m (s.chan m) = s := by
  simp [Decoder.setChan]

theorem countOk_of_fixed {c c' : Chan} (h : c'.fixed = c.fixed) (hc : CountOk c) : CountOk c' := by
  simp only [Chan.fixed, Prod.mk.injEq] at h
  rw [CountOk, h.2.1]
  exact hc

/-- The end of the first or the second command stays in its mode. -/
theorem endCmd_of_ne {s : Decoder} {m : Mode} {c : Chan} (f : Frame) (hst : c.state ≠ .ssidPassData)
    (hcount : CountOk c) :
    ∃ c', CountOk c' ∧ (c'.state = .done → c.state = .done) ∧
      endCmd (s.setChan m c) m f = s.setChan m c' := by
  rw [endCmd]
  simp only [Decoder.setChan_chan_self, setChan_setChan]
  cases hstate : c.state with
  | start =>
    refine ⟨endStart c, ?_, ?_, rfl⟩
    · rw [endStart]
      split <;> exact hcount
    · rw [endStart]
      split
      · exact CmdNum.noConfusion
      · rw [hstate]
        exact id
  | info => exact ⟨endInfo c m f, hcount, CmdNum.noConfusion, rfl⟩
  | ssidPassData => exact absurd hstate hst
  | apListCheck | done | check => exact ⟨c, hcount, fun h => hstate ▸ h, rfl⟩

theorem endCmd_ssidPassData {s : Decoder} {m : Mode} {c : Chan} (f : Frame)
    (hst : c.state = .ssidPassData) :
    endCmd (s.setChan m c) m f = endData (s.setChan m c) m := by
  rw [endCmd]
  simp only [Decoder.setChan_chan_self, hst]

/-- What a frame can do: it changes the entries of its mode and does not end the transfer, or it
ends the transfer. -/
theorem rx_cases (s : Decoder) (f : Frame) (hcount : CountOk (s.chan f.type)) :
    (¬ EndsTransfer s f ∧ ∃ c, CountOk c ∧ (c.state = .done → (s.chan f.type).state = .done) ∧
      rxProcessSmartConf s f = s.setChan f.type c) ∨
    (EndsTransfer s f ∧ ∃ c, c.fixed = (s.chan f.type).fixed ∧
      rxProcessSmartConf s f = endData (s.setChan f.type c) f.type) := by
  by_cases hstop : (s.chan f.type).state = .done ∨ (s.chan f.type).state = .apListCheck
  · refine .inl ⟨?_, s.chan f.type, hcount, id, ?_⟩
    · rintro ⟨hst, -⟩
      simp [hst] at hstop
    · rw [setChan_self, rxProcessSmartConf]
      rcases hstop with h | h <;> simp only [h]
  have hrx : rxProcessSmartConf s f = setSmartConfData s f.type f := by
    rw [rxProcessSmartConf]
    cases hst : (s.chan f.type).state <;> simp_all
  have hne : (s.chan f.type).state ≠ .done := fun h => hstop (.inl h)
  rw [hrx, setSmartConfData]
  simp only
  by_cases hsearch : (s.chan f.type).baseLenBufCount.toNat ≤ 5
  · rw [if_pos hsearch]
    refine .inl ⟨fun h => h.2.1 hsearch, _, countOk_checkBaseLen _ hcount, fun h => ?_, rfl⟩
    exact absurd h (checkBaseLen_state_ne_done _ hne)
  rw [if_neg hsearch]
  by_cases hlow : f.rxLen < ((s.chan f.type).checkBaseLenBuf 0).toNat
  · rw [if_pos hlow]
    refine .inl ⟨fun h => ?_, s.chan f.type, hcount, id, (setChan_self s f.type).symm⟩
    have := h.2.2.1
    omega
  rw [if_neg hlow]
  by_cases hseq : 256 ≤ f.rxLen - ((s.chan f.type).checkBaseLenBuf 0).toNat
  · rw [if_pos hseq, setChan_setChan]
    refine .inl ⟨fun h => ?_, _, countOk_of_fixed (by simp) hcount, fun h => ?_, rfl⟩
    · have := h.2.2.2.1
      omega
    · rwa [state_of_fixed (c := s.chan f.type) (by simp)] at h
  rw [if_neg hseq, checkCrcWithSaveData]
  simp only [Decoder.setChan_chan_self, setChan_setChan, Decoder.setChan_sonkey]
  -- from here on the frame is a byte: what is left is whether it ends a command, and which
  set c := saveData (setCmdLen (s.chan f.type))
    (UInt8.ofNat (f.rxLen - ((s.chan f.type).checkBaseLenBuf 0).toNat)) with hc
  have hfixed : c.fixed = (s.chan f.type).fixed := by simp [hc]
  have hstate := state_of_fixed hfixed
  by_cases hcrc : crcMatches s.sonkey c
  · rw [if_pos hcrc]
    by_cases hst : c.state = .ssidPassData
    · refine .inr ⟨⟨hstate ▸ hst, hsearch, by omega, by omega, hcrc⟩, c, hfixed, ?_⟩
      exact endCmd_ssidPassData f hst
    · obtain ⟨c', hcount', hdone, heq⟩ :=
        endCmd_of_ne (s := s) (m := f.type) f hst (countOk_of_fixed hfixed hcount)
      exact .inl ⟨fun h => hst (hstate.trans h.1), c', hcount', hstate ▸ hdone, heq⟩
  · rw [if_neg hcrc]
    exact .inl ⟨fun h => hcrc h.2.2.2.2, c, countOk_of_fixed hfixed hcount,
      fun h => hstate ▸ h, rfl⟩

/-- An event keeps the counters in their range. -/
theorem countOk_smartStep {s : Decoder} (e : Event) (h : ∀ m, CountOk (s.chan m)) :
    ∀ m, CountOk ((smartStep s e).1.chan m) := by
  intro m
  cases e with
  | reset => exact .inl (Nat.zero_le 4)
  | frame f =>
    simp only [smartStep]
    rcases rx_cases s f (h f.type) with ⟨-, c, hc, -, heq⟩ | ⟨-, c, -, heq⟩
    · rw [heq]
      by_cases hm : m = f.type
      · rw [hm, Decoder.setChan_chan_self]
        exact hc
      · rw [Decoder.setChan_chan_of_ne s c hm]
        exact h m
    · rw [heq, endData]
      by_cases hm : m = f.type
      · simp only [hm, if_true]
        exact .inl (Nat.zero_le 4)
      · simp only [if_neg hm, Decoder.setChan_chan_of_ne s c hm]
        exact h m

/-- The lengths still fit after an event exactly when it does not end a transfer with others. -/
theorem lengthsFit_smartStep_iff {s : Decoder} (e : Event) (h : ∀ m, CountOk (s.chan m))
    (hfit : LengthsFit s) : LengthsFit (smartStep s e).1 ↔ LengthsOk s e := by
  cases e with
  | reset =>
    refine ⟨fun _ => trivial, fun _ m hm => ?_⟩
    exact absurd hm CmdNum.noConfusion
  | frame f =>
    simp only [smartStep, LengthsOk]
    rcases rx_cases s f (h f.type) with ⟨hend, c, -, hdone, heq⟩ | ⟨hend, c, hfixed, heq⟩
    · refine ⟨fun _ hend' => absurd hend' hend, fun _ m hm => ?_⟩
      rw [heq] at hm ⊢
      by_cases htype : m = f.type
      · rw [htype, Decoder.setChan_chan_self] at hm
        exact hfit f.type (hdone hm)
      · rw [Decoder.setChan_chan_of_ne s c htype] at hm
        exact hfit m hm
    · simp only [Chan.fixed, Prod.mk.injEq] at hfixed
      obtain ⟨-, -, -, hs, hp⟩ := hfixed
      have hlens : (rxProcessSmartConf s f).connAP.ssidLen = (s.chan f.type).ssidLen ∧
          (rxProcessSmartConf s f).connAP.keyLen = (s.chan f.type).passLen := by
        rw [heq, endData]
        simp only [Decoder.setChan_chan_self, hs, hp, and_self]
      rw [LengthsFit, hlens.1, hlens.2]
      constructor
      · intro hall _
        refine hall f.type ?_
        rw [heq, endData]
        simp only [if_true]
      · intro hok m _
        exact hok hend

theorem count_le_of_searching {c : Chan} (h : CountOk c) (hs : Searching c) :
    c.baseLenBufCount.toNat ≤ 4 := by
  rcases h with h | h
  · exact h
  · have := hs.2.2
    rw [h] at this
    exact absurd this (by decide)

theorem rxAccesses_of_searching {s : Decoder} {f : Frame} (h : Searching (s.chan f.type)) :
    rxAccesses s f = checkBaseLenAccesses (s.chan f.type) (UInt8.ofNat f.rxLen) := by
  obtain ⟨hdone, hlist, hcount⟩ := h
  rw [rxAccesses, setSmartConfDataAccesses, if_pos hcount]
  cases hst : (s.chan f.type).state <;> simp_all

/-- Outside the search for the base only the first entry of `checkBaseLenBuf` is touched, and all
else is inside its array unless a transfer ends with lengths that do not fit. -/
theorem rxAccesses_of_not_searching {s : Decoder} {f : Frame} (h : ¬ Searching (s.chan f.type)) :
    ∀ a ∈ rxAccesses s f,
      a = .checkBaseLenBuf 0 ∨ ¬ a.IsBase ∧ (LengthsOk s (.frame f) → a.InBounds) := by
  intro a ha
  have ha' : a ∈ setSmartConfDataAccesses s.sonkey (s.chan f.type) f ∧
      ¬ (s.chan f.type).baseLenBufCount.toNat ≤ 5 := by
    rw [rxAccesses] at ha
    split at ha
    · simp at ha
    · simp at ha
    all_goals
      next hst => exact ⟨ha, fun hcount => h ⟨by simp [hst], by simp [hst], hcount⟩⟩
  obtain ⟨ha, hcount⟩ := ha'
  rw [setSmartConfDataAccesses, if_neg hcount, List.mem_cons] at ha
  rcases ha with rfl | ha
  · exact .inl rfl
  split at ha
  · simp at ha
  · next hlow =>
    rw [List.mem_cons] at ha
    rcases ha with rfl | ha
    · exact .inl rfl
    right
    split at ha
    · have := checkSeqSetPacketAccesses_inBounds _ _ _ a ha
      exact ⟨this.2, fun _ => this.1⟩
    · next hseq =>
      refine ⟨checkCrcWithSaveDataAccesses_not_isBase _ _ _ a ha, fun hok => ?_⟩
      refine checkCrcWithSaveDataAccesses_inBounds ?_ a ha
      intro hcrc hst
      have hfixed := fixed_setCmdLen (s.chan f.type)
      simp only [Chan.fixed, Prod.mk.injEq] at hfixed
      obtain ⟨hstate, -, -, hs, hp⟩ := hfixed
      rw [hs, hp]
      exact hok ⟨hstate ▸ hst, hcount, by omega, by omega, hcrc⟩

/-- The places in `checkBaseLenBuf` are inside it exactly when the search is not entered without a
stored length. -/
theorem rxAccesses_base_iff {s : Decoder} {f : Frame} (h : CountOk (s.chan f.type)) :
    (∀ a ∈ rxAccesses s f, a.IsBase → a.InBounds) ↔ SearchOk s (.frame f) := by
  simp only [SearchOk]
  by_cases hsearch : Searching (s.chan f.type)
  · have hcount := count_le_of_searching h hsearch
    have hbase := checkBaseLenAccesses_isBase _ (UInt8.ofNat f.rxLen) hcount
    rw [rxAccesses_of_searching hsearch, BaseStored,
      ← checkBaseLenAccesses_inBounds_iff _ hcount]
    exact ⟨fun hall _ a ha => hall a ha (hbase a ha), fun hall a ha _ => hall hsearch a ha⟩
  · refine ⟨fun _ hs => absurd hs hsearch, fun _ a ha hb => ?_⟩
    rcases rxAccesses_of_not_searching hsearch a ha with rfl | ⟨hnot, -⟩
    · exact ⟨by decide, by decide⟩
    · exact absurd hb hnot

/-- All other places are, unless a transfer ends with lengths that do not fit. -/
theorem rxAccesses_other {s : Decoder} {f : Frame} (h : CountOk (s.chan f.type))
    (hok : LengthsOk s (.frame f)) : ∀ a ∈ rxAccesses s f, ¬ a.IsBase → a.InBounds := by
  intro a ha hb
  by_cases hsearch : Searching (s.chan f.type)
  · have hcount := count_le_of_searching h hsearch
    rw [rxAccesses_of_searching hsearch] at ha
    exact absurd (checkBaseLenAccesses_isBase _ _ hcount a ha) hb
  · rcases rxAccesses_of_not_searching hsearch a ha with rfl | ⟨-, hin⟩
    · exact absurd trivial hb
    · exact hin hok

theorem smartStep_base_iff {s : Decoder} (e : Event) (h : ∀ m, CountOk (s.chan m)) :
    (∀ a ∈ (smartStep s e).2, a.IsBase → a.InBounds) ↔ SearchOk s e := by
  cases e with
  | frame f => exact rxAccesses_base_iff (h f.type)
  | reset =>
    refine ⟨fun _ => trivial, fun _ a ha _ => ?_⟩
    rcases List.mem_append.mp ha with ha | ha <;> exact memsetBase_inBounds a ha

theorem smartStep_other {s : Decoder} {e : Event} (h : ∀ m, CountOk (s.chan m))
    (hok : LengthsOk s e) : ∀ a ∈ (smartStep s e).2, ¬ a.IsBase → a.InBounds := by
  cases e with
  | frame f => exact rxAccesses_other (h f.type) hok
  | reset =>
    intro a ha _
    rcases List.mem_append.mp ha with ha | ha <;> exact memsetBase_inBounds a ha

/-! ## Whole runs -/

theorem safeButBase_smartStep_iff {s : Decoder} {tr : List Access} (e : Event)
    (h : ∀ m, CountOk (s.chan m)) (hsafe : SafeButBase s tr) :
    SafeButBase (smartStep s e).1 (tr ++ (smartStep s e).2) ↔ LengthsOk s e := by
  rw [SafeButBase, lengthsFit_smartStep_iff e h hsafe.2]
  constructor
  · exact fun hnext => hnext.2
  · refine fun hok => ⟨fun a ha hb => ?_, hok⟩
    rcases List.mem_append.mp ha with ha | ha
    · exact hsafe.1 a ha hb
    · exact smartStep_other h hok a ha hb

theorem safe_smartStep_iff {s : Decoder} {tr : List Access} (e : Event)
    (h : ∀ m, CountOk (s.chan m)) (hsafe : Safe s tr) :
    Safe (smartStep s e).1 (tr ++ (smartStep s e).2) ↔ SearchOk s e ∧ LengthsOk s e := by
  rw [Safe, lengthsFit_smartStep_iff e h hsafe.2, ← smartStep_base_iff e h]
  constructor
  · rintro ⟨hall, hok⟩
    exact ⟨fun a ha _ => hall a (List.mem_append_right tr ha), hok⟩
  · rintro ⟨hbase, hok⟩
    refine ⟨fun a ha => ?_, hok⟩
    rcases List.mem_append.mp ha with ha | ha
    · exact hsafe.1 a ha
    · by_cases hb : a.IsBase
      · exact hbase a ha hb
      · exact smartStep_other h hok a ha hb

theorem countOk_initSmartLink : ∀ m, CountOk (initSmartLink.chan m) :=
  fun _ => .inl (Nat.zero_le 4)

theorem lengthsFit_initSmartLink : LengthsFit initSmartLink :=
  fun _ h => absurd h CmdNum.noConfusion

/-- Over every run, the decoder is safe at every moment exactly when no frame enters the search
for the base without a stored length and no transfer ends with lengths that do not fit; and but for
the search, exactly when no transfer ends so. -/
theorem smartLinkRun_safe_iff (es : List Event) :
    ((∀ ds, ds <+: es → Safe (run smartStep initSmartLink ds).1 (run smartStep initSmartLink ds).2)
      ↔ Meets smartStep (fun s e => SearchOk s e ∧ LengthsOk s e) initSmartLink es) ∧
    ((∀ ds, ds <+: es →
        SafeButBase (run smartStep initSmartLink ds).1 (run smartStep initSmartLink ds).2)
      ↔ Meets smartStep LengthsOk initSmartLink es) := by
  constructor
  · exact Machine.forall_prefix_iff_meets (I := fun s _ => ∀ m, CountOk (s.chan m))
      countOk_initSmartLink (fun _ _ e h => countOk_smartStep e h)
      ⟨by simp, lengthsFit_initSmartLink⟩ (fun _ _ e h hsafe => safe_smartStep_iff e h hsafe) es
  · exact Machine.forall_prefix_iff_meets (I := fun s _ => ∀ m, CountOk (s.chan m))
      countOk_initSmartLink (fun _ _ e h => countOk_smartStep e h)
      ⟨by simp, lengthsFit_initSmartLink⟩
      (fun _ _ e h hsafe => safeButBase_smartStep_iff e h hsafe) es

theorem run_frames (s : Decoder) (fs : List Frame) :
    (run smartStep s (fs.map .frame)).1 = rxAll s fs := by
  induction fs generalizing s with
  | nil => rfl
  | cons f fs ih => exact ih _

/-- The lengths of a transfer whose second command announces an SSID of 255 bytes and a password of
one byte: the third command then has, in a byte, no bytes but its CRC-8. -/
def hugeSsidLens : List ℕ :=
  [17, 18, 19, 20] ++ cmdLens 17 initSmartLink.sonkey 0 magicNum
    ++ cmdLens 17 initSmartLink.sonkey 1 ([255, 1] ++ [10, 0, 0, 7])
    ++ cmdLens 17 initSmartLink.sonkey 2 []

/-- These frames make the decoder copy 255 bytes into `connAP.ssid`. -/
theorem rxAll_hugeSsid :
    getSmartLinkStatus (rxAll initSmartLink (apFrames hugeSsidLens)) = .complete ∧
      (rxAll initSmartLink (apFrames hugeSsidLens)).connAP.ssidLen = 255 := by
  obtain ⟨fs, fs', hfs, hlens, hlens'⟩ :=
    List.map_eq_append_iff.mp (map_rxLen_apFrames hugeSsidLens)
  have htype : ∀ f ∈ fs ++ fs', f.type = .ap := hfs ▸ apFrames_type hugeSsidLens
  obtain ⟨c, hc, hn, hp, hrun⟩ := rxAll_upToData (s := initSmartLink) (by decide) rfl
    (fun f hf => htype f (by simp [hf])) hlens
  have hlen : (setCmdLen c).cmdNumLen.toNat = ([] : List UInt8).length + 1 := by
    rw [cmdNumLen_ssidPassData hc.state, hn, hp]
    decide
  obtain ⟨c', f, hfixed, -, hrun'⟩ := rxAll_entry (s := initSmartLink) hc hlen (by decide)
    (fun f hf => htype f (by simp [hf])) hlens'
  have hst : c'.state = .ssidPassData := (state_of_fixed hfixed).trans hc.state
  simp only [Chan.fixed, Prod.mk.injEq] at hfixed
  have hend : rxAll initSmartLink (apFrames hugeSsidLens)
      = endData (initSmartLink.setChan .ap c') .ap := by
    rw [setChan_initChan] at hrun
    rw [hfs, rxAll_append, hrun, hrun', endCmd_ssidPassData f hst]
  rw [hend]
  constructor
  · simp [getSmartLinkStatus, endData]
  · simp only [endData, Decoder.setChan_chan_self]
    rw [hfixed.2.2.2.1, hn]

/-- One frame reads `checkBaseLenBuf` at index `-1`, and 28 frames end with a length that
overruns `connAP.ssid` whatever is thought of that read. -/
theorem not_safe_hugeSsid :
    ¬ Safe (run smartStep initSmartLink [.frame ⟨17, true, [], []⟩]).1
        (run smartStep initSmartLink [.frame ⟨17, true, [], []⟩]).2 ∧
    ¬ SafeButBase (run smartStep initSmartLink ((apFrames hugeSsidLens).map .frame)).1
        (run smartStep initSmartLink ((apFrames hugeSsidLens).map .frame)).2 := by
  constructor
  · rintro ⟨hall, -⟩
    have := hall (.checkBaseLenBuf (-1)) (by decide)
    exact absurd this.1 (by decide)
  · rintro ⟨-, hfit⟩
    rw [run_frames] at hfit
    obtain ⟨hcomplete, hlen⟩ := rxAll_hugeSsid
    have hdone : ∃ m, ((rxAll initSmartLink (apFrames hugeSsidLens)).chan m).state = .done := by
      rw [getSmartLinkStatus] at hcomplete
      split at hcomplete
      · cases hcomplete
      · split at hcomplete
        · next h => exact h.elim (fun h => ⟨_, h⟩) (fun h => ⟨_, h⟩)
        · cases hcomplete
    obtain ⟨m, hm⟩ := hdone
    have := (hfit m hm).1
    rw [hlen] at this
    exact absurd this (by decide)

end Fullmac.SmartLink
