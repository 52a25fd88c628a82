import Fullmac.Lib.Machine
import Fullmac.SmartLink.Safety

/-!
# The two modes of the decoder

Reference: `host/app/netmgr/SmartConfig/iComm/core/smartConf.c`, from `setSmartCmdStatus` to
`setSmartConfData`, and `rx_process_smartConf`.

Both modes run through the same functions over one structure. Besides the two-element arrays they
share the key stream, which nobody writes, and the fields `crcData` and `decrypValue`; here the
decoder has these fields (`Shared`), and what is found in them makes no difference
(`rxShared_fst`). Until a transfer is complete a frame changes the entries of its own mode only, by
`chanStep`, a machine that knows nothing of the other mode; so the entries of a mode are what that
machine makes of the frames of the mode.
-/

namespace Fullmac.SmartLink

open Bytes (Mem slice)

/-! ## The shared fields -/

/-- The fields of `smart_control` that both modes write. -/
structure Shared where
  crcData : UInt8
  decrypValue : UInt8

/-- `storeBack`, through `decrypValue`. -/
def storeBackShared (sonkey : Mem) (sh : Shared) (c : Chan) (numSeq : ℕ) : Mem × Shared :=
  match c.backData with
  | some d =>
    if numSeq = c.backSeq.toNat + 1 then
      let sh := { sh with decrypValue := decryption sonkey d c.backSeq }
      (Function.update c.packet c.backSeq.toNat sh.decrypValue, sh)
    else (c.packet, sh)
  | none => (c.packet, sh)

/-- `checkSeqSetPacket`. -/
def checkSeqSetPacketShared (sonkey : Mem) (sh : Shared) (c : Chan) (cmdValue : UInt8) :
    Chan × Shared :=
  let cmdNum := c.state.val
  let seqData := (decryptionSeq sonkey cmdValue).toNat
  let numSeq := seqData >>> cmdNum
  if seqData &&& cmdNum = cmdNum ∧ numSeq ≤ c.cmdNumLen.toNat then
    let r := storeBackShared sonkey sh c numSeq
    ({ c with packet := r.1
              backSeq := UInt8.ofNat numSeq
              backData := none }, r.2)
  else ({ c with backSeq := c.cmdNumLen + 1, backData := none }, sh)

/-- `checkCrcWithSaveData`, through `crcData`. -/
def checkCrcWithSaveDataShared (s : Decoder) (sh : Shared) (type : Mode) (f : Frame)
    (cmdValue : UInt8) : Decoder × Shared :=
  let c := saveData (s.chan type) cmdValue
  let s := s.setChan type c
  if c.backSeq.toNat + 1 = c.cmdNumLen.toNat then
    let sh := { sh with crcData := crc8Msb poly (slice c.packet 0 (c.cmdNumLen.toNat - 1)) }
    if sh.crcData = decryption s.sonkey (c.backData.getD 0xff) c.backSeq then
      (endCmd s type f, sh)
    else (s, sh)
  else (s, sh)

/-- `setSmartConfData`. -/
def setSmartConfDataShared (s : Decoder) (sh : Shared) (type : Mode) (f : Frame) :
    Decoder × Shared :=
  let c := s.chan type
  if c.baseLenBufCount.toNat ≤ 5 then
    (s.setChan type (checkBaseLen c (UInt8.ofNat f.rxLen)), sh)
  else if f.rxLen < (c.checkBaseLenBuf 0).toNat then (s, sh)
  else
    let size := f.rxLen - (c.checkBaseLenBuf 0).toNat
    let c := setCmdLen c
    let s := s.setChan type c
    if 256 ≤ size then
      let r := checkSeqSetPacketShared s.sonkey sh c (UInt8.ofNat (size - 256))
      (s.setChan type r.1, r.2)
    else checkCrcWithSaveDataShared s sh type f (UInt8.ofNat size)

/-- `rx_process_smartConf`. -/
def rxShared (s : Decoder × Shared) (f : Frame) : Decoder × Shared :=
  match (s.1.chan f.type).state with
  | .done | .apListCheck => s
  | .start | .info | .ssidPassData | .check => setSmartConfDataShared s.1 s.2 f.type f

/-- A sequence of received frames. -/
def rxAllShared (s : Decoder × Shared) (fs : List Frame) : Decoder × Shared := fs.foldl rxShared s

theorem storeBackShared_fst (k : Mem) (sh : Shared) (c : Chan) (numSeq : ℕ) :
    (storeBackShared k sh c numSeq).1 = storeBack k c numSeq := by
  unfold storeBackShared storeBack
  cases c.backData with
  | none => rfl
  | some d =>
    dsimp only
    split <;> rfl

theorem checkSeqSetPacketShared_fst (k : Mem) (sh : Shared) (c : Chan) (v : UInt8) :
    (checkSeqSetPacketShared k sh c v).1 = checkSeqSetPacket k c v := by
  simp only [checkSeqSetPacketShared, checkSeqSetPacket]
  split
  · rw [← storeBackShared_fst k sh]
  · rfl

theorem checkCrcWithSaveDataShared_fst (s : Decoder) (sh : Shared) (type : Mode) (f : Frame)
    (v : UInt8) :
    (checkCrcWithSaveDataShared s sh type f v).1 = checkCrcWithSaveData s type f v := by
  simp only [checkCrcWithSaveDataShared, checkCrcWithSaveData]
  split_ifs with hlen hcrc hmatch hmatch hmatch
  · rfl
  · exact absurd ⟨hlen, hcrc⟩ hmatch
  · exact absurd hmatch.2 hcrc
  · rfl
  · exact absurd hmatch.1 hlen
  · rfl

theorem setSmartConfDataShared_fst (s : Decoder) (sh : Shared) (type : Mode) (f : Frame) :
    (setSmartConfDataShared s sh type f).1 = setSmartConfData s type f := by
  simp only [setSmartConfDataShared, setSmartConfData]
  split_ifs with hsearch hlow hseq
  · rfl
  · rfl
  · rw [checkSeqSetPacketShared_fst]
  · exact checkCrcWithSaveDataShared_fst _ _ _ _ _

/-- The decoder does not depend on what the shared fields hold: they are written before they are
read. -/
theorem rxShared_fst (s : Decoder × Shared) (f : Frame) :
    (rxShared s f).1 = rxProcessSmartConf s.1 f := by
  unfold rxShared rxProcessSmartConf
  cases (s.1.chan f.type).state with
  | done => rfl
  | apListCheck => rfl
  | start => exact setSmartConfDataShared_fst _ _ _ _
  | info => exact setSmartConfDataShared_fst _ _ _ _
  | ssidPassData => exact setSmartConfDataShared_fst _ _ _ _
  | check => exact setSmartConfDataShared_fst _ _ _ _

/-- The same for a whole sequence of frames. -/
theorem rxAllShared_fst (s : Decoder × Shared) (fs : List Frame) :
    (rxAllShared s fs).1 = rxAll s.1 fs := by
  induction fs generalizing s with
  | nil => rfl
  | cons f fs ih => exact (ih _).trans (by rw [rxShared_fst]; rfl)

/-! ## One mode -/

/-- The end of a command other than the last. -/
def endCmdStep (type : Mode) (f : Frame) (c : Chan) : Chan :=
  match c.state with
  | .start => endStart c
  | .info => endInfo c type f
  | .ssidPassData | .apListCheck | .done | .check => c

/-- What a frame of a mode does to the entries of that mode, unless it completes the transfer. -/
def chanStep (sonkey : Mem) (type : Mode) (c : Chan) (f : Frame) : Chan :=
  if c.state = .done ∨ c.state = .apListCheck then c
  else if c.baseLenBufCount.toNat ≤ 5 then checkBaseLen c (UInt8.ofNat f.rxLen)
  else if f.rxLen < (c.checkBaseLenBuf 0).toNat then c
  else
    let size := f.rxLen - (c.checkBaseLenBuf 0).toNat
    if 256 ≤ size then checkSeqSetPacket sonkey (setCmdLen c) (UInt8.ofNat (size - 256))
    else
      let c := saveData (setCmdLen c) (UInt8.ofNat size)
      if crcMatches sonkey c then endCmdStep type f c else c

/-- One of the modes is in state `DONE`. -/
def Completed (s : Decoder) : Prop := ∃ m, (s.chan m).state = .done

/-- The end of a command changes the entries of the mode by `endCmdStep` or completes. -/
theorem endCmd_cases (s : Decoder) (type : Mode) (f : Frame) (c : Chan) :
    endCmd (s.setChan type c) type f = s.setChan type (endCmdStep type f c) ∨
      Completed (endCmd (s.setChan type c) type f) := by
  simp only [endCmd, endCmdStep, Decoder.setChan_chan_self]
  cases c.state with
  | start => exact .inl (setChan_setChan s type c _)
  | info => exact .inl (setChan_setChan s type c _)
  | ssidPassData => exact .inr ⟨type, by simp [endData]⟩
  | apListCheck => exact .inl rfl
  | done => exact .inl rfl
  | check => exact .inl rfl

/-- A frame changes the entries of its own mode by `chanStep`, and nothing else, or completes the
transfer. -/
theorem rx_eq_setChan_or (s : Decoder) (f : Frame) :
    rxProcessSmartConf s f
        = s.setChan f.type (chanStep s.sonkey f.type (s.chan f.type) f) ∨
      Completed (rxProcessSmartConf s f) := by
  by_cases hstop : (s.chan f.type).state = .done ∨ (s.chan f.type).state = .apListCheck
  · left
    rw [chanStep, if_pos hstop, setChan_self, rxProcessSmartConf]
    rcases hstop with h | h <;> simp only [h]
  have hrx : rxProcessSmartConf s f = setSmartConfData s f.type f := by
    rw [rxProcessSmartConf]
    cases hst : (s.chan f.type).state <;> simp_all
  rw [hrx, setSmartConfData, chanStep, if_neg hstop]
  simp only
  split_ifs with hsearch hlow hseq hcrc
  · exact .inl rfl
  · exact .inl (setChan_self s f.type).symm
  · exact .inl (setChan_setChan s _ _ _)
  · rw [checkCrcWithSaveData]
    simp only [Decoder.setChan_chan_self, Decoder.setChan_sonkey, setChan_setChan]
    rw [if_pos hcrc]
    exact endCmd_cases s f.type f _
  · rw [checkCrcWithSaveData]
    simp only [Decoder.setChan_chan_self, Decoder.setChan_sonkey, setChan_setChan]
    rw [if_neg hcrc]
    exact .inl rfl

/-- A mode that is done stays so until the other one completes. -/
theorem completed_rx (s : Decoder) (f : Frame) (h : Completed s) :
    Completed (rxProcessSmartConf s f) := by
  rcases rx_eq_setChan_or s f with hrx | hdone
  · obtain ⟨m, hm⟩ := h
    refine ⟨m, ?_⟩
    rw [hrx]
    by_cases hf : m = f.type
    · subst hf
      rw [Decoder.setChan_chan_self, chanStep, if_pos (.inl hm), hm]
    · rw [Decoder.setChan_chan_of_ne s _ hf, hm]
  · exact hdone

/-- What a mode reads: its entries and the key stream. -/
def modeView (m : Mode) (s : Decoder) : Chan × Mem := (s.chan m, s.sonkey)

/-- The machine of one mode. -/
def modeStep (m : Mode) (v : Chan × Mem) (f : Frame) : Chan × Mem := (chanStep v.2 m v.1 f, v.2)

/-- A frame of the mode moves what the mode reads by the machine of the mode. -/
theorem modeView_rx_own {m : Mode} (s : Decoder) (f : Frame) (hf : f.type = m)
    (h : ¬ Completed (rxProcessSmartConf s f)) :
    modeView m (rxProcessSmartConf s f) = modeStep m (modeView m s) f := by
  subst hf
  rw [(rx_eq_setChan_or s f).resolve_right h, modeView, Decoder.setChan_chan_self]
  rfl

/-- A frame of the other mode changes nothing the mode reads. -/
theorem modeView_rx_other {m : Mode} (s : Decoder) (f : Frame) (hf : f.type ≠ m)
    (h : ¬ Completed (rxProcessSmartConf s f)) :
    modeView m (rxProcessSmartConf s f) = modeView m s := by
  rw [(rx_eq_setChan_or s f).resolve_right h, modeView,
    Decoder.setChan_chan_of_ne s _ (Ne.symm hf)]
  rfl

/-- The modes do not disturb each other. Take two sequences of frames with the same frames of mode
`m`, in the same order, and whatever frames of the other mode between them; start from the same
entries of mode `m` and the same key stream, with anything in the entries of the other mode and in
the shared fields. If neither sequence completes a transfer, the entries of mode `m` are the same
after both. -/
theorem rxAllShared_mode_congr (m : Mode) {s s' : Decoder × Shared} {fs gs : List Frame}
    (hstart : modeView m s.1 = modeView m s'.1)
    (hsame : fs.filter (fun f => f.type = m) = gs.filter (fun f => f.type = m))
    (hfs : ¬ Completed (rxAllShared s fs).1) (hgs : ¬ Completed (rxAllShared s' gs).1) :
    (rxAllShared s fs).1.chan m = (rxAllShared s' gs).1.chan m := by
  rw [rxAllShared_fst] at hfs hgs ⊢
  rw [rxAllShared_fst]
  have hview : modeView m (rxAll s.1 fs) = modeView m (rxAll s'.1 gs) :=
    Machine.view_foldl_congr completed_rx modeView_rx_own modeView_rx_other hstart hsame hfs hgs
  exact congrArg Prod.fst hview

/-- A frame of the given length, to the distribution system or from it. -/
def lenFrame (fromDS : Bool) (rxLen : ℕ) : Frame := { rxLen, fromDS, addr1 := [], addr2 := [] }

/-- Four to-DS frames that lock the to-DS decoder, once with frames from the distribution system
between them and once alone. -/
theorem rxAllShared_mode_congr_locked :
    (rxAllShared (initSmartLink, ⟨0, 0⟩) [lenFrame true 90, lenFrame false 20, lenFrame false 21,
        lenFrame true 91, lenFrame false 22, lenFrame true 7, lenFrame false 23]).1.chan .phone
      = (rxAllShared (initSmartLink, ⟨3, 5⟩) [lenFrame false 20, lenFrame false 21,
        lenFrame false 22, lenFrame false 23]).1.chan .phone := by
  refine rxAllShared_mode_congr .phone rfl rfl ?_ ?_
  · rintro ⟨m, hm⟩
    cases m with
    | ap => exact absurd hm (by decide)
    | phone => exact absurd hm (by decide)
  · rintro ⟨m, hm⟩
    cases m with
    | ap => exact absurd hm (by decide)
    | phone => exact absurd hm (by decide)

end Fullmac.SmartLink
