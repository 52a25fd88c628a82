import Fullmac.Rx.ReorderTable

/-!
# The allocated buffer, the setting and the window

Reference: `host/core/host_apis.c`, the allocation of the reorder buffers in `ssv6xxx_wifi_init` and
`_ssv6xxx_set_ampdu_param`; `host/core/txrx_hdl.c`.

Three numbers speak of the size of a reorder buffer. `reorder_buf` and `reorder_time` are allocated
once, for the setting of that moment. The setting can be changed later, and is what a flush walks
over. The window of a session, which every other index is taken modulo, comes from the ADDBA event.
Nothing compares them. `SessOp.Agrees` says when they agree; it is asked for where a session is set
up or deleted, and carries every index and every flush in between (`ok_run`).

The indices an operation uses are listed by functions that follow the ones of the model line by line
(`sessUses`).
-/

namespace Fullmac.Rx

/-! ## The indices of an operation -/

section Uses

variable (env : Env)

/-- The loop of `ieee80211_release_reorder_frames`. -/
def windowUses (headSeqNum : ℕ) : ℕ → RxBaSession → List ℕ
  | 0, _ => []
  | fuel + 1, s =>
    if seqLess s.headSeqNum headSeqNum then
      let index := s.slot s.headSeqNum
      index :: windowUses headSeqNum fuel (releaseReorderFrame env s index).1
    else []

/-- The timeout loop of `ieee80211_sta_reorder_release`, and whether it is left by `goto`. -/
def timeoutUses (index : ℕ) : ℕ → RxBaSession → ℕ → ℕ → List ℕ × Bool
  | 0, _, _, _ => ([], false)
  | fuel + 1, s, j, skipped =>
    if j = index then ([], false)
    else if (s.reorderBuf j).isNone then
      let rest := timeoutUses index fuel s ((j + 1) % s.bufSize) (skipped + 1)
      (j :: rest.1, rest.2)
    else if skipped ≠ 0 ∧
        timeAfter (env.tick j) (s.reorderTime j + htRxReorderBufTimeout) = false then
      ([j], true)
    else
      let r := releaseReorderFrame env s j
      let s' := { r.1 with headSeqNum := (r.1.headSeqNum + skipped) % 4096 }
      let rest := timeoutUses index fuel s' ((j + 1) % s'.bufSize) 0
      (j :: rest.1, rest.2)

/-- The in-order loop of `ieee80211_sta_reorder_release`. -/
def inOrderUses : ℕ → RxBaSession → List ℕ
  | 0, _ => []
  | fuel + 1, s =>
    let index := s.slot s.headSeqNum
    index :: if (s.reorderBuf index).isSome then
      inOrderUses fuel (releaseReorderFrame env s index).1
    else []

/-- One round of the scan at the end of `ieee80211_sta_reorder_release`. It stops before the slot
behind `index`, for which there is none behind slot 0; another round uses no other slots. -/
def scanUses (s : RxBaSession) (index : ℕ) : ℕ → ℕ → List ℕ
  | 0, _ => []
  | fuel + 1, j =>
    if index ≠ 0 ∧ j = index - 1 then []
    else
      j :: if (s.reorderBuf j).isSome then []
      else scanUses s index fuel ((j + 1) % s.bufSize)

/-- The scan, as long as a frame is stored. -/
def lastUses (s : RxBaSession) : List ℕ :=
  if s.storedMpduNum = 0 then []
  else scanUses s (s.slot s.headSeqNum) s.bufSize (s.slot s.headSeqNum)

/-- `ieee80211_sta_reorder_release`. -/
def staReorderReleaseUses (s : RxBaSession) : List ℕ :=
  let index := s.slot s.headSeqNum
  let s' := (staReorderRelease env s).1
  index :: if (s.reorderBuf index).isNone ∧ s.storedMpduNum ≠ 0 then
    let r := timeoutUses env index s.bufSize s ((index + 1) % s.bufSize) 1
    r.1 ++ if r.2 then [] else lastUses s'
  else inOrderUses env (s.bufSize + 1) s ++ lastUses s'

/-- `ieee80211_sta_manage_reorder_buf`. -/
def staManageReorderBufUses (s : RxBaSession) (frame : RxFrame) : List ℕ :=
  if seqLess frame.seqNum s.headSeqNum then []
  else
    let room :=
      if seqLess frame.seqNum ((s.headSeqNum + s.bufSize) % 65536) then []
      else windowUses env (seqInc (seqSub frame.seqNum s.bufSize)) seqModulo s
    let s' := (makeRoom env s frame.seqNum).1
    let index := s'.slot frame.seqNum
    room ++ index ::
      if (s'.reorderBuf index).isSome then []
      else if frame.seqNum = s'.headSeqNum ∧ s'.storedMpduNum = 0 then []
      else index :: staReorderReleaseUses env (storeFrame env s' index frame)

end Uses

/-- A use of the two arrays: an index into one of them, or a flush of a session, which visits the
slots below `visited`. -/
inductive SlotUse
  | index (i : ℕ)
  | flush (s : RxBaSession) (visited : ℕ)

/-- A flush takes every slot of the configured buffer; `ieee80211_delete_ampdu_rx` clears as much of
`reorder_time`. -/
def flushUses (cfg : HostCfg) (s : RxBaSession) : List SlotUse :=
  .flush s cfg.ampduRxBufSize :: (List.range cfg.ampduRxBufSize).map .index

/-- What an operation on a session uses. -/
def sessUses (cfg : HostCfg) (s : RxBaSession) : SessOp → List SlotUse
  | .frame env f => (if s.bufSize = 0 then [] else staManageReorderBufUses env s f).map .index
  | .bar env start => (if s.bufSize = 0 then [] else windowUses env start seqModulo s).map .index
  | .timer env => (if s.bufSize = 0 then [] else staReorderReleaseUses env s).map .index
  | .addba _ _ _ => flushUses cfg s
  | .delete _ => flushUses cfg s

/-! ## The device -/

/-- The settings of `_ssv6xxx_set_ampdu_param` and the table of sessions. -/
structure AmpduState where
  ampduTxEnable : Bool
  ampduRxEnable : Bool
  cfg : HostCfg
  table : BaTable

/-- `_ssv6xxx_set_ampdu_param`: `AMPDU_TX_OPT_ENABLE`, `AMPDU_RX_OPT_ENABLE` and
`AMPDU_RX_OPT_BUF_SIZE`. The first two fields have one bit. -/
def setAmpduParam (opt value : UInt8) (s : AmpduState) : AmpduState :=
  if opt = 0 then { s with ampduTxEnable := value &&& 1 != 0 }
  else if opt = 7 then { s with ampduRxEnable := value &&& 1 != 0 }
  else if opt = 8 then { s with cfg := ⟨value.toNat, value.toNat_lt⟩ }
  else s

/-- The session operations of a call. -/
def TableOp.sessOps : TableOp → List (SessionId × SessOp)
  | .rx env f =>
    if f.f80211 then []
    else if !f.qos then []
    else (sessionId? f.wsid f.tid).toList.map fun id => (id, .frame env f)
  | .bar env wsid tid start => (sessionId? wsid tid).toList.map fun id => (id, .bar env start)
  | .timer env =>
    (List.finRange rxAggRxBaMaxStation).flatMap fun wsid =>
      (List.finRange rxAggRxBaMaxSessions).map fun tid => ((wsid, tid), .timer (env (wsid, tid)))
  | .addba env wsid tid ssn bufSize =>
    (sessionId? wsid tid).toList.map fun id => (id, .addba env ssn bufSize)
  | .delete env wsid =>
    if h : wsid < rxAggRxBaMaxStation then
      (List.finRange rxAggRxBaMaxSessions).map fun tid => ((⟨wsid, h⟩, tid), .delete env)
    else []

/-- One of them, with what it uses. -/
def useOne (cfg : HostCfg) (t : BaTable) (p : SessionId × SessOp) : BaTable × List SlotUse :=
  ((performOne cfg t p).1, sessUses cfg (t p.1) p.2)

/-- A change of a setting, or a call into the reorder code. -/
inductive AmpduIn
  | setAmpduParam (opt value : UInt8)
  | call (op : TableOp)

def ampduStep (s : AmpduState) : AmpduIn → AmpduState × List SlotUse
  | .setAmpduParam opt value => (setAmpduParam opt value s, [])
  | .call op =>
    let r := Machine.run (useOne s.cfg) s.table op.sessOps
    ({ s with table := r.1 }, r.2)

/-- The device after its initialisation: sessions are cleared, and their arrays allocated for the
setting. -/
def ampduInit (cfg : HostCfg) : AmpduState where
  ampduTxEnable := true
  ampduRxEnable := true
  cfg := cfg
  table := BaTable.zero

/-- The calls move the table as `tableStep` does. -/
theorem ampduStep_table (s : AmpduState) (op : TableOp) :
    (ampduStep s (.call op)).1.table = (tableStep s.cfg s.table op).1 := by
  have hrun : ∀ (t : BaTable) (ps : List (SessionId × SessOp)),
      (Machine.run (useOne s.cfg) t ps).1 = (perform s.cfg t ps).1 := by
    intro t ps
    induction ps generalizing t with
    | nil => rfl
    | cons p ps ih => exact ih _
  simp only [ampduStep, hrun]
  cases op with
  | rx env f =>
    simp only [TableOp.sessOps, tableStep, rxReorderAmpdu]
    cases hf : f.f80211 <;> cases hq : f.qos <;> cases hid : sessionId? f.wsid f.tid <;> simp
  | bar env wsid tid start =>
    simp only [TableOp.sessOps, tableStep, rxBarFrame]
    cases hid : sessionId? wsid tid <;> simp
  | timer env => rfl
  | addba env wsid tid ssn bufSize =>
    simp only [TableOp.sessOps, tableStep, addbaHandler]
    cases hid : sessionId? wsid tid <;> simp
  | delete env wsid =>
    simp only [TableOp.sessOps, tableStep, deleteAmpduRx]
    split <;> rfl

/-! ## Inside the window

All indices but those of a flush are below the `buf_size` of their session. -/

section Window

variable (env : Env) {s : RxBaSession}

theorem slot_lt (hb : s.bufSize ≠ 0) (sq : ℕ) : s.slot sq < s.bufSize :=
  Nat.mod_lt _ (Nat.pos_of_ne_zero hb)

theorem windowUses_lt (headSeqNum fuel : ℕ) (hb : s.bufSize ≠ 0) :
    ∀ i ∈ windowUses env headSeqNum fuel s, i < s.bufSize := by
  induction fuel generalizing s with
  | zero => simp [windowUses]
  | succ fuel ih =>
    rw [windowUses]
    split
    · rw [List.forall_mem_cons]
      refine ⟨slot_lt hb _, ?_⟩
      have hsize := releaseReorderFrame_bufSize env s (s.slot s.headSeqNum)
      rw [← hsize]
      exact ih (by rwa [hsize])
    · simp

theorem timeoutUses_lt (index fuel : ℕ) {j : ℕ} (skipped : ℕ) (hj : j < s.bufSize) :
    ∀ i ∈ (timeoutUses env index fuel s j skipped).1, i < s.bufSize := by
  induction fuel generalizing s j skipped with
  | zero => simp [timeoutUses]
  | succ fuel ih =>
    have hnext : (j + 1) % s.bufSize < s.bufSize := Nat.mod_lt _ (by omega)
    rw [timeoutUses]
    split_ifs
    · simp
    · exact List.forall_mem_cons.mpr ⟨hj, ih _ hnext⟩
    · simpa using hj
    · rw [List.forall_mem_cons]
      refine ⟨hj, ?_⟩
      have hsize := releaseReorderFrame_bufSize env s j
      simp only [← hsize] at hnext ⊢
      exact ih (s := { (releaseReorderFrame env s j).1 with
        headSeqNum := ((releaseReorderFrame env s j).1.headSeqNum + skipped) % 4096 }) 0 hnext

theorem inOrderUses_lt (fuel : ℕ) (hb : s.bufSize ≠ 0) :
    ∀ i ∈ inOrderUses env fuel s, i < s.bufSize := by
  induction fuel generalizing s with
  | zero => simp [inOrderUses]
  | succ fuel ih =>
    rw [inOrderUses]
    refine List.forall_mem_cons.mpr ⟨slot_lt hb _, ?_⟩
    split
    · have hsize := releaseReorderFrame_bufSize env s (s.slot s.headSeqNum)
      rw [← hsize]
      exact ih (by rwa [hsize])
    · simp

theorem lastUses_lt (hb : s.bufSize ≠ 0) : ∀ i ∈ lastUses s, i < s.bufSize := by
  have hscan : ∀ fuel j, j < s.bufSize →
      ∀ i ∈ scanUses s (s.slot s.headSeqNum) fuel j, i < s.bufSize := by
    intro fuel
    induction fuel with
    | zero => simp [scanUses]
    | succ fuel ih =>
      intro j hj
      rw [scanUses]
      split
      · simp
      · refine List.forall_mem_cons.mpr ⟨hj, ?_⟩
        split
        · simp
        · exact ih _ (Nat.mod_lt _ (by omega))
  unfold lastUses
  split
  · simp
  · exact hscan _ _ (slot_lt hb _)

theorem staReorderReleaseUses_lt (hb : s.bufSize ≠ 0) :
    ∀ i ∈ staReorderReleaseUses env s, i < s.bufSize := by
  have hsize := staReorderRelease_bufSize env s
  have hlast : ∀ i ∈ lastUses (staReorderRelease env s).1, i < s.bufSize := by
    rw [← hsize]
    exact lastUses_lt (by rwa [hsize])
  rw [staReorderReleaseUses]
  refine List.forall_mem_cons.mpr ⟨slot_lt hb _, ?_⟩
  split
  · refine List.forall_mem_append.mpr
      ⟨timeoutUses_lt env _ _ 1 (Nat.mod_lt _ (Nat.pos_of_ne_zero hb)), ?_⟩
    split
    · simp
    · exact hlast
  · exact List.forall_mem_append.mpr ⟨inOrderUses_lt env _ hb, hlast⟩

theorem staManageReorderBufUses_lt (hb : s.bufSize ≠ 0) (frame : RxFrame) :
    ∀ i ∈ staManageReorderBufUses env s frame, i < s.bufSize := by
  have hsize : (makeRoom env s frame.seqNum).1.bufSize = s.bufSize := by
    unfold makeRoom
    split
    · rfl
    · exact releaseReorderFramesLoop_bufSize env _ _ s
  have hindex : (makeRoom env s frame.seqNum).1.slot frame.seqNum < s.bufSize :=
    hsize ▸ slot_lt (by rwa [hsize]) _
  unfold staManageReorderBufUses
  split
  · simp
  refine List.forall_mem_append.mpr ⟨?_, List.forall_mem_cons.mpr ⟨hindex, ?_⟩⟩
  · split
    · simp
    · exact windowUses_lt env _ _ hb
  · split_ifs
    · simp
    · simp
    · refine List.forall_mem_cons.mpr ⟨hindex, ?_⟩
      have hstore : (storeFrame env (makeRoom env s frame.seqNum).1
          ((makeRoom env s frame.seqNum).1.slot frame.seqNum) frame).bufSize = s.bufSize := hsize
      rw [← hstore]
      exact staReorderReleaseUses_lt env (by rwa [hstore])

theorem releaseReorderFramesLoop_slot (target fuel : ℕ) (s : RxBaSession) (sq : ℕ) :
    (releaseReorderFramesLoop env target fuel s).1.slot sq = s.slot sq := by
  induction fuel generalizing s with
  | zero => rfl
  | succ fuel ih =>
    rw [releaseReorderFramesLoop]
    split
    · exact (ih _).trans (releaseReorderFrame_slot env s _ sq)
    · rfl

/-- A frame that is not old has its slot looked at. -/
theorem slot_mem_staManageReorderBufUses {frame : RxFrame}
    (hnew : seqLess frame.seqNum s.headSeqNum = false) :
    s.slot frame.seqNum ∈ staManageReorderBufUses env s frame := by
  have hslot : (makeRoom env s frame.seqNum).1.slot frame.seqNum = s.slot frame.seqNum := by
    unfold makeRoom
    split
    · rfl
    · exact releaseReorderFramesLoop_slot env _ _ s _
  simp [staManageReorderBufUses, hnew, hslot]

end Window

/-! ## Sizes that agree -/

/-- A use stays inside the `n` allocated slots, and a flush visits every slot that can hold a
frame: those of the window, and any other that does. -/
def SlotUse.Ok (n : ℕ) : SlotUse → Prop
  | .index i => i < n
  | .flush s visited => ∀ i, i < s.bufSize ∨ (s.reorderBuf i).isSome → i < visited

/-- Where a session is set up or deleted, its window fits the setting and the setting the
allocation, and so does the window it is set up with. -/
def SessOp.Agrees (n : ℕ) (cfg : HostCfg) (s : RxBaSession) : SessOp → Prop
  | .addba _ _ bufSize => s.bufSize ≤ cfg.ampduRxBufSize ∧ cfg.ampduRxBufSize ≤ n ∧ bufSize ≤ n
  | .delete _ => s.bufSize ≤ cfg.ampduRxBufSize ∧ cfg.ampduRxBufSize ≤ n
  | _ => True

/-- So it is for the sessions of a call. -/
def AmpduIn.Agrees (n : ℕ) (s : AmpduState) : AmpduIn → Prop
  | .setAmpduParam _ _ => True
  | .call op => ∀ p ∈ op.sessOps, p.2.Agrees n s.cfg (s.table p.1)

/-- What agreement keeps: the window fits the allocation, and the frames are in it. -/
structure SessFits (n : ℕ) (s : RxBaSession) : Prop where
  bufSize_le : s.bufSize ≤ n
  stocked : Stocked s.bufSize s

theorem sessFits_zero (n : ℕ) : SessFits n RxBaSession.zero :=
  ⟨Nat.zero_le n, fun _ _ => rfl, rfl⟩

section Session

variable {n : ℕ} {cfg : HostCfg} {s : RxBaSession}

/-- A flush stays inside and misses nothing exactly when the setting is between the window and the
allocation. -/
theorem SessFits.flushUses_ok_iff (h : SessFits n s) :
    (∀ u ∈ flushUses cfg s, u.Ok n)
      ↔ s.bufSize ≤ cfg.ampduRxBufSize ∧ cfg.ampduRxBufSize ≤ n := by
  have hvisit : SlotUse.Ok n (.flush s cfg.ampduRxBufSize) ↔ s.bufSize ≤ cfg.ampduRxBufSize := by
    constructor
    · intro hall
      by_contra hlt
      exact Nat.lt_irrefl _ (hall cfg.ampduRxBufSize (.inl (by omega)))
    · rintro hsize i (hi | hi)
      · omega
      · by_contra hge
        rw [h.stocked.housed i (by omega)] at hi
        cases hi
  rw [flushUses, List.forall_mem_cons, hvisit, List.forall_mem_map]
  refine and_congr_right fun _ => ?_
  simp only [List.mem_range, SlotUse.Ok]
  constructor
  · intro hall
    by_contra hlt
    exact Nat.lt_irrefl n (hall n (by omega))
  · intro hle i hi
    omega

/-- All that an operation uses is inside, and a flush misses nothing. -/
theorem SessFits.ok (h : SessFits n s) {op : SessOp} (hop : op.Agrees n cfg s) :
    ∀ u ∈ sessUses cfg s op, u.Ok n := by
  have hinside : ∀ l : List ℕ, (s.bufSize ≠ 0 → ∀ i ∈ l, i < s.bufSize) →
      ∀ u ∈ (if s.bufSize = 0 then [] else l).map SlotUse.index, u.Ok n := by
    intro l hl
    rw [List.forall_mem_map]
    split
    · simp
    · rename_i hb
      exact fun i hi => (hl hb i hi).trans_le h.bufSize_le
  cases op with
  | frame env f => exact hinside _ fun hb => staManageReorderBufUses_lt env hb f
  | bar env start => exact hinside _ fun hb => windowUses_lt env start _ hb
  | timer env => exact hinside _ fun hb => staReorderReleaseUses_lt env hb
  | addba env ssn bufSize => exact h.flushUses_ok_iff.mpr ⟨hop.1, hop.2.1⟩
  | delete env => exact h.flushUses_ok_iff.mpr hop

/-- A flush of the whole window leaves nothing behind, whatever the size is set to. -/
theorem SessFits.stocked_flush (h : SessFits n s) (hn : n < 65536) (env : Env)
    (hsize : s.bufSize ≤ cfg.ampduRxBufSize) (b : ℕ) : Stocked b (flushSession cfg env s).1 := by
  have hempty : ∀ i, (flushSession cfg env s).1.reorderBuf i = none := by
    intro i
    rw [flushSession, flushLoop_reorderBuf]
    split
    · rfl
    · exact h.stocked.housed i (by omega)
  have hcount := (conserves_flushLoop (h.bufSize_le.trans_lt hn) env cfg.ampduRxBufSize 0
    h.stocked).stocked.counted
  have hnil : ∀ m, Slots.contents m (flushSession cfg env s).1.reorderBuf = [] :=
    fun m => Slots.contents_eq_nil.mpr fun i _ => hempty i
  refine ⟨fun i _ => hempty i, ?_⟩
  rw [hnil]
  exact hcount.trans (congrArg List.length (hnil s.bufSize))

/-- An operation keeps the frames in the window. -/
theorem SessFits.step (h : SessFits n s) (hn : n < 65536) {op : SessOp}
    (hop : op.Agrees n cfg s) : SessFits n (sessStep cfg s op).1 := by
  have hb : s.bufSize < 65536 := h.bufSize_le.trans_lt hn
  -- what conserves the frames keeps the size
  have keep : ∀ {arrived r}, Conserves s.bufSize arrived s r → SessFits n r.1 := by
    intro arrived r hr
    exact ⟨hr.bufSize ▸ h.bufSize_le, hr.bufSize ▸ hr.stocked⟩
  cases op with
  | frame env f => exact keep (conserves_rxSession hb env h.stocked (Nat.le_refl _) f)
  | bar env start =>
    simp only [sessStep, rxBar]
    split
    · exact h
    · exact keep (conserves_releaseReorderFramesLoop hb env start _ h.stocked)
  | timer env =>
    simp only [sessStep, timerRelease]
    split
    · exact h
    · exact keep (conserves_staReorderRelease hb env h.stocked)
  | addba env ssn bufSize =>
    exact ⟨hop.2.2, (h.stocked_flush hn env hop.1 bufSize).congr rfl rfl⟩
  | delete env =>
    have hflush : Stocked 0 (flushSession cfg env s).1 := h.stocked_flush hn env hop.1 0
    exact ⟨Nat.zero_le n, hflush.housed, rfl⟩

/-- A session set up with a window larger than the allocation uses a slot behind it as soon as a
frame with the number of that slot comes. -/
theorem sessUses_beyond (hn : n < s.bufSize) (env : Env) {f : RxFrame}
    (hf : seqSub f.seqNum s.ssn = n) (hnew : seqLess f.seqNum s.headSeqNum = false) :
    .index n ∈ sessUses cfg s (.frame env f) := by
  have hslot : s.slot f.seqNum = n := by rw [RxBaSession.slot, hf, Nat.mod_eq_of_lt hn]
  have hmem := slot_mem_staManageReorderBufUses env hnew
  rw [hslot] at hmem
  simpa [sessUses, show s.bufSize ≠ 0 by omega] using hmem

end Session

/-! ## Runs -/

/-- The operations of a call are on different sessions. -/
theorem nodup_sessOps (op : TableOp) : (op.sessOps.map Prod.fst).Nodup := by
  have hone : ∀ (o : Option SessionId) (sop : SessOp),
      ((o.toList.map fun id => (id, sop)).map Prod.fst).Nodup := by
    intro o sop
    cases o <;> simp
  cases op with
  | rx env f =>
    simp only [TableOp.sessOps]
    split
    · exact List.nodup_nil
    · split
      · exact List.nodup_nil
      · exact hone _ _
  | bar env wsid tid start => exact hone _ _
  | timer env =>
    simp only [TableOp.sessOps, List.map_flatMap, List.map_map, Function.comp_def]
    decide
  | addba env wsid tid ssn bufSize => exact hone _ _
  | delete env wsid =>
    simp only [TableOp.sessOps]
    split
    · simp only [List.map_map, Function.comp_def]
      exact (List.nodup_finRange _).map fun _ _ h => (Prod.ext_iff.mp h).2
    · exact List.nodup_nil

/-- Operations on different sessions, each of which agrees with the session it finds. -/
theorem run_useOne {n : ℕ} (hn : n < 65536) {cfg : HostCfg} {t : BaTable}
    (ht : ∀ id, SessFits n (t id)) {ps : List (SessionId × SessOp)}
    (hnodup : (ps.map Prod.fst).Nodup) (hps : ∀ p ∈ ps, p.2.Agrees n cfg (t p.1)) :
    (∀ id, SessFits n ((Machine.run (useOne cfg) t ps).1 id)) ∧
      ∀ u ∈ (Machine.run (useOne cfg) t ps).2, u.Ok n := by
  induction ps generalizing t with
  | nil => exact ⟨ht, by simp⟩
  | cons p ps ih =>
    obtain ⟨hp, hps⟩ := List.forall_mem_cons.mp hps
    rw [List.map_cons, List.nodup_cons] at hnodup
    have ht' : ∀ id, SessFits n ((useOne cfg t p).1 id) := by
      intro id
      by_cases hid : id = p.1
      · subst hid
        simpa [useOne, performOne] using (ht p.1).step hn hp
      · simpa [useOne, performOne, hid] using ht id
    have hps' : ∀ q ∈ ps, q.2.Agrees n cfg ((useOne cfg t p).1 q.1) := by
      intro q hq
      have hne : q.1 ≠ p.1 := fun h => hnodup.1 (h ▸ List.mem_map_of_mem hq)
      simpa [useOne, performOne, hne] using hps q hq
    obtain ⟨hfits, hok⟩ := ih ht' hnodup.2 hps'
    refine ⟨hfits, ?_⟩
    rw [Machine.run_cons, List.forall_mem_append]
    exact ⟨(ht p.1).ok hp, hok⟩

/-- In every run in which sessions are set up and deleted with sizes that agree, every index into
`reorder_buf` and `reorder_time` is inside, and every flush visits every slot that can hold a
frame. -/
theorem ok_run (cfg : HostCfg) (is : List AmpduIn)
    (his : Machine.Meets ampduStep (AmpduIn.Agrees cfg.ampduRxBufSize) (ampduInit cfg) is) :
    ∀ u ∈ (Machine.run ampduStep (ampduInit cfg) is).2, u.Ok cfg.ampduRxBufSize := by
  have hn : cfg.ampduRxBufSize < 65536 := cfg.ampduRxBufSize_lt.trans (by decide)
  refine (Machine.run_induction_of_meets
    (P := fun (s : AmpduState) _ uses => (∀ id, SessFits cfg.ampduRxBufSize (s.table id)) ∧
      ∀ u ∈ uses, SlotUse.Ok cfg.ampduRxBufSize u)
    ⟨fun _ => sessFits_zero _, by simp⟩ ?_ is his).2
  rintro s - uses i hi ⟨hs, huses⟩
  cases i with
  | setAmpduParam opt value =>
    have htable : (setAmpduParam opt value s).table = s.table := by
      unfold setAmpduParam
      split_ifs <;> rfl
    refine ⟨fun id => ?_, by simpa [ampduStep] using huses⟩
    rw [ampduStep, htable]
    exact hs id
  | call op =>
    obtain ⟨hfits, hok⟩ := run_useOne hn hs (nodup_sessOps op) hi
    exact ⟨hfits, List.forall_mem_append.mpr ⟨huses, hok⟩⟩

/-- The setting is halved, and a session set up with a window of that size. -/
theorem ok_run_halved :
    Machine.Meets ampduStep (AmpduIn.Agrees 64) (ampduInit .default)
        [.setAmpduParam 8 32, .call (.addba .ap 0 0 7 32)] ∧
      ∀ u ∈ (Machine.run ampduStep (ampduInit .default)
        [.setAmpduParam 8 32, .call (.addba .ap 0 0 7 32)]).2, u.Ok 64 := by
  have hmeets : Machine.Meets ampduStep (AmpduIn.Agrees 64) (ampduInit .default)
      [.setAmpduParam 8 32, .call (.addba .ap 0 0 7 32)] := by
    refine ⟨trivial, fun p hp => ?_, trivial⟩
    have hid : sessionId? 0 0 = some (⟨0, by decide⟩, ⟨0, by decide⟩) := rfl
    simp only [TableOp.sessOps, hid, Option.toList_some, List.map_singleton,
      List.mem_singleton] at hp
    subst hp
    exact ⟨Nat.zero_le _, by decide, by decide⟩
  exact ⟨hmeets, ok_run .default _ hmeets⟩

/-- The setting is doubled, and the next session that is set up is flushed beyond its buffer. -/
theorem not_ok_doubled :
    ¬ ∀ u ∈ (Machine.run ampduStep (ampduInit .default)
        [.setAmpduParam 8 128, .call (.addba .ap 0 0 7 64)]).2, u.Ok 64 := by
  intro h
  have hmem : SlotUse.index 64 ∈ flushUses ⟨128, by decide⟩ RxBaSession.zero :=
    List.mem_cons_of_mem _ (List.mem_map_of_mem (List.mem_range.mpr (by decide)))
  exact Nat.lt_irrefl 64 (h (.index 64) (List.mem_append_right _ (List.mem_append_left _ hmem)))

end Fullmac.Rx
