import Fullmac.Rx.ReorderOwnership
import Mathlib.Algebra.BigOperators.Fin
import Mathlib.Algebra.BigOperators.Group.Multiset.Basic

/-!
# The table of block-ack sessions

Reference: `host/core/txrx_hdl.c`, `g_ba_rx_session_desc` and the functions that address it:
`ieee80211_rx_reorder_ampdu`, the BAR branch of `_RxHdl_FrameProc`, `timer_sta_reorder_release`,
`ieee80211_addba_handler` and `ieee80211_delete_ampdu_rx`. Each picks one or more sessions and works
on them under their locks, so a call is a list of session operations (`perform`). What the handlers
do besides (log lines, `ampduRx_vif`, arming the release timer) does not touch the table.

The main result is that frames are conserved over whole runs: at every moment each frame is stored
as often as it was passed in and neither sent nor freed.
-/

namespace Fullmac.Rx

open Slots

/-- `RX_AGG_RX_BA_MAX_STATION`. -/
def rxAggRxBaMaxStation : ℕ := 8

/-- `RX_AGG_RX_BA_MAX_SESSIONS`. -/
def rxAggRxBaMaxSessions : ℕ := 1

/-- An entry of the table: station and traffic identifier. -/
abbrev SessionId := Fin rxAggRxBaMaxStation × Fin rxAggRxBaMaxSessions

/-- `g_ba_rx_session_desc`. -/
abbrev BaTable := SessionId → RxBaSession

/-- The table after initialisation. -/
def BaTable.zero : BaTable := fun _ => RxBaSession.zero

/-- The entry for `wsid` and `tid`, if both are in range. -/
def sessionId? (wsid tid : ℕ) : Option SessionId :=
  if h : wsid < rxAggRxBaMaxStation ∧ tid < rxAggRxBaMaxSessions then
    some (⟨wsid, h.1⟩, ⟨tid, h.2⟩)
  else none

/-- One session operation on the table. -/
def performOne (cfg : HostCfg) (t : BaTable) (p : SessionId × SessOp) :
    BaTable × List RxEvent :=
  (Function.update t p.1 (sessStep cfg (t p.1) p.2).1, (sessStep cfg (t p.1) p.2).2)

/-- Session operations on the table, one after another. -/
abbrev perform (cfg : HostCfg) : BaTable → List (SessionId × SessOp) → BaTable × List RxEvent :=
  Machine.run (performOne cfg)

/-- `ieee80211_rx_reorder_ampdu`: frames that are not QoS data of a session in the table go straight
to `send_to_data_handler`. -/
def rxReorderAmpdu (cfg : HostCfg) (env : Env) (t : BaTable) (frame : RxFrame) :
    BaTable × List RxEvent :=
  if frame.f80211 then (t, [.bypass frame])
  else if !frame.qos then (t, [.bypass frame])
  else
    match sessionId? frame.wsid frame.tid with
    | none => (t, [.bypass frame])
    | some id => perform cfg t [(id, .frame env frame)]

/-- The BAR branch of `_RxHdl_FrameProc`. The BAR frame itself never enters the reorder code. -/
def rxBarFrame (cfg : HostCfg) (env : Env) (t : BaTable) (wsid tid startSeqNum : ℕ) :
    BaTable × List RxEvent :=
  match sessionId? wsid tid with
  | none => (t, [])
  | some id => perform cfg t [(id, .bar env startSeqNum)]

/-- `timer_sta_reorder_release`. -/
def timerStaReorderRelease (cfg : HostCfg) (env : SessionId → Env) (t : BaTable) :
    BaTable × List RxEvent :=
  perform cfg t ((List.finRange rxAggRxBaMaxStation).flatMap fun wsid =>
    (List.finRange rxAggRxBaMaxSessions).map fun tid => ((wsid, tid), .timer (env (wsid, tid))))

/-- `ieee80211_addba_handler`. -/
def addbaHandler (cfg : HostCfg) (env : Env) (t : BaTable) (wsid tid ssn bufSize : ℕ) :
    BaTable × List RxEvent :=
  match sessionId? wsid tid with
  | none => (t, [])
  | some id => perform cfg t [(id, .addba env ssn bufSize)]

/-- `ieee80211_delete_ampdu_rx`. -/
def deleteAmpduRx (cfg : HostCfg) (env : Env) (t : BaTable) (wsid : ℕ) :
    BaTable × List RxEvent :=
  if h : wsid < rxAggRxBaMaxStation then
    perform cfg t ((List.finRange rxAggRxBaMaxSessions).map fun tid =>
      ((⟨wsid, h⟩, tid), .delete env))
  else (t, [])

/-- One call into the reorder code. -/
inductive TableOp
  | rx (env : Env) (f : RxFrame)
  | bar (env : Env) (wsid tid startSeqNum : ℕ)
  | timer (env : SessionId → Env)
  | addba (env : Env) (wsid tid ssn bufSize : ℕ)
  | delete (env : Env) (wsid : ℕ)

def tableStep (cfg : HostCfg) (t : BaTable) : TableOp → BaTable × List RxEvent
  | .rx env f => rxReorderAmpdu cfg env t f
  | .bar env wsid tid start => rxBarFrame cfg env t wsid tid start
  | .timer env => timerStaReorderRelease cfg env t
  | .addba env wsid tid ssn bufSize => addbaHandler cfg env t wsid tid ssn bufSize
  | .delete env wsid => deleteAmpduRx cfg env t wsid

/-- A run of calls. -/
abbrev tableRun (cfg : HostCfg) : BaTable → List TableOp → BaTable × List RxEvent :=
  Machine.run (tableStep cfg)

/-- An ADDBA event does not ask for more slots than there are. -/
def TableOp.Fits (cfg : HostCfg) : TableOp → Prop
  | .addba _ _ _ _ bufSize => bufSize ≤ cfg.ampduRxBufSize
  | _ => True

/-- The frame a call brings in. -/
def TableOp.arrived : TableOp → List RxFrame
  | .rx _ f => [f]
  | _ => []

/-- All frames passed to `ieee80211_rx_reorder_ampdu`, in order. -/
def arrivedFrames (ops : List TableOp) : List RxFrame := ops.flatMap TableOp.arrived

/-! ## Conservation over the table -/

/-- All frames stored in the table. -/
def BaTable.stored (cfg : HostCfg) (t : BaTable) : Multiset RxFrame :=
  ∑ id, storedFrames cfg.ampduRxBufSize (t id)

/-- Exchanging one session for another changes the table by what that session changes. -/
theorem stored_update {cfg : HostCfg} (t : BaTable) (id : SessionId) {s' : RxBaSession}
    {inp out : Multiset RxFrame}
    (h : inp + storedFrames cfg.ampduRxBufSize (t id)
      = out + storedFrames cfg.ampduRxBufSize s') :
    inp + BaTable.stored cfg t = out + BaTable.stored cfg (Function.update t id s') := by
  have hold : BaTable.stored cfg t = storedFrames cfg.ampduRxBufSize (t id)
      + ∑ i ∈ Finset.univ \ {id}, storedFrames cfg.ampduRxBufSize (t i) := by
    rw [BaTable.stored, ← Finset.sum_sdiff (Finset.subset_univ {id}), add_comm,
      Finset.sum_singleton]
  have hnew : BaTable.stored cfg (Function.update t id s') = storedFrames cfg.ampduRxBufSize s'
      + ∑ i ∈ Finset.univ \ {id}, storedFrames cfg.ampduRxBufSize (t i) := by
    have hcomp : (fun i => storedFrames cfg.ampduRxBufSize (Function.update t id s' i))
        = Function.update (fun i => storedFrames cfg.ampduRxBufSize (t i)) id
            (storedFrames cfg.ampduRxBufSize s') := by
      funext i
      by_cases hi : i = id
      · subst hi; simp
      · simp [Function.update_of_ne hi]
    rw [BaTable.stored, hcomp, Finset.sum_update_of_mem (Finset.mem_univ id)]
  rw [hold, hnew, ← add_assoc, ← add_assoc, h]

/-- Every session of the table is sound. -/
def TableSound (cfg : HostCfg) (t : BaTable) : Prop := ∀ id, Sound cfg (t id)

/-- A list of session operations keeps the table sound and conserves the frames. -/
theorem perform_conserves {cfg : HostCfg} {t : BaTable} (h : TableSound cfg t)
    (ps : List (SessionId × SessOp)) (hps : ∀ p ∈ ps, p.2.Fits cfg) :
    TableSound cfg (perform cfg t ps).1 ∧
      (ps.map fun p => p.2.arrived).sum + BaTable.stored cfg t
        = leftFrames (perform cfg t ps).2 + BaTable.stored cfg (perform cfg t ps).1 := by
  refine Machine.run_induction_of_meets (C := fun _ p => p.2.Fits cfg)
    (P := fun t' ps tr => TableSound cfg t' ∧
      (ps.map fun p => p.2.arrived).sum + BaTable.stored cfg t
        = leftFrames tr + BaTable.stored cfg t')
    ⟨h, by simp⟩ ?_ ps (Machine.meets_of_forall hps)
  rintro t' done tr ⟨id, op⟩ hop ⟨hsound, hsum⟩
  obtain ⟨hs, hframes⟩ := sessStep_conserves (hsound id) op hop
  refine ⟨?_, ?_⟩
  · intro id'
    by_cases hid : id' = id
    · subst hid
      simpa [performOne] using hs
    · simpa [performOne, Function.update_of_ne hid] using hsound id'
  · have hone := stored_update t' id hframes
    calc ((done ++ [(id, op)]).map fun p => p.2.arrived).sum + BaTable.stored cfg t
        = op.arrived + ((done.map fun p => p.2.arrived).sum + BaTable.stored cfg t) := by
          simp only [List.map_append, List.map_cons, List.map_nil, List.sum_append, List.sum_cons,
            List.sum_nil, add_zero]
          abel
      _ = leftFrames tr + (op.arrived + BaTable.stored cfg t') := by rw [hsum]; abel
      _ = leftFrames (tr ++ (performOne cfg t' (id, op)).2)
            + BaTable.stored cfg (performOne cfg t' (id, op)).1 := by
          rw [hone, leftFrames_append, add_assoc]
          rfl

theorem leftFrames_bypass (f : RxFrame) : leftFrames [.bypass f] = {f} := by
  simp [leftFrames, sentFrames, freedFrames, RxEvent.sentFrames, RxEvent.freedFrames]

/-- Every call keeps the table sound and conserves the frames. -/
theorem tableStep_conserves {cfg : HostCfg} {t : BaTable} (h : TableSound cfg t) (op : TableOp)
    (hop : op.Fits cfg) :
    TableSound cfg (tableStep cfg t op).1 ∧
      (op.arrived : Multiset RxFrame) + BaTable.stored cfg t
        = leftFrames (tableStep cfg t op).2 + BaTable.stored cfg (tableStep cfg t op).1 := by
  cases op with
  | rx env f =>
    simp only [tableStep, rxReorderAmpdu, TableOp.arrived, Multiset.coe_singleton]
    split
    · exact ⟨h, by rw [leftFrames_bypass]⟩
    split
    · exact ⟨h, by rw [leftFrames_bypass]⟩
    split
    · exact ⟨h, by rw [leftFrames_bypass]⟩
    · rename_i id _
      have hp := perform_conserves h [(id, .frame env f)] (by simp [SessOp.Fits])
      simpa [SessOp.arrived] using hp
  | bar env wsid tid start =>
    simp only [tableStep, rxBarFrame, TableOp.arrived, Multiset.coe_nil, zero_add]
    split
    · exact ⟨h, by simp⟩
    · rename_i id _
      have hp := perform_conserves h [(id, .bar env start)] (by simp [SessOp.Fits])
      simpa [SessOp.arrived] using hp
  | timer env =>
    have hp := perform_conserves h ((List.finRange rxAggRxBaMaxStation).flatMap fun wsid =>
      (List.finRange rxAggRxBaMaxSessions).map fun tid =>
        ((wsid, tid), SessOp.timer (env (wsid, tid)))) (by simp [SessOp.Fits])
    have hzero : (((List.finRange rxAggRxBaMaxStation).flatMap fun wsid =>
        (List.finRange rxAggRxBaMaxSessions).map fun tid =>
          (((wsid, tid), SessOp.timer (env (wsid, tid))) : SessionId × SessOp)).map
            fun p => p.2.arrived).sum = 0 := by
      refine List.sum_eq_zero fun m hm => ?_
      simp only [List.map_flatMap, List.map_map, List.mem_flatMap, List.mem_map] at hm
      obtain ⟨_, _, _, _, rfl⟩ := hm
      rfl
    rw [hzero] at hp
    exact hp
  | addba env wsid tid ssn bufSize =>
    simp only [tableStep, addbaHandler, TableOp.arrived, Multiset.coe_nil, zero_add]
    split
    · exact ⟨h, by simp⟩
    · rename_i id _
      have hp := perform_conserves h [(id, .addba env ssn bufSize)] (by
        intro p hp
        obtain rfl : p = (id, .addba env ssn bufSize) := by simpa using hp
        exact hop)
      simpa [SessOp.arrived] using hp
  | delete env wsid =>
    simp only [tableStep, deleteAmpduRx, TableOp.arrived, Multiset.coe_nil, zero_add]
    split
    · rename_i hw
      have hp := perform_conserves h ((List.finRange rxAggRxBaMaxSessions).map fun tid =>
        ((⟨wsid, hw⟩, tid), SessOp.delete env)) (by simp [SessOp.Fits])
      simpa [SessOp.arrived, Function.comp_def] using hp
    · exact ⟨h, by simp⟩

/-- After every run the table is sound and the frames passed in are all accounted for. -/
theorem tableRun_conserves {cfg : HostCfg} (ops : List TableOp) (hops : ∀ op ∈ ops, op.Fits cfg) :
    TableSound cfg (tableRun cfg BaTable.zero ops).1 ∧
      (arrivedFrames ops : Multiset RxFrame)
        = leftFrames (tableRun cfg BaTable.zero ops).2
          + BaTable.stored cfg (tableRun cfg BaTable.zero ops).1 := by
  refine Machine.run_induction_of_meets (C := fun _ op => op.Fits cfg)
    (P := fun t ops tr => TableSound cfg t ∧
      (arrivedFrames ops : Multiset RxFrame) = leftFrames tr + BaTable.stored cfg t)
    ⟨fun _ => sound_zero cfg, ?_⟩ ?_ ops (Machine.meets_of_forall hops)
  · have hnil : ∀ id, storedFrames cfg.ampduRxBufSize (BaTable.zero id) = 0 := by
      intro id
      have hc : contents cfg.ampduRxBufSize (BaTable.zero id).reorderBuf = [] :=
        contents_eq_nil.mpr fun _ _ => rfl
      rw [storedFrames, hc, Multiset.coe_nil]
    simp only [arrivedFrames, List.flatMap_nil, Multiset.coe_nil, leftFrames_nil, zero_add,
      BaTable.stored]
    exact (Finset.sum_eq_zero fun id _ => hnil id).symm
  · rintro t done tr op hop ⟨hsound, hsum⟩
    obtain ⟨hs, hframes⟩ := tableStep_conserves hsound op hop
    refine ⟨hs, ?_⟩
    calc (arrivedFrames (done ++ [op]) : Multiset RxFrame)
        = (op.arrived : Multiset RxFrame) + (arrivedFrames done : Multiset RxFrame) := by
          simp only [arrivedFrames, List.flatMap_append, List.flatMap_cons, List.flatMap_nil,
            List.append_nil, ← Multiset.coe_add]
          abel
      _ = leftFrames tr + ((op.arrived : Multiset RxFrame) + BaTable.stored cfg t) := by
          rw [hsum]; abel
      _ = leftFrames (tr ++ (tableStep cfg t op).2)
            + BaTable.stored cfg (tableStep cfg t op).1 := by
          rw [hframes, leftFrames_append, add_assoc]

/-- In how many slots of the table the frame is stored. -/
def BaTable.slotsHolding (cfg : HostCfg) (t : BaTable) (f : RxFrame) : ℕ :=
  ∑ id, (List.range cfg.ampduRxBufSize).countP fun i => decide ((t id).reorderBuf i = some f)

theorem count_stored (cfg : HostCfg) (t : BaTable) (f : RxFrame) :
    (BaTable.stored cfg t).count f = BaTable.slotsHolding cfg t f := by
  rw [BaTable.stored, Multiset.count_sum', BaTable.slotsHolding]
  refine Finset.sum_congr rfl fun id _ => ?_
  rw [storedFrames, Multiset.coe_count, contents, List.count, List.countP_filterMap]
  refine List.countP_congr fun i _ => ?_
  cases (t id).reorderBuf i <;> simp

/-- After `ieee80211_delete_ampdu_rx` no slot of the station's sessions holds a frame. -/
theorem deleteAmpduRx_empties {cfg : HostCfg} {t : BaTable} (h : TableSound cfg t) (env : Env)
    (wsid : Fin rxAggRxBaMaxStation) (tid : Fin rxAggRxBaMaxSessions) (i : ℕ) :
    ((deleteAmpduRx cfg env t wsid).1 (wsid, tid)).reorderBuf i = none := by
  -- there is a single traffic identifier
  have htids : List.finRange rxAggRxBaMaxSessions = [⟨0, by decide⟩] := by decide
  obtain rfl : tid = ⟨0, by decide⟩ := by
    have htid : tid ∈ List.finRange rxAggRxBaMaxSessions := List.mem_finRange tid
    rwa [htids, List.mem_singleton] at htid
  have hflush := flushSession_reorderBuf cfg env (h (wsid, ⟨0, by decide⟩)).stocked i
  rw [deleteAmpduRx, dif_pos wsid.isLt, htids]
  simpa [performOne, sessStep, deleteSession] using hflush

/-- **Frames are conserved.** After every sequence of calls, `stored_mpdu_num` of every session is
the number of its full slots, and every frame has been stored, sent and freed as often as it was
passed in: a frame passed in once is in one slot, or was sent once, or was freed once, and only one
of these. Deleting a station's sessions leaves none of their slots full. -/
theorem tableRun_frame_in_one_place (cfg : HostCfg) (ops : List TableOp)
    (hops : ∀ op ∈ ops, op.Fits cfg) :
    (∀ id, ((tableRun cfg BaTable.zero ops).1 id).storedMpduNum
        = (List.range cfg.ampduRxBufSize).countP fun i =>
            (((tableRun cfg BaTable.zero ops).1 id).reorderBuf i).isSome) ∧
      (∀ f, (arrivedFrames ops).count f
        = BaTable.slotsHolding cfg (tableRun cfg BaTable.zero ops).1 f
          + (sentFrames (tableRun cfg BaTable.zero ops).2).count f
          + (freedFrames (tableRun cfg BaTable.zero ops).2).count f) ∧
      (∀ env (wsid : Fin rxAggRxBaMaxStation) (tid : Fin rxAggRxBaMaxSessions) (i : ℕ),
        ((deleteAmpduRx cfg env (tableRun cfg BaTable.zero ops).1 wsid).1
          (wsid, tid)).reorderBuf i = none) := by
  obtain ⟨hsound, hsum⟩ := tableRun_conserves ops hops
  refine ⟨fun id => ?_, fun f => ?_,
    fun env wsid tid i => deleteAmpduRx_empties hsound env wsid tid i⟩
  · rw [(hsound id).stocked.counted, contents, List.length_filterMap_eq_countP]
  · have hcount := congrArg (Multiset.count f) hsum
    rw [Multiset.count_add, leftFrames, Multiset.count_add, count_stored] at hcount
    simp only [Multiset.coe_count] at hcount
    omega

/-- A frame that waits for its predecessor is in one slot and nowhere else. -/
theorem waiting_frame_in_one_place :
    (arrivedFrames [.addba .ap 0 0 7 64, .rx .ap (.data 0 8)]).count (.data 0 8)
      = BaTable.slotsHolding .default (tableRun .default BaTable.zero
          [.addba .ap 0 0 7 64, .rx .ap (.data 0 8)]).1 (.data 0 8)
        + (sentFrames (tableRun .default BaTable.zero
            [.addba .ap 0 0 7 64, .rx .ap (.data 0 8)]).2).count (.data 0 8)
        + (freedFrames (tableRun .default BaTable.zero
            [.addba .ap 0 0 7 64, .rx .ap (.data 0 8)]).2).count (.data 0 8) :=
  (tableRun_frame_in_one_place .default _ (by simp [TableOp.Fits, HostCfg.default])).2.1 _

/-! ## Ended sessions -/

/-- A session is reset and its buffer empty. -/
structure RxBaSession.Ended (cfg : HostCfg) (s : RxBaSession) : Prop where
  bufSize : s.bufSize = 0
  headSeqNum : s.headSeqNum = 0
  storedMpduNum : s.storedMpduNum = 0
  ssn : s.ssn = 0
  empty : ∀ i < cfg.ampduRxBufSize, s.reorderBuf i = none

theorem deleteSession_ended (cfg : HostCfg) (env : Env) (s : RxBaSession) :
    (deleteSession cfg env s).1.Ended cfg := by
  refine ⟨rfl, rfl, rfl, rfl, fun i hi => ?_⟩
  change (flushLoop env cfg.ampduRxBufSize 0 s).1.reorderBuf i = none
  rw [flushLoop_reorderBuf, if_pos ⟨Nat.zero_le i, by omega⟩]

/-- `ieee80211_delete_ampdu_rx` works on the sessions of its station. -/
theorem deleteAmpduRx_apply (cfg : HostCfg) (env : Env) (t : BaTable) (wsid : ℕ) (id : SessionId) :
    (deleteAmpduRx cfg env t wsid).1 id
      = if id.1 = wsid then (deleteSession cfg env (t id)).1 else t id := by
  -- there is a single traffic identifier
  have htids : List.finRange rxAggRxBaMaxSessions = [⟨0, by decide⟩] := by decide
  have htid : id.2 = ⟨0, by decide⟩ := by
    have hmem : id.2 ∈ List.finRange rxAggRxBaMaxSessions := List.mem_finRange id.2
    rwa [htids, List.mem_singleton] at hmem
  unfold deleteAmpduRx
  split
  · next hw =>
    rw [htids]
    by_cases hid : (id.1 : ℕ) = wsid
    · obtain rfl : id = (⟨wsid, hw⟩, ⟨0, by decide⟩) := Prod.ext (Fin.ext hid) htid
      rw [if_pos hid]
      simp [performOne, sessStep]
    · have hne : id ≠ (⟨wsid, hw⟩, ⟨0, by decide⟩) := fun h => hid (congrArg (fun p => p.1.val) h)
      rw [if_neg hid]
      simp [performOne, hne]
  · next hw =>
    rw [if_neg]
    have hlt := id.1.isLt
    omega

section bufSize

variable (env : Env)

@[simp] theorem releaseReorderFramesLoop_bufSize (target fuel : ℕ) (s : RxBaSession) :
    (releaseReorderFramesLoop env target fuel s).1.bufSize = s.bufSize := by
  induction fuel generalizing s with
  | zero => rfl
  | succ fuel ih =>
    rw [releaseReorderFramesLoop]
    split
    · exact (ih _).trans (releaseReorderFrame_bufSize env s _)
    · rfl

theorem timeoutLoop_bufSize (index fuel : ℕ) (s : RxBaSession) (j skipped : ℕ) :
    (timeoutLoop env index fuel s j skipped).1.bufSize = s.bufSize := by
  induction fuel generalizing s j skipped with
  | zero => rfl
  | succ fuel ih =>
    rw [timeoutLoop]
    split_ifs
    · rfl
    · exact ih _ _ _
    · rfl
    · exact (ih _ _ _).trans (releaseReorderFrame_bufSize env s j)

theorem inOrderLoop_bufSize (fuel : ℕ) (s : RxBaSession) :
    (inOrderLoop env fuel s).1.bufSize = s.bufSize := by
  induction fuel generalizing s with
  | zero => rfl
  | succ fuel ih =>
    rw [inOrderLoop]
    dsimp only
    split
    · exact (ih _).trans (releaseReorderFrame_bufSize env s _)
    · rfl

theorem staReorderRelease_bufSize (s : RxBaSession) :
    (staReorderRelease env s).1.bufSize = s.bufSize := by
  unfold staReorderRelease
  dsimp only
  split
  · exact timeoutLoop_bufSize env _ _ s _ _
  · exact inOrderLoop_bufSize env _ s

theorem rxSession_bufSize (s : RxBaSession) (f : RxFrame) :
    (rxSession env s f).1.bufSize = s.bufSize := by
  have hroom : (makeRoom env s f.seqNum).1.bufSize = s.bufSize := by
    unfold makeRoom
    split
    · rfl
    · exact releaseReorderFramesLoop_bufSize env _ _ s
  have hmanage : (staManageReorderBuf env s f).1.bufSize = s.bufSize := by
    unfold staManageReorderBuf
    dsimp only
    split_ifs
    · rfl
    · exact hroom
    · exact hroom
    · exact (staReorderRelease_bufSize env _).trans hroom
  unfold rxSession
  dsimp only
  split_ifs
  · rfl
  · exact hmanage
  · exact hmanage

/-- Only `ieee80211_addba_handler` and `ieee80211_delete_ampdu_rx` change the size of a session. -/
def SessOp.KeepsSize : SessOp → Prop
  | .addba _ _ _ | .delete _ => False
  | _ => True

theorem sessStep_bufSize {cfg : HostCfg} (s : RxBaSession) {op : SessOp} (h : op.KeepsSize) :
    (sessStep cfg s op).1.bufSize = s.bufSize := by
  cases op with
  | frame env f => exact rxSession_bufSize env s f
  | bar env start =>
    change (rxBar env s start).1.bufSize = s.bufSize
    unfold rxBar
    split
    · rfl
    · exact releaseReorderFramesLoop_bufSize env _ _ s
  | timer env =>
    change (timerRelease env s).1.bufSize = s.bufSize
    unfold timerRelease
    split
    · rfl
    · exact staReorderRelease_bufSize env s
  | addba env ssn bufSize => exact h.elim
  | delete env => exact h.elim

theorem perform_bufSize {cfg : HostCfg} {t : BaTable} {ps : List (SessionId × SessOp)}
    (hps : ∀ p ∈ ps, p.2.KeepsSize) (id : SessionId) :
    ((perform cfg t ps).1 id).bufSize = (t id).bufSize := by
  refine Machine.run_induction_of_meets (C := fun _ p => p.2.KeepsSize)
    (P := fun (t' : BaTable) _ _ => (t' id).bufSize = (t id).bufSize) rfl ?_ ps
    (Machine.meets_of_forall hps)
  rintro t' - - ⟨id', op⟩ hop ht
  by_cases hid : id = id'
  · subst hid
    have hstep : (sessStep cfg (t' id) op).1.bufSize = (t' id).bufSize :=
      sessStep_bufSize (t' id) hop
    simpa [performOne, hstep] using ht
  · simpa [performOne, hid] using ht

theorem rxReorderAmpdu_bufSize (cfg : HostCfg) (t : BaTable) (f : RxFrame) (id : SessionId) :
    ((rxReorderAmpdu cfg env t f).1 id).bufSize = (t id).bufSize := by
  unfold rxReorderAmpdu
  split_ifs
  · rfl
  · rfl
  · split
    · rfl
    · exact perform_bufSize (by simp [SessOp.KeepsSize]) id

theorem rxBarFrame_bufSize (cfg : HostCfg) (t : BaTable) (wsid tid start : ℕ) (id : SessionId) :
    ((rxBarFrame cfg env t wsid tid start).1 id).bufSize = (t id).bufSize := by
  unfold rxBarFrame
  split
  · rfl
  · exact perform_bufSize (by simp [SessOp.KeepsSize]) id

theorem timerStaReorderRelease_bufSize (cfg : HostCfg) (envs : SessionId → Env) (t : BaTable)
    (id : SessionId) : ((timerStaReorderRelease cfg envs t).1 id).bufSize = (t id).bufSize := by
  refine perform_bufSize (fun p hp => ?_) id
  simp only [List.mem_flatMap, List.mem_map] at hp
  obtain ⟨_, _, _, _, rfl⟩ := hp
  trivial

end bufSize

end Fullmac.Rx
