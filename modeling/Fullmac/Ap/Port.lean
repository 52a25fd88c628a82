import Fullmac.Ap.Lattice

/-!
# The controlled port

A station that has not finished the key handshake is not authorised, and no data should pass between
it and the network. On the way out that is the business of `ssv6xxx_data_could_be_send`: a frame of
the host for one station goes out, or into the station's queue, only if the station is authorised,
one for all only if anybody is. Every call is remembered in `Driver.tests` with the stations as they
were, so that the law is a property of what is remembered (`TxTest.Lawful`).

A frame that leaves a queue to be sent goes through the same call once more (`Retested`).
-/

namespace Fullmac.Ap

open Table

variable {cfg : ApCfg} {s : ApInfo cfg}

/-! ## Tests -/

/-- What a test of a data frame of the host may have come to. -/
structure TxTest.Lawful (t : TxTest cfg) : Prop where
  unicast : t.frame.isData = true → t.bAPFrame = false → isMulticast t.frame.da = false →
    t.result ≠ .drop → ∃ i, (t.sta i).valid = true ∧ (t.sta i).addr = t.frame.da ∧
      (t.sta i).authorized = true
  group : t.frame.isData = true → t.bAPFrame = false → isMulticast t.frame.da = true →
    t.result ≠ .drop → ∃ i, (t.sta i).authorized = true

/-- The counter of authorised stations is not zero without reason, and all tests were lawful. -/
structure PortInv (s : ApInfo cfg) : Prop where
  counted : s.numStaAuthorized ≠ 0 → ∃ i, (s.sta i).authorized = true
  lawful : ∀ t ∈ s.drv.tests, t.Lawful

theorem findStaByAddr_addr {mac : EtherAddr} {i : StaIdx cfg} (h : findStaByAddr s mac = some i) :
    (s.sta i).addr = mac := by
  have hp := List.find?_some h
  rw [Bool.and_eq_true, beq_iff_eq] at hp
  exact hp.2

/-- A frame gets past its handlers only if `ssv6xxx_data_check_authed` lets it. -/
theorem callTxHandlers_authed
    {psBuf : ApInfo cfg → DespIdx cfg → TxDesp cfg → TxResult × ApInfo cfg} {f : TxFrame}
    {bAPFrame pollFlag : Bool} (h : (callTxHandlers psBuf s f bAPFrame pollFlag).1 ≠ .drop) :
    dataCheckAuthed s (dataPrepareTxData s f bAPFrame pollFlag) = .continue := by
  unfold callTxHandlers at h
  split at h
  · exact absurd rfl h
  · next d _ =>
    dsimp only at h
    split at h
    · next hauthed => exact hauthed
    · next r hne =>
      have hdrop : ∀ t : TxDesp cfg,
          dataCheckAuthed s t = .continue ∨ dataCheckAuthed s t = .drop := by
        intro t
        unfold dataCheckAuthed
        dsimp only
        split_ifs <;> simp
      rcases hdrop (dataPrepareTxData s f bAPFrame pollFlag) with hc | hd
      · exact hc
      · exact absurd hd h

/-- `ssv6xxx_data_check_authed`. -/
theorem lawful_of_counted (h : s.numStaAuthorized ≠ 0 → ∃ i, (s.sta i).authorized = true)
    (psBuf : ApInfo cfg → DespIdx cfg → TxDesp cfg → TxResult × ApInfo cfg) (f : TxFrame)
    (bAPFrame pollFlag : Bool) :
    TxTest.Lawful { frame := f, bAPFrame, sta := s.sta
                    result := (callTxHandlers psBuf s f bAPFrame pollFlag).1 } := by
  constructor
  · intro hdata hap huni hres
    have hauthed := callTxHandlers_authed hres
    dsimp only at hdata hap huni
    unfold dataCheckAuthed dataPrepareTxData at hauthed
    dsimp only at hauthed
    rw [huni, hap, hdata] at hauthed
    cases hfind : findStaByAddr s f.da with
    | none => simp [hfind] at hauthed
    | some i =>
      rw [hfind] at hauthed
      refine ⟨i, findStaByAddr_valid hfind, findStaByAddr_addr hfind, ?_⟩
      simpa using hauthed
  · intro hdata hap hmulti hres
    have hauthed := callTxHandlers_authed hres
    dsimp only at hdata hap hmulti
    unfold dataCheckAuthed dataPrepareTxData at hauthed
    dsimp only at hauthed
    rw [hmulti, hdata] at hauthed
    refine h fun hzero => ?_
    simp [hzero] at hauthed

theorem PortInv.dataCouldBeSend_log (h : PortInv s)
    {psBuf : ApInfo cfg → DespIdx cfg → TxDesp cfg → TxResult × ApInfo cfg} {f : TxFrame}
    {bAPFrame pollFlag : Bool} (hcall : PortInv (callTxHandlers psBuf s f bAPFrame pollFlag).2) :
    PortInv (dataCouldBeSend psBuf s f bAPFrame pollFlag).2 := by
  refine ⟨hcall.counted, fun t ht => ?_⟩
  rcases List.mem_append.mp ht with ht | ht
  · exact hcall.lawful t ht
  · rw [List.mem_singleton.mp ht]
    exact lawful_of_counted h.counted psBuf f bAPFrame pollFlag

/-- What is authorised does not change, and no test is forgotten or added. -/
theorem PortInv.of_eq {s' : ApInfo cfg} (h : PortInv s)
    (hnum : s'.numStaAuthorized = s.numStaAuthorized)
    (hsta : ∀ i, (s'.sta i).authorized = (s.sta i).authorized)
    (htests : s'.drv.tests = s.drv.tests) : PortInv s' := by
  refine ⟨fun hne => ?_, fun t ht => h.lawful t (htests ▸ ht)⟩
  obtain ⟨i, hi⟩ := h.counted (hnum ▸ hne)
  exact ⟨i, (hsta i).trans hi⟩

theorem PortInv.modSta (h : PortInv s) {i : StaIdx cfg} {f : Station cfg → Station cfg}
    (hf : (f (s.sta i)).authorized = (s.sta i).authorized) : PortInv (s.modSta i f) :=
  h.of_eq rfl (apply_update_of_eq Station.authorized hf) rfl

theorem portInv_keptByQueues : KeptByQueues (fun _ => True) (@PortInv cfg) where
  modSta h _ hf := h.modSta (congrArg Station.authorized hf :)
  setTxDesp h _ := ⟨h.counted, h.lawful⟩
  setTotal h _ := ⟨h.counted, h.lawful⟩
  send {s} h f bAPFrame pollFlag := by
    obtain ⟨u, b, he⟩ := callTxHandlers_neverQueued_cases s f bAPFrame pollFlag
    refine h.dataCouldBeSend_log ?_
    rw [he]
    exact ⟨h.counted, h.lawful⟩

theorem PortInv.staInfoRecalcTim (h : PortInv s) (i : StaIdx cfg) :
    PortInv (staInfoRecalcTim s i).2 := by
  unfold Ap.staInfoRecalcTim
  dsimp only
  split
  · exact h
  · exact ⟨h.counted, h.lawful⟩

theorem portInv_keptByTx : KeptByTx (@PortInv cfg) where
  toKeptByQueues := portInv_keptByQueues
  recalcTim h i := h.staInfoRecalcTim i
  deliver h i nFrames ignored reason :=
    portInv_keptByQueues.staPsDeliverResponse (fun hs _ => hs.modSta rfl)
      (fun hs => hs.staInfoRecalcTim i) h trivial nFrames ignored reason
  setAssert h := ⟨h.counted, h.lawful⟩

/-! ## Handlers -/

/-- The table is in order and all tests were lawful. -/
structure PortLaw (s : ApInfo cfg) : Prop where
  table : TableInv s.table
  lawful : ∀ t ∈ s.drv.tests, t.Lawful

theorem PortLaw.portInv (h : PortLaw s) : PortInv s := by
  refine ⟨fun hne => ?_, h.lawful⟩
  by_contra hnone
  push Not at hnone
  refine hne (h.table.numStaAuthorized.trans (count_eq_zero fun i => ?_))
  exact Bool.eq_false_iff.mpr (hnone i)

/-- A part of the transmit path. -/
theorem PortLaw.of_tx {s' : ApInfo cfg} (h : PortLaw s) (htable : s'.table = s.table)
    (hport : PortInv s') : PortLaw s' :=
  ⟨htable ▸ h.table, hport.lawful⟩

/-- An operation that sends nothing. -/
theorem PortLaw.of_tests {s' : ApInfo cfg} (h : PortLaw s) (htable : TableInv s'.table)
    (htests : s'.drv.tests = s.drv.tests) : PortLaw s' :=
  ⟨htable, fun t ht => h.lawful t (htests ▸ ht)⟩

/-! Removing a station sends nothing by itself. -/

theorem apStaSetAuthorized_tests (s : ApInfo cfg) (i : StaIdx cfg) (b : Bool) :
    (apStaSetAuthorized s i b).drv.tests = s.drv.tests := by
  unfold apStaSetAuthorized
  split_ifs <;> rfl

theorem purgeAc_tests (i : StaIdx cfg) (ac : Ac) (n : ℕ) (s : ApInfo cfg) :
    (purgeAc i ac n s).drv.tests = s.drv.tests := by
  induction n generalizing s with
  | zero => rfl
  | succ n ih =>
    unfold purgeAc
    rcases listQDeq_cases s i ac with ⟨_, hd⟩ | ⟨d, q, _, hd⟩ <;> rw [hd]
    exact ih _

theorem drvRemove_tests (s : ApInfo cfg) (i : StaIdx cfg) :
    (drvRemove s i).drv.tests = s.drv.tests := by
  have hpurge : ∀ s : ApInfo cfg, (purgeStaPsBuffers s i).drv.tests = s.drv.tests := fun s =>
    List.foldlRecOn (motive := fun s' : ApInfo cfg => s'.drv.tests = s.drv.tests) _ _ rfl
      fun s' hs ac _ => (purgeAc_tests i ac _ s').trans hs
  have htim : ∀ s : ApInfo cfg, (recalcTimGenBeacon s i).drv = s.drv := by
    intro s
    unfold recalcTimGenBeacon staInfoRecalcTim
    dsimp only
    split <;> rfl
  have hps : (drvRemovePs s i).drv.tests = s.drv.tests := by
    unfold drvRemovePs
    split
    · extract_lets s₁ s₂
      have h₂ : s₂.drv.tests = s.drv.tests := hpurge _
      clear_value s₂
      rw [htim]
      exact h₂
    · rfl
  have hoper : (apSocCmdStaOper (drvRemovePs s i) i false).drv.tests
      = (drvRemovePs s i).drv.tests := by
    unfold apSocCmdStaOper
    dsimp only
    split <;> rfl
  exact hoper.trans hps

theorem apStaInfoFree_tests (s : ApInfo cfg) (i : StaIdx cfg) :
    (apStaInfoFree s i).drv.tests = s.drv.tests := by
  unfold apStaInfoFree
  split
  · rfl
  · extract_lets s₁ s₂ s₃ s₄
    have h₁ : s₁.drv.tests = s.drv.tests := by
      dsimp only [s₁]
      unfold endSessions
      split <;> rfl
    have h₂ : s₂.drv.tests = s₁.drv.tests := by
      dsimp only [s₂]
      rw [drvRemove_tests, apStaSetAuthorized_tests]
    have h₃ : s₃.drv.tests = s₂.drv.tests := by
      dsimp only [s₃]
      unfold decNumSta releaseAid
      split_ifs <;> rfl
    have h₄ : s₄.drv.tests = s₃.drv.tests := by
      refine List.foldlRecOn (motive := fun s' : ApInfo cfg => s'.drv.tests = s₃.drv.tests) _ _ rfl
        fun s' hs c _ => ?_
      unfold clearCounted
      split
      · exact hs
      · exact hs
    exact h₄.trans (h₃.trans (h₂.trans h₁))

theorem tryAssoc_tests (s : ApInfo cfg) (i : StaIdx cfg) (r : AssocReq) :
    (tryAssoc s i r).2.drv.tests = s.drv.tests := by
  rcases tryAssoc_cases s i r with ⟨-, he | he⟩ | ⟨s', hget, he⟩ <;> rw [he]
  · rfl
  · have haid : s'.drv.tests = s.drv.tests := by
      unfold hostapdGetAid at hget
      split at hget
      · cases hget; rfl
      · split at hget
        · cases hget
        · cases hget; rfl
    have hrecord : (recordAssoc s' i r).drv.tests = s.drv.tests :=
      recordAssoc_rule (P := fun s' => s'.drv.tests = s.drv.tests)
        (Q := fun s' => s'.drv.tests = s.drv.tests) (fun hs _ _ => hs)
        (fun {s'} hs c => by
          unfold setCounted
          split
          · exact hs
          · exact hs)
        (fun hs => hs) (fun {s'} hs => (apStaSetAuthorized_tests s' i true).trans hs)
        (fun hs => hs) haid r
    unfold apSocCmdStaOper
    dsimp only
    split
    · exact hrecord
    · exact hrecord

theorem portLaw_keptByRemoval : KeptByRemoval (@PortLaw cfg) where
  modSta h hv hf := h.of_tests (tableInv_keptByRemoval.modSta h.table hv hf) rfl
  setTimeout h i t := h.of_tests (tableInv_keptByRemoval.setTimeout h.table i t) rfl
  setDrv h hd := h.of_tests h.table hd
  clearAssoc h ha := h.of_tests (tableInv_keptByRemoval.clearAssoc h.table ha) rfl
  clearAuth h ha := h.of_tests (tableInv_keptByRemoval.clearAuth h.table ha) rfl
  sendMgmtFrame h da :=
    h.of_tx (table_of_ctl (sendMgmtFrame_ctl _ da)) (portInv_keptByTx.send h.portInv _ _ _)
  withdraw h i :=
    h.of_tests (tableInv_keptByRemoval.withdraw h.table i) (apStaSetAuthorized_tests _ i false)
  drvRemove h i := h.of_tests (tableInv_keptByRemoval.drvRemove h.table i) (drvRemove_tests _ i)
  apStaInfoFree h i :=
    h.of_tests (tableInv_keptByRemoval.apStaInfoFree h.table i) (apStaInfoFree_tests _ i)

theorem PortLaw.apStaInfoAdd (h : PortLaw s) (addr : EtherAddr) :
    PortLaw (apStaInfoAdd s addr).2 := by
  have htable := h.table.apStaInfoAdd addr
  have hevict := portLaw_keptByRemoval.evictSilent h
  rcases apStaInfoAdd_cases s addr with ⟨i, -, he⟩ | ⟨-, -, he⟩ | ⟨i, -, hi, he⟩ <;>
    rw [he] at htable ⊢
  · exact h
  · exact hevict
  · exact hevict.of_tests htable rfl

theorem PortLaw.apStaPsEnd (h : PortLaw s) {i : StaIdx cfg} (hi : (s.sta i).psSta = true) :
    PortLaw (apStaPsEnd s i) := by
  refine ⟨tableInv_kept.apStaPsEnd h.table hi, ?_⟩
  unfold Ap.apStaPsEnd
  split
  · unfold staPsDeliverWakeup
    extract_lets r s₁ s₂
    have hr : PortInv r.1 :=
      List.foldlRecOn (motive := fun r : ApInfo cfg × ℕ => PortInv r.1) _ _
        ⟨h.portInv.counted, h.lawful⟩ fun _ hs ac _ => portInv_keptByTx.wakeupAc trivial ac _ hs
    clear_value r
    have h₁ : PortInv s₁ := hr.modSta rfl
    have h₂ : PortInv s₂ := (portInv_keptByTx.subTotal h₁ r.2).modSta rfl
    exact (h₂.staInfoRecalcTim i).lawful
  · exact h.lawful

/-- Every operation keeps the law. -/
theorem portLaw_kept : Kept (fun _ => True) (@PortLaw cfg) where
  toKeptByRemoval := portLaw_keptByRemoval
  grant h hv hg :=
    h.of_tests (tableInv_kept.grant h.table hv hg) (apStaSetAuthorized_tests _ _ true)
  apStaInfoAdd h addr := h.apStaInfoAdd addr
  authenticate h hv r := h.of_tests (tableInv_kept.authenticate h.table hv r) rfl
  tryAssoc h hv ha r := h.of_tests (tableInv_kept.tryAssoc h.table hv ha r) (tryAssoc_tests _ _ r)
  apStaPsStart h hp hv := h.of_tests (tableInv_kept.apStaPsStart h.table hp hv) rfl
  apStaPsEnd h hp := h.apStaPsEnd hp
  recalcTimGenBeacon h i :=
    h.of_tx (table_of_ctl (recalcTimGenBeacon_ctl _ i)) (h.portInv.staInfoRecalcTim i)
  staPsDeliverPollResponse h i :=
    h.of_tx (table_of_ctl (staPsDeliverPollResponse_ctl _ i))
      (portInv_keptByTx.deliver h.portInv i _ _ _)
  staPsDeliverUapsd h i :=
    h.of_tx (table_of_ctl (staPsDeliverUapsd_ctl _ i))
      (portInv_keptByTx.staPsDeliverUapsd h.portInv i)
  dataCouldBeSend h now f bAPFrame pollFlag :=
    h.of_tx (table_of_ctl (dataCouldBeSend_ctl now _ f bAPFrame pollFlag))
      (h.portInv.dataCouldBeSend_log
        (portInv_keptByTx.callTxHandlers h.portInv now f bAPFrame pollFlag))
  staInfoCleanup h now :=
    h.of_tx (table_of_ctl (staInfoCleanup_ctl now _))
      (portInv_keptByTx.staInfoCleanup h.portInv now)

/-! ## Frames that leave a queue -/

/-- The frame of a descriptor, with the mark of a buffered one. -/
def bufferedFrame (s : ApInfo cfg) (d : DespIdx cfg) : Option TxFrame :=
  (s.txDesp d).map fun t => { t.frame with psFrame := true }

/-- The tests of frames that are not the access point's own. -/
def ApInfo.hostTests (s : ApInfo cfg) : List (TxTest cfg) := s.drv.tests.filter fun t => !t.bAPFrame

/-- Between two states the frames of these descriptors have been tested, in their order and no
others, each with the stations as they are. -/
def Retested (ds : List (DespIdx cfg)) (s s' : ApInfo cfg) : Prop :=
  ∃ ts : List (TxTest cfg), s'.hostTests = s.hostTests ++ ts ∧
    ts.map (fun t => some t.frame) = ds.map (bufferedFrame s) ∧
    ∀ t ∈ ts, ∀ i, (t.sta i).ctl = (s.sta i).ctl

/-- Every frame that has left a queue between two states has been tested, and the others are as they
were. -/
def ReleasedTested (s s' : ApInfo cfg) : Prop :=
  ∃ ds : List (DespIdx cfg), (ds : Multiset (DespIdx cfg)) + s'.ps.queued = s.ps.queued ∧
    Retested ds s s' ∧ ∀ d ∈ s'.ps.queued, s'.txDesp d = s.txDesp d

/-- Nothing has been tested. -/
theorem Retested.nil {s s' : ApInfo cfg} (h : s'.hostTests = s.hostTests) : Retested [] s s' :=
  ⟨[], by rw [h, List.append_nil], rfl, nofun⟩

theorem Retested.append {ds ds' : List (DespIdx cfg)} {s s' s'' : ApInfo cfg}
    (h : Retested ds s s') (h' : Retested ds' s' s'') (hctl : ∀ i, (s'.sta i).ctl = (s.sta i).ctl)
    (hdesp : ∀ d ∈ ds', s'.txDesp d = s.txDesp d) : Retested (ds ++ ds') s s'' := by
  obtain ⟨ts, htests, hframes, hts⟩ := h
  obtain ⟨ts', htests', hframes', hts'⟩ := h'
  refine ⟨ts ++ ts', by rw [htests', htests, List.append_assoc], ?_, fun t ht i => ?_⟩
  · rw [List.map_append, List.map_append, hframes, hframes']
    refine congrArg _ (List.map_congr_left fun d hd => ?_)
    rw [bufferedFrame, bufferedFrame, hdesp d hd]
  · rcases List.mem_append.mp ht with ht | ht
    · exact hts t ht i
    · exact (hts' t ht i).trans (hctl i)

/-- What follows tests nothing. -/
theorem Retested.trans_nil {ds : List (DespIdx cfg)} {s s' s'' : ApInfo cfg}
    (h : Retested ds s s') (htests : s''.hostTests = s'.hostTests) : Retested ds s s'' := by
  obtain ⟨ts, hts⟩ := h
  exact ⟨ts, htests ▸ hts⟩

theorem ReleasedTested.refl (s : ApInfo cfg) : ReleasedTested s s :=
  ⟨[], zero_add _, .nil rfl, fun _ _ => rfl⟩

/-- One release after another. -/
theorem ReleasedTested.trans {s s' s'' : ApInfo cfg} (h : ReleasedTested s s')
    (h' : ReleasedTested s' s'') (hctl : ∀ i, (s'.sta i).ctl = (s.sta i).ctl) :
    ReleasedTested s s'' := by
  obtain ⟨ds, hqueued, htested, hrest⟩ := h
  obtain ⟨ds', hqueued', htested', hrest'⟩ := h'
  refine ⟨ds ++ ds', ?_, htested.append htested' hctl fun d hd => hrest d ?_, fun d hd => ?_⟩
  · rw [← Multiset.coe_add, add_assoc, hqueued', hqueued]
  · rw [← hqueued']
    exact Multiset.mem_add.mpr (.inl (Multiset.mem_coe.mpr hd))
  · refine (hrest' d hd).trans (hrest d ?_)
    rw [← hqueued']
    exact Multiset.mem_add.mpr (.inr hd)

variable {A : StaIdx cfg → Ac → Prop} {H : Multiset (DespIdx cfg)} {k : ℕ}

/-- A descriptor is in one queue, or in hand, once. -/
theorem Ledger.nodup {v : PsView cfg} (h : Ledger A H k v) : (v.queued + H).Nodup := by
  rw [h.owned, inUse_eq_val]
  exact Finset.nodup _

/-- A descriptor in hand has a frame. -/
theorem Ledger.txDesp_some (h : Ledger A H k s.ps) {d : DespIdx cfg} (hd : d ∈ H) :
    ∃ t, s.txDesp d = some t := by
  have hin : d ∈ s.ps.inUse := by
    rw [← h.owned]
    exact Multiset.mem_add.mpr (.inr hd)
  exact Option.isSome_iff_exists.mp ((mem_inUse s.ps d).mp hin)

/-- `ap_send_buffered_frame` tests the frame and gives back its descriptor. -/
theorem Ledger.apSendBufferedFrame_eq (h : Ledger A H k s.ps) {d : DespIdx cfg} (hd : d ∈ H) :
    ∃ t : TxTest cfg, some t.frame = bufferedFrame s d ∧ t.bAPFrame = false ∧ t.sta = s.sta ∧
      Ap.apSendBufferedFrame s d = (Ap.apReleaseTxDesp s d).logTest t := by
  obtain ⟨t, ht⟩ := h.txDesp_some hd
  obtain ⟨e, hget, he⟩ := h.exists_free
  have hcall := callTxHandlers_neverQueued hget he { t.frame with psFrame := true } false false
  refine ⟨{ frame := { t.frame with psFrame := true }, bAPFrame := false, sta := s.sta, result :=
    (callTxHandlers neverQueued s { t.frame with psFrame := true } false false).1 }, ?_, rfl, rfl,
    ?_⟩
  · rw [bufferedFrame, ht]
    rfl
  · unfold Ap.apSendBufferedFrame Ap.dataCouldBeSend
    simp only [ht, hcall]
    rfl

theorem Ledger.apSendBufferedFrame_retested (h : Ledger A H k s.ps) {d : DespIdx cfg}
    (hd : d ∈ H) : Retested [d] s (Ap.apSendBufferedFrame s d) := by
  obtain ⟨t, hframe, hap, hsta, he⟩ := h.apSendBufferedFrame_eq hd
  rw [he]
  refine ⟨[t], ?_, ?_, fun t' ht' i => ?_⟩
  · simp only [ApInfo.hostTests, ApInfo.logTest, Ap.apReleaseTxDesp, List.filter_append]
    simp [hap]
  · rw [List.map_singleton, hframe, List.map_singleton]
  · rw [List.mem_singleton.mp ht', hsta]

/-- The other descriptors and all stations stay as they are. -/
theorem Ledger.apSendBufferedFrame_txDesp (h : Ledger A H k s.ps) {d e : DespIdx cfg} (hd : d ∈ H)
    (he : e ≠ d) : (Ap.apSendBufferedFrame s d).txDesp e = s.txDesp e := by
  obtain ⟨t, -, -, -, hs⟩ := h.apSendBufferedFrame_eq hd
  rw [hs]
  exact Function.update_of_ne he _ _

theorem Ledger.apSendBufferedFrame_sta (h : Ledger A H k s.ps) {d : DespIdx cfg} (hd : d ∈ H) :
    (Ap.apSendBufferedFrame s d).sta = s.sta := by
  obtain ⟨t, -, -, -, hs⟩ := h.apSendBufferedFrame_eq hd
  rw [hs]
  rfl

/-! ### Polls and service periods -/

theorem queued_congr {s' : ApInfo cfg} (h : ∀ j, (s'.sta j).psTxBuf = (s.sta j).psTxBuf) :
    s'.ps.queued = s.ps.queued :=
  total_congr fun j => congrArg (total fun _ q => Multiset.ofList q) (h j)

theorem inUse_congr {s' : ApInfo cfg} (h : ∀ d, s'.txDesp d = s.txDesp d) :
    s'.ps.inUse = s.ps.inUse := by
  have hview : s'.ps.txDesp = s.ps.txDesp := funext fun d => congrArg Option.isSome (h d)
  rw [PsView.inUse, PsView.inUse, hview]

/-- The frames that were collected are tested one after another. -/
theorem Ledger.deliverFrames_retested (i : StaIdx cfg) (reason : ReleaseType)
    (l : List (DespIdx cfg)) (h : Ledger A (l + H) k s.ps) :
    Retested l s (l.foldl (Ap.deliverFrame i reason) s) ∧
      (l.foldl (Ap.deliverFrame i reason) s).ps.queued = s.ps.queued ∧
      ∀ e ∉ l, (l.foldl (Ap.deliverFrame i reason) s).txDesp e = s.txDesp e := by
  induction l generalizing s with
  | nil => exact ⟨.nil rfl, rfl, fun _ _ => rfl⟩
  | cons d l ih =>
    rw [← Multiset.cons_coe, Multiset.cons_add] at h
    have hd : d ∈ d ::ₘ (l + H) := Multiset.mem_cons_self d _
    have hfirst : Retested [d] s (Ap.deliverFrame i reason s d) :=
      (h.apSendBufferedFrame_retested hd).trans_nil rfl
    have hctl : (Ap.deliverFrame i reason s d).ctl = s.ctl :=
      (ctl_keptByQueues s).deliverFrames rfl trivial reason [d]
    have hqueued : (Ap.deliverFrame i reason s d).ps.queued = s.ps.queued := by
      refine queued_congr fun j => (modSta_apply_of_eq Station.psTxBuf (by rfl) j).trans ?_
      rw [h.apSendBufferedFrame_sta hd]
    obtain ⟨hrest, hqueued', hothers⟩ := ih (Ledger.deliverFrame i reason h)
    refine ⟨hfirst.append hrest (fun j => ?_) fun e he => ?_, hqueued'.trans hqueued,
      fun e he => ?_⟩
    · exact congrFun (congrArg ApInfo.sta hctl) j
    · refine h.apSendBufferedFrame_txDesp hd ?_
      rintro rfl
      have hnodup := Multiset.nodup_of_le (Multiset.le_add_left _ _) h.nodup
      exact (Multiset.nodup_cons.mp hnodup).1 (Multiset.mem_add.mpr (.inl he))
    · rw [List.mem_cons, not_or] at he
      exact (hothers e he.2).trans (h.apSendBufferedFrame_txDesp hd he.1)

/-- Collecting frames neither tests them nor touches the descriptors. -/
theorem collectFrames_same (i : StaIdx cfg) (ignored : ℕ) (acs : List Ac) (n : ℕ) :
    (collectFrames i ignored acs n s).2.txDesp = s.txDesp ∧
      (collectFrames i ignored acs n s).2.drv = s.drv := by
  have htake : ∀ (s : ApInfo cfg) ac n, (takeFrames i ac n s).2.txDesp = s.txDesp ∧
      (takeFrames i ac n s).2.drv = s.drv := by
    intro s ac n
    induction n generalizing s with
    | zero => exact ⟨rfl, rfl⟩
    | succ n ih =>
      unfold takeFrames
      rcases listQDeq_cases s i ac with ⟨_, hd⟩ | ⟨d, q, _, hd⟩ <;> rw [hd]
      · exact ⟨rfl, rfl⟩
      · exact ih _
  induction acs generalizing n s with
  | nil => exact ⟨rfl, rfl⟩
  | cons ac acs ih =>
    unfold collectFrames
    dsimp only
    split_ifs
    · exact ih n
    · obtain ⟨hdesp, hdrv⟩ := ih (s := (takeFrames i ac n s).2) (n - (takeFrames i ac n s).1.length)
      exact ⟨hdesp.trans (htake s ac n).1, hdrv.trans (htake s ac n).2⟩
    · exact htake s ac n

theorem Ledger.sendNullResponse_hostTests (h : Ledger A H k s.ps) (i : StaIdx cfg) :
    (Ap.sendNullResponse s i).hostTests = s.hostTests := by
  obtain ⟨d, hget, hd⟩ := h.exists_free
  have hcall := callTxHandlers_neverQueued hget hd
    { da := (s.sta i).addr, isData := true, priority := noQosPriority, psFrame := false } true true
  unfold Ap.sendNullResponse Ap.dataCouldBeSend
  simp only [ApInfo.hostTests, ApInfo.logTest, hcall, List.filter_append]
  simp

theorem Ledger.sendNullResponse_txDesp (h : Ledger A H k s.ps) (i : StaIdx cfg) :
    (Ap.sendNullResponse s i).txDesp = s.txDesp := by
  obtain ⟨t, ht⟩ := h.dataCouldBeSend_neverQueued
    { da := (s.sta i).addr, isData := true, priority := noQosPriority, psFrame := false } true true
  unfold Ap.sendNullResponse
  dsimp only
  rw [ht]
  rfl

theorem recalcTimGenBeacon_txDesp (s : ApInfo cfg) (i : StaIdx cfg) :
    (recalcTimGenBeacon s i).txDesp = s.txDesp := by
  unfold recalcTimGenBeacon staInfoRecalcTim
  dsimp only
  split <;> rfl

theorem recalcTimGenBeacon_hostTests (s : ApInfo cfg) (i : StaIdx cfg) :
    (recalcTimGenBeacon s i).hostTests = s.hostTests := by
  unfold recalcTimGenBeacon staInfoRecalcTim
  dsimp only
  split <;> rfl

/-- A poll or a service period: what leaves the queues is tested. -/
theorem Ledger.staPsDeliverResponse_released (h : Ledger A 0 k s.ps) (i : StaIdx cfg)
    (nFrames ignored : ℕ) (reason : ReleaseType) :
    ReleasedTested s (Ap.staPsDeliverResponse s i nFrames ignored reason) := by
  unfold Ap.staPsDeliverResponse
  extract_lets s₁ r s₂ s₃
  have h₁ : Ledger A 0 k s₁.ps ∧ s₁.ps.queued = s.ps.queued ∧ s₁.txDesp = s.txDesp ∧
      s₁.drv = s.drv ∧ s₁.ctl = s.ctl := by
    dsimp only [s₁]
    split
    · refine ⟨h.modSta rfl, queued_congr (modSta_apply_of_eq Station.psTxBuf (by rfl)), rfl, rfl,
        ?_⟩
      exact ctl_modSta_of_eq rfl
    · exact ⟨h, rfl, rfl, rfl, rfl⟩
  obtain ⟨hl₁, hqueued₁, hdesp₁, hdrv₁, hctl₁⟩ := h₁
  obtain ⟨hdesp₂, hdrv₂⟩ := collectFrames_same (s := s₁) i ignored (List.finRange 4) nFrames
  have hctl₂ : s₂.ctl = s₁.ctl :=
    (ctl_keptByQueues s₁).collectFrames rfl trivial ignored (List.finRange 4) nFrames
  have hl₂ : Ledger A (r.1 + 0) k s₂.ps := hl₁.collectFrames i ignored (List.finRange 4) nFrames
  have hqueued₂ : (r.1 : Multiset (DespIdx cfg)) + s₂.ps.queued = s.ps.queued := by
    have hin : s₂.ps.inUse = s₁.ps.inUse := inUse_congr fun d => congrFun hdesp₂ d
    have howned := hl₂.owned
    rw [hin, ← hl₁.owned, add_zero, add_zero, hqueued₁, add_comm] at howned
    exact howned
  have htests₂ : s₂.hostTests = s.hostTests := by
    have hdrv : s₂.drv = s.drv := hdrv₂.trans hdrv₁
    rw [ApInfo.hostTests, ApInfo.hostTests, hdrv]
  have h₃ : Retested r.1 s₂ s₃ ∧ s₃.ps.queued = s₂.ps.queued ∧
      ∀ e ∉ r.1, s₃.txDesp e = s₂.txDesp e := by
    dsimp only [s₃]
    split_ifs with hnone
    · rw [hnone]
      exact ⟨.nil (hl₂.sendNullResponse_hostTests i),
        congrArg PsView.queued (hl₂.sendNullResponse_ps i),
        fun e _ => congrFun (hl₂.sendNullResponse_txDesp i) e⟩
    · rw [hnone]
      exact ⟨.nil rfl, rfl, fun _ _ => rfl⟩
    · exact hl₂.deliverFrames_retested i reason r.1
  obtain ⟨htested, hqueued₃, hothers⟩ := h₃
  have hqueued₄ : ((recalcTimGenBeacon s₃ i).modSta i fun st => { st with sp := false }).ps.queued
      = s₂.ps.queued := by
    rw [← hqueued₃]
    refine queued_congr fun j => (modSta_apply_of_eq Station.psTxBuf (by rfl) j).trans ?_
    rw [recalcTimGenBeacon, staInfoRecalcTim_sta]
  refine ⟨r.1, by rw [hqueued₄, hqueued₂], ?_, fun d hd => ?_⟩
  · have hcollect : Retested [] s s₂ := .nil htests₂
    have hsent := hcollect.append htested
      (fun j => congrFun (congrArg ApInfo.sta (hctl₂.trans hctl₁)) j)
      fun d _ => congrFun (hdesp₂.trans hdesp₁) d
    exact hsent.trans_nil (recalcTimGenBeacon_hostTests s₃ i)
  · rw [hqueued₄] at hd
    have hnotin : d ∉ r.1 := fun hmem =>
      Multiset.disjoint_left.mp (Multiset.nodup_add.mp hl₂.nodup).2.2 hd
        (Multiset.mem_add.mpr (.inl hmem))
    calc (recalcTimGenBeacon s₃ i).txDesp d = s₃.txDesp d := by rw [recalcTimGenBeacon_txDesp]
      _ = s₂.txDesp d := hothers d hnotin
      _ = s.txDesp d := congrFun (hdesp₂.trans hdesp₁) d

/-! ### Waking up -/

theorem Ledger.wakeupAc_released (i : StaIdx cfg) (ac : Ac) (n : ℕ) {r : ApInfo cfg × ℕ}
    (h : Ledger A 0 r.2 r.1.ps) : ReleasedTested r.1 (Ap.wakeupAc i ac n r).1 := by
  induction n generalizing r with
  | zero => exact .refl r.1
  | succ n ih =>
    rcases listQDeq_cases r.1 i ac with ⟨hq, hd⟩ | ⟨d, q, hq, hd⟩
    · have hstep : Ap.wakeupAc i ac (n + 1) r = r := by simp only [Ap.wakeupAc, hd]
      rw [hstep]
      exact .refl r.1
    · have hstep : Ap.wakeupAc i ac (n + 1) r
          = Ap.wakeupAc i ac n (Ap.apSendBufferedFrame (setQueue r.1 i ac q) d, r.2 + 1) := by
        simp only [Ap.wakeupAc, hd]
      have hdeq := h.deq hq
      have hmem : d ∈ d ::ₘ (0 : Multiset (DespIdx cfg)) := Multiset.mem_cons_self d 0
      have hsta := hdeq.apSendBufferedFrame_sta hmem
      have hps := hdeq.apSendBufferedFrame_ps d
      have hqueued : (Ap.apSendBufferedFrame (setQueue r.1 i ac q) d).ps.queued
          = (setQueue r.1 i ac q).ps.queued := queued_congr fun j => by rw [hsta]
      have hfirst : ReleasedTested r.1 (Ap.apSendBufferedFrame (setQueue r.1 i ac q) d) := by
        refine ⟨[d], ?_, ?_, fun e he => ?_⟩
        · have hset := setQueue_queued r.1 i ac q
          rw [hq, ← Multiset.cons_coe, Multiset.add_cons, ← Multiset.cons_add] at hset
          rw [hqueued, Multiset.coe_singleton, Multiset.singleton_add]
          exact add_right_cancel hset
        · have htake : Retested [] r.1 (setQueue r.1 i ac q) := .nil rfl
          exact htake.append (hdeq.apSendBufferedFrame_retested hmem)
            (modSta_apply_of_eq Station.ctl (by rfl)) fun _ _ => rfl
        · refine hdeq.apSendBufferedFrame_txDesp hmem ?_
          rintro rfl
          rw [hqueued] at he
          have hnodup := hdeq.nodup
          rw [Multiset.add_cons, add_zero, Multiset.nodup_cons] at hnodup
          exact hnodup.1 he
      have hnext : Ledger A 0 (r.2 + 1) (Ap.apSendBufferedFrame (setQueue r.1 i ac q) d).ps := by
        rw [hps]
        exact hdeq.apReleaseTxDesp
      rw [hstep]
      refine hfirst.trans (ih (r := (_, _)) hnext) fun j => ?_
      rw [hsta]
      exact modSta_apply_of_eq Station.ctl (by rfl) j

/-- The queues of a station in turn. -/
theorem Ledger.wakeup_foldl_released (i : StaIdx cfg) (acs : List Ac) {r : ApInfo cfg × ℕ}
    (h : Ledger A 0 r.2 r.1.ps) :
    ReleasedTested r.1
      (acs.foldl (fun r ac => Ap.wakeupAc i ac ((r.1.sta i).psTxBuf ac).length r) r).1 := by
  induction acs generalizing r with
  | nil => exact .refl r.1
  | cons ac acs ih =>
    have hnext := (h.wakeupAc i ac _ rfl).1
    have hctl : (Ap.wakeupAc i ac ((r.1.sta i).psTxBuf ac).length r).1.ctl = r.1.ctl :=
      (ctl_keptByQueues r.1).wakeupAc trivial ac _ rfl
    exact (h.wakeupAc_released i ac _).trans (ih hnext)
      fun j => congrFun (congrArg ApInfo.sta hctl) j

/-- `sta_ps_deliver_wakeup`: what leaves the queues is tested. -/
theorem Ledger.staPsDeliverWakeup_released (h : Ledger A 0 0 s.ps) (i : StaIdx cfg) :
    ReleasedTested s (Ap.staPsDeliverWakeup s i) := by
  unfold Ap.staPsDeliverWakeup
  extract_lets r s₁ s₂
  have hloop : ReleasedTested s r.1 :=
    Ledger.wakeup_foldl_released i (List.finRange 4) (r := (s, 0)) h
  clear_value r
  obtain ⟨ds, hqueued, htested, hrest⟩ := hloop
  have hqueued₂ : (recalcTimGenBeacon s₂ i).ps.queued = r.1.ps.queued := by
    refine queued_congr fun j => ?_
    rw [recalcTimGenBeacon, staInfoRecalcTim_sta]
    have h₂ : (s₂.sta j).psTxBuf = (s₁.sta j).psTxBuf :=
      modSta_apply_of_eq Station.psTxBuf rfl j
    exact h₂.trans (modSta_apply_of_eq Station.psTxBuf rfl j)
  refine ⟨ds, by rw [hqueued₂]; exact hqueued, ?_, fun d hd => ?_⟩
  · exact htested.trans_nil (recalcTimGenBeacon_hostTests s₂ i)
  · rw [hqueued₂] at hd
    rw [recalcTimGenBeacon_txDesp]
    exact hrest d hd

/-! ### Queueing -/

/-- The second half releases at most one frame, to the firmware. -/
theorem Ledger.queueFrame_released {d : DespIdx cfg} (h : Ledger A {d} 0 s.ps)
    (hA : ∀ i ac, A i ac → (s.sta i).valid = true) {i : StaIdx cfg} {ac : Ac} (hi : A i ac)
    (now : ℕ) (t : TxDesp cfg) :
    ReleasedTested (Ap.putFrame now s i ac d t) (Ap.queueFrame now s i ac d t) := by
  have hput := h.putFrame hA hi now t
  rw [queueFrame_eq]
  generalize Ap.putFrame now s i ac d t = s' at hput
  have htim : ReleasedTested s' (staInfoRecalcTim s' i).2 := by
    refine ⟨[], ?_, .nil (recalcTimGenBeacon_hostTests s' i), fun e _ => ?_⟩
    · rw [staInfoRecalcTim_ps]
      exact zero_add _
    · exact congrFun (recalcTimGenBeacon_txDesp s' i) e
  have hnext : Ledger A 0 0 (staInfoRecalcTim s' i).2.ps := by
    rw [staInfoRecalcTim_ps]
    exact hput
  split_ifs
  · exact .refl s'
  · exact htim.trans (hnext.staPsDeliverResponse_released i _ _ _)
      fun j => by rw [staInfoRecalcTim_sta]
  · exact htim

/-- The controlled port for frames to stations: every test was lawful, and a frame that leaves a
queue is tested, whether the station polls for it, starts a service period or wakes up, or the frame
before it has just been queued. The functions that release frames start from the state between two
events, up to what does not concern the queues. -/
structure ControlledPort (s : ApInfo cfg) : Prop where
  lawful : ∀ t ∈ s.drv.tests, t.Lawful
  deliver : ∀ (s' : ApInfo cfg) n, s'.ps = { s.ps with numStaPs := n } →
    ∀ i nFrames ignored reason,
      ReleasedTested s' (staPsDeliverResponse s' i nFrames ignored reason)
  wakeup : ∀ (s' : ApInfo cfg) n, s'.ps = { s.ps with numStaPs := n } →
    ∀ i, ReleasedTested s' (staPsDeliverWakeup s' i)
  queue : ∀ d, s.txDesp d = none → ∀ i, (s.sta i).valid = true → ∀ now ac t,
    let s' := { s with txDesp := Function.update s.txDesp d (some t) }
    ReleasedTested (putFrame now s' i ac d t) (queueFrame now s' i ac d t)

/-- On the way out no frame gets past the controlled port. -/
theorem apRun_controlled_port (cfg : ApCfg) (es : List (ApEvent cfg)) :
    ControlledPort (Machine.run apStep (initAp cfg) es).1 := by
  have hps := psInv_kept.run psInv_initAp es
  have hlaw := portLaw_kept.run ⟨tableInv_initAp, nofun⟩ es
  generalize (Machine.run apStep (initAp cfg) es).1 = s at hps hlaw
  have hset : ∀ {s' : ApInfo cfg} {n}, s'.ps = { s.ps with numStaPs := n } →
      Ledger (Asleep s) 0 0 s'.ps := by
    intro s' n he
    rw [he]
    exact hps.ledger.setNumStaPs n
  refine ⟨hlaw.lawful, fun s' n he i nFrames ignored reason => ?_, fun s' n he i => ?_,
    fun d hd i hi now ac t => ?_⟩
  · exact (hset he).staPsDeliverResponse_released i nFrames ignored reason
  · exact (hset he).staPsDeliverWakeup_released i
  · have hvalid : Ledger (fun i _ => (s.sta i).valid = true) 0 0 s.ps :=
      hps.ledger.mono fun i _ _ => hps.valid i
    exact (hvalid.apGetTxDesp hd t).queueFrame_released (fun _ _ h => h) hi now t

end Fullmac.Ap
