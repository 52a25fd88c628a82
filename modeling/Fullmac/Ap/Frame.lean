import Fullmac.Lib.Table
import Fullmac.Ap.Mlme

/-!
# What an operation leaves alone

Three views of the access point's state. `ApInfo.ctl` is the state without what the buffering of
frames works on. `ApInfo.table` is the part of it that the table of stations is about: who is there,
awake or asleep, with which AID and which counted bits, and the counters. `ApInfo.ps` is what
buffering is about: the queues, the descriptors, who may have frames.

Moving frames between queues and descriptors changes nothing of `ctl`, so every loop of the transmit
path is a rewrite away from it; recording what a request says changes nothing of `ps`. The few
operations that change both have their effect on `ctl` spelled out (`drvRemove_ctl`,
`apStaPsStart_ctl`, `apStaPsEnd_ctl`).
-/

namespace Fullmac.Ap

variable {cfg : ApCfg}

/-! ## Views -/

/-- What the table says of a station. -/
structure StaEntry where
  valid : Bool
  assoc : Bool
  authorized : Bool
  psSta : Bool
  counted : Counted → Bool
  aid : ℕ
  addr : EtherAddr

def Station.entry (st : Station cfg) : StaEntry where
  valid := st.valid
  assoc := st.assoc
  authorized := st.authorized
  psSta := st.psSta
  counted := st.counted
  aid := st.aid
  addr := st.addr

/-- The stations and what is counted of them. -/
structure StaTable (cfg : ApCfg) where
  sta : StaIdx cfg → StaEntry
  numSta : ℕ
  numStaPs : ℕ
  numStaAuthorized : ℕ
  num : Counted → ℕ
  staAid : ℕ → Bool
  underflow : Bool

def ApInfo.table (s : ApInfo cfg) : StaTable cfg where
  sta := fun i => (s.sta i).entry
  numSta := s.numSta
  numStaPs := s.numStaPs
  numStaAuthorized := s.numStaAuthorized
  num := s.num
  staAid := s.staAid
  underflow := s.underflow

/-- What buffering is about in a station. -/
structure PsEntry (cfg : ApCfg) where
  valid : Bool
  psSta : Bool
  psTxBuf : Ac → List (DespIdx cfg)

def Station.psEntry (st : Station cfg) : PsEntry cfg where
  valid := st.valid
  psSta := st.psSta
  psTxBuf := st.psTxBuf

/-- The queues, the descriptors and their counters. -/
structure PsView (cfg : ApCfg) where
  sta : StaIdx cfg → PsEntry cfg
  txDesp : DespIdx cfg → Bool
  totalPsBuffered : ℕ
  numStaPs : ℕ
  assertFailed : Bool

def ApInfo.ps (s : ApInfo cfg) : PsView cfg where
  sta := fun i => (s.sta i).psEntry
  txDesp := fun d => (s.txDesp d).isSome
  totalPsBuffered := s.totalPsBuffered
  numStaPs := s.numStaPs
  assertFailed := s.assertFailed

/-- A station without its frames. -/
def Station.still (st : Station cfg) : Station cfg :=
  { st with fwQLen := 0, psTxBuf := fun _ => [] }

/-- A station without what the transmit path works on. -/
def Station.ctl (st : Station cfg) : Station cfg :=
  { st with sp := false, fwQLen := 0, psTxBuf := fun _ => [] }

/-- What decides about a station's place in the table and its frames; the rest of the record is what
the station has told of itself. -/
def Station.core (st : Station cfg) : Station cfg :=
  { st with
    pendingPoll := false, shortPreamble := false, wmm := false, ht := false, nonerp := false
    capability := 0, listenInterval := 0, supportedRates := [], htCapab := 0, challenge := none
    timeoutNext := .nullfunc, arpRetryCount := 0, uapsdQueues := 0, maxSp := 0, fwQLen := 0 }

/-- The state without what the transmit path works on. -/
def ApInfo.ctl (s : ApInfo cfg) : ApInfo cfg :=
  { s with
    sta := fun i => (s.sta i).ctl
    tim := fun _ => false
    totalPsBuffered := 0
    txDesp := fun _ => none
    drv := { s.drv with tests := [] }
    assertFailed := false }

theorem table_modSta (s : ApInfo cfg) (i : StaIdx cfg) (f : Station cfg → Station cfg) :
    (s.modSta i f).table
      = { s.table with sta := Function.update s.table.sta i (f (s.sta i)).entry } := by
  have hsta : (fun j => (Function.update s.sta i (f (s.sta i)) j).entry)
      = Function.update (fun j => (s.sta j).entry) i (f (s.sta i)).entry := by
    funext j
    by_cases hj : j = i
    · subst hj; simp
    · simp [Function.update_of_ne hj]
  simp only [ApInfo.table, ApInfo.modSta, hsta]

theorem ps_modSta (s : ApInfo cfg) (i : StaIdx cfg) (f : Station cfg → Station cfg) :
    (s.modSta i f).ps
      = { s.ps with sta := Function.update s.ps.sta i (f (s.sta i)).psEntry } := by
  have hsta : (fun j => (Function.update s.sta i (f (s.sta i)) j).psEntry)
      = Function.update (fun j => (s.sta j).psEntry) i (f (s.sta i)).psEntry := by
    funext j
    by_cases hj : j = i
    · subst hj; simp
    · simp [Function.update_of_ne hj]
  simp only [ApInfo.ps, ApInfo.modSta, hsta]

theorem ctl_modSta (s : ApInfo cfg) (i : StaIdx cfg) (f : Station cfg → Station cfg) :
    (s.modSta i f).ctl = s.ctl.modSta i fun _ => (f (s.sta i)).ctl := by
  have hsta : (fun j => (Function.update s.sta i (f (s.sta i)) j).ctl)
      = Function.update (fun j => (s.sta j).ctl) i (f (s.sta i)).ctl := by
    funext j
    by_cases hj : j = i
    · subst hj; simp
    · simp [Function.update_of_ne hj]
  simp only [ApInfo.ctl, ApInfo.modSta, hsta]

/-- Only what a change makes of the station at hand matters. -/
theorem modSta_congr {s : ApInfo cfg} {i : StaIdx cfg} {f g : Station cfg → Station cfg}
    (h : f (s.sta i) = g (s.sta i)) : s.modSta i f = s.modSta i g := by
  simp only [ApInfo.modSta, h]

theorem ctl_of_still {st st' : Station cfg} (h : st'.still = st.still) : st'.ctl = st.ctl :=
  have hstill : st'.still.ctl = st.still.ctl := congrArg Station.ctl h
  hstill

/-- A change of a station that `ctl` does not see. -/
theorem ctl_modSta_of_eq {s : ApInfo cfg} {i : StaIdx cfg} {f : Station cfg → Station cfg}
    (h : (f (s.sta i)).ctl = (s.sta i).ctl) : (s.modSta i f).ctl = s.ctl := by
  rw [ctl_modSta, h]
  have hself : Function.update s.ctl.sta i (s.sta i).ctl = s.ctl.sta :=
    Function.update_eq_self i s.ctl.sta
  simp only [ApInfo.modSta, hself]

/-- The table is a part of `ctl`. -/
theorem table_of_ctl {s s' : ApInfo cfg} (h : s'.ctl = s.ctl) : s'.table = s.table :=
  have hctl : s'.ctl.table = s.ctl.table := congrArg ApInfo.table h
  hctl

/-- A change of a station that the table does not see. -/
theorem table_modSta_of_eq {s : ApInfo cfg} {i : StaIdx cfg} {f : Station cfg → Station cfg}
    (h : (f (s.sta i)).entry = (s.sta i).entry) : (s.modSta i f).table = s.table := by
  rw [table_modSta, h]
  have hself : Function.update s.table.sta i (s.sta i).entry = s.table.sta :=
    Function.update_eq_self i s.table.sta
  rw [hself]

/-- A change of a station that buffering does not see. -/
theorem ps_modSta_of_eq {s : ApInfo cfg} {i : StaIdx cfg} {f : Station cfg → Station cfg}
    (h : (f (s.sta i)).psEntry = (s.sta i).psEntry) : (s.modSta i f).ps = s.ps := by
  rw [ps_modSta, h]
  have hself : Function.update s.ps.sta i (s.sta i).psEntry = s.ps.sta :=
    Function.update_eq_self i s.ps.sta
  rw [hself]

@[simp] theorem modSta_sta_self (s : ApInfo cfg) (i : StaIdx cfg) (f : Station cfg → Station cfg) :
    (s.modSta i f).sta i = f (s.sta i) := by
  simp [ApInfo.modSta]

theorem modSta_sta_of_ne (s : ApInfo cfg) {i j : StaIdx cfg} (f : Station cfg → Station cfg)
    (h : j ≠ i) : (s.modSta i f).sta j = s.sta j :=
  Function.update_of_ne h _ _

/-- What a change of one station does not touch is the same for all. -/
theorem modSta_apply_of_eq {β : Type*} {s : ApInfo cfg} {i : StaIdx cfg}
    {f : Station cfg → Station cfg} (g : Station cfg → β) (h : g (f (s.sta i)) = g (s.sta i))
    (j : StaIdx cfg) : g ((s.modSta i f).sta j) = g (s.sta j) :=
  Table.apply_update_of_eq g h j

/-! ## What buffering does -/

section Buffering

/-- The property survives what the loops over the queues of the stations in `J` do. -/
structure KeptByQueues (J : StaIdx cfg → Prop) (P : ApInfo cfg → Prop) : Prop where
  modSta : ∀ {s i} {f : Station cfg → Station cfg}, P s → J i →
    (f (s.sta i)).still = (s.sta i).still → P (s.modSta i f)
  setTxDesp : ∀ {s}, P s → ∀ u, P { s with txDesp := u }
  setTotal : ∀ {s}, P s → ∀ n, P { s with totalPsBuffered := n }
  send : ∀ {s}, P s → ∀ f bAPFrame pollFlag,
    P (dataCouldBeSend neverQueued s f bAPFrame pollFlag).2

/-- The property survives everything the transmit path does. -/
structure KeptByTx (P : ApInfo cfg → Prop) : Prop extends KeptByQueues (fun _ => True) P where
  recalcTim : ∀ {s}, P s → ∀ i, P (staInfoRecalcTim s i).2
  deliver : ∀ {s}, P s → ∀ i nFrames ignored reason,
    P (staPsDeliverResponse s i nFrames ignored reason)
  setAssert : ∀ {s}, P s → P { s with assertFailed := true }

variable {J : StaIdx cfg → Prop} {P : ApInfo cfg → Prop} {s : ApInfo cfg} {i : StaIdx cfg}

/-- `list_q_deq` finds an empty queue, or takes its first descriptor. -/
theorem listQDeq_cases (s : ApInfo cfg) (i : StaIdx cfg) (ac : Ac) :
    ((s.sta i).psTxBuf ac = [] ∧ listQDeq s i ac = (none, s)) ∨
    ∃ d q, (s.sta i).psTxBuf ac = d :: q ∧ listQDeq s i ac = (some d, setQueue s i ac q) := by
  cases hq : (s.sta i).psTxBuf ac with
  | nil => exact .inl ⟨rfl, by simp [listQDeq, hq]⟩
  | cons d q => exact .inr ⟨d, q, rfl, by simp [listQDeq, hq]⟩

theorem KeptByQueues.subTotal (h : KeptByQueues J P) (hs : P s) (n : ℕ) : P (s.subTotal n) :=
  h.setTotal hs _

theorem KeptByQueues.dropDesp (h : KeptByQueues J P) (hs : P s) (d : DespIdx cfg) :
    P (dropDesp s d) :=
  h.subTotal (h.setTxDesp hs _) 1

theorem KeptByQueues.setQueue (h : KeptByQueues J P) (hs : P s) (hi : J i) (ac : Ac)
    (q : List (DespIdx cfg)) : P (setQueue s i ac q) :=
  h.modSta hs hi rfl

theorem KeptByQueues.purgeOldOne (h : KeptByQueues J P) (hs : P s) (hi : J i) (acs : List Ac) :
    P (purgeOldOne i acs s) := by
  induction acs with
  | nil => exact hs
  | cons ac acs ih =>
    unfold Ap.purgeOldOne
    rcases listQDeq_cases s i ac with ⟨_, hd⟩ | ⟨d, q, _, hd⟩ <;> rw [hd]
    · exact ih
    · exact h.dropDesp (h.setQueue hs hi ac q) d

theorem KeptByQueues.purgeOldPsBuffers (h : KeptByQueues J P) (hJ : ∀ i, J i) (hs : P s) :
    P (purgeOldPsBuffers s) := by
  refine List.foldlRecOn _ _ hs fun s hs i _ => ?_
  split
  · exact h.purgeOldOne hs (hJ i) _
  · exact hs

theorem KeptByQueues.purgeAc (h : KeptByQueues J P) (hs : P s) (hi : J i) (ac : Ac) (n : ℕ) :
    P (purgeAc i ac n s) := by
  induction n generalizing s with
  | zero => exact hs
  | succ n ih =>
    unfold Ap.purgeAc
    rcases listQDeq_cases s i ac with ⟨_, hd⟩ | ⟨d, q, _, hd⟩ <;> rw [hd]
    · exact hs
    · exact ih (h.dropDesp (h.setQueue hs hi ac q) d)

theorem KeptByQueues.purgeStaPsBuffers (h : KeptByQueues J P) (hs : P s) (hi : J i) :
    P (purgeStaPsBuffers s i) :=
  List.foldlRecOn _ _ hs fun _ hs ac _ => h.purgeAc hs hi ac _

theorem KeptByQueues.apSendBufferedFrame (h : KeptByQueues J P) (hs : P s) (d : DespIdx cfg) :
    P (apSendBufferedFrame s d) := by
  refine h.setTxDesp ?_ _
  split
  · exact h.send hs _ _ _
  · exact hs

theorem KeptByQueues.takeFrames (h : KeptByQueues J P) (hs : P s) (hi : J i) (ac : Ac) (n : ℕ) :
    P (takeFrames i ac n s).2 := by
  induction n generalizing s with
  | zero => exact hs
  | succ n ih =>
    unfold Ap.takeFrames
    rcases listQDeq_cases s i ac with ⟨_, hd⟩ | ⟨d, q, _, hd⟩ <;> rw [hd]
    · exact hs
    · exact ih (h.subTotal (h.setQueue hs hi ac q) 1)

theorem KeptByQueues.collectFrames (h : KeptByQueues J P) (hs : P s) (hi : J i) (ignored : ℕ)
    (acs : List Ac) (n : ℕ) : P (collectFrames i ignored acs n s).2 := by
  induction acs generalizing n s with
  | nil => exact hs
  | cons ac acs ih =>
    unfold Ap.collectFrames
    dsimp only
    split_ifs
    · exact ih hs n
    · exact ih (h.takeFrames hs hi ac n) _
    · exact h.takeFrames hs hi ac n

theorem KeptByQueues.deliverFrames (h : KeptByQueues J P) (hs : P s) (hi : J i)
    (reason : ReleaseType) (l : List (DespIdx cfg)) : P (l.foldl (deliverFrame i reason) s) :=
  List.foldlRecOn _ _ hs fun _ hs d _ => h.modSta (h.apSendBufferedFrame hs d) hi rfl

theorem KeptByQueues.wakeupAc (h : KeptByQueues J P) (hi : J i) (ac : Ac) (n : ℕ)
    {r : ApInfo cfg × ℕ} (hs : P r.1) : P (wakeupAc i ac n r).1 := by
  induction n generalizing r with
  | zero => exact hs
  | succ n ih =>
    unfold Ap.wakeupAc
    rcases listQDeq_cases r.1 i ac with ⟨_, hd⟩ | ⟨d, q, _, hd⟩ <;> rw [hd]
    · exact hs
    · exact ih (h.apSendBufferedFrame (h.setQueue hs hi ac q) d)

theorem KeptByQueues.makeRoom (h : KeptByQueues J P) (hJ : ∀ i, J i) (hs : P s) (i : StaIdx cfg)
    (ac : Ac) : P (makeRoom s i ac) := by
  unfold Ap.makeRoom
  extract_lets s₁
  have h₁ : P s₁ := by
    dsimp only [s₁]
    split
    · exact h.purgeOldPsBuffers hJ hs
    · exact hs
  split
  · rcases listQDeq_cases s₁ i ac with ⟨_, hd⟩ | ⟨d, q, _, hd⟩ <;> rw [hd]
    · exact h₁
    · exact h.setTxDesp (h.setQueue h₁ (hJ i) ac q) _
  · exact h.setTotal h₁ _

theorem KeptByQueues.expireAc (h : KeptByQueues J P) (hs : P s) (hi : J i) (now : ℕ) (ac : Ac)
    (n : ℕ) : P (expireAc now i ac n s) := by
  induction n generalizing s with
  | zero => exact hs
  | succ n ih =>
    unfold Ap.expireAc
    split
    · exact hs
    · next d q hq =>
      split
      · have hd : listQDeq s i ac = (some d, Ap.setQueue s i ac q) := by simp [listQDeq, hq]
        rw [hd]
        exact ih (h.dropDesp (h.setQueue hs hi ac q) d)
      · exact hs

/-- A service period: the frames are collected and sent, then the TIM is looked at. -/
theorem KeptByQueues.staPsDeliverResponse (h : KeptByQueues J P)
    (hsp : ∀ {s}, P s → ∀ sp, P (s.modSta i fun st => { st with sp }))
    (htim : ∀ {s}, P s → P (staInfoRecalcTim s i).2) (hs : P s) (hi : J i)
    (nFrames ignored : ℕ) (reason : ReleaseType) :
    P (staPsDeliverResponse s i nFrames ignored reason) := by
  unfold Ap.staPsDeliverResponse
  extract_lets s₁ r s₂ s₃
  have h₁ : P s₁ := by
    dsimp only [s₁]
    split
    · exact hsp hs true
    · exact hs
  have h₂ : P s₂ := h.collectFrames h₁ hi ignored _ nFrames
  have h₃ : P s₃ := by
    dsimp only [s₃]
    split_ifs
    · exact h.send h₂ _ _ _
    · exact h₂
    · exact h.deliverFrames h₂ hi reason r.1
  exact hsp (htim h₃) false

theorem KeptByTx.staPsDeliverUapsd (h : KeptByTx P) (hs : P s) (i : StaIdx cfg) :
    P (staPsDeliverUapsd s i) := by
  unfold Ap.staPsDeliverUapsd
  dsimp only
  split
  · exact hs
  · exact h.deliver hs i _ _ _

theorem KeptByTx.queueFrame (h : KeptByTx P) (hs : P s) (now : ℕ) (i : StaIdx cfg) (ac : Ac)
    (d : DespIdx cfg) (t : TxDesp cfg) : P (queueFrame now s i ac d t) := by
  unfold Ap.queueFrame
  extract_lets s₁ s₂ s₃ r
  have h₁ : P s₁ := h.makeRoom (fun _ => trivial) hs i ac
  have h₂ : P s₂ := h.setTxDesp h₁ _
  have h₃ : P s₃ := h.modSta (h.setQueue h₂ trivial ac _) trivial rfl
  split_ifs
  · exact h₃
  · exact h.deliver (h.recalcTim h₃ i) i _ _ _
  · exact h.recalcTim h₃ i

theorem KeptByTx.txHUnicastPsBuf (h : KeptByTx P) (hs : P s) (now : ℕ) (d : DespIdx cfg)
    (t : TxDesp cfg) : P (txHUnicastPsBuf now s d t).2 := by
  unfold Ap.txHUnicastPsBuf
  split
  · exact hs
  · dsimp only
    split
    · exact h.queueFrame hs now _ _ d t
    · exact hs

/-- The handlers of a frame keep what its queueing keeps. -/
theorem KeptByTx.callTxHandlers (h : KeptByTx P) (hs : P s) (now : ℕ) (f : TxFrame)
    (bAPFrame pollFlag : Bool) :
    P (callTxHandlers (Ap.txHUnicastPsBuf now) s f bAPFrame pollFlag).2 := by
  have hneed : ∀ {s} d t, P s → P (dataNeedQueue (Ap.txHUnicastPsBuf now) s d t).2 := by
    intro s d t hs
    unfold dataNeedQueue
    split_ifs
    · exact hs
    · exact h.txHUnicastPsBuf hs now d t
    · exact hs
  unfold Ap.callTxHandlers
  split
  · exact h.setAssert hs
  · next d _ =>
    extract_lets t s₁
    have h₁ : P s₁ := h.setTxDesp hs _
    split
    · have h₂ := hneed d t h₁
      split
      · next he =>
        rw [he] at h₂
        exact h₂
      · next he =>
        rw [he] at h₂
        exact h.setTxDesp h₂ _
    · exact h.setTxDesp h₁ _

theorem KeptByTx.staInfoCleanup (h : KeptByTx P) (hs : P s) (now : ℕ) :
    P (staInfoCleanup now s) := by
  have hsta : ∀ {s} i, P s → P (cleanupExpireBuffered now s i) := by
    intro s i hs
    exact List.foldlRecOn _ _ hs fun _ hs ac _ => h.recalcTim (h.expireAc hs trivial now ac _) i
  refine List.foldlRecOn _ _ hs fun s hs i _ => ?_
  split
  · exact hsta i hs
  · exact hs

/-- A frame that is never queued comes and goes. -/
theorem callTxHandlers_neverQueued_cases (s : ApInfo cfg) (f : TxFrame) (bAPFrame pollFlag : Bool) :
    ∃ u b, (callTxHandlers neverQueued s f bAPFrame pollFlag).2
      = { s with txDesp := u, assertFailed := b } := by
  have hneed : ∀ (s : ApInfo cfg) d t, dataNeedQueue neverQueued s d t = (.continue, s) := by
    intro s d t
    unfold dataNeedQueue neverQueued
    split_ifs <;> rfl
  unfold callTxHandlers
  split
  · exact ⟨_, _, rfl⟩
  · dsimp only
    split
    · rw [hneed]
      exact ⟨_, _, rfl⟩
    · exact ⟨_, _, rfl⟩

end Buffering

/-! ## Buffering leaves the rest alone -/

section Ctl

theorem staInfoRecalcTim_ctl (s : ApInfo cfg) (i : StaIdx cfg) :
    (staInfoRecalcTim s i).2.ctl = s.ctl := by
  unfold staInfoRecalcTim
  dsimp only
  split <;> rfl

theorem ctl_keptByQueues (s₀ : ApInfo cfg) :
    KeptByQueues (fun _ => True) fun s => s.ctl = s₀.ctl where
  modSta hs _ hf := (ctl_modSta_of_eq (ctl_of_still hf)).trans hs
  setTxDesp hs _ := hs
  setTotal hs _ := hs
  send {s} hs f bAPFrame pollFlag := by
    obtain ⟨u, b, he⟩ := callTxHandlers_neverQueued_cases s f bAPFrame pollFlag
    change (callTxHandlers neverQueued s f bAPFrame pollFlag).2.ctl = s₀.ctl
    rw [he]
    exact hs

/-- What buffering works on is no part of `ctl`. -/
theorem ctl_keptByTx (s₀ : ApInfo cfg) : KeptByTx fun s => s.ctl = s₀.ctl where
  toKeptByQueues := ctl_keptByQueues s₀
  recalcTim {s} hs i := (staInfoRecalcTim_ctl s i).trans hs
  deliver hs i nFrames ignored reason :=
    (ctl_keptByQueues s₀).staPsDeliverResponse (fun hs _ => (ctl_modSta_of_eq rfl).trans hs)
      (fun {s} hs => (staInfoRecalcTim_ctl s i).trans hs) hs trivial nFrames ignored reason
  setAssert hs := hs

@[simp] theorem recalcTimGenBeacon_ctl (s : ApInfo cfg) (i : StaIdx cfg) :
    (recalcTimGenBeacon s i).ctl = s.ctl :=
  staInfoRecalcTim_ctl s i

@[simp] theorem purgeStaPsBuffers_ctl (s : ApInfo cfg) (i : StaIdx cfg) :
    (purgeStaPsBuffers s i).ctl = s.ctl :=
  (ctl_keptByTx s).purgeStaPsBuffers rfl trivial

theorem modFwQLen_ctl (s : ApInfo cfg) (i : StaIdx cfg) (g : Station cfg → ℤ) :
    (s.modSta i fun st => { st with fwQLen := g st }).ctl = s.ctl :=
  ctl_modSta_of_eq rfl

@[simp] theorem sendMgmtFrame_ctl (s : ApInfo cfg) (da : EtherAddr) :
    (sendMgmtFrame s da).ctl = s.ctl :=
  (ctl_keptByTx s).send rfl _ _ _

@[simp] theorem staPsDeliverPollResponse_ctl (s : ApInfo cfg) (i : StaIdx cfg) :
    (staPsDeliverPollResponse s i).ctl = s.ctl :=
  (ctl_keptByTx s).deliver rfl i _ _ _

@[simp] theorem staPsDeliverUapsd_ctl (s : ApInfo cfg) (i : StaIdx cfg) :
    (staPsDeliverUapsd s i).ctl = s.ctl :=
  (ctl_keptByTx s).staPsDeliverUapsd rfl i

@[simp] theorem dataCouldBeSend_ctl (now : ℕ) (s : ApInfo cfg) (f : TxFrame)
    (bAPFrame pollFlag : Bool) :
    (dataCouldBeSend (txHUnicastPsBuf now) s f bAPFrame pollFlag).2.ctl = s.ctl :=
  (ctl_keptByTx s).callTxHandlers rfl now f bAPFrame pollFlag

@[simp] theorem staInfoCleanup_ctl (now : ℕ) (s : ApInfo cfg) :
    (staInfoCleanup now s).ctl = s.ctl :=
  (ctl_keptByTx s).staInfoCleanup rfl now

/-- A station falls asleep or wakes up. -/
def ApInfo.setPs (s : ApInfo cfg) (i : StaIdx cfg) (psSta : Bool) (numStaPs : ℕ) : ApInfo cfg :=
  { s with numStaPs }.modSta i fun st => { st with psSta }

@[simp] theorem apStaPsStart_ctl (s : ApInfo cfg) (i : StaIdx cfg) :
    (apStaPsStart s i).ctl = s.ctl.setPs i true (inc8 s.numStaPs) :=
  ctl_modSta _ i _

theorem staPsDeliverWakeup_ctl (s : ApInfo cfg) (i : StaIdx cfg) :
    (staPsDeliverWakeup s i).ctl = s.ctl.setPs i false s.numStaPs := by
  unfold staPsDeliverWakeup
  extract_lets r s₁ s₂
  have hr : r.1.ctl = s.ctl :=
    List.foldlRecOn (motive := fun r : ApInfo cfg × ℕ => r.1.ctl = s.ctl) _ _ rfl
      fun _ hs ac _ => (ctl_keptByTx s).wakeupAc trivial ac _ hs
  clear_value r
  have h₁ : s₁.ctl = r.1.ctl.setPs i false r.1.numStaPs :=
    ctl_modSta r.1 i fun st => { st with sp := false, psSta := false }
  have h₂ : s₂.ctl = s₁.ctl :=
    (modFwQLen_ctl _ i _).trans ((ctl_keptByTx s₁).subTotal rfl r.2)
  rw [recalcTimGenBeacon_ctl, h₂, h₁]
  exact congrArg (fun c : ApInfo cfg => c.setPs i false c.numStaPs) hr

theorem apStaPsEnd_ctl (s : ApInfo cfg) (i : StaIdx cfg) :
    (apStaPsEnd s i).ctl
      = if s.numStaPs ≠ 0 then s.ctl.setPs i false (dec8 s.numStaPs) else s.ctl := by
  unfold apStaPsEnd
  split
  · rw [staPsDeliverWakeup_ctl]
    rfl
  · rfl

theorem drvRemovePs_ctl (s : ApInfo cfg) (i : StaIdx cfg) :
    (drvRemovePs s i).ctl
      = if (s.sta i).psSta then s.ctl.setPs i false (dec8 s.numStaPs) else s.ctl := by
  unfold drvRemovePs
  split
  · dsimp only
    rw [recalcTimGenBeacon_ctl, modFwQLen_ctl, purgeStaPsBuffers_ctl]
    have h : (s.modSta i fun st => { st with psSta := false }).ctl
        = s.ctl.setPs i false s.numStaPs := ctl_modSta s i _
    exact congrArg (fun c : ApInfo cfg => { c with numStaPs := dec8 s.numStaPs }) h
  · rfl

theorem apSocCmdStaOper_ctl (s : ApInfo cfg) (i : StaIdx cfg) (add : Bool) :
    (apSocCmdStaOper s i add).ctl = apSocCmdStaOper s.ctl i add := by
  have hw : (s.ctl.sta i).wsidIdx = (s.sta i).wsidIdx := rfl
  unfold apSocCmdStaOper
  dsimp only
  rw [hw]
  split <;> rfl

theorem drvDetach_ctl (s : ApInfo cfg) (i : StaIdx cfg) :
    (drvDetach s i).ctl = drvDetach s.ctl i := by
  rw [drvDetach, ctl_modSta, drvDetach, ← apSocCmdStaOper_ctl]
  exact modSta_congr rfl

theorem drvRemove_ctl (s : ApInfo cfg) (i : StaIdx cfg) :
    (drvRemove s i).ctl = drvDetach
      (if (s.sta i).psSta then s.ctl.setPs i false (dec8 s.numStaPs) else s.ctl) i := by
  rw [drvRemove, drvDetach_ctl, drvRemovePs_ctl]

theorem rxHUapsdAndPspoll_ctl (s : ApInfo cfg) (rx : RxDesp cfg) :
    (rxHUapsdAndPspoll s rx).2.ctl = s.ctl := by
  unfold rxHUapsdAndPspoll
  dsimp only
  split_ifs
  · rfl
  · exact staPsDeliverPollResponse_ctl s rx.sta
  · rfl
  · rfl
  · exact staPsDeliverUapsd_ctl s rx.sta
  · rfl

end Ctl

/-! ## What that means for the table -/

section Table

/-- A station falls asleep or wakes up, in the table. -/
def StaTable.setPs (t : StaTable cfg) (i : StaIdx cfg) (psSta : Bool) (numStaPs : ℕ) :
    StaTable cfg :=
  { t with numStaPs, sta := Function.update t.sta i { t.sta i with psSta } }

theorem setPs_table (s : ApInfo cfg) (i : StaIdx cfg) (b : Bool) (n : ℕ) :
    (s.setPs i b n).table = s.table.setPs i b n :=
  table_modSta _ i _

theorem apStaPsStart_table (s : ApInfo cfg) (i : StaIdx cfg) :
    (apStaPsStart s i).table = s.table.setPs i true (inc8 s.numStaPs) :=
  setPs_table s i true _

theorem apStaPsEnd_table (s : ApInfo cfg) (i : StaIdx cfg) :
    (apStaPsEnd s i).table
      = if s.numStaPs ≠ 0 then s.table.setPs i false (dec8 s.numStaPs) else s.table := by
  change (apStaPsEnd s i).ctl.table = _
  rw [apStaPsEnd_ctl]
  split
  · exact setPs_table s.ctl i false _
  · rfl

theorem apSocCmdStaOper_table (s : ApInfo cfg) (i : StaIdx cfg) (add : Bool) :
    (apSocCmdStaOper s i add).table = s.table := by
  unfold apSocCmdStaOper
  dsimp only
  split <;> rfl

@[simp] theorem drvDetach_table (s : ApInfo cfg) (i : StaIdx cfg) :
    (drvDetach s i).table = s.table := by
  rw [drvDetach, table_modSta_of_eq, apSocCmdStaOper_table]
  rfl

theorem drvRemove_table (s : ApInfo cfg) (i : StaIdx cfg) :
    (drvRemove s i).table
      = if (s.sta i).psSta then s.table.setPs i false (dec8 s.numStaPs) else s.table := by
  change (drvRemove s i).ctl.table = _
  rw [drvRemove_ctl, drvDetach_table]
  split
  · exact setPs_table s.ctl i false _
  · rfl

theorem endSessions_table (s : ApInfo cfg) (i : StaIdx cfg) :
    (endSessions s i).table = s.table := by
  unfold endSessions
  split <;> rfl

end Table

/-! ## The other stations -/

section Others

variable {i j : StaIdx cfg}

theorem staInfoRecalcTim_sta (s : ApInfo cfg) (i : StaIdx cfg) :
    (staInfoRecalcTim s i).2.sta = s.sta := by
  unfold staInfoRecalcTim
  dsimp only
  split <;> rfl

/-- The queues of one station are emptied without the others. -/
theorem others_keptByQueues (s₀ : ApInfo cfg) (i : StaIdx cfg) :
    KeptByQueues (· = i) fun s => ∀ j, j ≠ i → s.sta j = s₀.sta j where
  modSta hs hi _ j hj := (modSta_sta_of_ne _ _ (hi ▸ hj)).trans (hs j hj)
  setTxDesp hs _ := hs
  setTotal hs _ := hs
  send {s} hs f bAPFrame pollFlag := by
    obtain ⟨u, b, he⟩ := callTxHandlers_neverQueued_cases s f bAPFrame pollFlag
    change ∀ j, j ≠ i → (callTxHandlers neverQueued s f bAPFrame pollFlag).2.sta j = s₀.sta j
    rw [he]
    exact hs

@[simp] theorem sendMgmtFrame_sta (s : ApInfo cfg) (da : EtherAddr) :
    (sendMgmtFrame s da).sta = s.sta := by
  obtain ⟨u, b, he⟩ := callTxHandlers_neverQueued_cases s
    { da, isData := false, priority := noQosPriority, psFrame := false } true false
  change (callTxHandlers neverQueued s _ true false).2.sta = s.sta
  rw [he]

@[simp] theorem apSocCmdStaOper_sta (s : ApInfo cfg) (i : StaIdx cfg) (add : Bool) :
    (apSocCmdStaOper s i add).sta = s.sta := by
  unfold apSocCmdStaOper
  dsimp only
  split <;> rfl

@[simp] theorem endSessions_sta (s : ApInfo cfg) (i : StaIdx cfg) :
    (endSessions s i).sta = s.sta := by
  unfold endSessions
  split <;> rfl

theorem drvRemove_sta_of_ne (s : ApInfo cfg) (h : j ≠ i) : (drvRemove s i).sta j = s.sta j := by
  have hps : (drvRemovePs s i).sta j = s.sta j := by
    unfold drvRemovePs
    split
    · extract_lets s₁ s₂
      have h₁ : ∀ j, j ≠ i → s₁.sta j = s.sta j := fun j hj => modSta_sta_of_ne s _ hj
      have hpurge : s₂ = purgeStaPsBuffers { s₁ with numStaPs := dec8 s₁.numStaPs } i := rfl
      clear_value s₁ s₂
      have h₂ : ∀ j, j ≠ i → s₂.sta j = s.sta j := by
        rw [hpurge]
        exact (others_keptByQueues s i).purgeStaPsBuffers h₁ rfl
      rw [recalcTimGenBeacon, staInfoRecalcTim_sta, modSta_sta_of_ne _ _ h, h₂ j h]
    · rfl
  rw [drvRemove, drvDetach, modSta_sta_of_ne _ _ h, apSocCmdStaOper_sta, hps]

theorem apStaSetAuthorized_sta_of_ne (s : ApInfo cfg) (b : Bool) (h : j ≠ i) :
    (apStaSetAuthorized s i b).sta j = s.sta j := by
  unfold apStaSetAuthorized
  split_ifs
  · rfl
  · exact modSta_sta_of_ne _ _ h
  · exact modSta_sta_of_ne _ _ h

theorem apStaSetAuthorized_sta_self (s : ApInfo cfg) (i : StaIdx cfg) (b : Bool) :
    (apStaSetAuthorized s i b).sta i = { s.sta i with authorized := b } := by
  unfold apStaSetAuthorized
  split_ifs with h hb
  · rw [h]
  · rw [modSta_sta_self, hb]
  · rw [modSta_sta_self, Bool.eq_false_iff.mpr hb]

theorem setCounted_sta_of_ne (s : ApInfo cfg) (c : Counted) (h : j ≠ i) :
    (setCounted s i c).sta j = s.sta j := by
  unfold setCounted
  split
  · rfl
  · exact modSta_sta_of_ne _ _ h

theorem setCounted_sta_self (s : ApInfo cfg) (i : StaIdx cfg) (c : Counted) :
    (setCounted s i c).sta i
      = { s.sta i with counted := Function.update (s.sta i).counted c true } := by
  unfold setCounted
  split
  · next hc => rw [← hc, Function.update_eq_self]
  · exact modSta_sta_self _ _ _

theorem hostapdGetAid_sta {s s' : ApInfo cfg} (h : hostapdGetAid s i = some s') :
    (∀ j, j ≠ i → s'.sta j = s.sta j) ∧ ∃ n, s'.sta i = { s.sta i with aid := n } := by
  unfold hostapdGetAid at h
  split at h
  · cases h
    exact ⟨fun _ _ => rfl, _, rfl⟩
  · split at h
    · cases h
    · cases h
      exact ⟨fun j hj => modSta_sta_of_ne _ _ hj, _, modSta_sta_self _ _ _⟩

theorem takeSlot_sta_of_ne (s : ApInfo cfg) (addr : EtherAddr) (h : j ≠ i) :
    (takeSlot s i addr).sta j = s.sta j := by
  unfold takeSlot
  rw [modSta_sta_of_ne _ _ h]
  rfl

theorem takeSlot_sta_self (s : ApInfo cfg) (i : StaIdx cfg) (addr : EtherAddr) :
    (takeSlot s i addr).sta i
      = { s.sta i with valid := true, wsidIdx := newWsid s i, addr := addr } := by
  unfold takeSlot
  rw [modSta_sta_self]
  rfl

theorem apStaInfoFree_sta_of_ne (s : ApInfo cfg) (h : j ≠ i) :
    (apStaInfoFree s i).sta j = s.sta j := by
  unfold apStaInfoFree
  split
  · rfl
  · extract_lets s₁ s₂ s₃ s₄
    have h₁ : s₁.sta j = s.sta j := by
      dsimp only [s₁]
      rw [endSessions_sta, modSta_sta_of_ne _ _ h]
    have h₂ : s₂.sta j = s₁.sta j := by
      dsimp only [s₂]
      rw [drvRemove_sta_of_ne _ h, apStaSetAuthorized_sta_of_ne _ _ h]
    have h₃ : s₃.sta j = s₂.sta j := by
      dsimp only [s₃]
      unfold decNumSta releaseAid
      split_ifs <;> rfl
    have h₄ : s₄.sta j = s₃.sta j := by
      refine List.foldlRecOn (motive := fun s' : ApInfo cfg => s'.sta j = s₃.sta j) _ _ rfl
        fun s' hs c _ => ?_
      unfold clearCounted
      split
      · exact (modSta_sta_of_ne _ _ h).trans hs
      · exact hs
    rw [modSta_sta_of_ne _ _ h]
    exact h₄.trans (h₃.trans (h₂.trans h₁))

theorem changeStaDisassocToDeauth_sta_of_ne (s : ApInfo cfg) (timerCreat : Bool) (h : j ≠ i) :
    (changeStaDisassocToDeauth s i timerCreat).sta j = s.sta j := by
  unfold changeStaDisassocToDeauth
  extract_lets s₁ s₂
  have h₂ : s₂.sta j = s.sta j := by
    dsimp only [s₂, s₁]
    rw [drvRemove_sta_of_ne _ h, modSta_sta_of_ne _ _ h, apStaSetAuthorized_sta_of_ne _ _ h]
  split
  · rw [← h₂]
    exact modSta_sta_of_ne s₂ (fun st => { st with timeoutNext := .deauth }) h
  · exact h₂

theorem removeSilent_sta_of_ne (s : ApInfo cfg) (h : j ≠ i) :
    (removeSilent s i).sta j = s.sta j := by
  unfold removeSilent
  extract_lets s₁ s₂
  have h₂ : s₂.sta j = s.sta j := by
    rw [← changeStaDisassocToDeauth_sta_of_ne s false h]
    exact modSta_sta_of_ne _ (fun st => { st with timeoutNext := .deauth }) h
  rw [apStaInfoFree_sta_of_ne _ h, sendMgmtFrame_sta, h₂]

/-- A slot that has been freed is blank. -/
theorem apStaInfoFree_sta_self {s : ApInfo cfg} (h : (s.sta i).valid = true) :
    (apStaInfoFree s i).sta i = resetStation := by
  unfold apStaInfoFree
  rw [if_neg (by simp [h])]
  exact modSta_sta_self _ _ _

end Others

/-! ## Recording a request leaves the queues alone -/

section Ps

@[simp] theorem setCounted_ps (s : ApInfo cfg) (i : StaIdx cfg) (c : Counted) :
    (setCounted s i c).ps = s.ps := by
  unfold setCounted
  split
  · rfl
  · exact ps_modSta_of_eq rfl

@[simp] theorem clearCounted_ps (s : ApInfo cfg) (i : StaIdx cfg) (c : Counted) :
    (clearCounted s i c).ps = s.ps := by
  unfold clearCounted
  split
  · exact ps_modSta_of_eq rfl
  · rfl

@[simp] theorem apStaSetAuthorized_ps (s : ApInfo cfg) (i : StaIdx cfg) (b : Bool) :
    (apStaSetAuthorized s i b).ps = s.ps := by
  unfold apStaSetAuthorized
  split_ifs
  · rfl
  · exact ps_modSta_of_eq rfl
  · exact ps_modSta_of_eq rfl

@[simp] theorem releaseAid_ps (s : ApInfo cfg) (aid : ℕ) : (releaseAid s aid).ps = s.ps := by
  unfold releaseAid
  split <;> rfl

@[simp] theorem decNumSta_ps (s : ApInfo cfg) : (decNumSta s).ps = s.ps := by
  unfold decNumSta
  split <;> rfl

@[simp] theorem staInfoRecalcTim_ps (s : ApInfo cfg) (i : StaIdx cfg) :
    (staInfoRecalcTim s i).2.ps = s.ps := by
  unfold staInfoRecalcTim
  dsimp only
  split <;> rfl

@[simp] theorem recalcTimGenBeacon_ps (s : ApInfo cfg) (i : StaIdx cfg) :
    (recalcTimGenBeacon s i).ps = s.ps := staInfoRecalcTim_ps s i

@[simp] theorem apSocCmdStaOper_ps (s : ApInfo cfg) (i : StaIdx cfg) (add : Bool) :
    (apSocCmdStaOper s i add).ps = s.ps := by
  unfold apSocCmdStaOper
  dsimp only
  split <;> rfl

@[simp] theorem drvDetach_ps (s : ApInfo cfg) (i : StaIdx cfg) : (drvDetach s i).ps = s.ps := by
  rw [drvDetach, ps_modSta_of_eq, apSocCmdStaOper_ps]
  rfl

@[simp] theorem endSessions_ps (s : ApInfo cfg) (i : StaIdx cfg) : (endSessions s i).ps = s.ps := by
  unfold endSessions
  split <;> rfl

theorem hostapdGetAid_ps {s s' : ApInfo cfg} {i : StaIdx cfg} (h : hostapdGetAid s i = some s') :
    s'.ps = s.ps := by
  unfold hostapdGetAid at h
  split at h
  · cases h; rfl
  · split at h
    · cases h
    · cases h; exact ps_modSta_of_eq rfl

end Ps

/-! ## What a station tells of itself -/

section Core

/-- The views of a station are parts of its core. -/
theorem entry_of_core {st st' : Station cfg} (h : st'.core = st.core) : st'.entry = st.entry :=
  have hcore : st'.core.entry = st.core.entry := congrArg Station.entry h
  hcore

theorem psEntry_of_core {st st' : Station cfg} (h : st'.core = st.core) :
    st'.psEntry = st.psEntry :=
  have hcore : st'.core.psEntry = st.core.psEntry := congrArg Station.psEntry h
  hcore

/-- An authentication request at most authenticates. -/
theorem authenticate_core (st : Station cfg) (r : AuthReq) :
    (authenticate st r).2.core = st.core ∨
      (authenticate st r).2.core = { st.core with auth := true } := by
  unfold authenticate authSharedKey
  split_ifs
  · exact .inr rfl
  · split <;> exact .inl rfl
  · exact .inl rfl
  · exact .inl rfl
  · exact .inr rfl

theorem authenticate_entry (st : Station cfg) (r : AuthReq) :
    (authenticate st r).2.entry = st.entry := by
  rcases authenticate_core st r with h | h
  · exact entry_of_core h
  · exact @entry_of_core cfg { st with auth := true } _ h

theorem authenticate_psEntry (st : Station cfg) (r : AuthReq) :
    (authenticate st r).2.psEntry = st.psEntry := by
  rcases authenticate_core st r with h | h
  · exact psEntry_of_core h
  · exact @psEntry_of_core cfg { st with auth := true } _ h

/-- A station without what an association request tells of it. -/
def Station.untold (st : Station cfg) : Station cfg :=
  { st with wmm := false, uapsdQueues := 0, maxSp := 0, supportedRates := [], ht := false
            htCapab := 0 }

/-- The elements of an association request are only recorded. -/
theorem checkAssocIes_untold (st : Station cfg) (elems : Option Elems) :
    (checkAssocIes st elems).2.untold = st.untold := by
  have hwmm : ∀ w, (checkWmm st w).untold = st.untold := by
    intro w
    unfold checkWmm
    split <;> rfl
  have hrates : ∀ (st : Station cfg) e, (copySuppRates st e).2.untold = st.untold := by
    intro st e
    unfold copySuppRates
    split
    · rfl
    · split
      · rfl
      · split
        · rfl
        · split <;> rfl
  have hht : ∀ (st : Station cfg) h, (copyStaHtCapab st h).untold = st.untold := by
    intro st h
    unfold copyStaHtCapab
    split
    · rfl
    · split <;> rfl
  unfold checkAssocIes
  split
  · rfl
  · dsimp only
    split_ifs <;> simp only [hht, hrates, hwmm]

theorem checkAssocIes_core (st : Station cfg) (elems : Option Elems) :
    (checkAssocIes st elems).2.core = st.core :=
  have hcore : (checkAssocIes st elems).2.untold.core = st.untold.core :=
    congrArg Station.core (checkAssocIes_untold st elems)
  hcore

/-- What the timer forgives is only recorded. -/
theorem timerForgives_core (st : Station cfg) (inactive : ℤ) :
    (timerForgives st inactive).2.core = st.core := by
  have hactive : ∀ (p : Prop) [Decidable p],
      (if p then { st with timeoutNext := .nullfunc } else st).core = st.core := by
    intro p _
    split <;> rfl
  unfold timerForgives
  extract_lets waiting active st'
  split_ifs
  · exact hactive active
  · exact hactive active

end Core

end Fullmac.Ap
