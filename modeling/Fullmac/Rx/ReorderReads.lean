import Fullmac.Rx.ReorderSizes

/-!
# Which slots have their descriptor read

`ieee80211_release_reorder_frame` reads the descriptor of the frame in its slot before it tests
whether there is one. Its callers differ in what they know about the slot. The timeout loop and the
in-order loop of `ieee80211_sta_reorder_release` only pass slots they have found full. The window
loop of `ieee80211_release_reorder_frames` walks over gaps, and the flush of a session walks over
all of the configured buffer. `Ready` is what the state must look like for an operation to read no
absent frame; it is exact for sessions that fit their buffer.
-/

namespace Fullmac.Rx

/-- A read of a descriptor found a frame, in a slot that was allocated. -/
def RxEvent.ReadPresent (cfg : HostCfg) : RxEvent → Prop
  | .step (some index) _ _ out => out ≠ .absent ∧ index < cfg.ampduRxBufSize
  | _ => True

instance (cfg : HostCfg) : DecidablePred (RxEvent.ReadPresent cfg)
  | .step (some index) _ _ out =>
    inferInstanceAs (Decidable (out ≠ .absent ∧ index < cfg.ampduRxBufSize))
  | .step none _ _ _ => inferInstanceAs (Decidable True)
  | .drop _ => inferInstanceAs (Decidable True)
  | .bypass _ => inferInstanceAs (Decidable True)

/-- So did every read. -/
def ReadsPresent (cfg : HostCfg) (tr : List RxEvent) : Prop := ∀ e ∈ tr, e.ReadPresent cfg

instance (cfg : HostCfg) (tr : List RxEvent) : Decidable (ReadsPresent cfg tr) :=
  inferInstanceAs (Decidable (∀ e ∈ tr, e.ReadPresent cfg))

@[simp] theorem readsPresent_nil (cfg : HostCfg) : ReadsPresent cfg [] := by
  simp [ReadsPresent]

@[simp] theorem readsPresent_cons {cfg : HostCfg} {e : RxEvent} {tr : List RxEvent} :
    ReadsPresent cfg (e :: tr) ↔ e.ReadPresent cfg ∧ ReadsPresent cfg tr := by
  simp [ReadsPresent]

@[simp] theorem readsPresent_append {cfg : HostCfg} {tr tr' : List RxEvent} :
    ReadsPresent cfg (tr ++ tr') ↔ ReadsPresent cfg tr ∧ ReadsPresent cfg tr' := by
  simp only [ReadsPresent, List.mem_append, or_imp, forall_and]

/-! ## What an operation needs -/

/-- How many numbers the head passes on its way to `target`. -/
def RxBaSession.passes (s : RxBaSession) (target : ℕ) : ℕ :=
  if seqLess s.headSeqNum target then seqSub target s.headSeqNum else 0

/-- The slots of the next `n` numbers are all allocated, full and different. -/
def GapFree (cfg : HostCfg) (s : RxBaSession) (n : ℕ) : Prop :=
  ∀ k < n, s.slot (s.headSeqNum + k) < cfg.ampduRxBufSize ∧
    (s.reorderBuf (s.slot (s.headSeqNum + k))).isSome ∧
    ∀ k' < k, s.slot (s.headSeqNum + k') ≠ s.slot (s.headSeqNum + k)

instance (cfg : HostCfg) (s : RxBaSession) (n : ℕ) : Decidable (GapFree cfg s n) :=
  inferInstanceAs (Decidable (∀ k < n, _ ∧ _ ∧ _))

/-- What the session must look like for an operation to read no absent frame. -/
def Ready (cfg : HostCfg) (s : RxBaSession) : SessOp → Prop
  | .frame _ f =>
    s.bufSize = 0 ∨ seqLess f.seqNum s.headSeqNum ∨
      seqLess f.seqNum ((s.headSeqNum + s.bufSize) % 65536) ∨
      GapFree cfg s (s.passes (seqInc (seqSub f.seqNum s.bufSize)))
  | .bar _ start => s.bufSize = 0 ∨ GapFree cfg s (s.passes start)
  | .timer _ => True
  | .addba _ _ _ => ∀ i < cfg.ampduRxBufSize, (s.reorderBuf i).isSome
  | .delete _ => ∀ i < cfg.ampduRxBufSize, (s.reorderBuf i).isSome

/-! ## Releases -/

theorem readPresent_release {cfg : HostCfg} (env : Env) (s : RxBaSession) (index head head' : ℕ) :
    RxEvent.ReadPresent cfg
        (.step (some index) head head' (releaseReorderFrame env s index).2)
      ↔ (s.reorderBuf index).isSome ∧ index < cfg.ampduRxBufSize := by
  rw [RxEvent.ReadPresent, ne_eq, release_out_eq_absent_iff, ← ne_eq, Option.isSome_iff_ne_none]

/-- The slot of the number behind the head of the next session is two behind the head of this one.
-/
theorem release_slot_add (env : Env) (s : RxBaSession) (index k : ℕ) :
    (releaseReorderFrame env s index).1.slot
        ((releaseReorderFrame env s index).1.headSeqNum + k)
      = s.slot (s.headSeqNum + (k + 1)) := by
  have hnum : (seqInc s.headSeqNum + k) % 4096 = (s.headSeqNum + (k + 1)) % 4096 := by
    simp only [seqInc]
    omega
  rw [releaseReorderFrame_slot, releaseReorderFrame_headSeqNum, RxBaSession.slot, RxBaSession.slot,
    seqSub_congr hnum rfl]

/-- The gap-free stretch in front of the head, one number at a time. -/
theorem gapFree_succ {cfg : HostCfg} (env : Env) (s : RxBaSession) (n : ℕ) :
    GapFree cfg s (n + 1)
      ↔ ((s.reorderBuf (s.slot s.headSeqNum)).isSome ∧
          s.slot s.headSeqNum < cfg.ampduRxBufSize) ∧
        GapFree cfg (releaseReorderFrame env s (s.slot s.headSeqNum)).1 n := by
  -- after the release, a full slot is one that was full and is not the slot of the head
  have hslot : ∀ i, ((releaseReorderFrame env s (s.slot s.headSeqNum)).1.reorderBuf i).isSome
      ↔ i ≠ s.slot s.headSeqNum ∧ (s.reorderBuf i).isSome := by
    intro i
    rw [releaseReorderFrame_reorderBuf, Function.update_apply]
    split <;> simp_all
  simp only [GapFree, release_slot_add, hslot]
  constructor
  · intro h
    have hzero := h 0 (by omega)
    rw [Nat.add_zero] at hzero
    refine ⟨⟨hzero.2.1, hzero.1⟩, fun k hk => ?_⟩
    obtain ⟨halloc, hfull, hdiff⟩ := h (k + 1) (by omega)
    refine ⟨halloc, ⟨?_, hfull⟩, fun k' hk' => hdiff (k' + 1) (by omega)⟩
    have hne := hdiff 0 (by omega)
    rw [Nat.add_zero] at hne
    exact hne.symm
  · rintro ⟨⟨hfull, halloc⟩, hrest⟩ k hk
    rcases k with _ | k
    · rw [Nat.add_zero]
      exact ⟨halloc, hfull, fun k' hk' => by omega⟩
    · obtain ⟨halloc', ⟨hne, hfull'⟩, hdiff⟩ := hrest k (by omega)
      refine ⟨halloc', hfull', fun k' hk' => ?_⟩
      rcases k' with _ | k'
      · rw [Nat.add_zero]
        exact hne.symm
      · exact hdiff k' (by omega)

theorem passes_release (env : Env) {s : RxBaSession} {target : ℕ}
    (h : seqLess s.headSeqNum target = true) (index : ℕ) :
    s.passes target = (releaseReorderFrame env s index).1.passes target + 1 := by
  simp only [RxBaSession.passes, releaseReorderFrame_headSeqNum, h, if_true]
  rw [seqLess_eq_true] at h
  split
  · simp only [seqSub, seqInc] at *
    omega
  · rename_i hend
    simp only [Bool.not_eq_true, seqLess_eq_false, seqSub, seqInc] at *
    omega

theorem passes_le (s : RxBaSession) (target : ℕ) : s.passes target ≤ 4096 := by
  rw [RxBaSession.passes]
  split
  · exact (seqSub_lt _ _).le
  · omega

/-- The window loop reads the slots of the numbers it passes. -/
theorem readsPresent_releaseReorderFramesLoop {cfg : HostCfg} (env : Env) (target fuel : ℕ)
    (s : RxBaSession) (hfuel : s.passes target ≤ fuel) :
    ReadsPresent cfg (releaseReorderFramesLoop env target fuel s).2
      ↔ GapFree cfg s (s.passes target) := by
  induction fuel generalizing s with
  | zero =>
    have hzero : s.passes target = 0 := by omega
    simp [releaseReorderFramesLoop, hzero, GapFree]
  | succ fuel ih =>
    rw [releaseReorderFramesLoop]
    split
    · rename_i hless
      have hpass := passes_release env hless (s.slot s.headSeqNum)
      rw [hpass, gapFree_succ env, readsPresent_cons, readPresent_release, ih _ (by omega)]
    · rename_i hless
      simp [RxBaSession.passes, hless, GapFree]

theorem readsPresent_releaseReorderFrames {cfg : HostCfg} (env : Env) (s : RxBaSession)
    (target : ℕ) :
    ReadsPresent cfg (releaseReorderFrames env s target).2 ↔ GapFree cfg s (s.passes target) :=
  readsPresent_releaseReorderFramesLoop env target seqModulo s (passes_le s target)

/-- The flush reads every slot it walks. -/
theorem readsPresent_flushLoop {cfg : HostCfg} (env : Env) (count index : ℕ) (s : RxBaSession)
    (hfit : index + count ≤ cfg.ampduRxBufSize) :
    ReadsPresent cfg (flushLoop env count index s).2
      ↔ ∀ i, index ≤ i → i < index + count → (s.reorderBuf i).isSome := by
  induction count generalizing index s with
  | zero =>
    simp only [flushLoop, readsPresent_nil, true_iff]
    omega
  | succ count ih =>
    rw [flushLoop, readsPresent_cons, readPresent_release, ih _ _ (by omega)]
    have hother : ∀ i, index + 1 ≤ i →
        (releaseReorderFrame env s index).1.reorderBuf i = s.reorderBuf i := by
      intro i hi
      rw [releaseReorderFrame_reorderBuf, Function.update_of_ne (by omega)]
    constructor
    · rintro ⟨⟨hfull, -⟩, hrest⟩ i hle hlt
      rcases Nat.eq_or_lt_of_le hle with rfl | hgt
      · exact hfull
      · rw [← hother i hgt]
        exact hrest i hgt (by omega)
    · intro h
      refine ⟨⟨h index le_rfl (by omega), by omega⟩, fun i hle hlt => ?_⟩
      rw [hother i hle]
      exact h i (by omega) (by omega)

/-! ## The loops that look first -/

/-- The timeout loop releases full slots of the ring only. -/
theorem readsPresent_timeoutLoop {cfg : HostCfg} (env : Env) (index fuel : ℕ) {s : RxBaSession}
    (hb : 0 < s.bufSize) (hfit : s.bufSize ≤ cfg.ampduRxBufSize) {j : ℕ} (hj : j < s.bufSize)
    (skipped : ℕ) : ReadsPresent cfg (timeoutLoop env index fuel s j skipped).2 := by
  induction fuel generalizing s j skipped with
  | zero => exact readsPresent_nil cfg
  | succ fuel ih =>
    rw [timeoutLoop]
    split
    · exact readsPresent_nil cfg
    split
    · exact ih hb hfit (Nat.mod_lt _ hb) _
    rename_i hfull
    split
    · exact readsPresent_nil cfg
    · rw [readsPresent_cons, readPresent_release]
      refine ⟨⟨by simpa [← Option.isSome_iff_ne_none] using hfull, by omega⟩, ?_⟩
      exact ih (by simpa using hb) (by simpa using hfit) (by simpa using Nat.mod_lt _ hb) _

theorem readsPresent_inOrderLoop {cfg : HostCfg} (env : Env) (fuel : ℕ) {s : RxBaSession}
    (hb : 0 < s.bufSize) (hfit : s.bufSize ≤ cfg.ampduRxBufSize) :
    ReadsPresent cfg (inOrderLoop env fuel s).2 := by
  induction fuel generalizing s with
  | zero => exact readsPresent_nil cfg
  | succ fuel ih =>
    rw [inOrderLoop]
    dsimp only
    split
    · rename_i hfull
      have hslot : s.slot s.headSeqNum < s.bufSize := Nat.mod_lt _ hb
      rw [readsPresent_cons, readPresent_release]
      exact ⟨⟨hfull, by omega⟩, ih (by simpa using hb) (by simpa using hfit)⟩
    · exact readsPresent_nil cfg

theorem readsPresent_staReorderRelease {cfg : HostCfg} (env : Env) {s : RxBaSession}
    (hb : 0 < s.bufSize) (hfit : s.bufSize ≤ cfg.ampduRxBufSize) :
    ReadsPresent cfg (staReorderRelease env s).2 := by
  rw [staReorderRelease]
  split
  · exact readsPresent_timeoutLoop env _ _ hb hfit (Nat.mod_lt _ hb) _
  · exact readsPresent_inOrderLoop env _ hb hfit

/-! ## Operations and runs -/

/-- Making room reads the slots of the numbers it passes, if it moves the window at all. -/
theorem readsPresent_makeRoom {cfg : HostCfg} (env : Env) (s : RxBaSession) (mpduSeqNum : ℕ) :
    ReadsPresent cfg (makeRoom env s mpduSeqNum).2
      ↔ seqLess mpduSeqNum ((s.headSeqNum + s.bufSize) % 65536) ∨
        GapFree cfg s (s.passes (seqInc (seqSub mpduSeqNum s.bufSize))) := by
  rw [makeRoom]
  split
  · rename_i hless
    simp [hless]
  · rename_i hless
    rw [readsPresent_releaseReorderFrames]
    simp [hless]

/-- A frame reads what making room for it reads; what is released behind it is there. -/
theorem readsPresent_rxSession {cfg : HostCfg} (env : Env) {s : RxBaSession} (h : Sound cfg s)
    (f : RxFrame) :
    ReadsPresent cfg (rxSession env s f).2
      ↔ s.bufSize = 0 ∨ seqLess f.seqNum s.headSeqNum ∨
        ReadsPresent cfg (makeRoom env s f.seqNum).2 := by
  have hn : cfg.ampduRxBufSize < 65536 := by
    have := cfg.ampduRxBufSize_lt
    omega
  have hsize := (conserves_makeRoom hn env h.stocked f.seqNum).bufSize
  have hfit := h.bufSize_le
  rw [rxSession]
  split
  · rename_i hzero
    simp [hzero, RxEvent.ReadPresent]
  rename_i hlive
  rw [staManageReorderBuf]
  split
  · rename_i hold
    simp [hold, RxEvent.ReadPresent]
  rename_i hold
  simp only [hlive, hold, Bool.false_eq_true, false_or]
  split
  · simp [RxEvent.ReadPresent]
  split
  · simp [RxEvent.ReadPresent]
  · have hrel : ReadsPresent cfg (staReorderRelease env (storeFrame env (makeRoom env s f.seqNum).1
        ((makeRoom env s f.seqNum).1.slot f.seqNum) f)).2 := by
      refine readsPresent_staReorderRelease env ?_ ?_
      · show 0 < (makeRoom env s f.seqNum).1.bufSize
        omega
      · show (makeRoom env s f.seqNum).1.bufSize ≤ cfg.ampduRxBufSize
        omega
    simp [hrel]

/-- An operation on a session that fits its buffer reads no absent frame exactly if the session is
ready for it. -/
theorem readsPresent_sessStep {cfg : HostCfg} {s : RxBaSession} (h : Sound cfg s) (op : SessOp) :
    ReadsPresent cfg (sessStep cfg s op).2 ↔ Ready cfg s op := by
  cases op with
  | frame env f =>
    simp only [sessStep, Ready]
    rw [readsPresent_rxSession env h, readsPresent_makeRoom]
  | bar env start =>
    simp only [sessStep, rxBar, Ready]
    split
    · rename_i hzero
      simp [hzero]
    · rename_i hlive
      rw [readsPresent_releaseReorderFrames]
      simp [hlive]
  | timer env =>
    simp only [sessStep, timerRelease, Ready, iff_true]
    split
    · exact readsPresent_nil cfg
    · exact readsPresent_staReorderRelease env (by omega) h.bufSize_le
  | addba env ssn bufSize =>
    simp only [sessStep, addbaSession, flushSession, Ready]
    rw [readsPresent_flushLoop env _ _ _ (by omega)]
    simp
  | delete env =>
    simp only [sessStep, deleteSession, flushSession, Ready]
    rw [readsPresent_flushLoop env _ _ _ (by omega)]
    simp

/-- The same for a whole run. -/
theorem readsPresent_sessRun {cfg : HostCfg} {s : RxBaSession} (h : Sound cfg s)
    (ops : List SessOp) (hops : ∀ op ∈ ops, op.Fits cfg) :
    ReadsPresent cfg (sessRun cfg s ops).2 ↔ Machine.Meets (sessStep cfg) (Ready cfg) s ops := by
  induction ops generalizing s with
  | nil => simp [Machine.Meets]
  | cons op ops ih =>
    have hstep := (sessStep_conserves h op (hops op (by simp))).1
    simp only [Machine.run_cons, readsPresent_append, Machine.Meets]
    rw [readsPresent_sessStep h, ih hstep fun o ho => hops o (by simp [ho])]

/-- A session with more slots than were allocated reads behind them as soon as a BAR moves its
window that far. -/
theorem not_readsPresent_of_oversize {cfg : HostCfg} {s : RxBaSession} {ssn b : ℕ} (env : Env)
    (he : EmptyAt ssn b ssn s) (hb : cfg.ampduRxBufSize < b) :
    ¬ ReadsPresent cfg (rxBar env s ((ssn + (cfg.ampduRxBufSize + 1)) % 4096)).2 := by
  have hcfg := cfg.ampduRxBufSize_lt
  have hhead := he.head
  rw [rxBar, if_neg (by rw [he.bufSize]; omega), readsPresent_releaseReorderFrames]
  have hpass : s.passes ((ssn + (cfg.ampduRxBufSize + 1)) % 4096) = cfg.ampduRxBufSize + 1 := by
    rw [RxBaSession.passes, if_pos (by simp only [seqLess_eq_true, seqSub]; omega)]
    exact seqSub_eq_of_add (by omega) (by omega)
  intro hgap
  have hlast := (hgap cfg.ampduRxBufSize (by omega)).1
  have hslot : s.slot (s.headSeqNum + cfg.ampduRxBufSize) = cfg.ampduRxBufSize := by
    rw [RxBaSession.slot, he.ssn, he.bufSize,
      seqSub_eq_of_add (d := cfg.ampduRxBufSize) (by omega) (by omega), Nat.mod_eq_of_lt hb]
  omega

/-- **Absent frames are read exactly where the session is not ready.** From every state a session
can be in, a run of operations reads only descriptors of stored frames in allocated slots if and
only if every operation finds the session ready: a BAR or a frame beyond the window finds the slots
the head moves over full, allocated and different, a re-ADDBA or a deletion finds the whole
configured buffer full. An ADDBA that asks for more slots than are allocated lets a BAR read behind
them. -/
theorem reads_present_iff_ready (cfg : HostCfg) (hist : List SessOp)
    (hhist : ∀ op ∈ hist, op.Fits cfg) :
    (∀ ops : List SessOp, (∀ op ∈ ops, op.Fits cfg) →
      (ReadsPresent cfg (sessRun cfg (sessRun cfg RxBaSession.zero hist).1 ops).2
        ↔ Machine.Meets (sessStep cfg) (Ready cfg) (sessRun cfg RxBaSession.zero hist).1 ops)) ∧
      ∀ (env env' : Env) (ssn b : ℕ), cfg.ampduRxBufSize < b →
        ∃ start < 4096, ¬ ReadsPresent cfg (sessRun cfg (sessRun cfg RxBaSession.zero hist).1
          [.addba env ssn b, .bar env' start]).2 := by
  have hsound := sound_sessRun (sound_zero cfg) hist hhist
  refine ⟨fun ops hops => readsPresent_sessRun hsound ops hops, fun env env' ssn b hb => ?_⟩
  refine ⟨(ssn + (cfg.ampduRxBufSize + 1)) % 4096, Nat.mod_lt _ (by decide), ?_⟩
  have hover := not_readsPresent_of_oversize env' (emptyAt_addbaSession hsound env ssn b) hb
  simp only [Machine.run_cons, Machine.run_nil, sessStep, List.append_nil, readsPresent_append]
  exact fun h => hover h.2

/-- A frame waits two places ahead and a BAR has moved the head up to it: the next BAR finds it. -/
theorem reads_present_after_gap :
    ReadsPresent .default (sessRun .default (sessRun .default RxBaSession.zero
      [.addba .ap 0 64, .frame .ap (.data 0 2), .bar .ap 2]).1 [.bar .ap 3]).2 := by
  refine ((reads_present_iff_ready .default
    [.addba .ap 0 64, .frame .ap (.data 0 2), .bar .ap 2]
    (by simp [SessOp.Fits, HostCfg.default])).1 [.bar .ap 3] (by simp [SessOp.Fits])).mpr
    ⟨Or.inr ?_, trivial⟩
  decide +kernel

/-- A second ADDBA reads the descriptor of slot 0, which is empty. -/
theorem addba_reads_absent :
    ¬ ReadsPresent .default (sessRun .default (sessRun .default RxBaSession.zero
      [.addba .ap 0 64]).1 [.addba .ap 0 64]).2 := by
  decide +kernel

end Fullmac.Rx
