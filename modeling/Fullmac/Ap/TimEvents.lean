import Fullmac.Ap.TimFrames

/-!
# Which events keep the traffic indication truthful

`ShowsTruth` goes through the events of the host and says, of the state before each, when the map is
truthful after it. The map is truthful in every state of a run whose events all meet it
(`hostRun_timTruthful`).

Most events need nothing. A station that leaves awake must have no frames in the firmware. A station
that associates may have frames only if it had its AID before, and the new list of queues that do
not count must make no difference. A report of the firmware must come with a recomputation, or make
no difference, and so must the frames that other stations lose when the pool is full.
-/

namespace Fullmac.Ap

variable {cfg : ApCfg} {s s' : ApInfo cfg} {i : StaIdx cfg}

/-! ## Requests -/

/-- An authentication request changes one flag and the challenge. -/
theorem authenticate_cases (st : Station cfg) (r : AuthReq) :
    ∃ a c, (authenticate st r).2 = { st with auth := a, challenge := c } := by
  unfold authenticate authSharedKey
  split_ifs
  · exact ⟨_, _, rfl⟩
  · split <;> exact ⟨_, _, rfl⟩
  · exact ⟨_, _, rfl⟩
  · exact ⟨_, _, rfl⟩
  · exact ⟨_, _, rfl⟩

theorem authenticate_signal (st : Station cfg) (r : AuthReq) :
    (authenticate st r).2.signal = st.signal := by
  obtain ⟨a, c, he⟩ := authenticate_cases st r
  rw [he]
  rfl

theorem Station.Quiet.authenticate {st : Station cfg} (h : st.Quiet) (r : AuthReq) :
    (authenticate st r).2.Quiet := by
  obtain ⟨a, c, he⟩ := authenticate_cases st r
  rw [he]
  exact h

theorem TimInv.authenticate (h : TimInv s) (hv : (s.sta i).valid = true) (r : AuthReq) :
    TimInv (s.modSta i fun _ => (authenticate (s.sta i) r).2) :=
  ⟨tableInv_kept.authenticate h.table hv r, psInv_kept.authenticate h.ps hv r,
    h.tim.modSta (authenticate_signal _ r)⟩

/-- A known station that fails to authenticate is quiet, and so is one that makes room for a new
one. -/
def AuthShows (s : ApInfo cfg) (r : AuthReq) : Prop :=
  r.longEnough = true → authStatus cfg r = .success →
    (∀ i, findStaByAddr s r.sa = some i → (authenticate (s.sta i) r).1 ≠ .success →
      (s.sta i).Quiet) ∧
    (findStaByAddr s r.sa = none → EvictsQuiet s)

theorem TimInv.mlmeRxAuth (h : TimInv s) {r : AuthReq} (hr : AuthShows s r) :
    TimInv (mlmeRxAuth s r).1 := by
  unfold Ap.mlmeRxAuth
  split_ifs with hlong hstatus
  · exact h
  · exact h.sendMgmtFrame _
  rw [Bool.not_eq_true', Bool.not_eq_false] at hlong
  obtain ⟨hknown, hnew⟩ := hr hlong (not_not.mp hstatus)
  have hadd : TimInv (Ap.apStaInfoAdd s r.sa).2 := h.apStaInfoAdd r.sa hnew
  -- authentication, and the end of a station that fails
  have htail : ∀ {s : ApInfo cfg} {i : StaIdx cfg}, TimInv s → (s.sta i).valid = true →
      ((Ap.authenticate (s.sta i) r).1 ≠ .success → (s.sta i).Quiet) →
      TimInv (if (Ap.authenticate (s.sta i) r).1 = .success
        then s.modSta i fun _ => (Ap.authenticate (s.sta i) r).2
        else Ap.apStaInfoFree (s.modSta i fun _ => (Ap.authenticate (s.sta i) r).2) i) := by
    intro s i hs hv hq
    have hauth := hs.authenticate hv r
    split
    · exact hauth
    · next hfail =>
      refine hauth.apStaInfoFree fun _ => ?_
      rw [modSta_sta_self]
      exact (hq hfail).authenticate r
  rcases apStaInfoAdd_cases s r.sa with ⟨i, hi, he⟩ | ⟨-, -, he⟩ | ⟨i, hnone, hi, he⟩ <;>
    rw [he] at hadd ⊢
  · exact (htail h (findStaByAddr_valid hi) (hknown i hi)).sendMgmtFrame _
  · exact hadd.sendMgmtFrame _
  · -- a new station has no AID
    have hself := takeSlot_sta_self (Ap.evictSilent s) i r.sa
    have haid := ((h.evictSilent (hnew hnone)).table.blank i (getNewSta_valid hi)).2.1
    refine (htail hadd (by rw [hself]) fun _ => .inl ?_).sendMgmtFrame _
    rw [hself]
    exact haid

theorem checkAssocIes_aid (st : Station cfg) (elems : Option Elems) :
    (checkAssocIes st elems).2.aid = st.aid := by
  have h := congrArg Station.aid (checkAssocIes_untold st elems)
  exact h

theorem checkAssocIes_valid (st : Station cfg) (elems : Option Elems) :
    (checkAssocIes st elems).2.valid = st.valid := by
  have h := congrArg Station.valid (checkAssocIes_untold st elems)
  exact h

theorem checkAssocIes_psSta (st : Station cfg) (elems : Option Elems) :
    (checkAssocIes st elems).2.psSta = st.psSta := by
  have h := congrArg Station.psSta (checkAssocIes_untold st elems)
  exact h

/-- A station that may associate. -/
def AssocReq.Accepted (r : AssocReq) (st : Station cfg) : Prop :=
  r.tkipCountermeasures = false ∧ r.listenInterval ≤ maxListenInterval ∧
    (checkAssocIes st r.elems).1 = .success

instance (r : AssocReq) (st : Station cfg) : Decidable (r.Accepted st) :=
  inferInstanceAs (Decidable (_ ∧ _ ∧ _))

/-- The station has an AID, or there is one that nobody has. -/
def ApInfo.HasAid (s : ApInfo cfg) (i : StaIdx cfg) : Prop :=
  0 < (s.sta i).aid ∨ ∃ j < 32, s.staAid j = false

instance (s : ApInfo cfg) (i : StaIdx cfg) : Decidable (s.HasAid i) :=
  inferInstanceAs (Decidable (_ ∨ _))

theorem hostapdGetAid_eq_none_iff : hostapdGetAid s i = none ↔ ¬s.HasAid i := by
  unfold hostapdGetAid ApInfo.HasAid
  by_cases haid : 0 < (s.sta i).aid
  · simp [haid]
  · cases hfind : (List.range 32).find? fun j => !s.staAid j with
    | none =>
      have hall := List.find?_eq_none.mp hfind
      simpa [haid] using hall
    | some j =>
      have hmem := List.mem_of_find?_eq_some hfind
      have hfree := List.find?_some hfind
      simp only [haid, reduceCtorEq, false_or, false_iff, not_not, if_false]
      exact ⟨j, List.mem_range.mp hmem, by simpa using hfree⟩

/-- A request is accepted exactly when it passes the checks and there is an AID. -/
theorem tryAssoc_success_iff (s : ApInfo cfg) (i : StaIdx cfg) (r : AssocReq) :
    (tryAssoc s i r).1 = .success ↔ r.Accepted (s.sta i) ∧ s.HasAid i := by
  -- reading the elements takes no AID
  have haid : (s.modSta i fun _ => (checkAssocIes (s.sta i) r.elems).2).HasAid i ↔ s.HasAid i := by
    unfold ApInfo.HasAid
    rw [modSta_sta_self, checkAssocIes_aid]
    rfl
  unfold tryAssoc AssocReq.Accepted
  by_cases hmic : r.tkipCountermeasures = true
  · simp [hmic]
  by_cases hlisten : maxListenInterval < r.listenInterval
  · simp [hmic, hlisten, Nat.not_le_of_lt hlisten]
  by_cases hok : (checkAssocIes (s.sta i) r.elems).1 = .success
  · cases hget : hostapdGetAid (s.modSta i fun _ => (checkAssocIes (s.sta i) r.elems).2) i with
    | none =>
      have hnone : ¬s.HasAid i := fun h => hostapdGetAid_eq_none_iff.mp hget (haid.mpr h)
      simp [hmic, hlisten, hok, hget, hnone]
    | some s' =>
      have hsome : s.HasAid i := by
        by_contra hno
        rw [← haid, ← hostapdGetAid_eq_none_iff, hget] at hno
        cases hno
      simp [hmic, hlisten, hok, hget, hsome, Nat.le_of_not_lt hlisten]
  · simp [hmic, hlisten, hok]

/-- A station is refused because of its request, or because there is no AID for it. -/
theorem tryAssoc_refused {r : AssocReq} (h : (tryAssoc s i r).1 ≠ .success)
    (haccept : r.Accepted (s.sta i)) : (s.sta i).aid = 0 := by
  by_contra haid
  exact h ((tryAssoc_success_iff s i r).mpr ⟨haccept, .inl (Nat.pos_of_ne_zero haid)⟩)

theorem tryAssoc_accepted {r : AssocReq} (h : (tryAssoc s i r).1 = .success) :
    r.Accepted (s.sta i) :=
  ((tryAssoc_success_iff s i r).mp h).1

/-- A station gets an AID that is not in use, if it has none. -/
theorem hostapdGetAid_cases (h : hostapdGetAid s i = some s') :
    (∀ j, j ≠ i → s'.sta j = s.sta j) ∧ s'.tim = s.tim ∧
      ∃ n, s'.sta i = { s.sta i with aid := n } ∧
        ((s.sta i).aid ≠ 0 ∧ n = (s.sta i).aid ∨
          (s.sta i).aid = 0 ∧ ∃ k, s.staAid k = false ∧ n = k + 1) := by
  unfold hostapdGetAid at h
  split at h
  · next hpos =>
    cases h
    exact ⟨fun _ _ => rfl, rfl, _, rfl, .inl ⟨Nat.pos_iff_ne_zero.mp hpos, rfl⟩⟩
  · next hpos =>
    split at h
    · cases h
    · next k hk =>
      cases h
      have hfree : s.staAid k = false := by simpa using List.find?_some hk
      exact ⟨fun j hj => modSta_sta_of_ne _ _ hj, rfl, _, modSta_sta_self _ _ _,
        .inr ⟨by omega, k, hfree, rfl⟩⟩

/-- Nothing that the map is about changes. -/
structure Unmoved (i : StaIdx cfg) (s s' : ApInfo cfg) : Prop where
  others : ∀ j, j ≠ i → s'.sta j = s.sta j
  self : (s'.sta i).signal = (s.sta i).signal
  tim : s'.tim = s.tim

theorem Unmoved.modSta {s₀ : ApInfo cfg} (h : Unmoved i s₀ s) {f : Station cfg → Station cfg}
    (hf : (f (s.sta i)).signal = (s.sta i).signal) : Unmoved i s₀ (s.modSta i f) := by
  refine ⟨fun j hj => (modSta_sta_of_ne _ _ hj).trans (h.others j hj), ?_, h.tim⟩
  rw [modSta_sta_self, hf]
  exact h.self

theorem setCounted_tim (s : ApInfo cfg) (i : StaIdx cfg) (c : Counted) :
    (setCounted s i c).tim = s.tim := by
  unfold setCounted
  split <;> rfl

/-- What is recorded of an accepted station does not concern the map. -/
theorem recordAssoc_unmoved (s : ApInfo cfg) (i : StaIdx cfg) (r : AssocReq) :
    Unmoved i s (recordAssoc s i r) := by
  refine recordAssoc_rule (P := fun s' => Unmoved i s s') (Q := fun s' => Unmoved i s s')
    (fun h hcore hwait => h.modSta (signal_of_core hcore hwait)) (fun {s'} h c => ?_)
    (fun h => h.modSta rfl) (fun {s'} h => ?_) (fun h => h.modSta rfl)
    ⟨fun _ _ => rfl, rfl, rfl⟩ r
  · refine ⟨fun j hj => (setCounted_sta_of_ne s' c hj).trans (h.others j hj), ?_,
      (setCounted_tim s' i c).trans h.tim⟩
    rw [setCounted_sta_self]
    exact h.self
  · exact ⟨fun j hj => (apStaSetAuthorized_sta_of_ne s' true hj).trans (h.others j hj),
      (apStaSetAuthorized_signal s' i true i).trans h.self,
      (apStaSetAuthorized_tim s' i true).trans h.tim⟩

/-- A station that is accepted has frames waiting only if it had its AID before and they counted
then. -/
def AssocReq.Fits (r : AssocReq) (st : Station cfg) : Prop :=
  indicateTim (checkAssocIes st r.elems).2 = (decide (st.aid ≠ 0) && indicateTim st)

theorem TimInv.tryAssoc (h : TimInv s) (hv : (s.sta i).valid = true)
    (hauth : (s.sta i).auth = true) {r : AssocReq} (hok : (tryAssoc s i r).1 = .success)
    (hfits : r.Fits (s.sta i)) : TimInv (tryAssoc s i r).2 := by
  refine ⟨tableInv_kept.tryAssoc h.table hv hauth r, psInv_kept.tryAssoc h.ps hv hauth r, ?_⟩
  rcases tryAssoc_cases s i r with ⟨hne, -⟩ | ⟨s', hget, he⟩
  · exact absurd hok hne
  rw [he]
  set st := (checkAssocIes (s.sta i) r.elems).2
  obtain ⟨hothers', htim', n, hself', hn⟩ := hostapdGetAid_cases hget
  obtain ⟨hothers, hself, htim⟩ := recordAssoc_unmoved s' i r
  rw [modSta_sta_self] at hself' hn
  rw [hself'] at hself
  have hvalid : ((recordAssoc s' i r).sta i).valid = (s.sta i).valid :=
    (congrArg Signal.valid hself).trans (checkAssocIes_valid (s.sta i) r.elems)
  have haid : ((recordAssoc s' i r).sta i).aid = n := congrArg Signal.aid hself
  have hwait : indicateTim ((recordAssoc s' i r).sta i) = indicateTim st :=
    congrArg Signal.waiting hself
  have hst : st.aid = (s.sta i).aid := checkAssocIes_aid _ _
  rw [hst] at hn
  refine h.tim.change h.table (i := i) (fun j hj => ?_) (fun a _ => ?_) (fun _ _ => ?_) fun ha => ?_
  · rw [apSocCmdStaOper_sta, hothers j hj, hothers' j hj, modSta_sta_of_ne _ _ hj]
  · rw [apSocCmdStaOper_tim, htim, htim']
    rfl
  · rw [Shown, apSocCmdStaOper_sta, apSocCmdStaOper_tim, haid, hwait, htim, htim', hfits]
    change s.tim n = _
    rcases hn with ⟨ha, rfl⟩ | ⟨ha, k, hfree, rfl⟩
    · rw [decide_eq_true ha, Bool.true_and]
      exact h.tim.shown i hv ha
    · -- nobody has the new AID, so its bit is clear
      rw [decide_eq_false (not_not.mpr ha), Bool.false_and]
      refine h.tim.unheld _ (Nat.succ_ne_zero k) fun j _ hj => ?_
      have hused : s.staAid k = true := (h.table.staAid k).mpr ⟨j, hj⟩
      exact absurd (hused.symm.trans hfree) (by simp)
  · rw [apSocCmdStaOper_sta, hvalid, haid]
    rcases hn with ⟨-, hn⟩ | ⟨h0, -⟩
    · exact .inl ⟨hv, hn⟩
    · exact absurd h0 ha

/-- A known station that asks to associate is quiet if it is refused. -/
def AssocShows (s : ApInfo cfg) (r : AssocReq) : Prop :=
  r.longEnough = true → ∀ i, findStaByAddr s r.sa = some i → (s.sta i).auth = true →
    if r.Accepted (s.sta i) then r.Fits (s.sta i) else (s.sta i).Quiet

theorem TimInv.handleAssoc (h : TimInv s) {r : AssocReq} (hr : AssocShows s r) :
    TimInv (handleAssoc s r).1 := by
  unfold Ap.handleAssoc
  extract_lets notAuthed
  have hnot : TimInv notAuthed := by
    dsimp only [notAuthed]
    split
    · exact h.sendMgmtFrame _
    · exact h
  split_ifs with hlong
  · exact h
  rw [Bool.not_eq_true', Bool.not_eq_false] at hlong
  split
  · exact hnot
  next i hi =>
  split_ifs with hauth
  · exact hnot
  rw [Bool.not_eq_true', Bool.not_eq_false] at hauth
  have hc := hr hlong i hi hauth
  have hv := findStaByAddr_valid hi
  extract_lets t s₁ st
  have h₁ : TimInv s₁ := by
    dsimp only [s₁]
    split
    · next hok =>
      rw [if_pos (tryAssoc_accepted hok)] at hc
      exact h.tryAssoc hv hauth hok hc
    · next hrefused =>
      have hq : (s.sta i).Quiet := by
        by_cases haccept : r.Accepted (s.sta i)
        · exact .inl (tryAssoc_refused hrefused haccept)
        · rwa [if_neg haccept] at hc
      refine ⟨tableInv_kept.apStaInfoFree (tableInv_kept.tryAssoc h.table hv hauth r) i,
        psInv_kept.apStaInfoFree (psInv_kept.tryAssoc h.ps hv hauth r) i, ?_⟩
      rcases tryAssoc_cases s i r with ⟨-, he | he⟩ | ⟨s', -, he⟩
      · dsimp only [t]
        rw [he]
        exact (h.apStaInfoFree fun _ => hq).tim
      · dsimp only [t]
        rw [he]
        exact h.leave hv hq (checkAssocIes_valid _ _) (checkAssocIes_aid _ _)
          (checkAssocIes_psSta _ _)
      · exact absurd (congrArg Prod.fst he) hrefused
  exact h₁.sendMgmtFrame _

theorem TimInv.mlmeRxDisassoc (h : TimInv s) {sa : EtherAddr}
    (hq : ∀ i, findStaByAddr s sa = some i → (s.sta i).Quiet) : TimInv (mlmeRxDisassoc s sa) := by
  unfold Ap.mlmeRxDisassoc
  split
  · exact h
  · next i hi =>
    exact (h.changeStaDisassocToDeauth i true).apStaInfoFree fun _ =>
      (hq i hi).changeStaDisassocToDeauth true

theorem TimInv.mlmeRxDeauth (h : TimInv s) {sa : EtherAddr}
    (hq : ∀ i, findStaByAddr s sa = some i → (s.sta i).Quiet) : TimInv (mlmeRxDeauth s sa) := by
  unfold Ap.mlmeRxDeauth
  split
  · exact h
  · next i hi =>
    extract_lets s₁
    have hauth := apStaSetAuthorized_authorized s i false
    have hwithdraw := h.withdraw i
    have h₁ : TimInv s₁ := ⟨tableInv_kept.clearAuth hwithdraw.table hauth,
      psInv_kept.clearAuth hwithdraw.ps hauth, hwithdraw.tim.modSta rfl⟩
    refine h₁.apStaInfoFree fun _ => ?_
    dsimp only [s₁]
    rw [modSta_sta_self, apStaSetAuthorized_sta_self]
    exact hq i hi

/-! ## Timer -/

theorem timerForgives_cases (st : Station cfg) (inactive : ℤ) :
    ∃ t, (timerForgives st inactive).2 = { st with timeoutNext := t } := by
  have hactive : ∀ (p : Prop) [Decidable p],
      ∃ t, (if p then { st with timeoutNext := .nullfunc } else st)
        = { st with timeoutNext := t } := by
    intro p _
    split
    · exact ⟨_, rfl⟩
    · exact ⟨_, rfl⟩
  unfold timerForgives
  extract_lets waiting active st'
  obtain ⟨t, ht⟩ := hactive active
  have hst' : st' = { st with timeoutNext := t } := ht
  split_ifs
  · exact ⟨_, by rw [hst']⟩
  · exact ⟨t, hst'⟩

/-- The third stage of a timeout needs a quiet station. -/
theorem TimInv.timerEscalates (h : TimInv s) (hv : (s.sta i).valid = true)
    (hq : (s.sta i).timeoutNext = .deauth ∨ (s.sta i).timeoutNext = .remove → (s.sta i).Quiet) :
    TimInv (timerEscalates s i) := by
  unfold Ap.timerEscalates
  extract_lets st s₁ s₂ s₃
  have h₁ : TimInv s₁ := h.modSta hv rfl rfl
  have h₂ : TimInv s₂ := h.sendMgmtFrame _
  have h₃ : TimInv s₃ := h₂.changeStaDisassocToDeauth i false
  have hq₂ : (s.sta i).Quiet → TimInv (Ap.apStaInfoFree s₂ i) := by
    intro hquiet
    refine h₂.apStaInfoFree fun _ => ?_
    dsimp only [s₂]
    rwa [sendMgmtFrame_sta]
  split_ifs
  · exact h₁.setDrv _
  · split
    · exact (h₂.setTimeout i .disassoc).setDrv _
    · exact (h₃.setTimeout i .deauth).setDrv _
    · next hnext => exact hq₂ (hq (.inl hnext))
    · next hnext => exact hq₂ (hq (.inr hnext))

theorem TimInv.apHandleTimer (h : TimInv s) {hostApiActive : Bool} {inactive : ℤ}
    (hq : (s.sta i).valid = true → timerAct (s.sta i) hostApiActive inactive = .free →
      (s.sta i).Quiet) : TimInv (apHandleTimer s i hostApiActive inactive) := by
  unfold Ap.apHandleTimer
  extract_lets s₁ r s₂
  have h₁ : TimInv s₁ := h.setDrv _
  have hsta : s₁.sta i = s.sta i := rfl
  rw [hsta]
  split_ifs with hv hremove hhost hnext
  · exact h₁
  all_goals rw [Bool.not_eq_true', Bool.not_eq_false] at hv
  · refine h₁.apStaInfoFree fun _ => hq hv ?_
    rw [timerAct, if_pos hremove]
  · exact h₁.setDrv _
  all_goals
    obtain ⟨t, ht⟩ := timerForgives_cases (s.sta i) inactive
    have hr : r = timerForgives (s.sta i) inactive := rfl
    have h₂ : TimInv s₂ := by
      refine h₁.modSta hv (timerForgives_core _ _) ?_
      rw [hr, ht]
      rfl
  · exact h₂.setDrv _
  · refine h₂.timerEscalates ?_ ?_
    · dsimp only [s₂]
      rw [modSta_sta_self, hr, ht]
      exact hv
    · dsimp only [s₂]
      rw [modSta_sta_self]
      intro hlast
      have hquiet : (s.sta i).Quiet := by
        refine hq hv ?_
        rw [timerAct, if_neg hremove, if_neg hhost]
        dsimp only
        rw [← hr, if_neg hnext]
        rcases hlast with hlast | hlast <;> rw [hlast]
      rw [hr, ht]
      exact hquiet

/-! ## Delivery, expiry and reports -/

theorem TimInv.apStaSetAuthorized (h : TimInv s) (hv : (s.sta i).valid = true) (b : Bool) :
    TimInv (apStaSetAuthorized s i b) := by
  cases b with
  | false => exact h.withdraw i
  | true =>
    exact ⟨tableInv_kept.grant h.table hv trivial, psInv_kept.grant h.ps hv trivial,
      h.tim.apStaSetAuthorized i true⟩

theorem TimInv.staPsDeliverPollResponse (h : TimInv s) (i : StaIdx cfg) :
    TimInv (staPsDeliverPollResponse s i) :=
  ⟨tableInv_kept.staPsDeliverPollResponse h.table i, psInv_kept.staPsDeliverPollResponse h.ps i,
    h.tim.within h.table (staPsDeliverResponse_within s i _ _ _) fun _ _ =>
      staPsDeliverResponse_shown s i _ _ _⟩

theorem TimInv.staPsDeliverUapsd (h : TimInv s) (i : StaIdx cfg) :
    TimInv (staPsDeliverUapsd s i) :=
  ⟨tableInv_kept.staPsDeliverUapsd h.table i, psInv_kept.staPsDeliverUapsd h.ps i,
    h.tim.within h.table (staPsDeliverUapsd_within s i) fun hv ha =>
      staPsDeliverUapsd_shown fun _ => h.tim.shown i hv ha⟩

/-- Each station that is looked at gets its bit recomputed. -/
theorem TimInv.staInfoCleanup (h : TimInv s) (now : ℕ) : TimInv (staInfoCleanup now s) := by
  have htable : ∀ (s : ApInfo cfg) i, (cleanupExpireBuffered now s i).table = s.table := by
    intro s i
    refine table_of_ctl (List.foldlRecOn (motive := fun s' : ApInfo cfg => s'.ctl = s.ctl) _ _ rfl
      fun s' hs ac _ => ?_)
    rw [recalcTimGenBeacon_ctl]
    exact (ctl_keptByTx s).expireAc hs trivial now ac _
  have hloop : (Ap.staInfoCleanup now s).table = s.table ∧
      TimTruthful (Ap.staInfoCleanup now s) := by
    refine List.foldlRecOn (motive := fun s' : ApInfo cfg => s'.table = s.table ∧ TimTruthful s')
      _ _ ⟨rfl, h.tim⟩ fun s' hs i _ => ?_
    split
    · refine ⟨(htable s' i).trans hs.1, hs.2.within (hs.1 ▸ h.table)
        (cleanupExpireBuffered_within now s' i) fun _ _ => cleanupExpireBuffered_shown now s' i⟩
    · exact hs
  exact ⟨tableInv_kept.staInfoCleanup h.table now, psInv_kept.staInfoCleanup h.ps now, hloop.2⟩

/-- A report that the firmware holds no frames makes no difference. -/
def DqShows (s : ApInfo cfg) (wsid : ℕ) (len : ℤ) : Prop :=
  len ≤ 0 → ∀ hw : wsid < cfg.maxAid, (s.sta ⟨wsid, hw⟩).valid = true →
    (s.sta ⟨wsid, hw⟩).aid ≠ 0 →
      indicateTim { s.sta ⟨wsid, hw⟩ with fwQLen := len } = indicateTim (s.sta ⟨wsid, hw⟩)

theorem TimInv.dqStatusHandler (h : TimInv s) {wsid : ℕ} {len : ℤ} (hd : DqShows s wsid len) :
    TimInv ((dqStatusHandler s wsid len).getD s) := by
  unfold Ap.dqStatusHandler
  split
  · next hw =>
    extract_lets i s₁
    have h₁ : Within i s s₁ := .modSta rfl rfl
    have htable : TableInv s₁.table := by
      have hsame : s₁.table = s.table := table_modSta_of_eq rfl
      rw [hsame]
      exact h.table
    have hps : PsInv s₁ := h.ps.of_ps (ps_modSta_of_eq rfl)
    rw [Option.getD_some]
    split
    · exact ⟨tableInv_kept.recalcTimGenBeacon htable i, psInv_kept.recalcTimGenBeacon hps i,
        h.tim.within h.table (h₁.trans (.recalcTim s₁ i)) fun _ _ => recalcTimGenBeacon_shown s₁ i⟩
    · next hlen =>
      refine ⟨htable, hps, h.tim.within h.table h₁ fun hv ha => ?_⟩
      have hsame := hd (by omega) hw hv ha
      have hself : s₁.sta i = { s.sta i with fwQLen := len } := modSta_sta_self s i _
      rw [Shown, hself]
      exact Eq.trans (h.tim.shown i hv ha) hsame.symm
  · exact h

/-! ## Turning off -/

theorem TimInv.sendDeauthAndRemoveAll (h : TimInv s)
    (hq : ∀ i, (s.sta i).valid = true → (s.sta i).Quiet) : TimInv (sendDeauthAndRemoveAll s) := by
  have hloop : ∀ (l : List (StaIdx cfg)) (s : ApInfo cfg), TimInv s →
      (∀ i, (s.sta i).valid = true → (s.sta i).Quiet) →
      TimInv (l.foldl (fun s i => if (s.sta i).valid then Ap.removeSilent s i else s) s) := by
    intro l
    induction l with
    | nil => exact fun s hs _ => hs
    | cons i l ih =>
      intro s hs hq
      rw [List.foldl_cons]
      refine ih _ ?_ fun j hj => ?_
      · split
        · exact hs.removeSilent (hq i)
        · exact hs
      · split at hj
        · by_cases hji : j = i
          · subst hji
            exact absurd ((removeSilent_valid s j).symm.trans hj) (by simp)
          · rw [if_pos ‹_›]
            rw [removeSilent_sta_of_ne s hji] at hj ⊢
            exact hq j hj
        · rw [if_neg ‹_›]
          exact hq j hj
  exact hloop _ s h hq

theorem TimInv.apModeOff (h : TimInv s) (hq : ∀ i, (s.sta i).valid = true → (s.sta i).Quiet)
    (env : Rx.Env) (ampduRxVif : Bool) : TimInv (apModeOff s env ampduRxVif) := by
  unfold Ap.apModeOff
  extract_lets s₁
  have h₁ : TimInv s₁ ∧ ∀ i, (s₁.sta i).valid = true → (s₁.sta i).Quiet := by
    dsimp only [s₁]
    split
    · exact ⟨h.setDrv _, hq⟩
    · exact ⟨h, hq⟩
  have hnone : ∀ j, ((Ap.sendDeauthAndRemoveAll s₁).sta j).valid = false := fun j =>
    removeAll_valid _ s₁ j (.inr (List.mem_finRange j))
  rw [apStaInfoRelease_eq_self hnone]
  exact h₁.1.sendDeauthAndRemoveAll h₁.2

/-! ## Runs -/

/-- An event of the access point leaves the map truthful. -/
def ApShows (s : ApInfo cfg) : ApEvent cfg → Prop
  | .auth r => AuthShows s r
  | .assoc r => AssocShows s r
  | .disassoc longEnough sa | .deauth longEnough sa =>
    longEnough = true → ∀ i, findStaByAddr s sa = some i → (s.sta i).Quiet
  | .disconnect addr => ∀ i, findStaByAddr s addr = some i → (s.sta i).Quiet
  | .timer i hostApiActive inactive =>
    (s.sta i).valid = true → timerAct (s.sta i) hostApiActive inactive = .free → (s.sta i).Quiet
  | .free i => (s.sta i).valid = true → (s.sta i).Quiet
  | .rx sa kind pm up => RxShows s sa kind pm up
  | .tx _ f bAPFrame pollFlag => TxShows s f bAPFrame pollFlag
  | .setAuthorized _ _ | .pollResponse _ | .uapsd _ | .cleanup _ | .drvRemove _ => True

/-- An event of the host leaves the map truthful. -/
def ShowsTruth (s : ApInfo cfg) : HostEvent cfg → Prop
  | .ap e => ApShows s e
  | .dqStatus wsid len => DqShows s wsid len
  | .modeOff _ _ => ∀ i, (s.sta i).valid = true → (s.sta i).Quiet
  | .addba .. | .ampdu .. | .bar .. | .reorderRelease _ | .leave _ => True

theorem TimInv.apStep (h : TimInv s) (htim : cfg.timAllOne = false) (e : ApEvent cfg)
    (he : ApShows s e) : TimInv (apStep s e).1 := by
  cases e with
  | auth r => exact h.mlmeRxAuth he
  | assoc r => exact h.handleAssoc he
  | disassoc longEnough sa =>
    dsimp only [Ap.apStep]
    split
    · next hlong => exact h.mlmeRxDisassoc (he hlong)
    · exact h
  | deauth longEnough sa =>
    dsimp only [Ap.apStep]
    split
    · next hlong => exact h.mlmeRxDeauth (he hlong)
    · exact h
  | setAuthorized addr authorized =>
    dsimp only [Ap.apStep]
    split
    · next i hi => exact h.apStaSetAuthorized (findStaByAddr_valid hi) authorized
    · exact h
  | disconnect addr =>
    dsimp only [Ap.apStep]
    split
    · next i hi => exact h.removeSilent fun _ => he i hi
    · exact h
  | timer i hostApiActive inactive => exact h.apHandleTimer he
  | rx sa kind pm up => exact h.rxFrame he
  | tx now f bAPFrame pollFlag => exact h.dataCouldBeSend htim now he
  | pollResponse i => exact h.staPsDeliverPollResponse i
  | uapsd i => exact h.staPsDeliverUapsd i
  | cleanup now => exact h.staInfoCleanup now
  | drvRemove i => exact h.drvRemove i
  | free i => exact h.apStaInfoFree he

theorem TimInv.hostNext (h : TimInv s) (htim : cfg.timAllOne = false) (e : HostEvent cfg)
    (he : ShowsTruth s e) : TimInv (hostNext s e) := by
  cases e with
  | ap e => exact h.apStep htim e he
  | dqStatus wsid len => exact h.dqStatusHandler he
  | addba env wsid tid ssn bufSize =>
    change TimInv (addbaEvent s env wsid tid ssn bufSize)
    unfold addbaEvent
    split
    · split
      · exact h
      · exact h.setDrv _
    · exact h
  | ampdu env f => exact h.setDrv _
  | bar env wsid tid start => exact h.setDrv _
  | reorderRelease env =>
    change TimInv (Ap.reorderRelease s env)
    unfold Ap.reorderRelease
    split
    · exact h
    · exact h.setDrv _
  | leave env =>
    dsimp only [Ap.hostNext]
    split
    · exact h.setDrv _
    · exact h
  | modeOff env ampduRxVif => exact h.apModeOff he env ampduRxVif

/-- In every state of a run whose events all leave the map truthful, each station that is there
finds its bit set exactly if frames are waiting for it, and the bits that nobody has are clear. -/
theorem hostRun_timTruthful (htim : cfg.timAllOne = false) (es : List (HostEvent cfg))
    (hes : Machine.Meets hostStep ShowsTruth (initAp cfg) es) :
    ∀ js, js <+: es → TimTruthful (Machine.run hostStep (initAp cfg) js).1 := by
  rintro js ⟨ks, rfl⟩
  have hjs := ((Machine.meets_append (initAp cfg) js ks).mp hes).1
  exact (Machine.run_induction_of_meets (P := fun s _ _ => TimInv s)
    ⟨tableInv_initAp, psInv_initAp, timTruthful_initAp⟩
    (fun s _ _ e he h => h.hostNext htim e he) js hjs).tim

/-- An access point that is the only interface: a station has the number of its slot. -/
def onlyAp : ApCfg := { fullAp with maxVifNum := 1 }

/-- A station joins, falls asleep, is sent a frame, fetches it and leaves. -/
theorem sleeper_timTruthful :
    onlyAp.timAllOne = false ∧ ∀ js,
      js <+: [.ap (authEvent onlyAp (Vector.replicate 6 4)),
        .ap (assocEvent onlyAp (Vector.replicate 6 4)),
        .ap (.rx (Vector.replicate 6 4) (.data true) true 0),
        .ap (.tx 0 { da := Vector.replicate 6 4, isData := true, priority := noQosPriority
                     psFrame := false } false false),
        .ap (.rx (Vector.replicate 6 4) (.psPollEvt 0) false 0),
        .ap (.deauth true (Vector.replicate 6 4))] →
      TimTruthful (Machine.run hostStep (initAp onlyAp) js).1 := by
  refine ⟨rfl, hostRun_timTruthful rfl _ ⟨?_, ?_, ?_, ?_, ?_, ?_, trivial⟩⟩
  · unfold ShowsTruth ApShows authEvent AuthShows EvictsQuiet Evicts
    decide +kernel
  · unfold ShowsTruth ApShows assocEvent AssocShows AssocReq.Fits
    decide +kernel
  · unfold ShowsTruth ApShows RxShows RxDesp.Recalcs
    decide +kernel
  · unfold ShowsTruth ApShows TxShows Queued
    decide +kernel
  · unfold ShowsTruth ApShows RxShows RxDesp.Recalcs
    decide +kernel
  · unfold ShowsTruth ApShows
    decide +kernel

/-- The firmware reports three frames for a station and then none: the bit stays set. -/
theorem empty_report_leaves_bit :
    onlyAp.timAllOne = false ∧
      ¬ ∀ es, TimTruthful (Machine.run hostStep (initAp onlyAp) es).1 := by
  refine ⟨rfl, fun h => ?_⟩
  have hshown := (h [.ap (authEvent onlyAp (Vector.replicate 6 4)),
    .ap (assocEvent onlyAp (Vector.replicate 6 4)), .dqStatus 0 3, .dqStatus 0 0]).shown
    ⟨0, by decide⟩ (by decide +kernel) (by decide +kernel)
  revert hshown
  unfold Shown
  decide +kernel

end Fullmac.Ap
