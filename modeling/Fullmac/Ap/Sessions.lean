import Fullmac.Ap.Wsid

/-!
# Block-ack sessions of stations that leave

`APStaInfo_free` ends the sessions of a station by the number the station has at that moment, and
cancels the one timer that releases frames of all sessions. `Teardown` says what that comes to for a
list of such calls, and `tornDown` is the list of an event: the arguments of
`ieee80211_delete_ampdu_rx`, in order.

A station that was detached before has no number any more, so that nobody ends its sessions. And the
timer is cancelled for the stations that stay.
-/

namespace Fullmac.Ap

variable {cfg : ApCfg} {v v' v'' : DrvView cfg} {i : StaIdx cfg}

/-! ## Ending sessions -/

/-- All sessions of a number are reset and empty. -/
def SessionsEnded (host : Rx.HostCfg) (t : Rx.BaTable) (w : ℕ) : Prop :=
  ∀ id : Rx.SessionId, id.1 = w → (t id).Ended host

/-- The sessions of these numbers have ended and the others are as they were; the release timer has
been cancelled if there was anything to end. -/
structure Teardown (ws : List ℕ) (v v' : DrvView cfg) : Prop where
  ended : ∀ id : Rx.SessionId, ↑id.1 ∈ ws → (v'.drv.sessions id).Ended cfg.host
  kept : ∀ id : Rx.SessionId, ↑id.1 ∉ ws → v'.drv.sessions id = v.drv.sessions id
  timer : ∃ k, v'.drv.reorderTimer = v.drv.reorderTimer - k ∧ (k = 0 ↔ ws = [])

theorem Teardown.nil (hsessions : v'.drv.sessions = v.drv.sessions)
    (htimer : v'.drv.reorderTimer = v.drv.reorderTimer) : Teardown [] v v' :=
  ⟨fun _ h => absurd h List.not_mem_nil, fun id _ => congrFun hsessions id, 0, htimer, by simp⟩

theorem Teardown.refl (v : DrvView cfg) : Teardown [] v v := .nil rfl rfl

theorem Teardown.trans {ws ws' : List ℕ} (h : Teardown ws v v') (h' : Teardown ws' v' v'') :
    Teardown (ws ++ ws') v v'' := by
  refine ⟨fun id hid => ?_, fun id hid => ?_, ?_⟩
  · by_cases hid' : ↑id.1 ∈ ws'
    · exact h'.ended id hid'
    · rw [h'.kept id hid']
      exact h.ended id ((List.mem_append.mp hid).resolve_right hid')
  · rw [List.mem_append, not_or] at hid
    rw [h'.kept id hid.2, h.kept id hid.1]
  · obtain ⟨k, hk, hnil⟩ := h.timer
    obtain ⟨k', hk', hnil'⟩ := h'.timer
    refine ⟨k + k', by omega, ?_⟩
    rw [Nat.add_eq_zero_iff, hnil, hnil', List.append_eq_nil_iff]

/-- After a teardown the sessions of a number are those of before, unless it was torn down. -/
theorem Teardown.sessionsEnded_iff {ws : List ℕ} (h : Teardown ws v v') (w : ℕ) :
    SessionsEnded cfg.host v'.drv.sessions w
      ↔ w ∈ ws ∨ SessionsEnded cfg.host v.drv.sessions w := by
  by_cases hw : w ∈ ws
  · refine iff_of_true (fun id hid => h.ended id ?_) (.inl hw)
    rwa [hid]
  · rw [or_iff_right hw]
    refine forall_congr' fun id => forall_congr' fun hid => ?_
    rw [h.kept id (by rwa [hid])]

/-- The argument of `ieee80211_delete_ampdu_rx` when a station leaves. -/
def DrvView.freed (v : DrvView cfg) (i : StaIdx cfg) : List ℕ :=
  if cfg.ampduRxEnable && (v.sta i).valid then [(v.sta i).wsidIdx % 256] else []

theorem DrvView.free_teardown (v : DrvView cfg) (i : StaIdx cfg) :
    Teardown (v.freed i) v (v.free i) := by
  unfold freed free
  cases hv : (v.sta i).valid with
  | false =>
    rw [Bool.and_false, if_neg Bool.false_ne_true, if_neg Bool.false_ne_true]
    exact .refl v
  | true =>
    rw [Bool.and_true, if_pos rfl]
    cases hampdu : cfg.ampduRxEnable with
    | false =>
      refine .nil ?_ ?_ <;>
        simp [leave, setSta, endTimer, oper, DrvView.endSessions, deleteSessions, hampdu]
    | true =>
      have hsessions : (v.leave i).drv.sessions = (Rx.deleteAmpduRx cfg.host Rx.Env.ap
          v.drv.sessions ((v.sta i).wsidIdx % 256)).1 := by
        simp [leave, setSta, endTimer, oper, DrvView.endSessions, deleteSessions, hampdu]
      have htimer : (v.leave i).drv.reorderTimer = v.drv.reorderTimer - 1 := by
        simp [leave, setSta, endTimer, oper, DrvView.endSessions, hampdu]
      rw [if_pos rfl]
      refine ⟨fun id hid => ?_, fun id hid => ?_, 1, htimer, by simp⟩
      · rw [hsessions, Rx.deleteAmpduRx_apply, if_pos (List.mem_singleton.mp hid)]
        exact Rx.deleteSession_ended _ _ _
      · rw [hsessions, Rx.deleteAmpduRx_apply, if_neg fun h => hid (List.mem_singleton.mpr h)]

/-- A station that is removed has been detached before. -/
def DrvView.removed (v : DrvView cfg) (i : StaIdx cfg) : List ℕ :=
  if cfg.ampduRxEnable && (v.sta i).valid then [cfg.maxAid % 256] else []

theorem DrvView.detach_freed (v : DrvView cfg) (i : StaIdx cfg) :
    (v.detach i).freed i = v.removed i := by
  rw [freed, removed, detach_sta_self]

theorem DrvView.detach_free_teardown (v : DrvView cfg) (i : StaIdx cfg) :
    Teardown (v.removed i) v ((v.detach i).free i) := by
  rw [← detach_freed]
  have hdetach : Teardown [] v (v.detach i) := .nil rfl rfl
  exact hdetach.trans ((v.detach i).free_teardown i)

theorem DrvView.remove_teardown (v : DrvView cfg) (i : StaIdx cfg) :
    Teardown (v.removed i) v (v.remove i) := by
  have hfreed : ((v.detach i).endTimer i).freed i = v.removed i := v.detach_freed i
  rw [← hfreed]
  have hdetach : Teardown [] v ((v.detach i).endTimer i) := .nil rfl rfl
  exact hdetach.trans (((v.detach i).endTimer i).free_teardown i)

/-! ## What an event ends -/

/-- The removals of `APStaInfo_add`. -/
def evictTornDown (s : ApInfo cfg) : List ℕ :=
  let first : StaIdx cfg := ⟨0, cfg.maxAid_pos⟩
  let silent := decide (staTimeoutRetryCount < (s.sta first).arpRetryCount)
  let s' := if silent then removeSilent s first else s
  (if silent then s.dv.removed first else []) ++
    if cfg.maxAid ≤ s'.numSta then
      match mostSilent s' with
      | some i => s'.dv.removed i
      | none => []
    else []

/-- The arguments of `ieee80211_delete_ampdu_rx` in one event. -/
def tornDown (s : ApInfo cfg) : ApEvent cfg → List ℕ
  | .auth r =>
    if !r.longEnough ∨ authStatus cfg r ≠ .success then []
    else match findStaByAddr s r.sa with
      | some i => if (authenticate (s.sta i) r).1 = .success then [] else s.dv.freed i
      | none => evictTornDown s ++
        match getNewSta (evictSilent s) with
        | none => []
        | some i =>
          if (authenticate ((evictSilent s).sta i) r).1 = .success then []
          else ((evictSilent s).dv.take i r.sa ((evictSilent s).dv.newWsid i)).freed i
  | .assoc r =>
    if !r.longEnough then []
    else match findStaByAddr s r.sa with
      | none => []
      | some i =>
        if !(s.sta i).auth then []
        else if (tryAssoc s i r).1 = .success then [] else s.dv.freed i
  | .disassoc longEnough sa =>
    if longEnough then match findStaByAddr s sa with
      | none => []
      | some i => s.dv.removed i
    else []
  | .deauth longEnough sa =>
    if longEnough then match findStaByAddr s sa with
      | none => []
      | some i => s.dv.freed i
    else []
  | .disconnect addr =>
    match findStaByAddr s addr with
    | none => []
    | some i => s.dv.removed i
  | .timer i hostApiActive inactive =>
    if timerAct (s.sta i) hostApiActive inactive = .free then s.dv.freed i else []
  | .free i => s.dv.freed i
  | _ => []

theorem evictSilent_teardown (s : ApInfo cfg) :
    Teardown (evictTornDown s) s.dv (evictSilent s).dv := by
  have hremove : ∀ (s : ApInfo cfg) i, Teardown (s.dv.removed i) s.dv (removeSilent s i).dv := by
    intro s i
    rw [removeSilent_dv]
    exact s.dv.remove_teardown i
  unfold evictTornDown evictSilent
  dsimp only
  refine @Teardown.trans cfg s.dv
    (if staTimeoutRetryCount < (s.sta ⟨0, cfg.maxAid_pos⟩).arpRetryCount
      then removeSilent s ⟨0, cfg.maxAid_pos⟩ else s).dv _ _ _ ?_ ?_
  · simp only [decide_eq_true_eq]
    split
    · exact hremove s _
    · exact .refl _
  · simp only [decide_eq_true_eq]
    generalize (if staTimeoutRetryCount < (s.sta ⟨0, cfg.maxAid_pos⟩).arpRetryCount
      then removeSilent s ⟨0, cfg.maxAid_pos⟩ else s) = s'
    split
    · cases mostSilent s' with
      | some i => exact hremove s' i
      | none => exact .refl _
    · exact .refl _

theorem mlmeRxAuth_teardown (s : ApInfo cfg) (r : AuthReq) :
    Teardown (tornDown s (.auth r)) s.dv (mlmeRxAuth s r).1.dv := by
  rw [mlmeRxAuth_dv, tornDown]
  by_cases hbad : (!r.longEnough) = true ∨ authStatus cfg r ≠ .success
  · rw [if_pos hbad, if_pos hbad]
    exact .refl _
  rw [if_neg hbad, if_neg hbad]
  cases findStaByAddr s r.sa with
  | some i =>
    dsimp only
    by_cases hauth : (authenticate (s.sta i) r).1 = .success
    · rw [if_pos hauth, if_pos hauth]
      exact .refl _
    · rw [if_neg hauth, if_neg hauth]
      exact s.dv.free_teardown i
  | none =>
    dsimp only
    refine (evictSilent_teardown s).trans ?_
    cases getNewSta (evictSilent s) with
    | none => exact .refl _
    | some i =>
      dsimp only
      have htake : Teardown [] (evictSilent s).dv
          ((evictSilent s).dv.take i r.sa ((evictSilent s).dv.newWsid i)) := .nil rfl rfl
      by_cases hauth : (authenticate ((evictSilent s).sta i) r).1 = .success
      · rw [if_pos hauth, if_pos hauth]
        exact htake
      · rw [if_neg hauth, if_neg hauth]
        exact htake.trans (DrvView.free_teardown _ i)

theorem apHandleTimer_teardown (s : ApInfo cfg) (i : StaIdx cfg) (hostApiActive : Bool)
    (inactive : ℤ) :
    Teardown (tornDown s (.timer i hostApiActive inactive)) s.dv
      (apHandleTimer s i hostApiActive inactive).dv := by
  rw [apHandleTimer_dv, tornDown]
  cases hv : (s.sta i).valid with
  | false =>
    have hview : (s.dv.sta i).valid = false := hv
    have hfreed : s.dv.freed i = [] := by rw [DrvView.freed, hview, Bool.and_false]; rfl
    rw [hfreed, ite_self, Bool.not_false, if_pos rfl]
    exact .nil rfl rfl
  | true =>
    simp only [Bool.not_true, Bool.false_eq_true, if_false]
    cases timerAct (s.sta i) hostApiActive inactive with
    | rearm => exact .nil rfl rfl
    | detach => exact .nil rfl rfl
    | free =>
      rw [if_pos rfl]
      have hfreed : (s.dv.endTimer i).freed i = s.dv.freed i := rfl
      rw [← hfreed]
      have hend : Teardown [] s.dv (s.dv.endTimer i) := .nil rfl rfl
      exact hend.trans ((s.dv.endTimer i).free_teardown i)

/-- What an event does to the sessions and their timer. -/
theorem apStep_teardown (s : ApInfo cfg) (e : ApEvent cfg) :
    Teardown (tornDown s e) s.dv (apStep s e).1.dv := by
  cases e with
  | auth r => exact mlmeRxAuth_teardown s r
  | assoc r =>
    change Teardown _ s.dv (handleAssoc s r).1.dv
    rw [handleAssoc_dv, tornDown]
    by_cases hshort : (!r.longEnough) = true
    · rw [if_pos hshort, if_pos hshort]
      exact .refl _
    rw [if_neg hshort, if_neg hshort]
    cases findStaByAddr s r.sa with
    | none => exact .refl _
    | some i =>
      dsimp only
      by_cases hauth : (!(s.sta i).auth) = true
      · rw [if_pos hauth, if_pos hauth]
        exact .refl _
      rw [if_neg hauth, if_neg hauth]
      by_cases hok : (tryAssoc s i r).1 = .success
      · rw [if_pos hok, if_pos hok]
        exact .nil rfl rfl
      · rw [if_neg hok, if_neg hok]
        exact s.dv.free_teardown i
  | disassoc longEnough sa =>
    dsimp only [apStep, tornDown]
    split
    · rw [mlmeRxDisassoc_dv]
      cases findStaByAddr s sa with
      | none => exact .refl _
      | some i => exact s.dv.detach_free_teardown i
    · exact .refl _
  | deauth longEnough sa =>
    dsimp only [apStep, tornDown]
    split
    · rw [mlmeRxDeauth_dv]
      cases findStaByAddr s sa with
      | none => exact .refl _
      | some i => exact s.dv.free_teardown i
    · exact .refl _
  | setAuthorized addr authorized =>
    dsimp only [apStep, tornDown]
    split
    · rw [apStaSetAuthorized_dv]
      exact .refl _
    · exact .refl _
  | disconnect addr =>
    dsimp only [apStep, tornDown]
    cases findStaByAddr s addr with
    | none => exact .refl _
    | some i =>
      dsimp only
      rw [removeSilent_dv]
      exact s.dv.remove_teardown i
  | timer i hostApiActive inactive => exact apHandleTimer_teardown s i hostApiActive inactive
  | free i =>
    change Teardown _ s.dv (apStaInfoFree s i).dv
    rw [apStaInfoFree_dv]
    exact s.dv.free_teardown i
  | drvRemove i =>
    change Teardown _ s.dv (drvRemove s i).dv
    rw [drvRemove_dv]
    exact .nil rfl rfl
  | rx sa kind pm up =>
    change Teardown _ s.dv (rxFrame s sa kind pm up).dv
    rw [rxFrame_dv]
    exact .refl _
  | tx now f bAPFrame pollFlag =>
    rw [show (apStep s (.tx now f bAPFrame pollFlag)).1.dv = s.dv from
      dv_of_ctl (dataCouldBeSend_ctl now s f bAPFrame pollFlag)]
    exact .refl _
  | pollResponse i =>
    rw [show (apStep s (.pollResponse i)).1.dv = s.dv from
      dv_of_ctl (staPsDeliverPollResponse_ctl s i)]
    exact .refl _
  | uapsd i =>
    rw [show (apStep s (.uapsd i)).1.dv = s.dv from dv_of_ctl (staPsDeliverUapsd_ctl s i)]
    exact .refl _
  | cleanup now =>
    rw [show (apStep s (.cleanup now)).1.dv = s.dv from dv_of_ctl (staInfoCleanup_ctl now s)]
    exact .refl _

/-! ## What the host ends -/

/-- The arguments of `ieee80211_delete_ampdu_rx` in one event of the host. -/
def hostTornDown (s : ApInfo cfg) : HostEvent cfg → List ℕ
  | .ap e => tornDown s e
  | .leave _ => if cfg.ampduRxEnable then List.range Rx.rxAggRxBaMaxStation else []
  | .modeOff _ ampduRxVif =>
    (if cfg.ampduRxEnable && ampduRxVif then List.range Rx.rxAggRxBaMaxStation else []) ++
      (List.finRange cfg.maxAid).flatMap s.dv.removed
  | _ => []

/-- `ieee80211_delete_all_ampdu_rx`. -/
theorem endAllSessions_teardown (s : ApInfo cfg) (env : Rx.Env) :
    Teardown (List.range Rx.rxAggRxBaMaxStation) s.dv (endAllSessions s env).dv := by
  have hloop : ∀ (l : List ℕ) (t : Rx.BaTable) (id : Rx.SessionId),
      (t id).Ended cfg.host ∨ ↑id.1 ∈ l →
      ((l.foldl (fun t wsid => (Rx.deleteAmpduRx cfg.host env t wsid).1) t) id).Ended cfg.host := by
    intro l
    induction l with
    | nil => exact fun t id h => h.resolve_right List.not_mem_nil
    | cons w l ih =>
      intro t id h
      refine ih _ id ?_
      dsimp only
      rw [Rx.deleteAmpduRx_apply]
      split
      · exact .inl (Rx.deleteSession_ended _ _ _)
      · next hne => exact h.imp_right fun hmem => (List.mem_cons.mp hmem).resolve_left hne
  refine ⟨fun id hid => hloop _ _ id (.inr hid), fun id hid => ?_, 1, rfl, by simp; decide⟩
  exact absurd (List.mem_range.mpr id.1.isLt) hid

/-- Removing a station leaves the others alone. -/
theorem removeSilent_dv_of_ne (s : ApInfo cfg) {j : StaIdx cfg} (h : j ≠ i) :
    (removeSilent s i).dv.sta j = s.dv.sta j := by
  rw [removeSilent_dv, DrvView.remove, DrvView.free_sta_of_ne _ h]
  exact s.dv.detach_sta_of_ne h

theorem removeSilent_valid (s : ApInfo cfg) (i : StaIdx cfg) :
    ((removeSilent s i).sta i).valid = false := by
  have hleft := ((s.dv.detach i).endTimer i).free_sta_self i
  have hdv : (removeSilent s i).dv = ((s.dv.detach i).endTimer i).free i := removeSilent_dv s i
  rw [← hdv] at hleft
  exact hleft

/-- The loop of `send_deauth_and_remove_all`. -/
theorem removeAll_teardown (l : List (StaIdx cfg)) (hl : l.Nodup) (s : ApInfo cfg) :
    Teardown (l.flatMap s.dv.removed) s.dv
      (l.foldl (fun s i => if (s.sta i).valid then removeSilent s i else s) s).dv := by
  induction l generalizing s with
  | nil => exact .refl _
  | cons i l ih =>
    obtain ⟨hi, hl⟩ := List.nodup_cons.mp hl
    rw [List.foldl_cons, List.flatMap_cons]
    split
    · have hsame : l.flatMap s.dv.removed = l.flatMap (removeSilent s i).dv.removed := by
        refine List.flatMap_congr fun j hj => ?_
        have hne : j ≠ i := by
          rintro rfl
          exact hi hj
        rw [DrvView.removed, DrvView.removed, removeSilent_dv_of_ne s hne]
      rw [hsame]
      refine @Teardown.trans cfg s.dv (removeSilent s i).dv _ _ _ ?_ (ih hl _)
      rw [removeSilent_dv]
      exact s.dv.remove_teardown i
    · next hv =>
      have hview : (s.dv.sta i).valid = false := Bool.eq_false_iff.mpr hv
      have hnone : s.dv.removed i = [] := by rw [DrvView.removed, hview, Bool.and_false]; rfl
      rw [hnone]
      exact ih hl s

/-- Nobody is left. -/
theorem removeAll_valid (l : List (StaIdx cfg)) (s : ApInfo cfg) (j : StaIdx cfg)
    (h : (s.sta j).valid = false ∨ j ∈ l) :
    ((l.foldl (fun s i => if (s.sta i).valid then removeSilent s i else s) s).sta j).valid
      = false := by
  induction l generalizing s with
  | nil => exact h.resolve_right List.not_mem_nil
  | cons i l ih =>
    refine ih _ ?_
    dsimp only
    by_cases hj : j = i
    · subst hj
      refine .inl ?_
      split
      · exact removeSilent_valid s j
      · next hv => exact Bool.eq_false_iff.mpr hv
    · refine h.imp (fun hv => ?_) fun hmem => (List.mem_cons.mp hmem).resolve_left hj
      split
      · have hsame := congrArg DrvEntry.valid (removeSilent_dv_of_ne s hj)
        exact hsame.trans hv
      · exact hv

theorem apStaInfoRelease_eq_self {s : ApInfo cfg} (h : ∀ i, (s.sta i).valid = false) :
    apStaInfoRelease s = s := by
  unfold apStaInfoRelease
  refine List.foldlRecOn (motive := fun s' : ApInfo cfg => s' = s) _ _ rfl fun s' hs i _ => ?_
  rw [hs, apStaInfoFree, h i]
  rfl

theorem apModeOff_teardown (s : ApInfo cfg) (env : Rx.Env) (ampduRxVif : Bool) :
    Teardown (hostTornDown s (.modeOff env ampduRxVif)) s.dv (apModeOff s env ampduRxVif).dv := by
  unfold apModeOff
  extract_lets s₁
  have h₁ : Teardown (if cfg.ampduRxEnable && ampduRxVif then List.range Rx.rxAggRxBaMaxStation
      else []) s.dv s₁.dv := by
    dsimp only [s₁]
    split
    · exact endAllSessions_teardown s env
    · exact .refl _
  have hsta : s₁.dv.removed = s.dv.removed := by
    have hsame : s₁.sta = s.sta := by
      dsimp only [s₁]
      split <;> rfl
    funext j
    have hj : s₁.dv.sta j = s.dv.sta j := congrArg Station.drvEntry (congrFun hsame j)
    rw [DrvView.removed, DrvView.removed, hj]
  have hnone : ∀ j, ((sendDeauthAndRemoveAll s₁).sta j).valid = false := fun j =>
    removeAll_valid _ s₁ j (.inr (List.mem_finRange j))
  rw [apStaInfoRelease_eq_self hnone, hostTornDown, ← hsta]
  exact h₁.trans (removeAll_teardown _ (List.nodup_finRange _) s₁)

/-! ## Sessions end with their station -/

section Departures

variable {s : ApInfo cfg}

/-- A station that leaves has no session any more, or the sessions of the number it was given are
ended. -/
def TearsDown (s : ApInfo cfg) (e : HostEvent cfg) : Prop :=
  ∀ i, HasLeft s (hostNext s e) i →
    s.drv.given i ∈ hostTornDown s e ∨ SessionsEnded cfg.host s.drv.sessions (s.drv.given i)

theorem departures_ended_iff (s s' : ApInfo cfg) :
    (∀ d ∈ departures s s', SessionsEnded cfg.host d.sessions d.wsid) ↔
      ∀ i, HasLeft s s' i → SessionsEnded cfg.host s'.drv.sessions (s.drv.given i) := by
  unfold departures
  simp only [List.forall_mem_map, List.mem_filter, List.mem_finRange, true_and, decide_eq_true_eq]

/-- Nobody leaves when the stations stay as they are. -/
theorem not_hasLeft {s' : ApInfo cfg} (hvalid : (s'.sta i).valid = (s.sta i).valid)
    (haddr : (s'.sta i).addr = (s.sta i).addr) : ¬ HasLeft s s' i := by
  rintro ⟨hv, hleft | hleft⟩
  · exact absurd (hleft.symm.trans (hvalid.trans hv)) (by simp)
  · exact hleft haddr

theorem hostStep_ended_iff (s : ApInfo cfg) (e : HostEvent cfg) :
    (∀ d ∈ (hostStep s e).2, SessionsEnded cfg.host d.sessions d.wsid) ↔ TearsDown s e := by
  have hteardown : Teardown (hostTornDown s e) s.dv (hostNext s e).dv →
      ((∀ d ∈ (hostStep s e).2, SessionsEnded cfg.host d.sessions d.wsid) ↔ TearsDown s e) := by
    intro h
    refine (departures_ended_iff s (hostNext s e)).trans ?_
    exact forall_congr' fun i => imp_congr_right fun _ => h.sessionsEnded_iff (s.drv.given i)
  have hstay : (hostNext s e).sta = s.sta →
      ((∀ d ∈ (hostStep s e).2, SessionsEnded cfg.host d.sessions d.wsid) ↔ TearsDown s e) := by
    intro h
    have hnobody : ∀ i, ¬ HasLeft s (hostNext s e) i := fun i =>
      not_hasLeft (by rw [h]) (by rw [h])
    refine iff_of_true ?_ fun i hi => absurd hi (hnobody i)
    exact (departures_ended_iff s (hostNext s e)).mpr fun i hi => absurd hi (hnobody i)
  cases e with
  | ap e => exact hteardown (apStep_teardown s e)
  | dqStatus wsid len =>
    have hnobody : ∀ i, ¬ HasLeft s (hostNext s (.dqStatus wsid len)) i := by
      intro i
      change ¬ HasLeft s ((dqStatusHandler s wsid len).getD s) i
      cases hs' : dqStatusHandler s wsid len with
      | none => exact not_hasLeft rfl rfl
      | some s' =>
        obtain ⟨hw, hself, hothers⟩ := dqStatusHandler_sta hs'
        by_cases hi : i = ⟨wsid, hw⟩
        · subst hi
          have hvalid : (s'.sta ⟨wsid, hw⟩).valid = (s.sta ⟨wsid, hw⟩).valid := by rw [hself]
          have haddr : (s'.sta ⟨wsid, hw⟩).addr = (s.sta ⟨wsid, hw⟩).addr := by rw [hself]
          exact not_hasLeft hvalid haddr
        · exact not_hasLeft (congrArg Station.valid (hothers i hi))
            (congrArg Station.addr (hothers i hi))
    refine iff_of_true ?_ fun i hi => absurd hi (hnobody i)
    exact (departures_ended_iff s _).mpr fun i hi => absurd hi (hnobody i)
  | addba env wsid tid ssn bufSize =>
    refine hstay ?_
    change (addbaEvent s env wsid tid ssn bufSize).sta = s.sta
    unfold addbaEvent
    split
    · split <;> rfl
    · rfl
  | ampdu env f => exact hstay rfl
  | bar env wsid tid start => exact hstay rfl
  | reorderRelease env =>
    refine hstay ?_
    change (reorderRelease s env).sta = s.sta
    unfold reorderRelease
    split <;> rfl
  | leave env =>
    refine hteardown ?_
    dsimp only [hostTornDown, hostNext]
    split
    · exact endAllSessions_teardown s env
    · exact .refl _
  | modeOff env ampduRxVif => exact hteardown (apModeOff_teardown s env ampduRxVif)

/-- After every departure of a run the sessions of the number the station was given have ended,
exactly when every event of the run tears down the sessions of those who leave in it. -/
theorem hostRun_sessionsEnded_iff (cfg : ApCfg) (es : List (HostEvent cfg)) :
    (∀ d ∈ (Machine.run hostStep (initAp cfg) es).2, SessionsEnded cfg.host d.sessions d.wsid) ↔
      Machine.Meets hostStep TearsDown (initAp cfg) es := by
  generalize initAp cfg = s
  induction es generalizing s with
  | nil => simp [Machine.Meets]
  | cons e es ih =>
    rw [Machine.run_cons, List.forall_mem_append, hostStep_ended_iff, ih]
    exact Iff.rfl

/-- A station with a session disassociates. -/
theorem disassoc_leaves_session :
    let es : List (HostEvent fullAp) :=
      [.ap (authEvent fullAp (Vector.replicate 6 4)),
        .ap (assocEvent fullAp (Vector.replicate 6 4)),
        .addba Rx.Env.ap 1 0 7 8, .ap (.disassoc true (Vector.replicate 6 4))]
    fullAp.ampduRxEnable = true ∧
      ¬ ∀ d ∈ (Machine.run hostStep (initAp fullAp) es).2,
        SessionsEnded fullAp.host d.sessions d.wsid := by
  intro es
  refine ⟨rfl, fun h => ?_⟩
  have hlive : ∃ d ∈ (Machine.run hostStep (initAp fullAp) es).2, d.wsid = 1 ∧
      (d.sessions (⟨1, by decide⟩, ⟨0, by decide⟩)).bufSize = 8 := by decide +kernel
  obtain ⟨d, hd, hwsid, hsize⟩ := hlive
  have hended := (h d hd (⟨1, by decide⟩, ⟨0, by decide⟩) hwsid.symm).bufSize
  exact absurd (hsize.symm.trans hended) (by decide)

end Departures

/-! ## The release timer -/

section ReorderTimer

variable {s : ApInfo cfg}

/-- At most one release timer is pending, and one is as long as there is a live session. -/
structure ReorderTimerRuns (v : DrvView cfg) : Prop where
  one : v.drv.reorderTimer ≤ 1
  needed : ∀ id : Rx.SessionId, (v.drv.sessions id).bufSize ≠ 0 → v.drv.reorderTimer = 1

/-- A step that cancels the timer leaves no live session. -/
def SparesTimer (s : ApInfo cfg) (e : HostEvent cfg) : Prop :=
  hostTornDown s e ≠ [] → ∀ id : Rx.SessionId, (s.drv.sessions id).bufSize ≠ 0 →
    ↑id.1 ∈ hostTornDown s e

/-- The timer survives a teardown if no live session does. -/
theorem Teardown.reorderTimerRuns_iff {ws : List ℕ} (h : Teardown ws v v')
    (hv : ReorderTimerRuns v) :
    ReorderTimerRuns v' ↔
      (ws ≠ [] → ∀ id : Rx.SessionId, (v.drv.sessions id).bufSize ≠ 0 → ↑id.1 ∈ ws) := by
  obtain ⟨k, hk, hnil⟩ := h.timer
  have hone := hv.one
  by_cases hws : ws = []
  · have hsame : v'.drv.reorderTimer = v.drv.reorderTimer := by
      rw [hk, hnil.mpr hws, Nat.sub_zero]
    refine iff_of_true ⟨hsame ▸ hone, fun id hid => ?_⟩ fun hne => absurd hws hne
    rw [h.kept id (by simp [hws])] at hid
    rw [hsame]
    exact hv.needed id hid
  · have hzero : v'.drv.reorderTimer = 0 := by
      have hpos : k ≠ 0 := fun h0 => hws (hnil.mp h0)
      omega
    constructor
    · intro h' _ id hid
      by_contra hnot
      rw [← h.kept id hnot] at hid
      have := h'.needed id hid
      omega
    · intro hlive
      refine ⟨by omega, fun id hid => ?_⟩
      by_cases hin : ↑id.1 ∈ ws
      · exact absurd (h.ended id hin).bufSize hid
      · rw [h.kept id hin] at hid
        exact absurd (hlive hws id hid) hin

/-- Sizes and timer stay as they are. -/
theorem ReorderTimerRuns.of_eq (h : ReorderTimerRuns v)
    (htimer : v'.drv.reorderTimer = v.drv.reorderTimer)
    (hsize : ∀ id, (v'.drv.sessions id).bufSize = (v.drv.sessions id).bufSize) :
    ReorderTimerRuns v' := by
  refine ⟨htimer ▸ h.one, fun id hid => ?_⟩
  rw [hsize] at hid
  rw [htimer]
  exact h.needed id hid

theorem ReorderTimerRuns.onSessions (h : ReorderTimerRuns s.dv)
    {f : Rx.BaTable → Rx.BaTable × List Rx.RxEvent}
    (hf : ∀ id, ((f s.drv.sessions).1 id).bufSize = (s.drv.sessions id).bufSize) :
    ReorderTimerRuns (onSessions s f).dv :=
  h.of_eq rfl hf

/-- The timer fires and is armed anew. -/
theorem ReorderTimerRuns.rearm (h : ReorderTimerRuns s.dv) (hpending : s.drv.reorderTimer ≠ 0)
    {f : Rx.BaTable → Rx.BaTable × List Rx.RxEvent}
    (hf : ∀ id, ((f s.drv.sessions).1 id).bufSize = (s.drv.sessions id).bufSize) :
    ReorderTimerRuns (createReorderTimer (cancelReorderTimer (Ap.onSessions s f))).dv := by
  have harmed : s.drv.reorderTimer - 1 + 1 = s.drv.reorderTimer := by omega
  exact h.of_eq harmed hf

theorem hostStep_reorderTimerRuns_iff (h : ReorderTimerRuns s.dv) (e : HostEvent cfg) :
    ReorderTimerRuns (hostNext s e).dv ↔ SparesTimer s e := by
  have hone : s.drv.reorderTimer ≤ 1 := h.one
  have hnever : ∀ {e : HostEvent cfg}, hostTornDown s e = [] → ReorderTimerRuns (hostNext s e).dv →
      (ReorderTimerRuns (hostNext s e).dv ↔ SparesTimer s e) :=
    fun hnil hnext => iff_of_true hnext fun hne => absurd hnil hne
  cases e with
  | ap e => exact (apStep_teardown s e).reorderTimerRuns_iff h
  | dqStatus wsid len =>
    refine hnever rfl ?_
    have hdrv : (hostNext s (.dqStatus wsid len)).drv = s.drv := by
      dsimp only [hostNext]
      unfold dqStatusHandler
      split
      · dsimp only [Option.getD_some]
        split
        · unfold recalcTimGenBeacon staInfoRecalcTim
          dsimp only
          split <;> rfl
        · rfl
      · rfl
    have hview : (hostNext s (.dqStatus wsid len)).dv.drv = s.dv.drv :=
      congrArg (fun d : Driver cfg => { d with tests := [] }) hdrv
    exact h.of_eq (by rw [hview]) fun id => by rw [hview]
  | addba env wsid tid ssn bufSize =>
    refine hnever rfl ?_
    change ReorderTimerRuns (addbaEvent s env wsid tid ssn bufSize).dv
    unfold addbaEvent
    split
    · split
      · exact h
      · have harmed : s.drv.reorderTimer - 1 + 1 = 1 := by omega
        exact ⟨harmed.le, fun _ _ => harmed⟩
    · exact h
  | ampdu env f =>
    exact hnever rfl (h.onSessions fun id => Rx.rxReorderAmpdu_bufSize env _ _ f id)
  | bar env wsid tid start =>
    exact hnever rfl (h.onSessions fun id => Rx.rxBarFrame_bufSize env _ _ wsid tid start id)
  | reorderRelease env =>
    refine hnever rfl ?_
    change ReorderTimerRuns (reorderRelease s env).dv
    unfold reorderRelease
    split
    · exact h
    · next hpending =>
      exact h.rearm hpending fun id => Rx.timerStaReorderRelease_bufSize _ env _ id
  | leave env =>
    have hteardown : Teardown (hostTornDown s (.leave env)) s.dv (hostNext s (.leave env)).dv := by
      dsimp only [hostTornDown, hostNext]
      split
      · exact endAllSessions_teardown s env
      · exact .refl _
    exact hteardown.reorderTimerRuns_iff h
  | modeOff env ampduRxVif => exact (apModeOff_teardown s env ampduRxVif).reorderTimerRuns_iff h

/-- In all states of a run at most one release timer is pending, and one is as long as there is a
live session, exactly when every event of the run spares the timer of the sessions that stay. -/
theorem hostRun_reorderTimer_iff (cfg : ApCfg) (es : List (HostEvent cfg)) :
    (∀ js, js <+: es →
      (Machine.run hostStep (initAp cfg) js).1.drv.reorderTimer ≤ 1 ∧
      ∀ id : Rx.SessionId, ((Machine.run hostStep (initAp cfg) js).1.drv.sessions id).bufSize ≠ 0 →
        (Machine.run hostStep (initAp cfg) js).1.drv.reorderTimer = 1) ↔
      Machine.Meets hostStep SparesTimer (initAp cfg) es := by
  have hiff : ∀ s : ApInfo cfg, ReorderTimerRuns s.dv ↔ s.drv.reorderTimer ≤ 1 ∧
      ∀ id : Rx.SessionId, (s.drv.sessions id).bufSize ≠ 0 → s.drv.reorderTimer = 1 :=
    fun s => ⟨fun h => ⟨h.one, h.needed⟩, fun h => ⟨h.1, h.2⟩⟩
  have hstart : ReorderTimerRuns (initAp cfg).dv := ⟨Nat.zero_le 1, fun _ hid => absurd rfl hid⟩
  simp only [← hiff]
  exact Machine.forall_prefix_iff_meets (I := fun _ _ => True)
    (P := fun (s : ApInfo cfg) _ => ReorderTimerRuns s.dv) trivial (fun _ _ _ _ => trivial) hstart
    (fun s _ e _ h => hostStep_reorderTimerRuns_iff h e) es

/-- A station with a session stays while another one leaves. -/
theorem departure_cancels_timer :
    ¬ ∀ es : List (HostEvent fullAp),
      (Machine.run hostStep (initAp fullAp) es).1.drv.reorderTimer ≤ 1 ∧
      ∀ id : Rx.SessionId,
        ((Machine.run hostStep (initAp fullAp) es).1.drv.sessions id).bufSize ≠ 0 →
        (Machine.run hostStep (initAp fullAp) es).1.drv.reorderTimer = 1 := by
  intro h
  have hneeded := (h [.ap (authEvent fullAp (Vector.replicate 6 4)),
    .ap (assocEvent fullAp (Vector.replicate 6 4)), .addba Rx.Env.ap 1 0 7 8,
    .ap (authEvent fullAp (Vector.replicate 6 8)), .ap (.deauth true (Vector.replicate 6 8))]).2
    (⟨1, by decide⟩, ⟨0, by decide⟩) (by decide +kernel)
  revert hneeded
  decide +kernel

end ReorderTimer

end Fullmac.Ap
