import Fullmac.Host.Join

/-!
# The configuration that a join leaves

Reference: `host/core/host_apis.c`, `_ssv6xxx_wifi_join`; `host/core/host_cmd_engine_rx.c`,
`join_host_event_handler_`.

An interface has one place to save a request, and joins can overtake each other: a request that is
accepted while an earlier one waits for its result takes the place of the other, and a failed result
clears it. What is saved can be read off the trace (`remembered`), and a successful result makes it
the configuration (`joincfg_run`). This is the request of the join that the result answers exactly
when nothing came between.
-/

namespace Fullmac.Host

open Rx (HwMode maxVifNum)

variable {τ ι : Type*}

/-- What interface `v` remembers, after one more event of the trace. -/
def rememberStep (v : Fin maxVifNum) (r : JoinRequest) : JoinOut → JoinRequest
  | .accepted j => if j.request.vifIdx = v then j.request else r
  | .handled h => if h.vifIdx = v ∧ h.statusCode ≠ 0 then .zero else r
  | _ => r

/-- The request that was accepted last on interface `v`, unless a failed result has come since. -/
def remembered (v : Fin maxVifNum) (tr : List JoinOut) : JoinRequest :=
  tr.foldl (rememberStep v) .zero

/-- A successful result outside recovery leaves the interface with the request of the join that it
answers. -/
def Handled.Commits (h : Handled) : Prop :=
  h.statusCode = 0 → h.recovering = false → ∀ j, h.answers = some j → h.joincfg = j.request

/-- The join that a result answers is what its interface remembers when a successful result comes
outside recovery. -/
def Handled.FindsRequest (tr : List JoinOut) (h : Handled) : Prop :=
  h.statusCode = 0 → h.recovering = false → ∀ j, h.answers = some j →
    remembered h.vifIdx tr = j.request

theorem remembered_append (v : Fin maxVifNum) (tr out : List JoinOut) :
    remembered v (tr ++ out) = out.foldl (rememberStep v) (remembered v tr) :=
  List.foldl_append

/-- Events that change nothing one by one change nothing together. -/
theorem foldl_rememberStep {v : Fin maxVifNum} {r : JoinRequest} {out : List JoinOut}
    (h : ∀ o ∈ out, rememberStep v r o = r) : out.foldl (rememberStep v) r = r := by
  induction out with
  | nil => rfl
  | cons o out ih =>
    rw [List.foldl_cons, h o List.mem_cons_self]
    exact ih fun o' ho' => h o' (List.mem_cons_of_mem o ho')

/-- An accepted request is remembered until another one is accepted on the interface or a result
fails. -/
theorem remembered_of_undisturbed {j : Join} {a b : List JoinOut}
    (hacc : ∀ j', .accepted j' ∈ b → j'.request.vifIdx ≠ j.request.vifIdx)
    (hfail : ∀ h, .handled h ∈ b → h.vifIdx = j.request.vifIdx → h.statusCode = 0) :
    remembered j.request.vifIdx (a ++ .accepted j :: b) = j.request := by
  have hkeep : ∀ o ∈ b, rememberStep j.request.vifIdx j.request o = j.request := by
    intro o ho
    cases o with
    | accepted j' => exact if_neg (hacc j' ho)
    | handled h => exact if_neg fun hh => hh.2 (hfail h ho hh.1)
    | removeAp | evtCb => rfl
  rw [remembered_append, List.foldl_cons, rememberStep, if_pos rfl]
  exact foldl_rememberStep hkeep

/-! ## One step -/

/-- What is saved in an interface is what it remembers. -/
def Saved (s : JoinState τ) (tr : List JoinOut) : Prop :=
  ∀ v, (s.staInfo v).joincfgBackup = remembered v tr

theorem Saved.congr {s s' : JoinState τ} {tr : List JoinOut} (h : Saved s tr)
    (hsame : ∀ v, (s'.staInfo v).joincfgBackup = (s.staInfo v).joincfgBackup) :
    Saved s' tr := fun v => (hsame v).trans (h v)

theorem Saved.handOver {s : JoinState τ} {tr : List JoinOut} (h : Saved s tr) (issuer : Option ℕ)
    (cjreq : JoinRequest) :
    Saved (Host.handOver issuer cjreq s).1 (tr ++ (Host.handOver issuer cjreq s).2) := by
  intro v
  rw [remembered_append]
  rcases eq_or_ne v cjreq.vifIdx with rfl | hne
  · simp [Host.handOver, rememberStep]
  · simp [Host.handOver, rememberStep, hne, hne.symm, h v]

theorem Saved.ssv6xxxWifiJoin {s : JoinState τ} {tr : List JoinOut} (h : Saved s tr) (hw : HwInfo)
    (env : ApiEnv) (issuer : Option ℕ) (cjreq : JoinRequest) :
    let r := (Host.ssv6xxxWifiJoin hw env issuer cjreq s).2
    Saved r.1 (tr ++ r.2) := by
  rcases ssv6xxxWifiJoin_cases hw env issuer cjreq s with ⟨-, api, hr⟩ | ⟨-, api, hr⟩ <;> rw [hr]
  · have hs : Saved { s with api } tr := h
    exact hs.handOver issuer _
  · simp only [List.append_nil]
    exact h

/-- What a result leaves in the interfaces. -/
theorem joinResult_staInfo (v : Fin maxVifNum) (statusCode : ℕ) (s : JoinState τ) :
    (joinResult v statusCode s).1.staInfo
      = Function.update s.staInfo v
          (if statusCode = 0 then ⟨true, (s.staInfo v).joincfgBackup, (s.staInfo v).joincfgBackup⟩
            else ⟨false, .zero, .zero⟩) := by
  by_cases hcode : statusCode = 0 <;> cases hrec : s.recovering <;>
    simp [joinResult, joinHostEventHandler, hcode, hrec, staModeConnect, staModeDisconnect]

theorem Saved.joinResult {s : JoinState τ} {tr : List JoinOut} (h : Saved s tr)
    (v : Fin maxVifNum) (statusCode : ℕ) :
    Saved (Host.joinResult v statusCode s).1 (tr ++ (Host.joinResult v statusCode s).2) := by
  intro w
  obtain ⟨out, hout, hno, hno'⟩ := joinResult_snd v statusCode s
  have hkeep : ∀ r, ∀ o ∈ out, rememberStep w r o = r := by
    intro r o ho
    cases o with
    | accepted j => exact absurd ho (hno' j)
    | handled a => exact absurd ho (hno a)
    | removeAp | evtCb => rfl
  rw [remembered_append, hout, List.foldl_cons, foldl_rememberStep (hkeep _), joinResult_staInfo,
    ← h w]
  rcases eq_or_ne w v with rfl | hne
  · by_cases hcode : statusCode = 0 <;> simp [rememberStep, hcode]
  · simp [rememberStep, hne, hne.symm]

theorem Saved.rejoin {s : JoinState τ} {tr : List JoinOut} (h : Saved s tr) (hw : HwInfo)
    (env : ApiEnv) (r : Recovery) :
    Saved (Host.rejoin hw env r s).1 (tr ++ (Host.rejoin hw env r s).2) := by
  unfold Host.rejoin
  simp only
  split
  · refine Saved.ssv6xxxWifiJoin (h.congr fun v => ?_) hw env (some r.num) _
    -- the configuration is written, not what is saved
    rcases eq_or_ne v r.vifIdx with rfl | hne
    · simp
    · simp [hne]
  · rw [List.append_nil]
    exact h

theorem Saved.step {s : JoinState τ} {tr : List JoinOut} (h : Saved s tr) (hw : HwInfo)
    (side : Cmd.TxSide τ ι) (i : JoinIn ι) :
    Saved (joinStep hw side s i).1 (tr ++ (joinStep hw side s i).2) := by
  have quiet : ∀ s' : JoinState τ, s'.staInfo = s.staInfo → Saved s' (tr ++ []) := by
    intro s' hs'
    rw [List.append_nil]
    exact h.congr fun v => by rw [hs']
  cases i with
  | wifiJoin env cjreq => exact h.ssv6xxxWifiJoin hw env none cjreq
  | joinResult v statusCode => exact h.joinResult v statusCode
  | staRecover v =>
    refine quiet _ ?_
    simp only [joinStep, staRecover]
    split <;> rfl
  | recoverOn k env =>
    simp only [joinStep, recoverOn]
    split
    · exact quiet s rfl
    · split
      · have hs : Saved { s with executing := s.executing.eraseIdx k } tr := h
        exact hs.rejoin hw env _
      · exact quiet _ rfl
  | post | hostApi | engine | tx | txDrop => exact quiet _ rfl

/-- Only a join result shows one. -/
theorem handled_not_mem {s : JoinState τ} (hw : HwInfo) (side : Cmd.TxSide τ ι) {i : JoinIn ι}
    (hi : ∀ v statusCode, i ≠ .joinResult v statusCode) (h : Handled) :
    .handled h ∉ (joinStep hw side s i).2 := by
  have hjoin : ∀ (env : ApiEnv) issuer cjreq (s : JoinState τ),
      .handled h ∉ (ssv6xxxWifiJoin hw env issuer cjreq s).2.2 := by
    intro env issuer cjreq s
    rcases ssv6xxxWifiJoin_cases hw env issuer cjreq s with ⟨-, api, hr⟩ | ⟨-, api, hr⟩ <;>
      simp [hr, handOver]
  cases i with
  | wifiJoin env cjreq => exact hjoin env none cjreq s
  | joinResult v statusCode => exact absurd rfl (hi v statusCode)
  | recoverOn k env =>
    simp only [joinStep, recoverOn, rejoin]
    split
    · exact List.not_mem_nil
    · split
      · split
        · exact hjoin _ _ _ _
        · exact List.not_mem_nil
      · exact List.not_mem_nil
  | post | hostApi | engine | tx | txDrop | staRecover => exact List.not_mem_nil

/-- The result that a step shows comes first, and leaves what was saved if it is successful. -/
theorem handled_of_step {s : JoinState τ} {hw : HwInfo} {side : Cmd.TxSide τ ι} {i : JoinIn ι}
    {h : Handled} {as out : List JoinOut}
    (heq : (joinStep hw side s i).2 = as ++ .handled h :: out) :
    as = [] ∧ (h.statusCode = 0 → h.joincfg = (s.staInfo h.vifIdx).joincfgBackup) := by
  have hmem : .handled h ∈ (joinStep hw side s i).2 := by simp [heq]
  obtain ⟨v, statusCode, rfl⟩ : ∃ v statusCode, i = .joinResult v statusCode := by
    by_contra hi
    push Not at hi
    exact handled_not_mem hw side hi h hmem
  obtain ⟨out', hout, hno, -⟩ := joinResult_snd v statusCode s
  rw [joinStep, hout] at heq
  cases as with
  | nil =>
    injection heq with hh
    injection hh with hh
    subst hh
    refine ⟨rfl, fun hcode => ?_⟩
    simp only at hcode
    simp [joinResult_staInfo, hcode]
  | cons o as =>
    injection heq with _ hout
    exact absurd (by simp [hout]) (hno h)

/-! ## Runs -/

section Runs

variable (hw : HwInfo) (side : Cmd.TxSide τ ι) (hwMode : Fin maxVifNum → HwMode) (tx : τ)

/-- A successful result leaves what the interface remembers. -/
theorem joincfg_run (is : List (JoinIn ι)) :
    ∀ tr₁ h tr₂, (Machine.run (joinStep hw side) (joinInit hwMode tx) is).2
        = tr₁ ++ .handled h :: tr₂ →
      h.statusCode = 0 → h.joincfg = remembered h.vifIdx tr₁ := by
  refine (Machine.run_induction
    (P := fun s _ tr => Saved s tr ∧ ∀ tr₁ h tr₂, tr = tr₁ ++ .handled h :: tr₂ →
      h.statusCode = 0 → h.joincfg = remembered h.vifIdx tr₁) ?_ ?_ is).2
  · exact ⟨fun v => rfl, by simp⟩
  rintro s _ tr i ⟨hsaved, htr⟩
  refine ⟨hsaved.step hw side i, fun tr₁ h tr₂ heq hcode => ?_⟩
  rcases List.append_eq_append_iff.mp heq with ⟨as, rfl, hout⟩ | ⟨bs, rfl, hout⟩
  · -- it is handled in this step
    obtain ⟨rfl, hbackup⟩ := handled_of_step hout
    rw [hbackup hcode, List.append_nil]
    exact hsaved h.vifIdx
  · cases bs with
    | nil =>
      -- so here
      have hstep : (joinStep hw side s i).2 = [] ++ .handled h :: tr₂ := hout.symm
      obtain ⟨-, hbackup⟩ := handled_of_step hstep
      rw [hbackup hcode]
      simpa using hsaved h.vifIdx
    | cons o bs =>
      injection hout with ho _
      exact htr tr₁ h bs (by rw [ho]) hcode

/-- Every successful result outside recovery leaves its interface with the request of the join that
it answers, exactly when each of them finds that request to be the one the interface remembers:
accepted last, with no failed result since. -/
theorem commits_run_iff (is : List (JoinIn ι)) :
    let tr := (Machine.run (joinStep hw side) (joinInit hwMode tx) is).2
    (∀ h, .handled h ∈ tr → h.Commits)
      ↔ ∀ tr₁ h tr₂, tr = tr₁ ++ .handled h :: tr₂ → h.FindsRequest tr₁ := by
  intro tr
  constructor
  · intro hall tr₁ h tr₂ heq hcode hrec j hj
    rw [← joincfg_run hw side hwMode tx is tr₁ h tr₂ heq hcode]
    exact hall h (by simp [heq]) hcode hrec j hj
  · intro hall h hmem hcode hrec j hj
    obtain ⟨tr₁, tr₂, heq⟩ := List.append_of_mem hmem
    rw [joincfg_run hw side hwMode tx is tr₁ h tr₂ heq hcode]
    exact hall tr₁ h tr₂ heq hcode hrec j hj

end Runs

/-- Two requests for interface 0. -/
def joinRequests : JoinRequest × JoinRequest :=
  ({ JoinRequest.zero with bssid := .replicate 6 1 },
    { JoinRequest.zero with bssid := .replicate 6 2 })

/-- The second join is accepted before the first has its result: the result of the first leaves the
request of the second. -/
theorem not_commits_overtaken :
    ¬ ∀ h, .handled h ∈ (Machine.run
        (joinStep ⟨false, 0, 0, []⟩ (⟨fun s _ => (s, true), fun s _ => s⟩ : Cmd.TxSide Unit Empty))
        (joinInit (fun _ => .sta) ())
        [.wifiJoin ⟨true, true, true, true⟩ joinRequests.1, .engine true,
          .wifiJoin ⟨true, true, true, true⟩ joinRequests.2,
          .joinResult vif0 0]).2 → h.Commits := by
  intro h
  have hcommits := h ⟨vif0, 0, false, some ⟨0, joinRequests.1, none⟩, joinRequests.2⟩
    (by decide) rfl rfl _ rfl
  exact absurd hcommits (by decide)

end Fullmac.Host
