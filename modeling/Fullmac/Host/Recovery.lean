import Fullmac.Host.Join
import Mathlib.Data.List.InsertIdx

/-!
# The end of a recovery

Reference: `host/core/recover.c`, `ssv6xxx_wifi_sta_recover`.

`recovering` refuses every further recovery. The recovery that sets it clears it itself when its
interface has no link, and otherwise leaves that to the result of its re-join. Nobody looks at
whether the re-join was accepted: one that was not has no result, and the flag stays.

`Recovers` says that the flag has somebody to clear it. It is kept by every step but the end of the
recovery that set the flag, when its interface has a link and the re-join is not accepted
(`recovers_step`).
-/

namespace Fullmac.Host

open Rx (HwMode maxVifNum)

variable {τ ι : Type*} {s : JoinState τ} {tr : List JoinOut}

/-- The numbers of the recoveries in execution. -/
def JoinState.nums (s : JoinState τ) : List ℕ := s.executing.map Recovery.num

/-- The re-join of recovery `k` was accepted and its result has not been handled. -/
def Outstanding (tr : List JoinOut) (k : ℕ) : Prop :=
  ∃ j, .accepted j ∈ tr ∧ j.issuer = some k ∧ ∀ h, .handled h ∈ tr → h.answers ≠ some j

/-- While `recovering` is set, the recovery that set it is in execution or its re-join is
outstanding. It is the last one that began. -/
def Recovers (s : JoinState τ) (tr : List JoinOut) : Prop :=
  s.recovering = true → ∃ k, k + 1 = s.begun ∧ (k ∈ s.nums ∨ Outstanding tr k)

/-- When the recovery that set `recovering` comes to its end, the flag is still set, and its
interface has a link, its re-join is accepted. -/
def RejoinAccepted (s : JoinState τ) : JoinIn ι → Prop
  | .recoverOn k env =>
    ∀ r, s.executing[k]? = some r → r.flushed = true → r.num + 1 = s.begun →
      s.recovering = true → (s.staInfo r.vifIdx).connected = true →
        JoinAccepts env (s.staInfo r.vifIdx).joincfg.vifIdx s
  | _ => True

/-! ## What holds in every run -/

/-- Recoveries in execution have numbers of their own and have not joined yet; a result answers a
join that was handed over. -/
structure RecoveryInv (s : JoinState τ) (tr : List JoinOut) : Prop where
  nodup : s.nums.Nodup
  begun : ∀ k ∈ s.nums, k < s.begun
  frame : ∀ j ∈ s.joins, j.frame < s.joins.length
  answers : ∀ h, .handled h ∈ tr → ∀ j, h.answers = some j → j ∈ s.joins
  issuer : ∀ j, .accepted j ∈ tr → ∀ k, j.issuer = some k → k < s.begun ∧ k ∉ s.nums

/-- It is about what is under way. -/
theorem RecoveryInv.congr {s' : JoinState τ} (h : RecoveryInv s tr) (hnums : s'.nums = s.nums)
    (hbegun : s'.begun = s.begun) (hjoins : s'.joins = s.joins) : RecoveryInv s' tr where
  nodup := hnums ▸ h.nodup
  begun := by simpa [hnums, hbegun] using h.begun
  frame := by simpa [hjoins] using h.frame
  answers := by simpa [hjoins] using h.answers
  issuer := by simpa [hnums, hbegun] using h.issuer

/-- What neither touches the flag nor begins nor ends a recovery. -/
theorem Recovers.congr {s' : JoinState τ} (h : Recovers s tr) (hnums : s'.nums = s.nums)
    (hbegun : s'.begun = s.begun) (hrec : s'.recovering = s.recovering) : Recovers s' tr := by
  simpa [Recovers, hnums, hbegun, hrec] using h

theorem recovers_of_not_recovering (h : s.recovering = false) : Recovers s tr := by
  simp [Recovers, h]

/-! ## Joins -/

theorem Outstanding.accepted {k : ℕ} (h : Outstanding tr k) (j : Join) :
    Outstanding (tr ++ [.accepted j]) k := by
  obtain ⟨j', hmem, hissuer, hno⟩ := h
  exact ⟨j', by simp [hmem], hissuer, by simpa using hno⟩

/-- A join that was just handed over has no result. -/
theorem RecoveryInv.outstanding_handOver (h : RecoveryInv s tr) (k : ℕ) (cjreq : JoinRequest) :
    Outstanding (tr ++ (handOver (some k) cjreq s).2) k := by
  refine ⟨⟨s.joins.length, cjreq, some k⟩, by simp [handOver], rfl, fun a ha heq => ?_⟩
  have ha : JoinOut.handled a ∈ tr := by simpa [handOver] using ha
  exact absurd (h.frame _ (h.answers a ha _ heq)) (Nat.lt_irrefl _)

theorem RecoveryInv.handOver (h : RecoveryInv s tr) {issuer : Option ℕ} (cjreq : JoinRequest)
    (hissuer : ∀ k, issuer = some k → k < s.begun ∧ k ∉ s.nums) :
    RecoveryInv (Host.handOver issuer cjreq s).1 (tr ++ (Host.handOver issuer cjreq s).2) where
  nodup := h.nodup
  begun := h.begun
  frame := by
    intro j hj
    rcases List.mem_append.mp hj with hj | hj
    · have := h.frame j hj
      simp only [Host.handOver, List.length_append, List.length_singleton]
      omega
    · simp [List.mem_singleton.mp hj, Host.handOver]
  answers := by
    intro a ha j hj
    have ha : JoinOut.handled a ∈ tr := by simpa [Host.handOver] using ha
    exact List.mem_append_left _ (h.answers a ha j hj)
  issuer := by
    intro j hj k hk
    rcases List.mem_append.mp hj with hj | hj
    · exact h.issuer j hj k hk
    · obtain rfl : j = ⟨s.joins.length, cjreq, issuer⟩ := by simpa [Host.handOver] using hj
      exact hissuer k hk

theorem Recovers.handOver (h : Recovers s tr) (issuer : Option ℕ) (cjreq : JoinRequest) :
    Recovers (Host.handOver issuer cjreq s).1 (tr ++ (Host.handOver issuer cjreq s).2) := by
  intro hrec
  obtain ⟨k, hk, hk' | hk'⟩ := h hrec
  · exact ⟨k, hk, .inl hk'⟩
  · exact ⟨k, hk, .inr (hk'.accepted _)⟩

/-! ## Results -/

/-- Whatever it says, a result ends the recovery; it is about an interface and nothing under way. -/
theorem joinResult_fst (v : Fin maxVifNum) (statusCode : ℕ) (s : JoinState τ) :
    ∃ staInfo txreqWithQos sent, (joinResult v statusCode s).1
      = { s with staInfo, txreqWithQos, recovering := false, sent } := by
  simp only [joinResult, joinHostEventHandler]
  split
  · split <;> exact ⟨_, _, _, rfl⟩
  · rename_i hrec
    rw [← Bool.eq_false_iff.mpr hrec]
    split <;> exact ⟨_, _, _, rfl⟩

section JoinResult

variable (v : Fin maxVifNum) (statusCode : ℕ) (s : JoinState τ)

@[simp] theorem joinResult_recovering : (joinResult v statusCode s).1.recovering = false := by
  obtain ⟨_, _, _, h⟩ := joinResult_fst v statusCode s
  rw [h]

@[simp] theorem joinResult_nums : (joinResult v statusCode s).1.nums = s.nums := by
  obtain ⟨_, _, _, h⟩ := joinResult_fst v statusCode s
  rw [h]
  rfl

@[simp] theorem joinResult_begun : (joinResult v statusCode s).1.begun = s.begun := by
  obtain ⟨_, _, _, h⟩ := joinResult_fst v statusCode s
  rw [h]

@[simp] theorem joinResult_joins : (joinResult v statusCode s).1.joins = s.joins := by
  obtain ⟨_, _, _, h⟩ := joinResult_fst v statusCode s
  rw [h]

end JoinResult

theorem mem_joins_of_awaitsResult {v : Fin maxVifNum} {j : Join} (h : awaitsResult v s = some j) :
    j ∈ s.joins := by
  obtain ⟨n, -, hn⟩ := List.mem_filterMap.mp (List.mem_of_find?_eq_some h)
  exact List.mem_of_getElem? hn

theorem RecoveryInv.joinResult (h : RecoveryInv s tr) (v : Fin maxVifNum) (statusCode : ℕ) :
    RecoveryInv (Host.joinResult v statusCode s).1
      (tr ++ (Host.joinResult v statusCode s).2) where
  nodup := by simpa using h.nodup
  begun := by simpa using h.begun
  frame := by simpa using h.frame
  answers := by
    intro a ha j hj
    rw [joinResult_joins]
    rcases List.mem_append.mp ha with ha | ha
    · exact h.answers a ha j hj
    · obtain ⟨out, hout, hno, -⟩ := joinResult_snd v statusCode s
      rw [hout] at ha
      rcases List.mem_cons.mp ha with heq | ha
      · cases heq
        exact mem_joins_of_awaitsResult hj
      · exact absurd ha (hno a)
  issuer := by
    intro j hj k hk
    rw [joinResult_begun, joinResult_nums]
    rcases List.mem_append.mp hj with hj | hj
    · exact h.issuer j hj k hk
    · obtain ⟨out, hout, -, hno⟩ := joinResult_snd v statusCode s
      rw [hout] at hj
      exact absurd ((List.mem_cons.mp hj).resolve_left nofun) (hno j)

/-! ## Recoveries -/

/-- A recovery that begins takes a number that none has had. -/
theorem RecoveryInv.staRecover (h : RecoveryInv s tr) (v : Fin maxVifNum) :
    RecoveryInv (Host.staRecover v s) tr := by
  unfold Host.staRecover
  split
  · exact h
  have hnums : ∀ s' : JoinState τ, s'.executing = s.executing ++ [⟨s.begun, v, false⟩] →
      s'.nums = s.nums ++ [s.begun] := by
    intro s' hs'
    simp [JoinState.nums, hs']
  refine { nodup := ?_, begun := ?_, frame := h.frame, answers := h.answers, issuer := ?_ }
  · rw [hnums _ rfl, List.nodup_append]
    refine ⟨h.nodup, List.nodup_singleton _, ?_⟩
    rintro k hk _ hb rfl
    exact absurd (h.begun k hk) (by simp [List.mem_singleton.mp hb])
  · intro k hk
    rw [hnums _ rfl, List.mem_append, List.mem_singleton] at hk
    rcases hk with hk | rfl
    · exact (h.begun k hk).trans (Nat.lt_succ_self _)
    · exact Nat.lt_succ_self _
  · intro j hj k hk
    obtain ⟨hlt, hnot⟩ := h.issuer j hj k hk
    refine ⟨hlt.trans (Nat.lt_succ_self _), ?_⟩
    rw [hnums _ rfl, List.mem_append, List.mem_singleton]
    rintro (hk' | rfl)
    · exact hnot hk'
    · exact Nat.lt_irrefl _ hlt

theorem Recovers.staRecover (h : Recovers s tr) (v : Fin maxVifNum) :
    Recovers (Host.staRecover v s) tr := by
  unfold Host.staRecover
  split
  · exact h
  · exact fun _ => ⟨s.begun, rfl, .inl (by simp [JoinState.nums])⟩

/-- A recovery that ends is in execution no more, and the others are. -/
theorem RecoveryInv.eraseIdx (h : RecoveryInv s tr) {k : ℕ} {r : Recovery}
    (hr : s.executing[k]? = some r) :
    RecoveryInv { s with executing := s.executing.eraseIdx k } tr ∧
      ∀ n, n ∈ JoinState.nums { s with executing := s.executing.eraseIdx k }
        ↔ n ≠ r.num ∧ n ∈ s.nums := by
  have hk : k < s.executing.length := (List.getElem?_eq_some_iff.mp hr).1
  have hk' : k < s.nums.length := by simpa [JoinState.nums] using hk
  have hnum : s.nums[k] = r.num := by
    simp [JoinState.nums, (List.getElem?_eq_some_iff.mp hr).2]
  have hnums : JoinState.nums { s with executing := s.executing.eraseIdx k }
      = s.nums.erase r.num := by
    rw [← hnum, h.nodup.erase_getElem]
    exact (List.eraseIdx_map Recovery.num s.executing k).symm
  have hmem : ∀ n, n ∈ JoinState.nums { s with executing := s.executing.eraseIdx k }
      ↔ n ≠ r.num ∧ n ∈ s.nums := by
    intro n
    rw [hnums, h.nodup.mem_erase_iff]
  refine ⟨?_, hmem⟩
  exact
    { nodup := hnums ▸ h.nodup.erase _
      begun := fun n hn => h.begun n ((hmem n).mp hn).2
      frame := h.frame
      answers := h.answers
      issuer := fun j hj n hn =>
        ⟨(h.issuer j hj n hn).1, fun hn' => (h.issuer j hj n hn).2 ((hmem n).mp hn').2⟩ }

/-- A recovery ends by itself, or joins again. -/
theorem rejoin_cases (hw : HwInfo) (env : ApiEnv) (r : Recovery) (s : JoinState τ) :
    ((s.staInfo r.vifIdx).connected = false ∧
      rejoin hw env r s = ({ s with recovering := false }, [])) ∨
    ((s.staInfo r.vifIdx).connected = true ∧
      ((JoinAccepts env (s.staInfo r.vifIdx).joincfg.vifIdx s ∧ ∃ cjreq staInfo api,
          rejoin hw env r s = handOver (some r.num) cjreq { s with staInfo, api }) ∨
        (¬ JoinAccepts env (s.staInfo r.vifIdx).joincfg.vifIdx s ∧ ∃ staInfo api,
          rejoin hw env r s = ({ s with staInfo, api }, [])))) := by
  cases hconn : (s.staInfo r.vifIdx).connected with
  | false => exact .inl ⟨rfl, by simp [rejoin, hconn]⟩
  | true =>
    refine .inr ⟨rfl, ?_⟩
    simp only [rejoin, hconn, if_true]
    rcases ssv6xxxWifiJoin_cases hw env (some r.num) (s.staInfo r.vifIdx).joincfg
      { s with staInfo := Function.update s.staInfo r.vifIdx _ } with
      ⟨hacc, api, h⟩ | ⟨hacc, api, h⟩
    · exact .inl ⟨hacc, _, _, api, h⟩
    · exact .inr ⟨hacc, _, api, h⟩

/-! ## Steps -/

variable (hw : HwInfo) (side : Cmd.TxSide τ ι)

/-- The end of a recovery. -/
theorem recovers_rejoin_iff (hinv : RecoveryInv s tr) {k : ℕ} {r : Recovery}
    (hr : s.executing[k]? = some r) (env : ApiEnv) :
    let s' := rejoin hw env r { s with executing := s.executing.eraseIdx k }
    RecoveryInv s'.1 (tr ++ s'.2) ∧
      (Recovers s tr → (Recovers s'.1 (tr ++ s'.2) ↔
        (r.num + 1 = s.begun → s.recovering = true → (s.staInfo r.vifIdx).connected = true →
          JoinAccepts env (s.staInfo r.vifIdx).joincfg.vifIdx s))) := by
  obtain ⟨hinv₀, hmem⟩ := hinv.eraseIdx hr
  have hnum : r.num ∈ s.nums := List.mem_map_of_mem (List.mem_of_getElem? hr)
  have hissuer : ∀ n, some r.num = some n → n < s.begun ∧
      n ∉ JoinState.nums { s with executing := s.executing.eraseIdx k } := by
    rintro _ ⟨⟩
    exact ⟨hinv.begun _ hnum, fun h => ((hmem _).mp h).1 rfl⟩
  -- a recovery that did not set the flag leaves it to the one that did
  have hother : Recovers s tr → r.num + 1 ≠ s.begun →
      Recovers { s with executing := s.executing.eraseIdx k } tr := by
    intro hs hne hrec
    obtain ⟨n, hn, hn' | hn'⟩ := hs hrec
    · exact ⟨n, hn, .inl ((hmem n).mpr ⟨by omega, hn'⟩)⟩
    · exact ⟨n, hn, .inr hn'⟩
  rcases rejoin_cases hw env r { s with executing := s.executing.eraseIdx k } with
    ⟨hconn, h⟩ | ⟨hconn, ⟨hacc, cjreq, staInfo, api, h⟩ | ⟨hacc, staInfo, api, h⟩⟩
  · -- no link: the recovery clears the flag itself
    simp only [h, List.append_nil]
    exact ⟨hinv₀.congr rfl rfl rfl, fun _ =>
      iff_of_true (recovers_of_not_recovering rfl) fun _ _ hlink =>
        absurd hlink (Bool.eq_false_iff.mp hconn)⟩
  · -- the re-join was handed over
    simp only [h]
    have hinv₁ : RecoveryInv
        { s with executing := s.executing.eraseIdx k, staInfo := staInfo, api := api } tr :=
      hinv₀.congr rfl rfl rfl
    refine ⟨hinv₁.handOver cjreq hissuer, fun hs => iff_of_true ?_ fun _ _ _ => hacc⟩
    by_cases howner : r.num + 1 = s.begun
    · exact fun _ => ⟨r.num, howner, .inr (hinv₁.outstanding_handOver r.num cjreq)⟩
    · exact Recovers.handOver ((hother hs howner).congr rfl rfl rfl) _ _
  · -- the re-join was refused
    simp only [h, List.append_nil]
    refine ⟨hinv₀.congr rfl rfl rfl, fun hs => ?_⟩
    by_cases howner : r.num + 1 = s.begun ∧ s.recovering = true
    · refine iff_of_false (fun hrec => ?_) fun h => hacc (h howner.1 howner.2 hconn)
      obtain ⟨n, hn, hn' | ⟨j, hj, hj', -⟩⟩ := hrec howner.2
      · exact ((hmem n).mp hn').1 (Nat.succ_injective (hn.trans howner.1.symm))
      · have hn : n = r.num := Nat.succ_injective (hn.trans howner.1.symm)
        exact (hinv.issuer j hj n hj').2 (hn ▸ hnum)
    · refine iff_of_true ?_ fun h₁ h₂ => absurd ⟨h₁, h₂⟩ howner
      by_cases howner' : r.num + 1 = s.begun
      · exact recovers_of_not_recovering (Bool.eq_false_iff.mpr fun h => howner ⟨howner', h⟩)
      · exact (hother hs howner').congr rfl rfl rfl

/-- One step. -/
theorem recovers_step (hinv : RecoveryInv s tr) (i : JoinIn ι) :
    let s' := joinStep hw side s i
    RecoveryInv s'.1 (tr ++ s'.2) ∧
      (Recovers s tr → (Recovers s'.1 (tr ++ s'.2) ↔ RejoinAccepted s i)) := by
  -- a step that leaves alone what is under way
  have quiet : ∀ s' : JoinState τ, s'.nums = s.nums → s'.begun = s.begun → s'.joins = s.joins →
      s'.recovering = s.recovering →
      RecoveryInv s' (tr ++ []) ∧ (Recovers s tr → (Recovers s' (tr ++ []) ↔ True)) := by
    intro s' hnums hbegun hjoins hrec
    rw [List.append_nil]
    exact ⟨hinv.congr hnums hbegun hjoins,
      fun hs => iff_true_intro (hs.congr hnums hbegun hrec)⟩
  cases i with
  | wifiJoin env cjreq =>
    simp only [joinStep, RejoinAccepted]
    rcases ssv6xxxWifiJoin_cases hw env none cjreq s with ⟨-, api, h⟩ | ⟨-, api, h⟩ <;> rw [h]
    · have hinv' : RecoveryInv { s with api } tr := hinv.congr rfl rfl rfl
      refine ⟨hinv'.handOver _ (by simp), fun hs => ?_⟩
      have hs' : Recovers { s with api } tr := hs.congr rfl rfl rfl
      exact iff_true_intro (hs'.handOver _ _)
    · exact quiet _ rfl rfl rfl rfl
  | post m => exact quiet _ rfl rfl rfl rfl
  | hostApi state => exact quiet _ rfl rfl rfl rfl
  | engine malloc => exact quiet _ rfl rfl rfl rfl
  | tx i => exact quiet _ rfl rfl rfl rfl
  | txDrop k => exact quiet _ rfl rfl rfl rfl
  | joinResult v statusCode =>
    exact ⟨hinv.joinResult v statusCode, fun _ =>
      iff_true_intro (recovers_of_not_recovering (joinResult_recovering v statusCode s))⟩
  | staRecover v =>
    simp only [joinStep, List.append_nil]
    exact ⟨hinv.staRecover v, fun hs => iff_true_intro (hs.staRecover v)⟩
  | recoverOn k env =>
    simp only [joinStep, recoverOn, RejoinAccepted]
    cases hr : s.executing[k]? with
    | none =>
      simpa using quiet s rfl rfl rfl rfl
    | some r =>
      simp only [Option.some.injEq, forall_eq']
      cases hflushed : r.flushed with
      | false =>
        have hnums : ∀ s' : JoinState τ,
            s'.executing = s.executing.set k { r with flushed := true } → s'.nums = s.nums := by
          intro s' hs'
          obtain ⟨hk, hget⟩ := List.getElem?_eq_some_iff.mp hr
          have hk' : k < s.nums.length := by simpa [JoinState.nums] using hk
          have hself : s.nums[k] = r.num := by simp [JoinState.nums, hget]
          calc s'.nums = s.nums.set k r.num := by simp [JoinState.nums, hs', List.map_set]
            _ = s.nums := by rw [← hself, List.set_getElem_self hk']
        simpa using quiet
          { s with
            eng := (Cmd.flushPendingCmds s.eng).1
            executing := s.executing.set k { r with flushed := true } } (hnums _ rfl) rfl rfl rfl
      | true =>
        simpa using recovers_rejoin_iff hw hinv hr env

/-- In every state of a run, a set `recovering` has a recovery in execution or a re-join with a
result to come, exactly when no recovery that has to join again is left without its re-join. -/
theorem recovers_run_iff (hwMode : Fin maxVifNum → HwMode) (tx : τ) (is : List (JoinIn ι)) :
    (∀ js, js <+: is → Recovers (Machine.run (joinStep hw side) (joinInit hwMode tx) js).1
        (Machine.run (joinStep hw side) (joinInit hwMode tx) js).2)
      ↔ Machine.Meets (joinStep hw side) RejoinAccepted (joinInit hwMode tx) is := by
  refine Machine.forall_prefix_iff_meets (I := RecoveryInv) ?_
    (fun s tr i hinv => (recovers_step hw side hinv i).1) (recovers_of_not_recovering rfl)
    (fun s tr i hinv hs => (recovers_step hw side hinv i).2 hs) is
  constructor <;> simp [joinInit, JoinState.nums]

/-- A link on interface 0, and a recovery whose re-join gets no frame. -/
def refusedRejoin : List (JoinIn Empty) :=
  [.wifiJoin ⟨true, true, true, true⟩ { JoinRequest.zero with wmmUsed := true }, .engine true,
    .joinResult vif0 0, .staRecover vif0,
    .recoverOn 0 ⟨true, true, true, true⟩, .recoverOn 0 ⟨true, false, true, true⟩]

/-- `recovering` stays set with no recovery in execution and no re-join accepted. -/
theorem not_recovers_refusedRejoin :
    let hw : HwInfo := ⟨false, 0, 0, []⟩
    let side : Cmd.TxSide Unit Empty := ⟨fun s _ => (s, true), fun s _ => s⟩
    let r := Machine.run (joinStep hw side) (joinInit (fun _ => .sta) ()) refusedRejoin
    ¬ Recovers r.1 r.2 := by
  intro hw side r h
  have htrace : ∀ j, .accepted j ∈ r.2 → j.issuer = none := by
    have hr : r.2 = [.accepted ⟨0, { JoinRequest.zero with wmmUsed := true }, none⟩,
        .handled ⟨vif0, 0, false,
          some ⟨0, { JoinRequest.zero with wmmUsed := true }, none⟩,
          { JoinRequest.zero with wmmUsed := true }⟩, .evtCb (.joinResult 0)] := rfl
    simp [hr]
  obtain ⟨k, -, hk | ⟨j, hj, hissuer, -⟩⟩ := h rfl
  · exact absurd hk (List.not_mem_nil)
  · rw [htrace j hj] at hissuer
    cases hissuer

/-! ## What the flag costs -/

/-- With nothing in execution, a set flag refuses every recovery until a result is handled. -/
theorem refused_until_joinResult (hrec : s.recovering = true) (hexec : s.executing = [])
    (is : List (JoinIn ι)) (his : ∀ v statusCode, .joinResult v statusCode ∉ is) :
    (Machine.run (joinStep hw side) s is).1.recovering = true ∧
      (Machine.run (joinStep hw side) s is).1.begun = s.begun := by
  induction is generalizing s with
  | nil => exact ⟨hrec, rfl⟩
  | cons i is ih =>
    have hstep : (joinStep hw side s i).1.recovering = true ∧
        (joinStep hw side s i).1.executing = [] ∧ (joinStep hw side s i).1.begun = s.begun := by
      cases i with
      | wifiJoin env cjreq =>
        simp only [joinStep]
        rcases ssv6xxxWifiJoin_cases hw env none cjreq s with ⟨-, api, h⟩ | ⟨-, api, h⟩ <;> rw [h]
        · exact ⟨hrec, hexec, rfl⟩
        · exact ⟨hrec, hexec, rfl⟩
      | joinResult v statusCode => exact absurd List.mem_cons_self (his v statusCode)
      | staRecover v => simp [joinStep, staRecover, hrec, hexec]
      | recoverOn k env => simp [joinStep, recoverOn, hrec, hexec]
      | post | hostApi | engine | tx | txDrop => exact ⟨hrec, hexec, rfl⟩
    obtain ⟨hrec', hexec', hbegun⟩ := hstep
    obtain ⟨h₁, h₂⟩ := ih hrec' hexec' fun v c h => his v c (List.mem_cons_of_mem _ h)
    exact ⟨h₁, h₂.trans hbegun⟩

/-- A handled result lets the next recovery begin. -/
theorem staRecover_joinResult (v w : Fin maxVifNum) (statusCode : ℕ) (s : JoinState τ) :
    (staRecover w (joinResult v statusCode s).1).begun = s.begun + 1 := by
  simp [staRecover]

end Fullmac.Host
