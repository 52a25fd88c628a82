import Fullmac.Ap.HtProtection

/-!
# The ERP protection that was told

There are two reasons for ERP protection, a station without ERP rates and an overlapping legacy
network, and the firmware is told when the first of them appears and when the last of them goes. A
recovery makes the firmware forget; then only the stations are looked at.
-/

namespace Fullmac.Ap

open Table

variable {cfg : BssCfg} {p : Protection cfg} {tr : List Told}

/-! ## Stations without ERP rates -/

section Stations

variable {cfg : ApCfg} {s : ApInfo cfg} {i : StaIdx cfg}

theorem setCounted_num (s : ApInfo cfg) (i : StaIdx cfg) (c c' : Counted) :
    (setCounted s i c).num c'
      = if c' = c ∧ (s.sta i).counted c = false then inc8 (s.num c) else s.num c' := by
  unfold setCounted
  cases hc : (s.sta i).counted c with
  | true => simp
  | false => by_cases hcc : c' = c <;> simp [ApInfo.modSta, hcc]

theorem clearCounted_num (s : ApInfo cfg) (i : StaIdx cfg) (c c' : Counted) :
    (clearCounted s i c).num c'
      = if c' = c ∧ (s.sta i).counted c = true then dec8 (s.num c) else s.num c' := by
  unfold clearCounted
  cases hc : (s.sta i).counted c with
  | false => simp
  | true => by_cases hcc : c' = c <;> simp [ApInfo.modSta, hcc]

theorem clearCounted_foldl_num (i : StaIdx cfg) (l : List Counted) (hl : l.Nodup) (s : ApInfo cfg)
    (c : Counted) :
    (l.foldl (fun s c => clearCounted s i c) s).num c
      = if c ∈ l ∧ (s.sta i).counted c = true then dec8 (s.num c) else s.num c := by
  induction l generalizing s with
  | nil => simp
  | cons a l ih =>
    obtain ⟨ha, hl⟩ := List.nodup_cons.mp hl
    have hcounted : ((clearCounted s i a).sta i).counted c
        = if c = a then false else (s.sta i).counted c := clearCounted_counted s i a c
    rw [List.foldl_cons, ih hl, hcounted, clearCounted_num]
    by_cases hca : c = a
    · subst hca
      simp [ha]
    · simp [hca]

/-- The counters of a station that leaves go down. -/
theorem apStaInfoFree_num (hv : (s.sta i).valid = true) (c : Counted) :
    (apStaInfoFree s i).num c = if (s.sta i).counted c then dec8 (s.num c) else s.num c := by
  unfold apStaInfoFree
  rw [if_neg (by simp [hv])]
  extract_lets s₁ s₂ s₃ s₄
  have h₁ : SameCounts s s₁ := by
    have hmod : SameCounts s (s.modSta i fun st => { st with valid := false }) := .modSta rfl
    refine hmod.trans ⟨?_, fun j => by rw [endSessions_sta]⟩
    dsimp only [s₁]
    unfold endSessions
    split <;> rfl
  have h₂ : SameCounts s s₂ :=
    h₁.trans ((SameCounts.apStaSetAuthorized s₁ i false).trans (.drvRemove _ i))
  have h₃ : SameCounts s s₃ := by
    refine h₂.trans ⟨?_, fun j => ?_⟩ <;> dsimp only [s₃] <;> unfold decNumSta releaseAid <;>
      split_ifs <;> rfl
  have h₄ : s₄.num c = if (s.sta i).counted c then dec8 (s.num c) else s.num c := by
    rw [clearCounted_foldl_num i countedBits (by decide) s₃ c, h₃.num, h₃.counted]
    simp [mem_countedBits]
  exact h₄

theorem setCounted_num_of_ne (s : ApInfo cfg) (i : StaIdx cfg) {c c' : Counted} (h : c' ≠ c) :
    (setCounted s i c).num c' = s.num c' := by
  rw [setCounted_num, if_neg fun h' => h h'.1]

theorem setCounted_unless_num_of_ne (s : ApInfo cfg) (i : StaIdx cfg) (b : Bool) {c c' : Counted}
    (h : c' ≠ c) : (if b then s else setCounted s i c).num c' = s.num c' := by
  split
  · rfl
  · exact setCounted_num_of_ne s i h

theorem updateHtState_num_nonErp (s : ApInfo cfg) (i : StaIdx cfg) :
    (updateHtState s i).num .nonErp = s.num .nonErp := by
  unfold updateHtState
  extract_lets s₁
  split
  · exact (setCounted_unless_num_of_ne s₁ i _ (by decide)).trans
      (setCounted_unless_num_of_ne s i _ (by decide))
  · exact setCounted_num_of_ne s i (by decide)

/-- Of the counters, that of the stations without ERP rates goes up at most by one. -/
theorem recordAssoc_num_nonErp (s : ApInfo cfg) (i : StaIdx cfg) (r : AssocReq) :
    (recordAssoc s i r).num .nonErp
      = if cfg.erp && ((s.sta i).noted r).nonerp && !(s.sta i).counted .nonErp then
          inc8 (s.num .nonErp)
        else s.num .nonErp := by
  unfold recordAssoc
  extract_lets fast s₁ s₂ s₃ s₄ s₅ s₆ s₇
  have h₁ : (s₁.sta i).nonerp = ((s.sta i).noted r).nonerp ∧
      (s₁.sta i).counted = (s.sta i).counted := by
    dsimp only [s₁]
    rw [modSta_sta_self]
    exact ⟨rfl, rfl⟩
  have h₂ : s₂.num .nonErp
      = if cfg.erp && ((s.sta i).noted r).nonerp && !(s.sta i).counted .nonErp then
          inc8 (s.num .nonErp)
        else s.num .nonErp := by
    dsimp only [s₂]
    rw [h₁.1]
    cases cfg.erp && ((s.sta i).noted r).nonerp with
    | false => rfl
    | true =>
      rw [if_pos rfl, setCounted_num, h₁.2]
      simp only [true_and, Bool.true_and, Bool.not_eq_true']
      rfl
  have h₃ : s₃.num .nonErp = s₂.num .nonErp := setCounted_unless_num_of_ne s₂ i _ (by decide)
  have h₅ : s₅.num .nonErp = s₃.num .nonErp := setCounted_unless_num_of_ne s₄ i _ (by decide)
  have h₆ : s₆.num .nonErp = s₅.num .nonErp := updateHtState_num_nonErp s₅ i
  have h₇ : s₇.num .nonErp = s₆.num .nonErp := by
    dsimp only [s₇]
    split
    · rfl
    · exact congrFun (SameCounts.apStaSetAuthorized s₆ i true).num .nonErp
  change s₇.num .nonErp = _
  rw [h₇, h₆, h₅, h₃, h₂]

/-- The stations counted as without ERP rates. -/
def ApInfo.nonErps (s : ApInfo cfg) : StaIdx cfg → Bool := fun j => (s.sta j).counted .nonErp

/-- The counter of the stations without ERP rates is right. -/
def ErpCounted (s : ApInfo cfg) : Prop := s.num .nonErp = count id s.nonErps

theorem SameCounts.erpCounted {s' : ApInfo cfg} (h : SameCounts s s') (hs : ErpCounted s) :
    ErpCounted s' := by
  rw [ErpCounted, h.num, hs]
  exact count_congr fun j => congrFun (h.counted j).symm .nonErp

theorem ErpCounted.lt (h : ErpCounted s) : s.num .nonErp < 255 := by
  have hle := count_le id s.nonErps
  have hmax := cfg.maxAid_le
  rw [← h, Fintype.card_fin] at hle
  omega

theorem ErpCounted.pos (h : ErpCounted s) (hi : s.nonErps i = true) : 0 < s.num .nonErp := by
  rw [h]
  exact count_pos hi

/-- The counter is right if it follows the one station that changes. -/
theorem ErpCounted.update {s' : ApInfo cfg} (h : ErpCounted s) {b : Bool}
    (hbits : s'.nonErps = Function.update s.nonErps i b)
    (hnum : s'.num .nonErp = if b = s.nonErps i then s.num .nonErp
      else if b then inc8 (s.num .nonErp) else dec8 (s.num .nonErp)) : ErpCounted s' := by
  have hlt := h.lt
  rw [ErpCounted, hnum, hbits]
  split
  case isTrue hb => rw [count_update_of_eq hb, h]
  case isFalse hb =>
    cases b with
    | true =>
      have hi : s.nonErps i = false := by simpa using Ne.symm hb
      have hsucc : count id (Function.update s.nonErps i true) = count id s.nonErps + 1 :=
        count_update_succ hi rfl
      rw [if_pos rfl, inc8_of_lt hlt, hsucc, h]
    | false =>
      have hi : s.nonErps i = true := by simpa using Ne.symm hb
      have hpred : count id (Function.update s.nonErps i false) + 1 = count id s.nonErps :=
        count_update_pred hi rfl
      rw [if_neg Bool.false_ne_true, h, ← hpred]
      rw [h, ← hpred] at hlt
      exact dec8_succ (by omega)

theorem ErpCounted.apStaInfoFree (h : ErpCounted s) (i : StaIdx cfg) :
    ErpCounted (apStaInfoFree s i) := by
  cases hv : (s.sta i).valid with
  | false =>
    rw [apStaInfoFree_of_not_valid hv]
    exact h
  | true =>
    have hbits : (Ap.apStaInfoFree s i).nonErps = Function.update s.nonErps i false := by
      funext j
      by_cases hj : j = i
      · subst hj
        rw [Function.update_self]
        exact (apStaInfoFree_gone hv).2 .nonErp
      · rw [Function.update_of_ne hj]
        exact congrArg (fun st : Station cfg => st.counted .nonErp) (apStaInfoFree_sta_of_ne s hj)
    refine h.update hbits ?_
    rw [apStaInfoFree_num hv]
    cases hi : s.nonErps i <;> rw [ApInfo.nonErps] at hi <;> simp [hi]

theorem ErpCounted.recordAssoc (herp : cfg.erp = true) (h : ErpCounted s) (i : StaIdx cfg)
    (r : AssocReq) : ErpCounted (recordAssoc s i r) := by
  have hbits : (Ap.recordAssoc s i r).nonErps
      = Function.update s.nonErps i (s.nonErps i || ((s.sta i).noted r).nonerp) := by
    funext j
    by_cases hj : j = i
    · subst hj
      rw [Function.update_self]
      exact congrArg (fun p : Profile => p.counted .nonErp) (recordAssoc_profile_self herp s j r)
    · rw [Function.update_of_ne hj]
      exact congrArg (fun st : Station cfg => st.counted .nonErp)
        ((recordAssoc_unmoved s i r).others j hj)
  refine h.update hbits ?_
  rw [recordAssoc_num_nonErp, herp]
  cases hi : s.nonErps i <;> cases ((s.sta i).noted r).nonerp <;> rw [ApInfo.nonErps] at hi <;>
    simp [hi]

end Stations

/-! ## What the firmware knows -/

/-- Whether the firmware protects after it is told something. -/
def Told.erp (on : Bool) : Told → Bool
  | .firmwareStart => false
  | .erpProtect on' => on'
  | .htProtect _ => on

/-- Whether the firmware was told last, since it started, to protect. -/
def lastErp (tr : List Told) : Bool := tr.foldl Told.erp false

theorem lastErp_append (tr tr' : List Told) :
    lastErp (tr ++ tr') = tr'.foldl Told.erp (lastErp tr) :=
  List.foldl_append

theorem lastErp_append_if (tr : List Told) (c : Prop) [Decidable c] (on : Bool) :
    lastErp (tr ++ if c then [.erpProtect on] else []) = if c then on else lastErp tr := by
  rw [lastErp_append]
  split <;> rfl

/-- What is told of HT changes nothing. -/
theorem lastErp_append_updateHtOperation (tr : List Told) (p : Protection cfg) :
    lastErp (tr ++ p.updateHtOperation.2) = lastErp tr := by
  rw [lastErp_append, Protection.updateHtOperation]
  dsimp only
  split <;> rfl

/-- The firmware protects exactly when there is a reason to. -/
def ErpAgrees (p : Protection cfg) (tr : List Told) : Prop :=
  lastErp tr = true ↔ 0 < p.ap.num .nonErp ∨ p.nb.olbc = true

instance (p : Protection cfg) (tr : List Told) : Decidable (ErpAgrees p tr) :=
  inferInstanceAs (Decidable (_ ↔ _))

/-- An overlapping network is the only reason to protect, and the firmware does not know of it. -/
structure ErpForgotten (p : Protection cfg) (tr : List Told) : Prop where
  noStation : p.ap.num .nonErp = 0
  olbc : p.nb.olbc = true
  told : lastErp tr = false

theorem ErpForgotten.not_erpAgrees (h : ErpForgotten p tr) : ¬ ErpAgrees p tr := by
  intro hagrees
  have htold := hagrees.mpr (.inr h.olbc)
  rw [h.told] at htold
  exact Bool.false_ne_true htold

/-! ## Steps -/

/-- The firmware is told of the first station. -/
theorem ErpAgrees.recordAssoc (hc : ErpCounted p.ap) (h : ErpAgrees p tr) (i : StaIdx cfg.ap)
    (r : AssocReq) : ErpAgrees (p.recordAssoc i r).1 (tr ++ (p.recordAssoc i r).2) := by
  have hnum := recordAssoc_num_nonErp p.ap i r
  have hlt := hc.lt
  rw [inc8_of_lt hlt] at hnum
  rw [ErpAgrees, recordAssoc_ap, recordAssoc_nb, Protection.recordAssoc]
  dsimp only
  rw [← List.append_assoc, lastErp_append_updateHtOperation, lastErp_append_if, hnum]
  rw [ErpAgrees] at h
  cases cfg.ap.erp && ((p.ap.sta i).noted r).nonerp && !(p.ap.sta i).counted .nonErp with
  | false => simpa using h
  | true =>
    by_cases hzero : p.ap.num .nonErp = 0
    · simp [hzero]
    · have hpos : 0 < p.ap.num .nonErp := Nat.pos_of_ne_zero hzero
      simp [hzero, h.mpr (.inl hpos)]

/-- What a departure does to the counter and to what the firmware knows. -/
theorem apStaInfoFree_erp (hc : ErpCounted p.ap) (i : StaIdx cfg.ap) (tr : List Told) :
    ((apStaInfoFree p.ap i).num .nonErp = p.ap.num .nonErp ∧
        lastErp (tr ++ (p.apStaInfoFree i).2) = lastErp tr) ∨
      ((apStaInfoFree p.ap i).num .nonErp + 1 = p.ap.num .nonErp ∧
        lastErp (tr ++ (p.apStaInfoFree i).2)
          = if (apStaInfoFree p.ap i).num .nonErp = 0 ∧ p.nb.olbc = false then false
            else lastErp tr) := by
  rw [Protection.apStaInfoFree]
  cases hv : (p.ap.sta i).valid with
  | false =>
    refine .inl ⟨congrArg (fun s : ApInfo cfg.ap => s.num .nonErp)
      (apStaInfoFree_of_not_valid hv), ?_⟩
    rw [Bool.not_false]
    dsimp only
    rw [if_pos rfl, List.append_nil]
  | true =>
    have hnum := apStaInfoFree_num hv .nonErp
    rw [Bool.not_true]
    dsimp only
    rw [if_neg Bool.false_ne_true]
    dsimp only
    rw [← List.append_assoc, lastErp_append_updateHtOperation, lastErp_append_if]
    cases hi : (p.ap.sta i).counted .nonErp with
    | false =>
      rw [hi] at hnum
      exact .inl ⟨hnum, by simp⟩
    | true =>
      -- the station is counted, so its departure does not wrap the counter
      have hpos : 0 < p.ap.num .nonErp := hc.pos hi
      have hlt := hc.lt
      obtain ⟨n, hn⟩ : ∃ n, p.ap.num .nonErp = n + 1 := ⟨_, (Nat.succ_pred hpos.ne').symm⟩
      rw [hi, if_pos rfl, hn, dec8_succ (by omega)] at hnum
      exact .inr ⟨by rw [hnum, hn], by simp⟩

/-- The firmware is told of the last station, unless there is a network. -/
theorem ErpAgrees.apStaInfoFree (hc : ErpCounted p.ap) (h : ErpAgrees p tr) (i : StaIdx cfg.ap) :
    ErpAgrees (p.apStaInfoFree i).1 (tr ++ (p.apStaInfoFree i).2) := by
  rw [ErpAgrees] at h
  rw [ErpAgrees, apStaInfoFree_ap, apStaInfoFree_nb]
  rcases apStaInfoFree_erp hc i tr with ⟨hnum, htold⟩ | ⟨hnum, htold⟩
  · rw [hnum, htold]
    exact h
  · have hbefore : lastErp tr = true := h.mpr (.inl (by omega))
    rw [htold, hbefore]
    by_cases hzero : (Ap.apStaInfoFree p.ap i).num .nonErp = 0
    · cases p.nb.olbc <;> simp [hzero]
    · simp [hzero, Nat.pos_of_ne_zero hzero]

/-- No station that leaves reminds the firmware. -/
theorem ErpForgotten.apStaInfoFree (hc : ErpCounted p.ap) (h : ErpForgotten p tr)
    (i : StaIdx cfg.ap) : ErpForgotten (p.apStaInfoFree i).1 (tr ++ (p.apStaInfoFree i).2) := by
  have hzero := h.noStation
  rcases apStaInfoFree_erp hc i tr with ⟨hnum, htold⟩ | ⟨hnum, -⟩
  · exact ⟨by rw [apStaInfoFree_ap, hnum, hzero], by rw [apStaInfoFree_nb, h.olbc],
      htold.trans h.told⟩
  · omega

theorem deauthenticate_erpAgrees (p : Protection cfg) (i : StaIdx cfg.ap) (tr : List Told) :
    ErpAgrees (p.deauthenticate i) tr ↔ ErpAgrees p tr := by
  rw [ErpAgrees, (deauthenticate_sameCounts p i).num]
  rfl

/-- The counter, and what the firmware knows of it, while stations are removed. -/
theorem removeNext_erp (hc : ErpCounted p.ap) (i : StaIdx cfg.ap) (tr : List Told) :
    ErpCounted (p.removeNext i).1.ap ∧
      (ErpAgrees p tr → ErpAgrees (p.removeNext i).1 (tr ++ (p.removeNext i).2)) ∧
      (ErpForgotten p tr → ErpForgotten (p.removeNext i).1 (tr ++ (p.removeNext i).2)) := by
  rw [Protection.removeNext]
  split
  case isFalse =>
    rw [List.append_nil]
    exact ⟨hc, id, id⟩
  case isTrue =>
    have hsame := deauthenticate_sameCounts p i
    have hc' : ErpCounted (p.deauthenticate i).ap := hsame.erpCounted hc
    rw [Protection.removeSilent]
    refine ⟨?_, fun h => ?_, fun h => ?_⟩
    · rw [apStaInfoFree_ap]
      exact hc'.apStaInfoFree i
    · exact ((deauthenticate_erpAgrees p i tr).mpr h).apStaInfoFree hc' i
    · have h' : ErpForgotten (p.deauthenticate i) tr :=
        ⟨(congrFun hsame.num .nonErp).trans h.noStation, h.olbc, h.told⟩
      exact h'.apStaInfoFree hc' i

theorem removeNext_run_erp (hc : ErpCounted p.ap) (tr : List Told) (l : List (StaIdx cfg.ap)) :
    ErpCounted (Machine.run Protection.removeNext p l).1.ap ∧
      (ErpAgrees p tr → ErpAgrees (Machine.run Protection.removeNext p l).1
        (tr ++ (Machine.run Protection.removeNext p l).2)) ∧
      (ErpForgotten p tr → ErpForgotten (Machine.run Protection.removeNext p l).1
        (tr ++ (Machine.run Protection.removeNext p l).2)) := by
  refine Machine.run_induction (P := fun p' _ tr' => ErpCounted p'.ap ∧
    (ErpAgrees p tr → ErpAgrees p' (tr ++ tr')) ∧
    (ErpForgotten p tr → ErpForgotten p' (tr ++ tr'))) ?_ ?_ l
  · rw [List.append_nil]
    exact ⟨hc, id, id⟩
  · rintro p' _ tr' i ⟨hc', hagrees, hforgotten⟩
    rw [← List.append_assoc]
    obtain ⟨hcounted, hkeep, hstuck⟩ := removeNext_erp hc' i (tr ++ tr')
    exact ⟨hcounted, fun h => hkeep (hagrees h), fun h => hstuck (hforgotten h)⟩

/-- What a recovery tells first is right, unless it forgets the network. -/
theorem recoverTold_erp (p : Protection cfg) (tr : List Told) :
    lastErp (tr ++ ([.firmwareStart, p.tellHt]
      ++ if 1 ≤ p.ap.num .nonErp then [.erpProtect true] else []))
      = decide (1 ≤ p.ap.num .nonErp) := by
  rw [← List.append_assoc, lastErp_append_if, lastErp_append]
  by_cases hpos : 1 ≤ p.ap.num .nonErp <;> simp [hpos, Told.erp, Protection.tellHt]

/-- After a recovery the firmware protects when it should, unless a network was the only reason. -/
theorem apRecover_erpAgrees_iff (hc : ErpCounted p.ap) (tr : List Told) :
    ErpAgrees p.apRecover.1 (tr ++ p.apRecover.2)
      ↔ ¬ (p.nb.olbc = true ∧ p.ap.num .nonErp = 0) := by
  have htold := recoverTold_erp p tr
  rw [Protection.apRecover, ← List.append_assoc]
  obtain ⟨-, hagrees, hforgotten⟩ := removeNext_run_erp hc (tr ++ ([.firmwareStart, p.tellHt]
    ++ if 1 ≤ p.ap.num .nonErp then [.erpProtect true] else [])) (List.finRange cfg.ap.maxAid)
  by_cases hbad : p.nb.olbc = true ∧ p.ap.num .nonErp = 0
  · -- nothing that the removal of the stations tells helps
    have hstuck := hforgotten ⟨hbad.2, hbad.1, by rw [htold, hbad.2]; rfl⟩
    exact iff_of_false hstuck.not_erpAgrees (not_not.mpr hbad)
  · refine iff_of_true (hagrees ?_) hbad
    rw [ErpAgrees, htold, decide_eq_true_iff]
    refine ⟨.inl, ?_⟩
    rintro (hpos | holbc)
    · exact hpos
    · exact Nat.one_le_iff_ne_zero.mpr fun hzero => hbad ⟨holbc, hzero⟩

/-- The firmware is told of a network that appears, and of one that goes unless there is a station.
-/
theorem ErpAgrees.neighborStep (h : ErpAgrees p tr) (inp : NeighborIn) :
    ErpAgrees (p.neighborStep inp).1 (tr ++ (p.neighborStep inp).2) := by
  set n := (Ap.neighborStep cfg p.nb inp).1 with hn
  have htold : ErpAgrees { p with nb := n } (tr ++ olbcTold p n.olbc) := by
    rw [ErpAgrees] at h ⊢
    rw [lastErp_append, olbcTold]
    dsimp only
    by_cases hsame : n.olbc = p.nb.olbc
    · rw [if_pos hsame, hsame]
      exact h
    · rw [if_neg hsame]
      cases hset : n.olbc with
      | true => simp [Told.erp]
      | false =>
        by_cases hzero : p.ap.num .nonErp = 0
        · simp [hzero, Told.erp]
        · have hpos : 0 < p.ap.num .nonErp := Nat.pos_of_ne_zero hzero
          simp [hzero, hpos, h.mpr (.inl hpos)]
  rw [neighborStep_eq p inp hn.symm]
  split
  case isTrue => exact htold
  case isFalse =>
    rw [← List.append_assoc, ErpAgrees, lastErp_append]
    rw [ErpAgrees] at htold
    rw [hostapdHtOperationUpdate_ap, hostapdHtOperationUpdate_nb]
    exact htold

/-- Every step keeps the counter right. -/
theorem ErpCounted.step (herp : cfg.ap.erp = true) (hc : ErpCounted p.ap) (inp : ProtectIn cfg) :
    ErpCounted (protectStep p inp).1.ap := by
  cases inp with
  | assoc i r =>
    rw [protectStep, recordAssoc_ap]
    exact hc.recordAssoc herp i r
  | free i =>
    rw [protectStep, apStaInfoFree_ap]
    exact hc.apStaInfoFree i
  | neighbor inp =>
    rw [protectStep, neighborStep_eq p inp rfl]
    split
    · exact hc
    · rw [hostapdHtOperationUpdate_ap]
      exact hc
  | recover => exact (removeNext_run_erp hc [] _).1
  | other ap =>
    rw [protectStep]
    split
    case isTrue hsame => exact (sameCounts_of_eq_true hsame).erpCounted hc
    case isFalse => exact hc

/-- A recovery does not come while an overlapping network is the only reason to protect. -/
def ErpReminded (p : Protection cfg) : ProtectIn cfg → Prop
  | .recover => ¬ (p.nb.olbc = true ∧ p.ap.num .nonErp = 0)
  | _ => True

instance (p : Protection cfg) : DecidablePred (ErpReminded p)
  | .recover => inferInstanceAs (Decidable (¬ (p.nb.olbc = true ∧ p.ap.num .nonErp = 0)))
  | .assoc _ _ => .isTrue trivial
  | .free _ => .isTrue trivial
  | .neighbor _ => .isTrue trivial
  | .other _ => .isTrue trivial

/-- Of what can happen, only such a recovery makes the firmware disagree. -/
theorem ErpAgrees.step_iff (hc : ErpCounted p.ap) (h : ErpAgrees p tr) (inp : ProtectIn cfg) :
    ErpAgrees (protectStep p inp).1 (tr ++ (protectStep p inp).2) ↔ ErpReminded p inp := by
  cases inp with
  | assoc i r => exact iff_of_true (h.recordAssoc hc i r) trivial
  | free i => exact iff_of_true (h.apStaInfoFree hc i) trivial
  | neighbor inp => exact iff_of_true (h.neighborStep inp) trivial
  | recover => exact apRecover_erpAgrees_iff hc tr
  | other ap =>
    refine iff_of_true ?_ trivial
    rw [protectStep, List.append_nil]
    split
    case isTrue hsame =>
      rw [ErpAgrees] at h ⊢
      rw [(sameCounts_of_eq_true hsame).num]
      exact h
    case isFalse => exact h

theorem erpAgrees_init (cfg : BssCfg) : ErpAgrees (initProtection cfg) [] := by
  simp [ErpAgrees, lastErp, initProtection, initAp, resetNeighborApinfo]

theorem erpCounted_init (cfg : BssCfg) : ErpCounted (initProtection cfg).ap :=
  (count_eq_zero fun _ => rfl).symm

/-- **The firmware protects exactly when there is a reason to, if no recovery forgets a network.**
Associations, departures, beacons and timers, in any order, keep the protection that was last told
since the firmware started equal to what `num_sta_non_erp` and `olbc` ask for. A recovery does so
exactly when it does not come while `olbc` alone asks for it: `ssv6xxx_wifi_ap_recover` tells the
new firmware of the stations, and not of the networks. -/
theorem protectRun_erp_iff (cfg : BssCfg) (herp : cfg.ap.erp = true) (is : List (ProtectIn cfg)) :
    (∀ js, js <+: is → ErpAgrees (protectRun js).1 (protectRun js).2)
      ↔ Machine.Meets protectStep ErpReminded (initProtection cfg) is :=
  Machine.forall_prefix_iff_meets (I := fun p _ => ErpCounted p.ap) (P := ErpAgrees)
    (erpCounted_init cfg) (fun _ _ inp hc => hc.step herp inp) (erpAgrees_init cfg)
    (fun _ _ inp hc h => h.step_iff hc inp) is

/-- A recovery while there is a station reminds the firmware, which goes on protecting after the
station is removed. -/
theorem recoveredWithStation_erp :
    lastErp (protectRun recoveredWithStation).2 = true ∧
      Machine.Meets protectStep ErpReminded (initProtection openBss) recoveredWithStation ∧
      ∀ js, js <+: recoveredWithStation → ErpAgrees (protectRun js).1 (protectRun js).2 := by
  have hmeets : Machine.Meets protectStep ErpReminded (initProtection openBss)
      recoveredWithStation := by
    decide +kernel
  exact ⟨by decide +kernel, hmeets,
    (protectRun_erp_iff openBss rfl recoveredWithStation).mpr hmeets⟩

/-- A recovery while there is a legacy neighbour only. -/
theorem recoveredWithNeighbor_forgets :
    let is : List (ProtectIn openBss) :=
      [.neighbor (.beacon (legacyBeacon (Vector.replicate 6 8)) 1), .recover]
    ¬ ErpAgrees (protectRun is).1 (protectRun is).2 := by
  decide +kernel

end Fullmac.Ap
