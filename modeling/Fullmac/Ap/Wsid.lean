import Fullmac.Ap.Driver
import Fullmac.Ap.Host
import Fullmac.Ap.Lattice

/-!
# Station numbers of the hardware

The hardware has a table of `SSV_MAX_WSID` stations. A station of the access point gets its number
there when it authenticates, by looking for an entry that is not in use, but the entry is in use
only from its association on. The number is what frames, sessions and reports of the hardware refer
to, so no two stations should have the same.

A report of the hardware carries such a number. `_dq_status_handler` takes it for an index into the
table of stations, and the two are the same only by chance.
-/

namespace Fullmac.Ap

variable {cfg : ApCfg} {v : DrvView cfg} {i : StaIdx cfg}

/-! ## Looking for a free entry -/

/-- The entries in the order `ssv6006_hal_get_ava_wsid(1)` looks at them: the first one comes
last. -/
def probeOrder : List ℕ := List.range' 1 7 ++ [0]

/-- The entries that are looked at before entry `w`. -/
def probedBefore (w : ℕ) : List ℕ := probeOrder.takeWhile fun k => k ≠ w

theorem halGetAvaWsid_one (used : ℕ → Bool) :
    halGetAvaWsid used 1 = (probeOrder.find? fun k => !used k).getD ssvMaxWsid := by
  have hfirst : avaWsidFrom used 1
      = ((List.range' 1 7).find? fun k => !used k).getD ssvMaxWsid := rfl
  have hsecond : avaWsidFrom used 0
      = ((0 :: List.range' 1 7).find? fun k => !used k).getD ssvMaxWsid := rfl
  unfold halGetAvaWsid
  rw [hfirst, probeOrder, List.find?_append]
  cases hfind : (List.range' 1 7).find? fun k => !used k with
  | some k =>
    have hlt := List.mem_range'_1.mp (List.mem_of_find?_eq_some hfind)
    have hne : k ≠ ssvMaxWsid := by
      rw [ssvMaxWsid]
      omega
    simp [hne]
  | none =>
    -- all others are in use, so the second pass comes to the first entry
    rw [hsecond, List.find?_cons, hfind]
    cases h0 : used 0 <;> simp [h0]

/-- A search ends at `w` if it does not end before. -/
theorem find?_getD_eq_iff {p : ℕ → Bool} {d w : ℕ} {l : List ℕ} (hd : d ∉ l)
    (hw : w ∈ l ∨ w = d) :
    (l.find? p).getD d = w ↔ (∀ k ∈ l.takeWhile fun k => k ≠ w, p k = false) ∧
      (w ∈ l → p w = true) := by
  induction l with
  | nil =>
    obtain rfl : w = d := by simpa using hw
    simp
  | cons a l ih =>
    rw [List.mem_cons, not_or] at hd
    by_cases ha : a = w
    · subst ha
      cases hp : p a with
      | true => simp [hp]
      | false =>
        have hne : (l.find? p).getD d ≠ a := by
          cases hfind : l.find? p with
          | none => exact hd.1
          | some k =>
            have hk : p k = true := List.find?_some hfind
            intro he
            rw [show k = a from he, hp] at hk
            exact Bool.false_ne_true hk
        simp [hp, hne]
    · have hw' : w ∈ l ∨ w = d := hw.imp_left fun hmem => (List.mem_cons.mp hmem).resolve_left
        fun h => ha h.symm
      cases hp : p a with
      | true =>
        simp [hp, ha]
      | false =>
        have hmem : w ∈ a :: l ↔ w ∈ l := by simp [Ne.symm ha]
        rw [List.find?_cons, hp, List.takeWhile_cons, hmem]
        simp only [ne_eq, ha, not_false_eq_true, decide_true, if_true, List.forall_mem_cons, hp,
          true_and]
        exact ih hd.2 hw'

/-- A station has a number that no new station gets: the hardware knows it, or an entry is free that
is looked at before. -/
def DrvView.Distinguished (v : DrvView cfg) (j : StaIdx cfg) : Prop :=
  v.drv.wsid (v.sta j).wsidIdx = true ∨
    ∃ k ∈ probedBefore (v.sta j).wsidIdx, v.drv.wsid k = false

instance (v : DrvView cfg) (j : StaIdx cfg) : Decidable (v.Distinguished j) :=
  inferInstanceAs (Decidable (_ ∨ _))

/-- The numbers of stations, and of entries in use, are those of the hardware. -/
structure DrvView.Numbered (v : DrvView cfg) : Prop where
  sta : ∀ j, (v.sta j).wsidIdx ≤ ssvMaxWsid
  used : ∀ w, v.drv.wsid w = true → w < ssvMaxWsid

theorem mem_probeOrder {w : ℕ} : w ∈ probeOrder ↔ w < ssvMaxWsid := by
  simp only [probeOrder, List.mem_append, List.mem_range'_1, List.mem_singleton, ssvMaxWsid]
  omega

theorem DrvView.Numbered.newWsid_ne_iff (h : v.Numbered) (hvif : 1 < cfg.maxVifNum)
    (i j : StaIdx cfg) : (v.sta j).wsidIdx ≠ v.newWsid i ↔ v.Distinguished j := by
  have hle := h.sta j
  have hmem : (v.sta j).wsidIdx ∈ probeOrder ∨ (v.sta j).wsidIdx = ssvMaxWsid := by
    rw [mem_probeOrder]
    omega
  have hnone : ssvMaxWsid ∉ probeOrder := by simp [mem_probeOrder]
  have hnew : v.newWsid i = (probeOrder.find? fun k => !v.drv.wsid k).getD ssvMaxWsid := by
    rw [newWsid, if_pos hvif, halGetAvaWsid_one]
  rw [ne_comm, ne_eq, hnew, find?_getD_eq_iff hnone hmem, Distinguished, probedBefore]
  by_cases hused : v.drv.wsid (v.sta j).wsidIdx = true
  · have hin := mem_probeOrder.mpr (h.used _ hused)
    simp [hused, hin]
  · rw [Bool.not_eq_true] at hused
    simp [hused]

/-! ## Keeping numbers apart -/

/-- No two stations have the same number. -/
def DrvView.Unique (v : DrvView cfg) : Prop :=
  ∀ i j, i ≠ j → (v.sta i).valid = true → (v.sta j).valid = true →
    (v.sta i).wsidIdx ≠ (v.sta j).wsidIdx

/-- Who stays keeps its number. -/
theorem DrvView.Unique.of_sub {v' : DrvView cfg} (h : v.Unique)
    (hsub : ∀ i, (v'.sta i).valid = true →
      (v.sta i).valid = true ∧ (v'.sta i).wsidIdx = (v.sta i).wsidIdx) : v'.Unique := by
  intro i j hij hi hj
  rw [(hsub i hi).2, (hsub j hj).2]
  exact h i j hij (hsub i hi).1 (hsub j hj).1

/-- One station changes its number, the others keep theirs. -/
theorem DrvView.Unique.setSta_iff (h : v.Unique) {v' : DrvView cfg}
    (hi : (v'.sta i).valid = true) (hothers : ∀ j, j ≠ i → v'.sta j = v.sta j) :
    v'.Unique ↔ ∀ j, j ≠ i → (v.sta j).valid = true → (v.sta j).wsidIdx ≠ (v'.sta i).wsidIdx := by
  constructor
  · intro h' j hj hv
    rw [← hothers j hj] at hv ⊢
    exact h' j i hj hv hi
  · intro hne j k hjk hj hk
    by_cases hji : j = i
    · subst hji
      rw [hothers k hjk.symm] at hk ⊢
      exact (hne k hjk.symm hk).symm
    · rw [hothers j hji] at hj ⊢
      by_cases hki : k = i
      · subst hki
        exact hne j hji hj
      · rw [hothers k hki] at hk ⊢
        exact h j k hjk hj hk

theorem DrvView.detach_sta_of_ne (v : DrvView cfg) {j : StaIdx cfg} (h : j ≠ i) :
    (v.detach i).sta j = v.sta j := by
  simp [detach, setSta, oper, h]

theorem DrvView.detach_sta_self (v : DrvView cfg) (i : StaIdx cfg) :
    (v.detach i).sta i = { v.sta i with wsidIdx := cfg.maxAid } := by
  simp [detach, setSta]

/-- A station that leaves leaves the others alone. -/
theorem DrvView.free_sta_of_ne (v : DrvView cfg) {j : StaIdx cfg} (h : j ≠ i) :
    (v.free i).sta j = v.sta j := by
  unfold free
  split
  · simp [leave, setSta, endTimer, oper, DrvView.endSessions, h]
  · rfl

theorem DrvView.free_sta_self (v : DrvView cfg) (i : StaIdx cfg) :
    ((v.free i).sta i).valid = false := by
  unfold free
  split
  · simp [leave, setSta, DrvEntry.blank]
  · next hv => exact Bool.eq_false_iff.mpr hv

/-- Whatever has happened to the station that leaves, the numbers of the others stay apart. -/
theorem DrvView.Unique.free {v' : DrvView cfg} (h : v.Unique)
    (hothers : ∀ j, j ≠ i → v'.sta j = v.sta j) : (v'.free i).Unique := by
  refine h.of_sub fun j hj => ?_
  by_cases hji : j = i
  · subst hji
    exact absurd ((v'.free_sta_self j).symm.trans hj) (by simp)
  · rw [free_sta_of_ne v' hji, hothers j hji] at hj ⊢
    exact ⟨hj, rfl⟩

theorem DrvView.Unique.remove (h : v.Unique) (i : StaIdx cfg) : (v.remove i).Unique :=
  h.free fun _ hj => v.detach_sta_of_ne hj

theorem DrvView.Unique.evictSilent {s : ApInfo cfg} (h : s.dv.Unique) :
    (evictSilent s).dv.Unique := by
  have hremove : ∀ (s : ApInfo cfg) i, s.dv.Unique → (removeSilent s i).dv.Unique := by
    intro s i hs
    rw [removeSilent_dv]
    exact hs.remove i
  unfold Ap.evictSilent
  extract_lets first s₁
  have h₁ : s₁.dv.Unique := by
    dsimp only [s₁]
    split
    · exact hremove s first h
    · exact h
  split
  · split
    · next i _ => exact hremove s₁ i h₁
    · exact h₁
  · exact h₁

theorem DrvView.Unique.take_iff (h : v.Unique) (hv : (v.sta i).valid = false) (addr : EtherAddr)
    (w : ℕ) : (v.take i addr w).Unique ↔ ∀ j, (v.sta j).valid = true → (v.sta j).wsidIdx ≠ w := by
  have hothers : ∀ j, j ≠ i → (v.take i addr w).sta j = v.sta j := fun j hj => by
    simp [take, setSta, createTimer, hj]
  have hself : (v.take i addr w).sta i = { valid := true, addr, wsidIdx := w } := by
    simp [take, setSta]
  rw [h.setSta_iff (by rw [hself]) hothers, hself]
  refine forall_congr' fun j => ⟨fun hj hvj => hj ?_ hvj, fun hj _ => hj⟩
  rintro rfl
  exact absurd (hv.symm.trans hvj) (by simp)

/-- Nobody else is detached already. -/
theorem DrvView.Unique.detach_iff (h : v.Unique) (hv : (v.sta i).valid = true) :
    (v.detach i).Unique ↔ ∀ j, j ≠ i → (v.sta j).valid = true → (v.sta j).wsidIdx ≠ cfg.maxAid := by
  have hself := v.detach_sta_self i
  rw [h.setSta_iff (by rw [hself]; exact hv) (fun j hj => v.detach_sta_of_ne hj), hself]

/-! ## Every run -/

/-- Numbers are numbers of the hardware, if there are no more slots than entries. -/
theorem DrvMove.numbered {v' : DrvView cfg} (haid : cfg.maxAid ≤ ssvMaxWsid) (hmove : DrvMove v v')
    (h : v.Numbered) : v'.Numbered := by
  have hnew : ∀ i, v.newWsid i ≤ ssvMaxWsid := by
    intro i
    unfold DrvView.newWsid
    split
    · rw [halGetAvaWsid_one]
      cases hfind : probeOrder.find? fun k => !v.drv.wsid k with
      | none => exact le_rfl
      | some k => exact (mem_probeOrder.mp (List.mem_of_find?_eq_some hfind)).le
    · exact i.isLt.le.trans haid
  have hoper : ∀ (u : ℕ → Bool) w b, (∀ k, u k = true → k < ssvMaxWsid) →
      ∀ k, operWsid cfg u w b k = true → k < ssvMaxWsid := by
    intro u w b hu k hk
    unfold operWsid at hk
    split at hk
    · by_cases hkw : k = w
      · omega
      · rw [Function.update_of_ne hkw] at hk
        exact hu k hk
    · exact hu k hk
  have hset : ∀ {t : StaIdx cfg → DrvEntry} (i : StaIdx cfg) {e : DrvEntry},
      (∀ j, (t j).wsidIdx ≤ ssvMaxWsid) → e.wsidIdx ≤ ssvMaxWsid →
      ∀ j, (Function.update t i e j).wsidIdx ≤ ssvMaxWsid := by
    intro t i e ht he j
    by_cases hj : j = i
    · subst hj
      rwa [Function.update_self]
    · rw [Function.update_of_ne hj]
      exact ht j
  have hfree : ∀ {v : DrvView cfg} i, v.Numbered → (v.free i).Numbered := by
    intro v i hv
    unfold DrvView.free
    split
    · exact ⟨hset i hv.sta (Nat.zero_le _), hoper _ _ _ hv.used⟩
    · exact hv
  cases hmove with
  | detach i => exact ⟨hset i h.sta haid, hoper _ _ _ h.used⟩
  | attach i => exact ⟨h.sta, hoper _ _ _ h.used⟩
  | free i => exact hfree i h
  | take i addr hv => exact ⟨hset i h.sta (hnew i), h.used⟩
  | rearm i hv => exact ⟨h.sta, h.used⟩
  | fire i hv => exact ⟨h.sta, h.used⟩
  | expire i => exact hfree i (v := v.endTimer i) ⟨h.sta, h.used⟩

/-- A request is accepted, and the new station stays in slot `i`. -/
def AuthTakes (s : ApInfo cfg) (r : AuthReq) (i : StaIdx cfg) : Prop :=
  r.longEnough = true ∧ authStatus cfg r = .success ∧ findStaByAddr s r.sa = none ∧
    getNewSta (evictSilent s) = some i ∧ (authenticate ((evictSilent s).sta i) r).1 = .success

/-- A new station finds no station waiting for its association whose number comes first, and only
one station at a time is without a number. -/
def KeepsApart (s : ApInfo cfg) : ApEvent cfg → Prop
  | .auth r => ∀ i, AuthTakes s r i → ∀ j, ((evictSilent s).sta j).valid = true →
    (evictSilent s).dv.Distinguished j
  | .timer i hostApiActive inactive =>
    (s.sta i).valid = true → timerAct (s.sta i) hostApiActive inactive = .detach →
      ∀ j, j ≠ i → (s.sta j).valid = true → (s.sta j).wsidIdx ≠ cfg.maxAid
  | .drvRemove i =>
    (s.sta i).valid = true → ∀ j, j ≠ i → (s.sta j).valid = true → (s.sta j).wsidIdx ≠ cfg.maxAid
  | _ => True

/-- An authentication request. -/
theorem mlmeRxAuth_unique_iff {s : ApInfo cfg} (hvif : 1 < cfg.maxVifNum)
    (hnum : (evictSilent s).dv.Numbered) (h : s.dv.Unique) (r : AuthReq) :
    (mlmeRxAuth s r).1.dv.Unique ↔ KeepsApart s (.auth r) := by
  have hevict := h.evictSilent
  have hnever : ∀ {v : DrvView cfg}, v.Unique → (∀ i, ¬ AuthTakes s r i) →
      (v.Unique ↔ KeepsApart s (.auth r)) :=
    fun hv hnot => ⟨fun _ i hi => absurd hi (hnot i), fun _ => hv⟩
  rw [mlmeRxAuth_dv]
  split
  · next hbad =>
    refine hnever h fun i hi => ?_
    rcases hbad with hbad | hbad
    · simp [hi.1] at hbad
    · exact hbad hi.2.1
  next hok =>
  split
  · next i hfind =>
    have hnot : ∀ k, ¬ AuthTakes s r k := fun k hk => absurd (hfind.symm.trans hk.2.2.1) (by simp)
    split
    · exact hnever h hnot
    · exact hnever (h.free fun _ _ => rfl) hnot
  next hfind =>
  split
  · next hnone =>
    exact hnever hevict fun i hi => absurd (hnone.symm.trans hi.2.2.2.1) (by simp)
  next i hi =>
  dsimp only
  have hslot : ((evictSilent s).dv.sta i).valid = false := getNewSta_valid hi
  split
  · next hauth =>
    rw [hevict.take_iff hslot]
    have htakes : ∀ k, AuthTakes s r k ↔ k = i := by
      intro k
      constructor
      · rintro ⟨-, -, -, hk, -⟩
        exact (Option.some.inj (hi.symm.trans hk)).symm
      · rintro rfl
        rw [not_or, not_not] at hok
        exact ⟨by simpa using hok.1, hok.2, hfind, hi, hauth⟩
    simp only [KeepsApart, htakes, forall_eq]
    exact forall_congr' fun j => imp_congr_right fun _ => hnum.newWsid_ne_iff hvif i j
  · next hauth =>
    refine hnever (hevict.free fun j hj => ?_) fun k hk => ?_
    · simp [DrvView.take, DrvView.setSta, DrvView.createTimer, hj]
    · obtain rfl : i = k := Option.some.inj (hi.symm.trans hk.2.2.2.1)
      exact hauth hk.2.2.2.2

/-- `ap_handle_timer`. -/
theorem apHandleTimer_unique_iff {s : ApInfo cfg} (h : s.dv.Unique) (i : StaIdx cfg)
    (hostApiActive : Bool) (inactive : ℤ) :
    (apHandleTimer s i hostApiActive inactive).dv.Unique
      ↔ KeepsApart s (.timer i hostApiActive inactive) := by
  rw [apHandleTimer_dv]
  cases hv : (s.sta i).valid with
  | false => exact ⟨fun _ hv' => absurd (hv.symm.trans hv') (by simp), fun _ => h⟩
  | true =>
    have hview : (s.dv.sta i).valid = true := hv
    rw [if_neg (by simp), KeepsApart]
    cases timerAct (s.sta i) hostApiActive inactive with
    | rearm =>
      have hsame : ((s.dv.endTimer i).createTimer i).Unique := h
      simpa using hsame
    | detach =>
      simp only [hv, forall_const]
      exact DrvView.Unique.detach_iff h hview
    | free =>
      have hleft : ((s.dv.endTimer i).free i).Unique := h.free fun _ _ => rfl
      simpa using hleft

/-- One event keeps the numbers apart exactly when it meets the condition. -/
theorem apStep_unique_iff {s : ApInfo cfg} (hvif : 1 < cfg.maxVifNum)
    (haid : cfg.maxAid ≤ ssvMaxWsid) (hnum : s.dv.Numbered) (h : s.dv.Unique) (e : ApEvent cfg) :
    (apStep s e).1.dv.Unique ↔ KeepsApart s e := by
  cases e with
  | auth r =>
    exact mlmeRxAuth_unique_iff hvif
      ((evictSilent_moves s).keep (fun hm hv => hm.numbered haid hv) hnum) h r
  | timer i hostApiActive inactive => exact apHandleTimer_unique_iff h i hostApiActive inactive
  | drvRemove i =>
    change (drvRemove s i).dv.Unique ↔ _
    rw [drvRemove_dv, KeepsApart]
    cases hv : (s.sta i).valid with
    | true =>
      have hview : (s.dv.sta i).valid = true := hv
      simp only [forall_const]
      exact h.detach_iff hview
    | false =>
      simp only [Bool.false_eq_true, false_imp_iff, iff_true]
      refine h.of_sub fun j hj => ?_
      by_cases hji : j = i
      · subst hji
        rw [DrvView.detach_sta_self] at hj
        exact absurd (hv.symm.trans hj) (by simp)
      · rw [DrvView.detach_sta_of_ne _ hji] at hj ⊢
        exact ⟨hj, rfl⟩
  | assoc r =>
    refine iff_of_true ?_ trivial
    change (handleAssoc s r).1.dv.Unique
    rw [handleAssoc_dv]
    split_ifs
    · exact h
    · split
      · exact h
      · split_ifs
        · exact h
        · exact h
        · exact h.free fun _ _ => rfl
  | disassoc longEnough sa =>
    refine iff_of_true ?_ trivial
    dsimp only [apStep]
    split
    · rw [mlmeRxDisassoc_dv]
      split
      · exact h
      · exact h.free fun _ hj => s.dv.detach_sta_of_ne hj
    · exact h
  | deauth longEnough sa =>
    refine iff_of_true ?_ trivial
    dsimp only [apStep]
    split
    · rw [mlmeRxDeauth_dv]
      split
      · exact h
      · exact h.free fun _ _ => rfl
    · exact h
  | setAuthorized addr authorized =>
    refine iff_of_true ?_ trivial
    dsimp only [apStep]
    split
    · rwa [apStaSetAuthorized_dv]
    · exact h
  | disconnect addr =>
    refine iff_of_true ?_ trivial
    dsimp only [apStep]
    split
    · rw [removeSilent_dv]
      exact h.remove _
    · exact h
  | free i =>
    refine iff_of_true ?_ trivial
    change (apStaInfoFree s i).dv.Unique
    rw [apStaInfoFree_dv]
    exact h.free fun _ _ => rfl
  | rx sa kind pm up => exact iff_of_true (rxFrame_dv s sa kind pm up ▸ h) trivial
  | tx now f bAPFrame pollFlag =>
    exact iff_of_true (dv_of_ctl (dataCouldBeSend_ctl now s f bAPFrame pollFlag) ▸ h) trivial
  | pollResponse i => exact iff_of_true (dv_of_ctl (staPsDeliverPollResponse_ctl s i) ▸ h) trivial
  | uapsd i => exact iff_of_true (dv_of_ctl (staPsDeliverUapsd_ctl s i) ▸ h) trivial
  | cleanup now => exact iff_of_true (dv_of_ctl (staInfoCleanup_ctl now s) ▸ h) trivial

/-- The numbers of stations are apart, and the hardware has only numbers of its own. -/
structure WsidUnique (s : ApInfo cfg) : Prop where
  apart : ∀ i j, i ≠ j → (s.sta i).valid = true → (s.sta j).valid = true →
    (s.sta i).wsidIdx ≠ (s.sta j).wsidIdx
  used : ∀ w, s.drv.wsid w = true → w < ssvMaxWsid

/-- In all states of a run the numbers are apart, exactly when every event of the run keeps them
apart. -/
theorem apRun_wsidUnique_iff (hvif : 1 < cfg.maxVifNum) (haid : cfg.maxAid ≤ ssvMaxWsid)
    (es : List (ApEvent cfg)) :
    (∀ js, js <+: es → WsidUnique (Machine.run apStep (initAp cfg) js).1) ↔
      Machine.Meets apStep KeepsApart (initAp cfg) es := by
  refine Machine.forall_prefix_iff_meets (I := fun s _ => s.dv.Numbered)
    (P := fun s _ => WsidUnique s) ⟨fun _ => haid, nofun⟩ (fun s _ e hs => ?_)
    ⟨fun _ _ _ hi => absurd hi Bool.false_ne_true, fun _ hw => absurd hw Bool.false_ne_true⟩
    (fun s _ e hnum h => ?_) es
  · exact (apStep_moves s e).keep (fun hm hv => hm.numbered haid hv) hs
  · have hnext := (apStep_moves s e).keep (fun hm hv => hm.numbered haid hv) hnum
    rw [← apStep_unique_iff hvif haid hnum h.apart e]
    exact ⟨fun h' => h'.apart, fun h' => ⟨h', hnext.used⟩⟩

/-- An open network with as many slots as the hardware has entries. -/
def fullAp : ApCfg :=
  { openAp with
    maxAid := 8
    maxAid_pos := Nat.le_of_ble_eq_true rfl
    maxAid_le := Nat.le_of_ble_eq_true rfl
    timAllOne := false }

/-- Two stations join one after the other. -/
theorem joined_wsidUnique :
    1 < fullAp.maxVifNum ∧ fullAp.maxAid ≤ ssvMaxWsid ∧
      ∀ js, js <+: [authEvent fullAp (Vector.replicate 6 4),
        assocEvent fullAp (Vector.replicate 6 4), authEvent fullAp (Vector.replicate 6 8)] →
          WsidUnique (Machine.run apStep (initAp fullAp) js).1 := by
  refine ⟨by decide, by decide, (apRun_wsidUnique_iff (by decide) (by decide) _).mpr ?_⟩
  refine ⟨fun i _ => ?_, trivial, fun i _ => ?_, trivial⟩
  · decide +kernel
  · decide +kernel

/-- Two stations authenticate before either associates, and get the same number. -/
theorem concurrent_auth_same_wsid :
    1 < fullAp.maxVifNum ∧
      ¬ ∀ es, WsidUnique (Machine.run apStep (initAp fullAp) es).1 := by
  refine ⟨by decide, fun h => ?_⟩
  have hapart := (h [authEvent fullAp (Vector.replicate 6 4),
    authEvent fullAp (Vector.replicate 6 8)]).apart ⟨0, by decide⟩ ⟨1, by decide⟩ (by decide)
    (by decide +kernel) (by decide +kernel)
  revert hapart
  decide +kernel

/-! ## Reports -/

/-- A station has the number of a report. -/
def Addressed (s : ApInfo cfg) (w : ℕ) (j : StaIdx cfg) : Prop :=
  (s.sta j).valid = true ∧ (s.sta j).wsidIdx = w

/-- What a report should do: it sets the length for the station with its number and touches no
other station; if there is no such station it does nothing. -/
structure ReportReaches (s s' : ApInfo cfg) (w : ℕ) (len : ℤ) : Prop where
  set : ∀ j, Addressed s w j → s'.sta j = { s.sta j with fwQLen := len }
  others : ∀ j, ¬ Addressed s w j → s'.sta j = s.sta j
  nobody : (∀ j, ¬ Addressed s w j) → s' = s

/-- The handler does with a report what should be done. -/
def DqRight (s : ApInfo cfg) (w : ℕ) (len : ℤ) : Prop :=
  ∃ s', dqStatusHandler s w len = some s' ∧ ReportReaches s s' w len

/-- The number of the report is the index of the station that has it, and nobody else has it; or the
report says nothing new. -/
structure IndexIsNumber (s : ApInfo cfg) (i : StaIdx cfg) (len : ℤ) : Prop where
  others : ∀ j, j ≠ i → Addressed s i j → (s.sta j).fwQLen = len
  self : Addressed s i i ∨ (s.sta i).fwQLen = len ∧
    ((∃ j, Addressed s i j) ∨ len ≤ 0 ∨ s.tim (s.sta i).aid = true)

theorem modSta_eq_self {s : ApInfo cfg} {f : Station cfg → Station cfg}
    (h : f (s.sta i) = s.sta i) : s.modSta i f = s := by
  rw [ApInfo.modSta, h, Function.update_eq_self]

theorem recalcTimGenBeacon_tim_self (s : ApInfo cfg) (i : StaIdx cfg) :
    (recalcTimGenBeacon s i).tim (s.sta i).aid = indicateTim (s.sta i) := by
  unfold recalcTimGenBeacon staInfoRecalcTim
  dsimp only
  split
  · next hsame => exact hsame.symm
  · exact Function.update_self _ _ _

theorem recalcTimGenBeacon_eq_self {s : ApInfo cfg}
    (h : s.tim (s.sta i).aid = indicateTim (s.sta i)) :
    recalcTimGenBeacon s i = s := by
  unfold recalcTimGenBeacon staInfoRecalcTim
  dsimp only
  rw [if_pos h.symm]

/-- The station at the index of the report changes, and no other. -/
theorem dqStatusHandler_sta {s s' : ApInfo cfg} {w : ℕ} {len : ℤ}
    (h : dqStatusHandler s w len = some s') : ∃ hw : w < cfg.maxAid,
      s'.sta ⟨w, hw⟩ = { s.sta ⟨w, hw⟩ with fwQLen := len } ∧
      ∀ j, j ≠ ⟨w, hw⟩ → s'.sta j = s.sta j := by
  unfold dqStatusHandler at h
  split at h
  · next hw =>
    have hsta : s'.sta = (s.modSta ⟨w, hw⟩ fun st => { st with fwQLen := len }).sta := by
      rw [← Option.some.inj h]
      split
      · exact staInfoRecalcTim_sta _ _
      · rfl
    refine ⟨hw, ?_, fun j hj => ?_⟩
    · rw [hsta, modSta_sta_self]
    · rw [hsta, modSta_sta_of_ne _ _ hj]
  · cases h

/-- A report that says nothing new about the station at its index changes nothing. -/
theorem dqStatusHandler_eq_self {s s' : ApInfo cfg} {w : ℕ} {len : ℤ} {hw : w < cfg.maxAid}
    (h : dqStatusHandler s w len = some s') (hlen : (s.sta ⟨w, hw⟩).fwQLen = len) :
    s' = s ↔ len ≤ 0 ∨ s.tim (s.sta ⟨w, hw⟩).aid = true := by
  have hset : (s.modSta ⟨w, hw⟩ fun st => { st with fwQLen := len }) = s := by
    refine modSta_eq_self ?_
    rw [← hlen]
  have hs' : s' = if 0 < len then recalcTimGenBeacon s ⟨w, hw⟩ else s := by
    rw [dqStatusHandler, dif_pos hw] at h
    dsimp only at h
    rw [hset] at h
    exact (Option.some.inj h).symm
  rw [hs']
  by_cases hpos : 0 < len
  · have hwait : indicateTim (s.sta ⟨w, hw⟩) = true := by
      rw [indicateTim, hlen, decide_eq_true hpos, Bool.or_true]
    rw [if_pos hpos, or_iff_right (by omega)]
    constructor
    · intro he
      rw [← hwait, ← recalcTimGenBeacon_tim_self, he]
    · intro htim
      exact recalcTimGenBeacon_eq_self (htim.trans hwait.symm)
  · rw [if_neg hpos]
    exact iff_of_true rfl (.inl (by omega))

/-- A report reaches the station it is for exactly when its number is an index into the table, and
the number of the station there and of no other; or when it says nothing new. -/
theorem dqRight_iff (s : ApInfo cfg) (w : ℕ) (len : ℤ) :
    DqRight s w len ↔ ∃ hw : w < cfg.maxAid, IndexIsNumber s ⟨w, hw⟩ len := by
  constructor
  · rintro ⟨s', hs', hreach⟩
    obtain ⟨hw, hself, hothers⟩ := dqStatusHandler_sta hs'
    refine ⟨hw, fun j hj haddr => ?_, or_iff_not_imp_left.mpr fun hnot => ?_⟩
    · have hset := (hothers j hj).symm.trans (hreach.set j haddr)
      exact congrArg Station.fwQLen hset
    · have hsame := (hreach.others _ hnot).symm.trans hself
      have hlen : (s.sta ⟨w, hw⟩).fwQLen = len := congrArg Station.fwQLen hsame
      refine ⟨hlen, or_iff_not_imp_left.mpr fun hnobody => ?_⟩
      rw [not_exists] at hnobody
      exact (dqStatusHandler_eq_self hs' hlen).mp (hreach.nobody hnobody)
  · rintro ⟨hw, hindex⟩
    obtain ⟨s', hs'⟩ : ∃ s', dqStatusHandler s w len = some s' := by
      unfold dqStatusHandler
      rw [dif_pos hw]
      exact ⟨_, rfl⟩
    obtain ⟨_, hself, hothers⟩ := dqStatusHandler_sta hs'
    refine ⟨s', hs', fun j haddr => ?_, fun j hnot => ?_, fun hnobody => ?_⟩
    · by_cases hj : j = ⟨w, hw⟩
      · rw [hj, hself]
      · rw [hothers j hj, ← hindex.others j hj haddr]
    · by_cases hj : j = ⟨w, hw⟩
      · subst hj
        have hlen := (hindex.self.resolve_left hnot).1
        rw [hself, ← hlen]
      · exact hothers j hj
    · obtain ⟨hlen, hrest⟩ := hindex.self.resolve_left (hnobody _)
      refine (dqStatusHandler_eq_self hs' hlen).mpr (hrest.resolve_left fun ⟨j, hj⟩ => ?_)
      exact hnobody j hj

/-- A station joins in slot 0 with number 1. The report for it goes to slot 1, which is empty. -/
theorem report_misses_station :
    let s := (Machine.run apStep (initAp fullAp)
      [authEvent fullAp (Vector.replicate 6 4), assocEvent fullAp (Vector.replicate 6 4)]).1
    Addressed s 1 ⟨0, by decide⟩ ∧ ¬ DqRight s 1 3 := by
  intro s
  have haddr : Addressed s 1 ⟨0, by decide⟩ := by
    unfold Addressed
    decide +kernel
  refine ⟨haddr, ?_⟩
  rintro ⟨s', hs', hreach⟩
  obtain ⟨hw, -, hothers⟩ := dqStatusHandler_sta hs'
  have hslot : (⟨0, by decide⟩ : StaIdx fullAp) ≠ ⟨1, hw⟩ :=
    Fin.ne_of_val_ne Nat.zero_ne_one
  have hset := (hothers _ hslot).symm.trans (hreach.set _ haddr)
  have hlen : (s.sta ⟨0, by decide⟩).fwQLen = 3 := congrArg Station.fwQLen hset
  revert hlen
  decide +kernel

end Fullmac.Ap
