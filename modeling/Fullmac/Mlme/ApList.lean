import Fullmac.Mlme.Model

/-!
# The access points of the list

Reference: `host/core/mlme.c`, `fine_tune_rcpi` to `sta_mode_ap_list_handler`.

The two walks of `sta_mode_ap_list_handler` are loops over the list that they change.
`getStatus_spec` and `lowRcip_spec` say once what they find, and `handleScan_cases` what becomes of
a scan result.
-/

namespace Fullmac.Mlme

variable {env : ApEnv} {bss : Option Bss} {b e : Bss} {n i : ℕ} {l : ApList}

/-! ## The first walk -/

@[simp] theorem not_occupied_zero : ¬ Bss.zero.Occupied := by decide

/-- Ageing keeps an entry or removes it. -/
theorem ageEntry_cases (env : ApEnv) (e : Bss) :
    (ageEntry env e).2 = 0 ∧ (ageEntry env e).1 = e ∨
      0 < (ageEntry env e).2 ∧ (ageEntry env e).1 = Bss.zero := by
  have hstep : ∀ (r : Bss × ℕ) j, (r.2 = 0 ∧ r.1 = e ∨ 0 < r.2 ∧ r.1 = Bss.zero) →
      (ageStep env r j).2 = 0 ∧ (ageStep env r j).1 = e ∨
        0 < (ageStep env r j).2 ∧ (ageStep env r j).1 = Bss.zero := by
    intro r j h
    unfold ageStep
    split
    · exact .inr ⟨Nat.succ_pos _, rfl⟩
    · exact h
  exact List.foldlRecOn (motive := fun r : Bss × ℕ =>
    r.2 = 0 ∧ r.1 = e ∨ 0 < r.2 ∧ r.1 = Bss.zero) _ (ageStep env) (.inl ⟨rfl, rfl⟩)
    fun r h j _ => hstep r j h

/-- What the first walk makes of an entry: one in use that is not that of the scan result ages. -/
def aged (env : ApEnv) (bss : Option Bss) (e : Bss) : Bss :=
  if e.Occupied ∧ ¬ IsDuplicate bss e then (ageEntry env e).1 else e

theorem aged_cases (env : ApEnv) (bss : Option Bss) (e : Bss) :
    aged env bss e = e ∨ e.Occupied ∧ ¬ IsDuplicate bss e ∧ aged env bss e = Bss.zero := by
  unfold aged
  split
  case isFalse => exact .inl rfl
  case isTrue h =>
    rcases ageEntry_cases env e with ⟨-, h'⟩ | ⟨-, h'⟩
    · exact .inl h'
    · exact .inr ⟨h.1, h.2, h'⟩

/-- The entry of the scan result does not age. -/
theorem aged_eq_of_isDuplicate (h : IsDuplicate bss e) : aged env bss e = e := by
  simp [aged, h]

/-- What one step of the first walk does to each of its variables. -/
theorem statusStep_spec (env : ApEnv) (bss : Option Bss) (st : Status) (i : ℕ) :
    let st' := statusStep env bss st i
    let e := st.apList i
    st'.apList = Function.update st.apList i (aged env bss e) ∧
      st'.empty = (if (aged env bss e).Occupied then st.empty else i) ∧
      st'.duplicate = (if e.Occupied ∧ IsDuplicate bss e then i else st.duplicate) ∧
      st'.totalAp = (if e.Occupied then st.totalAp else st.totalAp - 1) := by
  intro st' e
  by_cases hocc : e.Occupied
  · by_cases hdup : IsDuplicate bss e
    · -- the entry of the scan result
      have hst' : st' = { st with duplicate := i } := by
        change statusStep env bss st i = _
        rw [statusStep, if_neg hocc, if_pos hdup]
      simp [hst', aged_eq_of_isDuplicate hdup, hocc, hdup, e]
    · have hst' : st' = if (ageEntry env e).2 = 0 then st else
          { st with
            apList := Function.update st.apList i (ageEntry env e).1
            empty := i
            evts := st.evts
              ++ (List.replicate (ageEntry env e).2 (updateApInfoEvt env i .remove)).flatten } := by
        change statusStep env bss st i = _
        rw [statusStep, if_neg hocc, if_neg hdup]
      have haged : aged env bss e = (ageEntry env e).1 := by simp [aged, hocc, hdup]
      rcases ageEntry_cases env e with ⟨hr, hkeep⟩ | ⟨hr, hgone⟩
      · simp [hst', hr, haged, hkeep, hocc, hdup, e]
      · simp [hst', hr.ne', haged, hgone, hocc, hdup]
  · -- a free entry
    have hst' : st' = { st with empty := i, totalAp := st.totalAp - 1 } := by
      change statusStep env bss st i = _
      rw [statusStep, if_pos (not_not.mp hocc)]
    have haged : aged env bss e = e := by simp [aged, hocc]
    simp [hst', haged, hocc, e]

/-- What the first walk has found after `k` entries. -/
structure StatusSpec (env : ApEnv) (bss : Option Bss) (n : ℕ) (l : ApList) (k : ℕ) (st : Status) :
    Prop where
  apList : st.apList = fun i => if i < k then aged env bss (l i) else l i
  empty : st.empty = 0xff ∧ (∀ i < k, (aged env bss (l i)).Occupied) ∨
    st.empty < k ∧ ¬ (aged env bss (l st.empty)).Occupied
  duplicate : st.duplicate = 0xff ∧ (∀ i < k, (l i).Occupied → ¬ IsDuplicate bss (l i)) ∨
    st.duplicate < k ∧ (l st.duplicate).Occupied ∧ IsDuplicate bss (l st.duplicate)
  totalAp : st.totalAp + ((List.range k).filter fun i => ¬ (l i).Occupied).length = n

/-- The first walk. -/
theorem getStatus_spec (env : ApEnv) (bss : Option Bss) (l : ApList) {k : ℕ} (hk : k ≤ n) :
    StatusSpec env bss n l k (getStatus env bss n l k) := by
  induction k with
  | zero =>
    exact ⟨by simp [getStatus], by simp [getStatus], by simp [getStatus], by simp [getStatus]⟩
  | succ k ih =>
    have hsnoc : getStatus env bss n l (k + 1)
        = statusStep env bss (getStatus env bss n l k) k := by
      simp [getStatus, List.range_succ]
    have hst := ih (by omega)
    generalize getStatus env bss n l k = st at hst hsnoc
    have hat : st.apList k = l k := by simp [hst.apList]
    obtain ⟨hlist, hempty, hdup, htot⟩ := statusStep_spec env bss st k
    rw [← hsnoc] at hlist hempty hdup htot
    rw [hat] at hlist hempty hdup htot
    refine ⟨?_, ?_, ?_, ?_⟩
    · -- entries before `k` have aged, and now entry `k`
      rw [hlist, hst.apList]
      funext i
      rcases Nat.lt_trichotomy i k with hi | rfl | hi
      · simp [Function.update_of_ne hi.ne, hi, Nat.lt_succ_of_lt hi]
      · simp
      · simp [Function.update_of_ne hi.ne', Nat.not_lt_of_gt hi, Nat.not_lt_of_ge hi]
    · rw [hempty]
      split
      case isTrue hocc =>
        rcases hst.empty with ⟨h, hall⟩ | ⟨hlt, h⟩
        · exact .inl ⟨h, Nat.forall_lt_succ_right.mpr ⟨hall, hocc⟩⟩
        · exact .inr ⟨Nat.lt_succ_of_lt hlt, h⟩
      case isFalse hocc => exact .inr ⟨Nat.lt_succ_self k, hocc⟩
    · rw [hdup]
      split
      case isTrue h => exact .inr ⟨Nat.lt_succ_self k, h⟩
      case isFalse h =>
        rcases hst.duplicate with ⟨h', hall⟩ | ⟨hlt, h'⟩
        · exact .inl ⟨h', Nat.forall_lt_succ_right.mpr ⟨hall, not_and.mp h⟩⟩
        · exact .inr ⟨Nat.lt_succ_of_lt hlt, h'⟩
    · -- an entry that was free is no longer counted
      have hlen := List.length_filter_le (fun i => ¬ (l i).Occupied) (List.range k)
      have hcount := hst.totalAp
      simp only [List.length_range] at hlen
      rw [htot, List.range_succ, List.filter_append]
      by_cases hocc : (l k).Occupied
      · simpa [hocc] using hcount
      · simp only [hocc, if_false, List.length_append, List.filter_cons, List.filter_nil,
          not_false_eq_true, decide_true, if_true, List.length_singleton]
        omega

/-- Something is counted exactly when an entry was in use. -/
theorem StatusSpec.totalAp_pos {st : Status} (h : StatusSpec env bss n l n st) :
    0 < st.totalAp ↔ ∃ i < n, (l i).Occupied := by
  have hcount := h.totalAp
  have hlt := List.length_filter_lt_length_iff_exists
    (l := List.range n) (p := fun i => decide (¬ (l i).Occupied))
  simp only [List.length_range, List.mem_range, decide_eq_true_eq, not_not] at hlt
  rw [← hlt]
  omega

/-! ## The second walk -/

theorem lowRcip_succ (l : ApList) (k : ℕ) : lowRcip l (k + 1) = lowStep l (lowRcip l k) k := by
  simp [lowRcip, List.range_succ]

/-- The second walk ends at an entry that no entry in use is weaker than. -/
theorem lowRcip_spec (l : ApList) (k : ℕ) :
    ∀ i < k, (l i).Occupied → (l i).rpci ≤ (l (lowRcip l k)).rpci := by
  induction k with
  | zero => exact fun i hi => absurd hi (Nat.not_lt_zero i)
  | succ k ih =>
    rw [lowRcip_succ, lowStep]
    split
    case isTrue h =>
      refine Nat.forall_lt_succ_right.mpr ⟨fun i hi hocc => ?_, fun _ => UInt8.le_refl _⟩
      exact UInt8.le_trans (ih i hi hocc) (UInt8.le_of_lt h.2)
    case isFalse h =>
      refine Nat.forall_lt_succ_right.mpr ⟨ih, fun hocc => ?_⟩
      exact UInt8.not_lt.mp fun hlt => h ⟨hocc, hlt⟩

theorem lowRcip_lt (l : ApList) {k : ℕ} (hk : 0 < k) : lowRcip l k < k := by
  have hle : ∀ k, lowRcip l k ≤ k - 1 := by
    intro k
    induction k with
    | zero => simp [lowRcip]
    | succ k ih =>
      rw [lowRcip_succ, lowStep]
      split <;> omega
  have := hle k
  omega

/-! ## What becomes of a scan result -/

@[simp] theorem isDuplicate_some : IsDuplicate (some b) e ↔ e.bssid = b.bssid := by
  simp [IsDuplicate, eq_comm]

@[simp] theorem not_isDuplicate_none : ¬ IsDuplicate none e := by
  simp [IsDuplicate]

/-- An access point is in the list. -/
def Listed (n : ℕ) (l : ApList) (a : Vector UInt8 6) : Prop :=
  ∃ i < n, (l i).Occupied ∧ (l i).bssid = a

/-- The list after ageing. -/
def agedList (n : ℕ) (env : ApEnv) (bss : Option Bss) (l : ApList) : ApList :=
  fun i => if i < n then aged env bss (l i) else l i

/-- What becomes of a scan result `b` with the list `l`: the list `l'` after it. -/
inductive Placed (n : ℕ) (env : ApEnv) (b : Bss) (l l' : ApList) : Prop
  /-- The entry of its BSSID is updated. -/
  | listed (i : ℕ) (hi : i < n) (hocc : (l i).Occupied) (hb : (l i).bssid = b.bssid)
      (h : l' = Function.update (agedList n env (some b) l) i (recordBss env (l i).prevRcpi b))
  /-- A free entry is filled. -/
  | empty (hnew : ¬ Listed n l b.bssid) (i : ℕ) (hi : i < n)
      (hfree : ¬ (agedList n env (some b) l i).Occupied)
      (h : l' = Function.update (agedList n env (some b) l) i
        (recordBss env (agedList n env (some b) l i).prevRcpi b))
  /-- No entry is free, and one that none is weaker than is replaced. -/
  | worst (hnew : ¬ Listed n l b.bssid)
      (hfull : ∀ j < n, (agedList n env (some b) l j).Occupied) (i : ℕ) (hi : 0 < n → i < n)
      (hmax : ∀ j < n, (agedList n env (some b) l j).rpci ≤ (agedList n env (some b) l i).rpci)
      (hle : b.rpci ≤ (agedList n env (some b) l i).rpci)
      (h : l' = Function.update (agedList n env (some b) l) i (recordBss env 0 b))
  /-- No entry is free, and all are stronger. -/
  | drop (hnew : ¬ Listed n l b.bssid)
      (hfull : ∀ j < n, (agedList n env (some b) l j).Occupied)
      (hlt : ∀ j < n, (agedList n env (some b) l j).rpci < b.rpci)
      (h : l' = agedList n env (some b) l)

/-- A visible scan result is placed, and unless it is dropped the timer is refreshed. -/
theorem handleScan_spec (hn : n < 256) (env : ApEnv) (hb : b.ssidLen ≠ 0) (s : MlmeState) :
    Placed n env b s.apList (handleScan n env b s).1.apList ∧
      ((handleScan n env b s).1.pending
          = refreshTimer (getStatus env (some b) n s.apList n).totalAp s.pending ∨
        (∀ j < n, (agedList n env (some b) s.apList j).Occupied) ∧
          (handleScan n env b s).1.pending = s.pending) := by
  have hst := getStatus_spec env (some b) s.apList (Nat.le_refl n)
  have hlist : (getStatus env (some b) n s.apList n).apList = agedList n env (some b) s.apList :=
    hst.apList
  rw [handleScan, if_neg hb]
  generalize getStatus env (some b) n s.apList n = st at hst hlist ⊢
  simp only [hlist]
  rcases hst.duplicate with ⟨hdup, hnone⟩ | ⟨hlt, hocc, hdup⟩
  · have hnew : ¬ Listed n s.apList b.bssid := by
      rintro ⟨i, hi, hocc, hib⟩
      exact hnone i hi hocc (isDuplicate_some.mpr hib)
    rcases hst.empty with ⟨hempty, hocc⟩ | ⟨hlt, hfree⟩
    · have hfull : ∀ j < n, (agedList n env (some b) s.apList j).Occupied := by
        intro j hj
        simpa [agedList, hj] using hocc j hj
      have hmax := lowRcip_spec (agedList n env (some b) s.apList) n
      have hlow := lowRcip_lt (agedList n env (some b) s.apList) (k := n)
      generalize lowRcip (agedList n env (some b) s.apList) n = low at hmax hlow ⊢
      by_cases hle : b.rpci ≤ (agedList n env (some b) s.apList low).rpci
      · -- stronger than the weakest
        have hplace : placeOf st low b = .worst low := by simp [placeOf, hdup, hempty, hlist, hle]
        simp only [hplace]
        exact ⟨.worst hnew hfull low hlow (fun j hj => hmax j hj (hfull j hj)) hle rfl, by simp⟩
      · have hplace : placeOf st low b = .drop := by simp [placeOf, hdup, hempty, hlist, hle]
        simp only [hplace]
        have hlt : ∀ j < n, (agedList n env (some b) s.apList j).rpci < b.rpci := fun j hj =>
          UInt8.lt_of_le_of_lt (hmax j hj (hfull j hj)) (UInt8.not_le.mp hle)
        exact ⟨.drop hnew hfull hlt rfl, .inr ⟨hfull, trivial⟩⟩
    · -- into a free entry
      have hne : st.empty ≠ 0xff := by omega
      have hfree' : ¬ (agedList n env (some b) s.apList st.empty).Occupied := by
        simpa [agedList, hlt] using hfree
      have hplace : placeOf st (lowRcip (agedList n env (some b) s.apList) n) b
          = .empty st.empty := by simp [placeOf, hdup, hne]
      simp only [hplace]
      exact ⟨.empty hnew st.empty hlt hfree' rfl, by simp⟩
  · -- in the list
    have hne : st.duplicate ≠ 0xff := by omega
    have hplace : placeOf st (lowRcip (agedList n env (some b) s.apList) n) b
        = .duplicate st.duplicate := by simp [placeOf, hne]
    have hsame : agedList n env (some b) s.apList st.duplicate = s.apList st.duplicate := by
      simp [agedList, hlt, aged_eq_of_isDuplicate hdup]
    simp only [hplace, hsame]
    exact ⟨.listed st.duplicate hlt hocc (isDuplicate_some.mp hdup) rfl, by simp⟩

/-! ## What every step keeps -/

/-- Every entry of `l'` is that of `l` or free. -/
def Shrinks (n : ℕ) (l l' : ApList) : Prop := ∀ i < n, l' i = l i ∨ l' i = Bss.zero

theorem shrinks_agedList (n : ℕ) (env : ApEnv) (bss : Option Bss) (l : ApList) :
    Shrinks n l (agedList n env bss l) := by
  intro i hi
  simp only [agedList, hi, if_true]
  rcases aged_cases env bss (l i) with h | ⟨-, -, h⟩
  · exact .inl h
  · exact .inr h

/-- A step that is not a scan result only frees entries. -/
theorem shrinks_mlmeHandle {s : MlmeState} {i : MlmeInput} (h : ∀ env b, i ≠ .scanResult env b) :
    Shrinks n s.apList (mlmeHandle n s i).1.apList := by
  cases i with
  | scanResult env b => exact absurd rfl (h env b)
  | scanTimer env =>
    have hlist : (mlmeHandle n s (.scanTimer env)).1.apList = agedList n env none s.apList :=
      (getStatus_spec env none s.apList (Nat.le_refl n)).apList
    rw [hlist]
    exact shrinks_agedList n env none s.apList
  | removeAp env bssid =>
    intro i hi
    simp only [mlmeHandle, mlmeRemoveAp, hi, true_and]
    split
    · exact .inr rfl
    · exact .inl rfl
  | deinit =>
    intro i hi
    simp [mlmeHandle, mlmeStaModeDeinit, hi]

/-- A free entry is zero, and no two entries in use are of one BSSID. -/
structure ListInv (n : ℕ) (l : ApList) : Prop where
  clear : ∀ i < n, ¬ (l i).Occupied → l i = Bss.zero
  unique : ∀ i < n, ∀ j < n, (l i).Occupied → (l j).Occupied → (l i).bssid = (l j).bssid → i = j

theorem Shrinks.occupied {l' : ApList} (h : Shrinks n l l') (hi : i < n) (hocc : (l' i).Occupied) :
    l' i = l i := by
  rcases h i hi with h' | h'
  · exact h'
  · simp [h'] at hocc

theorem ListInv.shrink {l' : ApList} (hl : ListInv n l) (h : Shrinks n l l') : ListInv n l' where
  clear i hi hfree := by
    rcases h i hi with h' | h'
    · rw [h'] at hfree ⊢
      exact hl.clear i hi hfree
    · exact h'
  unique i hi j hj hocci hoccj heq := by
    have hli := h.occupied hi hocci
    have hlj := h.occupied hj hoccj
    rw [hli, hlj] at heq
    exact hl.unique i hi j hj (hli ▸ hocci) (hlj ▸ hoccj) heq

/-- Writing the only entry of a BSSID keeps the invariant. -/
theorem ListInv.update (hl : ListInv n l) (hocc : e.Occupied)
    (hother : ∀ j < n, j ≠ i → (l j).Occupied → (l j).bssid ≠ e.bssid) :
    ListInv n (Function.update l i e) where
  clear j hj hfree := by
    rcases eq_or_ne j i with rfl | hne
    · simp [hocc] at hfree
    · rw [Function.update_of_ne hne] at hfree ⊢
      exact hl.clear j hj hfree
  unique j hj k hk hoccj hocck heq := by
    rcases eq_or_ne j i with rfl | hji <;> rcases eq_or_ne k j with rfl | hkj
    · rfl
    · rw [Function.update_self, Function.update_of_ne hkj] at heq
      rw [Function.update_of_ne hkj] at hocck
      exact absurd heq.symm (hother k hk hkj hocck)
    · rfl
    · rcases eq_or_ne k i with rfl | hki
      · rw [Function.update_self, Function.update_of_ne hji] at heq
        rw [Function.update_of_ne hji] at hoccj
        exact absurd heq (hother j hj hji hoccj)
      · rw [Function.update_of_ne hji] at heq hoccj
        rw [Function.update_of_ne hki] at heq hocck
        exact hl.unique j hj k hk hoccj hocck heq

/-! ## The entry that is written -/

@[simp] theorem recordBss_bssid (env : ApEnv) (p : ℕ) (b : Bss) :
    (recordBss env p b).bssid = b.bssid := by
  unfold recordBss fineTuneRcpi
  split <;> rfl

@[simp] theorem recordBss_occupied (env : ApEnv) (p : ℕ) (b : Bss) :
    (recordBss env p b).Occupied ↔ b.Occupied := by
  unfold recordBss fineTuneRcpi
  split <;> rfl

/-- A scan result is written into some entry of the aged list, which held its BSSID if the list
did, or else was free, or is written over with the average reset; no other entry has its BSSID. -/
theorem Placed.cases {l' : ApList} (h : Placed n env b l l') (hl : ListInv n l) :
    (∃ i p, l' = Function.update (agedList n env (some b) l) i (recordBss env p b) ∧
      (∀ j < n, j ≠ i → (agedList n env (some b) l j).Occupied →
        (agedList n env (some b) l j).bssid ≠ b.bssid) ∧
      ((i < n ∧ (l i).Occupied ∧ (l i).bssid = b.bssid ∧ p = (l i).prevRcpi) ∨
        (¬ Listed n l b.bssid ∧ p = 0))) ∨
    (¬ Listed n l b.bssid ∧ l' = agedList n env (some b) l) := by
  have hshrink := shrinks_agedList n env (some b) l
  have hnone : ¬ Listed n l b.bssid → ∀ j < n, (agedList n env (some b) l j).Occupied →
      (agedList n env (some b) l j).bssid ≠ b.bssid := by
    intro hnew j hj hocc heq
    have hj' := hshrink.occupied hj hocc
    rw [hj'] at hocc heq
    exact hnew ⟨j, hj, hocc, heq⟩
  cases h with
  | listed i hi hocc hb h =>
    refine .inl ⟨i, _, h, fun j hj hne hoccj heq => ?_, .inl ⟨hi, hocc, hb, rfl⟩⟩
    have hj' := hshrink.occupied hj hoccj
    rw [hj'] at hoccj heq
    exact hne (hl.unique j hj i hi hoccj hocc (heq.trans hb.symm))
  | empty hnew i hi hfree h =>
    have hzero := (hl.shrink hshrink).clear i hi hfree
    refine .inl ⟨i, _, h, fun j hj _ => hnone hnew j hj, .inr ⟨hnew, ?_⟩⟩
    rw [hzero]
    rfl
  | worst hnew hfull i hi hmax hle h =>
    exact .inl ⟨i, _, h, fun j hj _ => hnone hnew j hj, .inr ⟨hnew, rfl⟩⟩
  | drop hnew hfull hlt h => exact .inr ⟨hnew, h⟩

/-- Placing a scan result of a channel keeps the invariant. -/
theorem ListInv.placed {l' : ApList} (hl : ListInv n l) (hb : b.Occupied)
    (h : Placed n env b l l') : ListInv n l' := by
  have haged := hl.shrink (shrinks_agedList n env (some b) l)
  rcases h.cases hl with ⟨i, p, rfl, hother, -⟩ | ⟨-, rfl⟩
  · exact haged.update (by simpa using hb) (by simpa using hother)
  · exact haged

end Fullmac.Mlme
