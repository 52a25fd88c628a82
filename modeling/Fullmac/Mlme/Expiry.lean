import Fullmac.Mlme.ApList

/-!
# Access points that were not heard of for long

Reference: `host/core/mlme.c`, `sta_mode_ap_list_handler`, and `host/lib/ssv_lib.c`,
`ssv6xxx_strcmp`.

An entry is to leave the list when it is older than `TIME_STAMP_EXPIRE`, unless it is that of the
scan result or of an access point that some interface has joined. The first walk decides this once
for each interface in station mode, on the entry as the interface before has left it, and compares
addresses as strings. An entry leaves too early where another interface has not joined it, is
reported again where the cleared entry is taken for an old one, and stays where a zero byte ends the
two strings.
-/

namespace Fullmac.Mlme

/-! ## Strings -/

/-- `ssv6xxx_strcmp` on the bytes from its arguments on. Behind the last of them are zeros. -/
def ssv6xxxStrcmp : List UInt8 → List UInt8 → ℤ
  | c1 :: s0, c2 :: s1 =>
    if c1 = 0 then (c1.toNat : ℤ) - c2.toNat
    else if c1 = c2 then ssv6xxxStrcmp s0 s1
    else (c1.toNat : ℤ) - c2.toNat
  | c1 :: _, [] => c1.toNat
  | [], c2 :: _ => -(c2.toNat : ℤ)
  | [], [] => 0

/-- The string that begins the bytes. -/
def cString (bytes : List UInt8) : List UInt8 := bytes.takeWhile (· ≠ 0)

theorem toNat_sub_eq_zero_iff {c1 c2 : UInt8} : (c1.toNat : ℤ) - c2.toNat = 0 ↔ c1 = c2 := by
  rw [sub_eq_zero, Int.ofNat_inj, UInt8.toNat_inj]

/-- The comparison ends with zero exactly for equal strings. -/
theorem ssv6xxxStrcmp_eq_zero_iff (s0 s1 : List UInt8) :
    ssv6xxxStrcmp s0 s1 = 0 ↔ cString s0 = cString s1 := by
  fun_induction ssv6xxxStrcmp s0 s1 with
  | case1 s0 c2 s1 =>
    rw [toNat_sub_eq_zero_iff, eq_comm]
    by_cases h2 : c2 = 0 <;> simp [cString, h2]
  | case2 c1 s0 s1 h ih => simpa [cString, h] using ih
  | case3 c1 s0 c2 s1 h hne =>
    rw [toNat_sub_eq_zero_iff]
    by_cases h2 : c2 = 0 <;> simp [cString, h, h2, hne]
  | case4 c1 s0 =>
    have hzero : c1.toNat = 0 ↔ c1 = 0 := UInt8.toNat_inj (b := 0)
    by_cases h : c1 = 0 <;> simp [cString, h, hzero]
  | case5 c2 s1 =>
    have hzero : c2.toNat = 0 ↔ c2 = 0 := UInt8.toNat_inj (b := 0)
    by_cases h : c2 = 0 <;> simp [cString, h, hzero]
  | case6 => simp [cString]

/-! ## How often an entry is removed -/

variable {n i k : ℕ} {env : ApEnv} {bss : Option Bss} {e : Bss} {l : ApList}

/-- The test of the inner loop. -/
def TakesOut (env : ApEnv) (e : Bss) (j : Fin Rx.maxVifNum) : Prop :=
  env.staVif j = true ∧ Rx.timeAfter env.currentTick (e.lastProbeResp + timeStampExpire)
    ∧ env.strcmp j e = true

instance (j : Fin Rx.maxVifNum) : Decidable (TakesOut env e j) :=
  inferInstanceAs (Decidable (_ ∧ _))

/-- Nothing happens at interfaces that do not take the entry out. -/
theorem foldl_ageStep_keep {js : List (Fin Rx.maxVifNum)} (h : ∀ j ∈ js, ¬ TakesOut env e j)
    (c : ℕ) : js.foldl (ageStep env) (e, c) = (e, c) := by
  induction js with
  | nil => rfl
  | cons j js ih =>
    have hstep : ageStep env (e, c) j = (e, c) := if_neg (h j List.mem_cons_self)
    rw [List.foldl_cons, hstep]
    exact ih fun j' hj' => h j' (List.mem_cons_of_mem j hj')

/-- A cleared entry is taken out again by every interface that it looks old to. -/
theorem foldl_ageStep_zero (js : List (Fin Rx.maxVifNum)) (c : ℕ) :
    js.foldl (ageStep env) (Bss.zero, c)
      = (Bss.zero, c + js.countP fun j => TakesOut env Bss.zero j) := by
  induction js generalizing c with
  | nil => rfl
  | cons j js ih =>
    by_cases h : TakesOut env Bss.zero j
    · have hstep : ageStep env (Bss.zero, c) j = (Bss.zero, c + 1) := if_pos h
      rw [List.foldl_cons, hstep, ih, List.countP_cons, if_pos (by simpa using h)]
      congr 1
      omega
    · have hstep : ageStep env (Bss.zero, c) j = (Bss.zero, c) := if_neg h
      rw [List.foldl_cons, hstep, ih, List.countP_cons, if_neg (by simpa using h)]
      rfl

/-- The inner loop takes an entry out at the first interface that does so, and once more at each
later one that the cleared entry looks old to. -/
theorem ageEntry_eq (env : ApEnv) (e : Bss) :
    (∀ j, ¬ TakesOut env e j) ∧ ageEntry env e = (e, 0) ∨
      ∃ j, TakesOut env e j ∧ (∀ j' < j, ¬ TakesOut env e j') ∧
        ageEntry env e = (Bss.zero,
          1 + ((List.finRange Rx.maxVifNum).filter (j < ·)).countP
            fun j' => TakesOut env Bss.zero j') := by
  unfold ageEntry
  have hsorted := List.pairwise_lt_finRange Rx.maxVifNum
  have hmem : ∀ j, j ∈ List.finRange Rx.maxVifNum := List.mem_finRange
  generalize List.finRange Rx.maxVifNum = js at hsorted hmem ⊢
  cases hfind : js.find? fun j => decide (TakesOut env e j) with
  | none =>
    rw [List.find?_eq_none] at hfind
    have hnone : ∀ j ∈ js, ¬ TakesOut env e j := by simpa using hfind
    exact .inl ⟨fun j => hnone j (hmem j), foldl_ageStep_keep hnone 0⟩
  | some j =>
    obtain ⟨htake, before, after, rfl, hbefore⟩ := List.find?_eq_some_iff_append.mp hfind
    have htake : TakesOut env e j := by simpa using htake
    have hbefore : ∀ j' ∈ before, ¬ TakesOut env e j' := by simpa using hbefore
    obtain ⟨-, hafter, hlt⟩ := List.pairwise_append.mp hsorted
    have hgt : ∀ j' ∈ after, j < j' := (List.pairwise_cons.mp hafter).1
    have hlater : (before ++ j :: after).filter (j < ·) = after := by
      have hnot : before.filter (j < ·) = [] := List.filter_eq_nil_iff.mpr fun j' hj' => by
        simpa using Fin.le_of_lt (hlt j' hj' j List.mem_cons_self)
      have hall : after.filter (j < ·) = after := List.filter_eq_self.mpr (by simpa using hgt)
      rw [List.filter_append, List.filter_cons_of_neg (by simp), hnot, hall, List.nil_append]
    have hstep : ageStep env (e, 0) j = (Bss.zero, 1) := if_pos htake
    refine .inr ⟨j, htake, fun j' hj' => ?_, ?_⟩
    · rcases List.mem_append.mp (hmem j') with h | h
      · exact hbefore j' h
      · rcases List.mem_cons.mp h with rfl | h
        · exact absurd hj' (Fin.lt_irrefl _)
        · exact absurd hj' (Fin.lt_asymm (hgt j' h))
    · rw [List.foldl_append, foldl_ageStep_keep hbefore, List.foldl_cons, hstep,
        foldl_ageStep_zero, hlater]

/-- How often the first walk removes an entry. -/
def removals (env : ApEnv) (bss : Option Bss) (e : Bss) : ℕ :=
  if e.Occupied ∧ ¬ IsDuplicate bss e then (ageEntry env e).2 else 0

/-- An entry is cleared when it was removed at all, and else it is as before. -/
theorem aged_eq (env : ApEnv) (bss : Option Bss) (e : Bss) :
    aged env bss e = if removals env bss e = 0 then e else Bss.zero := by
  unfold aged removals
  by_cases h : e.Occupied ∧ ¬ IsDuplicate bss e
  · rw [if_pos h, if_pos h]
    rcases ageEntry_cases env e with ⟨hr, he⟩ | ⟨hr, he⟩
    · rw [he, if_pos hr]
    · rw [he, if_neg hr.ne']
  · rw [if_neg h, if_neg h, if_pos rfl]

/-- Without an interface in station mode nothing is removed. -/
theorem staVif_of_removals (h : removals env bss e ≠ 0) : ∃ j, env.staVif j = true := by
  unfold removals at h
  split at h
  · rcases ageEntry_eq env e with ⟨-, hage⟩ | ⟨j, htake, -⟩
    · rw [hage] at h
      exact absurd rfl h
    · exact ⟨j, htake.1⟩
  · exact absurd rfl h

/-- What one step of the first walk reports. -/
theorem statusStep_evts (env : ApEnv) (bss : Option Bss) (st : Status) (i : ℕ) :
    (statusStep env bss st i).evts = st.evts
      ++ (List.replicate (removals env bss (st.apList i)) (updateApInfoEvt env i .remove)).flatten
      := by
  unfold statusStep removals
  by_cases hocc : (st.apList i).channelId = 0
  · simp [hocc, Bss.Occupied]
  · by_cases hdup : IsDuplicate bss (st.apList i)
    · simp [hocc, hdup]
    · by_cases hr : (ageEntry env (st.apList i)).2 = 0 <;> simp [hocc, hdup, hr, Bss.Occupied]

/-- The first walk reports an entry as often as it removes it. -/
theorem count_evts_getStatus (hk : k ≤ n) :
    (getStatus env bss n l k).evts.count (i, .remove)
      = if i < k then removals env bss (l i) else 0 := by
  induction k with
  | zero => simp [getStatus]
  | succ k ih =>
    have hsnoc : getStatus env bss n l (k + 1)
        = statusStep env bss (getStatus env bss n l k) k := by
      simp [getStatus, List.range_succ]
    have hspec := getStatus_spec env bss l (n := n) (k := k) (by omega)
    have hat : (getStatus env bss n l k).apList k = l k := by simp [hspec.apList]
    have hevts : (List.replicate (removals env bss (l k))
        (updateApInfoEvt env k .remove)).flatten.count (i, .remove)
          = if i = k then removals env bss (l k) else 0 := by
      by_cases hr : removals env bss (l k) = 0
      · simp [hr]
      · rw [updateApInfoEvt, if_pos (staVif_of_removals hr), List.flatten_replicate_singleton,
          List.count_replicate]
        by_cases hik : i = k
        · simp [hik]
        · simp [hik, Ne.symm hik]
    rw [hsnoc, statusStep_evts, hat, List.count_append, ih (by omega), hevts]
    rcases Nat.lt_trichotomy i k with hi | rfl | hi
    · rw [if_pos hi, if_neg hi.ne, if_pos (by omega), Nat.add_zero]
    · rw [if_neg (by omega), if_pos rfl, if_pos (by omega), Nat.zero_add]
    · rw [if_neg (by omega), if_neg hi.ne', if_neg (by omega)]

/-! ## The handler -/

/-- `sta_mode_ap_list_handler`, with a scan result or without. -/
def staModeApListHandler (n : ℕ) (env : ApEnv) (data : Option Bss) (s : MlmeState) :
    MlmeState × List (ℕ × ApAct) :=
  match data with
  | none => handleTimer n env s
  | some bss => handleScan n env bss s

/-- The scan result is not of a hidden network. -/
def Visible (data : Option Bss) : Prop := ∀ b ∈ data, b.ssidLen ≠ 0

instance (data : Option Bss) : Decidable (Visible data) :=
  inferInstanceAs (Decidable (∀ b ∈ data, _))

/-- In a full list the scan result goes over entry `i`, the weakest. -/
def Displaced (n : ℕ) (env : ApEnv) (data : Option Bss) (l : ApList) (i : ℕ) : Prop :=
  ∃ b ∈ data, placeOf (getStatus env data n l n)
    (lowRcip (getStatus env data n l n).apList n) b = .worst i

/-- The access point of entry `i` is no longer there: the entry is cleared, or of another one. -/
def Removed (l l' : ApList) (i : ℕ) : Prop :=
  (l i).Occupied ∧ (l' i = Bss.zero ∨ (l' i).bssid ≠ (l i).bssid)

instance (l l' : ApList) (i : ℕ) : Decidable (Removed l l' i) :=
  inferInstanceAs (Decidable (_ ∧ _))

theorem recordBss_ne_zero {b : Bss} (hb : b.ssidLen ≠ 0) (env : ApEnv) (p : ℕ) :
    recordBss env p b ≠ Bss.zero := by
  have hlen : (recordBss env p b).ssidLen = b.ssidLen := by
    unfold recordBss fineTuneRcpi
    split <;> rfl
  intro h
  rw [h] at hlen
  exact hb hlen.symm

/-- The first walk removes nothing that is not in use, and not the entry of the scan result. -/
theorem of_removals (h : removals env bss e ≠ 0) : e.Occupied ∧ ¬ IsDuplicate bss e := by
  by_contra hno
  exact h (if_neg hno)

/-- The first walk clears an entry exactly when it removes it. -/
theorem removed_agedList (hi : i < n) :
    Removed l (agedList n env bss l) i ↔ removals env bss (l i) ≠ 0 := by
  simp only [Removed, agedList, hi, if_true, aged_eq]
  by_cases hr : removals env bss (l i) = 0
  · rw [if_pos hr]
    refine iff_of_false ?_ (not_not.mpr hr)
    rintro ⟨hocc, hzero | hne⟩
    · rw [hzero] at hocc
      exact not_occupied_zero hocc
    · exact hne rfl
  · rw [if_neg hr]
    exact iff_of_true ⟨(of_removals hr).1, .inl rfl⟩ hr

/-- A scan result that is written over an entry of its own BSSID, or over a free one, changes
nothing about what the first walk has removed. -/
theorem removed_update {b e' : Bss} {j : ℕ} (he' : e' ≠ Bss.zero) (hbssid : e'.bssid = b.bssid)
    (hj : (agedList n env (some b) l j).Occupied → (l j).bssid = b.bssid) (hi : i < n) :
    Removed l (Function.update (agedList n env (some b) l) j e') i
      ↔ removals env (some b) (l i) ≠ 0 := by
  rcases eq_or_ne i j with rfl | hne
  · simp only [Removed, Function.update_self, he', false_or, hbssid]
    by_cases hr : removals env (some b) (l i) = 0
    · have hsame : agedList n env (some b) l i = l i := by simp [agedList, hi, aged_eq, hr]
      rw [hsame] at hj
      exact iff_of_false (fun h => h.2 (hj h.1).symm) (not_not.mpr hr)
    · obtain ⟨hocc, hdup⟩ := of_removals hr
      exact iff_of_true ⟨hocc, fun h => hdup (isDuplicate_some.mpr h.symm)⟩ hr
  · rw [← removed_agedList (n := n) hi]
    simp only [Removed, Function.update_of_ne hne]

@[simp] theorem count_remove_updateApInfoEvt_add (env : ApEnv) (i j : ℕ) :
    (updateApInfoEvt env j .add).count (i, .remove) = 0 := by
  unfold updateApInfoEvt
  split <;> simp

@[simp] theorem count_remove_modifyEvt (env : ApEnv) (i j : ℕ) (e prev : Bss) :
    (modifyEvt env j e prev).count (i, .remove) = 0 := by
  unfold modifyEvt updateApInfoEvt
  split_ifs <;> simp

theorem count_updateApInfoEvt_of_ne {j : ℕ} (h : i ≠ j) (act : ApAct) :
    (updateApInfoEvt env j act).count (i, act) = 0 := by
  unfold updateApInfoEvt
  split
  · simp [Ne.symm h]
  · simp

/-- A call that handles its scan result removes and reports what the first walk removes, and
besides only the entry that the scan result goes over. -/
theorem staModeApListHandler_entry {data : Option Bss} (hvis : Visible data)
    (s : MlmeState) (hi : i < n) (hdisp : ¬ Displaced n env data s.apList i) :
    (Removed s.apList (staModeApListHandler n env data s).1.apList i
        ↔ removals env data (s.apList i) ≠ 0) ∧
      (staModeApListHandler n env data s).2.count (i, .remove)
        = removals env data (s.apList i) := by
  have hst := getStatus_spec env data s.apList (Nat.le_refl n)
  have hlist : (getStatus env data n s.apList n).apList = agedList n env data s.apList := hst.apList
  have hcount : (getStatus env data n s.apList n).evts.count (i, .remove)
      = removals env data (s.apList i) := by
    rw [count_evts_getStatus (Nat.le_refl n), if_pos hi]
  cases data with
  | none =>
    have hl : (staModeApListHandler n env none s).1.apList = agedList n env none s.apList := hlist
    rw [hl]
    exact ⟨removed_agedList hi, hcount⟩
  | some b =>
    have hb : b.ssidLen ≠ 0 := hvis b rfl
    simp only [staModeApListHandler, handleScan, if_neg hb]
    simp only [Displaced, Option.mem_some_iff, exists_eq_left'] at hdisp
    generalize getStatus env (some b) n s.apList n = st at hst hlist hcount hdisp ⊢
    have hrec : ∀ p, recordBss env p b ≠ Bss.zero := recordBss_ne_zero hb env
    cases hplace : placeOf st (lowRcip st.apList n) b with
    | duplicate j =>
      have hj : st.duplicate = j ∧ st.duplicate ≠ 0xff := by
        unfold placeOf at hplace
        split_ifs at hplace with hd
        exact ⟨by simpa using hplace, hd⟩
      have hdup : (s.apList j).bssid = b.bssid := by
        rcases hst.duplicate with ⟨h, -⟩ | ⟨-, -, h⟩
        · exact absurd h hj.2
        · exact hj.1 ▸ isDuplicate_some.mp h
      simp only [hlist, List.count_append, count_remove_modifyEvt, Nat.add_zero]
      exact ⟨removed_update (hrec _) (recordBss_bssid env _ b) (fun _ => hdup) hi, hcount⟩
    | empty j =>
      have hj : st.empty = j ∧ st.empty ≠ 0xff := by
        unfold placeOf at hplace
        split_ifs at hplace with hd he
        exact ⟨by simpa using hplace, he⟩
      have hfree : ¬ (agedList n env (some b) s.apList j).Occupied := by
        rcases hst.empty with ⟨h, -⟩ | ⟨hlt, h⟩
        · exact absurd h hj.2
        · rw [hj.1] at hlt h
          simpa [agedList, hlt] using h
      simp only [hlist, List.count_append, count_remove_updateApInfoEvt_add, Nat.add_zero]
      exact ⟨removed_update (hrec _) (recordBss_bssid env _ b) (fun h => absurd h hfree) hi, hcount⟩
    | worst j =>
      have hne : i ≠ j := fun h => hdisp (h ▸ hplace)
      simp only [hlist, List.count_append, count_remove_updateApInfoEvt_add,
        count_updateApInfoEvt_of_ne hne, Nat.add_zero]
      rw [← removed_agedList (n := n) hi]
      simp only [Removed, Function.update_of_ne hne, hcount, and_self]
    | drop =>
      simp only [hlist]
      exact ⟨removed_agedList hi, hcount⟩

/-- A call with the result of a hidden network removes and reports nothing. -/
theorem staModeApListHandler_hidden {data : Option Bss} (hvis : ¬ Visible data) (s : MlmeState) :
    staModeApListHandler n env data s = (s, []) := by
  cases data with
  | none => exact absurd (by simp [Visible]) hvis
  | some b =>
    have hb : b.ssidLen = 0 := by
      by_contra h
      exact hvis fun b' hb' => by
        obtain rfl : b = b' := by simpa using hb'
        exact h
    exact if_pos hb

/-! ## What the interfaces have joined -/

/-- `joincfg->bss` of an interface: its address, and the bytes behind it. -/
structure JoinedBss where
  bssid : Vector UInt8 6
  behind : List UInt8

/-- The bytes from the address on. -/
def JoinedBss.bytes (a : JoinedBss) : List UInt8 := a.bssid.toList ++ a.behind

/-- What a call of the handler finds: the time, the interfaces in station mode with what they have
joined, and the bytes that lie behind the address of an entry. -/
structure ExpiryEnv where
  currentTick : ℕ
  staVif : Fin Rx.maxVifNum → Bool
  joined : Fin Rx.maxVifNum → JoinedBss
  behind : Bss → List UInt8

/-- The bytes of an entry from its address on. -/
def ExpiryEnv.bytes (x : ExpiryEnv) (e : Bss) : List UInt8 := e.bssid.toList ++ x.behind e

/-- The call compares addresses with `STRCMP`. -/
def ExpiryEnv.apEnv (x : ExpiryEnv) : ApEnv where
  currentTick := x.currentTick
  staVif := x.staVif
  strcmp j e := decide (ssv6xxxStrcmp (x.bytes e) (x.joined j).bytes ≠ 0)

variable {x : ExpiryEnv} {data : Option Bss} {s : MlmeState} {j : Fin Rx.maxVifNum}

/-- The time is more than `TIME_STAMP_EXPIRE` after `lastProbeResp`. -/
def ExpiryEnv.Old (x : ExpiryEnv) (lastProbeResp : ℕ) : Prop :=
  Rx.timeAfter x.currentTick (lastProbeResp + timeStampExpire) = true

/-- Some interface in station mode has joined the access point. -/
def ExpiryEnv.IsJoined (x : ExpiryEnv) (e : Bss) : Prop :=
  ∃ j, x.staVif j = true ∧ (x.joined j).bssid = e.bssid

/-- The entry is to be removed. -/
def Due (x : ExpiryEnv) (data : Option Bss) (e : Bss) : Prop :=
  e.Occupied ∧ x.Old e.lastProbeResp ∧ ¬ IsDuplicate data e ∧ ¬ x.IsJoined e

/-- The interface in station mode has joined what is, as a string, another access point. -/
def ExpiryEnv.TellsApart (x : ExpiryEnv) (e : Bss) (j : Fin Rx.maxVifNum) : Prop :=
  x.staVif j = true ∧ cString (x.bytes e) ≠ cString (x.joined j).bytes

instance (lastProbeResp : ℕ) : Decidable (x.Old lastProbeResp) :=
  inferInstanceAs (Decidable (_ = _))

instance (e : Bss) : Decidable (x.IsJoined e) := inferInstanceAs (Decidable (∃ _, _ ∧ _))

instance (e : Bss) : Decidable (Due x data e) := inferInstanceAs (Decidable (_ ∧ _ ∧ _ ∧ _))

instance (e : Bss) : Decidable (x.TellsApart e j) := inferInstanceAs (Decidable (_ ∧ _))

/-- A call removes what is to be removed, and reports each removed entry once. The entry that the
scan result goes over in a full list is another matter. -/
def ExpiresExactly (n : ℕ) (x : ExpiryEnv) (data : Option Bss) (s : MlmeState) : Prop :=
  let r := staModeApListHandler n x.apEnv data s
  ∀ i < n, ¬ Displaced n x.apEnv data s.apList i →
    (Removed s.apList r.1.apList i ↔ Due x data (s.apList i)) ∧
      r.2.count (i, .remove) = if Removed s.apList r.1.apList i then 1 else 0

/-- The interfaces agree on an old entry. An access point that one of them has joined is the same
string as what every other one has joined. Any other access point is told apart by some interface,
and the cleared entry looks old to none behind it: the time itself is not old, or what that one
has joined begins with a zero. -/
def ExpiryEnv.Agree (x : ExpiryEnv) (e : Bss) : Prop :=
  if x.IsJoined e then ∀ j, ¬ x.TellsApart e j
  else ∃ j, x.TellsApart e j ∧ (∀ j' < j, ¬ x.TellsApart e j') ∧
    ∀ j', j < j' → x.staVif j' = true → x.Old 0 → cString (x.joined j').bytes = []

/-! ## Entries that expire -/

/-- The test of the inner loop, in terms of strings. -/
theorem takesOut_apEnv {e : Bss} :
    TakesOut x.apEnv e j ↔ x.Old e.lastProbeResp ∧ x.TellsApart e j := by
  simp only [TakesOut, ExpiryEnv.apEnv, decide_eq_true_eq, ne_eq, ssv6xxxStrcmp_eq_zero_iff,
    ExpiryEnv.Old, ExpiryEnv.TellsApart]
  exact and_left_comm

/-- What an interface makes of a cleared entry. -/
theorem takesOut_apEnv_zero :
    TakesOut x.apEnv Bss.zero j
      ↔ x.staVif j = true ∧ x.Old 0 ∧ cString (x.joined j).bytes ≠ [] := by
  have hzero : cString (x.bytes Bss.zero) = [] := rfl
  rw [takesOut_apEnv, ExpiryEnv.TellsApart, hzero, ne_comm, and_left_comm]
  rfl

/-- An entry is removed when it is due, and once, exactly when the interfaces agree on it. -/
theorem removals_iff_agree {e : Bss} (hocc : e.Occupied) (hdup : ¬ IsDuplicate data e)
    (hold : x.Old e.lastProbeResp) :
    ((removals x.apEnv data e ≠ 0 ↔ Due x data e) ∧ removals x.apEnv data e ≤ 1) ↔ x.Agree e := by
  have hdue : Due x data e ↔ ¬ x.IsJoined e := by simp [Due, hocc, hdup, hold]
  have htakes : ∀ j, TakesOut x.apEnv e j ↔ x.TellsApart e j := fun j => by
    rw [takesOut_apEnv, and_iff_right hold]
  rw [hdue, removals, if_pos ⟨hocc, hdup⟩, ExpiryEnv.Agree]
  rcases ageEntry_eq x.apEnv e with ⟨hnone, hage⟩ | ⟨j, htake, hfirst, hage⟩
  · -- no interface takes it out
    have hnone' : ∀ j, ¬ x.TellsApart e j := fun j h => hnone j ((htakes j).mpr h)
    rw [hage]
    split
    case isTrue hj => simp [hj, hnone']
    case isFalse hj => simp [hj, hnone']
  · have htell := (htakes j).mp htake
    have hfirst' : ∀ j' < j, ¬ x.TellsApart e j' := fun j' hj' h =>
      hfirst j' hj' ((htakes j').mpr h)
    rw [hage]
    split
    case isTrue hj => exact iff_of_false (by simp [hj]) fun h => h j htell
    case isFalse hj =>
      have hle : ∀ c : ℕ, 1 + c ≤ 1 ↔ c = 0 := by omega
      simp only [hj, not_false_eq_true, iff_true, hle, List.countP_eq_zero, List.mem_filter,
        List.mem_finRange, true_and, decide_eq_true_eq, takesOut_apEnv_zero]
      constructor
      · rintro ⟨-, hnone⟩
        refine ⟨j, htell, hfirst', fun j' hj' hsta hold0 => ?_⟩
        by_contra hne
        exact hnone j' hj' ⟨hsta, hold0, hne⟩
      · rintro ⟨j₁, htell₁, hfirst₁, hrest⟩
        -- both are the first
        obtain rfl : j₁ = j := by
          rcases Nat.lt_trichotomy j₁.val j.val with h | h | h
          · exact absurd htell₁ (hfirst' j₁ h)
          · exact Fin.ext h
          · exact absurd htell (hfirst₁ j h)
        exact ⟨by omega, fun j' hj' h => h.2.2 (hrest j' hj' h.1 h.2.1)⟩

/-- What is not old is neither removed nor due. -/
theorem removals_eq_zero {e : Bss}
    (h : ¬ (e.Occupied ∧ ¬ IsDuplicate data e ∧ x.Old e.lastProbeResp)) :
    removals x.apEnv data e = 0 := by
  unfold removals
  split
  case isFalse => rfl
  case isTrue ho =>
    have hold : ¬ x.Old e.lastProbeResp := fun hold => h ⟨ho.1, ho.2, hold⟩
    rcases ageEntry_eq x.apEnv e with ⟨-, hage⟩ | ⟨j, htake, -⟩
    · rw [hage]
    · exact absurd (takesOut_apEnv.mp htake).1 hold

/-- **Expiry.** A call removes exactly the old entries that are neither that of its scan result nor
joined, and reports each of them once, exactly when the interfaces agree on every old entry, and
nothing is due if the scan result is of a hidden network. -/
theorem expiresExactly_iff (n : ℕ) (x : ExpiryEnv) (data : Option Bss) (s : MlmeState) :
    ExpiresExactly n x data s ↔
      ∀ i < n, ¬ Displaced n x.apEnv data s.apList i →
        if Visible data then
          (s.apList i).Occupied → ¬ IsDuplicate data (s.apList i) →
            x.Old (s.apList i).lastProbeResp → x.Agree (s.apList i)
        else ¬ Due x data (s.apList i) := by
  refine forall_congr' fun i => imp_congr_right fun hi => imp_congr_right fun hdisp => ?_
  by_cases hvis : Visible data
  · obtain ⟨hremoved, hcount⟩ := staModeApListHandler_entry hvis s hi hdisp
    have honce : ∀ c : ℕ, c = (if c ≠ 0 then 1 else 0) ↔ c ≤ 1 := by
      intro c
      split <;> omega
    simp only [if_pos hvis, hremoved, hcount, honce]
    by_cases hin : (s.apList i).Occupied ∧ ¬ IsDuplicate data (s.apList i)
        ∧ x.Old (s.apList i).lastProbeResp
    · rw [removals_iff_agree hin.1 hin.2.1 hin.2.2]
      exact ⟨fun h _ _ _ => h, fun h => h hin.1 hin.2.1 hin.2.2⟩
    · rw [removals_eq_zero hin]
      refine iff_of_true ⟨?_, Nat.zero_le 1⟩ fun hocc hdup hold => absurd ⟨hocc, hdup, hold⟩ hin
      exact iff_of_false (fun h => h rfl) fun h => hin ⟨h.1, h.2.2.1, h.2.1⟩
  · have hkeep : ¬ Removed s.apList s.apList i := by
      rintro ⟨hocc, hzero | hne⟩
      · rw [hzero] at hocc
        exact not_occupied_zero hocc
      · exact hne rfl
    rw [if_neg hvis, staModeApListHandler_hidden hvis]
    simp [hkeep]

/-- Two interfaces in station mode have joined one access point each. -/
def twoStations : ExpiryEnv where
  currentTick := timeStampExpire + 1
  staVif _ := true
  joined j := ⟨Vector.replicate 6 (if j.val = 0 then 1 else 2), [0]⟩
  behind _ := [0]

/-- The access point of interface 0 leaves the list because interface 1 has not joined it. -/
theorem not_expiresExactly_twoStations :
    ¬ ExpiresExactly 1 twoStations none
      ⟨fun _ => { Bss.zero with bssid := Vector.replicate 6 1, channelId := 1 }, 0⟩ := by
  intro h
  have hdisp : ¬ Displaced 1 twoStations.apEnv none
      (fun _ => { Bss.zero with bssid := Vector.replicate 6 1, channelId := 1 }) 0 := by
    simp [Displaced]
  obtain ⟨hremoved, -⟩ := h 0 Nat.one_pos hdisp
  have hdue := hremoved.mp (by decide)
  exact hdue.2.2.2 (by decide)

end Fullmac.Mlme
