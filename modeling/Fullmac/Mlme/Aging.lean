import Fullmac.Mlme.ApList

/-!
# The refresh timer of the list

Reference: `host/core/mlme.c`, `refresh_timer` and `sta_mode_scan_timer`.

Entries age only in the handler, and without a scan result the handler runs only from its timer. A
call that leaves an entry in use must therefore leave the timer pending.

Whether the timer is armed is decided from the number of entries in use that the first walk counts,
before the scan result is written. The scan result that is written into a list without an entry in
use is not counted: it stays alone in the list with no timer, until another scan result comes.
-/

namespace Fullmac.Mlme

variable {n : ℕ} {l : ApList} {s : MlmeState}

/-- Some entry is in use. -/
def InUse (n : ℕ) (l : ApList) : Prop := ∃ i < n, (l i).Occupied

instance : Decidable (InUse n l) := inferInstanceAs (Decidable (∃ i < n, _))

/-- A call of `sta_mode_ap_list_handler`. -/
def MlmeInput.IsHandler : MlmeInput → Prop
  | .scanResult .. | .scanTimer _ => True
  | _ => False

/-- A list with an entry in use has a timer pending, and never two. -/
def AgedBy (n : ℕ) (l : ApList) (pending : ℕ) : Prop :=
  (InUse n l → 0 < pending) ∧ pending ≤ 1

/-- A call of the handler leaves the list with its timer. -/
def MlmeCall.KeepsAging (n : ℕ) (c : MlmeCall) : Prop :=
  c.input.IsHandler → AgedBy n c.after c.pending

/-- The list has an entry in use when a visible scan result on a channel comes, unless it has no
entries at all. -/
def MlmeInput.FindsInUse (n : ℕ) (s : MlmeState) : MlmeInput → Prop
  | .scanResult _ b => b.ssidLen ≠ 0 → b.Occupied → 0 < n → InUse n s.apList
  | _ => True

/-! ## Steps -/

/-- What is in use after a step that only frees entries was so before it. -/
theorem Shrinks.inUse {l' : ApList} (h : Shrinks n l l') (hl' : InUse n l') : InUse n l := by
  obtain ⟨i, hi, hocc⟩ := hl'
  have hsame := h.occupied hi hocc
  exact ⟨i, hi, hsame ▸ hocc⟩

/-- The handler arms the timer exactly when the list had an entry in use. -/
theorem refreshTimer_getStatus {env : ApEnv} {bss : Option Bss} {p : ℕ} (hp : p ≤ 1) :
    refreshTimer (getStatus env bss n l n).totalAp p = if InUse n l then 1 else 0 := by
  have hpos : 0 < (getStatus env bss n l n).totalAp ↔ InUse n l :=
    (getStatus_spec env bss l (Nat.le_refl n)).totalAp_pos
  unfold refreshTimer
  by_cases h : InUse n l
  · rw [if_pos (hpos.mpr h), if_pos h]
    omega
  · rw [if_neg fun hlt => h (hpos.mp hlt), if_neg h]
    omega

theorem agedBy_scanTimer (env : ApEnv) (hp : s.pending ≤ 1) :
    AgedBy n (staModeScanTimer n env s).1.apList (staModeScanTimer n env s).1.pending := by
  have hpending : (staModeScanTimer n env s).1.pending = if InUse n s.apList then 1 else 0 :=
    refreshTimer_getStatus (by simp only; omega)
  have hshrink : Shrinks n s.apList (staModeScanTimer n env s).1.apList :=
    shrinks_mlmeHandle (i := .scanTimer env) (by simp)
  rw [hpending]
  refine ⟨fun hin => ?_, by split <;> omega⟩
  rw [if_pos (hshrink.inUse hin)]
  exact Nat.one_pos

/-- A visible scan result of a channel is in the list, or the list was full. -/
theorem Placed.inUse {env : ApEnv} {b : Bss} {l' : ApList} (h : Placed n env b l l') (hn : 0 < n)
    (hb : b.Occupied) : InUse n l' := by
  have hupd : ∀ i p, i < n →
      InUse n (Function.update (agedList n env (some b) l) i (recordBss env p b)) :=
    fun i p hi => ⟨i, hi, by simpa using hb⟩
  cases h with
  | listed i hi hocc hbi h => exact h ▸ hupd i _ hi
  | empty hnew i hi hfree h => exact h ▸ hupd i _ hi
  | worst hnew hfull i hi hmax hle h => exact h ▸ hupd i _ (hi hn)
  | drop hnew hfull hlt h => exact h ▸ ⟨0, hn, hfull 0 hn⟩

/-- A scan result without a channel brings nothing into use. -/
theorem Placed.not_inUse {env : ApEnv} {b : Bss} {l' : ApList} (h : Placed n env b l l')
    (hb : ¬ b.Occupied) (hl : ¬ InUse n l) : ¬ InUse n l' := by
  have hshrink := shrinks_agedList n env (some b) l
  have hupd : ∀ i p,
      ¬ InUse n (Function.update (agedList n env (some b) l) i (recordBss env p b)) := by
    rintro i p ⟨j, hj, hocc⟩
    rcases eq_or_ne j i with rfl | hne
    · rw [Function.update_self, recordBss_occupied] at hocc
      exact hb hocc
    · rw [Function.update_of_ne hne] at hocc
      exact hl (hshrink.inUse ⟨j, hj, hocc⟩)
  cases h with
  | listed i hi hocc hbi h => exact h ▸ hupd i _
  | empty hnew i hi hfree h => exact h ▸ hupd i _
  | worst hnew hfull i hi hmax hle h => exact h ▸ hupd i _
  | drop hnew hfull hlt h => exact h ▸ fun hin => hl (hshrink.inUse hin)

/-- A scan result leaves the list with its timer unless it is the first of a list without an entry
in use. -/
theorem agedBy_handleScan_iff {env : ApEnv} {b : Bss} (hn : n < 256)
    (hs : AgedBy n s.apList s.pending) :
    AgedBy n (handleScan n env b s).1.apList (handleScan n env b s).1.pending
      ↔ (MlmeInput.scanResult env b).FindsInUse n s := by
  simp only [MlmeInput.FindsInUse]
  by_cases hid : b.ssidLen = 0
  · -- hidden: nothing happens
    simpa [handleScan, hid] using hs
  obtain ⟨hplaced, hpending⟩ := handleScan_spec hn env hid s
  have hshrink := shrinks_agedList n env (some b) s.apList
  rw [refreshTimer_getStatus hs.2] at hpending
  generalize (handleScan n env b s).1 = s' at hplaced hpending ⊢
  by_cases hin : InUse n s.apList
  · -- the timer is armed anew, or stays as it was
    refine iff_of_true ?_ fun _ _ _ => hin
    rw [if_pos hin] at hpending
    rcases hpending with h | ⟨-, h⟩ <;> rw [h]
    · exact ⟨fun _ => Nat.one_pos, Nat.le_refl 1⟩
    · exact ⟨fun _ => hs.1 hin, hs.2⟩
  rcases Nat.eq_zero_or_pos n with rfl | hpos
  · -- a list without entries
    refine iff_of_true ⟨?_, ?_⟩ fun _ _ h => absurd h (Nat.lt_irrefl 0)
    · rintro ⟨i, hi, -⟩
      exact absurd hi (Nat.not_lt_zero i)
    · rw [if_neg hin] at hpending
      have := hs.2
      omega
  · -- the timer is cancelled, and stays so
    have hzero : s'.pending = 0 := by
      rw [if_neg hin] at hpending
      rcases hpending with h | ⟨hfull, -⟩
      · exact h
      · exact absurd (hshrink.inUse ⟨0, hpos, hfull 0 hpos⟩) hin
    simp only [hzero, AgedBy, Nat.lt_irrefl, Nat.zero_le, and_true, imp_false, hid, hpos, hin,
      ne_eq, not_false_eq_true, true_imp_iff]
    by_cases hocc : b.Occupied
    · exact iff_of_false (not_not.mpr (hplaced.inUse hpos hocc)) fun h => h hocc trivial
    · exact iff_of_true (hplaced.not_inUse hocc hin) fun h => absurd h hocc

/-- One step. -/
theorem keepsAging_mlmeStep (hn : n < 256) (i : MlmeInput) (hs : AgedBy n s.apList s.pending) :
    (∀ c ∈ (mlmeStep n s i).2, c.KeepsAging n) ↔ i.FindsInUse n s := by
  simp only [mlmeStep, List.mem_singleton, forall_eq, MlmeCall.KeepsAging]
  cases i with
  | scanResult env b =>
    simpa [MlmeInput.IsHandler, mlmeHandle] using agedBy_handleScan_iff hn hs
  | scanTimer env =>
    simpa [MlmeInput.IsHandler, MlmeInput.FindsInUse, mlmeHandle] using agedBy_scanTimer env hs.2
  | removeAp env bssid => simp [MlmeInput.IsHandler, MlmeInput.FindsInUse]
  | deinit => simp [MlmeInput.IsHandler, MlmeInput.FindsInUse]

/-- Steps other than calls of the handler keep what the calls leave behind. -/
theorem AgedBy.step (hn : n < 256) {i : MlmeInput} (hs : AgedBy n s.apList s.pending)
    (hi : i.FindsInUse n s) :
    AgedBy n (mlmeStep n s i).1.apList (mlmeStep n s i).1.pending := by
  have hcall := (keepsAging_mlmeStep hn i hs).mpr hi _ (List.mem_singleton_self _)
  cases i with
  | scanResult env b => exact hcall trivial
  | scanTimer env => exact hcall trivial
  | removeAp env bssid =>
    have hshrink : Shrinks n s.apList (mlmeHandle n s (.removeAp env bssid)).1.apList :=
      shrinks_mlmeHandle (by simp)
    exact ⟨fun hin => hs.1 (hshrink.inUse hin), hs.2⟩
  | deinit =>
    refine ⟨?_, (Nat.sub_le _ _).trans hs.2⟩
    rintro ⟨i, hi, hocc⟩
    simp [mlmeStep, mlmeHandle, mlmeStaModeDeinit, hi] at hocc

/-- Along every run, every call of the handler that leaves an entry in use leaves one timer pending,
exactly when no visible scan result on a channel comes while nothing is in use. -/
theorem keepsAging_run_iff (maxNumOfApList : UInt8) (is : List MlmeInput) :
    let n := maxNumOfApList.toNat
    (∀ c ∈ (Machine.run (mlmeStep n) mlmeInit is).2, c.KeepsAging n)
      ↔ Machine.Meets (mlmeStep n) (fun s i => i.FindsInUse n s) mlmeInit is := by
  intro n
  have hn : n < 256 := maxNumOfApList.toNat_lt
  refine Machine.forall_output_iff_meets (I := fun s => AgedBy n s.apList s.pending)
    (fun s i hs hi => hs.step hn hi) (fun s i hs => keepsAging_mlmeStep hn i hs) ?_ is
  refine ⟨?_, Nat.zero_le 1⟩
  rintro ⟨i, hi, hocc⟩
  exact absurd hocc not_occupied_zero

/-- The first access point heard stays in the list with no timer pending. -/
theorem not_keepsAging_first :
    ¬ ∀ c ∈ (Machine.run (mlmeStep 10) mlmeInit
        [.scanResult ⟨0, fun _ => true, fun _ _ => false⟩
          { Bss.zero with channelId := 1, ssidLen := 1 }]).2, c.KeepsAging 10 := by
  intro h
  have haged := h _ (List.mem_singleton_self _) trivial
  -- it is in the last entry
  exact absurd (haged.1 ⟨9, by decide, by decide⟩) (by decide)

end Fullmac.Mlme
