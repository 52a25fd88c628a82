import Fullmac.Ap.NeighborTable

/-!
# Overlapping legacy networks

The two flags of the access point speak of the entries in use: `olbc` of one that
`ap_list_beacon_olbc` accepts, `olbc_ht` of one that does not support HT. A beacon can only set
them. `ap_list_timer` looks for such entries again, in the loop that frees the old ones, and clears
what it no longer finds. Until then a flag may be about a neighbour whose entry another one took.
-/

namespace Fullmac.Ap

variable {cfg : BssCfg} {n : Neighbors} {b : Beacon} {now : UInt32} {i : NeighborIdx}

/-- Every reason for a flag is known. -/
structure Detects (cfg : BssCfg) (n : Neighbors) : Prop where
  olbc : ∀ i, (n.list i).occupied = true → apListBeaconOlbc cfg (n.list i) = true → n.olbc = true
  olbcHt : ∀ i, (n.list i).occupied = true → (n.list i).htSupport = false → n.olbcHt = true

/-- Every flag still has a reason. -/
structure Justified (cfg : BssCfg) (n : Neighbors) : Prop where
  olbc : n.olbc = true →
    ∃ i, (n.list i).occupied = true ∧ apListBeaconOlbc cfg (n.list i) = true
  olbcHt : n.olbcHt = true → ∃ i, (n.list i).occupied = true ∧ (n.list i).htSupport = false

theorem detects_reset : Detects cfg resetNeighborApinfo :=
  ⟨fun _ hocc => absurd hocc Bool.false_ne_true, fun _ hocc => absurd hocc Bool.false_ne_true⟩

/-! ## A beacon -/

/-- Whatever entry a beacon is recorded in, it sets the flags for that entry. -/
theorem Detects.noteOverlap (herp : cfg.ap.erp = true) (h : Detects cfg n) (ap : NeighborApInfo)
    (num : ℕ) : Detects cfg (noteOverlap cfg (n.store i ap num) ap).1 := by
  refine ⟨fun j hocc holbc => ?_, fun j hocc hht => ?_⟩
  · rw [noteOverlap_list] at hocc holbc
    by_cases hj : j = i
    · subst hj
      rw [store_list_self] at holbc
      cases hset : n.olbc <;> simp [Ap.noteOverlap, Neighbors.store, herp, holbc, hset]
    · rw [store_list_of_ne hj] at hocc holbc
      simp [Ap.noteOverlap, Neighbors.store, h.olbc j hocc holbc]
  · rw [noteOverlap_list] at hocc hht
    by_cases hj : j = i
    · subst hj
      rw [store_list_self] at hht
      cases hset : n.olbcHt <;> simp [Ap.noteOverlap, Neighbors.store, hht, hset]
    · rw [store_list_of_ne hj] at hocc hht
      simp [Ap.noteOverlap, Neighbors.store, h.olbcHt j hocc hht]

theorem Detects.beacon (herp : cfg.ap.erp = true) (h : Detects cfg n) (b : Beacon) (now : UInt32) :
    Detects cfg (neighborListProcessBeacon cfg n b now).1 := by
  have hcases := neighborListProcessBeacon_cases cfg n b now
  generalize neighborListProcessBeacon cfg n b now = r at hcases
  cases hcases with
  | known i haddr => exact h.noteOverlap herp _ _
  | replaced hnew hfull => exact h.noteOverlap herp _ _
  | taken hnew hroom i hfree => exact h.noteOverlap herp _ _
  | noEntry hnew hroom hnone => exact ⟨h.olbc, h.olbcHt⟩

/-! ## The timer -/

/-- An entry that the timer leaves in the table. -/
def fresh (cfg : BssCfg) (now : UInt32) (ap : NeighborApInfo) : Bool :=
  ap.lastBeacon ≠ 0 && !stale cfg now ap

theorem listTimerStep_olbc (cfg : BssCfg) (now : UInt32) (w : ListWalk) (i : NeighborIdx) :
    (listTimerStep cfg now w i).n.olbc = w.n.olbc := by
  rw [listTimerStep_n]
  split <;> rfl

theorem listTimerStep_olbcHt (cfg : BssCfg) (now : UInt32) (w : ListWalk) (i : NeighborIdx) :
    (listTimerStep cfg now w i).n.olbcHt = w.n.olbcHt := by
  rw [listTimerStep_n]
  split <;> rfl

theorem listTimerStep_list_of_ne (cfg : BssCfg) (now : UInt32) (w : ListWalk) {i j : NeighborIdx}
    (h : j ≠ i) : (listTimerStep cfg now w i).n.list j = w.n.list j := by
  rw [listTimerStep_n]
  split
  · simp [apFreeAp, h]
  · rfl

/-- While a flag is set, an iteration adds what its entry says to what was found. The early way out
is taken only when there is nothing left to find. -/
theorem listTimerStep_found (cfg : BssCfg) (now : UInt32) {w : ListWalk}
    (hflag : (w.n.olbc || w.n.olbcHt) = true) (i : NeighborIdx) :
    (listTimerStep cfg now w i).olbc
        = (w.olbc || fresh cfg now (w.n.list i) && apListBeaconOlbc cfg (w.n.list i)) ∧
      (listTimerStep cfg now w i).olbcHt
        = (w.olbcHt || fresh cfg now (w.n.list i) && !(w.n.list i).htSupport) := by
  rw [listTimerStep]
  by_cases hzero : (w.n.list i).lastBeacon = 0
  · simp [fresh, hzero]
  · by_cases hold : timeBefore ((w.n.list i).lastBeacon + cfg.expiration) now = true
    · simp [fresh, stale, hzero, hold]
    · have hfresh : fresh cfg now (w.n.list i) = true := by simp [fresh, stale, hzero, hold]
      rw [if_neg hzero, if_neg hold, if_pos hflag, hfresh]
      by_cases hboth : (w.olbc && w.olbcHt) = true
      · rw [if_pos hboth]
        rw [Bool.and_eq_true] at hboth
        simp [hboth]
      · rw [if_neg hboth]
        simp

/-- While a flag is set, the loop finds what the entries that stay say. -/
theorem foldl_listTimerStep_found (cfg : BssCfg) (now : UInt32)
    (list : NeighborIdx → NeighborApInfo) (l : List NeighborIdx)
    (hl : l.Nodup) (w : ListWalk) (hlist : ∀ j ∈ l, w.n.list j = list j)
    (hflag : (w.n.olbc || w.n.olbcHt) = true) :
    (l.foldl (listTimerStep cfg now) w).olbc
        = (w.olbc || l.any fun i => fresh cfg now (list i) && apListBeaconOlbc cfg (list i)) ∧
      (l.foldl (listTimerStep cfg now) w).olbcHt
        = (w.olbcHt || l.any fun i => fresh cfg now (list i) && !(list i).htSupport) := by
  induction l generalizing w with
  | nil => simp
  | cons i l ih =>
    obtain ⟨hi, hl⟩ := List.nodup_cons.mp hl
    obtain ⟨hlisti, hlist⟩ := List.forall_mem_cons.mp hlist
    have hflag' : ((listTimerStep cfg now w i).n.olbc || (listTimerStep cfg now w i).n.olbcHt)
        = true := by
      rw [listTimerStep_olbc, listTimerStep_olbcHt, hflag]
    -- the entries behind this one are still as the loop found them
    have hlist' : ∀ j ∈ l, (listTimerStep cfg now w i).n.list j = list j := fun j hj => by
      rw [listTimerStep_list_of_ne cfg now w (ne_of_mem_of_not_mem hj hi), hlist j hj]
    obtain ⟨hfound, hfoundHt⟩ := listTimerStep_found cfg now hflag i
    obtain ⟨holbc, holbcHt⟩ := ih hl _ hlist' hflag'
    rw [List.foldl_cons, holbc, holbcHt, hfound, hfoundHt, hlisti, List.any_cons, List.any_cons,
      Bool.or_assoc, Bool.or_assoc]
    exact ⟨rfl, rfl⟩

theorem foldl_listTimerStep_flags (cfg : BssCfg) (now : UInt32) (l : List NeighborIdx)
    (w : ListWalk) :
    (l.foldl (listTimerStep cfg now) w).n.olbc = w.n.olbc ∧
      (l.foldl (listTimerStep cfg now) w).n.olbcHt = w.n.olbcHt := by
  induction l generalizing w with
  | nil => exact ⟨rfl, rfl⟩
  | cons i l ih =>
    obtain ⟨holbc, holbcHt⟩ := ih (listTimerStep cfg now w i)
    rw [List.foldl_cons, holbc, holbcHt, listTimerStep_olbc, listTimerStep_olbcHt]
    exact ⟨rfl, rfl⟩

/-- An entry that stays speaks for a flag. -/
def Remains (cfg : BssCfg) (now : UInt32) (n : Neighbors) (p : NeighborApInfo → Bool) : Prop :=
  ∃ i, fresh cfg now (n.list i) = true ∧ p (n.list i) = true

/-- The timer leaves a flag set exactly when an entry that stays speaks for it. -/
theorem apListTimer_flags (herp : cfg.ap.erp = true) (n : Neighbors) (now : UInt32) :
    ((apListTimer cfg n now).1.olbc = true ↔
        n.olbc = true ∧ Remains cfg now n (apListBeaconOlbc cfg)) ∧
      ((apListTimer cfg n now).1.olbcHt = true ↔
        n.olbcHt = true ∧ Remains cfg now n fun ap => !ap.htSupport) := by
  obtain ⟨hflag, hflagHt⟩ := foldl_listTimerStep_flags cfg now
    (List.finRange neighborMax) ⟨n, false, false⟩
  have hfound := foldl_listTimerStep_found cfg now n.list
    (List.finRange neighborMax) (List.nodup_finRange _) ⟨n, false, false⟩ fun _ _ => rfl
  rw [apListTimer]
  generalize (List.finRange neighborMax).foldl (listTimerStep cfg now) ⟨n, false, false⟩ = w
    at hflag hflagHt hfound ⊢
  dsimp only at hflag hflagHt hfound ⊢
  rw [hflag, hflagHt, herp]
  have hany : ∀ p : NeighborApInfo → Bool,
      ((List.finRange neighborMax).any fun i => fresh cfg now (n.list i) && p (n.list i)) = true ↔
        Remains cfg now n p := by
    simp [Remains, List.any_eq_true, List.mem_finRange]
  cases hn : n.olbc || n.olbcHt with
  | false =>
    rw [Bool.or_eq_false_iff] at hn
    simp [hn]
  | true =>
    obtain ⟨holbc, holbcHt⟩ := hfound hn
    rw [Bool.false_or] at holbc holbcHt
    rw [← hany, ← hany, ← holbc, ← holbcHt]
    cases n.olbc <;> cases n.olbcHt <;> simp

/-- What the timer leaves of an entry in use. -/
theorem occupied_apListTimer_iff (h : TableGood n) :
    ((apListTimer cfg n now).1.list i).occupied = true ↔ fresh cfg now (n.list i) = true := by
  have hstamped := h.stamped i
  rw [apListTimer_list]
  by_cases hstale : stale cfg now (n.list i) = true
  · simp [fresh, hstale, NeighborApInfo.occupied, NeighborApInfo.zero]
  · simp [fresh, hstale, NeighborApInfo.occupied, hstamped]

/-- An entry that stays is as it was. -/
theorem apListTimer_list_of_fresh (h : fresh cfg now (n.list i) = true) :
    (apListTimer cfg n now).1.list i = n.list i := by
  rw [fresh, Bool.and_eq_true, Bool.not_eq_true'] at h
  rw [apListTimer_list, h.2, if_neg Bool.false_ne_true]

/-- An entry in use after the timer was one before, for which nothing changed. -/
theorem remains_iff (h : TableGood n) (p : NeighborApInfo → Bool) :
    Remains cfg now n p ↔
      ∃ i, ((apListTimer cfg n now).1.list i).occupied = true ∧
        p ((apListTimer cfg n now).1.list i) = true := by
  refine exists_congr fun i => ?_
  rw [occupied_apListTimer_iff h]
  exact and_congr_right fun hfresh => by rw [apListTimer_list_of_fresh hfresh]

theorem Detects.apListTimer (herp : cfg.ap.erp = true) (hgood : TableGood n) (h : Detects cfg n) :
    Detects cfg (apListTimer cfg n now).1 := by
  obtain ⟨hflag, hflagHt⟩ := apListTimer_flags herp n now
  refine ⟨fun i hocc holbc => ?_, fun i hocc hht => ?_⟩
  · have hfresh := (occupied_apListTimer_iff hgood).mp hocc
    rw [apListTimer_list_of_fresh hfresh] at holbc
    refine hflag.mpr ⟨h.olbc i ?_ holbc, i, hfresh, holbc⟩
    rw [apListTimer_list_of_fresh hfresh] at hocc
    exact hocc
  · have hfresh := (occupied_apListTimer_iff hgood).mp hocc
    rw [apListTimer_list_of_fresh hfresh] at hocc hht
    exact hflagHt.mpr ⟨h.olbcHt i hocc hht, i, hfresh, by simpa using hht⟩

theorem justified_apListTimer (herp : cfg.ap.erp = true) (hgood : TableGood n) :
    Justified cfg (apListTimer cfg n now).1 := by
  obtain ⟨hflag, hflagHt⟩ := apListTimer_flags herp n now
  refine ⟨fun holbc => (remains_iff hgood _).mp (hflag.mp holbc).2, fun holbcHt => ?_⟩
  simpa using (remains_iff hgood _).mp (hflagHt.mp holbcHt).2

/-! ## What is reported -/

/-- The flags that differ between two states. -/
def changes (n n' : Neighbors) : List Overlap :=
  (if n'.olbc = n.olbc then [] else if n'.olbc then [.olbcSet] else [.olbcCleared])
    ++ if n'.olbcHt = n.olbcHt then [] else [.olbcHtChanged]

theorem noteOverlap_changes (cfg : BssCfg) (n : Neighbors) (ap : NeighborApInfo) :
    (noteOverlap cfg n ap).2 = changes n (noteOverlap cfg n ap).1 := by
  unfold noteOverlap changes
  cases n.olbc <;> cases n.olbcHt <;> cases cfg.ap.erp <;> cases apListBeaconOlbc cfg ap <;>
    cases ap.htSupport <;> rfl

/-- A beacon and the timer report exactly how the flags change. -/
theorem neighborStep_changes (cfg : BssCfg) (n : Neighbors) (inp : NeighborIn) :
    (neighborStep cfg n inp).2 = changes n (neighborStep cfg n inp).1 := by
  cases inp with
  | beacon b now =>
    have hcases := neighborListProcessBeacon_cases cfg n b now
    rw [neighborStep]
    generalize neighborListProcessBeacon cfg n b now = r at hcases
    cases hcases with
    | known i haddr => exact noteOverlap_changes cfg _ _
    | replaced hnew hfull => exact noteOverlap_changes cfg _ _
    | taken hnew hroom i hfree => exact noteOverlap_changes cfg _ _
    | noEntry hnew hroom hnone => simp [changes]
  | listTimer now =>
    obtain ⟨hflag, hflagHt⟩ := foldl_listTimerStep_flags cfg now
      (List.finRange neighborMax) ⟨n, false, false⟩
    rw [neighborStep, apListTimer]
    generalize (List.finRange neighborMax).foldl (listTimerStep cfg now) ⟨n, false, false⟩ = w
      at hflag hflagHt ⊢
    dsimp only at hflag hflagHt ⊢
    rw [hflag, hflagHt, changes]
    cases n.olbc <;> cases n.olbcHt <;> cases cfg.ap.erp <;> cases w.olbc <;> cases w.olbcHt <;>
      rfl

/-! ## Runs -/

/-- A beacon with a BSSID, at a tick that is not zero. -/
def NeighborIn.WellFormed : NeighborIn → Prop
  | .beacon b now => b.bssid ≠ nullAddr ∧ now ≠ 0
  | .listTimer _ => True

instance : DecidablePred NeighborIn.WellFormed
  | .beacon b now => inferInstanceAs (Decidable (b.bssid ≠ nullAddr ∧ now ≠ 0))
  | .listTimer _ => inferInstanceAs (Decidable True)

/-- **Overlapping legacy networks are detected.** With ERP protection configured, however beacons
and timers follow each other, `olbc` is set whenever an entry in use is one that
`ap_list_beacon_olbc` accepts and `olbc_ht` whenever one lacks HT support, and right after the timer
neither is set without such an entry. -/
theorem neighborRun_overlap (cfg : BssCfg) (herp : cfg.ap.erp = true) (is : List NeighborIn)
    (his : ∀ inp ∈ is, inp.WellFormed) :
    Detects cfg (neighborRun cfg is).1 ∧
      ∀ now, Justified cfg (neighborRun cfg (is ++ [.listTimer now])).1 := by
  have hinv : TableGood (neighborRun cfg is).1 ∧ Detects cfg (neighborRun cfg is).1 := by
    refine Machine.run_induction_of_meets (C := fun _ inp => inp.WellFormed)
      (P := fun n _ _ => TableGood n ∧ Detects cfg n) ⟨tableGood_reset, detects_reset⟩
      (fun n _ _ inp hinp hn => ?_) is (Machine.meets_of_forall his)
    cases inp with
    | beacon b now => exact ⟨tableGood_beacon hn.1 hinp.1 hinp.2, hn.2.beacon herp b now⟩
    | listTimer now => exact ⟨hn.1.apListTimer, hn.2.apListTimer herp hn.1⟩
  refine ⟨hinv.2, fun now => ?_⟩
  rw [neighborRun, Machine.run_append]
  exact justified_apListTimer herp hinv.1

/-- A slow neighbour is detected, and no longer once its entry is freed. -/
theorem passingBy_overlap :
    Detects openBss (neighborRun openBss passingBy).1 ∧
      ∀ now, Justified openBss (neighborRun openBss (passingBy ++ [.listTimer now])).1 :=
  neighborRun_overlap openBss rfl passingBy (by decide)

end Fullmac.Ap
