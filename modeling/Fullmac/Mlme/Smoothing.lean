import Fullmac.Mlme.ApList

/-!
# The averaged signal strength of an access point

Reference: `host/core/mlme.c`, `fine_tune_rcpi`.

An entry keeps in `prev_rcpi` an average of the signal strengths at which its access point was
heard, in 64ths, in which a new sample weighs one in 32. The content of a slot is copied over when a
scan result is written into it, and with it the average of whatever was there before.

Zero stands for "no average yet", so an average that has reached zero starts anew at the next
sample.
-/

namespace Fullmac.Mlme

variable {n : ℕ} {l : ApList} {a : Vector UInt8 6}

/-! ## The average of a list of samples -/

/-- One more sample. -/
def smooth (avg : ℕ) (s : UInt8) : ℕ := (64 * s.toNat + 31 * avg) / 32

/-- The exponential average of samples, in 64ths and rounded down. -/
def expAvg : List UInt8 → ℕ
  | [] => 0
  | s :: ss => ss.foldl smooth (64 * s.toNat)

/-- The samples from the last one on that found the average at zero. -/
def sinceZero (ss : List UInt8) : List UInt8 :=
  ss.foldl (fun run s => if expAvg run = 0 then [s] else run ++ [s]) []

theorem expAvg_concat {ss : List UInt8} (h : ss ≠ []) (s : UInt8) :
    expAvg (ss ++ [s]) = smooth (expAvg ss) s := by
  cases ss with
  | nil => exact absurd rfl h
  | cons s' ss => simp [expAvg]

theorem sinceZero_concat (ss : List UInt8) (s : UInt8) :
    sinceZero (ss ++ [s])
      = if expAvg (sinceZero ss) = 0 then [s] else sinceZero ss ++ [s] := by
  rw [sinceZero, List.foldl_append]
  rfl

/-- The average after one more sample, by the average before it. -/
theorem expAvg_sinceZero_concat (ss : List UInt8) (s : UInt8) :
    expAvg (sinceZero (ss ++ [s]))
      = if expAvg (sinceZero ss) = 0 then 64 * s.toNat else smooth (expAvg (sinceZero ss)) s := by
  rw [sinceZero_concat]
  split
  case isTrue => rfl
  case isFalse h =>
    refine expAvg_concat (fun hnil => h ?_) s
    rw [hnil]
    rfl

/-- The average stays within the range of a sample. -/
theorem expAvg_le (ss : List UInt8) : expAvg ss ≤ 64 * 255 := by
  induction ss using List.reverseRecOn with
  | nil => simp [expAvg]
  | append_singleton ss s ih =>
    have hs := s.toNat_lt
    rcases eq_or_ne ss [] with rfl | hne
    · simp only [List.nil_append, expAvg, List.foldl_nil]
      omega
    · rw [expAvg_concat hne, smooth]
      omega

/-- Samples of which none is zero have an average of which no sample finds zero. -/
theorem sinceZero_eq_self {ss : List UInt8} (h : 0 ∉ ss) :
    sinceZero ss = ss ∧ (ss ≠ [] → expAvg ss ≠ 0) := by
  induction ss using List.reverseRecOn with
  | nil => simp [sinceZero]
  | append_singleton ss s ih =>
    simp only [List.mem_append, List.mem_singleton, not_or] at h
    obtain ⟨hself, hpos⟩ := ih h.1
    have hs : 0 < s.toNat := by
      refine Nat.pos_of_ne_zero fun h0 => h.2 ?_
      exact (UInt8.toNat_inj.mp h0).symm
    rw [sinceZero_concat, hself]
    rcases eq_or_ne ss [] with rfl | hne
    · refine ⟨by simp [expAvg], fun _ => ?_⟩
      simp only [List.nil_append, expAvg, List.foldl_nil]
      omega
    · have hne0 := hpos hne
      refine ⟨by simp [hne0], fun _ => ?_⟩
      rw [expAvg_concat hne, smooth]
      omega

/-- `fine_tune_rcpi` takes one more sample into the average. -/
theorem fineTuneRcpi_prevRcpi {ap : Bss} (h : ap.prevRcpi ≤ 64 * 255) :
    (fineTuneRcpi ap).prevRcpi
      = if ap.prevRcpi = 0 then 64 * ap.rpci.toNat else smooth ap.prevRcpi ap.rpci := by
  have hs := ap.rpci.toNat_lt
  by_cases h0 : ap.prevRcpi = 0
  · simp only [fineTuneRcpi, h0, ne_eq, not_true_eq_false, if_false, if_true, Nat.shiftLeft_eq,
      rssiDecimalPointShift]
    omega
  · simp only [fineTuneRcpi, h0, ne_eq, not_false_eq_true, if_true, if_false, Nat.shiftLeft_eq,
      Nat.shiftRight_eq_div_pow, rssiSmoothingShift, rssiDecimalPointShift, smooth]
    omega

/-- What is written for a scan result over an entry whose average is that of `ss`. -/
theorem recordBss_prevRcpi (env : ApEnv) (ss : List UInt8) (b : Bss) :
    (recordBss env (expAvg (sinceZero ss)) b).prevRcpi
      = expAvg (sinceZero (ss ++ [b.rpci])) := by
  have hle := expAvg_le (sinceZero ss)
  rw [recordBss, fineTuneRcpi_prevRcpi hle, expAvg_sinceZero_concat]

/-! ## The samples of an access point -/

instance : Decidable (Listed n l a) := inferInstanceAs (Decidable (∃ i < n, _))

/-- The samples of BSSID `a` since it was last inserted, after one more step. -/
def samplesStep (n : ℕ) (a : Vector UInt8 6) (ss : List UInt8) (c : MlmeCall) : List UInt8 :=
  if Listed n c.after a then
    match c.input with
    | .scanResult _ b =>
      if b.bssid = a then (if Listed n c.before a then ss else []) ++ [b.rpci] else ss
    | _ => ss
  else []

/-- The samples of BSSID `a` since it was last inserted. -/
def samplesSince (n : ℕ) (a : Vector UInt8 6) (calls : List MlmeCall) : List UInt8 :=
  calls.foldl (samplesStep n a) []

/-- What the runs of the list keep: its invariant, and that the average of every entry is that of
the samples of its own access point. -/
structure SmoothInv (n : ℕ) (l : ApList) (calls : List MlmeCall) : Prop where
  list : ListInv n l
  average : ∀ i < n, (l i).Occupied →
    (l i).prevRcpi = expAvg (sinceZero (samplesSince n (l i).bssid calls))

theorem samplesSince_concat (a : Vector UInt8 6) (calls : List MlmeCall) (c : MlmeCall) :
    samplesSince n a (calls ++ [c]) = samplesStep n a (samplesSince n a calls) c := by
  simp [samplesSince]

/-- A scan result of a channel, of an access point that is not hidden. -/
def MlmeInput.Visible : MlmeInput → Prop
  | .scanResult _ b => b.ssidLen ≠ 0 ∧ b.channelId ≠ 0
  | _ => True

/-- Entries that a step only keeps or frees keep their averages. -/
theorem SmoothInv.shrink {l' : ApList} {calls : List MlmeCall} {i : MlmeInput} {p : ℕ}
    {evts : List (ℕ × ApAct)} (h : SmoothInv n l calls) (hi : ∀ env b, i ≠ .scanResult env b)
    (hs : Shrinks n l l') : SmoothInv n l' (calls ++ [⟨i, l, l', p, evts⟩]) where
  list := h.list.shrink hs
  average j hj hocc := by
    have hsame := hs.occupied hj hocc
    have hlisted : Listed n l' (l' j).bssid := ⟨j, hj, hocc, rfl⟩
    have hsamples : samplesSince n (l' j).bssid (calls ++ [⟨i, l, l', p, evts⟩])
        = samplesSince n (l' j).bssid calls := by
      rw [samplesSince_concat, samplesStep, if_pos hlisted]
      cases i with
      | scanResult env b => exact absurd rfl (hi env b)
      | _ => rfl
    rw [hsamples, hsame]
    rw [hsame] at hocc
    exact h.average j hj hocc

/-- A scan result is averaged with the samples of its own access point. -/
theorem SmoothInv.placed {env : ApEnv} {b : Bss} {l' : ApList} {calls : List MlmeCall} {p : ℕ}
    {evts : List (ℕ × ApAct)} (h : SmoothInv n l calls) (hb : b.Occupied)
    (hp : Placed n env b l l') :
    SmoothInv n l' (calls ++ [⟨.scanResult env b, l, l', p, evts⟩]) where
  list := h.list.placed hb hp
  average j hj hocc := by
    have hlisted : Listed n l' (l' j).bssid := ⟨j, hj, hocc, rfl⟩
    have hshrink := shrinks_agedList n env (some b) l
    rw [samplesSince_concat, samplesStep, if_pos hlisted]
    -- an entry of another access point is as before, and so are its samples
    have hother : l' j = agedList n env (some b) l j → (l' j).bssid ≠ b.bssid →
        (l' j).prevRcpi = expAvg (sinceZero (samplesSince n (l' j).bssid calls)) := by
      intro hsame _
      rw [hsame] at hocc ⊢
      have hkeep := hshrink.occupied hj hocc
      rw [hkeep] at hocc ⊢
      exact h.average j hj hocc
    rcases hp.cases h.list with ⟨i, q, rfl, hne, hq⟩ | ⟨hnew, rfl⟩
    · rcases eq_or_ne j i with rfl | hji
      · simp only [Function.update_self, recordBss_bssid, if_true]
        rcases hq with ⟨-, hocci, hbi, rfl⟩ | ⟨hnew, rfl⟩
        · rw [if_pos ⟨j, hj, hocci, hbi⟩, h.average j hj hocci, hbi, recordBss_prevRcpi]
        · rw [if_neg hnew]
          exact recordBss_prevRcpi env [] b
      · have hat := Function.update_of_ne hji (recordBss env q b) (agedList n env (some b) l)
        rw [hat] at hocc
        have hne' : (Function.update (agedList n env (some b) l) i (recordBss env q b) j).bssid
            ≠ b.bssid := by
          rw [hat]
          exact hne j hj hji hocc
        simp only [hne'.symm, if_false]
        exact hother hat hne'
    · have hne : (agedList n env (some b) l j).bssid ≠ b.bssid := by
        intro heq
        have hkeep := hshrink.occupied hj hocc
        rw [hkeep] at hocc heq
        exact hnew ⟨j, hj, hocc, heq⟩
      simp only [hne.symm, if_false]
      exact hother rfl hne

/-- One step. -/
theorem SmoothInv.step (hn : n < 256) {s : MlmeState} {calls : List MlmeCall} {i : MlmeInput}
    (hi : i.Visible) (h : SmoothInv n s.apList calls) :
    SmoothInv n (mlmeStep n s i).1.apList (calls ++ (mlmeStep n s i).2) := by
  cases i with
  | scanResult env b => exact h.placed hi.2 (handleScan_spec hn env hi.1 s).1
  | scanTimer env => exact h.shrink (by simp) (shrinks_mlmeHandle (by simp))
  | removeAp env bssid => exact h.shrink (by simp) (shrinks_mlmeHandle (by simp))
  | deinit => exact h.shrink (by simp) (shrinks_mlmeHandle (by simp))

/-- A step that is a scan result is placed. -/
def MlmeCall.IsPlaced (n : ℕ) (c : MlmeCall) : Prop :=
  ∀ env b, c.input = .scanResult env b → Placed n env b c.before c.after

/-- After every run no two entries in use are of one BSSID, every scan result went to the entry of
its BSSID, else to a free entry, else over the weakest entry unless it is weaker itself, and the
average of every entry is that of the samples of its own BSSID since it was inserted, counted from
the last one that found it at zero: of all of them, if none is zero. -/
theorem apList_run (hn : n < 256) (is : List MlmeInput) (his : ∀ i ∈ is, i.Visible) :
    let r := Machine.run (mlmeStep n) mlmeInit is
    (∀ i < n, ∀ j < n, (r.1.apList i).Occupied → (r.1.apList j).Occupied →
        (r.1.apList i).bssid = (r.1.apList j).bssid → i = j) ∧
      (∀ c ∈ r.2, c.IsPlaced n) ∧
      (∀ i < n, (r.1.apList i).Occupied →
        let ss := samplesSince n (r.1.apList i).bssid r.2
        (r.1.apList i).prevRcpi = expAvg (sinceZero ss) ∧
          (0 ∉ ss → (r.1.apList i).prevRcpi = expAvg ss)) := by
  intro r
  have hinv : SmoothInv n r.1.apList r.2 ∧ ∀ c ∈ r.2, c.IsPlaced n := by
    refine Machine.run_induction_of_meets
      (P := fun (s : MlmeState) _ calls => SmoothInv n s.apList calls ∧ ∀ c ∈ calls, c.IsPlaced n)
      ?_ ?_ is (Machine.meets_of_forall his)
    · refine ⟨⟨⟨fun _ _ _ => rfl, ?_⟩, ?_⟩, by simp⟩
      · exact fun i _ j _ hocc => absurd hocc not_occupied_zero
      · exact fun i _ hocc => absurd hocc not_occupied_zero
    · rintro s is calls i hi ⟨hs, hcalls⟩
      refine ⟨hs.step hn hi, ?_⟩
      rw [List.forall_mem_append]
      refine ⟨hcalls, ?_⟩
      simp only [mlmeStep, List.mem_singleton, forall_eq]
      rintro env b rfl
      exact (handleScan_spec hn env hi.1 s).1
  refine ⟨hinv.1.list.unique, hinv.2, fun i hi hocc => ?_⟩
  have havg := hinv.1.average i hi hocc
  exact ⟨havg, fun h0 => by rw [havg, (sinceZero_eq_self h0).1]⟩

/-- An access point heard at strength `rpci`, with no interface in station mode. -/
def heard (rpci : UInt8) : MlmeInput :=
  .scanResult ⟨0, fun _ => false, fun _ _ => false⟩
    { Bss.zero with channelId := 1, ssidLen := 1, rpci := rpci }

theorem visible_heard (rpci : UInt8) : (heard rpci).Visible := by
  change (1 : UInt8) ≠ 0 ∧ (1 : UInt8) ≠ 0
  decide

/-- Two samples of one access point, the first of which is not zero. -/
theorem apList_run_heard :
    ((Machine.run (mlmeStep 1) mlmeInit [heard 1, heard 33]).1.apList 0).prevRcpi
      = expAvg [1, 33] :=
  ((apList_run (by decide) [heard 1, heard 33] (by simp [visible_heard])).2.2 0 (by decide)
    (by decide)).2 (by decide)

/-- The average is not that of all samples when one of them is zero: heard at 0 and then at 32, an
access point has the average of the second sample alone. -/
theorem prevRcpi_restarts :
    ¬ ∀ n < 255, ∀ is : List MlmeInput, (∀ i ∈ is, i.Visible) →
      let r := Machine.run (mlmeStep n) mlmeInit is
      ∀ i < n, (r.1.apList i).Occupied →
        (r.1.apList i).prevRcpi = expAvg (samplesSince n (r.1.apList i).bssid r.2) := by
  intro h
  have havg := h 1 (by decide) [heard 0, heard 32] (by simp [visible_heard]) 0 (by decide)
    (by decide)
  revert havg
  decide

end Fullmac.Mlme
