import Fullmac.Ap.Protection

/-!
# The HT operation mode is current

`hostapd_ht_operation_update` changes three parts of `ht_op_mode` separately, but the mode it leaves
depends on the counters alone (`htUpdate_htMode`). So the mode is the one the counters ask for if it
is updated after every change of theirs, and the firmware knows it if it is told then: always, or
when the update reports a change.
-/

namespace Fullmac.Ap

variable {cfg : BssCfg} {p : Protection cfg} {tr : List Told}

/-! ## The mode that is asked for -/

/-- The mode with these parts. -/
def htMode (nonGf nonHt : Bool) (prot : HtProt) : UInt16 :=
  (if nonGf then nonGfHtStasPresent else 0) ||| (if nonHt then obssNonHtStasPresent else 0)
    ||| prot.code

/-- An update makes every mode the one that is asked for, and reports the parts that change. -/
theorem htUpdate_htMode (nonGf nonHt nonGf' nonHt' : Bool) (prot prot' : HtProt) :
    htUpdate (htMode nonGf nonHt prot) nonGf' nonHt' prot' =
      (htMode nonGf' nonHt' prot',
        (if nonGf = nonGf' then 0 else 1) + (if nonHt = nonHt' then 0 else 1)
          + if prot = prot' then 0 else 1) := by
  cases nonGf <;> cases nonHt <;> cases nonGf' <;> cases nonHt' <;> cases prot <;> cases prot' <;>
    rfl

/-- A mode is in the byte that is passed. -/
theorem htMode_toUInt8 (nonGf nonHt : Bool) (prot : HtProt) :
    (htMode nonGf nonHt prot).toUInt8.toUInt16 = htMode nonGf nonHt prot := by
  cases nonGf <;> cases nonHt <;> cases prot <;> rfl

/-! ## What the firmware knows -/

/-- The mode that the firmware knows after it is told something. -/
def Told.ht (mode : UInt8) : Told → UInt8
  | .firmwareStart => 0
  | .erpProtect _ => mode
  | .htProtect mode' => mode'

/-- The mode that the firmware was told last, since it started. -/
def lastHt (tr : List Told) : UInt8 := tr.foldl Told.ht 0

theorem lastHt_append (tr tr' : List Told) : lastHt (tr ++ tr') = tr'.foldl Told.ht (lastHt tr) :=
  List.foldl_append

theorem lastHt_append_erp (tr : List Told) (c : Prop) [Decidable c] (on : Bool) :
    lastHt (tr ++ if c then [.erpProtect on] else []) = lastHt tr := by
  rw [lastHt_append]
  split <;> rfl

/-- The mode is some mode, and the firmware knows it. -/
structure HtTold (p : Protection cfg) (tr : List Told) : Prop where
  formed : ∃ nonGf nonHt prot, p.htOpMode = htMode nonGf nonHt prot
  told : lastHt tr = p.htOpMode.toUInt8

/-- The mode is the one that the counters ask for, and the firmware knows it. -/
structure HtInv (p : Protection cfg) (tr : List Told) : Prop where
  mode : p.htOpMode = htMode p.nonGf p.nonHt p.prot
  told : lastHt tr = p.htOpMode.toUInt8

theorem HtInv.htTold (h : HtInv p tr) : HtTold p tr := ⟨⟨_, _, _, h.mode⟩, h.told⟩

/-- Only the mode matters for what is told. -/
theorem HtTold.congr {p' : Protection cfg} (h : HtTold p tr) (hmode : p'.htOpMode = p.htOpMode) :
    HtTold p' tr :=
  ⟨hmode ▸ h.formed, hmode ▸ h.told⟩

theorem HtTold.append_erp (h : HtTold p tr) (c : Prop) [Decidable c] (on : Bool) :
    HtTold p (tr ++ if c then [.erpProtect on] else []) :=
  ⟨h.formed, (lastHt_append_erp tr c on).trans h.told⟩

/-- The counters that the mode depends on are the same. -/
theorem HtInv.congr {p' : Protection cfg} (h : HtInv p tr) (hnum : p'.ap.num = p.ap.num)
    (holbc : p'.nb.olbcHt = p.nb.olbcHt) (hmode : p'.htOpMode = p.htOpMode) : HtInv p' tr := by
  refine ⟨?_, hmode ▸ h.told⟩
  have hwant : htMode p'.nonGf p'.nonHt p'.prot = htMode p.nonGf p.nonHt p.prot := by
    simp only [Protection.nonGf, Protection.nonHt, Protection.prot, hnum, holbc]
  rw [hmode, h.mode, hwant]

/-- The mode says what the counters and `olbc_ht` ask for, and nothing else. -/
structure HtCurrent (p : Protection cfg) : Prop where
  nonGf : p.htOpMode &&& nonGfHtStasPresent ≠ 0 ↔ 0 < p.ap.num .noHtGf
  nonHt : p.htOpMode &&& obssNonHtStasPresent ≠ 0 ↔ 0 < p.ap.num .noHt ∨ p.nb.olbcHt = true
  prot : p.htOpMode &&& htProtMask =
    if 0 < p.ap.num .noHt then HtProt.nonHtMixed.code
    else if cfg.secondaryChannel = true ∧ 0 < p.ap.num .ht20mhz then HtProt.mhz20.code
    else if p.nb.olbcHt then HtProt.nonmember.code
    else HtProt.noProtection.code
  rest : p.htOpMode &&& ~~~(nonGfHtStasPresent ||| obssNonHtStasPresent ||| htProtMask) = 0

theorem htMode_and (nonGf nonHt : Bool) (prot : HtProt) :
    (htMode nonGf nonHt prot &&& nonGfHtStasPresent ≠ 0 ↔ nonGf = true) ∧
      (htMode nonGf nonHt prot &&& obssNonHtStasPresent ≠ 0 ↔ nonHt = true) ∧
      htMode nonGf nonHt prot &&& htProtMask = prot.code ∧
      htMode nonGf nonHt prot
        &&& ~~~(nonGfHtStasPresent ||| obssNonHtStasPresent ||| htProtMask) = 0 := by
  cases nonGf <;> cases nonHt <;> cases prot <;> decide

theorem HtInv.htCurrent (h : HtInv p tr) : HtCurrent p := by
  obtain ⟨hgf, hht, hprot, hrest⟩ := htMode_and p.nonGf p.nonHt p.prot
  rw [← h.mode] at hgf hht hprot hrest
  refine ⟨hgf.trans ?_, hht.trans ?_, hprot.trans ?_, hrest⟩
  · simp [Protection.nonGf, Nat.pos_iff_ne_zero]
  · simp [Protection.nonHt, Nat.pos_iff_ne_zero]
  · simp only [Protection.prot, Nat.pos_iff_ne_zero, Bool.and_eq_true, decide_eq_true_eq]
    split_ifs <;> rfl

/-! ## Updates -/

theorem hostapdHtOperationUpdate_eq (hb : cfg.b80211n = true) (p : Protection cfg) :
    p.hostapdHtOperationUpdate
      = ({ p with htOpMode := (htUpdate p.htOpMode p.nonGf p.nonHt p.prot).1 },
          (htUpdate p.htOpMode p.nonGf p.nonHt p.prot).2) := by
  rw [Protection.hostapdHtOperationUpdate, hb]
  rfl

/-- The update that is always followed by a command. -/
theorem HtTold.update (hb : cfg.b80211n = true) (h : HtTold p tr) :
    HtInv p.hostapdHtOperationUpdate.1 (tr ++ [p.hostapdHtOperationUpdate.1.tellHt]) := by
  obtain ⟨nonGf, nonHt, prot, hmode⟩ := h.formed
  rw [hostapdHtOperationUpdate_eq hb, hmode, htUpdate_htMode]
  refine ⟨rfl, ?_⟩
  rw [lastHt_append]
  rfl

/-- The update that is followed by a command if something changed. -/
theorem HtTold.updateHtOperation (hb : cfg.b80211n = true) (h : HtTold p tr) :
    HtInv p.updateHtOperation.1 (tr ++ p.updateHtOperation.2) := by
  have hupdate := h.update hb
  rw [Protection.updateHtOperation]
  dsimp only
  split
  case isTrue => exact hupdate
  case isFalse hzero =>
    -- nothing changed, so the mode that is known is still the one that is asked for
    obtain ⟨nonGf, nonHt, prot, hmode⟩ := h.formed
    refine ⟨hupdate.mode, ?_⟩
    rw [List.append_nil, h.told]
    rw [hostapdHtOperationUpdate_eq hb, hmode, htUpdate_htMode] at hzero ⊢
    dsimp only at hzero ⊢
    have hgf : nonGf = p.nonGf := by
      by_contra hne
      rw [if_neg hne] at hzero
      omega
    have hht : nonHt = p.nonHt := by
      by_contra hne
      rw [if_neg hne] at hzero
      omega
    have hprot : prot = p.prot := by
      by_contra hne
      rw [if_neg hne] at hzero
      omega
    rw [hgf, hht, hprot]

/-- While the mode is current there is nothing to update. -/
theorem HtInv.update_eq_zero (h : HtInv p tr) : p.hostapdHtOperationUpdate.2 = 0 := by
  unfold Protection.hostapdHtOperationUpdate
  split
  · rfl
  · dsimp only
    rw [h.mode, htUpdate_htMode, if_pos rfl, if_pos rfl, if_pos rfl]

/-! ## Steps -/

theorem HtInv.recordAssoc (hb : cfg.b80211n = true) (h : HtInv p tr) (i : StaIdx cfg.ap)
    (r : AssocReq) : HtInv (p.recordAssoc i r).1 (tr ++ (p.recordAssoc i r).2) := by
  rw [Protection.recordAssoc]
  dsimp only
  have hap : HtTold { p with ap := Ap.recordAssoc p.ap i r } tr := h.htTold.congr rfl
  rw [← List.append_assoc]
  exact (hap.append_erp _ true).updateHtOperation hb

theorem HtTold.apStaInfoFree (hb : cfg.b80211n = true) (h : HtTold p tr) {i : StaIdx cfg.ap}
    (hv : (p.ap.sta i).valid = true) :
    HtInv (p.apStaInfoFree i).1 (tr ++ (p.apStaInfoFree i).2) := by
  rw [Protection.apStaInfoFree, hv, Bool.not_true]
  dsimp only
  have hap : HtTold { p with ap := Ap.apStaInfoFree p.ap i } tr := h.congr rfl
  rw [if_neg Bool.false_ne_true, ← List.append_assoc]
  exact (hap.append_erp _ false).updateHtOperation hb

theorem HtInv.apStaInfoFree (hb : cfg.b80211n = true) (h : HtInv p tr) (i : StaIdx cfg.ap) :
    HtInv (p.apStaInfoFree i).1 (tr ++ (p.apStaInfoFree i).2) := by
  cases hv : (p.ap.sta i).valid with
  | true => exact h.htTold.apStaInfoFree hb hv
  | false =>
    rw [Protection.apStaInfoFree, hv, Bool.not_false]
    dsimp only
    rw [if_pos rfl, List.append_nil]
    exact h

theorem HtInv.removeNext (hb : cfg.b80211n = true) (h : HtInv p tr) (i : StaIdx cfg.ap) :
    HtInv (p.removeNext i).1 (tr ++ (p.removeNext i).2) := by
  rw [Protection.removeNext]
  split
  case isTrue hv =>
    have hdeauth : HtTold (p.deauthenticate i) tr := h.htTold.congr rfl
    exact hdeauth.apStaInfoFree hb ((deauthenticate_valid p i).trans hv)
  case isFalse =>
    rw [List.append_nil]
    exact h

theorem HtInv.removeNext_run (hb : cfg.b80211n = true) (h : HtInv p tr)
    (l : List (StaIdx cfg.ap)) : HtInv (Machine.run Protection.removeNext p l).1
      (tr ++ (Machine.run Protection.removeNext p l).2) := by
  refine Machine.run_induction (P := fun p' _ tr' => HtInv p' (tr ++ tr')) ?_
    (fun p' _ tr' i h' => ?_) l
  · rw [List.append_nil]
    exact h
  · rw [← List.append_assoc]
    exact h'.removeNext hb i

/-- A recovery tells the mode again before it removes the stations. -/
theorem HtInv.apRecover (hb : cfg.b80211n = true) (h : HtInv p tr) :
    HtInv p.apRecover.1 (tr ++ p.apRecover.2) := by
  have htold : HtInv p (tr ++ ([.firmwareStart, p.tellHt]
      ++ if 1 ≤ p.ap.num .nonErp then [.erpProtect true] else [])) := by
    refine ⟨h.mode, ?_⟩
    rw [← List.append_assoc, lastHt_append_erp, lastHt_append]
    rfl
  rw [Protection.apRecover, ← List.append_assoc]
  exact htold.removeNext_run hb _

theorem lastHt_append_olbcTold (tr : List Told) (p : Protection cfg) (olbc : Bool) :
    lastHt (tr ++ olbcTold p olbc) = lastHt tr := by
  rw [lastHt_append]
  unfold olbcTold
  split_ifs <;> rfl

/-- The mode is updated when `olbc_ht` changes, and no counter does. -/
theorem HtInv.neighborStep (hb : cfg.b80211n = true) (h : HtInv p tr) (inp : NeighborIn) :
    HtInv (p.neighborStep inp).1 (tr ++ (p.neighborStep inp).2) := by
  set n := (Ap.neighborStep cfg p.nb inp).1 with hn
  have htold : HtTold { p with nb := n } (tr ++ olbcTold p n.olbc) :=
    ⟨h.htTold.formed, (lastHt_append_olbcTold tr p _).trans h.told⟩
  rw [neighborStep_eq p inp hn.symm]
  split
  case isTrue hsame =>
    have hsame' : HtInv { p with nb := n } tr := h.congr rfl hsame rfl
    exact ⟨hsame'.mode, htold.told⟩
  case isFalse =>
    rw [← List.append_assoc]
    exact htold.update hb

theorem HtInv.other (h : HtInv p tr) (ap : ApInfo cfg.ap) :
    HtInv (protectStep p (.other ap)).1 (tr ++ (protectStep p (.other ap)).2) := by
  rw [protectStep, List.append_nil]
  split
  case isTrue hsame => exact h.congr (sameCounts_of_eq_true hsame).num rfl rfl
  case isFalse => exact h

theorem HtInv.step (hb : cfg.b80211n = true) (h : HtInv p tr) (inp : ProtectIn cfg) :
    HtInv (protectStep p inp).1 (tr ++ (protectStep p inp).2) := by
  cases inp with
  | assoc i r => exact h.recordAssoc hb i r
  | free i => exact h.apStaInfoFree hb i
  | neighbor inp => exact h.neighborStep hb inp
  | recover => exact h.apRecover hb
  | other ap => exact h.other ap

theorem htInv_init (cfg : BssCfg) : HtInv (initProtection cfg) [] := by
  have hgf : (initProtection cfg).nonGf = false := by
    simp [Protection.nonGf, initProtection, initAp]
  have hht : (initProtection cfg).nonHt = false := by
    simp [Protection.nonHt, initProtection, initAp, resetNeighborApinfo]
  have hprot : (initProtection cfg).prot = .noProtection := by
    simp [Protection.prot, initProtection, initAp, resetNeighborApinfo]
  refine ⟨?_, rfl⟩
  rw [hgf, hht, hprot]
  rfl

/-- **The HT operation mode is always current, and the firmware knows it.** However associations,
departures, beacons, timers and recoveries follow each other, `ht_op_mode` says exactly what the
counters and `olbc_ht` ask for, an update would change nothing, and the mode that was last told
since the firmware started is that mode. -/
theorem protectRun_htMode (cfg : BssCfg) (hb : cfg.b80211n = true) (is : List (ProtectIn cfg)) :
    HtCurrent (protectRun is).1 ∧ (protectRun is).1.hostapdHtOperationUpdate.2 = 0 ∧
      (lastHt (protectRun is).2).toUInt16 = (protectRun is).1.htOpMode := by
  have hinv : HtInv (protectRun is).1 (protectRun is).2 :=
    Machine.run_induction (P := fun p _ tr => HtInv p tr) (htInv_init cfg)
      (fun p _ tr inp h => h.step hb inp) is
  refine ⟨hinv.htCurrent, hinv.update_eq_zero, ?_⟩
  rw [hinv.told, hinv.mode, htMode_toUInt8]

/-- A legacy neighbour comes, a station with slow rates joins, and the firmware is recovered. -/
def recoveredWithStation : List (ProtectIn openBss) :=
  [.neighbor (.beacon (legacyBeacon (Vector.replicate 6 8)) 1),
    .other (apStep (initAp openAp) (authEvent openAp (Vector.replicate 6 4))).1,
    .assoc ⟨0, openAp.maxAid_pos⟩
      { longEnough := true, sa := Vector.replicate 6 4, reassoc := false, capabInfo := 0
        listenInterval := 10, tkipCountermeasures := false, elems := none },
    .recover]

/-- The recovery removes the station, and the neighbour is still protected. -/
theorem recoveredWithStation_htMode :
    (protectRun recoveredWithStation).1.htOpMode = 0x11 ∧
      HtCurrent (protectRun recoveredWithStation).1 ∧
      (protectRun recoveredWithStation).1.hostapdHtOperationUpdate.2 = 0 ∧
      (lastHt (protectRun recoveredWithStation).2).toUInt16
        = (protectRun recoveredWithStation).1.htOpMode :=
  ⟨by decide +kernel, protectRun_htMode openBss rfl recoveredWithStation⟩

end Fullmac.Ap
