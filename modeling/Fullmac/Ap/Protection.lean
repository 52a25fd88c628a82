import Fullmac.Ap.Capabilities
import Fullmac.Ap.Host
import Fullmac.Ap.Overlap

/-!
# Protection

Reference: `host/ap/ieee802_11_ht.c`, `hostapd_ht_operation_update` and `update_ht_state`;
`host/ap/ap_mlme.c`, `handle_assoc`; `host/ap/ap_sta_info.c`, `APStaInfo_free`;
`host/ap/neighbor_ap_list.c`; `host/core/recover.c`, `ssv6xxx_wifi_ap_recover`.

Stations and neighbours that do not know ERP or HT need protection. What the access point has
counted of its stations and seen of its neighbours decides about it, and the firmware is told with
`_ssv6xxx_wifi_ioctl_Ext` whenever that changes. There is no single place for this: a station that
is accepted, one that leaves, a beacon, the timer of the neighbours and a recovery each do their
part.

`Protection` puts the stations and the neighbours together with `ht_op_mode`, and `protectStep` is
one of these events, with what the firmware is told. What else the access point does to its stations
leaves the counters alone, and is one kind of event too (`ProtectIn.other`); every event of
`apStep` is a sequence of these (`apStep_protectRun`).
-/

namespace Fullmac.Ap

/-! ## The HT operation mode -/

/-- `HT_OPER_OP_MODE_NON_GF_HT_STAS_PRESENT`. -/
def nonGfHtStasPresent : UInt16 := 0x4

/-- `HT_OPER_OP_MODE_OBSS_NON_HT_STAS_PRESENT`. -/
def obssNonHtStasPresent : UInt16 := 0x10

/-- `HT_OPER_OP_MODE_HT_PROT_MASK`. -/
def htProtMask : UInt16 := 0x3

/-- The values of the protection field. -/
inductive HtProt
  | noProtection | nonmember | mhz20 | nonHtMixed
deriving DecidableEq, Repr

def HtProt.code : HtProt → UInt16
  | .noProtection => 0
  | .nonmember => 1
  | .mhz20 => 2
  | .nonHtMixed => 3

/-- A bit of the mode is set or cleared, and a change counted. -/
def adjustBit (mode bit : UInt16) (present : Bool) : UInt16 × ℕ :=
  if mode &&& bit = 0 ∧ present = true then (mode ||| bit, 1)
  else if mode &&& bit ≠ 0 ∧ present = false then (mode &&& ~~~bit, 1)
  else (mode, 0)

/-- The protection field is set, and a change counted. -/
def adjustProt (mode : UInt16) (prot : HtProt) : UInt16 × ℕ :=
  if mode &&& htProtMask = prot.code then (mode, 0)
  else ((mode &&& ~~~htProtMask) ||| prot.code, 1)

/-- What `hostapd_ht_operation_update` makes of the mode, and its return value. -/
def htUpdate (mode : UInt16) (nonGf nonHt : Bool) (prot : HtProt) : UInt16 × ℕ :=
  let gf := adjustBit mode nonGfHtStasPresent nonGf
  let obss := adjustBit gf.1 obssNonHtStasPresent nonHt
  let field := adjustProt obss.1 prot
  (field.1, gf.2 + obss.2 + field.2)

/-! ## The state and what is told -/

/-- What the firmware is told. A firmware that starts knows of no protection. -/
inductive Told
  | firmwareStart
  /-- `SSV6XXX_HOST_CMD_SET_ERP_PROTECT`. -/
  | erpProtect (on : Bool)
  /-- `SSV6XXX_HOST_CMD_SET_HT_PROTECT`; of the mode, `sizeof(bool)` bytes are passed. -/
  | htProtect (mode : UInt8)
deriving DecidableEq, Repr

/-- The access point, its neighbours, and `ht_op_mode`. -/
structure Protection (cfg : BssCfg) where
  ap : ApInfo cfg.ap
  nb : Neighbors
  htOpMode : UInt16

variable {cfg : BssCfg}

/-- Nothing is there yet. -/
def initProtection (cfg : BssCfg) : Protection cfg where
  ap := initAp cfg.ap
  nb := resetNeighborApinfo
  htOpMode := 0

namespace Protection

variable (p : Protection cfg)

def nonGf : Bool := p.ap.num .noHtGf ≠ 0

def nonHt : Bool := p.ap.num .noHt ≠ 0 || p.nb.olbcHt

/-- `new_op_mode`. -/
def prot : HtProt :=
  if p.ap.num .noHt ≠ 0 then .nonHtMixed
  else if cfg.secondaryChannel && p.ap.num .ht20mhz ≠ 0 then .mhz20
  else if p.nb.olbcHt then .nonmember
  else .noProtection

/-- `hostapd_ht_operation_update`, with its return value. -/
def hostapdHtOperationUpdate : Protection cfg × ℕ :=
  if !cfg.b80211n then (p, 0)
  else
    let r := htUpdate p.htOpMode p.nonGf p.nonHt p.prot
    ({ p with htOpMode := r.1 }, r.2)

def tellHt : Told := .htProtect p.htOpMode.toUInt8

/-- The mode is brought up to date, and the firmware told if it changed: the end of
`update_ht_state` and of `APStaInfo_free`. -/
def updateHtOperation : Protection cfg × List Told :=
  let r := p.hostapdHtOperationUpdate
  (r.1, if 0 < r.2 then [r.1.tellHt] else [])

/-- The part of `handle_assoc` that records a station. -/
def recordAssoc (i : StaIdx cfg.ap) (r : AssocReq) : Protection cfg × List Told :=
  let st := p.ap.sta i
  let ap := Ap.recordAssoc p.ap i r
  let nonErp := cfg.ap.erp && (st.noted r).nonerp && !st.counted .nonErp
  let u := { p with ap }.updateHtOperation
  (u.1, (if nonErp && ap.num .nonErp == 1 then [.erpProtect true] else []) ++ u.2)

/-- `APStaInfo_free`. -/
def apStaInfoFree (i : StaIdx cfg.ap) : Protection cfg × List Told :=
  let st := p.ap.sta i
  if !st.valid then (p, [])
  else
    let ap := Ap.apStaInfoFree p.ap i
    let lastNonErp := st.counted .nonErp && ap.num .nonErp == 0
    let u := { p with ap }.updateHtOperation
    (u.1, (if lastNonErp && !p.nb.olbc then [.erpProtect false] else []) ++ u.2)

/-- What `neighbor_ap_list_process_beacon` and `ap_list_timer` do when a flag changes. -/
def noteOverlap : Overlap → Protection cfg × List Told
  | .olbcSet => (p, [.erpProtect true])
  | .olbcCleared => (p, if p.ap.num .nonErp = 0 then [.erpProtect false] else [])
  | .olbcHtChanged =>
    -- told whether or not the update reports a change
    let r := p.hostapdHtOperationUpdate
    (r.1, [r.1.tellHt])

/-- A beacon of a neighbour, or the timer. -/
def neighborStep (inp : NeighborIn) : Protection cfg × List Told :=
  let r := Ap.neighborStep cfg p.nb inp
  Machine.run noteOverlap { p with nb := r.1 } r.2

/-- A station is disassociated and sent a deauthentication frame. -/
def deauthenticate (i : StaIdx cfg.ap) : Protection cfg :=
  let s := (changeStaDisassocToDeauth p.ap i false).modSta i fun st =>
    { st with timeoutNext := .deauth }
  let s := endStaTimer s i
  { p with ap := sendMgmtFrame s (s.sta i).addr }

/-- A station is removed, with a deauthentication frame. -/
def removeSilent (i : StaIdx cfg.ap) : Protection cfg × List Told :=
  (p.deauthenticate i).apStaInfoFree i

/-- The loop of `send_deauth_and_remove_all`. -/
def removeNext (i : StaIdx cfg.ap) : Protection cfg × List Told :=
  if (p.ap.sta i).valid then p.removeSilent i else (p, [])

/-- `ssv6xxx_wifi_ap_recover`: the firmware is started anew and told again, then all stations are
removed. -/
def apRecover : Protection cfg × List Told :=
  -- `olbc` is not looked at
  let told := [.firmwareStart, p.tellHt]
    ++ if 1 ≤ p.ap.num .nonErp then [.erpProtect true] else []
  let r := Machine.run removeNext p (List.finRange cfg.ap.maxAid)
  (r.1, told ++ r.2)

/-- The counters and what they count are the same. -/
def sameCounts (ap : ApInfo cfg.ap) : Bool :=
  countedBits.all fun c => ap.num c == p.ap.num c &&
    (List.finRange cfg.ap.maxAid).all fun i => (ap.sta i).counted c == (p.ap.sta i).counted c

end Protection

/-- What happens: a station is accepted, or leaves; a beacon comes, or the timer of the neighbours;
the firmware is recovered; the access point does something that does not change what is counted. -/
inductive ProtectIn (cfg : BssCfg)
  | assoc (i : StaIdx cfg.ap) (r : AssocReq)
  | free (i : StaIdx cfg.ap)
  | neighbor (inp : NeighborIn)
  | recover
  | other (ap : ApInfo cfg.ap)

/-- One step. -/
def protectStep (p : Protection cfg) : ProtectIn cfg → Protection cfg × List Told
  | .assoc i r => p.recordAssoc i r
  | .free i => p.apStaInfoFree i
  | .neighbor inp => p.neighborStep inp
  | .recover => p.apRecover
  | .other ap => (if p.sameCounts ap then { p with ap } else p, [])

/-- A run from the start. -/
abbrev protectRun (is : List (ProtectIn cfg)) : Protection cfg × List Told :=
  Machine.run protectStep (initProtection cfg) is

/-! ## The state behind it -/

variable {p : Protection cfg} {i : StaIdx cfg.ap}

@[simp] theorem hostapdHtOperationUpdate_ap (p : Protection cfg) :
    p.hostapdHtOperationUpdate.1.ap = p.ap := by
  unfold Protection.hostapdHtOperationUpdate
  split <;> rfl

@[simp] theorem hostapdHtOperationUpdate_nb (p : Protection cfg) :
    p.hostapdHtOperationUpdate.1.nb = p.nb := by
  unfold Protection.hostapdHtOperationUpdate
  split <;> rfl

@[simp] theorem updateHtOperation_ap (p : Protection cfg) : p.updateHtOperation.1.ap = p.ap :=
  hostapdHtOperationUpdate_ap p

@[simp] theorem updateHtOperation_nb (p : Protection cfg) : p.updateHtOperation.1.nb = p.nb :=
  hostapdHtOperationUpdate_nb p

@[simp] theorem recordAssoc_ap (p : Protection cfg) (i : StaIdx cfg.ap) (r : AssocReq) :
    (p.recordAssoc i r).1.ap = recordAssoc p.ap i r :=
  updateHtOperation_ap _

@[simp] theorem recordAssoc_nb (p : Protection cfg) (i : StaIdx cfg.ap) (r : AssocReq) :
    (p.recordAssoc i r).1.nb = p.nb :=
  updateHtOperation_nb _

@[simp] theorem apStaInfoFree_ap (p : Protection cfg) (i : StaIdx cfg.ap) :
    (p.apStaInfoFree i).1.ap = apStaInfoFree p.ap i := by
  unfold Protection.apStaInfoFree
  dsimp only
  split
  · next hv => rw [apStaInfoFree_of_not_valid (by simpa using hv)]
  · exact updateHtOperation_ap _

@[simp] theorem apStaInfoFree_nb (p : Protection cfg) (i : StaIdx cfg.ap) :
    (p.apStaInfoFree i).1.nb = p.nb := by
  unfold Protection.apStaInfoFree
  dsimp only
  split
  · rfl
  · exact updateHtOperation_nb _

@[simp] theorem removeSilent_ap (p : Protection cfg) (i : StaIdx cfg.ap) :
    (p.removeSilent i).1.ap = removeSilent p.ap i := by
  rw [Protection.removeSilent, apStaInfoFree_ap]
  rfl

/-- What a change of `olbc` makes the access point tell. -/
def olbcTold (p : Protection cfg) (olbc : Bool) : List Told :=
  if olbc = p.nb.olbc then []
  else if olbc then [.erpProtect true]
  else if p.ap.num .nonErp = 0 then [.erpProtect false] else []

/-- The flags change as the table says, and what is told depends on which do. -/
theorem neighborStep_eq (p : Protection cfg) (inp : NeighborIn) {n : Neighbors}
    (hn : (neighborStep cfg p.nb inp).1 = n) :
    p.neighborStep inp =
      if n.olbcHt = p.nb.olbcHt then ({ p with nb := n }, olbcTold p n.olbc)
      else ({ p with nb := n }.hostapdHtOperationUpdate.1,
        olbcTold p n.olbc ++ [{ p with nb := n }.hostapdHtOperationUpdate.1.tellHt]) := by
  have hchanges := neighborStep_changes cfg p.nb inp
  unfold Protection.neighborStep olbcTold
  dsimp only
  rw [hchanges, hn, changes]
  split_ifs <;> simp [Protection.noteOverlap, *]

/-- A recovery does to the stations what `send_deauth_and_remove_all` does. -/
theorem apRecover_ap (p : Protection cfg) : p.apRecover.1.ap = sendDeauthAndRemoveAll p.ap := by
  have hfold : ∀ (l : List (StaIdx cfg.ap)) (p : Protection cfg),
      (Machine.run Protection.removeNext p l).1.ap
        = l.foldl (fun s i => if (s.sta i).valid then removeSilent s i else s) p.ap := by
    intro l
    induction l with
    | nil => exact fun p => rfl
    | cons i l ih =>
      intro p
      rw [Machine.run_cons, ih, List.foldl_cons]
      congr 1
      unfold Protection.removeNext
      split
      · exact removeSilent_ap p i
      · rfl
  exact hfold _ p

/-- The access point's part of an event: associations, departures, and the rest. -/
def ProtectIn.ofStations : ProtectIn cfg → Prop
  | .neighbor _ => False
  | .recover => False
  | _ => True

/-- The access point gets from the state it is in to `s` by associations, departures, and the rest.
-/
def Reaches (p : Protection cfg) (s : ApInfo cfg.ap) : Prop :=
  ∃ is : List (ProtectIn cfg), (∀ inp ∈ is, inp.ofStations) ∧
    (Machine.run protectStep p is).1.ap = s

theorem Reaches.step {s : ApInfo cfg.ap} (h : Reaches p s) (inp : ProtectIn cfg)
    (hinp : inp.ofStations) {s' : ApInfo cfg.ap}
    (hs' : ∀ p' : Protection cfg, p'.ap = s → (protectStep p' inp).1.ap = s') : Reaches p s' := by
  obtain ⟨is, his, hs⟩ := h
  refine ⟨is ++ [inp], ?_, ?_⟩
  · rintro inp' hmem
    rcases List.mem_append.mp hmem with hmem | hmem
    · exact his inp' hmem
    · rw [List.mem_singleton.mp hmem]
      exact hinp
  · rw [Machine.run_append]
    exact hs' _ hs

/-! ## What does not count -/

/-- The counters and the counted bits are the same. -/
structure SameCounts {cfg : ApCfg} (s s' : ApInfo cfg) : Prop where
  num : s'.num = s.num
  counted : ∀ j, (s'.sta j).counted = (s.sta j).counted

namespace SameCounts

variable {cfg : ApCfg} {s s' s'' : ApInfo cfg} {i : StaIdx cfg}

theorem trans (h : SameCounts s s') (h' : SameCounts s' s'') : SameCounts s s'' :=
  ⟨h'.num.trans h.num, fun j => (h'.counted j).trans (h.counted j)⟩

theorem of_profiles (hnum : s'.num = s.num) (h : s'.profiles = s.profiles) : SameCounts s s' :=
  ⟨hnum, fun j => congrArg Profile.counted (congrFun h j)⟩

theorem of_table (ht : s'.table = s.table) : SameCounts s s' :=
  ⟨congrArg StaTable.num ht, fun j =>
    congrArg StaEntry.counted (congrFun (congrArg StaTable.sta ht) j)⟩

theorem of_ctl (hctl : s'.ctl = s.ctl) : SameCounts s s' := of_table (table_of_ctl hctl)

/-- A station falls asleep or wakes up. -/
theorem of_setPs {b : Bool} {n : ℕ} (ht : s'.table = s.table.setPs i b n) : SameCounts s s' := by
  refine ⟨congrArg StaTable.num ht, fun j => ?_⟩
  have hj : (s'.sta j).counted = ((s.table.setPs i b n).sta j).counted :=
    congrArg StaEntry.counted (congrFun (congrArg StaTable.sta ht) j)
  rw [hj]
  exact Table.apply_update_of_eq (t := s.table.sta) (a := { s.table.sta i with psSta := b })
    StaEntry.counted rfl j

theorem modSta {f : Station cfg → Station cfg} (hf : (f (s.sta i)).counted = (s.sta i).counted) :
    SameCounts s (s.modSta i f) :=
  ⟨rfl, modSta_apply_of_eq Station.counted hf⟩

theorem apStaSetAuthorized (s : ApInfo cfg) (i : StaIdx cfg) (b : Bool) :
    SameCounts s (apStaSetAuthorized s i b) := by
  refine of_profiles ?_ (apStaSetAuthorized_profiles s i b)
  unfold Ap.apStaSetAuthorized
  split_ifs <;> rfl

theorem drvRemove (s : ApInfo cfg) (i : StaIdx cfg) : SameCounts s (drvRemove s i) := by
  refine of_profiles ?_ (drvRemove_profiles s i)
  have hnum : (Ap.drvRemove s i).table.num = s.table.num := by
    rw [drvRemove_table]
    split <;> rfl
  exact hnum

theorem changeStaDisassocToDeauth (s : ApInfo cfg) (i : StaIdx cfg) (timerCreat : Bool) :
    SameCounts s (changeStaDisassocToDeauth s i timerCreat) := by
  unfold Ap.changeStaDisassocToDeauth
  extract_lets s₁ s₂
  have h₁ : SameCounts s s₁ := apStaSetAuthorized s i false
  have h₂ : SameCounts s s₂ := h₁.trans ((modSta rfl).trans (drvRemove _ i))
  have h₃ : SameCounts s (s₂.modSta i fun st => { st with timeoutNext := .deauth }) :=
    h₂.trans (modSta rfl)
  split
  · exact ⟨h₃.num, h₃.counted⟩
  · exact h₂

theorem hostapdGetAid (h : hostapdGetAid s i = some s') : SameCounts s s' := by
  obtain ⟨hother, n, hself⟩ := hostapdGetAid_sta h
  refine ⟨?_, fun j => ?_⟩
  · unfold Ap.hostapdGetAid at h
    split at h
    · cases h
      rfl
    · split at h <;> cases h
      rfl
  · by_cases hj : j = i
    · rw [hj, hself]
    · rw [hother j hj]

theorem apSocCmdStaOper (s : ApInfo cfg) (i : StaIdx cfg) (add : Bool) :
    SameCounts s (apSocCmdStaOper s i add) := by
  refine of_profiles ?_ (apSocCmdStaOper_profiles s i add)
  have hnum : (Ap.apSocCmdStaOper s i add).table.num = s.table.num := by rw [apSocCmdStaOper_table]
  exact hnum

end SameCounts

theorem sameCounts_of_eq_true {ap : ApInfo cfg.ap} (h : p.sameCounts ap = true) :
    SameCounts p.ap ap := by
  simp only [Protection.sameCounts, List.all_eq_true, Bool.and_eq_true, beq_iff_eq,
    List.mem_finRange, true_implies] at h
  exact ⟨funext fun c => (h c (mem_countedBits c)).1, fun j =>
    funext fun c => (h c (mem_countedBits c)).2 j⟩

theorem deauthenticate_sameCounts (p : Protection cfg) (i : StaIdx cfg.ap) :
    SameCounts p.ap (p.deauthenticate i).ap := by
  unfold Protection.deauthenticate
  extract_lets s₁ s₂
  have h₁ : SameCounts p.ap s₁ :=
    (SameCounts.changeStaDisassocToDeauth p.ap i false).trans (.modSta rfl)
  have h₂ : SameCounts p.ap s₂ := ⟨h₁.num, h₁.counted⟩
  exact h₂.trans (.of_ctl (sendMgmtFrame_ctl s₂ _))

theorem deauthenticate_valid (p : Protection cfg) (i : StaIdx cfg.ap) :
    ((p.deauthenticate i).ap.sta i).valid = (p.ap.sta i).valid := by
  unfold Protection.deauthenticate
  extract_lets s₁ s₂
  have hs₂ : s₂.sta = s₁.sta := rfl
  rw [sendMgmtFrame_sta, hs₂, ← changeStaDisassocToDeauth_valid p.ap i false]
  exact modSta_apply_of_eq Station.valid rfl i

/-- What leaves the counters and the counted bits alone. -/
theorem Reaches.other {s s' : ApInfo cfg.ap} (h : Reaches p s) (hs : SameCounts s s') :
    Reaches p s' := by
  refine h.step (.other s') trivial fun p' hp' => ?_
  subst hp'
  have hsame : p'.sameCounts s' = true := by simp [Protection.sameCounts, hs.num, hs.counted]
  rw [protectStep, if_pos hsame]

/-- What it takes to remove a station is a departure and things that do not count. -/
theorem reaches_keptByRemoval (p : Protection cfg) : KeptByRemoval (Reaches p) where
  modSta h _ hf := h.other (.modSta (congrArg StaEntry.counted (entry_of_core hf)))
  setTimeout h i t := h.other (.modSta rfl)
  setDrv h _ := h.other ⟨rfl, fun _ => rfl⟩
  clearAssoc h _ := h.other (.modSta rfl)
  clearAuth h _ := h.other (.modSta rfl)
  sendMgmtFrame h da := h.other (.of_ctl (sendMgmtFrame_ctl _ da))
  withdraw h i := h.other (.apStaSetAuthorized _ i false)
  drvRemove h i := h.other (.drvRemove _ i)
  apStaInfoFree h i := h.step (.free i) trivial fun p' hp' => by
    subst hp'
    exact apStaInfoFree_ap p' i

theorem Reaches.tryAssoc {s : ApInfo cfg.ap} (h : Reaches p s) (i : StaIdx cfg.ap) (r : AssocReq) :
    Reaches p (tryAssoc s i r).2 := by
  have hchecked : SameCounts s (s.modSta i fun _ => (checkAssocIes (s.sta i) r.elems).2) :=
    .modSta (checkAssocIes_counted _ _)
  rcases tryAssoc_cases s i r with ⟨-, he | he⟩ | ⟨s', hget, he⟩ <;> rw [he]
  · exact h
  · exact h.other hchecked
  · have haid : Reaches p s' := h.other (hchecked.trans (.hostapdGetAid hget))
    have hrec : Reaches p (recordAssoc s' i r) :=
      haid.step (.assoc i r) trivial fun p' hp' => by
        subst hp'
        exact recordAssoc_ap p' i r
    exact hrec.other (.apSocCmdStaOper _ i true)

/-- So is everything the handlers do, with associations. -/
theorem reaches_kept (p : Protection cfg) : Kept (fun _ => True) (Reaches p) where
  toKeptByRemoval := reaches_keptByRemoval p
  grant h _ _ := h.other (.apStaSetAuthorized _ _ true)
  apStaInfoAdd {s} h addr := by
    have hevict := (reaches_keptByRemoval p).evictSilent h
    rcases apStaInfoAdd_cases s addr with ⟨i, -, he⟩ | ⟨-, -, he⟩ | ⟨i, -, -, he⟩ <;> rw [he]
    · exact h
    · exact hevict
    · exact hevict.other (.of_profiles rfl (takeSlot_profiles _ i addr))
  authenticate h _ r := h.other (.modSta (congrArg Profile.counted (authenticate_profile _ r)))
  tryAssoc h _ _ r := h.tryAssoc _ r
  apStaPsStart h _ _ := h.other (.of_setPs (apStaPsStart_table _ _))
  apStaPsEnd {s i} h _ := by
    have ht := apStaPsEnd_table s i
    split at ht
    · exact h.other (.of_setPs ht)
    · exact h.other (.of_table ht)
  recalcTimGenBeacon h i := h.other (.of_ctl (recalcTimGenBeacon_ctl _ i))
  staPsDeliverPollResponse h i := h.other (.of_ctl (staPsDeliverPollResponse_ctl _ i))
  staPsDeliverUapsd h i := h.other (.of_ctl (staPsDeliverUapsd_ctl _ i))
  dataCouldBeSend h now f bAPFrame pollFlag :=
    h.other (.of_ctl (dataCouldBeSend_ctl now _ f bAPFrame pollFlag))
  staInfoCleanup h now := h.other (.of_ctl (staInfoCleanup_ctl now _))

/-- Whatever happens to the stations is a sequence of associations, departures, and things that do
not count. -/
theorem apStep_protectRun (p : Protection cfg) (e : ApEvent cfg.ap) :
    ∃ is : List (ProtectIn cfg), (∀ inp ∈ is, inp.ofStations) ∧
      (Machine.run protectStep p is).1.ap = (apStep p.ap e).1 := by
  have hstart : Reaches p p.ap := ⟨[], by simp, rfl⟩
  exact (reaches_kept p).apStep hstart e (grantsOnly_true p.ap e)

end Fullmac.Ap
