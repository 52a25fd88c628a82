import Fullmac.Lib.Machine
import Mathlib.Data.List.Count
import Mathlib.Logic.Function.Basic

/-!
# The registry of drivers

Reference: `host/hif_wrapper/ssv_drv.c`, `ssv6xxx_drv_module_init`, `ssv6xxx_drv_register` and
`ssv6xxx_drv_select`; `host/include/hif_wrapper.h`.

Drivers are registered in a table and one of them is selected by the kind of system, of registration
and of hardware it is for. The loop that looks for an empty slot does not stop at the first one, so
the first driver fills the table; with `MAX_SSV6XXX_DRV` as it is, 1, this makes no difference
(`registered_iff`). The selection takes the first driver that agrees in one of the three fields,
where it should agree in all.
-/

namespace Fullmac.Drv

variable {α : Type*}

/-! ## The code -/

/-- `MAX_SSV6XXX_DRV`. -/
def maxSsv6xxxDrv : ℕ := 1

/-- The fields of `union unify_drv_info`. -/
structure UnifyDrvInfo where
  osType : UInt8
  registerType : UInt8
  hwType : UInt8
deriving DecidableEq, Repr

/-- `DRV_INFO_FLAG_OS_TYPE_LINUX`. -/
def osTypeLinux : UInt8 := 0

/-- `DRV_INFO_FLAG_OS_TYPE_RTOS`. -/
def osTypeRtos : UInt8 := 1

/-- `struct ssv_unify_drv`, with whether its `open` and `init` are there. -/
structure UnifyDrv where
  drvInfo : UnifyDrvInfo
  hasOpen : Bool
  hasInit : Bool
deriving DecidableEq, Repr

/-- `s_drv_cnt`, `s_drv_array` and `s_drv_cur`. A pointer to a driver is an `α`. -/
structure DrvState (α : Type*) where
  drvCnt : ℕ
  drvArray : ℕ → Option α
  drvCur : Option α

/-- What `ssv6xxx_drv_module_init` starts from. -/
def DrvState.empty : DrvState α := ⟨0, fun _ => none, none⟩

/-- The loop of `ssv6xxx_drv_register` at slot `i`. -/
def registerSlot (ssvDrv : α) (st : DrvState α × Bool) (i : ℕ) : DrvState α × Bool :=
  match st.1.drvArray i with
  | none =>
    ({ st.1 with
        drvArray := Function.update st.1.drvArray i (some ssvDrv), drvCnt := st.1.drvCnt + 1 },
      true)
  | some _ => st

/-- `ssv6xxx_drv_register`, with a table of `max` slots. -/
def drvRegister (max : ℕ) (s : DrvState α) (ssvDrv : α) : DrvState α × List Bool :=
  if s.drvCnt = max then (s, [false])
  else
    let st := (List.range max).foldl (registerSlot ssvDrv) (s, false)
    (st.1, [st.2])

/-- The test of `ssv6xxx_drv_select`. -/
def UnifyDrvInfo.SharesField (a b : UnifyDrvInfo) : Prop :=
  a.osType = b.osType ∨ a.registerType = b.registerType ∨ a.hwType = b.hwType

instance (a b : UnifyDrvInfo) : Decidable (a.SharesField b) :=
  inferInstanceAs (Decidable (_ ∨ _ ∨ _))

/-- `drv_target`: the first of the `s_drv_cnt` drivers that passes the test. -/
def drvTarget (drv : α → UnifyDrv) (s : DrvState α) (drvInfo : UnifyDrvInfo) : Option α :=
  (List.range s.drvCnt).findSome? fun i =>
    (s.drvArray i).filter fun d => drvInfo.SharesField (drv d).drvInfo

/-- A call of `ssv6xxx_drv_select`, with what `open` and `init` return if they are called. -/
structure SelectCall where
  drvInfo : UnifyDrvInfo
  openRet : Bool
  initRet : Bool
deriving DecidableEq, Repr

/-- One of the two operations is called and fails. -/
def UnifyDrv.fails (d : UnifyDrv) (present ret : Bool) : Bool :=
  if d.drvInfo.osType = osTypeLinux then false
  else if d.drvInfo.osType = osTypeRtos ∧ present then !ret
  else false

/-- `ssv6xxx_drv_select`. -/
def drvSelect [DecidableEq α] (drv : α → UnifyDrv) (s : DrvState α) (call : SelectCall) :
    DrvState α × List Bool :=
  if s.drvCnt = 0 then (s, [false])
  else
    match drvTarget drv s call.drvInfo with
    | none => (s, [false])
    | some d =>
      if s.drvCur = some d then (s, [true])
      else if (drv d).fails (drv d).hasOpen call.openRet then (s, [false])
      else if (drv d).fails (drv d).hasInit call.initRet then (s, [false])
      else ({ s with drvCur := some d }, [true])

/-! ## A table with one driver -/

/-- The drivers `drvs` are registered one after the other. -/
def registerAll (max : ℕ) (drvs : List α) : DrvState α × List Bool :=
  Machine.run (drvRegister max) .empty drvs

/-- The number of slots of a kind. -/
def slots (max : ℕ) (s : DrvState α) (p : Option α → Bool) : ℕ :=
  (List.range max).countP fun i => p (s.drvArray i)

/-- A table whose slots all hold `d`. -/
def DrvState.full (max : ℕ) (d : α) (cur : Option α) : DrvState α :=
  ⟨max, fun i => if i < max then some d else none, cur⟩

/-- In an empty table the loop fills every slot it comes to. -/
theorem foldl_registerSlot (d : α) (n : ℕ) :
    (List.range n).foldl (registerSlot d) (.empty, false) = (.full n d none, decide (0 < n)) := by
  induction n with
  | zero => simp [DrvState.full, DrvState.empty]
  | succ n ih =>
    have hfree : (DrvState.full n d none).drvArray n = none := by simp [DrvState.full]
    rw [List.range_succ, List.foldl_append, ih, List.foldl_cons, List.foldl_nil, registerSlot,
      hfree]
    simp only [DrvState.full, Prod.mk.injEq, DrvState.mk.injEq, true_and, and_true]
    refine ⟨?_, by simp⟩
    funext i
    by_cases h : i = n
    · rw [h, Function.update_self, if_pos (Nat.lt_succ_self n)]
    · rw [Function.update_of_ne h]
      exact if_congr (by omega) rfl rfl

theorem drvRegister_empty {max : ℕ} (hmax : 0 < max) (d : α) :
    drvRegister max .empty d = (.full max d none, [true]) := by
  have hne : (DrvState.empty : DrvState α).drvCnt ≠ max := Nat.ne_of_lt hmax
  rw [drvRegister, if_neg hne, foldl_registerSlot]
  simp [hmax]

/-- A full table stays as it is. -/
theorem run_drvRegister_full {max : ℕ} (d : α) (drvs : List α) :
    Machine.run (drvRegister max) (.full max d none) drvs
      = (.full max d none, List.replicate drvs.length false) := by
  induction drvs with
  | nil => rfl
  | cons d' drvs ih =>
    have hstep : drvRegister max (.full max d none) d' = (.full max d none, [false]) := by
      rw [drvRegister]
      exact if_pos rfl
    rw [Machine.run_cons, hstep, ih]
    rfl

theorem registerAll_nil (max : ℕ) : registerAll max ([] : List α) = (.empty, []) := rfl

/-- The first driver has the whole table, and the others are refused. -/
theorem registerAll_cons {max : ℕ} (hmax : 0 < max) (d : α) (drvs : List α) :
    registerAll max (d :: drvs)
      = (.full max d none, true :: List.replicate drvs.length false) := by
  rw [registerAll, Machine.run_cons, drvRegister_empty hmax, run_drvRegister_full]
  rfl

theorem slots_full (max : ℕ) (d : α) (cur : Option α) {p : Option α → Bool}
    (hp : p (some d) = true) : slots max (.full max d cur) p = max := by
  have hall : (List.range max).countP (fun i => p ((DrvState.full max d cur).drvArray i))
      = (List.range max).length := by
    rw [List.countP_eq_length]
    intro i hi
    rw [show (DrvState.full max d cur).drvArray i = some d from if_pos (List.mem_range.mp hi), hp]
  rw [slots, hall, List.length_range]

/-- The driver in the slots is the one that is looked at. -/
theorem drvTarget_full {max : ℕ} (hmax : 0 < max) (drv : α → UnifyDrv) (d : α) (cur : Option α)
    (drvInfo : UnifyDrvInfo) :
    drvTarget drv (.full max d cur) drvInfo
      = if drvInfo.SharesField (drv d).drvInfo then some d else none := by
  obtain ⟨max, rfl⟩ : ∃ n, max = n + 1 := ⟨max - 1, by omega⟩
  rw [drvTarget]
  split
  · rename_i hshares
    exact List.findSome?_eq_some_iff.mpr
      ⟨[], 0, (List.range (max + 1)).tail, by simp [DrvState.full, List.range_succ_eq_map],
        by simp [DrvState.full, hshares], by simp⟩
  · rename_i hshares
    rw [List.findSome?_eq_none_iff]
    intro i hi
    simp [DrvState.full, hshares]

/-! ## Registration and selection -/

variable [DecidableEq α]

/-- Each call succeeds, each driver is in one slot, and the slots in use are counted. -/
structure Registered (max : ℕ) (drvs : List α) : Prop where
  succeed : ∀ ret ∈ (registerAll max drvs).2, ret = true
  oneSlot : ∀ d ∈ drvs, slots max (registerAll max drvs).1 (· = some d) = 1
  cnt : (registerAll max drvs).1.drvCnt = slots max (registerAll max drvs).1 Option.isSome

/-- A call that finds `open` and `init` succeeding returns TRUE exactly when a driver of all three
kinds is registered, and makes such a driver current. -/
def SelectRight (drv : α → UnifyDrv) (drvs : List α) (s : DrvState α) (drvInfo : UnifyDrvInfo) :
    Prop :=
  ((drvSelect drv s ⟨drvInfo, true, true⟩).2 = [true] ↔ ∃ d ∈ drvs, (drv d).drvInfo = drvInfo) ∧
  ((drvSelect drv s ⟨drvInfo, true, true⟩).2 = [true] →
    ∃ d ∈ drvs, (drv d).drvInfo = drvInfo ∧
      (drvSelect drv s ⟨drvInfo, true, true⟩).1.drvCur = some d)

/-- Registration is right for no driver, and with a table of one slot. -/
theorem registered_iff {max : ℕ} {drvs : List α} (hlen : drvs.length ≤ max) :
    Registered max drvs ↔ drvs = [] ∨ max = 1 := by
  cases drvs with
  | nil =>
    refine ⟨fun _ => .inl rfl, fun _ => ⟨?_, ?_, ?_⟩⟩
    · intro ret hret
      cases hret
    · intro d hd
      cases hd
    · rw [registerAll_nil, slots]
      exact (List.countP_eq_zero.mpr fun i _ => by simp [DrvState.empty]).symm
  | cons d drvs =>
    have hmax : 0 < max := Nat.lt_of_lt_of_le (Nat.succ_pos _) hlen
    have hrun := registerAll_cons hmax d drvs
    constructor
    · intro h
      have hslot := h.oneSlot d List.mem_cons_self
      rw [hrun, slots_full max d none (by simp)] at hslot
      exact .inr hslot
    · rintro (h | rfl)
      · cases h
      · obtain rfl : drvs = [] := List.length_eq_zero_iff.mp (Nat.le_zero.mp
          (Nat.le_of_succ_le_succ hlen))
        refine ⟨?_, ?_, ?_⟩
        · rw [hrun]
          simp
        · intro d' hd'
          rw [List.mem_singleton.mp hd', hrun]
          exact slots_full 1 d none (by simp)
        · rw [hrun, slots_full 1 d none rfl]
          rfl

/-- A selection leaves the table alone, and only its driver is ever current. -/
theorem drvSelect_full {max : ℕ} (hmax : 0 < max) (drv : α → UnifyDrv) {d : α} {cur : Option α}
    (hcur : cur = none ∨ cur = some d) (call : SelectCall) :
    ∃ cur', (cur' = none ∨ cur' = some d) ∧
      (drvSelect drv (.full max d cur) call).1 = .full max d cur' := by
  rw [drvSelect, if_neg (Nat.pos_iff_ne_zero.mp hmax : (DrvState.full max d cur).drvCnt ≠ 0),
    drvTarget_full hmax]
  by_cases hshares : call.drvInfo.SharesField (drv d).drvInfo
  · simp only [if_pos hshares]
    split
    · exact ⟨cur, hcur, rfl⟩
    · split
      · exact ⟨cur, hcur, rfl⟩
      · split
        · exact ⟨cur, hcur, rfl⟩
        · exact ⟨some d, .inr rfl, rfl⟩
  · simp only [if_neg hshares]
    exact ⟨cur, hcur, rfl⟩

theorem run_drvSelect_full {max : ℕ} (hmax : 0 < max) (drv : α → UnifyDrv) (d : α)
    (calls : List SelectCall) :
    ∃ cur, (cur = none ∨ cur = some d) ∧
      (Machine.run (drvSelect drv) (.full max d none) calls).1 = .full max d cur := by
  refine Machine.run_induction
    (P := fun s _ _ => ∃ cur, (cur = none ∨ cur = some d) ∧ s = DrvState.full max d cur)
    ⟨none, .inl rfl, rfl⟩ ?_ calls
  rintro s - - call ⟨cur, hcur, rfl⟩
  exact drvSelect_full hmax drv hcur call

/-- If `open` and `init` succeed, the driver of the table is made current exactly when it agrees in
one field. -/
theorem drvSelect_full_true {max : ℕ} (hmax : 0 < max) (drv : α → UnifyDrv) (d : α)
    (cur : Option α) (drvInfo : UnifyDrvInfo) :
    drvSelect drv (.full max d cur) ⟨drvInfo, true, true⟩
      = if drvInfo.SharesField (drv d).drvInfo then (.full max d (some d), [true])
        else (.full max d cur, [false]) := by
  have hfails : ∀ present, (drv d).fails present true = false := by
    intro present
    simp [UnifyDrv.fails]
  rw [drvSelect, if_neg (Nat.pos_iff_ne_zero.mp hmax : (DrvState.full max d cur).drvCnt ≠ 0),
    drvTarget_full hmax]
  by_cases hshares : drvInfo.SharesField (drv d).drvInfo
  · by_cases hcur : cur = some d
    · simp [hshares, hcur, DrvState.full]
    · simp [hshares, hcur, hfails, DrvState.full]
  · simp [hshares]

/-- Of a table with one driver, a selection is right exactly when that driver does not agree in some
fields only. -/
theorem selectRight_full_iff {max : ℕ} (hmax : 0 < max) (drv : α → UnifyDrv) (d : α)
    (cur : Option α) (drvInfo : UnifyDrvInfo) :
    SelectRight drv [d] (.full max d cur) drvInfo
      ↔ (drvInfo.SharesField (drv d).drvInfo → (drv d).drvInfo = drvInfo) := by
  have hself : (drv d).drvInfo = drvInfo → drvInfo.SharesField (drv d).drvInfo :=
    fun h => .inl (by rw [h])
  rw [SelectRight, drvSelect_full_true hmax]
  by_cases hshares : drvInfo.SharesField (drv d).drvInfo
  · simp [hshares, DrvState.full]
  · simp [hshares, mt hself hshares]

/-- With the table as it is, drivers registered and any selections made, a selection that finds
`open` and `init` succeeding is right, and registration has been, exactly when no registered driver
agrees with what is asked for in one or two of the three fields only. -/
theorem drvSelect_right_iff (drv : α → UnifyDrv) (drvs : List α) (calls : List SelectCall)
    (drvInfo : UnifyDrvInfo) (hlen : drvs.length ≤ maxSsv6xxxDrv) :
    (Registered maxSsv6xxxDrv drvs ∧
      SelectRight drv drvs
        (Machine.run (drvSelect drv) (registerAll maxSsv6xxxDrv drvs).1 calls).1 drvInfo)
      ↔ ∀ d ∈ drvs, drvInfo.SharesField (drv d).drvInfo → (drv d).drvInfo = drvInfo := by
  rw [and_iff_right ((registered_iff hlen).mpr (.inr rfl))]
  cases drvs with
  | nil =>
    have hrun : (Machine.run (drvSelect drv) (.empty : DrvState α) calls).1 = .empty := by
      refine Machine.run_induction (P := fun s _ _ => s = DrvState.empty) rfl ?_ calls
      rintro s - - call rfl
      rw [drvSelect]
      exact congrArg Prod.fst (if_pos rfl)
    rw [registerAll_nil, hrun]
    simp [SelectRight, drvSelect, DrvState.empty]
  | cons d drvs =>
    have hnil : drvs = [] :=
      List.length_eq_zero_iff.mp (Nat.le_zero.mp (Nat.le_of_succ_le_succ hlen))
    have hmax : 0 < maxSsv6xxxDrv := Nat.one_pos
    rw [hnil, registerAll_cons hmax]
    obtain ⟨cur, -, hrun⟩ := run_drvSelect_full hmax drv d calls
    rw [hrun, selectRight_full_iff hmax]
    simp

/-- `usb_ops`: Linux, passive registration, USB. -/
def usbOps : UnifyDrv := ⟨⟨osTypeLinux, 0, 0⟩, false, false⟩

/-- Asked for by what it is, it is found. -/
theorem drvSelect_right_usb :
    Registered maxSsv6xxxDrv [usbOps] ∧
      SelectRight id [usbOps]
        (Machine.run (drvSelect id) (registerAll maxSsv6xxxDrv [usbOps]).1 []).1 ⟨0, 0, 0⟩ :=
  (drvSelect_right_iff id [usbOps] [] ⟨0, 0, 0⟩ (Nat.le_refl 1)).mpr (by decide)

/-- A driver for SPI is asked for, and the one for USB is selected. -/
theorem not_selectRight_usb_for_spi :
    ¬ (Registered maxSsv6xxxDrv [usbOps] ∧
      SelectRight id [usbOps]
        (Machine.run (drvSelect id) (registerAll maxSsv6xxxDrv [usbOps]).1 []).1 ⟨0, 0, 2⟩) := by
  rintro ⟨-, hiff, -⟩
  have hret : (drvSelect id (registerAll maxSsv6xxxDrv [usbOps]).1 ⟨⟨0, 0, 2⟩, true, true⟩).2
      = [true] := by
    decide
  obtain ⟨d, hd, hinfo⟩ := hiff.mp hret
  rw [List.mem_singleton.mp hd] at hinfo
  exact absurd hinfo (by decide)

end Fullmac.Drv
