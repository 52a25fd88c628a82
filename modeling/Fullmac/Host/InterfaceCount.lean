import Fullmac.Host.Interfaces
import Mathlib.Algebra.Order.BigOperators.Group.Finset

/-!
# The count of the interfaces

Reference: `host/core/host_apis.c`, `sta_mode_on` to `_ssv6xxx_wifi_station`, `ap_mode_on` to
`_ssv6xxx_wifi_ap`.

`used_vif` is the number of interfaces that are on, and the API is off exactly when none is. A
request to turn an interface on may break this when no other one is on: if its attempts end with the
start of the firmware failing, the interface has its mode and the API is active, but nothing is
counted; and a device on which nothing was turned on yet has an active API.
-/

namespace Fullmac.Host

open Rx (HwMode maxVifNum)

/-! ## Counting -/

/-- How many interfaces are on. -/
def numOn (hwMode : Fin maxVifNum → HwMode) : ℕ := ∑ v, if hwMode v = .invalid then 0 else 1

section Counting

variable {hwMode : Fin maxVifNum → HwMode} {v : Fin maxVifNum} {m : HwMode}

theorem numOn_update (hwMode : Fin maxVifNum → HwMode) (v : Fin maxVifNum) (m : HwMode) :
    numOn (Function.update hwMode v m) + (if hwMode v = .invalid then 0 else 1)
      = numOn hwMode + if m = .invalid then 0 else 1 := by
  have herase :
      ∑ w ∈ Finset.univ.erase v, (if Function.update hwMode v m w = .invalid then 0 else 1)
      = ∑ w ∈ Finset.univ.erase v, if hwMode w = .invalid then 0 else 1 := by
    refine Finset.sum_congr rfl fun w hw => ?_
    rw [Function.update_of_ne (Finset.ne_of_mem_erase hw)]
  unfold numOn
  rw [← Finset.add_sum_erase _ _ (Finset.mem_univ v), herase, Function.update_self,
    ← Finset.add_sum_erase Finset.univ (fun w => if hwMode w = .invalid then 0 else 1)
      (Finset.mem_univ v)]
  omega

theorem numOn_le : numOn hwMode ≤ maxVifNum := by
  have hle : ∀ v ∈ Finset.univ, (if hwMode v = .invalid then 0 else 1) ≤ 1 := by
    intro v _
    split <;> omega
  exact (Finset.sum_le_sum hle).trans (by simp)

theorem numOn_eq_zero : numOn hwMode = 0 ↔ ∀ v, hwMode v = .invalid := by
  simp [numOn, Finset.sum_eq_zero_iff]

end Counting

/-! ## The invariant -/

/-- The count is that of the interfaces that are on, and the API is off exactly when none is. -/
def DevState.Consistent (s : DevState) : Prop :=
  s.usedVif = numOn s.hwMode ∧ (s.active = .deactive ↔ s.usedVif = 0)

/-- What the requests keep: all of that except that the API may be active with nothing on. -/
structure DevInv (s : DevState) : Prop where
  count : s.usedVif = numOn s.hwMode
  off : s.active = .deactive → s.usedVif = 0
  awake : s.active ≠ .pwrSaving
  info : ∀ v, s.hwMode v ≠ .invalid → s.mInfo v = true

/-- No interface but `v` is on. -/
def Alone (v : Fin maxVifNum) (s : DevState) : Prop := ∀ w, w ≠ v → s.hwMode w = .invalid

section Invariant

variable {s : DevState} {v : Fin maxVifNum} {hwMode : HwMode}

theorem devInv_devInit : DevInv devInit where
  count := by decide
  off h := by simp [devInit] at h
  awake := by decide
  info v h := absurd rfl h

theorem alone_of_invalid (hv : s.hwMode v = .invalid) : Alone v s ↔ numOn s.hwMode = 0 := by
  rw [numOn_eq_zero]
  constructor
  · intro h w
    rcases eq_or_ne w v with rfl | hne
    · exact hv
    · exact h w hne
  · exact fun h w _ => h w

/-- An interface that is on is counted, and the API is active. -/
theorem DevInv.active_of_on (h : DevInv s) (hv : s.hwMode v ≠ .invalid) :
    s.active = .active ∧ 0 < s.usedVif := by
  have hpos : 0 < s.usedVif := by
    rw [h.count, Nat.pos_iff_ne_zero, Ne, numOn_eq_zero]
    exact fun hall => hv (hall v)
  refine ⟨?_, hpos⟩
  cases ha : s.active with
  | active => rfl
  | deactive => exact absurd (h.off ha) hpos.ne'
  | pwrSaving => exact absurd ha h.awake

/-- Turning off an interface that is on: all is consistent after it, and nothing is on if nothing
else was. -/
theorem DevInv.release (h : DevInv s) (hv : s.hwMode v ≠ .invalid) {s' : DevState}
    (hmode : s'.hwMode = Function.update s.hwMode v .invalid)
    (hactive : s'.active = (releaseVif s).active) (hused : s'.usedVif = (releaseVif s).usedVif)
    (hinfo : ∀ w, w ≠ v → s.mInfo w = true → s'.mInfo w = true) :
    DevInv s' ∧ s'.Consistent ∧ (numOn s'.hwMode = 0 ↔ Alone v s) := by
  obtain ⟨ha, hpos⟩ := h.active_of_on hv
  have hcount : s'.usedVif = numOn s'.hwMode := by
    have hupd := numOn_update s.hwMode v .invalid
    rw [if_neg hv, if_pos rfl] at hupd
    rw [hused, hmode, releaseVif, h.count]
    simp only
    omega
  have hoff : s'.active = .deactive ↔ s'.usedVif = 0 := by
    rw [hactive, hused, releaseVif]
    by_cases h1 : s.usedVif = 1
    · simp [h1]
    · simp only [h1, if_false, ha, reduceCtorEq, false_iff]
      omega
  have halone : numOn s'.hwMode = 0 ↔ Alone v s := by
    rw [← alone_of_invalid (by rw [hmode, Function.update_self]), Alone, Alone, hmode]
    refine forall_congr' fun w => forall_congr' fun hw => ?_
    rw [Function.update_of_ne hw]
  refine ⟨⟨hcount, hoff.mp, ?_, ?_⟩, ⟨hcount, hoff⟩, halone⟩
  · rw [hactive, releaseVif]
    simp only [ha]
    split <;> simp
  · intro w hw
    rw [hmode] at hw
    rcases eq_or_ne w v with rfl | hne
    · simp at hw
    · rw [Function.update_of_ne hne] at hw
      exact hinfo w hne (h.info w hw)

/-- Attempts to turn on an interface that is off. -/
theorem DevInv.turnsOn {ready ok : ℕ → Prop} {r : ℤ × DevState} (h : DevInv s)
    (hv : s.hwMode v = .invalid) (hm : hwMode ≠ .invalid)
    (ht : TurnsOn iniCnt ready ok hwMode v (fun n => (n + 1) % 2 ^ 8) s r)
    (hok : s.usedVif ≠ 0 → ∀ k, ok k) :
    (r.2.Consistent ↔ (s.usedVif = 0 → (∃ k ≤ iniCnt, ready k ∧ ok k) ∨
        ((∀ k ≤ iniCnt, ¬ ready k) ∧ s.active = .deactive))) ∧
      (r.2.Consistent → DevInv r.2) := by
  have hbound : s.usedVif < 2 ^ 8 - 1 :=
    (h.count ▸ numOn_le).trans_lt (by decide)
  have hupd := numOn_update s.hwMode v hwMode
  rw [if_pos hv, if_neg hm] at hupd
  have hcount := h.count
  -- what holds of the state after the attempts whatever its count is
  have hrest : ∀ {m}, r.2.hwMode = Function.update s.hwMode v m → r.2.active ≠ .pwrSaving →
      (m ≠ .invalid → r.2.mInfo v = true) → r.2.Consistent → DevInv r.2 := by
    intro m hmode hawake hinfo hcons
    refine ⟨hcons.1, hcons.2.mp, hawake, fun w hw => ?_⟩
    rw [hmode] at hw
    rcases eq_or_ne w v with rfl | hne
    · exact hinfo (by simpa using hw)
    · rw [Function.update_of_ne hne] at hw
      exact ht.mInfo w (h.info w hw)
  by_cases hany : ∃ k ≤ iniCnt, ready k
  · obtain ⟨hmode, hactive, hinfo⟩ := ht.armed hany
    refine ⟨?_, hrest hmode (by simp [hactive]) fun _ => hinfo⟩
    by_cases hsucc : ∃ k ≤ iniCnt, ready k ∧ ok k
    · -- a success is counted
      have hused := ht.usedVif
      rw [if_pos (ht.success.mpr hsucc), Nat.mod_eq_of_lt (by omega)] at hused
      refine iff_of_true ⟨?_, ?_⟩ fun _ => .inl hsucc
      · rw [hused, hmode]
        omega
      · rw [hactive, hused]
        simp
    · -- a mode without a count: nothing else was on, or the firmware need not have been started
      have hzero : s.usedVif = 0 := by
        by_contra hne
        obtain ⟨k, hk, hr⟩ := hany
        exact hsucc ⟨k, hk, hr, hok hne k⟩
      have hused := ht.usedVif_of_ne fun hs => hsucc (ht.success.mp hs)
      refine iff_of_false (fun hcons => ?_) fun hC => ?_
      · have hbad := hcons.1
        rw [hused, hmode] at hbad
        omega
      · rcases hC hzero with hs | ⟨hnone, -⟩
        · exact hsucc hs
        · obtain ⟨k, hk, hr⟩ := hany
          exact hnone k hk hr
  · -- nothing changed
    have hnone : ∀ k ≤ iniCnt, ¬ ready k := fun k hk hr => hany ⟨k, hk, hr⟩
    have hsucc : ¬ ∃ k ≤ iniCnt, ready k ∧ ok k := fun ⟨k, hk, hr, _⟩ => hnone k hk hr
    obtain ⟨hmode, hactive⟩ := ht.same hnone
    have hused := ht.usedVif_of_ne fun hs => hsucc (ht.success.mp hs)
    have hmode' : r.2.hwMode = Function.update s.hwMode v .invalid := by
      rw [hmode, ← hv, Function.update_eq_self]
    refine ⟨?_, hrest hmode' (by rw [hactive]; exact h.awake) fun hne => absurd rfl hne⟩
    rw [DevState.Consistent, hused, hmode, hactive]
    simp only [hcount, true_and, hsucc, false_or]
    rw [← hcount]
    exact ⟨fun hiff h0 => ⟨hnone, hiff.mpr h0⟩, fun hC => ⟨h.off, fun h0 => (hC h0).2⟩⟩

end Invariant

/-! ## Requests -/

/-- The documented rule: an interface is turned on when it is off or in that mode already, and off
when it is on in that mode. -/
def Obeys (s : DevState) (r : ModeEnv × ModeRequest) : Prop :=
  match r.2 with
  | .station hwMode v status =>
    (hwMode = .sta ∨ hwMode = .sconfig) ∧
      (s.hwMode v = hwMode ∨ status = true ∧ s.hwMode v = .invalid)
  | .ap v status => s.hwMode v = .ap ∨ status = true ∧ s.hwMode v = .invalid

/-- Attempt `k` gets a chip that is off as far as the start of the firmware; `info` says that the
interface has its information to begin with. -/
def Reaches (info : Prop) (as : ℕ → Attempt) (k : ℕ) : Prop :=
  (info ∨ ∃ j ≤ k, (as j).staInfo = true) ∧ (as k).chipInit = true ∧ (as k).chipId = true

/-- The attempts to turn on the only interface: one of them succeeds, or none gets as far as the
start of the firmware and the API was off or is turned off first. -/
def StartsAlone (info : Prop) (as : ℕ → Attempt) (v : Fin maxVifNum) (s : DevState) : Prop :=
  (∃ k ≤ iniCnt, Reaches info as k ∧ (as k).start = true) ∨
    ((∀ k ≤ iniCnt, ¬ Reaches info as k) ∧ (s.active = .deactive ∨ s.hwMode v ≠ .invalid))

/-- What keeps the count. An interface in smart configuration cannot be turned off, and must not be
turned on again, in a build without it. In a build without access points a request for one does
nothing, to a device on which nothing was turned on yet as well. -/
def KeepsCount (cfg : BuildCfg) (s : DevState) (r : ModeEnv × ModeRequest) : Prop :=
  match r.2 with
  | .station hwMode v true =>
    if hwMode = .sconfig ∧ s.hwMode v = .sconfig ∧ cfg.smartConfig = false then
      ∀ k ≤ iniCnt, (r.1.attempts k).chipId = false
    else Alone v s →
      StartsAlone (s.mInfo v = true ∧ s.hwMode v ≠ .sta) r.1.attempts v s
  | .ap v true =>
    if cfg.apMode then Alone v s → StartsAlone True r.1.attempts v s
    else s.active = .deactive ∨ ∃ w, s.hwMode w ≠ .invalid
  | _ => True

section Requests

variable {cfg : BuildCfg} {s : DevState} {env : ModeEnv} {v : Fin maxVifNum}

theorem withWakeup_eq (h : s.active ≠ .pwrSaving) (request : DevState → ℤ × DevState) :
    withWakeup env request s = request s := by
  simp [withWakeup, h]

/-- A state in which something is on is consistent. -/
theorem DevInv.consistent_of_on (h : DevInv s) (hv : s.hwMode v ≠ .invalid) : s.Consistent := by
  obtain ⟨ha, hpos⟩ := h.active_of_on hv
  exact ⟨h.count, by simp [ha, hpos.ne']⟩

theorem DevInv.staModeOff (h : DevInv s) (hv : s.hwMode v ≠ .invalid) :
    DevInv (staModeOff v s) ∧ (staModeOff v s).Consistent ∧
      (numOn (staModeOff v s).hwMode = 0 ↔ Alone v s) :=
  h.release hv rfl rfl rfl fun w hne hw => by simpa [Host.staModeOff, hne] using hw

theorem DevInv.sconfigModeOff (hcfg : cfg.smartConfig = true) (h : DevInv s)
    (hv : s.hwMode v ≠ .invalid) :
    DevInv (sconfigModeOff cfg v s) ∧ (sconfigModeOff cfg v s).Consistent ∧
      (numOn (sconfigModeOff cfg v s).hwMode = 0 ↔ Alone v s) := by
  rw [Host.sconfigModeOff, if_pos hcfg]
  exact h.release hv rfl rfl rfl fun w _ hw => hw

theorem DevInv.apModeOff (hcfg : cfg.apMode = true) (h : DevInv s) (hv : s.hwMode v ≠ .invalid) :
    DevInv (apModeOff cfg v s) ∧ (apModeOff cfg v s).Consistent ∧
      (numOn (apModeOff cfg v s).hwMode = 0 ↔ Alone v s) := by
  rw [Host.apModeOff, if_pos hcfg]
  exact h.release hv rfl rfl rfl fun w hne hw => by simpa [hne] using hw

/-- Attempts from the state `s₁` that a request reaches from `s` by turning the interface off. -/
theorem DevInv.turnsOn_iff {s₁ : DevState} {hwMode : HwMode} {ready : ℕ → Prop} {info : Prop}
    {as : ℕ → Attempt} {r : ℤ × DevState} (h : DevInv s₁) (hv : s₁.hwMode v = .invalid)
    (hm : hwMode ≠ .invalid)
    (ht : TurnsOn iniCnt ready (starts as s₁) hwMode v (fun n => (n + 1) % 2 ^ 8) s₁ r)
    (halone : numOn s₁.hwMode = 0 ↔ Alone v s)
    (hready : s₁.usedVif = 0 → ∀ k, ready k ↔ Reaches info as k)
    (hoff : s₁.usedVif = 0 →
      (s₁.active = .deactive ↔ s.active = .deactive ∨ s.hwMode v ≠ .invalid)) :
    (r.2.Consistent ↔ (Alone v s → StartsAlone info as v s)) ∧ (r.2.Consistent → DevInv r.2) := by
  obtain ⟨hiff, hinv⟩ := h.turnsOn hv hm ht fun hne _ h0 => absurd h0 hne
  refine ⟨hiff.trans ?_, hinv⟩
  rw [← halone, ← h.count]
  refine imp_congr_right fun h0 => ?_
  simp only [StartsAlone, starts, h0, true_imp_iff, hready h0, hoff h0]

theorem staReady_iff {as : ℕ → Attempt} (h0 : s.usedVif = 0) (k : ℕ) :
    staReady v as s k ↔ Reaches (s.mInfo v = true) as k := by
  simp [staReady, Reaches, h0]

theorem apReady_iff {as : ℕ → Attempt} (h0 : s.usedVif = 0) (k : ℕ) :
    apReady as s k ↔ Reaches True as k := by
  simp [apReady, Reaches, h0]

/-- Attempts to turn on an interface that is on and was not turned off: success counts it twice. -/
theorem DevInv.turnsOn_again {hwMode : HwMode} {as : ℕ → Attempt} {r : ℤ × DevState} (h : DevInv s)
    (hv : s.hwMode v = hwMode) (hm : hwMode ≠ .invalid)
    (ht : TurnsOn iniCnt (staReady v as s) (starts as s) hwMode v (fun n => (n + 1) % 2 ^ 8) s r) :
    (r.2.Consistent ↔ ∀ k ≤ iniCnt, (as k).chipId = false) ∧ (r.2.Consistent → DevInv r.2) := by
  have hon : s.hwMode v ≠ .invalid := hv ▸ hm
  obtain ⟨hact, hpos⟩ := h.active_of_on hon
  have hready : ∀ k, staReady v as s k ↔ (as k).chipId = true := by
    intro k
    simp [staReady, h.info v hon, hpos.ne']
  by_cases hany : ∃ k ≤ iniCnt, (as k).chipId = true
  · obtain ⟨k, hk, hid⟩ := hany
    have hr := (hready k).mpr hid
    have hused := ht.usedVif
    have hbound : s.usedVif ≤ maxVifNum := h.count ▸ numOn_le
    rw [if_pos (ht.success.mpr ⟨k, hk, hr, fun h0 => absurd h0 hpos.ne'⟩),
      Nat.mod_eq_of_lt (by simp only [maxVifNum] at hbound; omega)] at hused
    have hmode : r.2.hwMode = s.hwMode := by
      rw [(ht.armed ⟨k, hk, hr⟩).1, ← hv, Function.update_eq_self]
    have hbad : ¬ r.2.Consistent := by
      rintro ⟨hcount, -⟩
      rw [hused, hmode, ← h.count] at hcount
      omega
    exact ⟨iff_of_false hbad fun hall => by simp [hall k hk] at hid, fun hc => absurd hc hbad⟩
  · have hall : ∀ k ≤ iniCnt, (as k).chipId = false := by simpa using hany
    have hnone : ∀ k ≤ iniCnt, ¬ staReady v as s k := fun k hk hr => hany ⟨k, hk, (hready k).mp hr⟩
    obtain ⟨hmode, hactive⟩ := ht.same hnone
    have hfail : r.1 ≠ ssvSuccess := by
      intro hs
      obtain ⟨k, hk, hr, -⟩ := ht.success.mp hs
      exact hnone k hk hr
    have hused := ht.usedVif_of_ne hfail
    have hcons : r.2.Consistent := by
      rw [DevState.Consistent, hused, hmode, hactive]
      exact h.consistent_of_on hon
    refine ⟨iff_of_true hcons hall, fun _ => ⟨hcons.1, hcons.2.mp, hactive ▸ h.awake, ?_⟩⟩
    exact fun w hw => ht.mInfo w (h.info w (hmode ▸ hw))

/-- What turning a station on does first, and what it leaves. -/
theorem wifiStation_on {hwMode : HwMode} (h : DevInv s) (hm : hwMode = .sta ∨ hwMode = .sconfig)
    (hv : s.hwMode v = hwMode ∨ s.hwMode v = .invalid) :
    ((wifiStation cfg env hwMode v true s).2.Consistent
        ↔ KeepsCount cfg s (env, .station hwMode v true)) ∧
      ((wifiStation cfg env hwMode v true s).2.Consistent →
        DevInv (wifiStation cfg env hwMode v true s).2) := by
  have hmi : hwMode ≠ .invalid := by rcases hm with rfl | rfl <;> decide
  have hcall : wifiStation cfg env hwMode v true s
      = retryIni (staModeOn hwMode v) iniCnt env.attempts (reOffStation cfg v s) := by
    have hnot : ¬ (hwMode ≠ .sta ∧ hwMode ≠ .sconfig) := by tauto
    rw [wifiStation, if_neg hnot, withWakeup_eq h.awake, if_pos rfl]
  have ht := retryIni_staModeOn hwMode v iniCnt env.attempts (reOffStation cfg v s)
  rw [← hcall] at ht
  generalize wifiStation cfg env hwMode v true s = r at ht
  by_cases hvi : s.hwMode v = .invalid
  · -- the interface is off
    have hre : reOffStation cfg v s = s := by simp [reOffStation, hvi]
    rw [hre] at ht
    have hkeep : KeepsCount cfg s (env, .station hwMode v true)
        ↔ (Alone v s → StartsAlone (s.mInfo v = true ∧ s.hwMode v ≠ .sta) env.attempts v s) := by
      simp [KeepsCount, hvi]
    rw [hkeep]
    refine h.turnsOn_iff hvi hmi ht (alone_of_invalid hvi).symm (fun h0 k => ?_) fun _ => ?_
    · rw [staReady_iff h0]
      simp [hvi]
    · simp [hvi]
  have hvm : s.hwMode v = hwMode := hv.resolve_right hvi
  obtain ⟨hact, -⟩ := h.active_of_on hvi
  rcases hm with rfl | rfl
  · -- a station that is on is turned off first
    have hre : reOffStation cfg v s = staModeOff v s := by simp [reOffStation, hact, hvm]
    rw [hre] at ht
    obtain ⟨hinv, hcons, halone⟩ := h.staModeOff hvi
    have hkeep : KeepsCount cfg s (env, .station .sta v true)
        ↔ (Alone v s → StartsAlone (s.mInfo v = true ∧ s.hwMode v ≠ .sta) env.attempts v s) := by
      simp [KeepsCount]
    rw [hkeep]
    refine hinv.turnsOn_iff (by simp [staModeOff]) hmi ht halone (fun h0 k => ?_) fun h0 => ?_
    · rw [staReady_iff h0]
      simp [hvm, staModeOff]
    · simp [hcons.2.mpr h0, hvi]
  · cases hcfg : cfg.smartConfig with
    | true =>
      have hre : reOffStation cfg v s = sconfigModeOff cfg v s := by
        simp [reOffStation, hact, hvm]
      rw [hre] at ht
      obtain ⟨hinv, hcons, halone⟩ := h.sconfigModeOff hcfg hvi
      have hkeep : KeepsCount cfg s (env, .station .sconfig v true)
          ↔ (Alone v s →
            StartsAlone (s.mInfo v = true ∧ s.hwMode v ≠ .sta) env.attempts v s) := by
        simp [KeepsCount, hcfg]
      rw [hkeep]
      refine hinv.turnsOn_iff (by simp [sconfigModeOff, hcfg]) hmi ht halone (fun h0 k => ?_)
        fun h0 => ?_
      · rw [staReady_iff h0]
        simp [hvm, sconfigModeOff, hcfg, releaseVif]
      · simp [hcons.2.mpr h0, hvi]
    | false =>
      -- it cannot be turned off
      have hre : reOffStation cfg v s = s := by
        simp [reOffStation, hact, hvm, sconfigModeOff, hcfg]
      rw [hre] at ht
      have hkeep : KeepsCount cfg s (env, .station .sconfig v true)
          ↔ ∀ k ≤ iniCnt, (env.attempts k).chipId = false := by
        simp [KeepsCount, hcfg, hvm]
      rw [hkeep]
      exact h.turnsOn_again hvm hmi ht

/-- Counting an access point in step 2 is counting it with the success of step 0. -/
theorem TurnsOn.countVif {n : ℕ} {ready ok : ℕ → Prop} {hwMode : HwMode} {r : ℤ × DevState}
    (h : TurnsOn n ready ok hwMode v id s r) :
    TurnsOn n ready ok hwMode v (fun n => (n + 1) % 2 ^ 8) s
      (r.1, if r.1 = ssvSuccess then Host.countVif r.2 else r.2) := by
  have hused := h.usedVif
  by_cases hr : r.1 = ssvSuccess
  · rw [if_pos hr] at hused ⊢
    refine ⟨h.success, h.armed, h.same, ?_, h.mInfo⟩
    simp [Host.countVif, hused, hr]
  · rw [if_neg hr] at hused ⊢
    exact ⟨h.success, h.armed, h.same, by simpa [hr] using hused, h.mInfo⟩

/-- The three calls that turn an access point on. -/
theorem modeHandle_apOn (hcfg : cfg.apMode = true) (h : DevInv s) :
    let s₁ := if s.active = .active ∧ s.hwMode v = .ap then apModeOff cfg v s else s
    let r := retryIni (apModeOn cfg v 0) iniCnt env.attempts s₁
    modeHandle cfg env s (.ap v true)
      = (r.1, if r.1 = ssvSuccess then Host.countVif r.2 else r.2).2 := by
  intro s₁ r
  have hstep0 : wifiAp cfg env v true 0 s = r := by
    simp only [wifiAp, hcfg, if_true, withWakeup_eq h.awake, true_and, r, s₁]
  simp only [modeHandle, hstep0]
  by_cases hr : r.1 = ssvSuccess
  · -- the API is active after a success, so the other steps need not wake the chip up
    have ht := retryIni_apModeOn hcfg v iniCnt env.attempts s₁
    obtain ⟨k, hk, hready, -⟩ := ht.success.mp hr
    have hactive : r.2.active = .active := (ht.armed ⟨k, hk, hready⟩).2.1
    have hstep1 : (wifiAp cfg env v true 1 r.2).2 = r.2 := by
      rw [wifiAp, if_pos hcfg, withWakeup_eq (by simp [hactive])]
      simp [retryIni, apModeOn, hcfg]
    have hstep2 : (wifiAp cfg env v true 2 r.2).2 = Host.countVif r.2 := by
      rw [wifiAp, if_pos hcfg, withWakeup_eq (by simp [hactive])]
      simp [retryIni, apModeOn, hcfg]
    rw [if_pos hr, if_pos hr, hstep1, hstep2]
  · rw [if_neg hr, if_neg hr]

/-- What turning an access point on does first, and what it leaves. -/
theorem wifiAp_on (h : DevInv s) (hv : s.hwMode v = .ap ∨ s.hwMode v = .invalid) :
    ((modeHandle cfg env s (.ap v true)).Consistent ↔ KeepsCount cfg s (env, .ap v true)) ∧
      ((modeHandle cfg env s (.ap v true)).Consistent →
        DevInv (modeHandle cfg env s (.ap v true))) := by
  cases hcfg : cfg.apMode with
  | false =>
    -- nothing happens
    have hsame : modeHandle cfg env s (.ap v true) = s := by simp [modeHandle, wifiAp, hcfg]
    have hkeep : KeepsCount cfg s (env, .ap v true)
        ↔ s.active = .deactive ∨ ∃ w, s.hwMode w ≠ .invalid := by simp [KeepsCount, hcfg]
    rw [hsame, hkeep]
    refine ⟨⟨fun hcons => ?_, ?_⟩, fun _ => h⟩
    · by_contra hne
      rw [not_or, not_exists] at hne
      have hzero : s.usedVif = 0 := by
        rw [h.count, numOn_eq_zero]
        exact fun w => not_not.mp (hne.2 w)
      exact hne.1 (hcons.2.mpr hzero)
    · rintro (hoff | ⟨w, hw⟩)
      · exact ⟨h.count, fun _ => h.off hoff, fun _ => hoff⟩
      · exact h.consistent_of_on hw
  | true =>
    have hkeep : KeepsCount cfg s (env, .ap v true)
        ↔ (Alone v s → StartsAlone True env.attempts v s) := by simp [KeepsCount, hcfg]
    rw [hkeep, modeHandle_apOn hcfg h]
    by_cases hvi : s.hwMode v = .invalid
    · -- the interface is off
      have hre : (if s.active = .active ∧ s.hwMode v = .ap then apModeOff cfg v s else s) = s := by
        simp [hvi]
      rw [hre]
      refine h.turnsOn_iff hvi (by decide)
        (retryIni_apModeOn hcfg v iniCnt env.attempts s).countVif (alone_of_invalid hvi).symm
        (fun h0 k => apReady_iff h0 k) fun _ => ?_
      simp [hvi]
    · -- an access point that is on is turned off first
      have hva : s.hwMode v = .ap := hv.resolve_right hvi
      have hre : (if s.active = .active ∧ s.hwMode v = .ap then apModeOff cfg v s else s)
          = apModeOff cfg v s := by simp [(h.active_of_on hvi).1, hva]
      rw [hre]
      obtain ⟨hinv, hcons, halone⟩ := h.apModeOff hcfg hvi
      refine hinv.turnsOn_iff (by simp [apModeOff, hcfg]) (by decide)
        (retryIni_apModeOn hcfg v iniCnt env.attempts (apModeOff cfg v s)).countVif halone
        (fun h0 k => apReady_iff h0 k) fun h0 => ?_
      simp [hcons.2.mpr h0, hvi]

/-- One request that follows the rule. -/
theorem consistent_modeHandle_iff (cfg : BuildCfg) (h : DevInv s) (r : ModeEnv × ModeRequest)
    (hr : Obeys s r) :
    ((modeHandle cfg r.1 s r.2).Consistent ↔ KeepsCount cfg s r) ∧
      ((modeHandle cfg r.1 s r.2).Consistent → DevInv (modeHandle cfg r.1 s r.2)) := by
  obtain ⟨env, req⟩ := r
  cases req with
  | station hwMode v status =>
    obtain ⟨hm, hv⟩ := hr
    cases status with
    | true => exact wifiStation_on h hm (hv.imp_right And.right)
    | false =>
      have hvm : s.hwMode v = hwMode := by simpa using hv
      have hon : s.hwMode v ≠ .invalid := by rcases hm with rfl | rfl <;> simp [hvm]
      have hnot : ¬ (hwMode ≠ .sta ∧ hwMode ≠ .sconfig) := by tauto
      have hoff : DevInv (wifiStation cfg env hwMode v false s).2 ∧
          (wifiStation cfg env hwMode v false s).2.Consistent := by
        rw [wifiStation, if_neg hnot, withWakeup_eq h.awake, if_neg (by decide)]
        rcases hm with rfl | rfl
        · obtain ⟨hinv, hcons, -⟩ := h.staModeOff hon
          exact ⟨hinv, hcons⟩
        · cases hcfg : cfg.smartConfig with
          | true =>
            obtain ⟨hinv, hcons, -⟩ := h.sconfigModeOff hcfg hon
            exact ⟨hinv, hcons⟩
          | false => simpa [sconfigModeOff, hcfg] using ⟨h, h.consistent_of_on hon⟩
      exact ⟨iff_of_true hoff.2 trivial, fun _ => hoff.1⟩
  | ap v status =>
    cases status with
    | true => exact wifiAp_on h (hr.imp_right And.right)
    | false =>
      have hva : s.hwMode v = .ap := by simpa [Obeys] using hr
      have hon : s.hwMode v ≠ .invalid := by simp [hva]
      have hoff : DevInv (modeHandle cfg env s (.ap v false)) ∧
          (modeHandle cfg env s (.ap v false)).Consistent := by
        cases hcfg : cfg.apMode with
        | true =>
          obtain ⟨hinv, hcons, -⟩ := h.apModeOff hcfg hon
          simp only [modeHandle, wifiAp, hcfg, if_true, withWakeup_eq h.awake]
          simpa [hva] using ⟨hinv, hcons⟩
        | false => simpa [modeHandle, wifiAp, hcfg] using ⟨h, h.consistent_of_on hon⟩
      exact ⟨iff_of_true hoff.2 trivial, fun _ => hoff.1⟩

end Requests

/-- In every run of requests that follow the rule, each one leaves the count right and the API off
exactly when nothing is on, if and only if every request meets `KeepsCount`. -/
theorem forall_consistent_iff (cfg : BuildCfg) (rs : List (ModeEnv × ModeRequest))
    (hrs : Machine.Meets (modeStep cfg) Obeys devInit rs) :
    (∀ s ∈ (Machine.run (modeStep cfg) devInit rs).2, s.Consistent)
      ↔ Machine.Meets (modeStep cfg) (KeepsCount cfg) devInit rs := by
  refine Machine.forall_output_iff_meets_of_obeys (I := DevInv) ?_ ?_ devInv_devInit rs hrs
  · intro s r h hr hC
    obtain ⟨hiff, hinv⟩ := consistent_modeHandle_iff cfg h r hr
    exact hinv (hiff.mpr hC)
  · intro s r h hr
    simp only [modeStep, List.mem_singleton, forall_eq]
    exact (consistent_modeHandle_iff cfg h r hr).1

/-- A station that is turned on and off again. -/
theorem consistent_onOff :
    let env : ModeEnv := ⟨true, fun _ => ⟨true, true, true, true⟩⟩
    ∀ s ∈ (Machine.run (modeStep ⟨true, true⟩) devInit
      [(env, .station .sta vif0 true), (env, .station .sta vif0 false)]).2, s.Consistent := by
  intro env
  have hobeys : Machine.Meets (modeStep ⟨true, true⟩) Obeys devInit
      [(env, .station .sta vif0 true), (env, .station .sta vif0 false)] :=
    ⟨⟨.inl rfl, .inr ⟨rfl, rfl⟩⟩, ⟨.inl rfl, .inl rfl⟩, trivial⟩
  have hstarts : StartsAlone (devInit.mInfo vif0 = true ∧ devInit.hwMode vif0 ≠ .sta) env.attempts
      vif0 devInit :=
    .inl ⟨0, Nat.zero_le _, ⟨.inr ⟨0, Nat.le_refl 0, rfl⟩, rfl, rfl⟩, rfl⟩
  exact (forall_consistent_iff _ _ hobeys).mpr ⟨fun _ => hstarts, trivial, trivial⟩

/-- Turning a station on whose firmware never starts leaves it on, and not counted. -/
theorem not_consistent_noStart :
    let rs : List (ModeEnv × ModeRequest) :=
      [(⟨true, fun _ => ⟨true, true, true, false⟩⟩, .station .sta vif0 true)]
    Machine.Meets (modeStep ⟨true, true⟩) Obeys devInit rs ∧
      ¬ ∀ s ∈ (Machine.run (modeStep ⟨true, true⟩) devInit rs).2, s.Consistent := by
  intro rs
  refine ⟨⟨⟨.inl rfl, .inr ⟨rfl, rfl⟩⟩, trivial⟩, fun h => ?_⟩
  have hcount := (h _ (List.mem_singleton_self _)).1
  revert hcount
  decide

end Fullmac.Host
