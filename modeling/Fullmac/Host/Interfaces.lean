import Fullmac.Host.Api
import Fullmac.Lib.Machine
import Mathlib.Algebra.BigOperators.Group.Finset.Basic
import Mathlib.Data.Fintype.BigOperators

/-!
# Interfaces on and off

Reference: `host/core/host_apis.c`, `ap_mode_on` to `_ssv6xxx_wifi_ap`, `sta_mode_on` to
`_ssv6xxx_wifi_station`.

The first interface that is turned on starts the chip, and the last one that is turned off stops it.
How many are on is in `used_vif`, which one is on in its `hw_mode`, and that none is in
`active_host_api`. The mode and the state of the API are set before the firmware is started, the
count after it.

A request to turn an interface on is tried again when it fails. What the chip answers to attempt `k`
of a request is `attempts k`. The commands and settings sent to a chip that runs are left out, and
so is what an access point is configured with.
-/

namespace Fullmac.Host

open Rx (HwMode maxVifNum)

/-! ## The device -/

/-- `AP_MODE_ENABLE` and `ENABLE_SMART_CONFIG` of the build. -/
structure BuildCfg where
  apMode : Bool
  smartConfig : Bool

/-- The interfaces: `hw_mode` of each and whether its `m_info` is set, `used_vif`, and
`active_host_api`. -/
structure DevState where
  hwMode : Fin maxVifNum → HwMode
  mInfo : Fin maxVifNum → Bool
  usedVif : ℕ
  active : HostApiState

/-- The device after its initialisation. -/
def devInit : DevState where
  hwMode _ := .invalid
  mInfo _ := false
  usedVif := 0
  active := .active

/-- What an attempt to turn an interface on finds: whether `_alloc_sta_info`, `ssv_hal_chip_init`,
`check_efuse_chip_id` and `ssv6xxx_start` succeed. -/
structure Attempt where
  staInfo : Bool
  chipInit : Bool
  chipId : Bool
  start : Bool

/-! ## Turning off -/

/-- What the functions that turn an interface off do to the count and the API. -/
def releaseVif (s : DevState) : DevState :=
  { s with
    active := if s.usedVif = 1 then .deactive else s.active
    usedVif := s.usedVif - 1 }

/-- `sta_mode_off`. -/
def staModeOff (v : Fin maxVifNum) (s : DevState) : DevState :=
  { releaseVif s with
    hwMode := Function.update s.hwMode v .invalid
    mInfo := Function.update s.mInfo v false }

/-- `sconfig_mode_off`. -/
def sconfigModeOff (cfg : BuildCfg) (v : Fin maxVifNum) (s : DevState) : DevState :=
  if cfg.smartConfig then
    { releaseVif s with hwMode := Function.update s.hwMode v .invalid }
  else s

/-- `ap_mode_off`. -/
def apModeOff (cfg : BuildCfg) (v : Fin maxVifNum) (s : DevState) : DevState :=
  if cfg.apMode then
    { releaseVif s with
      hwMode := Function.update s.hwMode v .invalid
      mInfo := Function.update s.mInfo v false }
  else s

/-! ## Turning on -/

/-- The API is set active and the interface gets its mode. -/
def arm (hwMode : HwMode) (v : Fin maxVifNum) (s : DevState) : DevState :=
  { s with active := .active, hwMode := Function.update s.hwMode v hwMode }

/-- `used_vif++`. -/
def countVif (s : DevState) : DevState := { s with usedVif := (s.usedVif + 1) % 2 ^ 8 }

/-- `sta_mode_on`. -/
def staModeOn (hwMode : HwMode) (v : Fin maxVifNum) (a : Attempt) (s : DevState) : ℤ × DevState :=
  let s := { s with mInfo := Function.update s.mInfo v (s.mInfo v || a.staInfo) }
  if s.mInfo v = false then (ssvFailed, s)
  else if s.usedVif = 0 ∧ a.chipInit = false then (ssvFailed, s)
  else if a.chipId = false then (ssvFailed, s)
  else if s.usedVif = 0 ∧ a.start = false then (ssvFailed, arm hwMode v s)
  else (ssvSuccess, countVif (arm hwMode v s))

/-- `ap_mode_on` by its steps. Step 1 only selects a channel. -/
def apModeOn (cfg : BuildCfg) (v : Fin maxVifNum) (step : ℕ) (a : Attempt) (s : DevState) :
    ℤ × DevState :=
  if cfg.apMode then
    if step = 0 then
      let s := { s with mInfo := Function.update s.mInfo v true }
      if s.usedVif = 0 ∧ (a.chipInit = false ∨ a.chipId = false) then (ssvFailed, s)
      else if s.usedVif = 0 ∧ a.start = false then (ssvFailed, arm .ap v s)
      else (ssvSuccess, arm .ap v s)
    else if step = 2 then (ssvSuccess, countVif s)
    else (ssvSuccess, s)
  else (ssvSuccess, s)

/-- `INI_CNT`. -/
def iniCnt : ℕ := 20

/-- The loop around `sta_mode_on` and `ap_mode_on`: a failed attempt is followed by up to `n`
others. -/
def retryIni (on : Attempt → DevState → ℤ × DevState) :
    ℕ → (ℕ → Attempt) → DevState → ℤ × DevState
  | 0, attempts, s => on (attempts 0) s
  | n + 1, attempts, s =>
    let r := on (attempts 0) s
    if r.1 = ssvSuccess then r else retryIni on n (fun k => attempts (k + 1)) r.2

/-! ## Requests -/

/-- What a request finds: whether a sleeping chip wakes up, and its attempts. -/
structure ModeEnv where
  wakeup : Bool
  attempts : ℕ → Attempt

/-- What both requests begin with. -/
def withWakeup (env : ModeEnv) (request : DevState → ℤ × DevState) (s : DevState) : ℤ × DevState :=
  if s.active = .pwrSaving then
    if env.wakeup then request { s with active := .active } else (0, s)
  else request s

/-- What turning a station on does first with an interface that is on. -/
def reOffStation (cfg : BuildCfg) (v : Fin maxVifNum) (s : DevState) : DevState :=
  if s.active = .active ∧ s.hwMode v ≠ .invalid then
    if s.hwMode v = .sta then staModeOff v s
    else if s.hwMode v = .sconfig then sconfigModeOff cfg v s
    else s
  else s

/-- `_ssv6xxx_wifi_station`. -/
def wifiStation (cfg : BuildCfg) (env : ModeEnv) (hwMode : HwMode) (v : Fin maxVifNum)
    (status : Bool) (s : DevState) : ℤ × DevState :=
  if hwMode ≠ .sta ∧ hwMode ≠ .sconfig then (ssvFailed, s)
  else
    withWakeup env (fun s =>
      if status then retryIni (staModeOn hwMode v) iniCnt env.attempts (reOffStation cfg v s)
      else if hwMode = .sta then (ssvSuccess, staModeOff v s)
      else (ssvSuccess, sconfigModeOff cfg v s)) s

/-- `_ssv6xxx_wifi_ap`. Only step 0 is tried again. -/
def wifiAp (cfg : BuildCfg) (env : ModeEnv) (v : Fin maxVifNum) (status : Bool) (step : ℕ)
    (s : DevState) : ℤ × DevState :=
  if cfg.apMode then
    withWakeup env (fun s =>
      if status then
        let s := if s.active = .active ∧ step = 0 ∧ s.hwMode v = .ap then apModeOff cfg v s else s
        retryIni (apModeOn cfg v step) (if step = 0 then iniCnt else 0) env.attempts s
      else if step = 0 ∧ s.hwMode v = .ap then (ssvSuccess, apModeOff cfg v s)
      else (ssvSuccess, s)) s
  else (ssvSuccess, s)

/-- A request of the host application. -/
inductive ModeRequest
  | station (hwMode : HwMode) (v : Fin maxVifNum) (status : Bool)
  | ap (v : Fin maxVifNum) (status : Bool)

/-- A request. Turning an access point on takes three calls, unless the first one fails. -/
def modeHandle (cfg : BuildCfg) (env : ModeEnv) (s : DevState) : ModeRequest → DevState
  | .station hwMode v status => (wifiStation cfg env hwMode v status s).2
  | .ap v false => (wifiAp cfg env v false 0 s).2
  | .ap v true =>
    let r := wifiAp cfg env v true 0 s
    if r.1 = ssvSuccess then
      (wifiAp cfg env v true 2 (wifiAp cfg env v true 1 r.2).2).2
    else r.2

/-- A request, with the state that it leaves. -/
def modeStep (cfg : BuildCfg) (s : DevState) (r : ModeEnv × ModeRequest) :
    DevState × List DevState :=
  let s := modeHandle cfg r.1 s r.2
  (s, [s])

/-! ## Attempts -/

/-- What a series of attempts `0, …, n` to turn on interface `v` in a mode comes to: `ready k` says
that attempt `k` gets as far as setting the API active, and `ok k` that it then succeeds. A success
does `count` to the number of interfaces in use. -/
structure TurnsOn (n : ℕ) (ready ok : ℕ → Prop) (hwMode : HwMode) (v : Fin maxVifNum)
    (count : ℕ → ℕ) (s : DevState) (r : ℤ × DevState) : Prop where
  success : r.1 = ssvSuccess ↔ ∃ k ≤ n, ready k ∧ ok k
  armed : (∃ k ≤ n, ready k) →
    r.2.hwMode = Function.update s.hwMode v hwMode ∧ r.2.active = .active ∧ r.2.mInfo v = true
  same : (∀ k ≤ n, ¬ ready k) → r.2.hwMode = s.hwMode ∧ r.2.active = s.active
  usedVif : r.2.usedVif = if r.1 = ssvSuccess then count s.usedVif else s.usedVif
  mInfo : ∀ w, s.mInfo w = true → r.2.mInfo w = true

theorem exists_le_succ {P : ℕ → Prop} {n : ℕ} :
    (∃ k ≤ n + 1, P k) ↔ P 0 ∨ ∃ k ≤ n, P (k + 1) := by
  constructor
  · rintro ⟨k, hk, h⟩
    cases k with
    | zero => exact .inl h
    | succ k => exact .inr ⟨k, by omega, h⟩
  · rintro (h | ⟨k, hk, h⟩)
    · exact ⟨0, Nat.zero_le _, h⟩
    · exact ⟨k + 1, by omega, h⟩

section Attempts

variable {on : Attempt → DevState → ℤ × DevState} {ready ok : (ℕ → Attempt) → DevState → ℕ → Prop}
  {hwMode : HwMode} {v : Fin maxVifNum} {count : ℕ → ℕ}

/-- The attempts of the loop, from what one attempt does. A failed attempt leaves to the next ones
what they find. -/
theorem retryIni_turnsOn
    (hone : ∀ as s, TurnsOn 0 (ready as s) (ok as s) hwMode v count s (on (as 0) s))
    (hready : ∀ as s k, (on (as 0) s).1 ≠ ssvSuccess →
      (ready (fun k => as (k + 1)) (on (as 0) s).2 k ↔ ready as s (k + 1)))
    (hok : ∀ as s k, (on (as 0) s).1 ≠ ssvSuccess →
      (ok (fun k => as (k + 1)) (on (as 0) s).2 k ↔ ok as s (k + 1)))
    (n : ℕ) (as : ℕ → Attempt) (s : DevState) :
    TurnsOn n (ready as s) (ok as s) hwMode v count s (retryIni on n as s) := by
  induction n generalizing as s with
  | zero => exact hone as s
  | succ n ih =>
    have h0 := hone as s
    by_cases hs : (on (as 0) s).1 = ssvSuccess
    · -- the first attempt succeeds
      have hrun : retryIni on (n + 1) as s = on (as 0) s := by simp [retryIni, hs]
      obtain ⟨k, hk, hr, hk'⟩ := h0.success.mp hs
      have hkn : k ≤ n + 1 := by omega
      rw [hrun]
      exact ⟨iff_of_true hs ⟨k, hkn, hr, hk'⟩, fun _ => h0.armed ⟨k, hk, hr⟩,
        fun hnone => absurd hr (hnone k hkn), h0.usedVif, h0.mInfo⟩
    · -- it fails, and the others start where it stopped
      have hrun : retryIni on (n + 1) as s
          = retryIni on n (fun k => as (k + 1)) (on (as 0) s).2 := by simp [retryIni, hs]
      have h := ih (fun k => as (k + 1)) (on (as 0) s).2
      have hused := h0.usedVif
      rw [if_neg hs] at hused
      have hnot0 : ¬ (ready as s 0 ∧ ok as s 0) :=
        fun h => hs (h0.success.mpr ⟨0, Nat.le_refl 0, h⟩)
      have hr : ready (fun k => as (k + 1)) (on (as 0) s).2 = fun k => ready as s (k + 1) :=
        funext fun k => propext (hready as s k hs)
      have ho : ok (fun k => as (k + 1)) (on (as 0) s).2 = fun k => ok as s (k + 1) :=
        funext fun k => propext (hok as s k hs)
      rw [hr, ho] at h
      have hmode : Function.update (on (as 0) s).2.hwMode v hwMode
          = Function.update s.hwMode v hwMode := by
        by_cases hz : ready as s 0
        · rw [(h0.armed ⟨0, Nat.le_refl 0, hz⟩).1, Function.update_idem]
        · rw [(h0.same fun k hk => by rwa [Nat.le_zero.mp hk]).1]
      rw [hrun]
      refine ⟨?_, ?_, ?_, ?_, fun w hw => h.mInfo w (h0.mInfo w hw)⟩
      · rw [h.success, exists_le_succ]
        exact (or_iff_right hnot0).symm
      · intro hany
        by_cases hlater : ∃ k ≤ n, ready as s (k + 1)
        · obtain ⟨h1, h2, h3⟩ := h.armed hlater
          exact ⟨h1.trans hmode, h2, h3⟩
        · -- only the first attempt got so far
          have hz : ready as s 0 := (exists_le_succ.mp hany).resolve_right hlater
          obtain ⟨h1, h2⟩ := h.same fun k hk hk' => hlater ⟨k, hk, hk'⟩
          obtain ⟨h3, h4, h5⟩ := h0.armed ⟨0, Nat.le_refl 0, hz⟩
          exact ⟨h1.trans h3, h2.trans h4, h.mInfo v h5⟩
      · intro hnone
        obtain ⟨h1, h2⟩ := h.same fun k hk => hnone (k + 1) (by omega)
        obtain ⟨h3, h4⟩ := h0.same fun k hk => hnone k (by omega)
        exact ⟨h1.trans h3, h2.trans h4⟩
      · rw [h.usedVif, hused]

/-- What a station needs to get as far as setting the API active at attempt `k`. -/
def staReady (v : Fin maxVifNum) (as : ℕ → Attempt) (s : DevState) (k : ℕ) : Prop :=
  (s.mInfo v = true ∨ ∃ j ≤ k, (as j).staInfo = true) ∧
    (s.usedVif = 0 → (as k).chipInit = true) ∧ (as k).chipId = true

/-- What an access point needs. -/
def apReady (as : ℕ → Attempt) (s : DevState) (k : ℕ) : Prop :=
  s.usedVif = 0 → (as k).chipInit = true ∧ (as k).chipId = true

/-- The firmware starts, where it has to. -/
def starts (as : ℕ → Attempt) (s : DevState) (k : ℕ) : Prop :=
  s.usedVif = 0 → (as k).start = true

/-- A single attempt that does not get as far as setting the API active. -/
theorem TurnsOn.of_not_ready {ready ok : ℕ → Prop} {s s' : DevState} (hready : ¬ ready 0)
    (hmode : s'.hwMode = s.hwMode) (hactive : s'.active = s.active) (hused : s'.usedVif = s.usedVif)
    (hinfo : ∀ w, s.mInfo w = true → s'.mInfo w = true) :
    TurnsOn 0 ready ok hwMode v count s (ssvFailed, s') where
  success := iff_of_false (by simp [ssvFailed, ssvSuccess])
    (by simpa using fun h => absurd h hready)
  armed h := absurd (by simpa using h) hready
  same _ := ⟨hmode, hactive⟩
  usedVif := by simpa [ssvFailed, ssvSuccess] using hused
  mInfo := hinfo

/-- A single attempt that gets so far and fails or succeeds. -/
theorem TurnsOn.of_ready {ready ok : ℕ → Prop} {s s' : DevState} {ret : ℤ} (hready : ready 0)
    (hret : ret = ssvSuccess ↔ ok 0) (hmode : s'.hwMode = Function.update s.hwMode v hwMode)
    (hactive : s'.active = .active) (hv : s'.mInfo v = true)
    (hused : s'.usedVif = if ret = ssvSuccess then count s.usedVif else s.usedVif)
    (hinfo : ∀ w, s.mInfo w = true → s'.mInfo w = true) :
    TurnsOn 0 ready ok hwMode v count s (ret, s') where
  success := by simpa [hready] using hret
  armed _ := ⟨hmode, hactive, hv⟩
  same h := absurd hready (h 0 (Nat.le_refl 0))
  usedVif := hused
  mInfo := hinfo

/-- One attempt to turn a station on. -/
theorem staModeOn_turnsOn (hwMode : HwMode) (v : Fin maxVifNum) (as : ℕ → Attempt) (s : DevState) :
    TurnsOn 0 (staReady v as s) (starts as s) hwMode v (fun n => (n + 1) % 2 ^ 8) s
      (staModeOn hwMode v (as 0) s) := by
  have hinfo : ∀ w, s.mInfo w = true →
      Function.update s.mInfo v (s.mInfo v || (as 0).staInfo) w = true := by
    intro w hw
    rcases eq_or_ne w v with rfl | hne
    · simp [hw]
    · simpa [hne] using hw
  unfold staModeOn
  simp only [Function.update_self]
  split
  case isTrue h =>
    refine .of_not_ready (fun hr => ?_) rfl rfl rfl hinfo
    simp only [Bool.or_eq_false_iff] at h
    simpa [h.1, h.2] using hr.1
  case isFalse hi =>
    split
    case isTrue h => exact .of_not_ready (fun hr => by simp [hr.2.1 h.1] at h) rfl rfl rfl hinfo
    case isFalse hc =>
      split
      case isTrue h => exact .of_not_ready (fun hr => by simp [hr.2.2] at h) rfl rfl rfl hinfo
      case isFalse hid =>
        have hv : (s.mInfo v || (as 0).staInfo) = true := by simpa only [Bool.not_eq_false] using hi
        have hready : staReady v as s 0 := by
          refine ⟨by simpa using hv, fun h0 => ?_, by simpa using hid⟩
          simpa [h0] using hc
        split
        case isTrue h =>
          exact .of_ready hready (iff_of_false (by decide) fun ho => by simp [ho h.1] at h) rfl rfl
            (by simpa [arm] using hv) (by simp [arm, ssvFailed, ssvSuccess]) hinfo
        case isFalse h =>
          refine .of_ready hready (iff_of_true rfl fun h0 => ?_) rfl rfl
            (by simpa [arm, countVif] using hv) (by simp [arm, countVif]) hinfo
          simpa [h0] using h

/-- One attempt to turn an access point on. The count is left to step 2. -/
theorem apModeOn_turnsOn {cfg : BuildCfg} (hcfg : cfg.apMode = true) (v : Fin maxVifNum)
    (as : ℕ → Attempt) (s : DevState) :
    TurnsOn 0 (apReady as s) (starts as s) .ap v id s (apModeOn cfg v 0 (as 0) s) := by
  have hinfo : ∀ w, s.mInfo w = true → Function.update s.mInfo v true w = true := by
    intro w hw
    rcases eq_or_ne w v with rfl | hne
    · simp
    · simpa [hne] using hw
  simp only [apModeOn, hcfg, if_true]
  split
  case isTrue h =>
    refine .of_not_ready (fun hr => ?_) rfl rfl rfl hinfo
    simpa [hr h.1] using h.2
  case isFalse hc =>
    have hready : apReady as s 0 := fun h0 => by simpa [h0] using hc
    split
    case isTrue h =>
      exact .of_ready hready (iff_of_false (by decide) fun ho => by simp [ho h.1] at h) rfl rfl
        (by simp [arm]) (by simp [arm]) hinfo
    case isFalse h =>
      refine .of_ready hready (iff_of_true rfl fun h0 => ?_) rfl rfl (by simp [arm]) (by simp [arm])
        hinfo
      simpa [h0] using h

/-- A failed attempt leaves the count as it is. -/
theorem TurnsOn.usedVif_of_ne {n : ℕ} {ready ok : ℕ → Prop} {s : DevState} {r : ℤ × DevState}
    (h : TurnsOn n ready ok hwMode v count s r) (hr : r.1 ≠ ssvSuccess) :
    r.2.usedVif = s.usedVif := by
  rw [h.usedVif, if_neg hr]

/-- The attempts to turn a station on. -/
theorem retryIni_staModeOn (hwMode : HwMode) (v : Fin maxVifNum) (n : ℕ) (as : ℕ → Attempt)
    (s : DevState) :
    TurnsOn n (staReady v as s) (starts as s) hwMode v (fun n => (n + 1) % 2 ^ 8) s
      (retryIni (staModeOn hwMode v) n as s) := by
  refine retryIni_turnsOn (staModeOn_turnsOn hwMode v) ?_ ?_ n as s
  · intro as s k hfail
    have hused := (staModeOn_turnsOn hwMode v as s).usedVif_of_ne hfail
    have hinfo : (staModeOn hwMode v (as 0) s).2.mInfo v = (s.mInfo v || (as 0).staInfo) := by
      unfold staModeOn
      simp only [Function.update_self]
      split_ifs <;> simp [arm, countVif]
    simp only [staReady, hused, hinfo, exists_le_succ, Bool.or_eq_true, or_assoc]
  · intro as s k hfail
    simp only [starts, (staModeOn_turnsOn hwMode v as s).usedVif_of_ne hfail]

/-- The attempts to turn an access point on. -/
theorem retryIni_apModeOn {cfg : BuildCfg} (hcfg : cfg.apMode = true) (v : Fin maxVifNum) (n : ℕ)
    (as : ℕ → Attempt) (s : DevState) :
    TurnsOn n (apReady as s) (starts as s) .ap v id s (retryIni (apModeOn cfg v 0) n as s) := by
  refine retryIni_turnsOn (apModeOn_turnsOn hcfg v) ?_ ?_ n as s
  · intro as s k hfail
    simp only [apReady, (apModeOn_turnsOn hcfg v as s).usedVif_of_ne hfail]
  · intro as s k hfail
    simp only [starts, (apModeOn_turnsOn hcfg v as s).usedVif_of_ne hfail]

end Attempts

end Fullmac.Host
