import Fullmac.Timer.Expiry

/-!
# The timer slots as timer lists

The machine of `Fullmac.Timer.Model` keeps a slot number in its lists and the rest of the slot
beside them. Read through the slots its lists are the `TimerLists` of `Fullmac.Timer.DeltaList`, and
on them its operations are the functions there. This holds in every state in which no slot is in two
places and the remaining times are `u32` values, and all states of a run are such.
-/

namespace Fullmac.Timer

/-- A slot as an element of a list. -/
def queuedAt (timer : SlotId → OsTimer) (rem : SlotId → ℕ) (i : SlotId) : Queued SlotId :=
  ⟨i, timer i, UInt32.ofNat (rem i)⟩

/-- The three lists of a state. -/
def TimerState.lists (s : TimerState) : TimerLists SlotId where
  tmrHd := s.tmrHd.map (queuedAt s.timer s.msRemian)
  freeTmrHd := s.freeTmrHd.map (queuedAt s.timer s.msRemian)
  expiredTmrHd := s.expiredTmrHd.map (queuedAt s.timer s.msRemian)

/-! ## States of a run -/

/-- No slot is in two places, and every remaining time is a `u32`. -/
structure Proper (s : TimerState) : Prop where
  once : ∀ i, s.freeTmrHd.count i + s.tmrHd.count i + s.expiredTmrHd.count i + s.creates.count i ≤ 1
  small : ∀ i, s.msRemian i < 2 ^ 32

theorem Tally.once_move {lossy : Prop} {v w : Tally}
    (hv : v.free + v.tmr + v.expired + v.creates ≤ 1) (h : SlotMove lossy v w) :
    w.free + w.tmr + w.expired + w.creates ≤ 1 := by
  cases h with
  | stay h => rw [h]; exact hv
  | create hfree hcreates h | arm hcreates htmr h => rw [h]; simp only; omega
  | disarm h hsum => rw [h]; simp only; omega
  | expire htmr hexpired hevent h => rw [h]; simp only; omega
  | deliver hevent hfrees h => rw [h]; exact hv
  | free hfrees hexpired hfree h => rw [h]; simp only; omega
  | loseSlot hl hfree h => rw [h]; simp only; omega
  | loseEvent hl hevent h => rw [h]; exact hv

section Small

variable {rem : SlotId → ℕ}

theorem small_update {i : SlotId} {ms : ℕ} (hms : ms < 2 ^ 32) (h : ∀ j, rem j < 2 ^ 32) :
    ∀ j, Function.update rem i ms j < 2 ^ 32 := by
  intro j
  by_cases hj : j = i
  · subst hj
    simpa using hms
  · simpa [hj] using h j

theorem small_subtractFrom (ms : ℕ) (l : List SlotId) (h : ∀ j, rem j < 2 ^ 32) :
    ∀ j, subtractFrom ms l rem j < 2 ^ 32 := by
  induction l generalizing rem with
  | nil => exact h
  | cons t ts ih =>
    refine ih ?_
    split
    · exact small_update (by have := h t; omega) h
    · exact h

theorem small_insertTimer {ms : ℕ} (hms : ms < 2 ^ 32) (i : SlotId) (l : List SlotId)
    (h : ∀ j, rem j < 2 ^ 32) : ∀ j, (insertTimer i ms l rem).2 j < 2 ^ 32 := by
  induction l generalizing ms with
  | nil => exact small_update hms h
  | cons t ts ih =>
    rw [insertTimer]
    split
    · exact small_subtractFrom ms _ (small_update hms h)
    · exact ih (by omega)

theorem small_addTo (ms : ℕ) (l : List SlotId) (h : ∀ j, rem j < 2 ^ 32) :
    ∀ j, addTo ms l rem j < 2 ^ 32 := by
  induction l generalizing rem with
  | nil => exact h
  | cons t ts ih => exact ih (small_update (Nat.mod_lt _ (by decide)) h)

theorem small_cancelWalk (timer : SlotId → OsTimer) (key : TimerKey) (l : List SlotId)
    (h : ∀ j, rem j < 2 ^ 32) : ∀ j, (cancelWalk timer key l rem).2.2 j < 2 ^ 32 := by
  induction l with
  | nil => exact h
  | cons t ts ih =>
    rw [cancelWalk]
    split
    · split
      · exact small_addTo _ _ h
      · exact ih
    · exact ih

end Small

/-- The timeouts of the callers are `u32` values. -/
def TimeoutFits : TimerIn → Prop
  | .create ms _ _ _ _ => ms < 2 ^ 32
  | _ => True

theorem small_expireNext (s : TimerState) (ph : Phase) :
    (expireNext s ph).msRemian = s.msRemian := by
  rw [expireNext]
  split <;> rfl

theorem small_taskStep {s : TimerState} (h : ∀ i, s.msRemian i < 2 ^ 32) (xElapsed : ℕ)
    (alloc post : Bool) : ∀ i, (taskStep s xElapsed alloc post).1.msRemian i < 2 ^ 32 := by
  rw [taskStep]
  split
  · exact h
  · dsimp only
    rw [updateAllTimer]
    split
    · exact h
    · split
      · rename_i t ts _ _
        exact small_update (by have := h t; omega) h
      · exact h
  · dsimp only
    rw [expireOne]
    split
    · exact h
    · split
      · exact h
      · rw [small_expireNext]
        exact h
  · dsimp only
    rw [small_expireNext]
    exact h
  · exact h
  · rename_i m htask
    cases m with
    | create tmr => exact small_insertTimer (h tmr) tmr _ h
    | cancel key before => exact small_cancelWalk _ _ _ h
    | free tmr =>
      simp only [handleMsg, freeTimer]
      split <;> exact h

theorem small_timerStep {s : TimerState} {inp : TimerIn} (hin : TimeoutFits inp)
    (h : ∀ i, s.msRemian i < 2 ^ 32) : ∀ i, (timerStep s inp).1.msRemian i < 2 ^ 32 := by
  cases inp with
  | create ms key mbx alloc post =>
    simp only [timerStep, osCreateTimer]
    split
    · exact h
    · split <;> exact small_update hin h
  | cancel key alloc post =>
    simp only [timerStep, osCancelTimer]
    split <;> exact h
  | fetch xElapsed =>
    simp only [timerStep, fetchMsg]
    split <;> exact h
  | timeout =>
    simp only [timerStep, fetchTimeout]
    split <;> exact h
  | expired =>
    simp only [timerStep, osTimerExpired]
    split <;> exact h
  | release alloc post =>
    simp only [timerStep, osFreeTimer]
    split <;> exact h
  | task xElapsed alloc post => exact small_taskStep h xElapsed alloc post

/-- All states of a run are proper. -/
theorem proper_timerRun (is : List TimerIn) (h : ∀ inp ∈ is, TimeoutFits inp) :
    Proper (timerRun is).1 := by
  have hstart : Proper osTimerInit := by
    exact ⟨fun i => (good_osTimerInit i).once.le, fun i => Nat.two_pow_pos 32⟩
  exact Machine.run_induction_of_meets (C := fun _ inp => TimeoutFits inp)
    (P := fun s _ _ => Proper s) hstart
    (fun s _ _ inp hinp hs =>
      ⟨fun i => Tally.once_move (hs.once i) (slotMove_timerStep s inp i),
        small_timerStep hinp hs.small⟩)
    is (Machine.meets_of_forall h)

/-! ## `_create_timer` -/

variable {timer : SlotId → OsTimer} {rem : SlotId → ℕ}

/-- A list read through slots of which one that is not in it was changed. -/
theorem map_queuedAt_update {i : SlotId} {l : List SlotId} (h : i ∉ l) (v : OsTimer) :
    l.map (queuedAt (Function.update timer i v) rem) = l.map (queuedAt timer rem) := by
  refine List.map_congr_left fun j hj => ?_
  have hji : j ≠ i := fun hji => h (hji ▸ hj)
  simp [queuedAt, hji]

theorem subtractFrom_apply (rem : SlotId → ℕ) (ms : ℕ) {l : List SlotId} (hl : l.Nodup)
    (j : SlotId) : subtractFrom ms l rem j = if j ∈ l ∧ ms ≤ rem j then rem j - ms else rem j := by
  induction l generalizing rem with
  | nil => simp [subtractFrom]
  | cons t ts ih =>
    obtain ⟨ht, hts⟩ := List.nodup_cons.mp hl
    rw [subtractFrom, ih _ hts]
    by_cases hj : j = t
    · subst hj
      by_cases hle : ms ≤ rem j
      · simp [ht, hle]
      · simp [ht, hle]
    · have hsame : (if ms ≤ rem t then Function.update rem t (rem t - ms) else rem) j = rem j := by
        split
        · simp [hj]
        · rfl
      simp [hj, hsame]

theorem shorten_queuedAt {ms : ℕ} (hms : ms < 2 ^ 32) {i : SlotId} (hrem : rem i < 2 ^ 32) :
    (queuedAt timer rem i).shorten (UInt32.ofNat ms)
      = ⟨i, timer i, UInt32.ofNat (if ms ≤ rem i then rem i - ms else rem i)⟩ := by
  by_cases h : ms ≤ rem i
  · have hle := (UInt32.ofNat_le_iff_le hms hrem).mpr h
    simp [Queued.shorten, queuedAt, hle, h, UInt32.ofNat_sub h]
  · have hle : ¬ UInt32.ofNat ms ≤ UInt32.ofNat (rem i) :=
      fun hle => h ((UInt32.ofNat_le_iff_le hms hrem).mp hle)
    simp [Queued.shorten, queuedAt, hle, h]

theorem insertTimer_apply {i j : SlotId} {ms : ℕ} {l : List SlotId} (hl : l.Nodup) (hi : i ∉ l)
    (hj : j ∉ l) (hji : j ≠ i) : (insertTimer i ms l rem).2 j = rem j := by
  induction l generalizing ms with
  | nil => simp [insertTimer, hji]
  | cons t ts ih =>
    rw [insertTimer]
    split
    · dsimp only
      rw [subtractFrom_apply _ ms hl, if_neg fun h => hj h.1]
      simp [hji]
    · exact ih (List.nodup_cons.mp hl).2 (fun h => hi (List.mem_cons_of_mem t h))
        fun h => hj (List.mem_cons_of_mem t h)

/-- The walk of `_create_timer`, read through the slots. -/
theorem map_insertTimer {i : SlotId} {ms : ℕ} (hms : ms < 2 ^ 32) {l : List SlotId} (hl : l.Nodup)
    (hi : i ∉ l) (hrem : ∀ j, rem j < 2 ^ 32) :
    (insertTimer i ms l rem).1.map (queuedAt timer (insertTimer i ms l rem).2)
      = TimerLists.insertTimer ⟨i, timer i, UInt32.ofNat ms⟩ (l.map (queuedAt timer rem)) := by
  induction l generalizing ms with
  | nil => simp [insertTimer, TimerLists.insertTimer, queuedAt]
  | cons t ts ih =>
    obtain ⟨hit, hits⟩ : i ≠ t ∧ i ∉ ts := by simpa using hi
    obtain ⟨ht, hts⟩ := List.nodup_cons.mp hl
    rw [List.map_cons, TimerLists.insertTimer, insertTimer]
    by_cases hle : ms ≤ rem t
    · have hle' : UInt32.ofNat ms ≤ (queuedAt timer rem t).msRemian :=
        (UInt32.ofNat_le_iff_le hms (hrem t)).mpr hle
      rw [if_pos hle, if_pos hle', ← List.map_cons, List.map_map, List.map_cons]
      refine congrArg₂ List.cons ?_ (List.map_congr_left fun j hj => ?_)
      · simp [queuedAt, subtractFrom_apply _ ms hl, hit, hits]
      · have hji : j ≠ i := fun h => hi (h ▸ hj)
        have hsub := subtractFrom_apply (Function.update rem i ms) ms hl j
        rw [Function.comp_apply, shorten_queuedAt hms (hrem j), queuedAt]
        dsimp only
        rw [hsub]
        simp [hji, hj]
    · have hle' : ¬ UInt32.ofNat ms ≤ (queuedAt timer rem t).msRemian :=
        fun h => hle ((UInt32.ofNat_le_iff_le hms (hrem t)).mp h)
      have hsub : UInt32.ofNat ms - (queuedAt timer rem t).msRemian = UInt32.ofNat (ms - rem t) :=
        (UInt32.ofNat_sub (by omega)).symm
      rw [if_neg hle, if_neg hle', hsub, ← ih (by omega) hts hits, List.map_cons]
      refine congrArg₂ List.cons ?_ rfl
      rw [queuedAt, queuedAt, insertTimer_apply hts hits ht fun h => hit h.symm]

/-- The lists of a proper state have no slot in common. -/
theorem Proper.apart {s : TimerState} (hs : Proper s) :
    s.tmrHd.Nodup ∧ (∀ i ∈ s.freeTmrHd, i ∉ s.tmrHd ∧ i ∉ s.expiredTmrHd) ∧
      (∀ i ∈ s.expiredTmrHd, i ∉ s.tmrHd) ∧
      ∀ i ∈ s.creates, i ∉ s.freeTmrHd ∧ i ∉ s.tmrHd ∧ i ∉ s.expiredTmrHd := by
  have hpos : ∀ {l : List SlotId} {i}, i ∈ l → 0 < l.count i := List.count_pos_iff.mpr
  refine ⟨List.nodup_iff_count_le_one.mpr fun i => ?_, fun i hi => ⟨fun h => ?_, fun h => ?_⟩,
    fun i hi h => ?_, fun i hi => ⟨fun h => ?_, fun h => ?_, fun h => ?_⟩⟩
  · have := hs.once i
    omega
  all_goals
    have := hs.once i
    have := hpos hi
    have := hpos h
    omega

/-- `_create_timer` of a slot whose message is being handled, read through the slots. -/
theorem lists_createTimer {s : TimerState} (hs : Proper s) {i : SlotId} (hi : i ∈ s.creates) :
    (createTimer s i).lists = s.lists.createTimer (queuedAt s.timer s.msRemian i) := by
  obtain ⟨hnodup, hfree, hexpired, hcreates⟩ := hs.apart
  obtain ⟨hifree, hitmr, hiexpired⟩ := hcreates i hi
  have hother : ∀ l : List SlotId, i ∉ l → (∀ j ∈ l, j ∉ s.tmrHd) →
      l.map (queuedAt (createTimer s i).timer (createTimer s i).msRemian)
        = l.map (queuedAt s.timer s.msRemian) := by
    intro l hil hl
    refine List.map_congr_left fun j hj => ?_
    have hji : j ≠ i := fun h => hil (h ▸ hj)
    simp only [queuedAt, createTimer]
    rw [insertTimer_apply hnodup hitmr (hl j hj) hji, Function.update_of_ne hji]
  have htmr : (createTimer s i).lists.tmrHd
      = (s.lists.createTimer (queuedAt s.timer s.msRemian i)).tmrHd := by
    refine (map_insertTimer (hs.small i) hnodup hitmr hs.small).trans ?_
    have htimer : (createTimer s i).timer
        = Function.update s.timer i { s.timer i with enState := .cntDwn } := rfl
    rw [htimer, map_queuedAt_update hitmr, Function.update_self]
    rfl
  have hfree' := hother s.freeTmrHd hifree fun j hj => (hfree j hj).1
  have hexpired' := hother s.expiredTmrHd hiexpired hexpired
  exact TimerLists.mk.injEq .. |>.mpr ⟨htmr, hfree', hexpired'⟩

/-! ## `_cancel_timer` -/

theorem addTo_apply (rem : SlotId → ℕ) (ms : ℕ) {l : List SlotId} (hl : l.Nodup) (j : SlotId) :
    addTo ms l rem j = if j ∈ l then (rem j + ms) % 2 ^ 32 else rem j := by
  induction l generalizing rem with
  | nil => rfl
  | cons t ts ih =>
    obtain ⟨ht, hts⟩ := List.nodup_cons.mp hl
    rw [addTo, ih _ hts]
    by_cases hj : j = t
    · subst hj
      simp [ht]
    · simp [hj]

/-- A slot of the list stays or is taken out, and not both. -/
theorem cancelWalk_parts (timer : SlotId → OsTimer) (key : TimerKey) {l : List SlotId}
    (hl : l.Nodup) (rem : SlotId → ℕ) :
    (∀ j ∈ (cancelWalk timer key l rem).1, j ∈ l ∧ j ∉ (cancelWalk timer key l rem).2.1) ∧
      ∀ j ∈ (cancelWalk timer key l rem).2.1, j ∈ l ∧ j ∉ (cancelWalk timer key l rem).1 := by
  have hpos : ∀ {l : List SlotId} {i}, i ∈ l → 0 < l.count i := List.count_pos_iff.mpr
  refine ⟨fun j hj => ?_, fun j hj => ?_⟩
  all_goals
    have hcount := count_cancelWalk timer key j l rem
    have hone := List.nodup_iff_count_le_one.mp hl j
    have hj' := hpos hj
    refine ⟨List.count_pos_iff.mp (by omega), fun h => ?_⟩
    have := hpos h
    omega

/-- The walk of `_cancel_timer`, read through the slots. -/
theorem map_cancelWalk (timer : SlotId → OsTimer) (key : TimerKey) {l : List SlotId} (hl : l.Nodup)
    (hrem : ∀ j, rem j < 2 ^ 32) :
    (cancelWalk timer key l rem).1.map (queuedAt timer (cancelWalk timer key l rem).2.2)
        = (TimerLists.cancelWalk key (l.map (queuedAt timer rem))).1 ∧
      (cancelWalk timer key l rem).2.1.map
          (fun j => (queuedAt timer (cancelWalk timer key l rem).2.2 j).freed)
        = (TimerLists.cancelWalk key (l.map (queuedAt timer rem))).2 ∧
      ∀ j, j ∉ (cancelWalk timer key l rem).1 → (cancelWalk timer key l rem).2.2 j = rem j := by
  induction l with
  | nil => exact ⟨rfl, rfl, fun _ _ => rfl⟩
  | cons t ts ih =>
    obtain ⟨ht, hts⟩ := List.nodup_cons.mp hl
    obtain ⟨hstay, hfreed, hsame⟩ := ih hts
    have htstay : t ∉ (cancelWalk timer key ts rem).1 := fun h =>
      ht ((cancelWalk_parts timer key hts rem).1 t h).1
    rw [List.map_cons, TimerLists.cancelWalk, cancelWalk]
    by_cases hkey : (timer t).key = key
    · have hkey' : (queuedAt timer rem t).os.key = key := hkey
      rw [if_pos hkey, if_pos hkey']
      have hzero : (0 : UInt32) < (queuedAt timer rem t).msRemian ↔ 0 < rem t :=
        UInt32.ofNat_lt_iff_lt (a := 0) (Nat.two_pow_pos 32) (hrem t)
      by_cases hpos : 0 < rem t
      · rw [if_pos hpos, if_pos (hzero.mpr hpos)]
        refine ⟨?_, ?_, fun j hj => ?_⟩
        · rw [List.map_map]
          refine List.map_congr_left fun j hj => ?_
          have hj' := addTo_apply rem (rem t) hts j
          rw [if_pos hj] at hj'
          simp only [queuedAt, Function.comp_apply, Queued.lengthen, hj', UInt32.ofNat_mod_size,
            UInt32.ofNat_add]
        · have ht' := addTo_apply rem (rem t) hts t
          rw [if_neg ht] at ht'
          simp [queuedAt, ht']
        · exact (addTo_apply rem (rem t) hts j).trans (if_neg hj)
      · rw [if_neg hpos, if_neg fun h => hpos (hzero.mp h)]
        refine ⟨hstay, ?_, hsame⟩
        simp only [List.map_cons, hfreed]
        rw [queuedAt, hsame t htstay, queuedAt]
    · have hkey' : ¬ (queuedAt timer rem t).os.key = key := hkey
      rw [if_neg hkey, if_neg hkey']
      refine ⟨?_, hfreed, fun j hj => hsame j fun h => hj (List.mem_cons_of_mem t h)⟩
      simp only [List.map_cons, hstay]
      rw [queuedAt, hsame t htstay, queuedAt]

/-- `_cancel_timer`, read through the slots. -/
theorem lists_cancelTimer {s : TimerState} (hs : Proper s) (key : TimerKey) :
    (cancelTimer s key).lists = s.lists.cancelTimer key := by
  obtain ⟨hnodup, hfree, hexpired, -⟩ := hs.apart
  obtain ⟨hstay, hfreed, hsame⟩ := map_cancelWalk s.timer key hnodup hs.small
  obtain ⟨hparts, hparts'⟩ := cancelWalk_parts s.timer key hnodup s.msRemian
  -- what a slot looks like afterwards, by the list it was on
  have hat : ∀ j, (cancelTimer s key).timer j =
      if j ∈ s.expiredTmrHd ∧ (s.timer j).key = key then { s.timer j with enState := .cancel }
      else if j ∈ (cancelWalk s.timer key s.tmrHd s.msRemian).2.1 then (s.timer j).freed
      else s.timer j := by
    intro j
    by_cases hj : j ∈ (cancelWalk s.timer key s.tmrHd s.msRemian).2.1
    · have hexp : j ∉ s.expiredTmrHd := fun h => hexpired j h (hparts' j hj).1
      simp [cancelTimer, hj, hexp]
    · simp [cancelTimer, hj]
  have htmr : (cancelTimer s key).lists.tmrHd = (s.lists.cancelTimer key).tmrHd := by
    refine Eq.trans (List.map_congr_left fun j hj => ?_) hstay
    have hexp : j ∉ s.expiredTmrHd := fun h => hexpired j h (hparts j hj).1
    rw [queuedAt, hat, if_neg fun h => hexp h.1, if_neg (hparts j hj).2]
    rfl
  have hfree' : (cancelTimer s key).lists.freeTmrHd = (s.lists.cancelTimer key).freeTmrHd := by
    refine List.map_append.trans (congrArg₂ _ (List.map_congr_left fun j hj => ?_)
      (Eq.trans (List.map_congr_left fun j hj => ?_) hfreed))
    · obtain ⟨hjtmr, hjexp⟩ := hfree j hj
      rw [queuedAt, hat, if_neg fun h => hjexp h.1, if_neg fun h => hjtmr (hparts' j h).1]
      exact congrArg (fun n => Queued.mk j (s.timer j) (UInt32.ofNat n))
        (hsame j fun h => hjtmr (hparts j h).1)
    · have hexp : j ∉ s.expiredTmrHd := fun h => hexpired j h (hparts' j hj).1
      rw [queuedAt, hat, if_neg fun h => hexp h.1, if_pos hj]
      rfl
  have hexpired' :
      (cancelTimer s key).lists.expiredTmrHd = (s.lists.cancelTimer key).expiredTmrHd := by
    refine Eq.trans (List.map_congr_left fun j hj => ?_) List.map_map.symm
    have hj' : j ∈ s.expiredTmrHd := hj
    have hjtmr := hexpired j hj'
    have hrem : (cancelTimer s key).msRemian j = s.msRemian j :=
      hsame j fun h => hjtmr (hparts j h).1
    rw [queuedAt, hat, hrem, if_neg fun h => hjtmr (hparts' j h).1]
    by_cases hkey : (s.timer j).key = key
    · simp [queuedAt, hkey, hj', Queued.setState]
    · simp [queuedAt, hkey]
  exact TimerLists.mk.injEq .. |>.mpr ⟨htmr, hfree', hexpired'⟩

/-! ## `_update_all_timer` -/

/-- The machine gets from one state to the other while only the timer task moves and every post
succeeds. -/
def TaskRuns (s s' : TimerState) : Prop :=
  ∃ allocs : List Bool,
    s' = (Machine.run timerStep s (allocs.map fun a => TimerIn.task 0 a true)).1

theorem TaskRuns.refl (s : TimerState) : TaskRuns s s := ⟨[], rfl⟩

theorem TaskRuns.head {s s' : TimerState} (a : Bool) (h : TaskRuns (taskStep s 0 a true).1 s') :
    TaskRuns s s' := by
  obtain ⟨allocs, rfl⟩ := h
  exact ⟨a :: allocs, rfl⟩

theorem TaskRuns.trans {s s' s'' : TimerState} (h : TaskRuns s s') (h' : TaskRuns s' s'') :
    TaskRuns s s'' := by
  obtain ⟨allocs, rfl⟩ := h
  obtain ⟨allocs', rfl⟩ := h'
  exact ⟨allocs ++ allocs', by rw [List.map_append, Machine.run_append]⟩

theorem Proper.step {s : TimerState} (hs : Proper s) (a : Bool) :
    Proper (taskStep s 0 a true).1 :=
  ⟨fun i => Tally.once_move (hs.once i) (slotMove_timerStep s (.task 0 a true) i),
    small_taskStep hs.small 0 a true⟩

theorem expireOne_of_post {s : TimerState} (ph : Phase) {t : SlotId} {ts : List SlotId}
    (htmr : s.tmrHd = t :: ts) {alloc : Bool}
    (h : (s.timer t).key.handler ≠ 0 ∧ alloc = true ∧ (s.timer t).infombx = true) :
    expireOne s ph alloc = { s with
      tmrHd := ts
      expiredTmrHd := s.expiredTmrHd ++ [t]
      timer := Function.update s.timer t { s.timer t with enState := .tickPost }
      task := .post ph ⟨(s.timer t).key, t, (s.timer t).serial⟩ } := by
  rw [expireOne, htmr]
  exact if_pos h

theorem expireOne_of_not_post {s : TimerState} (ph : Phase) {t : SlotId} {ts : List SlotId}
    (htmr : s.tmrHd = t :: ts) {alloc : Bool}
    (h : ¬ ((s.timer t).key.handler ≠ 0 ∧ alloc = true ∧ (s.timer t).infombx = true)) :
    expireOne s ph alloc = expireNext { s with
      tmrHd := ts
      freeTmrHd := s.freeTmrHd ++ [t]
      timer := Function.update s.timer t { s.timer t with enState := .free } } ph := by
  rw [expireOne, htmr]
  exact if_neg h

/-- The first timer was dealt with as `_update_all_timer` does it, in one step of the task or, with
a post, in two. -/
theorem taskRuns_expireOne (alloc : ℕ → Bool) {s : TimerState} (hs : Proper s) {ph : Phase}
    (htask : s.task = .expire ph) {t : SlotId} {ts : List SlotId} (htmr : s.tmrHd = t :: ts)
    {w : Sweep SlotId} (hfree : w.lists.freeTmrHd = s.lists.freeTmrHd)
    (hexpired : w.lists.expiredTmrHd = s.lists.expiredTmrHd) :
    ∃ s₁ : TimerState, TaskRuns s (expireNext s₁ ph) ∧ Proper (expireNext s₁ ph) ∧
      s₁.tmrHd = ts ∧ s₁.msRemian = s.msRemian ∧
      ts.map (queuedAt s₁.timer s.msRemian) = ts.map (queuedAt s.timer s.msRemian) ∧
      s₁.lists.freeTmrHd
        = (w.expireOne alloc (queuedAt s.timer s.msRemian t)).lists.freeTmrHd ∧
      s₁.lists.expiredTmrHd
        = (w.expireOne alloc (queuedAt s.timer s.msRemian t)).lists.expiredTmrHd := by
  obtain ⟨hnodup, hfree', hexpired', -⟩ := hs.apart
  rw [htmr] at hnodup hfree' hexpired'
  have hts : t ∉ ts := (List.nodup_cons.mp hnodup).1
  have htfree : t ∉ s.freeTmrHd := fun h => (hfree' t h).1 List.mem_cons_self
  have htexp : t ∉ s.expiredTmrHd := fun h => hexpired' t h List.mem_cons_self
  obtain ⟨a, ha⟩ : ∃ a, (allocEvt alloc w.tries.evtRetry w.tries.allocs w.tries.delays).1 = a :=
    ⟨_, rfl⟩
  have hstep : (taskStep s 0 a true).1 = expireOne s ph a := by
    rw [taskStep, htask]
  have hproper := hs.step a
  rw [hstep] at hproper
  rw [TimerLists.expireOne_lists, ha]
  by_cases hpost : (s.timer t).key.handler ≠ 0 ∧ a = true ∧ (s.timer t).infombx = true
  · -- the step ends before the post, which is the next step
    rw [if_pos (by exact hpost)]
    have hone := expireOne_of_post ph htmr hpost
    have hnext : (taskStep (expireOne s ph a) 0 a true).1 = expireNext
        { expireOne s ph a with
          infoMbox := s.infoMbox ++ [⟨(s.timer t).key, t, (s.timer t).serial⟩] } ph := by
      rw [hone]
      rfl
    have hproper' := hproper.step a
    rw [hnext] at hproper'
    refine ⟨_, .head a ?_, hproper', ?_⟩
    · rw [hstep]
      exact .head a (hnext ▸ .refl _)
    · rw [hone]
      refine ⟨rfl, rfl, map_queuedAt_update hts _, ?_, ?_⟩
      · exact (map_queuedAt_update htfree _).trans hfree.symm
      · simp only [TimerState.lists, List.map_append, Sweep.post, hexpired]
        rw [map_queuedAt_update htexp]
        simp [queuedAt, Queued.setState]
  · rw [if_neg (by exact hpost)]
    have hone := expireOne_of_not_post ph htmr hpost
    rw [hone] at hstep hproper
    refine ⟨_, .head a (hstep ▸ .refl _), hproper, rfl, rfl, map_queuedAt_update hts _, ?_, ?_⟩
    · simp only [TimerState.lists, List.map_append, Sweep.free, hfree]
      rw [map_queuedAt_update htfree]
      simp [queuedAt, Queued.setState]
    · exact (map_queuedAt_update htexp _).trans hexpired.symm

theorem lists_expireNext (s : TimerState) (ph : Phase) : (expireNext s ph).lists = s.lists := by
  rw [expireNext]
  split <;> rfl

theorem ofNat_eq_zero_iff {n : ℕ} (h : n < 2 ^ 32) : UInt32.ofNat n = 0 ↔ n = 0 := by
  rw [UInt32.ofNat_eq_iff_mod_eq_toNat, Nat.mod_eq_of_lt h]
  rfl

/-- The loop from its first timer on. -/
theorem taskRuns_expireLoop (alloc : ℕ → Bool) {ph : Phase} {ts : List SlotId} {s : TimerState}
    (hs : Proper s) (htask : s.task = .expire ph) {t : SlotId} (htmr : s.tmrHd = t :: ts)
    {w : Sweep SlotId} (hfree : w.lists.freeTmrHd = s.lists.freeTmrHd)
    (hexpired : w.lists.expiredTmrHd = s.lists.expiredTmrHd) :
    ∃ s' : TimerState, TaskRuns s s' ∧ s'.task = ph.next ∧
      s'.lists = ((w.expireOne alloc (queuedAt s.timer s.msRemian t)).expireLoop alloc
        (ts.map (queuedAt s.timer s.msRemian))).lists := by
  induction ts generalizing s t w with
  | nil =>
    obtain ⟨s₁, hruns, -, htmr₁, -, -, hfree₁, hexpired₁⟩ :=
      taskRuns_expireOne alloc hs htask htmr hfree hexpired
    refine ⟨_, hruns, ?_, ?_⟩
    · rw [expireNext, htmr₁]
    · rw [lists_expireNext]
      have htmr' : s₁.lists.tmrHd = [] := congrArg (List.map _) htmr₁
      exact TimerLists.mk.injEq .. |>.mpr ⟨htmr', hfree₁, hexpired₁⟩
  | cons u us ih =>
    obtain ⟨s₁, hruns, hproper, htmr₁, hrem₁, htimer₁, hfree₁, hexpired₁⟩ :=
      taskRuns_expireOne alloc hs htask htmr hfree hexpired
    have htimer : (u :: us).map (queuedAt s₁.timer s₁.msRemian)
        = (u :: us).map (queuedAt s.timer s.msRemian) := by
      rw [hrem₁, htimer₁]
    obtain ⟨hu, hus⟩ := List.cons.inj htimer
    have hzero : (queuedAt s.timer s.msRemian u).msRemian = 0 ↔ s.msRemian u = 0 :=
      ofNat_eq_zero_iff (hs.small u)
    rw [List.map_cons, Sweep.expireLoop]
    by_cases hz : s.msRemian u = 0
    · have hnext : expireNext s₁ ph = { s₁ with task := .expire ph } := by
        have hz₁ : s₁.msRemian u = 0 := by rw [hrem₁, hz]
        simp [expireNext, htmr₁, hz₁]
      rw [hnext] at hruns hproper
      obtain ⟨s', hruns', htask', hlists'⟩ := ih (s := { s₁ with task := .expire ph }) hproper rfl
        htmr₁ (w := w.expireOne alloc (queuedAt s.timer s.msRemian t)) hfree₁.symm hexpired₁.symm
      refine ⟨s', hruns.trans hruns', htask', ?_⟩
      rw [if_pos (hzero.mpr hz), hlists', ← hu, ← hus]
    · refine ⟨_, hruns, ?_, ?_⟩
      · rw [expireNext, htmr₁]
        exact if_neg (by rwa [hrem₁])
      · rw [lists_expireNext, if_neg fun h => hz (hzero.mp h)]
        have htmr' : s₁.lists.tmrHd = (u :: us).map (queuedAt s.timer s.msRemian) := by
          rw [← htimer, ← htmr₁]
          rfl
        exact TimerLists.mk.injEq .. |>.mpr ⟨htmr', hfree₁, hexpired₁⟩

/-- The timer task carries out `_update_all_timer`: from its call in a proper state the machine gets
to its end with the lists that the function on lists computes, whichever allocations succeed. -/
theorem taskRuns_updateAllTimer {s : TimerState} (hs : Proper s) {ph : Phase} {xElapsed : ℕ}
    (hx : xElapsed < 2 ^ 32) (htask : s.task = .update ph xElapsed) (alloc : ℕ → Bool) :
    ∃ s' : TimerState, TaskRuns s s' ∧ s'.task = ph.next ∧
      s'.lists = (s.lists.updateAllTimer alloc (UInt32.ofNat xElapsed)).lists := by
  have hstep : (taskStep s 0 true true).1 = updateAllTimer s ph xElapsed := by
    rw [taskStep, htask]
  have hproper := hs.step true
  have hruns : TaskRuns s (updateAllTimer s ph xElapsed) := by
    rw [← hstep]
    exact .head true (.refl _)
  rw [hstep] at hproper
  rw [updateAllTimer] at hproper hruns
  cases htmr : s.tmrHd with
  | nil =>
    rw [htmr] at hruns
    refine ⟨_, hruns, rfl, ?_⟩
    have hlists : s.lists.tmrHd = [] := congrArg (List.map _) htmr
    rw [TimerLists.updateAllTimer, hlists]
    exact TimerLists.mk.injEq .. |>.mpr ⟨hlists.symm, rfl, rfl⟩
  | cons t ts =>
    rw [htmr] at hruns hproper
    have hlists : s.lists.tmrHd
        = queuedAt s.timer s.msRemian t :: ts.map (queuedAt s.timer s.msRemian) :=
      congrArg (List.map _) htmr
    have hlt : UInt32.ofNat xElapsed < (queuedAt s.timer s.msRemian t).msRemian ↔
        xElapsed < s.msRemian t := UInt32.ofNat_lt_iff_lt hx (hs.small t)
    rw [TimerLists.updateAllTimer, hlists]
    dsimp only at hruns hproper ⊢
    by_cases h : xElapsed < s.msRemian t
    · rw [if_pos h] at hruns
      rw [if_pos (hlt.mpr h)]
      obtain ⟨hnodup, hfree, hexpired, -⟩ := hs.apart
      rw [htmr] at hnodup hfree hexpired
      have hother : ∀ l : List SlotId, t ∉ l →
          l.map (queuedAt s.timer (Function.update s.msRemian t (s.msRemian t - xElapsed)))
            = l.map (queuedAt s.timer s.msRemian) := by
        intro l hl
        refine List.map_congr_left fun j hj => ?_
        have hjt : j ≠ t := fun hjt => hl (hjt ▸ hj)
        simp [queuedAt, hjt]
      refine ⟨_, hruns, rfl, TimerLists.mk.injEq .. |>.mpr ⟨?_, ?_, ?_⟩⟩
      · rw [List.map_cons, hother ts (List.nodup_cons.mp hnodup).1]
        simp [queuedAt, UInt32.ofNat_sub (Nat.le_of_lt h)]
      · exact hother s.freeTmrHd fun hj => (hfree t hj).1 List.mem_cons_self
      · exact hother s.expiredTmrHd fun hj => hexpired t hj List.mem_cons_self
    · rw [if_neg h] at hruns hproper
      rw [if_neg fun h' => h (hlt.mp h')]
      obtain ⟨s', hruns', htask', hlists'⟩ := taskRuns_expireLoop alloc
        (s := { s with tmrHd := t :: ts, task := .expire ph }) hproper rfl rfl
        (w := s.lists.sweep) rfl rfl
      exact ⟨s', hruns.trans hruns', htask', hlists'⟩

end Fullmac.Timer
