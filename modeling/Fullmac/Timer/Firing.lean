import Fullmac.Timer.Protocol

/-!
# The timers follow the firing protocol

`fires_timerStep` shows that every step of the machine that loses nothing is a step of the protocol,
so the results about the protocol hold of the code. The one thing that remains a condition is that a
cancel leaves no timer of its key counting: the walk of `_cancel_timer` over the counting list ends
at the first match that has time left, so a second timer with the same key behind it survives.
-/

namespace Fullmac.Timer

def TimerState.view (s : TimerState) : View :=
  ⟨s.timer, s.inFlight, s.tmrHd, s.events, s.serial⟩

/-! ## The machine follows the protocol -/

/-- No timer with this key counts behind another one that has time left. -/
def NoTwin (s : TimerState) (key : TimerKey) : Prop :=
  s.tmrHd.Pairwise fun t t' =>
    (s.timer t).key = key → 0 < s.msRemian t → (s.timer t').key ≠ key

instance (s : TimerState) (key : TimerKey) : Decidable (NoTwin s key) :=
  inferInstanceAs (Decidable (List.Pairwise _ _))

/-- The key of the `TMR_EVT_CANCEL` message the timer task is about to handle. -/
def TaskPc.cancelling : TaskPc → Option TimerKey
  | .handle (some (.cancel key _)) => some key
  | _ => none

/-- If the step handles a `TMR_EVT_CANCEL`, no twin of a timer with its key is counting. -/
def Unshadowed (s : TimerState) : TimerIn → Prop
  | .task _ _ _ => ∀ key ∈ s.task.cancelling, NoTwin s key
  | _ => True

instance (s : TimerState) : DecidablePred (Unshadowed s)
  | .task _ _ _ => inferInstanceAs (Decidable (∀ key ∈ s.task.cancelling, NoTwin s key))
  | .create _ _ _ _ _ => inferInstanceAs (Decidable True)
  | .cancel _ _ _ => inferInstanceAs (Decidable True)
  | .fetch _ => inferInstanceAs (Decidable True)
  | .timeout => inferInstanceAs (Decidable True)
  | .expired => inferInstanceAs (Decidable True)
  | .release _ _ => inferInstanceAs (Decidable True)

/-- What stays on the list stays in its order. -/
theorem cancelWalk_sublist (timer : SlotId → OsTimer) (key : TimerKey) (l : List SlotId)
    (rem : SlotId → ℕ) : (cancelWalk timer key l rem).1.Sublist l := by
  induction l with
  | nil => exact List.Sublist.refl _
  | cons t ts ih =>
    rw [cancelWalk]
    split
    · split
      · exact List.sublist_cons_self t ts
      · exact ih.cons t
    · exact ih.cons_cons t

/-- Without a twin the walk takes out every timer of the key. -/
theorem cancelWalk_clean {timer : SlotId → OsTimer} {key : TimerKey} {l : List SlotId}
    {rem : SlotId → ℕ}
    (h : l.Pairwise fun t t' => (timer t).key = key → 0 < rem t → (timer t').key ≠ key) :
    ∀ i ∈ (cancelWalk timer key l rem).1, (timer i).key ≠ key := by
  induction l with
  | nil => simp [cancelWalk]
  | cons t ts ih =>
    rw [List.pairwise_cons] at h
    rw [cancelWalk]
    split
    · rename_i hkey
      split
      · rename_i hpos
        exact fun i hi => h.1 i hi hkey hpos
      · exact ih h.2
    · rename_i hkey
      intro i hi
      rcases List.mem_cons.mp hi with rfl | hi
      · exact hkey
      · exact ih h.2 i hi

/-- Leaving the expiry loop or going on with it cannot be seen. -/
theorem view_expireNext (s : TimerState) (ph : Phase) :
    (expireNext s ph).view = TimerState.view { s with task := .expire ph } := by
  rw [expireNext]
  split
  · simp [TimerState.view, TimerState.inFlight, TimerState.events]
  · simp only [TimerState.view, TimerState.inFlight, TimerState.events]
    split <;> simp

section goodStates

variable {s : TimerState} (hgood : ∀ i, (s.tally i).Good)
include hgood

/-- An expired slot is neither armed nor free. -/
theorem not_armed_of_expired {i : SlotId} (h : i ∈ s.expiredTmrHd) : i ∉ s.view.armed := by
  have hpos := List.count_pos_iff.mpr h
  have once := (hgood i).once
  simp only [TimerState.tally] at once
  have hzero : (s.creates ++ s.tmrHd).count i = 0 := by
    rw [List.count_append]
    omega
  exact List.count_eq_zero.mp hzero

/-- The slot of an undelivered event is expired. -/
theorem expired_of_undelivered {i : SlotId} (h : i ∈ s.undelivered) : i ∈ s.expiredTmrHd := by
  have hpos := List.count_pos_iff.mpr h
  have awaited := (hgood i).awaited
  simp only [TimerState.tally] at awaited
  exact List.count_pos_iff.mp (by omega)

theorem expired_of_event {ev : ExpiryEvent} (h : ev ∈ s.events) : ev.tmr ∈ s.expiredTmrHd :=
  expired_of_undelivered hgood
    (List.mem_append_right _ (List.mem_map_of_mem h))

/-- A slot that is not expired has no event. -/
theorem no_event_of_not_expired {i : SlotId} (h : i ∉ s.expiredTmrHd) :
    ∀ ev ∈ s.events, ev.tmr ≠ i := by
  rintro ev hev rfl
  exact h (expired_of_event hgood hev)

theorem not_expired_of_armed {i : SlotId} (h : i ∈ s.view.armed) : i ∉ s.expiredTmrHd :=
  fun he => not_armed_of_expired hgood he h

/-- A free slot is neither armed nor expired. -/
theorem not_used_of_free {i : SlotId} (h : i ∈ s.freeTmrHd) :
    i ∉ s.view.armed ∧ i ∉ s.expiredTmrHd := by
  have hpos := List.count_pos_iff.mpr h
  have once := (hgood i).once
  simp only [TimerState.tally] at once
  have hzero : (s.creates ++ s.tmrHd).count i = 0 := by
    rw [List.count_append]
    omega
  exact ⟨List.count_eq_zero.mp hzero, List.count_eq_zero.mp (by omega)⟩

/-- While a `TMR_EVT_FREE` message for a slot is in flight there is no event for it. -/
theorem freeing {i : SlotId} (h : i ∈ s.frees) :
    i ∉ s.view.armed ∧ ∀ ev ∈ s.events, ev.tmr ≠ i := by
  have hpos := List.count_pos_iff.mpr h
  obtain ⟨once, awaited⟩ := hgood i
  simp only [TimerState.tally] at once awaited
  refine ⟨not_armed_of_expired hgood (List.count_pos_iff.mp (by omega)), ?_⟩
  rintro ev hev rfl
  have hmem : ev.tmr ∈ s.undelivered := List.mem_append_right _ (List.mem_map_of_mem hev)
  have hpos' := List.count_pos_iff.mpr hmem
  omega

theorem fires_osCreateTimer (ms : ℕ) (key : TimerKey) (mbx alloc post : Bool)
    (hl : Lossless s (.create ms key mbx alloc post)) (clean : Prop) :
    Fires clean s.view (osCreateTimer s ms key mbx alloc post).1.view
      (osCreateTimer s ms key mbx alloc post).2 := by
  rw [osCreateTimer]
  split
  · exact .stay
  · rename_i i rest hfree
    obtain ⟨harmed, hexpired⟩ := not_used_of_free hgood (i := i) (by simp [hfree])
    have hposted : alloc = true ∧ post = true := by
      rcases hl with hnil | hposted
      · simp [hfree] at hnil
      · exact hposted
    rw [if_pos hposted]
    have hfires := Fires.create (c := clean) i key mbx harmed
      (no_event_of_not_expired hgood hexpired)
    simpa [TimerState.view, TimerState.inFlight, TimerState.events] using hfires

theorem fires_expireOne (ph : Phase) (htask : s.task = .expire ph) (alloc : Bool) (clean : Prop) :
    Fires clean s.view (expireOne s ph alloc).view [] := by
  rw [expireOne]
  split
  · have hview : TimerState.view { s with task := ph.next } = s.view := by
      simp [TimerState.view, TimerState.inFlight, TimerState.events, htask]
    rw [hview]
    exact .stay
  · rename_i t ts htmr
    have hevents := no_event_of_not_expired hgood (not_expired_of_armed hgood (i := t)
      (List.mem_append_right _ (by simp [TimerState.view, htmr])))
    split
    · have hfires := Fires.expire (c := clean) (v := s.view) t ts htmr hevents
      simpa [TimerState.view, TimerState.inFlight, TimerState.events, htask] using hfires
    · rw [view_expireNext]
      have hfires := Fires.giveUp (c := clean) (v := s.view) t ts htmr hevents
      simpa [TimerState.view, TimerState.inFlight, TimerState.events, htask] using hfires

/-- A cancel does not touch the slots that stay on the counting list or in a message. -/
theorem cancelTimer_timer_of_armed (key : TimerKey) {i : SlotId}
    (h : i ∈ s.creates ++ (cancelWalk s.timer key s.tmrHd s.msRemian).1) :
    (cancelTimer s key).timer i = s.timer i := by
  have hcount := count_cancelWalk s.timer key i s.tmrHd s.msRemian
  have once := (hgood i).once
  have hpos := List.count_pos_iff.mpr h
  simp only [TimerState.tally] at once
  rw [List.count_append] at hpos
  have hremoved : i ∉ (cancelWalk s.timer key s.tmrHd s.msRemian).2.1 :=
    List.count_eq_zero.mp (by omega)
  have hexpired : i ∉ s.expiredTmrHd := List.count_eq_zero.mp (by omega)
  simp [cancelTimer, hremoved, hexpired]

/-- It marks the expired slots of its key. -/
theorem cancelTimer_timer_of_expired (key : TimerKey) {i : SlotId} (h : i ∈ s.expiredTmrHd) :
    (cancelTimer s key).timer i
      = if (s.timer i).key = key then { s.timer i with enState := .cancel } else s.timer i := by
  have hcount := count_cancelWalk s.timer key i s.tmrHd s.msRemian
  have once := (hgood i).once
  have hpos := List.count_pos_iff.mpr h
  simp only [TimerState.tally] at once
  have hremoved : i ∉ (cancelWalk s.timer key s.tmrHd s.msRemian).2.1 :=
    List.count_eq_zero.mp (by omega)
  simp [cancelTimer, hremoved, h]

theorem fires_handleMsg (m : TmrMsg) (htask : s.task = .handle (some m)) (xElapsed : ℕ)
    {clean : Prop} (hclean : ∀ key before, m = .cancel key before → clean → NoTwin s key) :
    Fires clean s.view
      (TimerState.view { (handleMsg s m).1 with task := .update .second xElapsed })
      (handleMsg s m).2 := by
  have hmsg : s.view.inFlight = m :: s.tmrMbox := by
    simp [TimerState.view, TimerState.inFlight, htask]
  cases m with
  | create i =>
    have harmed : i ∈ s.view.armed := by
      simp [View.armed, hmsg, TmrMsg.created]
    have hperm : (insertTimer i (s.msRemian i) s.tmrHd s.msRemian).1.Perm (i :: s.tmrHd) := by
      rw [List.perm_iff_count]
      intro j
      rw [count_insertTimer, List.count_cons]
      simp
    have hfires := Fires.arm (c := clean) (v := s.view) i s.tmrMbox _ hmsg hperm
      (no_event_of_not_expired hgood (not_expired_of_armed hgood harmed))
    simpa [handleMsg, createTimer, TimerState.view, TimerState.inFlight, TimerState.events, htask]
      using hfires
  | cancel key before =>
    have hfires := Fires.cancel (c := clean) (v := s.view) key before s.tmrMbox
      (cancelWalk s.timer key s.tmrHd s.msRemian).1 (cancelTimer s key).timer hmsg
      (cancelWalk_sublist _ _ _ _) ?_ ?_
      (fun hc => cancelWalk_clean (hclean key before rfl hc))
    · simpa [handleMsg, cancelTimer, TimerState.view, TimerState.inFlight, TimerState.events,
        htask] using hfires
    · intro i hi
      refine cancelTimer_timer_of_armed hgood key ?_
      simpa [TimerState.creates, TimerState.inFlight, htask, TmrMsg.created] using hi
    · intro ev hev
      exact cancelTimer_timer_of_expired hgood key (expired_of_event hgood hev)
  | free i =>
    obtain ⟨harmed, hevents⟩ := freeing hgood (i := i)
      (by simp [TimerState.frees, TimerState.inFlight, htask, TmrMsg.freed])
    have hfires := Fires.free (c := clean) (v := s.view) i s.tmrMbox
      ((freeTimer s i).timer i) hmsg harmed hevents
    have htimer : (freeTimer s i).timer = Function.update s.timer i ((freeTimer s i).timer i) := by
      rw [freeTimer]
      split <;> simp
    have hrest : (freeTimer s i).tmrHd = s.tmrHd ∧ (freeTimer s i).tmrMbox = s.tmrMbox ∧
        (freeTimer s i).infoMbox = s.infoMbox ∧ (freeTimer s i).serial = s.serial := by
      rw [freeTimer]
      split <;> exact ⟨rfl, rfl, rfl, rfl⟩
    obtain ⟨htmr, hmbox, hinfo, hserial⟩ := hrest
    simp only [handleMsg, TimerState.view, TimerState.inFlight, TimerState.events, htmr, hmbox,
      hinfo, hserial, htask] at hfires ⊢
    rw [htimer]
    simpa using hfires

theorem fires_taskStep (xElapsed : ℕ) (alloc post : Bool)
    (hl : Lossless s (.task xElapsed alloc post)) :
    Fires (Unshadowed s (.task xElapsed alloc post)) s.view
      (taskStep s xElapsed alloc post).1.view (taskStep s xElapsed alloc post).2 := by
  rw [taskStep]
  split
  · exact .stay
  · rename_i ph e htask
    have hview : (updateAllTimer s ph e).view = s.view := by
      rw [updateAllTimer]
      split
      · simp [TimerState.view, TimerState.inFlight, TimerState.events, htask]
      · split <;> simp [TimerState.view, TimerState.inFlight, TimerState.events, htask]
    rw [hview]
    exact .stay
  · rename_i ph htask
    exact fires_expireOne hgood ph htask alloc _
  · rename_i ph ev htask
    have hpost : post = true := by simpa [Lossless, htask] using hl
    have hview : (expireNext { s with
        infoMbox := if post then s.infoMbox ++ [ev] else s.infoMbox } ph).view = s.view := by
      rw [view_expireNext]
      simp [TimerState.view, TimerState.inFlight, TimerState.events, htask, hpost]
    rw [hview]
    exact .stay
  · rename_i htask
    have hview : TimerState.view { s with task := .update .second xElapsed } = s.view := by
      simp [TimerState.view, TimerState.inFlight, TimerState.events, htask]
    rw [hview]
    exact .stay
  · rename_i m htask
    refine fires_handleMsg hgood m htask xElapsed ?_
    rintro key before rfl hclean
    exact hclean key (by simp [htask, TaskPc.cancelling])

/-- Every step of the machine that loses nothing is a step of the protocol. -/
theorem fires_timerStep (inp : TimerIn) (hl : Lossless s inp) :
    Fires (Unshadowed s inp) s.view (timerStep s inp).1.view (timerStep s inp).2 := by
  cases inp with
  | create ms key mbx alloc post => exact fires_osCreateTimer hgood ms key mbx alloc post hl _
  | cancel key alloc post =>
    simp only [timerStep, osCancelTimer]
    split
    · have hfires := Fires.postCancel (v := s.view) (c := Unshadowed s (.cancel key alloc post)) key
      simpa [TimerState.view, TimerState.inFlight, TimerState.events] using hfires
    · exact .stay
  | fetch xElapsed =>
    have hview : (fetchMsg s xElapsed).view = s.view := by
      rw [fetchMsg]
      split
      · rename_i m ms htask hmbox
        simp [TimerState.view, TimerState.inFlight, TimerState.events, htask, hmbox]
      · rfl
    simp only [timerStep, hview]
    exact .stay
  | timeout =>
    have hview : (fetchTimeout s).view = s.view := by
      rw [fetchTimeout]
      split
      · rename_i t ts htask htmr
        simp [TimerState.view, TimerState.inFlight, TimerState.events, htask]
      · rfl
    simp only [timerStep, hview]
    exact .stay
  | task xElapsed alloc post => exact fires_taskStep hgood xElapsed alloc post hl
  | expired =>
    simp only [timerStep, osTimerExpired]
    split
    · rename_i ev evs hhandling hmbox
      have hfires := Fires.deliver (v := s.view) (c := Unshadowed s .expired) ev
        (evs ++ s.task.events) (by simp [TimerState.view, TimerState.events, hmbox])
      exact hfires
    · exact .stay
  | release alloc post =>
    simp only [timerStep, osFreeTimer]
    split
    · exact .stay
    · rename_i tmr hhandling
      have hposted : alloc = true ∧ post = true := by
        rcases hl with hnone | hposted
        · simp [hhandling] at hnone
        · exact hposted
      have hfires := Fires.postFree (v := s.view) (c := Unshadowed s (.release alloc post)) tmr
      simpa [TimerState.view, TimerState.inFlight, TimerState.events, hposted] using hfires

end goodStates

/-! ## Whole runs -/

/-- What holds along every run that loses nothing. -/
structure Firing (s : TimerState) (tr : List TimerOut) : Prop where
  good : ∀ i, (s.tally i).Good
  pending : (invoked tr : Multiset (TimerKey × ℕ)) + s.view.pending
    ≤ (created tr : Multiset (TimerKey × ℕ))
  serials : (created tr).map Prod.snd = List.range s.serial

theorem firing_timerRun (is : List TimerIn) (h : Machine.Meets timerStep Lossless osTimerInit is) :
    Firing (timerRun is).1 (timerRun is).2 := by
  refine Machine.run_induction_of_meets (C := Lossless) (P := fun s _ tr => Firing s tr)
    ⟨good_osTimerInit, ?_, rfl⟩ ?_ is h
  · simp [TimerState.view, View.pending, View.armed, osTimerInit, TimerState.inFlight,
      TimerState.events, invoked, created]
  · intro s _ tr inp hl hf
    have hfires := fires_timerStep hf.good inp hl
    refine ⟨fun i => (hf.good i).move (not_not_intro hl) (slotMove_timerStep s inp i), ?_, ?_⟩
    · rw [invoked_append, created_append, ← Multiset.coe_add, ← Multiset.coe_add, add_assoc]
      calc (invoked tr : Multiset (TimerKey × ℕ))
            + ((invoked (timerStep s inp).2 : Multiset (TimerKey × ℕ))
              + (timerStep s inp).1.view.pending)
          ≤ (invoked tr : Multiset (TimerKey × ℕ))
            + ((created (timerStep s inp).2 : Multiset (TimerKey × ℕ)) + s.view.pending) :=
            add_le_add_right hfires.pending_le _
        _ = ((invoked tr : Multiset (TimerKey × ℕ)) + s.view.pending)
            + (created (timerStep s inp).2 : Multiset (TimerKey × ℕ)) := by abel
        _ ≤ (created tr : Multiset (TimerKey × ℕ))
            + (created (timerStep s inp).2 : Multiset (TimerKey × ℕ)) :=
            add_le_add_left hf.pending _
    · rw [created_append, List.map_append, hf.serials]
      exact hfires.serial

theorem settled_osTimerInit : Settled osTimerInit.view [] := by
  constructor <;> simp [osTimerInit, TimerState.view, TimerState.inFlight, TimerState.events,
    CancelRespected]

theorem settled_timerRun (is : List TimerIn)
    (h : Machine.Meets timerStep (fun s inp => Lossless s inp ∧ Unshadowed s inp) osTimerInit is) :
    Settled (timerRun is).1.view (timerRun is).2 := by
  have hboth := Machine.run_induction_of_meets
    (P := fun s _ tr => (∀ i, (s.tally i).Good) ∧ Settled s.view tr)
    ⟨good_osTimerInit, settled_osTimerInit⟩
    (fun s _ tr inp hinp hs =>
      ⟨fun i => (hs.1 i).move (not_not_intro hinp.1) (slotMove_timerStep s inp i),
        hs.2.step (fires_timerStep hs.1 inp hinp.1) hinp.2⟩) is h
  exact hboth.2

/-- **The firing protocol.** In every run that loses no message, each creation has its own serial
number and its handler runs at most once, and no slot is free while an expiry event for it is
undelivered. If moreover no cancel is handled while a timer of its key counts behind another one
with time left, then no handler runs for a timer created before a cancel of its key once that cancel
has been handled. -/
theorem timerRun_firing (is : List TimerIn)
    (h : Machine.Meets timerStep Lossless osTimerInit is) :
    (((created (timerRun is).2).map Prod.snd).Nodup ∧
      (invoked (timerRun is).2).Subperm (created (timerRun is).2)) ∧
    (∀ i ∈ (timerRun is).1.freeTmrHd, i ∉ (timerRun is).1.undelivered) ∧
    (Machine.Meets timerStep Unshadowed osTimerInit is → CancelRespected (timerRun is).2) := by
  have hf := firing_timerRun is h
  refine ⟨⟨?_, ?_⟩, fun i hi hu => ?_, fun hclean => ?_⟩
  · rw [hf.serials]
    exact List.nodup_range
  · exact Multiset.coe_le.mp ((Multiset.le_add_right _ _).trans hf.pending)
  · exact (not_used_of_free hf.good hi).2 (expired_of_undelivered hf.good hu)
  · exact (settled_timerRun is (Machine.meets_and h hclean)).respected

/-- A timer counts, a second one is created with another key, and the first is cancelled. -/
def cancelOneOps : List TimerIn :=
  [.create 10 ⟨1, 0, 0⟩ true true true, .create 20 ⟨2, 0, 0⟩ true true true,
    .cancel ⟨1, 0, 0⟩ true true] ++
  (List.replicate 3 [.fetch 0, .task 0 true true, .task 0 true true, .task 0 true true]).flatten ++
  [.timeout, .task 0 true true, .task 0 true true, .task 0 true true, .expired]

/-- Only the second one runs. -/
theorem timerRun_firing_cancelOne :
    CancelRespected (timerRun cancelOneOps).2 :=
  (timerRun_firing cancelOneOps (by decide +kernel)).2.2 (by decide +kernel)

/-- The same with one key for both. -/
def cancelTwinOps : List TimerIn :=
  [.create 10 ⟨1, 0, 0⟩ true true true, .create 20 ⟨1, 0, 0⟩ true true true,
    .cancel ⟨1, 0, 0⟩ true true] ++
  (List.replicate 3 [.fetch 0, .task 0 true true, .task 0 true true, .task 0 true true]).flatten ++
  [.timeout, .task 0 true true, .task 0 true true, .task 0 true true, .expired]

/-- The second timer survives the cancel and runs, without any failure. -/
theorem timerRun_cancelled_twin_runs :
    Machine.Meets timerStep Lossless osTimerInit cancelTwinOps ∧
      ¬ CancelRespected (timerRun cancelTwinOps).2 := by
  have htrace : (timerRun cancelTwinOps).2
      = [.created ⟨1, 0, 0⟩ 0, .created ⟨1, 0, 0⟩ 1, .cancelled ⟨1, 0, 0⟩ 2,
          .invoked ⟨1, 0, 0⟩ 1] := by
    decide +kernel
  refine ⟨by decide +kernel, ?_⟩
  rw [htrace]
  simp [CancelRespected]

end Fullmac.Timer
