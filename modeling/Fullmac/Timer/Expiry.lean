import Fullmac.Timer.Deadlines
import Mathlib.Data.List.TakeWhile
import Mathlib.Data.Nat.Count

/-!
# Advancing the timers

Reference: `host/lib/ssv_timer.c`, `_update_all_timer`.

Which timers a call takes off the list depends on the list and the elapsed time alone: the first, if
it has run out, and those with nothing left right behind it (`taken`). `updateAllTimer_lists` says
what becomes of them. The rest of the elapsed time is lost, so the call advances the deadlines by
what it was given exactly when there is no rest or nothing to charge it to.

The retries for events are counted over the whole call by one `u32`. Its last decrement, at zero,
makes it as large as it can be, and from then on no failure gives up.
-/

namespace Fullmac.Timer

open Deltas

variable {α : Type*} {alloc : ℕ → Bool} {x : UInt32}

namespace Queued

/-- A timer that has run out. -/
def isDue (t : Queued α) : Bool := t.delta = 0

/-- `_update_all_timer` posts an event for a timer that has a handler and a mailbox. -/
def posts (t : Queued α) : Bool := t.os.key.handler ≠ 0 ∧ t.os.infombx

/-- The timer with `x` less to go. -/
def minus (t : Queued α) (x : UInt32) : Queued α := { t with msRemian := t.msRemian - x }

theorem delta_minus {t : Queued α} (h : x < t.msRemian) : (t.minus x).delta = t.delta - x.toNat :=
  UInt32.toNat_sub_of_le _ _ (UInt32.le_of_lt h)

theorem isDue_iff {t : Queued α} : t.isDue = true ↔ t.msRemian = 0 := by
  rw [isDue, decide_eq_true_iff, delta, ← UInt32.toNat_inj]
  rfl

end Queued

namespace TimerLists

/-! ## What a call takes off the list -/

/-- The timers that `_update_all_timer` takes off a list. -/
def taken (x : ℕ) : List (Queued α) → List (Queued α)
  | [] => []
  | t :: ts => if x < t.delta then [] else t :: ts.takeWhile Queued.isDue

/-- What it leaves of the list. -/
def left (x : UInt32) : List (Queued α) → List (Queued α)
  | [] => []
  | t :: ts => if x.toNat < t.delta then t.minus x :: ts else ts.dropWhile Queued.isDue

theorem expireLoop_eq (ts : List (Queued α)) (w : Sweep α) :
    w.expireLoop alloc ts
      = { (ts.takeWhile Queued.isDue).foldl (Sweep.expireOne alloc) w with
          lists := { ((ts.takeWhile Queued.isDue).foldl (Sweep.expireOne alloc) w).lists with
            tmrHd := ts.dropWhile Queued.isDue } } := by
  induction ts generalizing w with
  | nil => rfl
  | cons t ts ih =>
    rw [Sweep.expireLoop]
    by_cases ht : t.msRemian = 0
    · have hdue : t.isDue = true := Queued.isDue_iff.mpr ht
      rw [if_pos ht, ih, List.takeWhile_cons_of_pos hdue, List.dropWhile_cons_of_pos hdue]
      rfl
    · have hdue : ¬ t.isDue = true := fun h => ht (Queued.isDue_iff.mp h)
      rw [if_neg ht, List.takeWhile_cons_of_neg hdue, List.dropWhile_cons_of_neg hdue]
      rfl

/-- A call handles the timers it takes off the list one after another. -/
theorem updateAllTimer_eq (s : TimerLists α) :
    s.updateAllTimer alloc x
      = { (taken x.toNat s.tmrHd).foldl (Sweep.expireOne alloc) s.sweep with
          lists := { ((taken x.toNat s.tmrHd).foldl (Sweep.expireOne alloc) s.sweep).lists with
            tmrHd := left x s.tmrHd } } := by
  rw [updateAllTimer]
  cases hl : s.tmrHd with
  | nil =>
    obtain ⟨l, fr, ex⟩ := s
    cases hl
    rfl
  | cons t ts =>
    by_cases ht : x < t.msRemian
    · have hlt : x.toNat < t.delta := UInt32.lt_iff_toNat_lt.mp ht
      simp only [if_pos ht, taken, left, if_pos hlt]
      rfl
    · have hlt : ¬ x.toNat < t.delta := fun h => ht (UInt32.lt_iff_toNat_lt.mpr h)
      simp only [if_neg ht, taken, left, if_neg hlt, expireLoop_eq, List.foldl_cons]

@[simp] theorem updateAllTimer_tmrHd (s : TimerLists α) :
    (s.updateAllTimer alloc x).lists.tmrHd = left x s.tmrHd := by
  rw [updateAllTimer_eq]

/-! ## The elapsed time -/

/-- The timers of a list whose deadline has come when `x` has passed. -/
def due (x : ℕ) (l : List (Queued α)) : List (Queued α) := elapsed x (stamps id Queued.delta 0 l)

/-- Exactly the timers whose deadline has come have left the list, in the order of the list, and the
deadlines of the others are nearer by the elapsed time. -/
structure Advanced (x : ℕ) (before after : TimerLists α) : Prop where
  pending : deadlines after.tmrHd = advance x (deadlines before.tmrHd)
  posted : after.expiredTmrHd = before.expiredTmrHd
    ++ ((due x before.tmrHd).filter Queued.posts).map (fun t => t.setState .tickPost)
  freed : after.freeTmrHd = before.freeTmrHd
    ++ ((due x before.tmrHd).filter (fun t => ! t.posts)).map (fun t => t.setState .free)

/-- The first timer needs all of the elapsed time, or the timers behind it have nothing left. -/
def NoSurplus (x : ℕ) (l : List (Queued α)) : Prop :=
  ∀ t ts, l = t :: ts → x ≤ t.delta ∨ ∀ u ∈ ts, u.delta = 0

theorem noSurplus_nil {x : ℕ} : NoSurplus x ([] : List (Queued α)) := by
  simp [NoSurplus]

theorem noSurplus_cons {x : ℕ} {t : Queued α} {ts : List (Queued α)} :
    NoSurplus x (t :: ts) ↔ x ≤ t.delta ∨ ∀ u ∈ ts, u.delta = 0 := by
  refine ⟨fun h => h t ts rfl, fun h t' ts' heq => ?_⟩
  obtain ⟨rfl, rfl⟩ := List.cons.inj heq
  exact h

/-- The timers behind the first that have nothing left, and the first of the others. -/
theorem split_due (ts : List (Queued α)) :
    (∀ u ∈ ts.takeWhile Queued.isDue, u.delta = 0) ∧
      ts = ts.takeWhile Queued.isDue ++ ts.dropWhile Queued.isDue ∧
      ∀ u us, ts.dropWhile Queued.isDue = u :: us → 0 < u.delta := by
  refine ⟨fun u hu => ?_, (List.takeWhile_append_dropWhile).symm, fun u us hus => ?_⟩
  · simpa [Queued.isDue] using List.mem_takeWhile_imp hu
  · have hne : ts.dropWhile Queued.isDue ≠ [] := by simp [hus]
    have hhead := List.head_dropWhile_not Queued.isDue hne
    simp only [hus, List.head_cons] at hhead
    exact Nat.pos_of_ne_zero (by simpa [Queued.isDue] using hhead)

/-- With no surplus the timers that are taken off are those whose deadline has come. -/
theorem due_eq_taken {x : ℕ} {l : List (Queued α)} (h : NoSurplus x l) : due x l = taken x l := by
  cases l with
  | nil => rfl
  | cons t ts =>
    by_cases hx : x < t.delta
    · rw [taken, if_pos hx]
      exact elapsed_stamps_cons (by omega) ts
    · obtain ⟨hzero, hsplit, hhead⟩ := split_due ts
      have hx' : 0 + t.delta ≤ x := by omega
      have hrest : elapsed x (stamps id Queued.delta (0 + t.delta) (ts.dropWhile Queued.isDue))
          = [] := by
        cases hr : ts.dropWhile Queued.isDue with
        | nil => rfl
        | cons u us =>
          have hu := hhead u us hr
          rcases noSurplus_cons.mp h with hle | hall
          · exact elapsed_stamps_cons (by omega) us
          · have := hall u (by rw [hsplit, hr]; simp)
            omega
      have hts := elapsed_append_of_zero (f := id) hx' hzero (ts.dropWhile Queued.isDue)
      rw [← hsplit, hrest, List.append_nil, List.map_id] at hts
      rw [taken, if_neg hx, due, stamps_cons]
      simp only [elapsed, Nat.zero_add] at hts ⊢
      simp [hts, Nat.not_lt.mp hx]

/-- The deadlines that are left behind a first timer that has run out. -/
theorem advance_deadlines_of_le {x : ℕ} {t : Queued α} {ts : List (Queued α)} (h : t.delta ≤ x) :
    advance x (deadlines (t :: ts))
      = advance x (deadlinesFrom t.delta (ts.dropWhile Queued.isDue)) := by
  obtain ⟨hzero, hsplit, -⟩ := split_due ts
  have hrest := advance_append_of_zero (f := Queued.who) h hzero (ts.dropWhile Queued.isDue)
  rw [← hsplit] at hrest
  rw [deadlines, deadlinesFrom_cons, Nat.zero_add, deadlinesFrom, deadlinesFrom, ← hrest]
  simp [advance, h]

/-- With no surplus the deadlines advance by the elapsed time. -/
theorem deadlines_left {l : List (Queued α)} (h : NoSurplus x.toNat l) :
    deadlines (left x l) = advance x.toNat (deadlines l) := by
  cases l with
  | nil => rfl
  | cons t ts =>
    by_cases hx : x.toNat < t.delta
    · have hdelta : (t.minus x).delta = t.delta - x.toNat :=
        Queued.delta_minus (UInt32.lt_iff_toNat_lt.mpr hx)
      rw [left, if_pos hx, deadlines, deadlinesFrom_cons, hdelta, Nat.zero_add]
      have hleft := advance_stamps_cons (f := Queued.who) (d := Queued.delta) (b := 0)
        (x := x.toNat) (a := t) (by omega) ts
      rw [Nat.zero_add] at hleft
      exact hleft.symm
    · rw [left, if_neg hx, advance_deadlines_of_le (Nat.not_lt.mp hx)]
      obtain ⟨-, hsplit, hhead⟩ := split_due ts
      cases hr : ts.dropWhile Queued.isDue with
      | nil => rfl
      | cons u us =>
        have hu := hhead u us hr
        rcases noSurplus_cons.mp h with hle | hall
        · -- the first timer needed exactly the elapsed time
          have heq : t.delta = x.toNat := by omega
          have hleft := advance_stamps_cons (f := Queued.who) (d := Queued.delta) (b := t.delta)
            (x := x.toNat) (a := u) (by omega) us
          rw [deadlinesFrom, hleft, heq, Nat.add_sub_cancel_left, deadlines, deadlinesFrom_cons,
            Nat.zero_add]
          rfl
        · have := hall u (by rw [hsplit, hr]; simp)
          omega

/-- A surplus that could be charged to a timer is lost, and its deadline comes too late. -/
theorem noSurplus_of_deadlines {l : List (Queued α)}
    (h : deadlines (left x l) = advance x.toNat (deadlines l)) : NoSurplus x.toNat l := by
  cases l with
  | nil => exact noSurplus_nil
  | cons t ts =>
    rw [noSurplus_cons]
    by_contra hnot
    obtain ⟨hlt, hne⟩ := not_or.mp hnot
    have hx : ¬ x.toNat < t.delta := by omega
    obtain ⟨hzero, hsplit, hhead⟩ := split_due ts
    rw [left, if_neg hx, advance_deadlines_of_le (Nat.not_lt.mp hx)] at h
    cases hr : ts.dropWhile Queued.isDue with
    | nil =>
      rw [hr, List.append_nil] at hsplit
      exact hne (hsplit ▸ hzero)
    | cons u us =>
      rw [hr] at h
      by_cases hu : x.toNat < t.delta + u.delta
      · -- the first timer that is left is late by the surplus
        have hadv := advance_stamps_cons (f := Queued.who) (d := Queued.delta) hu us
        rw [deadlinesFrom, hadv, deadlines, deadlinesFrom_cons] at h
        have htime := congrArg Prod.snd (List.cons.inj h).1
        simp only at htime
        omega
      · -- it should have left
        have hlen := congrArg List.length h
        have hle : (advance x.toNat (deadlinesFrom (t.delta + u.delta) us)).length ≤ us.length := by
          rw [advance, List.length_map]
          exact (List.length_filter_le _ _).trans_eq (length_stamps us)
        have hskip : advance x.toNat (deadlinesFrom t.delta (u :: us))
            = advance x.toNat (deadlinesFrom (t.delta + u.delta) us) := by
          simp [advance, hu]
        rw [hskip, deadlines, deadlinesFrom, length_stamps, List.length_cons] at hlen
        omega

/-! ### What becomes of the timers -/

theorem allocEvt_true (r k d : ℕ) : allocEvt (fun _ => true) r k d = (true, ⟨r, k + 1, d⟩) := by
  cases r <;> rfl

/-- A timer is posted if it has a handler and a mailbox and gets an event, and freed if not. -/
theorem expireOne_lists (w : Sweep α) (t : Queued α) :
    (w.expireOne alloc t).lists =
      if t.os.key.handler ≠ 0 ∧
          (allocEvt alloc w.tries.evtRetry w.tries.allocs w.tries.delays).1 = true ∧
          t.os.infombx = true then (w.post t).lists
      else (w.free t).lists := by
  rw [Sweep.expireOne]
  by_cases hhandler : t.os.key.handler = 0
  · simp [hhandler]
  · simp only [hhandler, ne_eq, not_false_eq_true, true_and, if_false]
    split <;> rfl

theorem expireOne_true (w : Sweep α) (t : Queued α) :
    (w.expireOne (fun _ => true) t).lists
      = if t.posts then (w.post t).lists else (w.free t).lists := by
  rw [expireOne_lists, allocEvt_true]
  simp [Queued.posts]

/-- While every allocation succeeds, the timers with a handler and a mailbox are posted and the
others freed. -/
theorem foldl_expireOne_true (l : List (Queued α)) (w : Sweep α) :
    (l.foldl (Sweep.expireOne fun _ => true) w).lists.expiredTmrHd
        = w.lists.expiredTmrHd ++ (l.filter Queued.posts).map (fun t => t.setState .tickPost) ∧
      (l.foldl (Sweep.expireOne fun _ => true) w).lists.freeTmrHd
        = w.lists.freeTmrHd ++ (l.filter (fun t => ! t.posts)).map (fun t => t.setState .free) := by
  induction l generalizing w with
  | nil => simp
  | cons t l ih =>
    obtain ⟨hexpired, hfree⟩ := ih (w.expireOne (fun _ => true) t)
    rw [List.foldl_cons, hexpired, hfree, expireOne_true]
    by_cases ht : t.posts = true
    · simp [ht, Sweep.post]
    · simp [ht, Sweep.free]

/-- Advancing twice, when there is no surplus for the whole time. -/
theorem NoSurplus.split {l : List (Queued α)} {y z : ℕ} (h : NoSurplus (y + z) l)
    (hy : y = x.toNat) : NoSurplus x.toNat l ∧ NoSurplus z (left x l) := by
  cases l with
  | nil => exact ⟨noSurplus_nil, noSurplus_nil⟩
  | cons t ts =>
    have h' := noSurplus_cons.mp h
    refine ⟨noSurplus_cons.mpr (h'.imp_left fun hle => by omega), ?_⟩
    by_cases hx : x.toNat < t.delta
    · rw [left, if_pos hx, noSurplus_cons,
        Queued.delta_minus (UInt32.lt_iff_toNat_lt.mpr hx)]
      exact h'.imp_left fun hle => by omega
    · rw [left, if_neg hx]
      rcases h' with hle | hall
      · intro u us _
        exact .inl (by omega)
      · have hnone : ts.dropWhile Queued.isDue = [] := by
          rw [List.dropWhile_eq_nil_iff]
          intro u hu
          simpa [Queued.isDue] using hall u hu
        rw [hnone]
        exact noSurplus_nil

/-- The deadlines determine the list. -/
theorem deadlines_inj {l l' : List (Queued α)} (h : deadlines l = deadlines l') : l = l' := by
  have hinj : Function.Injective fun t : Queued α => (t.who, t.delta) := by
    rintro ⟨tmr, os, ms⟩ ⟨tmr', os', ms'⟩ heq
    simp only [Queued.who, Queued.delta, Prod.mk.injEq, UInt32.toNat_inj] at heq
    obtain ⟨⟨rfl, rfl⟩, rfl⟩ := heq
    rfl
  exact List.map_injective_iff.mpr hinj (stamps_inj h)

/-- **A call advances the timers by the time it is given exactly when there is no surplus.** With
every allocation succeeding, `_update_all_timer` takes off the list exactly the timers whose
deadline has come, in order, brings all other deadlines nearer by the elapsed time, and does the
same in two calls as in one, if and only if the list is empty, the elapsed time is at most the
remaining time of the first timer, or all timers behind the first have no time left. -/
theorem updateAllTimer_advanced_iff (s : TimerLists α) (x : UInt32) :
    (Advanced x.toNat s (s.updateAllTimer (fun _ => true) x).lists ∧
        ∀ y z : UInt32, y.toNat + z.toNat = x.toNat →
          ((s.updateAllTimer (fun _ => true) y).lists.updateAllTimer (fun _ => true) z).lists.tmrHd
            = (s.updateAllTimer (fun _ => true) x).lists.tmrHd) ↔
      NoSurplus x.toNat s.tmrHd := by
  constructor
  · rintro ⟨⟨hpending, -, -⟩, -⟩
    rw [updateAllTimer_tmrHd] at hpending
    exact noSurplus_of_deadlines hpending
  · intro h
    refine ⟨⟨?_, ?_, ?_⟩, fun y z hyz => ?_⟩
    · rw [updateAllTimer_tmrHd, deadlines_left h]
    · rw [updateAllTimer_eq, due_eq_taken h]
      exact (foldl_expireOne_true _ _).1
    · rw [updateAllTimer_eq, due_eq_taken h]
      exact (foldl_expireOne_true _ _).2
    · simp only [updateAllTimer_tmrHd]
      rw [← hyz] at h
      obtain ⟨hy, hz⟩ := h.split rfl
      refine deadlines_inj ?_
      rw [deadlines_left hz, deadlines_left hy, advance_advance, hyz]
      rw [hyz] at h
      exact (deadlines_left h).symm

/-- After 15 units the second of two timers of ten units each still has ten to go, not five. -/
theorem updateAllTimer_loses_surplus :
    ¬ Advanced 15 twoTens (twoTens.updateAllTimer (fun _ => true) 15).lists := by
  intro h
  have hpending := h.pending
  revert hpending
  decide

end TimerLists

/-! ## The retries -/

/-- How many of the first `n` calls of `msg_evt_alloc` fail. -/
def fails (alloc : ℕ → Bool) (n : ℕ) : ℕ := Nat.count (fun k => alloc k = false) n

theorem fails_le_add (alloc : ℕ → Bool) (n m : ℕ) :
    fails alloc n ≤ fails alloc (n + m) ∧ fails alloc (n + m) ≤ fails alloc n + m := by
  rw [fails, fails, Nat.count_add]
  exact ⟨Nat.le_add_right _ _, Nat.add_le_add_left (Nat.count_le _) _⟩

/-- A stretch of failures. -/
theorem fails_add_of_forall {k j : ℕ} (h : ∀ i < j, alloc (k + i) = false) :
    fails alloc (k + j) = fails alloc k + j := by
  rw [fails, fails, Nat.count_add, Nat.count_iff_forall.mpr h]

theorem fails_succ_of_true {k : ℕ} (h : alloc k = true) : fails alloc (k + 1) = fails alloc k := by
  simp [fails, Nat.count_succ, h]

theorem fails_succ_of_false {k : ℕ} (h : alloc k = false) :
    fails alloc (k + 1) = fails alloc k + 1 := by
  simp [fails, Nat.count_succ, h]

/-- An allocation succeeds after some retries, or uses all of them up and one more call. -/
theorem allocEvt_cases (alloc : ℕ → Bool) (r k d : ℕ) :
    (∃ j ≤ r, allocEvt alloc r k d = (true, ⟨r - j, k + j + 1, d + j⟩) ∧
        (∀ i < j, alloc (k + i) = false) ∧ alloc (k + j) = true) ∨
      allocEvt alloc r k d = (false, ⟨2 ^ 32 - 1, k + r + 1, d + r⟩) ∧
        ∀ i < r + 1, alloc (k + i) = false := by
  induction r generalizing k d with
  | zero =>
    rw [allocEvt]
    by_cases h : alloc k = true
    · exact .inl ⟨0, Nat.le_refl 0, by rw [if_pos h]; rfl, by simp, h⟩
    · refine .inr ⟨by rw [if_neg h]; rfl, fun i hi => ?_⟩
      obtain rfl : i = 0 := by omega
      simpa using h
  | succ r ih =>
    rw [allocEvt]
    by_cases h : alloc k = true
    · exact .inl ⟨0, Nat.zero_le _, by rw [if_pos h]; rfl, by simp, h⟩
    · have hfirst : alloc k = false := by simpa using h
      have hshift : ∀ i, k + (i + 1) = k + 1 + i := fun i => by omega
      -- the failure at `k` comes before those of the retries
      have hfails : ∀ j, (∀ i < j, alloc (k + 1 + i) = false) →
          ∀ i < j + 1, alloc (k + i) = false := by
        intro j hj i hi
        cases i with
        | zero => exact hfirst
        | succ i => rw [hshift]; exact hj i (by omega)
      rw [if_neg h]
      rcases ih (k + 1) (d + 1) with ⟨j, hj, heq, hfail, hok⟩ | ⟨heq, hfail⟩
      · refine .inl ⟨j + 1, by omega, ?_, hfails j hfail, by rw [hshift]; exact hok⟩
        rw [heq]
        simp only [Prod.mk.injEq, Tries.mk.injEq, true_and]
        omega
      · refine .inr ⟨?_, hfails (r + 1) hfail⟩
        rw [heq]
        simp only [Prod.mk.injEq, Tries.mk.injEq, true_and]
        omega

/-- How far the retries of a call are used up when events for `m` timers have been asked for: some
are left and none was wasted; the last was used and a timer given up; or there were more. -/
inductive Budget (alloc : ℕ → Bool) (m : ℕ) (t : Tries) : Prop
  | within (hle : t.delays ≤ 30) (hretry : t.evtRetry + t.delays = 30)
      (hallocs : t.allocs = m + t.delays) (hfails : fails alloc t.allocs = t.delays)
  | spent (hdelays : t.delays = 30) (hretry : t.evtRetry = 2 ^ 32 - 1)
      (hallocs : t.allocs = m + 30) (hfails : fails alloc t.allocs = 31)
  | exceeded (hdelays : 30 < t.delays) (hfails : 31 < fails alloc (m + 30))

/-- What went over the budget stays over it. -/
theorem Budget.of_exceeded {m : ℕ} {t : Tries} (hdelays : 30 < t.delays)
    (hfails : 31 < fails alloc (m + 30)) : Budget alloc (m + 1) t := by
  have hmono := (fails_le_add alloc (m + 30) 1).1
  have hm : m + 1 + 30 = m + 30 + 1 := by omega
  exact .exceeded hdelays (by rw [hm]; omega)

/-- With the retries used up, the next failure goes over the budget: `evt_retry` has wrapped, and
there is a delay. -/
theorem Budget.of_spent {m : ℕ} {t t' : Tries} (hallocs : t.allocs = m + 30)
    (hfails : fails alloc t.allocs = 31) (hfirst : alloc t.allocs = false)
    (hdelays : 30 < t'.delays) : Budget alloc (m + 1) t' := by
  have hnext := fails_succ_of_false hfirst
  have hm : m + 1 + 30 = t.allocs + 1 := by omega
  exact .exceeded hdelays (by rw [hm]; omega)

theorem Budget.allocEvt {m : ℕ} {t : Tries} (h : Budget alloc m t) :
    Budget alloc (m + 1) (allocEvt alloc t.evtRetry t.allocs t.delays).2 := by
  rcases allocEvt_cases alloc t.evtRetry t.allocs t.delays with
    ⟨j, hj, heq, hfail, hok⟩ | ⟨heq, hfail⟩
  · have hsum := fails_add_of_forall hfail
    have hlast := fails_succ_of_true hok
    rw [heq]
    cases h with
    | within hle hretry hallocs hfails =>
      exact .within (by simp only; omega) (by simp only; omega) (by simp only; omega)
        (by simp only; omega)
    | spent hdelays hretry hallocs hfails =>
      by_cases hzero : j = 0
      · subst hzero
        exact .spent (by simp only; omega) (by simp only; omega) (by simp only; omega)
          (by simp only; omega)
      · have hfirst : alloc t.allocs = false := hfail 0 (Nat.pos_of_ne_zero hzero)
        exact .of_spent hallocs hfails hfirst (by simp only; omega)
    | exceeded hdelays hfails => exact .of_exceeded (by simp only; omega) hfails
  · have hsum := fails_add_of_forall hfail
    rw [heq]
    cases h with
    | within hle hretry hallocs hfails =>
      rw [← Nat.add_assoc] at hsum
      exact .spent (by simp only; omega) rfl (by simp only; omega) (by simp only; omega)
    | spent hdelays hretry hallocs hfails =>
      have hfirst : alloc t.allocs = false := hfail 0 (Nat.succ_pos _)
      exact .of_spent hallocs hfails hfirst (by simp only; omega)
    | exceeded hdelays hfails => exact .of_exceeded (by simp only; omega) hfails

namespace TimerLists

/-- The timers of a list for which an event is wanted. -/
def withHandler (l : List (Queued α)) : ℕ := l.countP (fun t => t.os.key.handler ≠ 0)

theorem budget_foldl {m : ℕ} {w : Sweep α} (h : Budget alloc m w.tries) (l : List (Queued α)) :
    Budget alloc (m + withHandler l) (l.foldl (Sweep.expireOne alloc) w).tries := by
  induction l generalizing m w with
  | nil => exact h
  | cons t l ih =>
    rw [List.foldl_cons, withHandler]
    by_cases ht : t.os.key.handler = 0
    · have hone : (w.expireOne alloc t).tries = w.tries := by
        rw [Sweep.expireOne, if_pos ht]
        rfl
      rw [List.countP_cons_of_neg (by simpa using ht)]
      exact ih (hone ▸ h)
    · have hone : (w.expireOne alloc t).tries
          = (allocEvt alloc w.tries.evtRetry w.tries.allocs w.tries.delays).2 := by
        rw [Sweep.expireOne, if_neg ht]
        dsimp only
        split <;> rfl
      have hm : m + (withHandler l + 1) = m + 1 + withHandler l := by omega
      rw [List.countP_cons_of_pos (by simpa using ht)]
      change Budget alloc (m + (withHandler l + 1)) _
      rw [hm]
      exact ih (hone ▸ h.allocEvt)

end TimerLists

/-- A timer was posted or returned to the free list. -/
def Sweep.Disposed (w : Sweep α) (t : Queued α) : Prop :=
  t.setState .tickPost ∈ w.lists.expiredTmrHd ∧ (t.os.key, t.tmr) ∈ w.posted ∨
    t.setState .free ∈ w.lists.freeTmrHd

theorem Sweep.disposed_expireOne (w : Sweep α) (t u : Queued α) (h : w.Disposed u ∨ u = t) :
    (w.expireOne alloc t).Disposed u := by
  have hfree : ∀ w : Sweep α, w.Disposed u ∨ u = t → (w.free t).Disposed u := by
    rintro w ((h | h) | rfl)
    · exact .inl h
    · exact .inr (List.mem_append_left _ h)
    · exact .inr (List.mem_append_right _ List.mem_cons_self)
  have hpost : ∀ w : Sweep α, w.Disposed u ∨ u = t → (w.post t).Disposed u := by
    rintro w ((h | h) | rfl)
    · exact .inl ⟨List.mem_append_left _ h.1, List.mem_append_left _ h.2⟩
    · exact .inr h
    · exact .inl ⟨List.mem_append_right _ List.mem_cons_self,
        List.mem_append_right _ List.mem_cons_self⟩
  rw [Sweep.expireOne]
  split
  · exact hfree w h
  · dsimp only
    split
    · exact hpost _ h
    · exact hfree _ h

theorem Sweep.disposed_foldl {l : List (Queued α)} {u : Queued α} {w : Sweep α}
    (h : w.Disposed u ∨ u ∈ l) : (l.foldl (Sweep.expireOne alloc) w).Disposed u := by
  induction l generalizing w with
  | nil => exact h.resolve_right (by simp)
  | cons t l ih =>
    refine ih ?_
    rcases h with h | h
    · exact .inl (w.disposed_expireOne t u (.inl h))
    · rcases List.mem_cons.mp h with heq | h
      · exact .inl (w.disposed_expireOne t u (.inr heq))
      · exact .inr h

namespace TimerLists

/-- **A call delays at most thirty times exactly when few allocations fail.** Let `m` timers with a
handler leave the list. `_update_all_timer` calls `OS_TickDelay` at most thirty times and posts or
frees every timer that leaves, if and only if at most thirty-one of the first `m + 30` calls of
`msg_evt_alloc` fail. -/
theorem updateAllTimer_retries_iff (s : TimerLists α) (x : UInt32) (alloc : ℕ → Bool) :
    ((s.updateAllTimer alloc x).tries.delays ≤ 30 ∧
        ∀ t ∈ taken x.toNat s.tmrHd, (s.updateAllTimer alloc x).Disposed t) ↔
      fails alloc (withHandler (taken x.toNat s.tmrHd) + 30) ≤ 31 := by
  have hstart : Budget alloc 0 s.sweep.tries :=
    .within (Nat.zero_le 30) rfl rfl (Nat.count_zero _)
  have hend := budget_foldl hstart (taken x.toNat s.tmrHd)
  rw [Nat.zero_add] at hend
  have hdisposed : ∀ t ∈ taken x.toNat s.tmrHd, (s.updateAllTimer alloc x).Disposed t := by
    intro t ht
    rw [updateAllTimer_eq]
    exact Sweep.disposed_foldl (w := s.sweep) (.inr ht)
  rw [and_iff_left hdisposed, updateAllTimer_eq]
  dsimp only
  cases hend with
  | within hle hretry hallocs hfails =>
    -- of the calls that were not made, as many may fail as there are retries left
    have hrest := (fails_le_add alloc
      (withHandler (taken x.toNat s.tmrHd)
        + ((taken x.toNat s.tmrHd).foldl (Sweep.expireOne alloc) s.sweep).tries.delays)
      (30 - ((taken x.toNat s.tmrHd).foldl (Sweep.expireOne alloc) s.sweep).tries.delays)).2
    rw [← hallocs, hfails, hallocs, Nat.add_assoc, Nat.add_sub_cancel' hle] at hrest
    omega
  | spent hdelays hretry hallocs hfails =>
    rw [hallocs] at hfails
    omega
  | exceeded hdelays hfails => omega

/-- Two timers that have run out. -/
def twoDue : TimerLists ℕ where
  tmrHd := [⟨0, ⟨⟨1, 0, 0⟩, true, .cntDwn, 0⟩, 0⟩, ⟨1, ⟨⟨1, 1, 0⟩, true, .cntDwn, 1⟩, 0⟩]
  freeTmrHd := []
  expiredTmrHd := []

/-- With thirty-two failures the first timer uses all retries up and is given up, and the next
failure, that of the second timer, is retried again. -/
theorem updateAllTimer_thirtyFirst_retry :
    ¬ (twoDue.updateAllTimer (fun k => 32 ≤ k) 0).tries.delays ≤ 30 := by
  decide

end TimerLists

end Fullmac.Timer
