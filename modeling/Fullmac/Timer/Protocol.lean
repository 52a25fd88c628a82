import Fullmac.Timer.Slots
import Mathlib.Algebra.Order.Group.Multiset
import Mathlib.Tactic.Abel

/-!
# The firing protocol

For the question which handlers run, most of the timer state does not matter: only the messages in
flight, the counting list, the undelivered events and what the slots say about their timers. `View`
is that part, and `Fires` lists what one step can do to it, as a protocol between the callers, the
timer task and the handler task.

A created timer is pending, first in a message, then on the counting list, then in an event, until
it is run or given up, so it runs at most once (`Fires.pending_le`). A cancel is handled after every
create posted before it, and takes the timers of its key off the counting list and out of the
events. If it leaves none of them counting, then none of them runs later (`Settled`).
-/

namespace Fullmac.Timer

/-! ## The protocol -/

/-- The part of the state that decides which handlers run. -/
structure View where
  timer : SlotId → OsTimer
  inFlight : List TmrMsg
  tmrHd : List SlotId
  events : List ExpiryEvent
  serial : ℕ

/-- The slots of the timers that have been created and have not run out yet. -/
def View.armed (v : View) : List SlotId := v.inFlight.flatMap TmrMsg.created ++ v.tmrHd

/-- What one step can do. `c` says that a cancel handled in this step leaves no timer of its key
counting. -/
inductive Fires (c : Prop) (v : View) : View → List TimerOut → Prop
  | stay : Fires c v v []
  | create (i : SlotId) (key : TimerKey) (mbx : Bool) (harmed : i ∉ v.armed)
      (hevents : ∀ ev ∈ v.events, ev.tmr ≠ i) :
      Fires c v
        { v with
          timer := Function.update v.timer i
            { v.timer i with key := key, infombx := mbx, serial := v.serial }
          inFlight := v.inFlight ++ [.create i]
          serial := v.serial + 1 }
        [.created key v.serial]
  | postCancel (key : TimerKey) :
      Fires c v { v with inFlight := v.inFlight ++ [.cancel key v.serial] } []
  | postFree (i : SlotId) : Fires c v { v with inFlight := v.inFlight ++ [.free i] } []
  | expire (t : SlotId) (ts : List SlotId) (htmr : v.tmrHd = t :: ts)
      (hevents : ∀ ev ∈ v.events, ev.tmr ≠ t) :
      Fires c v
        { v with
          timer := Function.update v.timer t { v.timer t with enState := .tickPost }
          tmrHd := ts
          events := v.events ++ [⟨(v.timer t).key, t, (v.timer t).serial⟩] }
        []
  | giveUp (t : SlotId) (ts : List SlotId) (htmr : v.tmrHd = t :: ts)
      (hevents : ∀ ev ∈ v.events, ev.tmr ≠ t) :
      Fires c v
        { v with
          timer := Function.update v.timer t { v.timer t with enState := .free }
          tmrHd := ts }
        []
  | arm (i : SlotId) (rest : List TmrMsg) (hd : List SlotId) (hmsg : v.inFlight = .create i :: rest)
      (hhd : hd.Perm (i :: v.tmrHd)) (hevents : ∀ ev ∈ v.events, ev.tmr ≠ i) :
      Fires c v
        { v with
          timer := Function.update v.timer i { v.timer i with enState := .cntDwn }
          inFlight := rest
          tmrHd := hd }
        []
  | cancel (key : TimerKey) (before : ℕ) (rest : List TmrMsg) (kept : List SlotId)
      (timer : SlotId → OsTimer) (hmsg : v.inFlight = .cancel key before :: rest)
      (hkept : kept.Sublist v.tmrHd)
      (harmed : ∀ i ∈ rest.flatMap TmrMsg.created ++ kept, timer i = v.timer i)
      (hevents : ∀ ev ∈ v.events, timer ev.tmr =
        if (v.timer ev.tmr).key = key then { v.timer ev.tmr with enState := .cancel }
        else v.timer ev.tmr)
      (hclean : c → ∀ i ∈ kept, (v.timer i).key ≠ key) :
      Fires c v { v with timer := timer, inFlight := rest, tmrHd := kept }
        [.cancelled key before]
  | free (i : SlotId) (rest : List TmrMsg) (t : OsTimer) (hmsg : v.inFlight = .free i :: rest)
      (harmed : i ∉ v.armed) (hevents : ∀ ev ∈ v.events, ev.tmr ≠ i) :
      Fires c v { v with timer := Function.update v.timer i t, inFlight := rest } []
  | deliver (ev : ExpiryEvent) (evs : List ExpiryEvent) (hevents : v.events = ev :: evs) :
      Fires c v { v with events := evs }
        (if (v.timer ev.tmr).enState = .tickPost then [.invoked ev.key ev.serial] else [])

/-! ## At most one run for each creation -/

/-- The timers created in a run, with their serial numbers. -/
def created (tr : List TimerOut) : List (TimerKey × ℕ) :=
  tr.filterMap fun
    | .created key serial => some (key, serial)
    | _ => none

/-- The handlers run, with the serial numbers of the timers they were run for. -/
def invoked (tr : List TimerOut) : List (TimerKey × ℕ) :=
  tr.filterMap fun
    | .invoked key serial => some (key, serial)
    | _ => none

@[simp] theorem created_append (tr tr' : List TimerOut) :
    created (tr ++ tr') = created tr ++ created tr' := by
  simp [created]

@[simp] theorem invoked_append (tr tr' : List TimerOut) :
    invoked (tr ++ tr') = invoked tr ++ invoked tr' := by
  simp [invoked]

/-- Which timer a slot holds. -/
def OsTimer.tag (t : OsTimer) : TimerKey × ℕ := (t.key, t.serial)

/-- The timers that may still run. -/
def View.pending (v : View) : Multiset (TimerKey × ℕ) :=
  (v.armed.map fun i => (v.timer i).tag : List (TimerKey × ℕ))
    + (v.events.map fun ev => (ev.key, ev.serial) : List (TimerKey × ℕ))

/-- Changing a slot that is not armed does not change which timers are. -/
theorem tags_update_of_not_mem {l : List SlotId} {i : SlotId} (h : i ∉ l)
    (timer : SlotId → OsTimer) (t : OsTimer) :
    (l.map fun j => (Function.update timer i t j).tag) = l.map fun j => (timer j).tag := by
  refine List.map_congr_left fun j hj => ?_
  rw [Function.update_of_ne]
  rintro rfl
  exact h hj

/-- Changing the state of a slot does not change which timer it holds. -/
@[simp] theorem tag_update_enState (timer : SlotId → OsTimer) (i j : SlotId) (st : EnTmrState) :
    (Function.update timer i { timer i with enState := st } j).tag = (timer j).tag := by
  by_cases h : j = i
  · subst h; simp [OsTimer.tag]
  · simp [Function.update_of_ne h]

/-- The pending timers, by where they are. -/
theorem View.pending_le {v w : View} {inp out : List (TimerKey × ℕ)}
    (harmed : (out ++ w.armed.map fun i => (w.timer i).tag).Subperm
      (inp ++ v.armed.map fun i => (v.timer i).tag))
    (hevents : w.events = v.events) :
    (out : Multiset (TimerKey × ℕ)) + w.pending ≤ (inp : Multiset (TimerKey × ℕ)) + v.pending := by
  simp only [View.pending, hevents, Multiset.coe_add]
  rw [← List.append_assoc, ← List.append_assoc]
  exact Multiset.coe_le.mpr (harmed.append (List.Subperm.refl _))

/-- A step runs only pending timers, and only creations add to them. -/
theorem Fires.pending_le {clean : Prop} {v w : View} {out : List TimerOut}
    (h : Fires clean v w out) :
    (invoked out : Multiset (TimerKey × ℕ)) + w.pending
      ≤ (created out : Multiset (TimerKey × ℕ)) + v.pending := by
  cases h with
  | stay => exact le_rfl
  | create i key mbx harmed hevents =>
    refine View.pending_le (List.Perm.subperm ?_) rfl
    -- the new slot says what was asked for, the other armed slots what they said before
    have hperm : (v.inFlight.flatMap TmrMsg.created ++ i :: v.tmrHd).Perm (i :: v.armed) :=
      List.perm_middle
    have hsame := tags_update_of_not_mem harmed v.timer
      { v.timer i with key := key, infombx := mbx, serial := v.serial }
    have htags := hperm.map fun j => (Function.update v.timer i
      { v.timer i with key := key, infombx := mbx, serial := v.serial } j).tag
    rw [List.map_cons, hsame] at htags
    simpa [View.armed, TmrMsg.created, invoked, created, OsTimer.tag] using htags
  | postCancel key =>
    refine View.pending_le (List.Perm.subperm ?_) rfl
    simp [View.armed, TmrMsg.created, invoked, created]
  | postFree i =>
    refine View.pending_le (List.Perm.subperm ?_) rfl
    simp [View.armed, TmrMsg.created, invoked, created]
  | expire t ts htmr hevents =>
    -- the timer moves from the counting list to the events
    simp only [View.pending, View.armed, htmr, List.map_append, List.map_cons, List.map_nil,
      tag_update_enState, ← Multiset.coe_add, ← Multiset.cons_coe, Multiset.coe_nil]
    rw [show ((v.timer t).key, (v.timer t).serial) = (v.timer t).tag from rfl]
    refine le_of_eq ?_
    simp only [invoked, created, List.filterMap_nil, Multiset.coe_nil, ← Multiset.singleton_add]
    abel
  | giveUp t ts htmr hevents =>
    refine View.pending_le (List.Sublist.subperm ?_) rfl
    simp [View.armed, htmr, invoked, created]
  | arm i rest hd hmsg hhd hevents =>
    refine View.pending_le (List.Perm.subperm ?_) rfl
    have htags : (rest.flatMap TmrMsg.created ++ hd).Perm
        (i :: (rest.flatMap TmrMsg.created ++ v.tmrHd)) :=
      (hhd.append_left _).trans List.perm_middle
    simpa [View.armed, hmsg, TmrMsg.created, invoked, created] using
      htags.map fun j => (v.timer j).tag
  | cancel key before rest kept timer hmsg hkept harmed hevents hclean =>
    refine View.pending_le (List.Sublist.subperm ?_) rfl
    have hsame : ((rest.flatMap TmrMsg.created ++ kept).map fun i => (timer i).tag)
        = (rest.flatMap TmrMsg.created ++ kept).map fun i => (v.timer i).tag :=
      List.map_congr_left fun i hi => by rw [harmed i hi]
    simp only [View.armed, hmsg, hsame, List.flatMap_cons, TmrMsg.created, List.nil_append, invoked,
      created]
    exact ((List.Sublist.refl _).append hkept).map _
  | free i rest t hmsg harmed hevents =>
    refine View.pending_le (List.Perm.subperm ?_) rfl
    have hsame := tags_update_of_not_mem harmed v.timer t
    simp only [View.armed, hmsg, List.flatMap_cons, TmrMsg.created, List.nil_append] at hsame ⊢
    rw [hsame]
    rfl
  | deliver ev evs hevents =>
    simp only [View.pending, hevents, List.map_cons, ← Multiset.cons_coe, ← Multiset.singleton_add]
    split
    · simp only [invoked, created, List.filterMap_cons, List.filterMap_nil, Multiset.coe_singleton,
        Multiset.coe_nil, zero_add]
      refine le_of_eq ?_
      rw [View.armed, View.armed]
      abel
    · simp only [invoked, created, List.filterMap_nil, Multiset.coe_nil, zero_add]
      rw [add_left_comm]
      exact Multiset.le_add_left _ _

/-- Serial numbers are given out one by one. -/
theorem Fires.serial {clean : Prop} {v w : View} {out : List TimerOut} (h : Fires clean v w out) :
    List.range v.serial ++ (created out).map Prod.snd = List.range w.serial := by
  cases h with
  | create i key mbx harmed hevents => simp [created, List.range_succ]
  | deliver ev evs hevents =>
    split <;> simp [created]
  | _ => simp [created]

/-! ## A cancelled timer does not run -/

/-- A handler run behind a handled cancel of its key belongs to a timer created behind that cancel.
-/
def CancelRespected (tr : List TimerOut) : Prop :=
  tr.Pairwise fun o o' => ∀ key before serial, o = .cancelled key before →
    o' = .invoked key serial → before ≤ serial

/-- What the cancels handled so far have settled, and the cancels in flight will. -/
structure Settled (v : View) (tr : List TimerOut) : Prop where
  /-- An event and its slot name the same timer. -/
  tagged : ∀ ev ∈ v.events, (v.timer ev.tmr).key = ev.key
  /-- A create in flight behind a cancel was posted behind it. -/
  order : v.inFlight.Pairwise fun m m' => ∀ key before i, m = .cancel key before →
    m' = .create i → before ≤ (v.timer i).serial
  stamped : ∀ key before, .cancel key before ∈ v.inFlight → before ≤ v.serial
  counted : ∀ key before, .cancelled key before ∈ tr → before ≤ v.serial
  armed : ∀ key before, .cancelled key before ∈ tr → ∀ i ∈ v.armed, (v.timer i).key = key →
    before ≤ (v.timer i).serial
  events : ∀ key before, .cancelled key before ∈ tr → ∀ ev ∈ v.events, ev.key = key →
    (v.timer ev.tmr).enState = .tickPost → before ≤ ev.serial
  respected : CancelRespected tr

theorem cancelRespected_concat {tr : List TimerOut} {o : TimerOut} :
    CancelRespected (tr ++ [o]) ↔ CancelRespected tr ∧
      ∀ key before serial, .cancelled key before ∈ tr → o = .invoked key serial →
        before ≤ serial := by
  rw [CancelRespected, List.pairwise_append]
  constructor
  · rintro ⟨htr, -, hcross⟩
    exact ⟨htr, fun key before serial hmem ho =>
      hcross _ hmem o (by simp) key before serial rfl ho⟩
  · rintro ⟨htr, hcross⟩
    refine ⟨htr, List.pairwise_singleton _ _, ?_⟩
    rintro o₁ ho₁ o₂ ho₂ key before serial rfl h₂
    rw [List.mem_singleton.mp ho₂] at h₂
    exact hcross key before serial ho₁ h₂

theorem mem_armed_of_create {v : View} {i : SlotId} (h : .create i ∈ v.inFlight) : i ∈ v.armed := by
  refine List.mem_append_left _ (List.mem_flatMap.mpr ⟨_, h, ?_⟩)
  simp [TmrMsg.created]

/-- Nothing is unsettled by taking messages, armed timers and events away. -/
theorem Settled.shrink {v w : View} {tr : List TimerOut} (hs : Settled v tr)
    (hserial : w.serial = v.serial) (hmsgs : w.inFlight.Sublist v.inFlight)
    (harmed : ∀ i ∈ w.armed, i ∈ v.armed ∧ (w.timer i).tag = (v.timer i).tag)
    (hevents : ∀ ev ∈ w.events, ev ∈ v.events ∧ (w.timer ev.tmr).key = (v.timer ev.tmr).key ∧
      ((w.timer ev.tmr).enState = .tickPost → (v.timer ev.tmr).enState = .tickPost)) :
    Settled w tr where
  tagged ev hev := by
    rw [(hevents ev hev).2.1]
    exact hs.tagged ev (hevents ev hev).1
  order := by
    refine (hs.order.sublist hmsgs).imp_of_mem ?_
    rintro m m' - hm' hle key before i rfl rfl
    have htag := (harmed i (mem_armed_of_create hm')).2
    rw [show (w.timer i).serial = (v.timer i).serial from congrArg Prod.snd htag]
    exact hle key before i rfl rfl
  stamped key before hmem := by
    rw [hserial]
    exact hs.stamped key before (hmsgs.subset hmem)
  counted key before hmem := by
    rw [hserial]
    exact hs.counted key before hmem
  armed key before hmem i hi hkey := by
    obtain ⟨hi', htag⟩ := harmed i hi
    rw [show (w.timer i).serial = (v.timer i).serial from congrArg Prod.snd htag]
    refine hs.armed key before hmem i hi' ?_
    rw [← hkey]
    exact (congrArg Prod.fst htag).symm
  events key before hmem ev hev hkey hpost := by
    obtain ⟨hev', -, hstate⟩ := hevents ev hev
    exact hs.events key before hmem ev hev' hkey (hstate hpost)
  respected := hs.respected

/-- A message that is not a create may be posted, if it is a cancel with the current stamp. -/
theorem Settled.post {v : View} {tr : List TimerOut} (hs : Settled v tr) (m : TmrMsg)
    (hm : m.created = []) (hstamp : ∀ key before, m = .cancel key before → before ≤ v.serial) :
    Settled { v with inFlight := v.inFlight ++ [m] } tr where
  tagged := hs.tagged
  order := by
    refine List.pairwise_append.mpr ⟨hs.order, List.pairwise_singleton _ _, ?_⟩
    rintro m₁ - m₂ hm₂ key before i - rfl
    rw [← List.mem_singleton.mp hm₂] at hm
    cases hm
  stamped key before hmem := by
    rcases List.mem_append.mp hmem with hmem | hmem
    · exact hs.stamped key before hmem
    · exact hstamp key before (List.mem_singleton.mp hmem).symm
  counted := hs.counted
  armed key before hmem i hi := by
    refine hs.armed key before hmem i ?_
    simpa [View.armed, hm] using hi
  events := hs.events
  respected := hs.respected

/-- A new timer is behind every cancel posted or handled so far. -/
theorem Settled.create {v : View} {tr : List TimerOut} (hs : Settled v tr) {i : SlotId}
    (key : TimerKey) (mbx : Bool) (harmed : i ∉ v.armed) (hevents : ∀ ev ∈ v.events, ev.tmr ≠ i) :
    Settled
      { v with
        timer := Function.update v.timer i
          { v.timer i with key := key, infombx := mbx, serial := v.serial }
        inFlight := v.inFlight ++ [.create i]
        serial := v.serial + 1 }
      (tr ++ [.created key v.serial]) where
  tagged ev hev := by
    simp only [Function.update_of_ne (hevents ev hev)]
    exact hs.tagged ev hev
  order := by
    refine List.pairwise_append.mpr ⟨?_, List.pairwise_singleton _ _, ?_⟩
    · refine hs.order.imp_of_mem ?_
      rintro m m' - hm' hle k before j rfl rfl
      have hne : j ≠ i := fun hji => harmed (hji ▸ mem_armed_of_create hm')
      simp only [Function.update_of_ne hne]
      exact hle k before j rfl rfl
    · rintro m hm m' hm' k before j rfl rfl
      obtain rfl : j = i := by simpa using hm'
      simp only [Function.update_self]
      exact hs.stamped k before hm
  stamped k before hmem := by
    have hle := hs.stamped k before (by simpa using hmem)
    exact Nat.le_succ_of_le hle
  counted k before hmem := by
    have hle := hs.counted k before (by simpa using hmem)
    exact Nat.le_succ_of_le hle
  armed k before hmem j hj hkey := by
    have hmem' : .cancelled k before ∈ tr := by simpa using hmem
    by_cases hji : j = i
    · subst hji
      simp only [Function.update_self]
      exact hs.counted k before hmem'
    · simp only [Function.update_of_ne hji] at hkey ⊢
      refine hs.armed k before hmem' j ?_ hkey
      simpa [View.armed, TmrMsg.created, hji] using hj
  events k before hmem ev hev hkey hpost := by
    simp only [Function.update_of_ne (hevents ev hev)] at hpost
    exact hs.events k before (by simpa using hmem) ev hev hkey hpost
  respected := cancelRespected_concat.mpr ⟨hs.respected, fun _ _ _ _ ho => by cases ho⟩

/-- A timer that runs out takes what was settled about it along into its event. -/
theorem Settled.expire {v : View} {tr : List TimerOut} (hs : Settled v tr) {t : SlotId}
    {ts : List SlotId} (htmr : v.tmrHd = t :: ts) (hevents : ∀ ev ∈ v.events, ev.tmr ≠ t) :
    Settled
      { v with
        timer := Function.update v.timer t { v.timer t with enState := .tickPost }
        tmrHd := ts
        events := v.events ++ [⟨(v.timer t).key, t, (v.timer t).serial⟩] }
      tr := by
  have ht : t ∈ v.armed := List.mem_append_right _ (by simp [htmr])
  -- without the new event this only takes away
  have hless : Settled { v with
      timer := Function.update v.timer t { v.timer t with enState := .tickPost }
      tmrHd := ts } tr := by
    refine hs.shrink rfl (List.Sublist.refl _) (fun i hi => ⟨?_, by simp⟩) fun ev hev => ⟨hev, ?_⟩
    · simp only [View.armed, htmr, List.mem_append, List.mem_cons] at hi ⊢
      tauto
    · simp [Function.update_of_ne (hevents ev hev)]
  refine ⟨?_, hless.order, hless.stamped, hless.counted, hless.armed, ?_, hless.respected⟩
  · intro ev hev
    rcases List.mem_append.mp hev with hev | hev
    · exact hless.tagged ev hev
    · rw [List.mem_singleton.mp hev]
      simp
  · intro key before hmem ev hev hkey hpost
    rcases List.mem_append.mp hev with hev | hev
    · exact hless.events key before hmem ev hev hkey hpost
    · rw [List.mem_singleton.mp hev] at hkey ⊢
      exact hs.armed key before hmem t ht hkey

/-- Handling a cancel settles every timer of its key created before it was posted. -/
theorem Settled.cancel {v : View} {tr : List TimerOut} (hs : Settled v tr) {key : TimerKey}
    {before : ℕ} {rest : List TmrMsg} {kept : List SlotId} {timer : SlotId → OsTimer}
    (hmsg : v.inFlight = .cancel key before :: rest) (hkept : kept.Sublist v.tmrHd)
    (harmed : ∀ i ∈ rest.flatMap TmrMsg.created ++ kept, timer i = v.timer i)
    (hevents : ∀ ev ∈ v.events, timer ev.tmr =
      if (v.timer ev.tmr).key = key then { v.timer ev.tmr with enState := .cancel }
      else v.timer ev.tmr)
    (hclean : ∀ i ∈ kept, (v.timer i).key ≠ key) :
    Settled { v with timer := timer, inFlight := rest, tmrHd := kept }
      (tr ++ [.cancelled key before]) := by
  have hless : Settled { v with timer := timer, inFlight := rest, tmrHd := kept } tr := by
    refine hs.shrink rfl (by rw [hmsg]; exact List.sublist_cons_self _ _)
      (fun i hi => ⟨?_, congrArg OsTimer.tag (harmed i hi)⟩) fun ev hev => ⟨hev, ?_⟩
    · have hsub : (rest.flatMap TmrMsg.created ++ kept).Sublist v.armed := by
        rw [View.armed, hmsg]
        exact (List.Sublist.refl _).append hkept
      exact hsub.subset hi
    · simp only [hevents ev hev]
      split <;> simp
  -- the cancels handled are the earlier ones and this one
  have hcases : ∀ {k n}, .cancelled k n ∈ tr ++ [.cancelled key before] →
      .cancelled k n ∈ tr ∨ (k = key ∧ n = before) := by
    intro k n hmem
    simpa using hmem
  refine ⟨hless.tagged, hless.order, hless.stamped, ?_, ?_, ?_, ?_⟩
  · intro k n hmem
    rcases hcases hmem with hmem | ⟨-, rfl⟩
    · exact hless.counted k n hmem
    · exact hs.stamped key n (by simp [hmsg])
  · intro k n hmem i hi hkey
    rcases hcases hmem with hmem | ⟨rfl, rfl⟩
    · exact hless.armed k n hmem i hi hkey
    · -- a timer in a message was created behind the cancel, one still counting has another key
      have htimer : timer i = v.timer i := harmed i hi
      simp only [htimer] at hkey ⊢
      rcases List.mem_append.mp hi with hcreate | hcount
      · obtain ⟨m, hm, hmi⟩ := List.mem_flatMap.mp hcreate
        have horder := hs.order
        rw [hmsg, List.pairwise_cons] at horder
        cases m with
        | create j =>
          obtain rfl : i = j := by simpa [TmrMsg.created] using hmi
          exact horder.1 _ hm k n i rfl rfl
        | cancel _ _ => cases hmi
        | free _ => cases hmi
      · exact absurd hkey (hclean i hcount)
  · intro k n hmem ev hev hkey hpost
    rcases hcases hmem with hmem | ⟨rfl, rfl⟩
    · exact hless.events k n hmem ev hev hkey hpost
    · simp only [hevents ev hev, hs.tagged ev hev, if_pos hkey] at hpost
      cases hpost
  · exact cancelRespected_concat.mpr ⟨hs.respected, fun _ _ _ _ ho => by cases ho⟩

/-- The handler task only runs timers that no cancel has settled. -/
theorem Settled.deliver {v : View} {tr : List TimerOut} (hs : Settled v tr) {ev : ExpiryEvent}
    {evs : List ExpiryEvent} (hevents : v.events = ev :: evs) :
    Settled { v with events := evs }
      (tr ++ if (v.timer ev.tmr).enState = .tickPost then [.invoked ev.key ev.serial] else []) := by
  have hless : Settled { v with events := evs } tr :=
    hs.shrink rfl (List.Sublist.refl _) (fun i hi => ⟨hi, rfl⟩)
      fun e he => ⟨by rw [hevents]; exact List.mem_cons_of_mem _ he, rfl, id⟩
  split
  · rename_i hpost
    have hmem : ∀ {k n}, .cancelled k n ∈ tr ++ [.invoked ev.key ev.serial] →
        .cancelled k n ∈ tr := by
      intro k n h
      simpa using h
    refine ⟨hless.tagged, hless.order, hless.stamped, fun k n h => hless.counted k n (hmem h),
      fun k n h => hless.armed k n (hmem h), fun k n h => hless.events k n (hmem h),
      cancelRespected_concat.mpr ⟨hs.respected, ?_⟩⟩
    intro key before serial hcancelled ho
    cases ho
    exact hs.events ev.key before hcancelled ev (by simp [hevents]) rfl hpost
  · rw [List.append_nil]
    exact hless

/-- What is settled stays settled, as long as cancels are clean. -/
theorem Settled.step {clean : Prop} {v w : View} {tr out : List TimerOut} (hs : Settled v tr)
    (h : Fires clean v w out) (hc : clean) : Settled w (tr ++ out) := by
  cases h with
  | stay => rwa [List.append_nil]
  | create i key mbx harmed hevents => exact hs.create key mbx harmed hevents
  | postCancel key =>
    rw [List.append_nil]
    refine hs.post _ rfl ?_
    rintro k n heq
    cases heq
    exact le_rfl
  | postFree i =>
    rw [List.append_nil]
    exact hs.post _ rfl fun _ _ heq => by cases heq
  | expire t ts htmr hevents =>
    rw [List.append_nil]
    exact hs.expire htmr hevents
  | giveUp t ts htmr hevents =>
    rw [List.append_nil]
    refine hs.shrink rfl (List.Sublist.refl _) (fun i hi => ⟨?_, by simp⟩) fun ev hev => ⟨hev, ?_⟩
    · simp only [View.armed, htmr, List.mem_append, List.mem_cons] at hi ⊢
      tauto
    · simp [Function.update_of_ne (hevents ev hev)]
  | arm i rest hd hmsg hhd hevents =>
    rw [List.append_nil]
    refine hs.shrink rfl (by rw [hmsg]; exact List.sublist_cons_self _ _)
      (fun j hj => ⟨?_, by simp⟩) fun ev hev => ⟨hev, ?_⟩
    · simp only [View.armed, hmsg, List.flatMap_cons, TmrMsg.created, List.mem_append,
        hhd.mem_iff, List.mem_cons] at hj ⊢
      tauto
    · simp [Function.update_of_ne (hevents ev hev)]
  | cancel key before rest kept timer hmsg hkept harmed hevents hclean =>
    exact hs.cancel hmsg hkept harmed hevents (hclean hc)
  | free i rest t hmsg harmed hevents =>
    rw [List.append_nil]
    have hsub : ∀ j ∈ rest.flatMap TmrMsg.created ++ v.tmrHd, j ∈ v.armed := by
      intro j hj
      simpa [View.armed, hmsg, TmrMsg.created] using hj
    refine hs.shrink rfl (by rw [hmsg]; exact List.sublist_cons_self _ _)
      (fun j hj => ⟨hsub j hj, ?_⟩) fun ev hev => ⟨hev, ?_⟩
    · have hne : j ≠ i := fun hji => harmed (hji ▸ hsub j hj)
      simp only [Function.update_of_ne hne]
    · simp [Function.update_of_ne (hevents ev hev)]
  | deliver ev evs hevents => exact hs.deliver hevents

end Fullmac.Timer
