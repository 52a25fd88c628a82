import Fullmac.Rx.ReorderReads

/-!
# The order in which a flush delivers

`ieee80211_addba_handler` and `ieee80211_delete_ampdu_rx` walk the buffer from slot 0 upwards, while
`ieee80211_release_reorder_frames` walks the same ring from the slot of the head. The second walk is
in sequence order. The first is the same list with its two parts exchanged, so it is in order
exactly if no frame before the slot of the head is delivered together with one at or behind it.
-/

namespace Fullmac.Rx

open RingWindow

/-- The frame a release of a slot hands to `send_to_data_handler`. -/
def Env.sentFrom (env : Env) (o : Option RxFrame) : Option RxFrame :=
  o.filter fun f => !env.disconnected f

theorem sentFrames_release (env : Env) (s : RxBaSession) (index head head' : ℕ) :
    RxEvent.sentFrames (.step (some index) head head' (releaseReorderFrame env s index).2)
      = (env.sentFrom (s.reorderBuf index)).toList := by
  cases hs : s.reorderBuf index with
  | none => simp [releaseReorderFrame, hs, RxEvent.sentFrames, Env.sentFrom]
  | some f =>
    rw [releaseReorderFrame_out_of_some env s hs]
    cases hd : env.disconnected f <;> simp [RxEvent.sentFrames, Env.sentFrom, Option.filter, hd]

theorem sentFrames_cons (e : RxEvent) (tr : List RxEvent) :
    sentFrames (e :: tr) = e.sentFrames ++ sentFrames tr := by
  simp [sentFrames]

/-! ## The two walks -/

/-- The flush delivers in slot order. -/
theorem sentFrames_flushLoop (env : Env) (count index : ℕ) (s : RxBaSession) :
    sentFrames (flushLoop env count index s).2
      = (List.range' index count).filterMap fun i => env.sentFrom (s.reorderBuf i) := by
  induction count generalizing index s with
  | zero => rfl
  | succ count ih =>
    have hother : (List.range' (index + 1) count).filterMap (fun i =>
          env.sentFrom ((releaseReorderFrame env s index).1.reorderBuf i))
        = (List.range' (index + 1) count).filterMap fun i => env.sentFrom (s.reorderBuf i) := by
      refine List.filterMap_congr fun i hi => ?_
      have hne : i ≠ index := by
        have := List.mem_range'_1.mp hi
        omega
      rw [releaseReorderFrame_reorderBuf, Function.update_of_ne hne]
    rw [flushLoop, sentFrames_cons, sentFrames_release, ih, hother, List.range'_succ]
    cases h : env.sentFrom (s.reorderBuf index) <;> simp [h]

/-- The window loop delivers in the order of the numbers it passes. -/
theorem sentFrames_releaseReorderFramesLoop (env : Env) {s : RxBaSession} (reg : Regular s)
    {n target : ℕ} (hn : n ≤ s.bufSize) (htarget : (s.headSeqNum + n) % 4096 = target % 4096)
    {fuel : ℕ} (hfuel : n ≤ fuel) :
    sentFrames (releaseReorderFramesLoop env target fuel s).2
      = (List.range n).filterMap fun k =>
          env.sentFrom (s.reorderBuf (s.slot (s.headSeqNum + k))) := by
  have hb := reg.le
  have hb2 := reg.two_le
  induction n generalizing s fuel with
  | zero =>
    cases fuel with
    | zero => rfl
    | succ fuel =>
      have hstop : seqLess s.headSeqNum target = false := by
        simp only [seqLess_eq_false, seqSub]
        omega
      rw [releaseReorderFramesLoop, hstop]
      rfl
  | succ n ih =>
    obtain ⟨fuel, rfl⟩ : ∃ m, fuel = m + 1 := ⟨fuel - 1, by omega⟩
    have hgo : seqLess s.headSeqNum target = true := by
      simp only [seqLess_eq_true, seqSub]
      omega
    rw [releaseReorderFramesLoop, hgo, if_pos rfl, sentFrames_cons, sentFrames_release]
    have hreg : Regular (releaseReorderFrame env s (s.slot s.headSeqNum)).1 :=
      ⟨by simpa using reg.two_le, by simpa using reg.dvd, by simpa using reg.le⟩
    rw [ih hreg (by rw [releaseReorderFrame_bufSize]; omega)
      (by rw [releaseReorderFrame_headSeqNum, seqInc]; omega) (by omega) hreg.le hreg.two_le]
    have hrest : (List.range n).filterMap (fun k => env.sentFrom
          ((releaseReorderFrame env s (s.slot s.headSeqNum)).1.reorderBuf
            ((releaseReorderFrame env s (s.slot s.headSeqNum)).1.slot
              ((releaseReorderFrame env s (s.slot s.headSeqNum)).1.headSeqNum + k))))
        = (List.range n).filterMap fun k =>
            env.sentFrom (s.reorderBuf (s.slot (s.headSeqNum + (k + 1)))) := by
      refine List.filterMap_congr fun k hk => ?_
      rw [List.mem_range] at hk
      -- the next slots of the window are not the one just emptied
      have hne : s.slot (s.headSeqNum + (k + 1)) ≠ s.slot s.headSeqNum := by
        have hslot : s.slot s.headSeqNum < s.bufSize := Nat.mod_lt _ (by omega)
        rw [reg.slot_eq (x := s.headSeqNum + (k + 1)) rfl]
        intro heq
        have hzero : k + 1 = 0 := slot_inj (r := s.slot s.headSeqNum) (b := s.bufSize) (by omega)
          (by omega) (by rw [heq, Nat.add_zero, Nat.mod_eq_of_lt hslot])
        omega
      rw [release_slot_add, releaseReorderFrame_reorderBuf, Function.update_of_ne hne]
    rw [hrest, List.range_succ_eq_map, List.filterMap_cons, List.filterMap_map]
    rw [Nat.add_zero]
    cases env.sentFrom (s.reorderBuf (s.slot s.headSeqNum)) <;> rfl

/-! ## The flush of a session in order -/

/-- In increasing order of the distance from `head`. -/
def InSeqOrder (head : ℕ) (fs : List RxFrame) : Prop :=
  fs.Pairwise fun f g => seqSub f.seqNum head < seqSub g.seqNum head

/-- No frame in a slot before the slot of the head is to be delivered together with one in a slot at
or behind it. -/
def NotWrapped (env : Env) (s : RxBaSession) : Prop :=
  ∀ i j f g, i < s.slot s.headSeqNum → s.slot s.headSeqNum ≤ j → s.reorderBuf i = some f →
    s.reorderBuf j = some g → env.disconnected f = true ∨ env.disconnected g = true

theorem sentFrom_eq_some {env : Env} {o : Option RxFrame} {f : RxFrame} :
    env.sentFrom o = some f ↔ o = some f ∧ env.disconnected f = false := by
  simp [Env.sentFrom, Option.filter_eq_some_iff]

/-- What lies before and what lies behind the slot of the head are not both delivered. -/
theorem notWrapped_iff {env : Env} {s : RxBaSession} (inv : WindowInv s) (hb : 0 < s.bufSize) :
    NotWrapped env s ↔
      (List.range (s.slot s.headSeqNum)).filterMap (fun i => env.sentFrom (s.reorderBuf i)) = [] ∨
      (List.range (s.bufSize - s.slot s.headSeqNum)).filterMap
        (fun k => env.sentFrom (s.reorderBuf (s.slot s.headSeqNum + k))) = [] := by
  have hnone : ∀ o : Option RxFrame, env.sentFrom o = none ↔
      ∀ f, o = some f → env.disconnected f = true := by
    intro o
    cases o <;> simp [Env.sentFrom]
  simp only [List.filterMap_eq_nil_iff, List.mem_range, hnone]
  constructor
  · intro h
    by_contra hboth
    push Not at hboth
    obtain ⟨⟨i, hi, f, hf, hdf⟩, k, hk, g, hg, hdg⟩ := hboth
    rcases h i _ f g hi (Nat.le_add_right _ k) hf hg with h | h
    · exact hdf h
    · exact hdg h
  · rintro (h | h) i j f g hi hj hf hg
    · exact Or.inl (h i hi f hf)
    · -- a full slot is a slot of the ring
      have hjb : j < s.bufSize := by
        rw [inv.home hg]
        exact Nat.mod_lt _ hb
      refine Or.inr (h (j - s.slot s.headSeqNum) (by omega) g ?_)
      rw [Nat.add_sub_cancel' hj]
      exact hg

/-- The flush and the window loop over a whole window, cut at the slot of the head. -/
theorem sentFrames_flush_and_release {cfg : HostCfg} (env : Env) {s : RxBaSession}
    (inv : WindowInv s) (reg : Regular s) (hfit : s.bufSize ≤ cfg.ampduRxBufSize) :
    ∃ before behind : List RxFrame,
      sentFrames (flushSession cfg env s).2 = before ++ behind ∧
      sentFrames (releaseReorderFrames env s ((s.headSeqNum + s.bufSize) % 4096)).2
        = behind ++ before ∧
      InSeqOrder s.headSeqNum (behind ++ before) ∧
      (NotWrapped env s ↔ before = [] ∨ behind = []) := by
  have hb := reg.two_le
  have hb' := reg.le
  have hslot : s.slot s.headSeqNum < s.bufSize := Nat.mod_lt _ (by omega)
  have hring : ∀ k, s.slot (s.headSeqNum + k) = (s.slot s.headSeqNum + k) % s.bufSize :=
    fun k => reg.slot_eq rfl
  have hrelease : sentFrames (releaseReorderFrames env s
      ((s.headSeqNum + s.bufSize) % 4096)).2
        = (List.range s.bufSize).filterMap fun k =>
            env.sentFrom (s.reorderBuf (s.slot (s.headSeqNum + k))) :=
    sentFrames_releaseReorderFramesLoop env reg le_rfl (by omega) (by simp only [seqModulo]; omega)
  have hrotate : (List.range s.bufSize).filterMap (fun k =>
        env.sentFrom (s.reorderBuf (s.slot (s.headSeqNum + k))))
      = (List.range s.bufSize).filterMap fun k =>
          env.sentFrom (s.reorderBuf ((s.slot s.headSeqNum + k) % s.bufSize)) :=
    List.filterMap_congr fun k _ => by rw [hring]
  refine ⟨_, _, ?_, ?_, ?_, notWrapped_iff inv (by omega)⟩
  · -- behind the ring there is nothing to flush
    have hsplit : List.range cfg.ampduRxBufSize
        = List.range s.bufSize ++ (List.range (cfg.ampduRxBufSize - s.bufSize)).map
            (s.bufSize + ·) := by
      rw [← List.range_add, Nat.add_sub_cancel' hfit]
    have hnil : ((List.range (cfg.ampduRxBufSize - s.bufSize)).map (s.bufSize + ·)).filterMap
        (fun i => env.sentFrom (s.reorderBuf i)) = [] := by
      rw [List.filterMap_eq_nil_iff]
      intro i hi
      obtain ⟨k, _, rfl⟩ := List.mem_map.mp hi
      cases hf : s.reorderBuf (s.bufSize + k) with
      | none => rfl
      | some f =>
        have hhome : s.slot f.seqNum < s.bufSize := Nat.mod_lt _ (by omega)
        rw [← inv.home hf] at hhome
        omega
    rw [flushSession, sentFrames_flushLoop, ← List.range_eq_range', hsplit, List.filterMap_append,
      hnil, List.append_nil]
    exact filterMap_range_split hslot.le _
  · rw [hrelease, hrotate]
    exact filterMap_ring_from hslot.le fun i => env.sentFrom (s.reorderBuf i)
  · -- the frame at offset `k` has a number `k` behind the head
    have hoff : ∀ k < s.bufSize, ∀ f,
        env.sentFrom (s.reorderBuf ((s.slot s.headSeqNum + k) % s.bufSize)) = some f →
          seqSub f.seqNum s.headSeqNum = k := fun k hk f hf =>
      inv.offset_eq reg (sentFrom_eq_some.mp hf).1 hk rfl
    rw [← filterMap_ring_from hslot.le fun i => env.sentFrom (s.reorderBuf i), InSeqOrder,
      List.pairwise_filterMap]
    refine List.pairwise_lt_range.imp_of_mem ?_
    intro k k' hk hk' hlt f hf g hg
    rw [hoff k (List.mem_range.mp hk) f hf, hoff k' (List.mem_range.mp hk') g hg]
    exact hlt

/-! ## Every state of a session with a regular size -/

/-- The operations on sessions whose size is at least two and divides 4096, with 12-bit sequence
numbers. -/
def SessOp.Proper (cfg : HostCfg) : SessOp → Prop
  | .frame _ f => f.seqNum < 4096
  | .bar _ start => start < 4096
  | .timer _ => True
  | .addba _ _ b => 2 ≤ b ∧ b ∣ 4096 ∧ b ≤ cfg.ampduRxBufSize
  | .delete _ => True

/-- A session is either not set up and empty, or regular and in its window. -/
structure Orderly (cfg : HostCfg) (s : RxBaSession) : Prop where
  sound : Sound cfg s
  window : WindowInv s
  size : (s.bufSize = 0 ∧ ∀ i, s.reorderBuf i = none) ∨ Regular s

theorem orderly_zero (cfg : HostCfg) : Orderly cfg RxBaSession.zero :=
  ⟨sound_zero cfg, ⟨fun hf => (by cases hf), fun hf => (by cases hf)⟩, Or.inl ⟨rfl, fun _ => rfl⟩⟩

/-- An operation on a session that is not set up leaves it as it is. -/
theorem sessStep_of_bufSize_zero {cfg : HostCfg} {s : RxBaSession} (h : s.bufSize = 0)
    {op : SessOp} (hop : op.Live) : (sessStep cfg s op).1 = s := by
  cases op with
  | frame env f => simp [sessStep, rxSession, h]
  | bar env start => simp [sessStep, rxBar, h]
  | timer env => simp [sessStep, timerRelease, h]
  | addba env ssn b => cases hop
  | delete env => cases hop

theorem orderly_live {cfg : HostCfg} {s : RxBaSession} (h : Orderly cfg s) {op : SessOp}
    (hop : op.Live) (hfits : op.Fits cfg) : Orderly cfg (sessStep cfg s op).1 := by
  have hsound := (sessStep_conserves h.sound op hfits).1
  rcases h.size with ⟨hzero, hempty⟩ | reg
  · rw [sessStep_of_bufSize_zero hzero hop]
    exact ⟨h.sound, h.window, Or.inl ⟨hzero, hempty⟩⟩
  · have hkeeps := keeps_sessStep cfg h.window reg hop
    exact ⟨hsound, hkeeps.inv, Or.inr (hkeeps.regular reg)⟩

theorem orderly_sessStep {cfg : HostCfg} {s : RxBaSession} (h : Orderly cfg s) {op : SessOp}
    (hop : op.Proper cfg) : Orderly cfg (sessStep cfg s op).1 := by
  have hcfg := cfg.ampduRxBufSize_lt
  cases op with
  | frame env f => exact orderly_live h hop trivial
  | bar env start => exact orderly_live h hop trivial
  | timer env => exact orderly_live h trivial trivial
  | addba env ssn b =>
    obtain ⟨hb, hdvd, hfit⟩ := hop
    have he := emptyAt_addbaSession h.sound env ssn b
    have hle : b ≤ 255 := by omega
    exact ⟨(sessStep_conserves h.sound (.addba env ssn b) hfit).1, he.windowInv,
      Or.inr ⟨hb, hdvd, hle⟩⟩
  | delete env =>
    have hempty : ∀ i, (sessStep cfg s (.delete env)).1.reorderBuf i = none :=
      flushSession_reorderBuf cfg env h.sound.stocked
    have he : EmptyAt 0 0 0 (sessStep cfg s (.delete env)).1 := ⟨hempty, rfl, rfl, rfl⟩
    exact ⟨(sessStep_conserves h.sound (.delete env) trivial).1, he.windowInv, Or.inl ⟨rfl, hempty⟩⟩

theorem orderly_sessRun {cfg : HostCfg} (ops : List SessOp) (hops : ∀ op ∈ ops, op.Proper cfg) :
    Orderly cfg (sessRun cfg RxBaSession.zero ops).1 :=
  Machine.run_induction_of_meets (C := fun _ op => op.Proper cfg)
    (P := fun s _ _ => Orderly cfg s) (orderly_zero cfg)
    (fun _ _ _ _ hop h => orderly_sessStep h hop) ops (Machine.meets_of_forall hops)

/-- The flush of an orderly session. -/
theorem flush_inSeqOrder_iff {cfg : HostCfg} {s : RxBaSession} (h : Orderly cfg s) (env : Env) :
    (InSeqOrder s.headSeqNum (sentFrames (flushSession cfg env s).2) ↔ NotWrapped env s) ∧
      (sentFrames (flushSession cfg env s).2
          = sentFrames (releaseReorderFrames env s ((s.headSeqNum + s.bufSize) % 4096)).2
        ↔ NotWrapped env s) := by
  have hasymm : ∀ f g : RxFrame, seqSub f.seqNum s.headSeqNum < seqSub g.seqNum s.headSeqNum →
      ¬ seqSub g.seqNum s.headSeqNum < seqSub f.seqNum s.headSeqNum := by
    intro f g hfg
    omega
  rcases h.size with ⟨hzero, hempty⟩ | reg
  · have hflush : sentFrames (flushSession cfg env s).2 = [] := by
      rw [flushSession, sentFrames_flushLoop]
      simp [hempty, Env.sentFrom]
    have hstay : seqLess s.headSeqNum ((s.headSeqNum + s.bufSize) % 4096) = false := by
      rw [hzero]
      simp only [seqLess_eq_false, seqSub]
      omega
    have hwrap : NotWrapped env s := by
      intro i j f g _ _ hf
      rw [hempty i] at hf
      cases hf
    rw [hflush, releaseReorderFrames_of_not_less env hstay]
    simp [hwrap, InSeqOrder, sentFrames]
  · obtain ⟨before, behind, hflush, hrelease, horder, hwrap⟩ :=
      sentFrames_flush_and_release env h.window reg h.sound.bufSize_le
    rw [hflush, hrelease, hwrap]
    exact ⟨pairwise_swap_iff hasymm horder, append_swap_iff hasymm horder⟩

/-- **Flush order.** In every state that sessions of regular size reach, a re-ADDBA or a deletion
hands the stored frames over in increasing order from the head, which is the order in which
`ieee80211_release_reorder_frames` would, if and only if the frames to be handed over do not lie on
both sides of the slot of the head. -/
theorem flush_inSeqOrder_iff_notWrapped (cfg : HostCfg) (ops : List SessOp)
    (hops : ∀ op ∈ ops, op.Proper cfg) (env : Env) (s : RxBaSession)
    (hs : s = (sessRun cfg RxBaSession.zero ops).1) :
    (∀ ssn b,
        (InSeqOrder s.headSeqNum (sentFrames (sessStep cfg s (.addba env ssn b)).2)
          ↔ NotWrapped env s) ∧
        (sentFrames (sessStep cfg s (.addba env ssn b)).2
            = sentFrames (releaseReorderFrames env s ((s.headSeqNum + s.bufSize) % 4096)).2
          ↔ NotWrapped env s)) ∧
      (InSeqOrder s.headSeqNum (sentFrames (sessStep cfg s (.delete env)).2)
        ↔ NotWrapped env s) ∧
      (sentFrames (sessStep cfg s (.delete env)).2
          = sentFrames (releaseReorderFrames env s ((s.headSeqNum + s.bufSize) % 4096)).2
        ↔ NotWrapped env s) := by
  have horderly : Orderly cfg s := by
    rw [hs]
    exact orderly_sessRun ops hops
  have hflush := flush_inSeqOrder_iff horderly env
  exact ⟨fun _ _ => hflush, hflush⟩

/-- While the head stands in slot 0 nothing lies before it. -/
theorem flush_inSeqOrder_from_slot_zero :
    InSeqOrder (sessRun .default RxBaSession.zero
        [.addba .ap 0 64, .frame .ap (.data 0 2), .frame .ap (.data 1 1)]).1.headSeqNum
      (sentFrames (sessStep .default (sessRun .default RxBaSession.zero
        [.addba .ap 0 64, .frame .ap (.data 0 2), .frame .ap (.data 1 1)]).1 (.delete .ap)).2) := by
  refine (flush_inSeqOrder_iff_notWrapped .default
    [.addba .ap 0 64, .frame .ap (.data 0 2), .frame .ap (.data 1 1)] ?_ .ap _ rfl).2.1.mpr ?_
  · simp [SessOp.Proper, RxFrame.data, HostCfg.default]
  · intro i j f g hi
    have hslot : RxBaSession.slot (sessRun .default RxBaSession.zero
        [.addba .ap 0 64, .frame .ap (.data 0 2), .frame .ap (.data 1 1)]).1
        (sessRun .default RxBaSession.zero
          [.addba .ap 0 64, .frame .ap (.data 0 2), .frame .ap (.data 1 1)]).1.headSeqNum = 0 := by
      decide +kernel
    omega

/-- In a session of 64 slots whose head stands at 62, frames 63 and 64 wait in slots 63 and 0. -/
def straddlingOps : List SessOp :=
  [.addba .ap 0 64, .bar .ap 62, .frame .ap (.data 0 63), .frame .ap (.data 1 64)]

/-- A re-ADDBA there delivers 64 before 63. -/
theorem flush_not_inSeqOrder :
    (∀ op ∈ straddlingOps, op.Proper .default) ∧
      ¬ InSeqOrder (sessRun .default RxBaSession.zero straddlingOps).1.headSeqNum
        (sentFrames (sessStep .default (sessRun .default RxBaSession.zero straddlingOps).1
          (.addba .ap 0 64)).2) := by
  have hhead : (sessRun .default RxBaSession.zero straddlingOps).1.headSeqNum = 62 := by
    decide +kernel
  have hsent : sentFrames (sessStep .default (sessRun .default RxBaSession.zero straddlingOps).1
      (.addba .ap 0 64)).2 = [.data 1 64, .data 0 63] := by
    decide +kernel
  refine ⟨by simp [straddlingOps, SessOp.Proper, RxFrame.data, HostCfg.default], ?_⟩
  rw [hhead, hsent]
  simp [InSeqOrder, RxFrame.data, seqSub]

end Fullmac.Rx
