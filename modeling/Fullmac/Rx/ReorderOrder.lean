import Fullmac.Rx.ReorderOwnership
import Fullmac.Lib.RingWindow

/-!
# Order and uniqueness of what a session delivers

A live session keeps every stored frame inside the window `head, …, head + buf_size - 1` and in the
slot of its number (`WindowInv`). If `buf_size` divides 4096 the slots of a window are all
different, so a release at the head, or behind a run of holes, finds exactly the frame with that
number, and the head passes every delivered number exactly when it is delivered (`Moves`). Positions
counted from the start of the session then strictly increase over any run.

Neither half of the condition on `buf_size` can be dropped. If `buf_size` does not divide 4096, the
slot map is not injective on the windows that straddle the number at distance 4095 from `ssn`. And
with a single slot, a frame exactly half the number space ahead moves the window nowhere.
-/

namespace Fullmac.Rx

open RingWindow

/-! ## The window -/

/-- The sizes for which the slot map is injective on every window and the window moves past every
new frame. -/
structure Regular (s : RxBaSession) : Prop where
  two_le : 2 ≤ s.bufSize
  dvd : s.bufSize ∣ 4096
  le : s.bufSize ≤ 255

/-- Every stored frame lies in the window and sits in the slot of its number. -/
structure WindowInv (s : RxBaSession) : Prop where
  window : ∀ {i : ℕ} {f : RxFrame}, s.reorderBuf i = some f →
    seqSub f.seqNum s.headSeqNum < s.bufSize
  home : ∀ {i : ℕ} {f : RxFrame}, s.reorderBuf i = some f → i = s.slot f.seqNum

/-- The slot of a number is found by walking from the slot of the head. -/
theorem Regular.slot_eq {s : RxBaSession} (reg : Regular s) {x k : ℕ}
    (h : (s.headSeqNum + k) % 4096 = x % 4096) :
    s.slot x = (s.slot s.headSeqNum + k) % s.bufSize := by
  have hsub : seqSub x s.ssn = (seqSub s.headSeqNum s.ssn + k) % 4096 := by
    have := add_seqSub_mod s.headSeqNum s.ssn
    exact seqSub_eq_of_add (Nat.mod_lt _ (by omega)) (by omega)
  rw [RxBaSession.slot, hsub, RingWindow.slot_shift reg.dvd]
  rfl

/-- The frame found `k` slots behind the slot of the head is the one whose number is `k` behind the
head. -/
theorem WindowInv.offset_eq {s : RxBaSession} (inv : WindowInv s) (reg : Regular s) {i k : ℕ}
    {f : RxFrame} (hf : s.reorderBuf i = some f) (hk : k < s.bufSize)
    (hi : i = (s.slot s.headSeqNum + k) % s.bufSize) :
    seqSub f.seqNum s.headSeqNum = k := by
  have hhome : i = (s.slot s.headSeqNum + seqSub f.seqNum s.headSeqNum) % s.bufSize := by
    rw [← reg.slot_eq (add_seqSub_mod f.seqNum s.headSeqNum)]
    exact inv.home hf
  exact slot_inj (inv.window hf) hk (hhome.symm.trans hi)

/-! ## Moves of the head -/

/-- The move of the head an event stands for, with what it delivers. -/
def RxEvent.move : RxEvent → Move RxFrame
  | .step _ head head' (.sent f) => ⟨seqSub head' head, some (seqSub f.seqNum head, f)⟩
  | .step _ head head' _ => ⟨seqSub head' head, none⟩
  | .drop _ => ⟨0, none⟩
  | .bypass _ => ⟨0, none⟩

/-- The deliveries of a run with their positions, counted in numbers passed since the start of the
session. -/
def deliveries (tr : List RxEvent) : List (ℕ × RxFrame) := places 0 (tr.map RxEvent.move)

/-- A move of the head by at most `b` that delivers, if anything, a frame it passes. -/
def StepOk (b : ℕ) (head head' : ℕ) (out : Released) : Prop :=
  seqSub head' head ≤ b ∧ ∀ f, out = .sent f → seqSub f.seqNum head < seqSub head' head

/-- The events lead the head from `h` to `h'`, each move starting where the one before ended and
passing what it delivers. -/
def Moves (b : ℕ) : ℕ → List RxEvent → ℕ → Prop
  | h, [], h' => h % 4096 = h' % 4096
  | h, .step _ head head' out :: es, h' =>
    h % 4096 = head % 4096 ∧ StepOk b head head' out ∧ Moves b head' es h'
  | h, .drop _ :: es, h' => Moves b h es h'
  | h, .bypass _ :: es, h' => Moves b h es h'

theorem Moves.congr_left {b h k h' : ℕ} {es : List RxEvent} (hk : k % 4096 = h % 4096)
    (hm : Moves b h es h') : Moves b k es h' := by
  induction es with
  | nil => exact hk.trans hm
  | cons e es ih =>
    cases e with
    | step i head head' out => exact ⟨hk.trans hm.1, hm.2⟩
    | drop f => exact ih hm
    | bypass f => exact ih hm

theorem Moves.append {b h h' h'' : ℕ} {es es' : List RxEvent} (hm : Moves b h es h')
    (hm' : Moves b h' es' h'') : Moves b h (es ++ es') h'' := by
  induction es generalizing h with
  | nil => exact hm'.congr_left hm
  | cons e es ih =>
    cases e with
    | step i head head' out => exact ⟨hm.1, hm.2.1, ih hm.2.2⟩
    | drop f => exact ih (h := h) hm
    | bypass f => exact ih (h := h) hm

/-- What a session operation does to a session in order: the window invariant holds again, the
geometry is unchanged, and the events are moves of its head. -/
structure Keeps (s : RxBaSession) (r : RxBaSession × List RxEvent) : Prop where
  inv : WindowInv r.1
  ssn : r.1.ssn = s.ssn
  bufSize : r.1.bufSize = s.bufSize
  moves : Moves s.bufSize s.headSeqNum r.2 r.1.headSeqNum

theorem Keeps.refl {s : RxBaSession} (h : WindowInv s) : Keeps s (s, []) := ⟨h, rfl, rfl, rfl⟩

theorem Keeps.trans {s : RxBaSession} {r r' : RxBaSession × List RxEvent} (h : Keeps s r)
    (h' : Keeps r.1 r') : Keeps s (r'.1, r.2 ++ r'.2) :=
  ⟨h'.inv, h'.ssn.trans h.ssn, h'.bufSize.trans h.bufSize,
    h.moves.append (by have := h'.moves; rwa [h.bufSize] at this)⟩

theorem Keeps.regular {s : RxBaSession} {r : RxBaSession × List RxEvent} (h : Keeps s r)
    (reg : Regular s) : Regular r.1 :=
  ⟨by rw [h.bufSize]; exact reg.two_le, by rw [h.bufSize]; exact reg.dvd,
    by rw [h.bufSize]; exact reg.le⟩

/-! ## One release -/

/-- A release `k` slots behind the head, where nothing nearer is stored, followed by the advance
over those `k` slots. -/
theorem keeps_releaseSkip {s : RxBaSession} (inv : WindowInv s) (reg : Regular s) (env : Env)
    {j k : ℕ} (hk : k < s.bufSize) (hj : j = (s.slot s.headSeqNum + k) % s.bufSize)
    (below : ∀ i f, s.reorderBuf i = some f → k ≤ seqSub f.seqNum s.headSeqNum) (head' : ℕ)
    (hhead : head' = (seqInc s.headSeqNum + k) % 4096) :
    Keeps s
      ({ (releaseReorderFrame env s j).1 with headSeqNum := head' },
        [.step (some j) s.headSeqNum head' (releaseReorderFrame env s j).2]) := by
  have hb := reg.le
  have hhead' : head' = (s.headSeqNum + (k + 1)) % 4096 := by
    rw [hhead, seqInc]
    omega
  have hadvance : seqSub head' s.headSeqNum = k + 1 :=
    seqSub_eq_of_add (by omega) (by rw [hhead']; omega)
  refine ⟨⟨?_, ?_⟩, by simp, by simp, ⟨rfl, ⟨by omega, ?_⟩, rfl⟩⟩
  · -- a frame still stored is not at offset `k`, so the new head is not past it
    intro i f hf
    simp only [releaseReorderFrame_reorderBuf] at hf
    have hne : i ≠ j := by
      rintro rfl
      simp at hf
    rw [Function.update_of_ne hne] at hf
    have hge := below i f hf
    have hlt := inv.window hf
    have hnek : seqSub f.seqNum s.headSeqNum ≠ k := by
      intro heq
      apply hne
      rw [inv.home hf, hj, ← reg.slot_eq (x := f.seqNum) (k := k)]
      rw [← heq]
      exact add_seqSub_mod _ _
    simp only [releaseReorderFrame_bufSize, hhead']
    rw [seqSub_add_right (by omega)]
    omega
  · intro i f hf
    simp only [releaseReorderFrame_reorderBuf] at hf
    have hne : i ≠ j := by
      rintro rfl
      simp at hf
    rw [Function.update_of_ne hne] at hf
    rw [inv.home hf]
    simp [RxBaSession.slot]
  · intro f hsent
    have hoff := inv.offset_eq reg (reorderBuf_of_release_sent env s hsent) hk hj
    omega

/-- A release in the slot of the head. -/
theorem keeps_release {s : RxBaSession} (inv : WindowInv s) (reg : Regular s) (env : Env) :
    Keeps s
      ((releaseReorderFrame env s (s.slot s.headSeqNum)).1,
        [.step (some (s.slot s.headSeqNum)) s.headSeqNum
          (releaseReorderFrame env s (s.slot s.headSeqNum)).1.headSeqNum
          (releaseReorderFrame env s (s.slot s.headSeqNum)).2]) := by
  have hpos := reg.two_le
  have hslot : s.slot s.headSeqNum < s.bufSize := Nat.mod_lt _ (by omega)
  refine keeps_releaseSkip inv reg env (k := 0) (by omega) ?_ (fun _ _ _ => Nat.zero_le _) _ ?_
  · rw [Nat.add_zero, Nat.mod_eq_of_lt hslot]
  · rw [releaseReorderFrame_headSeqNum, seqInc]
    omega

/-! ## The loops -/

theorem keeps_releaseReorderFramesLoop (env : Env) (target fuel : ℕ) {s : RxBaSession}
    (inv : WindowInv s) (reg : Regular s) :
    Keeps s (releaseReorderFramesLoop env target fuel s) := by
  induction fuel generalizing s with
  | zero => exact .refl inv
  | succ fuel ih =>
    rw [releaseReorderFramesLoop]
    split
    · have hrel := keeps_release inv reg env
      exact hrel.trans (ih hrel.inv (hrel.regular reg))
    · exact .refl inv

theorem keeps_inOrderLoop (env : Env) (fuel : ℕ) {s : RxBaSession} (inv : WindowInv s)
    (reg : Regular s) : Keeps s (inOrderLoop env fuel s) := by
  induction fuel generalizing s with
  | zero => exact .refl inv
  | succ fuel ih =>
    rw [inOrderLoop]
    dsimp only
    split
    · have hrel := keeps_release inv reg env
      exact hrel.trans (ih hrel.inv (hrel.regular reg))
    · exact .refl inv

/-- The timeout loop. It stands at slot `j`, `k` slots behind `index` and `skipped` slots behind the
slot of the head, with nothing stored in between. -/
theorem keeps_timeoutLoop (env : Env) (index fuel : ℕ) {s : RxBaSession} (inv : WindowInv s)
    (reg : Regular s) {j skipped k : ℕ} (hindex : index < s.bufSize) (hkb : k ≤ s.bufSize)
    (hskip : skipped ≤ k) (hj : j = (index + k) % s.bufSize)
    (hj' : j = (s.slot s.headSeqNum + skipped) % s.bufSize)
    (below : ∀ i f, s.reorderBuf i = some f → skipped ≤ seqSub f.seqNum s.headSeqNum) :
    Keeps s (timeoutLoop env index fuel s j skipped) := by
  induction fuel generalizing s j skipped k with
  | zero => exact .refl inv
  | succ fuel ih =>
    rw [timeoutLoop]
    split
    · exact .refl inv
    rename_i hne
    -- a full turn would have led back to `index`
    have hk : k < s.bufSize := by
      refine lt_of_le_of_ne hkb fun heq => hne ?_
      rw [hj, heq, Nat.add_mod_right, Nat.mod_eq_of_lt hindex]
    have hnext : (j + 1) % s.bufSize = (index + (k + 1)) % s.bufSize := by
      rw [hj, Nat.mod_add_mod, Nat.add_assoc]
    have hnext' : (j + 1) % s.bufSize
        = (s.slot s.headSeqNum + (skipped + 1)) % s.bufSize := by
      rw [hj', Nat.mod_add_mod, Nat.add_assoc]
    split
    · rename_i hempty
      refine ih inv reg hindex (by omega) (by omega) hnext hnext' ?_
      intro i f hf
      have hge := below i f hf
      refine lt_of_le_of_ne hge fun heq => ?_
      -- a frame at offset `skipped` would be in the empty slot `j`
      have hij : i = j := by
        rw [inv.home hf, hj', ← reg.slot_eq (x := f.seqNum)]
        rw [heq]
        exact add_seqSub_mod _ _
      rw [hij] at hf
      simp [hf] at hempty
    split
    · exact .refl inv
    · have hrel := keeps_releaseSkip inv reg env (by omega) hj' below
        (((releaseReorderFrame env s j).1.headSeqNum + skipped) % 4096)
        (by rw [releaseReorderFrame_headSeqNum])
      have hslot : s.slot (((releaseReorderFrame env s j).1.headSeqNum + skipped) % 4096)
          = (s.slot s.headSeqNum + (skipped + 1)) % s.bufSize := by
        refine reg.slot_eq ?_
        rw [releaseReorderFrame_headSeqNum, seqInc]
        omega
      refine hrel.trans (ih hrel.inv (hrel.regular reg) (k := k + 1) (by simpa using hindex)
        (by simpa using Nat.succ_le_of_lt hk) (by omega) (by simpa using hnext) ?_
        fun _ _ _ => Nat.zero_le _)
      have hsame : ∀ x, RxBaSession.slot { (releaseReorderFrame env s j).1 with
          headSeqNum := ((releaseReorderFrame env s j).1.headSeqNum + skipped) % 4096 } x
          = s.slot x := by
        intro x
        simp [RxBaSession.slot]
      rw [Nat.add_zero, hsame, hslot]
      simpa using hnext'

theorem keeps_staReorderRelease (env : Env) {s : RxBaSession} (inv : WindowInv s)
    (reg : Regular s) : Keeps s (staReorderRelease env s) := by
  have hpos := reg.two_le
  have hslot : s.slot s.headSeqNum < s.bufSize := Nat.mod_lt _ (by omega)
  rw [staReorderRelease]
  split
  · rename_i hempty
    refine keeps_timeoutLoop env _ _ inv reg hslot (k := 1) (by omega) le_rfl rfl rfl ?_
    intro i f hf
    -- the slot of the head is empty, so no stored number is the head itself
    by_contra hzero
    have hoff : seqSub f.seqNum s.headSeqNum = 0 := by omega
    have hi : i = s.slot s.headSeqNum := by
      rw [inv.home hf, reg.slot_eq (k := 0) (x := f.seqNum)]
      · rw [Nat.add_zero, Nat.mod_eq_of_lt hslot]
      · rw [Nat.add_zero]
        exact (seqSub_eq_zero_iff.mp hoff).symm
    rw [hi] at hf
    simp [hf] at hempty
  · exact keeps_inOrderLoop env _ inv reg

/-! ## Where the window loop ends -/

/-- A target less than half the number space ahead is reached. -/
theorem releaseReorderFramesLoop_headSeqNum (env : Env) (target fuel : ℕ) (s : RxBaSession)
    (hfuel : seqSub target s.headSeqNum ≤ fuel) (hhalf : seqSub target s.headSeqNum < 2048) :
    (releaseReorderFramesLoop env target fuel s).1.headSeqNum % 4096 = target % 4096 := by
  induction fuel generalizing s with
  | zero =>
    show s.headSeqNum % 4096 = target % 4096
    exact (seqSub_eq_zero_iff.mp (by omega)).symm
  | succ fuel ih =>
    rw [releaseReorderFramesLoop]
    split
    · rename_i hless
      have hpos : 0 < seqSub target s.headSeqNum := by
        simp only [seqLess_eq_true, seqSub] at hless ⊢
        omega
      refine ih _ ?_ ?_ <;> rw [releaseReorderFrame_headSeqNum, seqSub_seqInc hpos] <;> omega
    · rename_i hless
      simp only [Bool.not_eq_true, seqLess_eq_false, seqSub] at hless hhalf
      show s.headSeqNum % 4096 = target % 4096
      omega

/-- The loop of `ieee80211_release_reorder_frames` ends because its condition fails, not because the
model's fuel does. -/
theorem seqLess_releaseReorderFrames (env : Env) (s : RxBaSession) (target : ℕ) :
    seqLess (releaseReorderFrames env s target).1.headSeqNum target = false := by
  cases hless : seqLess s.headSeqNum target with
  | false => rw [releaseReorderFrames_of_not_less env hless, hless]
  | true =>
    have hhalf : seqSub target s.headSeqNum < 2048 := by
      simp only [seqLess_eq_true, seqSub] at hless ⊢
      omega
    have hend := releaseReorderFramesLoop_headSeqNum env target seqModulo s
      (by simp only [seqModulo]; omega) hhalf
    rw [seqLess_eq_false, releaseReorderFrames, seqSub_eq_zero_iff.mpr hend]
    omega

/-! ## An arriving frame -/

/-- After making room for a number that is not old, the number lies in the window. -/
theorem keeps_makeRoom (env : Env) {s : RxBaSession} (inv : WindowInv s) (reg : Regular s)
    {mpduSeqNum : ℕ} (hold : seqLess mpduSeqNum s.headSeqNum = false) :
    Keeps s (makeRoom env s mpduSeqNum) ∧
      seqSub mpduSeqNum (makeRoom env s mpduSeqNum).1.headSeqNum < s.bufSize := by
  have hb := reg.le
  have hb2 := reg.two_le
  rw [seqLess_eq_false] at hold
  rw [makeRoom]
  split
  · rename_i hless
    refine ⟨.refl inv, ?_⟩
    simp only [seqLess_eq_true, seqSub] at hless hold ⊢
    omega
  · rename_i hless
    refine ⟨keeps_releaseReorderFramesLoop env _ _ inv reg, ?_⟩
    have hhalf : seqSub (seqInc (seqSub mpduSeqNum s.bufSize)) s.headSeqNum < 2048 := by
      simp only [Bool.not_eq_true, seqLess_eq_false, seqSub, seqInc] at hless hold ⊢
      omega
    have hend := releaseReorderFramesLoop_headSeqNum env
      (seqInc (seqSub mpduSeqNum s.bufSize)) seqModulo s (by simp only [seqModulo]; omega) hhalf
    have hoff : seqSub mpduSeqNum
        (releaseReorderFrames env s (seqInc (seqSub mpduSeqNum s.bufSize))).1.headSeqNum
          = s.bufSize - 1 := by
      refine seqSub_eq_of_add (by omega) ?_
      rw [Nat.add_mod, releaseReorderFrames, hend]
      simp only [seqSub, seqInc]
      omega
    omega

/-- The in-order fast path: the head passes a number whose slot is empty. -/
theorem keeps_fastPath {s : RxBaSession} (inv : WindowInv s) (reg : Regular s) {f : RxFrame}
    (hslot : s.reorderBuf (s.slot f.seqNum) = none) (hhead : f.seqNum = s.headSeqNum) :
    Keeps s
      ({ s with headSeqNum := seqInc s.headSeqNum },
        [.step none f.seqNum (seqInc s.headSeqNum) (.sent f)]) := by
  have hb := reg.two_le
  have hone : seqSub (seqInc s.headSeqNum) s.headSeqNum = 1 := seqSub_seqInc_self _
  refine ⟨⟨?_, fun hf => inv.home hf⟩, rfl, rfl, ⟨by rw [hhead], ⟨?_, ?_⟩, rfl⟩⟩
  · intro i g hg
    have hpos : 0 < seqSub g.seqNum s.headSeqNum := by
      -- otherwise `g` would be in the empty slot of the head
      refine Nat.pos_of_ne_zero fun hzero => ?_
      have hsame : s.slot g.seqNum = s.slot f.seqNum := by
        rw [RxBaSession.slot, RxBaSession.slot, hhead,
          seqSub_congr (seqSub_eq_zero_iff.mp hzero) rfl]
      rw [inv.home hg, hsame, hslot] at hg
      cases hg
    have hlt := inv.window hg
    show seqSub g.seqNum (seqInc s.headSeqNum) < s.bufSize
    rw [seqSub_seqInc hpos]
    omega
  · rw [hhead, hone]
    omega
  · intro g hg
    obtain rfl : f = g := by simpa using hg
    rw [hhead, hone, seqSub_self]
    omega

/-- A frame of the window stored in the slot of its number. -/
theorem windowInv_storeFrame (env : Env) {s : RxBaSession} (inv : WindowInv s) {f : RxFrame}
    (hwin : seqSub f.seqNum s.headSeqNum < s.bufSize) :
    WindowInv (storeFrame env s (s.slot f.seqNum) f) := by
  have hcases : ∀ {i : ℕ} {g : RxFrame},
      (storeFrame env s (s.slot f.seqNum) f).reorderBuf i = some g →
        (i = s.slot f.seqNum ∧ g = f) ∨ s.reorderBuf i = some g := by
    intro i g hg
    by_cases hi : i = s.slot f.seqNum
    · subst hi
      simp only [storeFrame, Function.update_self, Option.some.injEq] at hg
      exact Or.inl ⟨rfl, hg.symm⟩
    · simp only [storeFrame, Function.update_of_ne hi] at hg
      exact Or.inr hg
  refine ⟨?_, ?_⟩
  · intro i g hg
    rcases hcases hg with ⟨_, rfl⟩ | hg
    · exact hwin
    · exact inv.window hg
  · intro i g hg
    rcases hcases hg with ⟨rfl, rfl⟩ | hg
    · rfl
    · exact inv.home hg

theorem keeps_rxSession (env : Env) {s : RxBaSession} (inv : WindowInv s) (reg : Regular s)
    (f : RxFrame) : Keeps s (rxSession env s f) := by
  have hb := reg.two_le
  rw [rxSession, if_neg (by omega), staManageReorderBuf]
  split
  · exact ⟨inv, rfl, rfl, rfl⟩
  · rename_i hold
    obtain ⟨hroom, hwin⟩ := keeps_makeRoom env inv reg (by simpa using hold)
    have hreg := hroom.regular reg
    rw [← hroom.bufSize] at hwin
    dsimp only
    split
    · have hdrop : Keeps (makeRoom env s f.seqNum).1 ((makeRoom env s f.seqNum).1, [.drop f]) :=
        ⟨hroom.inv, rfl, rfl, rfl⟩
      exact hroom.trans hdrop
    · rename_i hfree
      have hslot : (makeRoom env s f.seqNum).1.reorderBuf
          ((makeRoom env s f.seqNum).1.slot f.seqNum) = none := by simpa using hfree
      split
      · rename_i hfast
        exact hroom.trans (keeps_fastPath hroom.inv hreg hslot hfast.1)
      · have hstore := windowInv_storeFrame env hroom.inv hwin
        have hrel := keeps_staReorderRelease env hstore ⟨hreg.two_le, hreg.dvd, hreg.le⟩
        exact hroom.trans ⟨hrel.inv, hrel.ssn, hrel.bufSize, hrel.moves⟩

/-! ## Whole runs of a live session -/

/-- The operations of a live session: a data frame or a BAR with a 12-bit number, or a timer
release. -/
def SessOp.Live : SessOp → Prop
  | .frame _ f => f.seqNum < 4096
  | .bar _ start => start < 4096
  | .timer _ => True
  | .addba _ _ _ => False
  | .delete _ => False

/-- What is expected of a session that started at `ssn`: every stored frame is in the window and in
its slot, the head passes each delivered frame's number when it is delivered, and the positions of
the deliveries strictly increase. -/
structure InOrder (ssn : ℕ) (r : RxBaSession × List RxEvent) : Prop where
  window : WindowInv r.1
  passed : ∀ i head head' f, RxEvent.step i head head' (.sent f) ∈ r.2 →
    seqLess f.seqNum head = false ∧ seqLess f.seqNum head' = true
  increasing : (deliveries r.2).Pairwise fun d d' => d.1 < d'.1
  numbers : ∀ d ∈ deliveries r.2, (ssn + d.1) % 4096 = d.2.seqNum % 4096

theorem Moves.stepOk_of_mem {b h h' : ℕ} {es : List RxEvent} (hm : Moves b h es h')
    {i : Option ℕ} {head head' : ℕ} {out : Released}
    (hmem : RxEvent.step i head head' out ∈ es) : StepOk b head head' out := by
  induction es generalizing h with
  | nil => cases hmem
  | cons e es ih =>
    rcases List.mem_cons.mp hmem with heq | hrest
    · subst heq
      exact hm.2.1
    · cases e with
      | step _ _ _ _ => exact ih hm.2.2 hrest
      | drop _ => exact ih (h := h) hm hrest
      | bypass _ => exact ih (h := h) hm hrest

/-- A move of less than half the number space passes what it delivers. -/
theorem StepOk.passed {b head head' : ℕ} {f : RxFrame} (hb : b ≤ 255)
    (h : StepOk b head head' (.sent f)) :
    seqLess f.seqNum head = false ∧ seqLess f.seqNum head' = true := by
  obtain ⟨hle, hlt⟩ := h
  have hlt := hlt f rfl
  simp only [seqLess_eq_false, seqLess_eq_true, seqSub] at *
  omega

theorem Moves.within {b h h' : ℕ} {es : List RxEvent} (hm : Moves b h es h') :
    ∀ m ∈ es.map RxEvent.move, m.Within := by
  intro m hmem
  obtain ⟨e, he, rfl⟩ := List.mem_map.mp hmem
  intro o ho
  cases e with
  | step i head head' out =>
    have hok := hm.stepOk_of_mem he
    cases out with
    | sent f =>
      obtain rfl : (seqSub f.seqNum head, f) = o := by simpa [RxEvent.move] using ho
      exact hok.2 f rfl
    | freed f => simp [RxEvent.move] at ho
    | absent => simp [RxEvent.move] at ho
  | drop f => simp [RxEvent.move] at ho
  | bypass f => simp [RxEvent.move] at ho

/-- Positions are sequence numbers counted from `ssn`. -/
theorem Moves.numbers {b h h' : ℕ} {es : List RxEvent} (hm : Moves b h es h') {ssn base : ℕ}
    (hbase : (ssn + base) % 4096 = h % 4096) :
    ∀ d ∈ places base (es.map RxEvent.move), (ssn + d.1) % 4096 = d.2.seqNum % 4096 := by
  induction es generalizing h base with
  | nil => intro d hd; cases hd
  | cons e es ih =>
    intro d hd
    rw [List.map_cons, mem_places_cons] at hd
    cases e with
    | step i head head' out =>
      obtain ⟨hhead, -, hrest⟩ := hm
      have hadv := add_seqSub_mod head' head
      cases out with
      | sent f =>
        rcases hd with ⟨o, ho, rfl⟩ | hd
        · obtain rfl : (seqSub f.seqNum head, f) = o := by simpa [RxEvent.move] using ho
          have hoff := add_seqSub_mod f.seqNum head
          show (ssn + (base + seqSub f.seqNum head)) % 4096 = f.seqNum % 4096
          omega
        · refine ih hrest ?_ d hd
          show (ssn + (base + seqSub head' head)) % 4096 = head' % 4096
          omega
      | freed f =>
        rcases hd with ⟨o, ho, -⟩ | hd
        · simp [RxEvent.move] at ho
        · refine ih hrest ?_ d hd
          show (ssn + (base + seqSub head' head)) % 4096 = head' % 4096
          omega
      | absent =>
        rcases hd with ⟨o, ho, -⟩ | hd
        · simp [RxEvent.move] at ho
        · refine ih hrest ?_ d hd
          show (ssn + (base + seqSub head' head)) % 4096 = head' % 4096
          omega
    | drop f =>
      rcases hd with ⟨o, ho, -⟩ | hd
      · simp [RxEvent.move] at ho
      · exact ih (h := h) hm (by simpa [RxEvent.move] using hbase) d hd
    | bypass f =>
      rcases hd with ⟨o, ho, -⟩ | hd
      · simp [RxEvent.move] at ho
      · exact ih (h := h) hm (by simpa [RxEvent.move] using hbase) d hd

theorem Keeps.inOrder {s : RxBaSession} {r : RxBaSession × List RxEvent} (h : Keeps s r)
    (reg : Regular s) {ssn : ℕ} (hssn : s.headSeqNum % 4096 = ssn % 4096) : InOrder ssn r where
  window := h.inv
  passed _ _ _ _ hmem := (h.moves.stepOk_of_mem hmem).passed reg.le
  increasing := places_pairwise h.moves.within
  numbers := h.moves.numbers hssn.symm

/-- Every operation of a live session keeps it in order. -/
theorem keeps_sessStep (cfg : HostCfg) {s : RxBaSession} (inv : WindowInv s) (reg : Regular s)
    {op : SessOp} (hop : op.Live) : Keeps s (sessStep cfg s op) := by
  have hb := reg.two_le
  cases op with
  | frame env f => exact keeps_rxSession env inv reg f
  | bar env start =>
    simp only [sessStep, rxBar, if_neg (show ¬ s.bufSize = 0 by omega)]
    exact keeps_releaseReorderFramesLoop env _ _ inv reg
  | timer env =>
    simp only [sessStep, timerRelease, if_neg (show ¬ s.bufSize = 0 by omega)]
    exact keeps_staReorderRelease env inv reg
  | addba env ssn bufSize => cases hop
  | delete env => cases hop

/-- So does every run. -/
theorem keeps_sessRun {cfg : HostCfg} {s : RxBaSession} (inv : WindowInv s) (reg : Regular s)
    (ops : List SessOp) (hops : ∀ op ∈ ops, op.Live) : Keeps s (sessRun cfg s ops) :=
  Machine.run_induction_of_meets (C := fun _ op => op.Live)
    (P := fun s' _ tr => Keeps s (s', tr)) (.refl inv)
    (fun _ _ _ _ hop h => h.trans (keeps_sessStep cfg h.inv (h.regular reg) hop)) ops
    (Machine.meets_of_forall hops)

end Fullmac.Rx
