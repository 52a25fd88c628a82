import Fullmac.Rx.Reorder
import Fullmac.Lib.Slots
import Mathlib.Algebra.Order.Group.Multiset
import Mathlib.Tactic.Abel

/-!
# The reorder buffer neither loses nor duplicates a frame: one session

Every operation of a session moves frames between three places: the slots of the buffer, the frames
handed to `send_to_data_handler` and the frames given to `os_frame_free`. `Conserves` says that an
operation takes what arrived with what was stored and leaves it stored, sent or freed, and that
`stored_mpdu_num` still counts the full slots. It is proved for `ieee80211_release_reorder_frame`
once and composed along the loops.
-/

namespace Fullmac.Rx

open Slots

/-- The frames an event hands to `send_to_data_handler`. -/
def RxEvent.sentFrames : RxEvent → List RxFrame
  | .step _ _ _ (.sent f) => [f]
  | .bypass f => [f]
  | _ => []

/-- The frames an event gives to `os_frame_free`. -/
def RxEvent.freedFrames : RxEvent → List RxFrame
  | .step _ _ _ (.freed f) => [f]
  | .drop f => [f]
  | _ => []

/-- All frames handed to `send_to_data_handler`, in order. -/
def sentFrames (tr : List RxEvent) : List RxFrame := tr.flatMap RxEvent.sentFrames

/-- All frames given to `os_frame_free`, in order. -/
def freedFrames (tr : List RxEvent) : List RxFrame := tr.flatMap RxEvent.freedFrames

@[simp] theorem sentFrames_append (tr tr' : List RxEvent) :
    sentFrames (tr ++ tr') = sentFrames tr ++ sentFrames tr' := by
  simp [sentFrames]

@[simp] theorem freedFrames_append (tr tr' : List RxEvent) :
    freedFrames (tr ++ tr') = freedFrames tr ++ freedFrames tr' := by
  simp [freedFrames]

/-- All frames that left the buffer code, sent or freed. -/
def leftFrames (tr : List RxEvent) : Multiset RxFrame :=
  (sentFrames tr : Multiset RxFrame) + (freedFrames tr : Multiset RxFrame)

@[simp] theorem leftFrames_nil : leftFrames [] = 0 := rfl

theorem leftFrames_append (tr tr' : List RxEvent) :
    leftFrames (tr ++ tr') = leftFrames tr + leftFrames tr' := by
  simp only [leftFrames, sentFrames_append, freedFrames_append, ← Multiset.coe_add]
  abel

/-- The frames stored in the first `n` slots. -/
def storedFrames (n : ℕ) (s : RxBaSession) : Multiset RxFrame := contents n s.reorderBuf

/-- The books of a session with `n` slots are in order: nothing is stored behind them, and
`stored_mpdu_num` is the number of full ones. -/
structure Stocked (n : ℕ) (s : RxBaSession) : Prop where
  housed : ∀ i, n ≤ i → s.reorderBuf i = none
  counted : s.storedMpduNum = (contents n s.reorderBuf).length

/-- From `s`, with the frames `arrived` coming in, the operation ends in `r`: the books are in
order, the size of the session is unchanged, and every frame that was there is stored, sent or
freed. -/
structure Conserves (n : ℕ) (arrived : Multiset RxFrame) (s : RxBaSession)
    (r : RxBaSession × List RxEvent) : Prop where
  stocked : Stocked n r.1
  bufSize : r.1.bufSize = s.bufSize
  frames : arrived + storedFrames n s = leftFrames r.2 + storedFrames n r.1

theorem Conserves.refl {n : ℕ} {s : RxBaSession} (h : Stocked n s) : Conserves n 0 s (s, []) :=
  ⟨h, rfl, by simp⟩

/-- One operation after another. -/
theorem Conserves.trans {n : ℕ} {arrived : Multiset RxFrame} {s : RxBaSession}
    {r r' : RxBaSession × List RxEvent} (h : Conserves n arrived s r)
    (h' : Conserves n 0 r.1 r') : Conserves n arrived s (r'.1, r.2 ++ r'.2) := by
  refine ⟨h'.stocked, h'.bufSize.trans h.bufSize, ?_⟩
  have hrest : storedFrames n r.1 = leftFrames r'.2 + storedFrames n r'.1 := by
    simpa using h'.frames
  rw [h.frames, hrest, leftFrames_append, add_assoc]

/-- An operation on no new frames, followed by one that takes them in. -/
theorem Conserves.trans' {n : ℕ} {arrived : Multiset RxFrame} {s : RxBaSession}
    {r r' : RxBaSession × List RxEvent} (h : Conserves n 0 s r)
    (h' : Conserves n arrived r.1 r') : Conserves n arrived s (r'.1, r.2 ++ r'.2) := by
  refine ⟨h'.stocked, h'.bufSize.trans h.bufSize, ?_⟩
  have hfirst : storedFrames n s = leftFrames r.2 + storedFrames n r.1 := by
    simpa using h.frames
  rw [hfirst, leftFrames_append, add_left_comm, h'.frames, add_assoc]

/-! ## One release -/

/-- Writing another value into `head_seq_num` does not touch the books. -/
theorem Stocked.congr {n : ℕ} {s s' : RxBaSession} (h : Stocked n s)
    (hbuf : s'.reorderBuf = s.reorderBuf) (hnum : s'.storedMpduNum = s.storedMpduNum) :
    Stocked n s' :=
  ⟨fun i hi => by rw [hbuf]; exact h.housed i hi, by rw [hbuf, hnum]; exact h.counted⟩

/-- A release keeps the books and lets the frame of the slot go, whatever the head is set to
afterwards. -/
theorem conserves_releaseSkip {n : ℕ} {s : RxBaSession} (hn : n < 65536) (h : Stocked n s)
    (env : Env) (index head' : ℕ) :
    Conserves n 0 s
      ({ (releaseReorderFrame env s index).1 with headSeqNum := head' },
        [.step (some index) s.headSeqNum head' (releaseReorderFrame env s index).2]) := by
  cases hslot : s.reorderBuf index with
  | none =>
    rw [releaseReorderFrame_of_none env s hslot]
    exact ⟨h.congr rfl rfl, rfl, by simp [leftFrames, sentFrames, freedFrames, RxEvent.sentFrames,
      RxEvent.freedFrames, storedFrames]⟩
  | some f =>
    have hi : index < n := by
      by_contra hge
      have := h.housed index (by omega)
      rw [hslot] at this
      cases this
    have htake := contents_take hi hslot
    refine ⟨⟨?_, ?_⟩, by simp, ?_⟩
    · intro i hi'
      have hne : i ≠ index := by omega
      simp [Function.update_of_ne hne, h.housed i hi']
    · have hlen := htake.length_eq
      have hle : (contents n s.reorderBuf).length ≤ n := by
        simpa [contents] using List.length_filterMap_le s.reorderBuf (List.range n)
      simp only [List.length_cons] at hlen
      simp only [releaseReorderFrame_storedMpduNum_of_some env s hslot,
        releaseReorderFrame_reorderBuf, h.counted]
      omega
    · have hstored : storedFrames n s
          = f ::ₘ (contents n (Function.update s.reorderBuf index none) : Multiset RxFrame) :=
        Multiset.coe_eq_coe.mpr htake
      rw [zero_add, hstored, releaseReorderFrame_out_of_some env s hslot]
      split <;> simp [leftFrames, sentFrames, freedFrames, RxEvent.sentFrames,
        RxEvent.freedFrames, storedFrames, Multiset.singleton_add]

theorem conserves_release {n : ℕ} {s : RxBaSession} (hn : n < 65536) (h : Stocked n s) (env : Env)
    (index : ℕ) :
    Conserves n 0 s
      ((releaseReorderFrame env s index).1,
        [.step (some index) s.headSeqNum (releaseReorderFrame env s index).1.headSeqNum
          (releaseReorderFrame env s index).2]) :=
  conserves_releaseSkip hn h env index _

/-! ## The loops -/

section loops

variable {n : ℕ} (hn : n < 65536) (env : Env)
include hn

theorem conserves_releaseReorderFramesLoop (target fuel : ℕ) {s : RxBaSession} (h : Stocked n s) :
    Conserves n 0 s (releaseReorderFramesLoop env target fuel s) := by
  induction fuel generalizing s with
  | zero => exact .refl h
  | succ fuel ih =>
    rw [releaseReorderFramesLoop]
    split
    · have hrel := conserves_release hn h env (s.slot s.headSeqNum)
      exact hrel.trans (ih hrel.stocked)
    · exact .refl h

theorem conserves_timeoutLoop (index fuel : ℕ) {s : RxBaSession} (h : Stocked n s)
    (j skipped : ℕ) : Conserves n 0 s (timeoutLoop env index fuel s j skipped) := by
  induction fuel generalizing s j skipped with
  | zero => exact .refl h
  | succ fuel ih =>
    rw [timeoutLoop]
    split
    · exact .refl h
    split
    · exact ih h _ _
    split
    · exact .refl h
    · have hrel := conserves_releaseSkip hn h env j
        (((releaseReorderFrame env s j).1.headSeqNum + skipped) % 4096)
      exact hrel.trans (ih hrel.stocked _ _)

theorem conserves_inOrderLoop (fuel : ℕ) {s : RxBaSession} (h : Stocked n s) :
    Conserves n 0 s (inOrderLoop env fuel s) := by
  induction fuel generalizing s with
  | zero => exact .refl h
  | succ fuel ih =>
    rw [inOrderLoop]
    dsimp only
    split
    · have hrel := conserves_release hn h env (s.slot s.headSeqNum)
      exact hrel.trans (ih hrel.stocked)
    · exact .refl h

theorem conserves_staReorderRelease {s : RxBaSession} (h : Stocked n s) :
    Conserves n 0 s (staReorderRelease env s) := by
  rw [staReorderRelease]
  split
  · exact conserves_timeoutLoop hn env _ _ h _ _
  · exact conserves_inOrderLoop hn env _ h

theorem conserves_flushLoop (count index : ℕ) {s : RxBaSession} (h : Stocked n s) :
    Conserves n 0 s (flushLoop env count index s) := by
  induction count generalizing index s with
  | zero => exact .refl h
  | succ count ih =>
    rw [flushLoop]
    have hrel := conserves_release hn h env index
    exact hrel.trans (ih _ hrel.stocked)

/-! ## An arriving frame -/

theorem conserves_makeRoom {s : RxBaSession} (h : Stocked n s) (mpduSeqNum : ℕ) :
    Conserves n 0 s (makeRoom env s mpduSeqNum) := by
  rw [makeRoom]
  split
  · exact .refl h
  · exact conserves_releaseReorderFramesLoop hn env _ _ h

omit hn in
/-- A frame that is freed on arrival leaves the session alone. -/
theorem conserves_drop {s : RxBaSession} (h : Stocked n s) (f : RxFrame) :
    Conserves n {f} s (s, [.drop f]) :=
  ⟨h, rfl, by simp [leftFrames, sentFrames, freedFrames, RxEvent.sentFrames,
    RxEvent.freedFrames]⟩

/-- Storing a frame in an empty slot takes it in. -/
theorem conserves_storeFrame {s : RxBaSession} (h : Stocked n s) {index : ℕ} (hi : index < n)
    (hslot : s.reorderBuf index = none) (f : RxFrame) :
    Conserves n {f} s (storeFrame env s index f, []) := by
  have hfill := contents_fill hi hslot f
  refine ⟨⟨?_, ?_⟩, rfl, ?_⟩
  · intro i hi'
    have hne : i ≠ index := by omega
    simp [storeFrame, Function.update_of_ne hne, h.housed i hi']
  · have hlen := hfill.length_eq
    have hle : (contents n s.reorderBuf).length ≤ n := by
      simpa [contents] using List.length_filterMap_le s.reorderBuf (List.range n)
    have hle' : (contents n (Function.update s.reorderBuf index (some f))).length ≤ n := by
      simpa [contents] using
        List.length_filterMap_le (Function.update s.reorderBuf index (some f)) (List.range n)
    simp only [List.length_cons] at hlen
    simp only [storeFrame, h.counted]
    omega
  · simp only [leftFrames_nil, zero_add, storedFrames, storeFrame]
    rw [Multiset.singleton_add, Multiset.cons_coe]
    exact Multiset.coe_eq_coe.mpr hfill.symm

/-- Whichever of its ways a frame takes through the session, it is conserved. -/
theorem conserves_rxSession {s : RxBaSession} (h : Stocked n s) (hb : s.bufSize ≤ n)
    (f : RxFrame) : Conserves n {f} s (rxSession env s f) := by
  rw [rxSession]
  split
  · exact ⟨h, rfl, by simp [leftFrames, sentFrames, freedFrames, RxEvent.sentFrames,
      RxEvent.freedFrames]⟩
  · rename_i hlive
    rw [staManageReorderBuf]
    split
    · exact conserves_drop h f
    · have hroom := conserves_makeRoom hn env h f.seqNum
      dsimp only
      split
      · exact hroom.trans' (conserves_drop hroom.stocked f)
      · rename_i hfree
        split
        · -- the fast path: the buffer stays as it is and the caller hands the frame over
          have hfast : Conserves n {f} (makeRoom env s f.seqNum).1
              ({ (makeRoom env s f.seqNum).1 with
                  headSeqNum := seqInc (makeRoom env s f.seqNum).1.headSeqNum },
                [.step none f.seqNum (seqInc (makeRoom env s f.seqNum).1.headSeqNum)
                  (.sent f)]) :=
            ⟨hroom.stocked.congr rfl rfl, rfl, by simp [leftFrames, sentFrames, freedFrames,
              RxEvent.sentFrames, RxEvent.freedFrames, storedFrames]⟩
          exact hroom.trans' hfast
        · have hi : (makeRoom env s f.seqNum).1.slot f.seqNum < n := by
            have hlt : (makeRoom env s f.seqNum).1.slot f.seqNum
                < (makeRoom env s f.seqNum).1.bufSize :=
              Nat.mod_lt _ (by rw [hroom.bufSize]; omega)
            rw [hroom.bufSize] at hlt
            omega
          have hstore := conserves_storeFrame hn env hroom.stocked hi (by simpa using hfree) f
          exact hroom.trans' (hstore.trans (conserves_staReorderRelease hn env hstore.stocked))

end loops

/-! ## Flushing and whole operations -/

/-- The flush empties the slots it walks and no other. -/
theorem flushLoop_reorderBuf (env : Env) (count index : ℕ) (s : RxBaSession) (i : ℕ) :
    (flushLoop env count index s).1.reorderBuf i
      = if index ≤ i ∧ i < index + count then none else s.reorderBuf i := by
  induction count generalizing index s with
  | zero => simp [flushLoop, show ¬ (index ≤ i ∧ i < index) by omega]
  | succ count ih =>
    rw [flushLoop]
    dsimp only
    rw [ih, releaseReorderFrame_reorderBuf]
    by_cases hi : i = index
    · subst hi
      simp
    · rw [Function.update_of_ne hi]
      congr 1
      rw [eq_iff_iff]
      omega

/-- A session whose books are in order is empty after a flush of all its slots. -/
theorem flushSession_reorderBuf (cfg : HostCfg) (env : Env) {s : RxBaSession}
    (h : Stocked cfg.ampduRxBufSize s) (i : ℕ) :
    (flushSession cfg env s).1.reorderBuf i = none := by
  rw [flushSession, flushLoop_reorderBuf]
  split
  · rfl
  · exact h.housed i (by omega)

/-- What every operation keeps: the books are in order and the session fits its buffer. -/
structure Sound (cfg : HostCfg) (s : RxBaSession) : Prop where
  stocked : Stocked cfg.ampduRxBufSize s
  bufSize_le : s.bufSize ≤ cfg.ampduRxBufSize

theorem sound_zero (cfg : HostCfg) : Sound cfg RxBaSession.zero := by
  refine ⟨⟨fun _ _ => rfl, ?_⟩, Nat.zero_le _⟩
  have hnil : contents cfg.ampduRxBufSize RxBaSession.zero.reorderBuf = [] :=
    contents_eq_nil.mpr fun _ _ => rfl
  rw [hnil]
  rfl

/-- An ADDBA event does not ask for more slots than there are. -/
def SessOp.Fits (cfg : HostCfg) : SessOp → Prop
  | .addba _ _ bufSize => bufSize ≤ cfg.ampduRxBufSize
  | _ => True

/-- The frame an operation brings in. -/
def SessOp.arrived : SessOp → Multiset RxFrame
  | .frame _ f => {f}
  | _ => 0

/-- Every operation keeps the session sound and conserves the frames. -/
theorem sessStep_conserves {cfg : HostCfg} {s : RxBaSession} (h : Sound cfg s) (op : SessOp)
    (hop : op.Fits cfg) :
    Sound cfg (sessStep cfg s op).1 ∧
      op.arrived + storedFrames cfg.ampduRxBufSize s
        = leftFrames (sessStep cfg s op).2
          + storedFrames cfg.ampduRxBufSize (sessStep cfg s op).1 := by
  have hn : cfg.ampduRxBufSize < 65536 := by
    have := cfg.ampduRxBufSize_lt
    omega
  have hsize : ∀ {arrived} {r : RxBaSession × List RxEvent},
      Conserves cfg.ampduRxBufSize arrived s r → Sound cfg r.1 := fun hc =>
    ⟨hc.stocked, hc.bufSize.le.trans h.bufSize_le⟩
  cases op with
  | frame env f =>
    have hc := conserves_rxSession hn env h.stocked h.bufSize_le f
    exact ⟨hsize hc, hc.frames⟩
  | bar env start =>
    have hc : Conserves cfg.ampduRxBufSize 0 s (rxBar env s start) := by
      rw [rxBar]
      split
      · exact .refl h.stocked
      · exact conserves_releaseReorderFramesLoop hn env _ _ h.stocked
    exact ⟨hsize hc, hc.frames⟩
  | timer env =>
    have hc : Conserves cfg.ampduRxBufSize 0 s (timerRelease env s) := by
      rw [timerRelease]
      split
      · exact .refl h.stocked
      · exact conserves_staReorderRelease hn env h.stocked
    exact ⟨hsize hc, hc.frames⟩
  | addba env ssn bufSize =>
    have hc := conserves_flushLoop hn env cfg.ampduRxBufSize 0 h.stocked
    exact ⟨⟨hc.stocked.congr rfl rfl, hop⟩, hc.frames⟩
  | delete env =>
    have hc := conserves_flushLoop hn env cfg.ampduRxBufSize 0 h.stocked
    refine ⟨⟨⟨hc.stocked.housed, ?_⟩, Nat.zero_le _⟩, hc.frames⟩
    have hnil : contents cfg.ampduRxBufSize (flushSession cfg env s).1.reorderBuf = [] :=
      contents_eq_nil.mpr fun i _ => flushSession_reorderBuf cfg env h.stocked i
    simp only [sessStep, deleteSession, hnil, List.length_nil]

end Fullmac.Rx
