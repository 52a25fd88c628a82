import Fullmac.Ap.PowerSave
import Fullmac.Desc.PsFrame

/-!
# What a sleeping station is sent

Reference: `host/ap/ap_sta_info.c`, `ieee80211_sta_ps_deliver_response`.

The frames of a burst are taken from the queues that are not ignored, in the order of the
categories and from the front of each (`collectFrames_spec`), so a burst is the first `n_frames` of
what waits. Whether something is left is decided in the middle of that loop, before the frames are
sent (`moreDataLeft`), and it is right: the loop stops at the first queue that keeps a frame, or
there is none. Each frame is marked when it is its turn, as one with a successor in the burst or
something left behind it, and the last one of a service period as its end (`markBurst`).
-/

namespace Fullmac.Ap

open Desc (PsFrame)

variable {cfg : ApCfg}

/-! ## The code -/

/-- `more_data` after the first loop, which is that of `collectFrames`. -/
def moreDataLeft (i : StaIdx cfg) (ignored : ℕ) : List Ac → ℕ → ApInfo cfg → Bool
  | [], _, _ => false
  | ac :: acs, n, s =>
    if ignored.testBit ac then moreDataLeft i ignored acs n s
    else
      let r := takeFrames i ac n s
      if ((r.2.sta i).psTxBuf ac).isEmpty then moreDataLeft i ignored acs (n - r.1.length) r.2
      else true

/-- The marks of the second loop. -/
def markBurst (reason : ReleaseType) (moreData : Bool) : List PsFrame → List PsFrame
  | [] => []
  | f :: fs =>
    f.mark (moreData || !fs.isEmpty) (decide (reason = .uapsd) && fs.isEmpty)
      :: markBurst reason moreData fs

/-- The state in which `staPsDeliverResponse` collects the frames. -/
def spStarted (s : ApInfo cfg) (i : StaIdx cfg) (reason : ReleaseType) : ApInfo cfg :=
  if reason = .uapsd then s.modSta i fun st => { st with sp := true } else s

/-- The descriptors whose frames `staPsDeliverResponse` sends, in order. -/
def burst (s : ApInfo cfg) (i : StaIdx cfg) (nFrames ignored : ℕ) (reason : ReleaseType) :
    List (DespIdx cfg) :=
  (collectFrames i ignored (List.finRange 4) nFrames (spStarted s i reason)).1

/-- The frames as they are sent. -/
def sentFrames (frames : DespIdx cfg → PsFrame) (s : ApInfo cfg) (i : StaIdx cfg)
    (nFrames ignored : ℕ) (reason : ReleaseType) : List PsFrame :=
  markBurst reason (moreDataLeft i ignored (List.finRange 4) nFrames (spStarted s i reason))
    ((burst s i nFrames ignored reason).map frames)

/-! ## What waits -/

/-- The frames of the queues that are not ignored, in order. -/
def waiting (ignored : ℕ) (acs : List Ac) (q : Ac → List (DespIdx cfg)) : List (DespIdx cfg) :=
  acs.flatMap fun ac : Ac => if ignored.testBit ac then [] else q ac

theorem waiting_congr {ignored : ℕ} {acs : List Ac} {q q' : Ac → List (DespIdx cfg)}
    (h : ∀ ac ∈ acs, q' ac = q ac) : waiting ignored acs q' = waiting ignored acs q := by
  refine List.flatMap_congr fun ac hac => ?_
  rw [h ac hac]

theorem waiting_eq_nil_iff {ignored : ℕ} {acs : List Ac} {q : Ac → List (DespIdx cfg)} :
    waiting ignored acs q = [] ↔ ∀ ac ∈ acs, ignored.testBit ac = false → q ac = [] := by
  rw [waiting, List.flatMap_eq_nil_iff]
  refine forall₂_congr fun ac _ => ?_
  cases ignored.testBit ac <;> simp

theorem waiting_cons_of_ignored {ignored : ℕ} {ac : Ac} (h : ignored.testBit ac = true)
    (acs : List Ac) (q : Ac → List (DespIdx cfg)) :
    waiting ignored (ac :: acs) q = waiting ignored acs q := by
  simp [waiting, h]

theorem waiting_cons {ignored : ℕ} {ac : Ac} (h : ignored.testBit ac = false) (acs : List Ac)
    (q : Ac → List (DespIdx cfg)) :
    waiting ignored (ac :: acs) q = q ac ++ waiting ignored acs q := by
  simp [waiting, h]

/-- A category that is not in the list does not matter. -/
theorem waiting_update {ignored : ℕ} {ac : Ac} {acs : List Ac} (h : ac ∉ acs)
    (q : Ac → List (DespIdx cfg)) (l : List (DespIdx cfg)) :
    waiting ignored acs (Function.update q ac l) = waiting ignored acs q :=
  waiting_congr fun _ hmem => Function.update_of_ne (ne_of_mem_of_not_mem hmem h) _ _

/-! ## The burst -/

section Collect

variable {i : StaIdx cfg} {ignored : ℕ}

/-- The inner loop takes the first `n` frames of one queue. -/
theorem takeFrames_spec (i : StaIdx cfg) (ac : Ac) (n : ℕ) (s : ApInfo cfg) :
    (takeFrames i ac n s).1 = ((s.sta i).psTxBuf ac).take n ∧
      ((takeFrames i ac n s).2.sta i).psTxBuf
        = Function.update (s.sta i).psTxBuf ac (((s.sta i).psTxBuf ac).drop n) := by
  induction n generalizing s with
  | zero => simp [takeFrames]
  | succ n ih =>
    rcases listQDeq_cases s i ac with ⟨hq, hd⟩ | ⟨d, q, hq, hd⟩
    · simp only [takeFrames, hd, hq, List.take_nil, List.drop_nil, true_and]
      rw [← hq, Function.update_eq_self]
    · obtain ⟨htake, hdrop⟩ := ih ((setQueue s i ac q).subTotal 1)
      have hqueue : (((setQueue s i ac q).subTotal 1).sta i).psTxBuf
          = Function.update (s.sta i).psTxBuf ac q :=
        congrArg Station.psTxBuf (modSta_sta_self s i fun st =>
          { st with psTxBuf := Function.update st.psTxBuf ac q })
      rw [hqueue, Function.update_self] at htake hdrop
      rw [Function.update_idem] at hdrop
      simp only [takeFrames, hd, hq, List.take_succ_cons, List.drop_succ_cons, htake, hdrop,
        and_self]

/-- What the outer loop does to the queues `q` of the station, given what it returns. -/
structure Collected (ignored : ℕ) (acs : List Ac) (n : ℕ) (q q' : Ac → List (DespIdx cfg))
    (taken : List (DespIdx cfg)) (more : Bool) : Prop where
  taken : taken = (waiting ignored acs q).take n
  left : waiting ignored acs q' = (waiting ignored acs q).drop n
  more : more = decide (n < (waiting ignored acs q).length)
  suffix : ∀ ac, q' ac <:+ q ac
  other : ∀ ac, ac ∉ acs ∨ ignored.testBit ac = true → q' ac = q ac

/-- A category that is not in the list or ignored is not one the loop takes frames from. -/
theorem ne_of_passed_over {ac ac' : Ac} {acs : List Ac} (hign : ignored.testBit ac = false)
    (h : ac' ∉ ac :: acs ∨ ignored.testBit ac' = true) : ac' ≠ ac := by
  rintro rfl
  rcases h with hnot | htrue
  · exact hnot List.mem_cons_self
  · exact absurd (hign.symm.trans htrue) Bool.false_ne_true

/-- A category that the loop passes over. -/
theorem Collected.skip {ac : Ac} {acs : List Ac} {n : ℕ} {q q' : Ac → List (DespIdx cfg)}
    {taken : List (DespIdx cfg)} {more : Bool} (hign : ignored.testBit ac = true)
    (h : Collected ignored acs n q q' taken more) :
    Collected ignored (ac :: acs) n q q' taken more := by
  refine ⟨?_, ?_, ?_, h.suffix, fun ac' h' => h.other ac' (h'.imp ?_ id)⟩
  · rw [waiting_cons_of_ignored hign, h.taken]
  · rw [waiting_cons_of_ignored hign, waiting_cons_of_ignored hign, h.left]
  · rw [waiting_cons_of_ignored hign, h.more]
  · exact fun hnot hmem => hnot (List.mem_cons_of_mem ac hmem)

/-- The loop takes all of a queue and goes on. -/
theorem Collected.exhaust {ac : Ac} {acs : List Ac} {n : ℕ} {q q' : Ac → List (DespIdx cfg)}
    {taken : List (DespIdx cfg)} {more : Bool} (hign : ignored.testBit ac = false)
    (hac : ac ∉ acs) (hle : (q ac).length ≤ n)
    (h : Collected ignored acs (n - (q ac).length) (Function.update q ac []) q' taken more) :
    Collected ignored (ac :: acs) n q q' (q ac ++ taken) more := by
  obtain ⟨htaken, hleft, hmore, hsuffix, hother⟩ := h
  rw [waiting_update hac] at htaken hleft hmore
  have hkept := hother ac (.inl hac)
  rw [Function.update_self] at hkept
  refine ⟨?_, ?_, ?_, fun ac' => ?_, fun ac' h' => ?_⟩
  · rw [htaken, waiting_cons hign, List.take_append, List.take_of_length_le hle]
  · rw [waiting_cons hign, hkept, List.nil_append, hleft, waiting_cons hign, List.drop_append,
      List.drop_eq_nil_of_le hle, List.nil_append]
  · rw [hmore, waiting_cons hign, List.length_append, decide_eq_decide]
    omega
  · by_cases hne : ac' = ac
    · rw [hne, hkept]
      exact List.nil_suffix
    · have hshorter := hsuffix ac'
      rwa [Function.update_of_ne hne] at hshorter
  · rw [hother ac' (h'.imp (fun hnot hmem => hnot (List.mem_cons_of_mem ac hmem)) id),
      Function.update_of_ne (ne_of_passed_over hign h')]

/-- The loop takes the first frames of a queue and ends. -/
theorem Collected.stop {ac : Ac} {acs : List Ac} {n : ℕ} {q : Ac → List (DespIdx cfg)}
    (hign : ignored.testBit ac = false) (hac : ac ∉ acs) (hlt : n < (q ac).length) :
    Collected ignored (ac :: acs) n q (Function.update q ac ((q ac).drop n)) ((q ac).take n)
      true := by
  refine ⟨?_, ?_, ?_, fun ac' => ?_,
    fun ac' h' => Function.update_of_ne (ne_of_passed_over hign h') _ _⟩
  · rw [waiting_cons hign, List.take_append_of_le_length hlt.le]
  · rw [waiting_cons hign, waiting_update hac, Function.update_self, waiting_cons hign,
      List.drop_append_of_le_length hlt.le]
  · rw [waiting_cons hign, List.length_append, eq_comm, decide_eq_true_eq]
    omega
  · by_cases hne : ac' = ac
    · rw [hne, Function.update_self]
      exact List.drop_suffix n _
    · rw [Function.update_of_ne hne]

/-- The outer loop takes the first `n` frames of what waits, and `more_data` says whether anything
is left. -/
theorem collectFrames_spec {acs : List Ac} (hacs : acs.Nodup) (n : ℕ) (s : ApInfo cfg) :
    Collected ignored acs n (s.sta i).psTxBuf
      ((collectFrames i ignored acs n s).2.sta i).psTxBuf
      (collectFrames i ignored acs n s).1 (moreDataLeft i ignored acs n s) := by
  induction acs generalizing n s with
  | nil => exact ⟨by simp [waiting, collectFrames], by simp [waiting],
      by simp [waiting, moreDataLeft], fun _ => List.suffix_rfl, fun _ _ => rfl⟩
  | cons ac acs ih =>
    obtain ⟨hac, hacs⟩ := List.nodup_cons.mp hacs
    unfold collectFrames moreDataLeft
    cases hign : ignored.testBit ac with
    | true => exact (ih hacs n s).skip hign
    | false =>
      obtain ⟨htake, hdrop⟩ := takeFrames_spec i ac n s
      have hempty : (((takeFrames i ac n s).2.sta i).psTxBuf ac).isEmpty = true
          ↔ ((s.sta i).psTxBuf ac).length ≤ n := by
        rw [hdrop, Function.update_self, List.isEmpty_iff, List.drop_eq_nil_iff]
      simp only [Bool.false_eq_true, if_false]
      by_cases hle : ((s.sta i).psTxBuf ac).length ≤ n
      · have hrest := ih hacs (n - (takeFrames i ac n s).1.length) (takeFrames i ac n s).2
        rw [if_pos (hempty.mpr hle), if_pos (hempty.mpr hle)]
        rw [htake, List.take_of_length_le hle] at hrest ⊢
        rw [hdrop, List.drop_eq_nil_of_le hle] at hrest
        exact hrest.exhaust hign hac hle
      · rw [if_neg (hle ∘ hempty.mp), if_neg (hle ∘ hempty.mp), htake, hdrop]
        exact .stop hign hac (Nat.not_le.mp hle)

/-- Sending a frame leaves the queues alone. -/
theorem psTxBuf_deliverFrames (i : StaIdx cfg) (reason : ReleaseType) (l : List (DespIdx cfg))
    (s : ApInfo cfg) :
    ((l.foldl (deliverFrame i reason) s).sta i).psTxBuf = (s.sta i).psTxBuf := by
  induction l generalizing s with
  | nil => rfl
  | cons d l ih =>
    have hsend : (apSendBufferedFrame s d).sta = s.sta := by
      unfold apSendBufferedFrame
      dsimp only
      split
      · next t _ =>
        obtain ⟨u, b, he⟩ := callTxHandlers_neverQueued_cases s { t.frame with psFrame := true }
          false false
        simp only [apReleaseTxDesp, dataCouldBeSend, ApInfo.logTest, he]
      · rfl
    rw [List.foldl_cons, ih, deliverFrame, modSta_sta_self, hsend]

/-- The queues after a delivery are those the burst was taken from. -/
theorem psTxBuf_staPsDeliverResponse (s : ApInfo cfg) (nFrames : ℕ) (reason : ReleaseType) :
    ((staPsDeliverResponse s i nFrames ignored reason).sta i).psTxBuf
      = ((collectFrames i ignored (List.finRange 4) nFrames (spStarted s i reason)).2.sta i).psTxBuf
    := by
  have hsp : ∀ s : ApInfo cfg, ((s.modSta i fun st => { st with sp := false }).sta i).psTxBuf
      = (s.sta i).psTxBuf := fun s => by rw [modSta_sta_self]
  have htim : ∀ s : ApInfo cfg, (recalcTimGenBeacon s i).sta = s.sta := by
    intro s
    unfold recalcTimGenBeacon staInfoRecalcTim
    dsimp only
    split <;> rfl
  have hnull : ∀ s : ApInfo cfg, (sendNullResponse s i).sta = s.sta := by
    intro s
    obtain ⟨u, b, he⟩ := callTxHandlers_neverQueued_cases s
      { da := (s.sta i).addr, isData := true, priority := noQosPriority, psFrame := false }
      true true
    simp only [sendNullResponse, dataCouldBeSend, ApInfo.logTest, he]
  unfold staPsDeliverResponse
  dsimp only
  rw [hsp, htim, ← spStarted]
  split_ifs
  · rw [hnull]
  · rfl
  · exact psTxBuf_deliverFrames i reason _ _

/-- The service period does not concern the queues. -/
theorem psTxBuf_spStarted (s : ApInfo cfg) (reason : ReleaseType) :
    ((spStarted s i reason).sta i).psTxBuf = (s.sta i).psTxBuf := by
  unfold spStarted
  split
  · rw [modSta_sta_self]
  · rfl

end Collect

/-! ## The marks -/

/-- The marks of one frame of a burst. -/
theorem getElem?_markBurst (reason : ReleaseType) (moreData : Bool) (fs : List PsFrame) (k : ℕ) :
    (markBurst reason moreData fs)[k]? = (fs[k]?).map fun f =>
      f.mark (moreData || decide (k + 1 < fs.length))
        (decide (reason = .uapsd) && decide (k + 1 = fs.length)) := by
  induction fs generalizing k with
  | nil => rfl
  | cons f fs ih =>
    cases k with
    | zero =>
      cases fs <;> simp [markBurst]
    | succ k =>
      simp only [markBurst, List.getElem?_cons_succ, ih, List.length_cons,
        Nat.add_lt_add_iff_right, Nat.add_right_cancel_iff]

@[simp] theorem length_markBurst (reason : ReleaseType) (moreData : Bool) (fs : List PsFrame) :
    (markBurst reason moreData fs).length = fs.length := by
  induction fs with
  | nil => rfl
  | cons f fs ih => rw [markBurst, List.length_cons, List.length_cons, ih]

/-- Behind the frame `k` of a burst of `len` frames another one of a category that is not ignored
remains, in the burst or in the queues `q'` it has left. -/
def StillWaits (ignored : ℕ) (q' : Ac → List (DespIdx cfg)) (len k : ℕ) : Prop :=
  k + 1 < len ∨ ∃ ac : Ac, ignored.testBit ac = false ∧ q' ac ≠ []

/-- The frame `f` has become `f'` as the frame `k` of a burst of `len` frames. -/
structure Marked (reason : ReleaseType) (len k : ℕ) (remains : Prop) (f f' : PsFrame) : Prop where
  more : f'.moreData = true ↔ remains
  fcMore : f.Is80211 → (f'.fcMore = true ↔ remains)
  last : reason = .uapsd → k + 1 = len → f.HasQos → f.Is80211 ∨ ¬ f.HasHt → f'.carriesEosp = true
  lastNoQos : reason = .uapsd → k + 1 = len → ¬ f.HasQos → f'.carriesEosp = false
  other : ¬ (reason = .uapsd ∧ k + 1 = len) → f'.carriesEosp = f.carriesEosp

/-- A delivery takes the first frames of what waits in the categories that are not ignored, in the
order of the categories and of the queues, and leaves the rest and the ignored queues as they are.
Each frame says whether another one remains. In a service period the last frame carries EOSP if it
has a QoS control field, and no other frame changes in this respect. -/
theorem staPsDeliverResponse_delivers (frames : DespIdx cfg → PsFrame) (s : ApInfo cfg)
    (i : StaIdx cfg) (nFrames ignored : ℕ) (reason : ReleaseType) :
    let q := (s.sta i).psTxBuf
    let q' := ((staPsDeliverResponse s i nFrames ignored reason).sta i).psTxBuf
    let ready := waiting ignored (List.finRange 4) q
    let sent := sentFrames frames s i nFrames ignored reason
    burst s i nFrames ignored reason = ready.take nFrames ∧
      waiting ignored (List.finRange 4) q' = ready.drop nFrames ∧
      (∀ ac, q' ac <:+ q ac) ∧
      (∀ ac : Ac, ignored.testBit ac = true → q' ac = q ac) ∧
      sent.length = min nFrames ready.length ∧
      ∀ k d f', (burst s i nFrames ignored reason)[k]? = some d → sent[k]? = some f' →
        Marked reason sent.length k (StillWaits ignored q' sent.length k) (frames d) f' := by
  intro q q' ready sent
  have hspec : Collected ignored (List.finRange 4) nFrames ((spStarted s i reason).sta i).psTxBuf
      ((collectFrames i ignored (List.finRange 4) nFrames (spStarted s i reason)).2.sta i).psTxBuf
      (collectFrames i ignored (List.finRange 4) nFrames (spStarted s i reason)).1
      (moreDataLeft i ignored (List.finRange 4) nFrames (spStarted s i reason)) :=
    collectFrames_spec (List.nodup_finRange 4) nFrames (spStarted s i reason)
  obtain ⟨htaken, hleft, hmore, hsuffix, hother⟩ := hspec
  rw [psTxBuf_spStarted] at htaken hleft hmore hsuffix hother
  rw [← psTxBuf_staPsDeliverResponse] at hleft hsuffix hother
  have hlen : sent.length = min nFrames ready.length := by
    rw [← List.length_take, ← htaken]
    simp only [sent, sentFrames, burst, length_markBurst, List.length_map]
  have hlenBurst : (burst s i nFrames ignored reason).length = sent.length := by
    simp only [sent, sentFrames, length_markBurst, List.length_map]
  refine ⟨htaken, hleft, hsuffix, fun ac h => hother ac (.inr h), hlen, ?_⟩
  intro k d f' hd hf'
  have hk : k < sent.length := (List.getElem?_eq_some_iff.mp hf').1
  -- what is left in the queues
  have hqueues : (∃ ac : Ac, ignored.testBit ac = false ∧ q' ac ≠ []) ↔ nFrames < ready.length := by
    rw [← not_iff_not, Nat.not_lt, ← List.drop_eq_nil_iff, ← hleft, waiting_eq_nil_iff]
    simp only [not_exists, not_and, not_not]
    exact ⟨fun h ac _ hac => h ac hac, fun h ac hac => h ac (List.mem_finRange ac) hac⟩
  have hmark : f' = (frames d).mark
      (decide (nFrames < ready.length) || decide (k + 1 < sent.length))
      (decide (reason = .uapsd) && decide (k + 1 = sent.length)) := by
    rw [← hlenBurst]
    simp only [sent, sentFrames, getElem?_markBurst, List.getElem?_map, hd, Option.map_some,
      Option.some.injEq, List.length_map, hmore] at hf'
    exact hf'.symm
  have hremains : (decide (nFrames < ready.length) || decide (k + 1 < sent.length)) = true
      ↔ StillWaits ignored q' sent.length k := by
    rw [StillWaits, hqueues, Bool.or_eq_true, decide_eq_true_eq, decide_eq_true_eq, or_comm]
  rw [hmark]
  refine ⟨?_, fun h => ?_, fun hr hlast hq hht => ?_, fun hr hlast hq => ?_, fun hno => ?_⟩
  · rw [Desc.moreData_mark, hremains]
  · rw [Desc.fcMore_mark _ _ h, hremains]
  · rw [decide_eq_true hr, decide_eq_true hlast, Bool.and_true]
    exact Desc.carriesEosp_mark_true _ hq hht
  · exact Desc.carriesEosp_mark_of_not_hasQos _ _ _ hq
  · have hfalse : (decide (reason = .uapsd) && decide (k + 1 = sent.length)) = false := by
      rw [Bool.and_eq_false_iff, decide_eq_false_iff_not, decide_eq_false_iff_not]
      exact not_and_or.mp hno
    rw [hfalse, Desc.carriesEosp_mark_false]

/-- A frame with an empty descriptor, which has no QoS control field. -/
def plainFrame : PsFrame where
  mem := fun _ => 0
  hostTxreq0 := 0
  data := 12
  cType := rfl
  data_eq := rfl

/-- A station with one frame in a queue. -/
def oneWaiting : ApInfo openAp :=
  (initAp openAp).modSta ⟨0, openAp.maxAid_pos⟩ fun st =>
    { st with psTxBuf := fun ac => if ac.val = 2 then (List.finRange _).take 1 else [] }

/-- A service period in which one frame without a QoS control field is sent does not end with a
frame that carries EOSP. -/
theorem sentFrames_without_eosp :
    let sent := sentFrames (fun _ => plainFrame) oneWaiting (0 : Fin 2) 2 0xF0 .uapsd
    sent.length = 1 ∧
      ¬ ∀ k f, sent[k]? = some f → (f.carriesEosp = true ↔ k + 1 = sent.length) := by
  intro sent
  have hsent : sent = [plainFrame.mark false true] := rfl
  refine ⟨by rw [hsent]; rfl, fun h => ?_⟩
  have hlast := (h 0 _ (by rw [hsent]; rfl)).mpr (by rw [hsent]; rfl)
  rw [Desc.carriesEosp_mark_of_not_hasQos _ _ _ (by decide)] at hlast
  exact absurd hlast Bool.false_ne_true

end Fullmac.Ap
