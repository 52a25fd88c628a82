import Fullmac.Lib.Bytes
import Mathlib.Algebra.BigOperators.Group.List.Basic
import Mathlib.Algebra.GroupWithZero.Nat
import Mathlib.Data.List.Induction

/-!
# The format of a transmit aggregate

Reference: `host/hal/SSV6006/ssv6006_pkt.c`, `ssv6006_hal_process_hci_aggr_tx`;
`ssv6006_pktdef.h`, `struct hci_tx_aggr_info`.

Each call appends one frame to the buffer: a header of 8 bytes whose first 16 bits lead to the next
header, and the frame, rounded up to a multiple of 4 bytes. The number of frames and the sum of the
jumps are kept in the last word of the first header, and after each call a zero jump stands where
the next header goes. `LaidOut m off frames` says that the chain of headers that starts at `off`
leads through `frames`; an append keeps what is laid out before the place it writes to, which is
where the zero jump stood, and moves that jump on (`LaidOut.concat`).
-/

namespace Fullmac.Hci

open Bytes

/-! ## Appending a frame -/

/-- A frame in its buffer: the bytes from the data pointer on, those behind the frame included, and
the 16-bit data length. -/
structure Frame where
  bytes : Mem
  len : ℕ
  len_lt : len < 65536

/-- The data of a frame. -/
def Frame.data (f : Frame) : List UInt8 := slice f.bytes 0 f.len

/-- `align_size`, `(len + 4 - 1) & ~(4 - 1)`. -/
def Frame.alignSize (f : Frame) : ℕ := (f.len + 4 - 1) / 4 * 4

/-- What is copied of a frame: its data and up to three bytes that follow it in memory. -/
def Frame.aligned (f : Frame) : List UInt8 := slice f.bytes 0 f.alignSize

/-- `sizeof(struct hci_tx_aggr_info)`. -/
def txAggrInfoSize : ℕ := 8

/-- The number of bytes a frame takes in the aggregate. -/
def Frame.jmpLen (f : Frame) : ℕ := f.alignSize + txAggrInfoSize

/-- `jmp_len0` of a header at `off`. -/
def jmpLen0 (m : Mem) (off : ℕ) : ℕ := getU16 m off

/-- `aggr_tx_info->jmp_len0 = aggr_tx_info->jmp_len1 = v` for a header at `off`. -/
def setJmpLens (m : Mem) (off v : ℕ) : Mem := setU16 (setU16 m (off + 2) v) off (v % 65536)

/-- `extra_info->aggr_n` of the first header. -/
def aggrN (m : Mem) : ℕ := (m 4).toNat

/-- `extra_info->totol_len` of the first header. -/
def totolLen (m : Mem) : ℕ := getU16 m 5

/-- `ssv6006_hal_process_hci_aggr_tx`: the buffer after the call, the value returned and
`*aggr_len`. -/
def processHciAggrTx (tFrame : Frame) (aggrBuf : Mem) : Mem × ℕ × ℕ :=
  let start := if totolLen aggrBuf ≠ 0 then totolLen aggrBuf else 0
  let m := setJmpLens aggrBuf start (tFrame.alignSize + txAggrInfoSize)
  let m := copy m (start + txAggrInfoSize) tFrame.aligned
  let m := setU16 m 5 (totolLen m + jmpLen0 m start)
  let m := setJmpLens m (start + (tFrame.alignSize + txAggrInfoSize)) 0
  let aggrLen := totolLen m + 4
  let m := copy m 4 [m 4 + 1]
  (m, aggrN m, aggrLen)

/-- A buffer just set to zero. -/
def zeroBuf : Mem := fun _ => 0

/-- The buffer with the frames appended one after another, and what the last call returned. -/
def aggregate (frames : List Frame) : Mem × ℕ × ℕ :=
  frames.foldl (fun r f => processHciAggrTx f r.1) (zeroBuf, 0, 0)

/-! ## Walking through an aggregate -/

/-- Follow the jumps from `off` to a zero jump and collect what stands behind each header. -/
def walk (m : Mem) : ℕ → ℕ → Option (List (List UInt8))
  | 0, _ => none
  | fuel + 1, off =>
    if jmpLen0 m off = 0 then some []
    else (walk m fuel (off + jmpLen0 m off)).map
      (slice m (off + txAggrInfoSize) (jmpLen0 m off - txAggrInfoSize) :: ·)

/-- The sum of the jumps. -/
def total (frames : List Frame) : ℕ := (frames.map Frame.jmpLen).sum

/-- The chain of headers that starts at `off` leads through `frames` to a zero jump. -/
def LaidOut (m : Mem) : ℕ → List Frame → Prop
  | off, [] => jmpLen0 m off = 0
  | off, f :: frames =>
    jmpLen0 m off = f.jmpLen ∧ slice m (off + txAggrInfoSize) f.alignSize = f.aligned ∧
      LaidOut m (off + f.jmpLen) frames

@[simp] theorem total_nil : total [] = 0 := rfl

@[simp] theorem total_cons (f : Frame) (frames : List Frame) :
    total (f :: frames) = f.jmpLen + total frames := by
  simp [total]

@[simp] theorem total_append (frames frames' : List Frame) :
    total (frames ++ frames') = total frames + total frames' := by
  simp [total]

theorem Frame.jmpLen_eq (f : Frame) : f.jmpLen = f.alignSize + 8 := rfl

/-- Every frame takes some room. -/
theorem length_le_total (frames : List Frame) : frames.length ≤ total frames := by
  induction frames with
  | nil => rfl
  | cons f frames ih =>
    rw [total_cons, List.length_cons, Frame.jmpLen_eq]
    omega

/-- The walk finds what is laid out. -/
theorem LaidOut.walk {m : Mem} {off : ℕ} {frames : List Frame} (h : LaidOut m off frames) {fuel : ℕ}
    (hfuel : frames.length < fuel) : walk m fuel off = some (frames.map Frame.aligned) := by
  induction frames generalizing off fuel with
  | nil =>
    obtain ⟨fuel, rfl⟩ := Nat.exists_eq_succ_of_ne_zero (Nat.ne_of_gt hfuel)
    have hzero : jmpLen0 m off = 0 := h
    simp [Hci.walk, hzero]
  | cons f frames ih =>
    obtain ⟨fuel, rfl⟩ := Nat.exists_eq_succ_of_ne_zero (Nat.ne_zero_of_lt hfuel)
    obtain ⟨hjmp, hdata, hrest⟩ := h
    have hne : f.jmpLen ≠ 0 := by
      rw [Frame.jmpLen_eq]
      omega
    have hlen : f.jmpLen - txAggrInfoSize = f.alignSize := Nat.add_sub_cancel f.alignSize _
    rw [List.length_cons] at hfuel
    rw [Hci.walk, hjmp, if_neg hne, ih hrest (by omega), hlen, hdata]
    rfl

/-- Only what the chain leads through matters. -/
theorem LaidOut.congr {m m' : Mem} {off : ℕ} {frames : List Frame} (h : LaidOut m off frames)
    (hsame : ∀ i < off + total frames + 2, m' i = m i) : LaidOut m' off frames := by
  induction frames generalizing off with
  | nil =>
    rw [total_nil] at hsame
    rw [LaidOut, jmpLen0, getU16_congr (hsame _ (by omega)) (hsame _ (by omega))]
    exact h
  | cons f frames ih =>
    obtain ⟨hjmp, hdata, hrest⟩ := h
    rw [total_cons] at hsame
    have hlen := f.jmpLen_eq
    refine ⟨?_, ?_, ih hrest fun i hi => hsame i (by omega)⟩
    · rw [jmpLen0, getU16_congr (hsame _ (by omega)) (hsame _ (by omega))]
      exact hjmp
    · rw [← hdata]
      apply slice_congr
      intro i hi
      apply hsame
      simp only [txAggrInfoSize]
      omega

/-- Appending at the zero jump. Of what stands before it only the jumps and the frames matter: the
last word of the first header does not. -/
theorem LaidOut.concat {m m' : Mem} {off : ℕ} {frames : List Frame} {f : Frame}
    (h : LaidOut m off frames) (hoff : off = 0 ∨ 8 ≤ off)
    (hsame : ∀ i, off ≤ i → i < off + total frames → i < 4 ∨ 8 ≤ i → m' i = m i)
    (hjmp : jmpLen0 m' (off + total frames) = f.jmpLen)
    (hdata : slice m' (off + total frames + txAggrInfoSize) f.alignSize = f.aligned)
    (hend : jmpLen0 m' (off + total frames + f.jmpLen) = 0) :
    LaidOut m' off (frames ++ [f]) := by
  induction frames generalizing off with
  | nil => exact ⟨hjmp, hdata, hend⟩
  | cons g frames ih =>
    obtain ⟨hjmp', hdata', hrest⟩ := h
    rw [total_cons] at hsame
    rw [total_cons, ← Nat.add_assoc] at hjmp hdata hend
    have hlen := g.jmpLen_eq
    refine ⟨?_, ?_, ih hrest (by omega) (fun i hi hi' hout => hsame i (by omega) (by omega) hout)
      hjmp hdata hend⟩
    · rw [jmpLen0, getU16_congr (hsame _ (by omega) (by omega) (by omega))
        (hsame _ (by omega) (by omega) (by omega))]
      exact hjmp'
    · rw [← hdata']
      apply slice_congr
      intro i hi
      apply hsame <;> simp only [txAggrInfoSize] <;> omega

/-! ## The aggregate -/

/-- The buffer holds the aggregate of `frames`. -/
structure Aggregate (m : Mem) (frames : List Frame) : Prop where
  laidOut : LaidOut m 0 frames
  sum : totolLen m = total frames
  count : aggrN m = frames.length

theorem aggregate_zeroBuf : Aggregate zeroBuf [] := ⟨rfl, rfl, rfl⟩

/-- The frames end behind the first header, if there are any. -/
theorem total_eq_zero_or (frames : List Frame) : total frames = 0 ∨ 8 ≤ total frames := by
  cases frames with
  | nil => exact .inl rfl
  | cons f frames =>
    rw [total_cons, Frame.jmpLen_eq]
    omega

theorem setJmpLens_of_outside {m : Mem} {off v i : ℕ} (h : i < off ∨ off + 4 ≤ i) :
    setJmpLens m off v i = m i := by
  rw [setJmpLens, setU16_of_outside (by omega), setU16_of_outside (by omega)]

theorem jmpLen0_setJmpLens (m : Mem) (off v : ℕ) :
    jmpLen0 (setJmpLens m off v) off = v % 65536 := by
  rw [jmpLen0, setJmpLens, getU16_setU16, Nat.mod_mod]

theorem length_aligned (f : Frame) : f.aligned.length = f.alignSize := length_slice _ _ _

/-- Where the call writes: at `start`, the header and the frame; behind them the zero jump; and in
the last word of the first header the new sum and the new count. -/
theorem processHciAggrTx_spec {m : Mem} {f : Frame} {start : ℕ} (hstart : totolLen m = start)
    (hplace : start = 0 ∨ 8 ≤ start) (hfit : start + f.jmpLen < 65536) :
    let m' := (processHciAggrTx f m).1
    (∀ i < start, i < 4 ∨ 8 ≤ i → m' i = m i) ∧
      jmpLen0 m' start = f.jmpLen ∧
      slice m' (start + txAggrInfoSize) f.alignSize = f.aligned ∧
      jmpLen0 m' (start + f.jmpLen) = 0 ∧
      totolLen m' = start + f.jmpLen ∧
      m' 4 = m 4 + 1 ∧
      (processHciAggrTx f m).2 = (aggrN m', start + f.jmpLen + 4) := by
  have hlen := f.jmpLen_eq
  have hsize := length_aligned f
  have hstart' : (if totolLen m ≠ 0 then totolLen m else 0) = start := by
    rw [hstart]
    split <;> omega
  -- the four writes, in the order of the source, before the count is increased
  set m₁ := setJmpLens m start f.jmpLen with hm₁
  set m₂ := copy m₁ (start + txAggrInfoSize) f.aligned with hm₂
  set m₃ := setU16 m₂ 5 (totolLen m₂ + jmpLen0 m₂ start) with hm₃
  set m₄ := setJmpLens m₃ (start + f.jmpLen) 0 with hm₄
  have heq : processHciAggrTx f m
      = (copy m₄ 4 [m₄ 4 + 1], aggrN (copy m₄ 4 [m₄ 4 + 1]), totolLen m₄ + 4) := by
    simp only [processHciAggrTx, hstart']
    rfl
  set m₅ := copy m₄ 4 [m₄ 4 + 1] with hm₅
  have h₁ : ∀ i, i < start ∨ start + 4 ≤ i → m₁ i = m i := fun i h => setJmpLens_of_outside h
  have h₂ : ∀ i, i < start + 8 ∨ start + f.jmpLen ≤ i → m₂ i = m₁ i := fun i h =>
    copy_of_outside (by rw [hsize, txAggrInfoSize]; omega)
  have h₃ : ∀ i, i < 5 ∨ 7 ≤ i → m₃ i = m₂ i := fun i h => setU16_of_outside h
  have h₄ : ∀ i, i < start + f.jmpLen ∨ start + f.jmpLen + 4 ≤ i → m₄ i = m₃ i := fun i h =>
    setJmpLens_of_outside h
  have h₅ : ∀ i, i < 4 ∨ 5 ≤ i → m₅ i = m₄ i := fun i h => copy_of_outside h
  -- the first header's sum is still the old one when the new jump is added to it
  have hsum₂ : totolLen m₂ = start := by
    rw [← hstart, totolLen, totolLen, getU16_congr]
    · rw [h₂ _ (by omega), h₁ _ (by omega)]
    · rw [h₂ _ (by omega), h₁ _ (by omega)]
  have hjmp₂ : jmpLen0 m₂ start = f.jmpLen := by
    rw [jmpLen0, getU16_congr (h₂ _ (by omega)) (h₂ _ (by omega))]
    exact (jmpLen0_setJmpLens m start f.jmpLen).trans (Nat.mod_eq_of_lt (by omega))
  have hsum₄ : totolLen m₄ = start + f.jmpLen := by
    rw [totolLen, getU16_congr (h₄ _ (by omega)) (h₄ _ (by omega)), hm₃, getU16_setU16, hsum₂,
      hjmp₂, Nat.mod_eq_of_lt hfit]
  rw [heq]
  dsimp only
  refine ⟨?_, ?_, ?_, ?_, ?_, ?_, ?_⟩
  · intro i hi hout
    rw [h₅ i (by omega), h₄ i (by omega), h₃ i (by omega), h₂ i (by omega), h₁ i (by omega)]
  · rw [← hjmp₂, jmpLen0, jmpLen0, getU16_congr]
    · rw [h₅ _ (by omega), h₄ _ (by omega), h₃ _ (by omega)]
    · rw [h₅ _ (by omega), h₄ _ (by omega), h₃ _ (by omega)]
  · have hcopied := slice_copy_self m₁ (start + txAggrInfoSize) f.aligned
    rw [hsize] at hcopied
    rw [← hcopied]
    apply slice_congr
    intro i hi
    rw [txAggrInfoSize, h₅ _ (by omega), h₄ _ (by omega), h₃ _ (by omega)]
    rfl
  · rw [jmpLen0, getU16_congr (h₅ _ (by omega)) (h₅ _ (by omega))]
    exact jmpLen0_setJmpLens m₃ _ 0
  · rw [← hsum₄, totolLen, totolLen, getU16_congr (h₅ _ (by omega)) (h₅ _ (by omega))]
  · have hcount : m₅ 4 = m₄ 4 + 1 := copy_getElem (i := 0) (by simp)
    rw [hcount, h₄ _ (by omega), h₃ _ (by omega), h₂ _ (by omega), h₁ _ (by omega)]
  · rw [hsum₄]

/-- One call appends one frame, returns the new count and the new sum plus 4. -/
theorem Aggregate.append {m : Mem} {frames : List Frame} (h : Aggregate m frames) {f : Frame}
    (hfit : total (frames ++ [f]) < 65536) (hnum : frames.length + 1 < 256) :
    Aggregate (processHciAggrTx f m).1 (frames ++ [f]) ∧
      (processHciAggrTx f m).2 = (frames.length + 1, total (frames ++ [f]) + 4) := by
  have htotal : total (frames ++ [f]) = total frames + f.jmpLen := by simp
  rw [htotal] at hfit ⊢
  obtain ⟨hsame, hjmp, hdata, hend, hsum, hbyte, hret⟩ :=
    processHciAggrTx_spec h.sum (total_eq_zero_or frames) hfit
  have hold : (m 4).toNat = frames.length := h.count
  have hcount : aggrN (processHciAggrTx f m).1 = frames.length + 1 := by
    rw [aggrN, hbyte, UInt8.toNat_add, hold]
    exact Nat.mod_eq_of_lt hnum
  refine ⟨⟨?_, ?_, ?_⟩, ?_⟩
  · apply h.laidOut.concat (.inl rfl)
    · intro i _ hi hout
      exact hsame i (by omega) hout
    · rw [Nat.zero_add]
      exact hjmp
    · rw [Nat.zero_add]
      exact hdata
    · rw [Nat.zero_add]
      exact hend
  · rw [htotal, hsum]
  · rw [hcount, List.length_append, List.length_singleton]
  · rw [hret, hcount]

/-- Frame and copy differ by at most three bytes behind the frame. -/
theorem aligned_eq_data_append (f : Frame) :
    ∃ pad, f.aligned = f.data ++ pad ∧ pad.length ≤ 3 := by
  have hsize : f.alignSize = f.len + (f.alignSize - f.len) := by
    rw [Frame.alignSize]
    omega
  refine ⟨slice f.bytes (0 + f.len) (f.alignSize - f.len), ?_, ?_⟩
  · rw [Frame.aligned, hsize, slice_append]
    simp [Frame.data]
  · rw [length_slice, Frame.alignSize]
    omega

theorem aggregate_concat (frames : List Frame) (f : Frame) :
    aggregate (frames ++ [f]) = processHciAggrTx f (aggregate frames).1 := by
  simp [aggregate]

/-- The buffer holds what was appended to it. -/
theorem aggregate_aggregate (frames : List Frame) (hfit : total frames < 65536)
    (hnum : frames.length < 256) : Aggregate (aggregate frames).1 frames := by
  induction frames using List.reverseRecOn with
  | nil => exact aggregate_zeroBuf
  | append_singleton frames f ih =>
    have htotal : total (frames ++ [f]) = total frames + f.jmpLen := by simp
    rw [List.length_append, List.length_singleton] at hnum
    rw [aggregate_concat]
    exact ((ih (by omega) (by omega)).append hfit hnum).1

/-- The results are those of the last call. -/
theorem aggregate_snd {frames : List Frame} (hne : frames ≠ []) (hfit : total frames < 65536)
    (hnum : frames.length < 256) : (aggregate frames).2 = (frames.length, total frames + 4) := by
  induction frames using List.reverseRecOn with
  | nil => exact absurd rfl hne
  | append_singleton init f =>
    have htotal : total (init ++ [f]) = total init + f.jmpLen := by simp
    rw [List.length_append, List.length_singleton] at hnum ⊢
    rw [aggregate_concat]
    exact ((aggregate_aggregate init (by omega) (by omega)).append hfit hnum).2

/-- The walk through the buffer finds the frames, each followed by at most three bytes of padding;
the first header counts them and adds them up, and so do the two results of the last call. -/
theorem aggregate_walk (frames : List Frame) (hfit : total frames < 65536)
    (hnum : frames.length < 256) :
    let r := aggregate frames
    (∃ found, (∀ fuel, frames.length < fuel → walk r.1 fuel 0 = some found) ∧
      List.Forall₂ (fun f found => ∃ pad, found = f.data ++ pad ∧ pad.length ≤ 3) frames found) ∧
    aggrN r.1 = frames.length ∧ totolLen r.1 = total frames ∧
    (frames ≠ [] → r.2.1 = frames.length ∧ r.2.2 = total frames + 4) := by
  intro r
  have h : Aggregate r.1 frames := aggregate_aggregate frames hfit hnum
  refine ⟨⟨frames.map Frame.aligned, fun fuel hfuel => h.laidOut.walk hfuel, ?_⟩, h.count,
    h.sum, ?_⟩
  · rw [List.forall₂_map_right_iff, List.forall₂_same]
    exact fun f _ => aligned_eq_data_append f
  · intro hne
    have hlast := aggregate_snd hne hfit hnum
    exact ⟨congrArg Prod.fst hlast, congrArg Prod.snd hlast⟩

/-- A frame of five bytes and one of four. -/
def twoFrames : List Frame :=
  [⟨fun i => UInt8.ofNat (i + 1), 5, by decide⟩, ⟨zeroBuf, 4, by decide⟩]

theorem aggregate_walk_twoFrames :
    total twoFrames < 65536 ∧ aggrN (aggregate twoFrames).1 = 2 ∧
      totolLen (aggregate twoFrames).1 = 28 ∧ (aggregate twoFrames).2 = (2, 32) := by
  obtain ⟨-, hcount, hsum, hlast⟩ := aggregate_walk twoFrames (by decide) (by decide)
  exact ⟨by decide, hcount, hsum, Prod.ext (hlast (by decide)).1 (hlast (by decide)).2⟩

end Fullmac.Hci
