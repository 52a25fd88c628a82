import Fullmac.Lib.ReadLoops

/-!
# The options of a packet

Reference: `host/app/netapp/udhcp/udhcp_common.h`, `struct dhcp_packet`;
`host/app/netapp/udhcp/common.c`, `udhcp_get_option`.

A packet is its bytes, and behind them is whatever memory there is. An option is looked for in the
option field, and, if an option there says so, in the fields for the file and the name of the server
as well. The search ends for every packet, and what it finds depends on the packet only, although
the byte behind it may be read (`udhcpGetOption_sound`).
-/

namespace Fullmac.Dhcp

open Bytes
open Loops (passes passes_of_measure of_passes)
open Reads (val read loop val_loop inside_loop Inside)

/-! ## The packet -/

/-- Where the fields of `struct dhcp_packet` stand. -/
def xidOff : ℕ := 4
def flagsOff : ℕ := 10
def ciaddrOff : ℕ := 12
def yiaddrOff : ℕ := 16
def siaddrNipOff : ℕ := 20
def gatewayNipOff : ℕ := 24
def chaddrOff : ℕ := 28
def snameOff : ℕ := 44
def fileOff : ℕ := 108
def cookieOff : ℕ := 236
def optionsOff : ℕ := 240

/-- `DHCP_OPTIONS_BUFSIZE`. -/
def optionsBufsize : ℕ := 308

/-- `DHCP_SIZE`. -/
def dhcpSize : ℕ := 548

/-- `DHCP_PADDING`, `DHCP_END`, `DHCP_OPTION_OVERLOAD`. -/
def padding : UInt8 := 0
def endOption : UInt8 := 255
def optionOverload : UInt8 := 52

/-- `FILE_FIELD`, `FILE_FIELD101`, `SNAME_FIELD`, `SNAME_FIELD101`. -/
def fileField : ℕ := 1
def fileField101 : ℕ := 0x101
def snameField : ℕ := 2
def snameField101 : ℕ := 0x202

/-! ## The search -/

/-- The variables of `udhcp_get_option`: `optionptr`, `rem`, `overload`. -/
structure Scan where
  ptr : ℕ
  rem : ℤ
  overload : ℕ
deriving DecidableEq, Repr

/-- One pass of the loop of `udhcp_get_option`. -/
def getOptionPass (code : UInt8) (s : Scan) : Reads (Scan ⊕ Option ℕ) :=
  if s.rem ≤ 0 then pure (.inr none)
  else do
    let c ← read s.ptr
    if c = padding then pure (.inl { s with ptr := s.ptr + 1, rem := s.rem - 1 })
    else if c = endOption then
      if s.overload &&& fileField101 = fileField then
        pure (.inl ⟨fileOff, 128, s.overload ||| fileField101⟩)
      else if s.overload &&& snameField101 = snameField then
        pure (.inl ⟨snameOff, 64, s.overload ||| snameField101⟩)
      else pure (.inr none)
    else do
      let optLen ← read (s.ptr + 1)
      let len := 2 + optLen.toNat
      -- the next pass complains
      if s.rem - len < 0 then pure (.inl { s with rem := s.rem - len })
      else if c = code then pure (.inr (some (s.ptr + 2)))
      else if c = optionOverload then do
        let data ← read (s.ptr + 2)
        pure (.inl ⟨s.ptr + len, s.rem - len, s.overload ||| data.toNat⟩)
      else pure (.inl { s with ptr := s.ptr + len, rem := s.rem - len })

/-- The search starts at the option field. -/
def scanStart : Scan := ⟨optionsOff, optionsBufsize, 0⟩

/-- As many passes as `udhcp_get_option` can make. -/
def getOptionBound : ℕ := 503

/-- `udhcp_get_option`: where the data of the option stands. -/
def udhcpGetOption (code : UInt8) : Reads (Option ℕ) := do
  let found ← loop (getOptionPass code) getOptionBound scanStart
  pure (found.getD none)

/-! ## One pass -/

variable {m m' : Mem} {code : UInt8} {s s' : Scan} {r : Option ℕ}

theorem val_getOptionPass (m : Mem) (code : UInt8) (s : Scan) :
    val m (getOptionPass code s) =
      if s.rem ≤ 0 then .inr none
      else if m s.ptr = padding then .inl { s with ptr := s.ptr + 1, rem := s.rem - 1 }
      else if m s.ptr = endOption then
        if s.overload &&& fileField101 = fileField then
          .inl ⟨fileOff, 128, s.overload ||| fileField101⟩
        else if s.overload &&& snameField101 = snameField then
          .inl ⟨snameOff, 64, s.overload ||| snameField101⟩
        else .inr none
      else if s.rem - (2 + (m (s.ptr + 1)).toNat : ℕ) < 0 then
        .inl { s with rem := s.rem - (2 + (m (s.ptr + 1)).toNat : ℕ) }
      else if m s.ptr = code then .inr (some (s.ptr + 2))
      else if m s.ptr = optionOverload then
        .inl ⟨s.ptr + (2 + (m (s.ptr + 1)).toNat), s.rem - (2 + (m (s.ptr + 1)).toNat : ℕ),
          s.overload ||| (m (s.ptr + 2)).toNat⟩
      else .inl { s with
        ptr := s.ptr + (2 + (m (s.ptr + 1)).toNat)
        rem := s.rem - (2 + (m (s.ptr + 1)).toNat : ℕ) } := by
  simp only [getOptionPass, Reads.val_ite, Reads.val_bind, Reads.val_read, Reads.val_pure]

/-- What a pass does that goes on. -/
inductive Goes (m : Mem) (s : Scan) : Scan → Prop
  | padding : Goes m s { s with ptr := s.ptr + 1, rem := s.rem - 1 }
  | file (h : s.overload &&& fileField101 = fileField) :
      Goes m s ⟨fileOff, 128, s.overload ||| fileField101⟩
  | sname (h : s.overload &&& snameField101 = snameField) :
      Goes m s ⟨snameOff, 64, s.overload ||| snameField101⟩
  | malformed (h : s.rem < (2 + (m (s.ptr + 1)).toNat : ℕ)) :
      Goes m s { s with rem := s.rem - (2 + (m (s.ptr + 1)).toNat : ℕ) }
  | next (h : (2 + (m (s.ptr + 1)).toNat : ℕ) ≤ s.rem) (bits : ℕ) (hbits : bits < 256) :
      Goes m s ⟨s.ptr + (2 + (m (s.ptr + 1)).toNat), s.rem - (2 + (m (s.ptr + 1)).toNat : ℕ),
        s.overload ||| bits⟩

theorem goes_of_pass (h : val m (getOptionPass code s) = .inl s') : 0 < s.rem ∧ Goes m s s' := by
  rw [val_getOptionPass] at h
  by_cases hrem : s.rem ≤ 0
  · rw [if_pos hrem] at h
    cases h
  refine ⟨by omega, ?_⟩
  rw [if_neg hrem] at h
  split_ifs at h with hpad hend hfile hsname hfit hcode hover <;> cases h
  · exact .padding
  · exact .file hfile
  · exact .sname hsname
  · exact .malformed (by omega)
  · exact .next (by omega) _ (UInt8.toNat_lt _)
  · have hgoes := Goes.next (m := m) (s := s) (by omega) 0 (by omega)
    rwa [Nat.or_zero] at hgoes

theorem found_of_pass (h : val m (getOptionPass code s) = .inr r) :
    r = none ∨ m s.ptr = code ∧ (2 + (m (s.ptr + 1)).toNat : ℕ) ≤ s.rem ∧ r = some (s.ptr + 2) := by
  rw [val_getOptionPass] at h
  split_ifs at h with hrem hpad hend hfile hsname hfit hcode hover <;> cases h
  · exact .inl rfl
  · exact .inl rfl
  · exact .inr ⟨hcode, by omega, rfl⟩

/-! ## The search ends -/

/-- A field that has not been looked at may still be. -/
def fieldLeft (overload bit size : ℕ) : ℕ := if overload.testBit bit then 0 else size + 1

/-- What is left of the search. -/
def Scan.measure (s : Scan) : ℕ :=
  s.rem.toNat + fieldLeft s.overload 8 128 + fieldLeft s.overload 9 64

theorem fieldLeft_or_le (overload bits bit size : ℕ) :
    fieldLeft (overload ||| bits) bit size ≤ fieldLeft overload bit size := by
  rw [fieldLeft, fieldLeft, Nat.testBit_or]
  cases overload.testBit bit with
  | true => exact Nat.le_refl 0
  | false =>
    rw [Bool.false_or]
    split <;> simp

/-- To look at a field that has not been looked at. -/
theorem fieldLeft_look {overload mask : ℕ} (bit size : ℕ)
    (hfresh : (overload &&& mask).testBit bit = false) (hmask : mask.testBit bit = true) :
    fieldLeft overload bit size = size + 1 ∧ fieldLeft (overload ||| mask) bit size = 0 := by
  have hbit : overload.testBit bit = false := by
    rw [Nat.testBit_and, hmask, Bool.and_true] at hfresh
    exact hfresh
  refine ⟨by rw [fieldLeft, hbit, if_neg Bool.false_ne_true], ?_⟩
  rw [fieldLeft, Nat.testBit_or, hmask, Bool.or_true, if_pos rfl]

theorem Goes.measure_lt (h : Goes m s s') (hrem : 0 < s.rem) : s'.measure < s.measure := by
  cases h with
  | padding =>
    dsimp only [Scan.measure]
    omega
  | file h =>
    have hlook := fieldLeft_look 8 128 (by rw [h]; decide)
      (show fileField101.testBit 8 = true by decide)
    have hle := fieldLeft_or_le s.overload fileField101 9 64
    dsimp only [Scan.measure]
    omega
  | sname h =>
    have hlook := fieldLeft_look 9 64 (by rw [h]; decide)
      (show snameField101.testBit 9 = true by decide)
    have hle := fieldLeft_or_le s.overload snameField101 8 128
    dsimp only [Scan.measure]
    omega
  | malformed h =>
    dsimp only [Scan.measure]
    omega
  | next h bits hbits =>
    have h8 := fieldLeft_or_le s.overload bits 8 128
    have h9 := fieldLeft_or_le s.overload bits 9 64
    dsimp only [Scan.measure]
    omega

/-- The search ends. -/
theorem exists_passes_getOption (m : Mem) (code : UInt8) :
    ∃ r, passes (fun s => val m (getOptionPass code s)) getOptionBound scanStart = some r := by
  refine passes_of_measure (I := fun _ => True) (μ := Scan.measure) (fun s s' _ hs => ?_) trivial
    (by decide)
  obtain ⟨hrem, hgoes⟩ := goes_of_pass hs
  exact ⟨trivial, hgoes.measure_lt hrem⟩

theorem val_udhcpGetOption (h : passes (fun s => val m (getOptionPass code s)) getOptionBound
    scanStart = some r) : val m (udhcpGetOption code) = r := by
  rw [udhcpGetOption, Reads.val_bind, val_loop, h]
  rfl

/-! ## Where it looks -/

/-- The fields that may hold options: where they start, and their size. -/
def optionFields : List (ℕ × ℕ) :=
  [(optionsOff, optionsBufsize), (fileOff, 128), (snameOff, 64)]

/-- The pointer is in one of the fields, with `rem` bytes of it to go. -/
def Scan.InField (s : Scan) : Prop :=
  s.rem < 0 ∨ ∃ field ∈ optionFields, field.1 ≤ s.ptr ∧ s.ptr + s.rem = field.1 + field.2

theorem inField_scanStart : scanStart.InField :=
  .inr ⟨_, .head _, Nat.le_refl _, by decide⟩

theorem Goes.inField (h : Goes m s s') (hrem : 0 < s.rem) (hs : s.InField) : s'.InField := by
  obtain hs | ⟨field, hmem, hlow, hhigh⟩ := hs
  · omega
  cases h with
  | padding =>
    refine .inr ⟨field, hmem, ?_, ?_⟩ <;> dsimp only <;> omega
  | file => exact .inr ⟨_, .tail _ (.head _), Nat.le_refl _, rfl⟩
  | sname => exact .inr ⟨_, .tail _ (.tail _ (.head _)), Nat.le_refl _, rfl⟩
  | malformed h =>
    left
    dsimp only
    omega
  | next h =>
    refine .inr ⟨field, hmem, ?_, ?_⟩ <;> dsimp only <;> omega

theorem field_le {field : ℕ × ℕ} (h : field ∈ optionFields) : field.1 + field.2 ≤ dhcpSize := by
  revert h field
  decide

theorem inside_getOptionPass (hs : s.InField) :
    Inside (dhcpSize + 1) m (getOptionPass code s) := by
  simp only [getOptionPass, Reads.inside_ite, Reads.inside_bind, Reads.inside_read,
    Reads.inside_pure, Reads.val_read, implies_true, true_and, and_true]
  intro hrem
  obtain hs | ⟨field, hmem, hlow, hhigh⟩ := hs
  · omega
  have hsize := field_le hmem
  exact ⟨by omega, fun _ _ => ⟨by omega, fun _ _ _ => by omega⟩⟩

/-- Two searches at the same place, or both at the end of a field. -/
def SameScan (s t : Scan) : Prop := s.InField ∧ s = t ∨ s.rem ≤ 0 ∧ t.rem ≤ 0

/-- The byte behind the packet is read for the length of an option that starts with the last byte of
the packet, and for the data of an empty option that ends it. Both ways nothing is left. -/
theorem sameScan_pass (code : UInt8) (hsame : ∀ i < dhcpSize, m i = m' i) (hs : s.InField)
    (hrem : 0 < s.rem) :
    val m (getOptionPass code s) = val m' (getOptionPass code s) ∨
      ∃ t t', val m (getOptionPass code s) = .inl t ∧ val m' (getOptionPass code s) = .inl t' ∧
        t.rem ≤ 0 ∧ t'.rem ≤ 0 := by
  obtain hs | ⟨field, hmem, hlow, hhigh⟩ := hs
  · omega
  have hsize := field_le hmem
  have hcode : m' s.ptr = m s.ptr := (hsame _ (by omega)).symm
  simp only [val_getOptionPass, hcode, if_neg (show ¬ s.rem ≤ 0 by omega)]
  by_cases hpad : m s.ptr = padding
  · exact .inl (by rw [if_pos hpad, if_pos hpad])
  by_cases hend : m s.ptr = endOption
  · exact .inl (by simp only [if_neg hpad, if_pos hend])
  simp only [if_neg hpad, if_neg hend]
  by_cases hlast : s.ptr + 1 < dhcpSize
  · rw [← hsame _ hlast]
    by_cases hfit : s.rem - (2 + (m (s.ptr + 1)).toNat : ℕ) < 0
    · exact .inl (by rw [if_pos hfit, if_pos hfit])
    by_cases hdata : s.ptr + 2 < dhcpSize
    · exact .inl (by rw [hsame _ hdata])
    · simp only [if_neg hfit]
      by_cases hfound : m s.ptr = code
      · exact .inl (by rw [if_pos hfound, if_pos hfound])
      simp only [if_neg hfound]
      split_ifs
      · refine .inr ⟨_, _, rfl, rfl, ?_, ?_⟩ <;> dsimp only <;> omega
      · exact .inl rfl
  · rw [if_pos (by omega), if_pos (by omega)]
    refine .inr ⟨_, _, rfl, rfl, ?_, ?_⟩ <;> dsimp only <;> omega

theorem pass_of_le (m : Mem) (code : UInt8) (h : s.rem ≤ 0) :
    val m (getOptionPass code s) = .inr none := by
  rw [val_getOptionPass, if_pos h]

/-- What is found depends on the packet only. -/
theorem val_udhcpGetOption_congr (hsame : ∀ i < dhcpSize, m i = m' i) (code : UInt8) :
    val m (udhcpGetOption code) = val m' (udhcpGetOption code) := by
  rw [udhcpGetOption, Reads.val_bind, Reads.val_bind, val_loop, val_loop]
  rw [Loops.passes_congr (R := SameScan) ?_ (.inl ⟨inField_scanStart, rfl⟩)]
  · rfl
  rintro s t (⟨hs, rfl⟩ | ⟨hs, ht⟩)
  · by_cases hrem : s.rem ≤ 0
    · exact .inl ⟨none, pass_of_le m code hrem, pass_of_le m' code hrem⟩
    obtain heq | ⟨t, t', hm, hm', ht⟩ := sameScan_pass code hsame hs (by omega)
    · cases hpass : val m (getOptionPass code s) with
      | inl s' =>
        obtain ⟨hpos, hgoes⟩ := goes_of_pass hpass
        exact .inr ⟨s', s', rfl, heq ▸ hpass, .inl ⟨hgoes.inField hpos hs, rfl⟩⟩
      | inr r => exact .inl ⟨r, rfl, heq ▸ hpass⟩
    · exact .inr ⟨t, t', hm, hm', .inr ht⟩
  · exact .inl ⟨none, pass_of_le m code hs, pass_of_le m' code ht⟩

/-- The data of an option of a packet stand at `off`. -/
structure OptionAt (m : Mem) (code : UInt8) (off : ℕ) : Prop where
  code : m (off - 2) = code
  field : ∃ field ∈ optionFields, field.1 + 2 ≤ off ∧
    off + (m (off - 1)).toNat ≤ field.1 + field.2

theorem optionAt_of_val {off : ℕ} (h : val m (udhcpGetOption code) = some off) :
    OptionAt m code off := by
  obtain ⟨r, hr⟩ := exists_passes_getOption m code
  rw [val_udhcpGetOption hr] at h
  subst h
  refine of_passes (I := Scan.InField) (Q := fun r => ∀ off, r = some off → OptionAt m code off)
    ?_ ?_ inField_scanStart hr off rfl
  · rintro s r hs hpass off rfl
    obtain hnone | ⟨hcode, hfit, hoff⟩ := found_of_pass hpass
    · cases hnone
    · obtain rfl := Option.some.inj hoff
      obtain hs | ⟨field, hmem, hlow, hhigh⟩ := hs
      · omega
      · refine ⟨hcode, field, hmem, by omega, ?_⟩
        show s.ptr + 2 + (m (s.ptr + 1)).toNat ≤ _
        omega
  · intro s s' hs hpass
    obtain ⟨hrem, hgoes⟩ := goes_of_pass hpass
    exact hgoes.inField hrem hs

/-- The search ends for every packet; it reads at most the one byte behind it, on which nothing
depends; and what it finds is an option that is wholly inside one of the fields. -/
theorem udhcpGetOption_sound (m : Mem) (code : UInt8) :
    (∃ r, passes (fun s => val m (getOptionPass code s)) getOptionBound scanStart = some r) ∧
      Inside (dhcpSize + 1) m (udhcpGetOption code) ∧
      (∀ m', (∀ i < dhcpSize, m i = m' i) →
        val m (udhcpGetOption code) = val m' (udhcpGetOption code)) ∧
      ∀ off, val m (udhcpGetOption code) = some off → OptionAt m code off := by
  refine ⟨exists_passes_getOption m code, ?_, fun m' hsame => val_udhcpGetOption_congr hsame code,
    fun off => optionAt_of_val⟩
  rw [udhcpGetOption, Reads.inside_bind]
  refine ⟨inside_loop (I := Scan.InField) (fun s => inside_getOptionPass) (fun s s' hs hpass => ?_)
    inField_scanStart _, Reads.inside_pure _ _ _⟩
  obtain ⟨hrem, hgoes⟩ := goes_of_pass hpass
  exact hgoes.inField hrem hs

end Fullmac.Dhcp
