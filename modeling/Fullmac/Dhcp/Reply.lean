import Fullmac.Dhcp.Options

/-!
# A packet that is put together

Reference: `host/app/netapp/udhcp/common.c`, `dhcp_optflags`, `dhcp_option_lengths`,
`udhcp_end_option`, `udhcp_add_binary_option`, `udhcp_add_simple_option`;
`host/app/netapp/udhcp/packet.c`, `udhcp_init_header`.

The end of the options is looked for without a bound, so a packet that is put together carries with
it that its option field holds options and an end (`Reply`). Options are added one behind the other
as long as they fit, and `udhcp_get_option` finds the first one of each code again
(`udhcpGetOption_added`).
-/

namespace Fullmac.Dhcp

open Bytes
open Loops (passes passes_succ_of_inl passes_succ_of_inr)
open Reads (val)

/-! ## What an option field holds -/

/-- An option in binary form: `data[OPT_CODE]`, and the data, whose length is `data[OPT_LEN]`. -/
structure Opt where
  code : UInt8
  data : List UInt8
  proper : code ≠ padding ∧ code ≠ endOption
  short : data.length < 256
deriving DecidableEq

/-- The bytes of an option. -/
def Opt.bytes (o : Opt) : List UInt8 := o.code :: UInt8.ofNat o.data.length :: o.data

/-- Options one behind the other. -/
def encode (os : List Opt) : List UInt8 := os.flatMap Opt.bytes

/-- At `off` there are options, and an end behind them. -/
def Lays (m : Mem) (off : ℕ) (os : List Opt) : Prop :=
  slice m off ((encode os).length + 1) = encode os ++ [endOption]

variable {m m' : Mem} {off n : ℕ} {o : Opt} {os : List Opt}

theorem Opt.length_bytes (o : Opt) : o.bytes.length = 2 + o.data.length := by
  rw [Opt.bytes, List.length_cons, List.length_cons]
  omega

@[simp] theorem encode_nil : encode [] = [] := rfl

@[simp] theorem encode_cons (o : Opt) (os : List Opt) :
    encode (o :: os) = o.bytes ++ encode os := rfl

theorem encode_concat (os : List Opt) (o : Opt) : encode (os ++ [o]) = encode os ++ o.bytes := by
  rw [encode, List.flatMap_append, ← encode, List.flatMap_singleton]

theorem length_le_encode (os : List Opt) : os.length ≤ (encode os).length := by
  induction os with
  | nil => exact Nat.le_refl 0
  | cons o os ih =>
    rw [encode_cons, List.length_append, Opt.length_bytes, List.length_cons]
    omega

theorem Lays.congr (h : Lays m off os)
    (hsame : ∀ i < (encode os).length + 1, m' (off + i) = m (off + i)) : Lays m' off os :=
  (slice_congr hsame).trans h

theorem lays_nil_iff : Lays m off [] ↔ m off = endOption := by
  rw [Lays, encode_nil, List.length_nil, slice_succ, List.nil_append]
  exact ⟨fun h => (List.cons.inj h).1, fun h => by rw [h]; rfl⟩

/-- The first option, and what is behind it. -/
theorem lays_cons_iff : Lays m off (o :: os) ↔
    m off = o.code ∧ m (off + 1) = UInt8.ofNat o.data.length ∧
      slice m (off + 2) o.data.length = o.data ∧ Lays m (off + (2 + o.data.length)) os := by
  have hlen : (encode (o :: os)).length + 1 = 2 + o.data.length + ((encode os).length + 1) := by
    rw [encode_cons, List.length_append, Opt.length_bytes]
    omega
  rw [Lays, hlen, slice_append, Nat.add_comm 2, slice_succ, slice_succ, encode_cons,
    List.append_assoc, Opt.bytes]
  constructor
  · intro h
    obtain ⟨hhead, htail⟩ := List.append_inj h (by simp)
    obtain ⟨hcode, hhead⟩ := List.cons.inj hhead
    obtain ⟨hopt, hdata⟩ := List.cons.inj hhead
    exact ⟨hcode, hopt, hdata, htail⟩
  · rintro ⟨hcode, hopt, hdata, htail⟩
    rw [hcode, hopt, hdata, htail]

/-- An option that takes the place of the end, and an end behind it. -/
theorem Lays.concat (h : Lays m off os) (o : Opt) :
    Lays (copy (copy m (off + (encode os).length) o.bytes)
      (off + (encode os).length + (2 + o.data.length)) [endOption]) off (os ++ [o]) := by
  rw [← o.length_bytes, copy_append, Lays, encode_concat, List.append_assoc]
  have hlen : (encode os ++ o.bytes).length + 1
      = (encode os).length + (o.bytes ++ [endOption]).length := by
    rw [List.length_append, List.length_append, List.length_singleton]
    omega
  rw [hlen, slice_append, slice_copy_self]
  congr 1
  rw [slice_congr fun i hi => copy_of_outside (by omega)]
  have hfront := h
  rw [Lays, slice_append] at hfront
  exact (List.append_inj hfront (length_slice _ _ _)).1

/-! ## The end -/

/-- One pass of the loop of `udhcp_end_option`. -/
def endPass (m : Mem) (i : ℕ) : ℕ ⊕ ℕ :=
  if m i ≠ endOption then
    .inl ((if m i ≠ padding then i + ((m (i + 1)).toNat + 2 - 1) else i) + 1)
  else .inr i

theorem passes_endPass (h : Lays m off os) (hn : os.length < n) :
    passes (endPass m) n off = some (off + (encode os).length) := by
  induction os generalizing off n with
  | nil =>
    obtain ⟨n, rfl⟩ : ∃ k, n = k + 1 := ⟨n - 1, by omega⟩
    have hend : endPass m off = .inr off := if_neg (not_not.mpr (lays_nil_iff.mp h))
    rw [passes_succ_of_inr hend, encode_nil]
    rfl
  | cons o os ih =>
    obtain ⟨n, rfl⟩ : ∃ k, n = k + 1 := ⟨n - 1, by omega⟩
    obtain ⟨hcode, hlen, -, htail⟩ := lays_cons_iff.mp h
    have hnext : endPass m off = .inl (off + (2 + o.data.length)) := by
      rw [endPass, hcode, if_pos o.proper.2, if_pos o.proper.1, hlen,
        UInt8.toNat_ofNat_of_lt' o.short]
      congr 1
      omega
    rw [List.length_cons] at hn
    rw [passes_succ_of_inl hnext, ih htail (by omega), encode_cons, List.length_append,
      Opt.length_bytes, Nat.add_assoc]

/-- A packet that is being put together: its option field holds options and an end. -/
structure Reply where
  mem : Mem
  ended : ∃ os, Lays mem optionsOff os ∧ (encode os).length < optionsBufsize

variable {r : Reply}

theorem Reply.exists_end (r : Reply) :
    (passes (endPass r.mem) optionsBufsize optionsOff).isSome = true := by
  obtain ⟨os, hlays, hlen⟩ := r.ended
  have := length_le_encode os
  rw [passes_endPass hlays (by omega)]
  rfl

/-- `udhcp_end_option` of the option field. -/
def udhcpEndOption (r : Reply) : ℕ :=
  (passes (endPass r.mem) optionsBufsize optionsOff).get r.exists_end - optionsOff

theorem udhcpEndOption_eq (h : Lays r.mem optionsOff os)
    (hlen : (encode os).length < optionsBufsize) : udhcpEndOption r = (encode os).length := by
  have hle := length_le_encode os
  have hend := passes_endPass (n := optionsBufsize) h (by omega)
  simp only [udhcpEndOption, hend, Option.get_some]
  omega

/-! ## Adding options -/

/-- `udhcp_add_binary_option`. -/
def udhcpAddBinaryOption (r : Reply) (o : Opt) : Reply :=
  let fin := udhcpEndOption r
  let len := 2 + o.data.length
  if hfit : optionsBufsize ≤ fin + len + 1 then r
  else
    { mem := copy (copy r.mem (optionsOff + fin) o.bytes) (optionsOff + fin + len) [endOption]
      ended := by
        obtain ⟨os, hlays, hlen⟩ := r.ended
        have hfin : fin = (encode os).length := udhcpEndOption_eq hlays hlen
        refine ⟨os ++ [o], ?_, ?_⟩
        · rw [hfin]
          exact hlays.concat o
        · rw [encode_concat, List.length_append, o.length_bytes]
          omega }

/-- The options of a packet that has `os` when another one is added: one that does not fit is left
out. -/
def fitted (os : List Opt) (o : Opt) : List Opt :=
  if optionsBufsize ≤ (encode os).length + (2 + o.data.length) + 1 then os else os ++ [o]

/-- The option field holds these options. -/
structure Reply.Holds (r : Reply) (os : List Opt) : Prop where
  lays : Lays r.mem optionsOff os
  lt : (encode os).length < optionsBufsize

theorem Reply.Holds.add (h : r.Holds os) (o : Opt) :
    (udhcpAddBinaryOption r o).Holds (fitted os o) := by
  have hfin := udhcpEndOption_eq h.lays h.lt
  rw [udhcpAddBinaryOption, fitted]
  by_cases hfit : optionsBufsize ≤ (encode os).length + (2 + o.data.length) + 1
  · rw [dif_pos (by rwa [hfin]), if_pos hfit]
    exact h
  · rw [dif_neg (by rwa [hfin]), if_neg hfit]
    refine ⟨?_, ?_⟩
    · show Lays (copy (copy r.mem (optionsOff + udhcpEndOption r) o.bytes)
        (optionsOff + udhcpEndOption r + (2 + o.data.length)) [endOption]) optionsOff (os ++ [o])
      rw [hfin]
      exact h.lays.concat o
    · rw [encode_concat, List.length_append, o.length_bytes]
      omega

/-- Several options, one after the other. -/
theorem Reply.Holds.foldl (h : r.Holds os) (added : List Opt) :
    (added.foldl udhcpAddBinaryOption r).Holds (added.foldl fitted os) := by
  induction added generalizing r os with
  | nil => exact h
  | cons o added ih => exact ih (h.add o)

theorem mem_foldl_fitted {added : List Opt} (h : o ∈ added.foldl fitted os) : o ∈ os ++ added := by
  induction added generalizing os with
  | nil => simpa using h
  | cons a added ih =>
    rw [List.foldl_cons] at h
    have hmem := ih h
    rw [fitted] at hmem
    rw [List.mem_append, List.mem_cons]
    split at hmem
    · rcases List.mem_append.mp hmem with hmem | hmem
      · exact .inl hmem
      · exact .inr (.inr hmem)
    · rw [List.append_assoc, List.mem_append, List.singleton_append, List.mem_cons] at hmem
      exact hmem

/-! ## Simple options -/

/-- `struct dhcp_optflag`. -/
structure DhcpOptflag where
  flags : ℕ
  code : UInt8
deriving DecidableEq, Repr

/-- `OPTION_IP`, `OPTION_IP_PAIR`, and so on; `OPTION_TYPE_MASK`, `OPTION_REQ`,
`OPTION_LIST`. -/
def optionIp : ℕ := 1
def optionIpPair : ℕ := 2
def optionString : ℕ := 3
def optionStringHost : ℕ := 4
def optionU8 : ℕ := 5
def optionU16 : ℕ := 6
def optionU32 : ℕ := 7
def optionS32 : ℕ := 8
def optionStaticRoutes : ℕ := 10
def option6rd : ℕ := 11
def optionTypeMask : ℕ := 0x0f
def optionReq : ℕ := 0x10
def optionList : ℕ := 0x20

/-- `dhcp_optflags`, without the entry that ends it. -/
def dhcpOptflags : List DhcpOptflag :=
  [⟨optionIp ||| optionReq, 0x01⟩, ⟨optionS32, 0x02⟩, ⟨optionIp ||| optionList ||| optionReq, 0x03⟩,
    ⟨optionIp ||| optionList ||| optionReq, 0x06⟩, ⟨optionIp ||| optionList, 0x09⟩,
    ⟨optionStringHost ||| optionReq, 0x0c⟩, ⟨optionU16, 0x0d⟩,
    ⟨optionStringHost ||| optionReq, 0x0f⟩, ⟨optionIp, 0x10⟩, ⟨optionString, 0x11⟩,
    ⟨optionU8, 0x17⟩, ⟨optionU16, 0x1a⟩, ⟨optionIp ||| optionReq, 0x1c⟩,
    ⟨optionIpPair ||| optionList, 0x21⟩, ⟨optionStringHost, 0x28⟩, ⟨optionIp ||| optionList, 0x29⟩,
    ⟨optionIp ||| optionList ||| optionReq, 0x2a⟩, ⟨optionIp ||| optionList, 0x2c⟩,
    ⟨optionU32, 0x33⟩, ⟨optionIp, 0x36⟩, ⟨optionString, 0x38⟩, ⟨optionStringHost, 0x42⟩,
    ⟨optionString, 0x43⟩, ⟨optionStaticRoutes ||| optionList, 0x79⟩, ⟨optionString, 0xd1⟩,
    ⟨option6rd, 0xd4⟩, ⟨optionStaticRoutes ||| optionList, 0xf9⟩, ⟨optionString, 0xfc⟩,
    ⟨optionIp, 0x32⟩, ⟨optionU8, 0x35⟩, ⟨optionU16, 0x39⟩]

/-- `dhcp_option_lengths`. -/
def dhcpOptionLengths : List ℕ := [0, 4, 8, 1, 1, 1, 2, 4, 4, 0, 5, 22]

theorem dhcpOptflags_proper {f : DhcpOptflag} (h : f ∈ dhcpOptflags) :
    f.code ≠ padding ∧ f.code ≠ endOption := by
  revert h f
  decide

/-- The option that `udhcp_add_simple_option` adds. One that is longer than a word would be read
past the end of `option`; no caller asks for one. -/
def simpleOption (code : UInt8) (data : ℕ) : Option Opt :=
  match h : dhcpOptflags.find? fun f => f.code = code with
  | none => none
  | some f => some {
      code := f.code
      data := (le32 data).take (dhcpOptionLengths.getD (f.flags &&& optionTypeMask) 0)
      proper := dhcpOptflags_proper (List.mem_of_find?_eq_some h)
      short := by
        rw [List.length_take]
        exact Nat.lt_of_le_of_lt (Nat.min_le_right _ _) (show 4 < 256 by decide) }

/-- `udhcp_add_simple_option`. -/
def udhcpAddSimpleOption (r : Reply) (code : UInt8) (data : ℕ) : Reply :=
  (simpleOption code data).elim r (udhcpAddBinaryOption r)

/-! ## The header -/

/-- `DHCPOFFER`, `DHCPACK`, `DHCPNAK`; `BOOTREQUEST`, `BOOTREPLY`; `DHCP_MESSAGE_TYPE`. -/
def dhcpOffer : UInt8 := 2
def dhcpAck : UInt8 := 5
def dhcpNak : UInt8 := 6
def bootRequest : UInt8 := 1
def bootReply : UInt8 := 2
def messageType : UInt8 := 53

/-- What `udhcp_init_header` writes before it adds an option, into memory that held `memory`. -/
def blankHeader (memory : Mem) (type : UInt8) : Mem :=
  let zeroed : Mem := fun i => if i < dhcpSize then 0 else memory i
  let op := if type = dhcpOffer ∨ type = dhcpAck ∨ type = dhcpNak then bootReply else bootRequest
  copy (copy (copy zeroed 0 [op, 1, 6]) cookieOff [0x63, 0x82, 0x53, 0x63]) optionsOff [endOption]

theorem lays_blankHeader (memory : Mem) (type : UInt8) :
    Lays (blankHeader memory type) optionsOff [] := by
  rw [lays_nil_iff, blankHeader]
  exact copy_getElem (i := 0) (by simp)

/-- `udhcp_init_header`. -/
def udhcpInitHeader (memory : Mem) (type : UInt8) : Reply :=
  udhcpAddSimpleOption ⟨blankHeader memory type, [], lays_blankHeader memory type, by decide⟩
    messageType type.toNat

/-- The option that `udhcp_init_header` adds. -/
def typeOption (type : UInt8) : Opt where
  code := messageType
  data := [type]
  proper := by decide
  short := show 1 < 256 by decide

theorem simpleOption_messageType (type : UInt8) :
    simpleOption messageType type.toNat = some (typeOption type) := by
  have hbyte : (le32 type.toNat).take 1 = [type] := by
    rw [le32, List.take_succ_cons, List.take_zero, UInt8.ofNat_toNat]
  have hopt : ∀ data h, data = [type] →
      (⟨messageType, data, (typeOption type).proper, h⟩ : Opt) = typeOption type := by
    rintro data h rfl
    rfl
  exact congrArg some (hopt _ _ hbyte)

theorem holds_udhcpInitHeader (memory : Mem) (type : UInt8) :
    (udhcpInitHeader memory type).Holds [typeOption type] := by
  have hfit : fitted [] (typeOption type) = [typeOption type] :=
    if_neg (show ¬ 308 ≤ 0 + (2 + 1) + 1 by decide)
  have hblank : Reply.Holds ⟨blankHeader memory type, [], lays_blankHeader memory type, by decide⟩
      [] := ⟨lays_blankHeader memory type, by decide⟩
  have hadd := hblank.add (typeOption type)
  rw [hfit] at hadd
  rw [udhcpInitHeader, udhcpAddSimpleOption, simpleOption_messageType, Option.elim_some]
  exact hadd

/-! ## Finding an option again -/

variable {code : UInt8} {rem : ℤ}

/-- The search comes to an option. -/
theorem pass_of_lays (code : UInt8) (overload : ℕ) (h : Lays m off (o :: os))
    (hrem : (encode (o :: os)).length < rem) :
    (o.code = code → val m (getOptionPass code ⟨off, rem, overload⟩) = .inr (some (off + 2))) ∧
      (o.code ≠ code → ∃ overload', (o.code ≠ optionOverload → overload' = overload) ∧
        val m (getOptionPass code ⟨off, rem, overload⟩) =
          .inl ⟨off + (2 + o.data.length), rem - (2 + o.data.length : ℕ), overload'⟩) := by
  obtain ⟨hcode, hlen, -, -⟩ := lays_cons_iff.mp h
  rw [encode_cons, List.length_append, o.length_bytes] at hrem
  have hnat : (m (off + 1)).toNat = o.data.length := by
    rw [hlen, UInt8.toNat_ofNat_of_lt' o.short]
  rw [val_getOptionPass]
  dsimp only
  rw [hcode, hnat, if_neg (by omega), if_neg o.proper.1, if_neg o.proper.2, if_neg (by omega)]
  refine ⟨fun heq => if_pos heq, fun hne => ?_⟩
  rw [if_neg hne]
  split
  case isTrue hover => exact ⟨_, fun hnot => absurd hover hnot, rfl⟩
  case isFalse => exact ⟨overload, fun _ => rfl, rfl⟩

/-- The first option of a code is found. -/
theorem passes_find (overload : ℕ) (h : Lays m off os) (hrem : (encode os).length < rem)
    (hn : os.length < n)
    (hfind : os.find? (fun o => o.code = code) = some o) :
    ∃ pos, passes (fun s => val m (getOptionPass code s)) n ⟨off, rem, overload⟩
        = some (some pos) ∧ m (pos - 1) = UInt8.ofNat o.data.length ∧
      slice m pos o.data.length = o.data := by
  induction os generalizing off n rem overload with
  | nil => cases hfind
  | cons a os ih =>
    obtain ⟨n, rfl⟩ : ∃ k, n = k + 1 := ⟨n - 1, by omega⟩
    obtain ⟨hfound, hnext⟩ := pass_of_lays code overload h hrem
    obtain ⟨-, hlen, hdata, htail⟩ := lays_cons_iff.mp h
    rw [List.find?_cons] at hfind
    by_cases hcode : a.code = code
    · rw [decide_eq_true hcode] at hfind
      obtain rfl := Option.some.inj hfind
      exact ⟨off + 2, passes_succ_of_inr (hfound hcode) n, hlen, hdata⟩
    · rw [decide_eq_false hcode] at hfind
      obtain ⟨overload', -, hpass⟩ := hnext hcode
      rw [encode_cons, List.length_append, a.length_bytes] at hrem
      rw [List.length_cons] at hn
      rw [passes_succ_of_inl hpass]
      exact ih overload' htail (by omega) (by omega) hfind

/-- A code that is not there is not found, unless the other fields are looked at. -/
theorem passes_find_none (h : Lays m off os) (hrem : (encode os).length < rem) (hn : os.length < n)
    (hfind : os.find? (fun o => o.code = code) = none)
    (hover : ∀ o ∈ os, o.code ≠ optionOverload) :
    passes (fun s => val m (getOptionPass code s)) n ⟨off, rem, 0⟩ = some none := by
  induction os generalizing off n rem with
  | nil =>
    obtain ⟨n, rfl⟩ : ∃ k, n = k + 1 := ⟨n - 1, by omega⟩
    rw [encode_nil] at hrem
    have hpass : val m (getOptionPass code ⟨off, rem, 0⟩) = .inr none := by
      rw [val_getOptionPass]
      dsimp only
      rw [lays_nil_iff.mp h, if_neg (by simpa using hrem), if_neg (by decide), if_pos rfl,
        if_neg (by decide), if_neg (by decide)]
    exact passes_succ_of_inr hpass n
  | cons a os ih =>
    obtain ⟨n, rfl⟩ : ∃ k, n = k + 1 := ⟨n - 1, by omega⟩
    obtain ⟨-, hnext⟩ := pass_of_lays code 0 h hrem
    obtain ⟨-, -, -, htail⟩ := lays_cons_iff.mp h
    have hcode : a.code ≠ code := by
      simpa using List.find?_eq_none.mp hfind a (.head _)
    obtain ⟨overload', hsame, hpass⟩ := hnext hcode
    obtain rfl := hsame (hover a (.head _))
    rw [encode_cons, List.length_append, a.length_bytes] at hrem
    rw [List.length_cons] at hn
    rw [passes_succ_of_inl hpass]
    refine ih htail (by omega) (by omega) ?_ fun o ho => hover o (.tail _ ho)
    rwa [List.find?_cons, decide_eq_false hcode] at hfind

/-- The first option of a code that a packet holds is found. -/
theorem Reply.Holds.found (h : r.Holds os)
    (hfind : os.find? (fun o => o.code = code) = some o) :
    ∃ pos, val r.mem (udhcpGetOption code) = some pos ∧
      r.mem (pos - 1) = UInt8.ofNat o.data.length ∧ slice r.mem pos o.data.length = o.data := by
  have hcount := length_le_encode os
  have hsize : (encode os).length < 308 := h.lt
  have hpasses : os.length < 503 := by omega
  obtain ⟨pos, hfound, hlen, hdata⟩ := passes_find 0 h.lays (Int.ofNat_lt.mpr hsize) hpasses hfind
  exact ⟨pos, val_udhcpGetOption hfound, hlen, hdata⟩

theorem Reply.Holds.not_found (h : r.Holds os)
    (hfind : os.find? (fun o => o.code = code) = none)
    (hover : ∀ o ∈ os, o.code ≠ optionOverload) : val r.mem (udhcpGetOption code) = none := by
  have hcount := length_le_encode os
  have hsize : (encode os).length < 308 := h.lt
  have hpasses : os.length < 503 := by omega
  exact val_udhcpGetOption (passes_find_none h.lays (Int.ofNat_lt.mpr hsize) hpasses hfind hover)

end Fullmac.Dhcp
