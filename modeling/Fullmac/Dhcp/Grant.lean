import Fullmac.Dhcp.Reply

/-!
# The packets of the server

Reference: `host/app/netapp/udhcp/dhcpd.h`, `struct server_config_t`;
`host/app/netapp/udhcp/dhcpd.c`, `init_packet`, `add_server_options`, `select_lease_time`, and the
packets of `send_offer`, `send_ACK` and `send_inform`.

An offer and an acknowledgement tell the client the address and, behind the type of the message and
the server, for how long it has it. Options of the configuration come behind these and cannot stand
in for them, so a client that looks for an option by its code reads what the server meant
(`grantPacket_read`).
-/

namespace Fullmac.Dhcp

open Bytes
open Reads (val)

/-- `DHCP_SUBNET`, `DHCP_ROUTER`, `DHCP_DNS_SERVER`, `DHCP_LEASE_TIME`, `DHCP_SERVER_ID`. -/
def subnetOption : UInt8 := 0x01
def routerOption : UInt8 := 0x03
def dnsServer : UInt8 := 0x06
def leaseTime : UInt8 := 0x33
def serverId : UInt8 := 0x36

/-- The fields of `struct server_config_t` that go into a packet. The program copies a fixed number
of bytes of the two names. -/
structure ServerConfig where
  serverNip : ℕ
  options : List Opt
  subnet : ℕ
  gw : ℕ
  dns : ℕ
  maxLeaseSec : ℕ
  minLeaseSec : ℕ
  maxLeaseSec_lt : maxLeaseSec < 4294967296
  minLeaseSec_lt : minLeaseSec < 4294967296
  siaddrNip : ℕ
  sname : Option {l : List UInt8 // l.length = 63}
  bootFile : Option {l : List UInt8 // l.length = 127}

/-- `htonl` and `ntohl` of a little-endian machine. -/
def htonl (v : ℕ) : ℕ :=
  v % 256 * 16777216 + v / 256 % 256 * 65536 + v / 65536 % 256 * 256 + v / 16777216 % 256

theorem htonl_bytes {a b c d : ℕ} (ha : a < 256) (hb : b < 256) (hc : c < 256) (hd : d < 256) :
    htonl (a + b * 256 + c * 65536 + d * 16777216) = d + c * 256 + b * 65536 + a * 16777216 := by
  rw [htonl]
  omega

theorem htonl_htonl {v : ℕ} (h : v < 4294967296) : htonl (htonl v) = v := by
  have hbytes : v = v % 256 + v / 256 % 256 * 256 + v / 65536 % 256 * 65536
      + v / 16777216 % 256 * 16777216 := by omega
  have hmod : ∀ n, n % 256 < 256 := fun n => Nat.mod_lt n (by decide)
  rw [hbytes, htonl_bytes (hmod _) (hmod _) (hmod _) (hmod _),
    htonl_bytes (hmod _) (hmod _) (hmod _) (hmod _)]

theorem htonl_lt (v : ℕ) : htonl v < 4294967296 := by
  rw [htonl]
  omega

/-- A field in front of the options is written. -/
def Reply.put (r : Reply) (off : ℕ) (bs : List UInt8) (h : off + bs.length ≤ optionsOff) :
    Reply where
  mem := copy r.mem off bs
  ended := by
    obtain ⟨os, hlays, hlen⟩ := r.ended
    exact ⟨os, hlays.congr fun i _ => copy_of_outside (by omega), hlen⟩

/-- The fields that `init_packet` takes from `old`. -/
def copyHeader (old : Mem) (r : Reply) : Reply :=
  let r := r.put xidOff (slice old xidOff 4) (by rw [length_slice]; decide)
  let r := r.put chaddrOff (slice old chaddrOff 16) (by rw [length_slice]; decide)
  let r := r.put flagsOff (slice old flagsOff 2) (by rw [length_slice]; decide)
  let r := r.put gatewayNipOff (slice old gatewayNipOff 4) (by rw [length_slice]; decide)
  r.put ciaddrOff (slice old ciaddrOff 4) (by rw [length_slice]; decide)

/-- `init_packet`: an answer to `old`. -/
def initPacket (cfg : ServerConfig) (memory old : Mem) (type : UInt8) : Reply :=
  udhcpAddSimpleOption (copyHeader old (udhcpInitHeader memory type)) serverId cfg.serverNip

/-- `add_server_options`. -/
def addServerOptions (cfg : ServerConfig) (r : Reply) : Reply :=
  let r := (cfg.options.filter fun o => o.code ≠ leaseTime).foldl udhcpAddBinaryOption r
  let r := r.put siaddrNipOff (le32 cfg.siaddrNip) (show 20 + 4 ≤ 240 by decide)
  let r := cfg.sname.elim r fun s => r.put snameOff s.1 (by rw [s.2]; decide)
  cfg.bootFile.elim r fun s => r.put fileOff s.1 (by rw [s.2]; decide)

/-- `select_lease_time`. -/
def selectLeaseTime (cfg : ServerConfig) (packet : Mem) : ℕ :=
  match val packet (udhcpGetOption leaseTime) with
  | none => cfg.maxLeaseSec
  | some off =>
    let sec := htonl (getU32 packet off)
    let sec := if cfg.maxLeaseSec < sec then cfg.maxLeaseSec else sec
    if sec < cfg.minLeaseSec then cfg.minLeaseSec else sec

/-- What `send_offer` and `send_ACK` have in common: the address, and four options. -/
def grantStart (cfg : ServerConfig) (memory old : Mem) (type : UInt8) (yiaddr : ℕ) : Reply :=
  let r := initPacket cfg memory old type
  let r := r.put yiaddrOff (le32 yiaddr) (show 16 + 4 ≤ 240 by decide)
  let r := udhcpAddSimpleOption r leaseTime (htonl (selectLeaseTime cfg old))
  let r := udhcpAddSimpleOption r subnetOption (htonl cfg.subnet)
  let r := udhcpAddSimpleOption r routerOption (htonl cfg.gw)
  udhcpAddSimpleOption r dnsServer (htonl cfg.dns)

/-- The packet of `send_offer`, with `DHCPOFFER`, and of `send_ACK`, with `DHCPACK`. -/
def grantPacket (cfg : ServerConfig) (memory old : Mem) (type : UInt8) (yiaddr : ℕ) : Reply :=
  addServerOptions cfg (grantStart cfg memory old type yiaddr)

/-- The packet of `send_inform`. -/
def informPacket (cfg : ServerConfig) (memory old : Mem) : Reply :=
  addServerOptions cfg (initPacket cfg memory old dhcpAck)

/-! ## What the packets hold -/

variable {r : Reply} {os : List Opt} {o : Opt} {code : UInt8} {cfg : ServerConfig}
  {memory old : Mem}

theorem Reply.Holds.put (h : r.Holds os) {off : ℕ} {bs : List UInt8}
    (hoff : off + bs.length ≤ optionsOff) : (r.put off bs hoff).Holds os :=
  ⟨h.lays.congr fun i _ => copy_of_outside (by omega), h.lt⟩

/-- An option of one word. -/
def wordOption (code : UInt8) (proper : code ≠ padding ∧ code ≠ endOption) (v : ℕ) : Opt :=
  ⟨code, le32 v, proper, show 4 < 256 by decide⟩

theorem simpleOption_word (code : UInt8) {f : DhcpOptflag}
    (hfind : (dhcpOptflags.find? fun f => f.code = code) = some f)
    (hlen : dhcpOptionLengths.getD (f.flags &&& optionTypeMask) 0 = 4)
    (proper : code ≠ padding ∧ code ≠ endOption) (v : ℕ) :
    simpleOption code v = some (wordOption code proper v) := by
  have hcode : f.code = code := by simpa using List.find?_some hfind
  subst hcode
  unfold simpleOption
  split
  case h_1 h =>
    rw [hfind] at h
    cases h
  case h_2 g h =>
    rw [hfind] at h
    obtain rfl := Option.some.inj h
    simp only [hlen]
    rfl

/-- An option of one word fits as long as there is room for it. -/
theorem Reply.Holds.addWord (h : r.Holds os) {proper : code ≠ padding ∧ code ≠ endOption} {v : ℕ}
    (hoption : simpleOption code v = some (wordOption code proper v))
    (hfit : (encode os).length < 301) :
    (udhcpAddSimpleOption r code v).Holds (os ++ [wordOption code proper v]) := by
  have hadd := h.add (wordOption code proper v)
  have hroom : ¬ optionsBufsize ≤
      (encode os).length + (2 + (wordOption code proper v).data.length) + 1 := by
    show ¬ 308 ≤ (encode os).length + (2 + 4) + 1
    omega
  rw [fitted, if_neg hroom] at hadd
  rw [udhcpAddSimpleOption, hoption, Option.elim_some]
  exact hadd

/-- The options a packet holds stay in front of those that are added. -/
theorem isPrefix_foldl_fitted (os added : List Opt) : os <+: added.foldl fitted os := by
  induction added generalizing os with
  | nil => exact List.prefix_rfl
  | cons o added ih =>
    have hstep : os <+: fitted os o := by
      rw [fitted]
      split
      · exact List.prefix_rfl
      · exact List.prefix_append os [o]
    exact hstep.trans (ih _)

theorem Reply.Holds.elim {α : Type} (h : r.Holds os) {f : α → Reply} (hf : ∀ a, (f a).Holds os)
    (x : Option α) : (x.elim r f).Holds os := by
  cases x with
  | none => exact h
  | some a => exact hf a

/-- The options that `add_server_options` adds. -/
def ServerConfig.added (cfg : ServerConfig) : List Opt :=
  cfg.options.filter fun o => o.code ≠ leaseTime

theorem Reply.Holds.addServerOptions (h : r.Holds os) (cfg : ServerConfig) :
    (addServerOptions cfg r).Holds (cfg.added.foldl fitted os) := by
  have hsiaddr := (h.foldl cfg.added).put (show siaddrNipOff + (le32 cfg.siaddrNip).length ≤ 240 by
    show 20 + 4 ≤ 240; decide)
  have hsname := hsiaddr.elim (fun s : {l : List UInt8 // l.length = 63} =>
    hsiaddr.put (show snameOff + s.1.length ≤ 240 by rw [s.2]; decide)) cfg.sname
  exact hsname.elim (fun s : {l : List UInt8 // l.length = 127} =>
    hsname.put (show fileOff + s.1.length ≤ 240 by rw [s.2]; decide)) cfg.bootFile

/-- The options of `init_packet`. -/
def initOptions (cfg : ServerConfig) (type : UInt8) : List Opt :=
  [typeOption type, wordOption serverId (by decide) cfg.serverNip]

/-- The options with which an offer and an acknowledgement start. -/
def grantOptions (cfg : ServerConfig) (old : Mem) (type : UInt8) : List Opt :=
  initOptions cfg type ++
    [wordOption leaseTime (by decide) (htonl (selectLeaseTime cfg old)),
      wordOption subnetOption (by decide) (htonl cfg.subnet),
      wordOption routerOption (by decide) (htonl cfg.gw),
      wordOption dnsServer (by decide) (htonl cfg.dns)]

theorem Reply.Holds.copyHeader (h : r.Holds os) (old : Mem) : (copyHeader old r).Holds os := by
  unfold Dhcp.copyHeader
  exact ((((h.put _).put _).put _).put _).put _

theorem holds_initPacket (cfg : ServerConfig) (memory old : Mem) (type : UInt8) :
    (initPacket cfg memory old type).Holds (initOptions cfg type) := by
  have hhead := (holds_udhcpInitHeader memory type).copyHeader old
  exact hhead.addWord (simpleOption_word serverId (f := ⟨optionIp, 0x36⟩) rfl rfl (by decide)
    cfg.serverNip) (show 3 < 301 by decide)

theorem holds_grantStart (cfg : ServerConfig) (memory old : Mem) (type : UInt8) (yiaddr : ℕ) :
    (grantStart cfg memory old type yiaddr).Holds (grantOptions cfg old type) := by
  have haddr := (holds_initPacket cfg memory old type).put
    (show yiaddrOff + (le32 yiaddr).length ≤ 240 by show 16 + 4 ≤ 240; decide)
  have hlease := haddr.addWord (simpleOption_word leaseTime (f := ⟨optionU32, 0x33⟩) rfl rfl
    (by decide) (htonl (selectLeaseTime cfg old))) (show 9 < 301 by decide)
  have hsubnet := hlease.addWord (simpleOption_word subnetOption
    (f := ⟨optionIp ||| optionReq, 0x01⟩) rfl rfl (by decide) (htonl cfg.subnet))
    (show 15 < 301 by decide)
  have hrouter := hsubnet.addWord (simpleOption_word routerOption
    (f := ⟨optionIp ||| optionList ||| optionReq, 0x03⟩) rfl rfl (by decide) (htonl cfg.gw))
    (show 21 < 301 by decide)
  exact hrouter.addWord (simpleOption_word dnsServer
    (f := ⟨optionIp ||| optionList ||| optionReq, 0x06⟩) rfl rfl (by decide) (htonl cfg.dns))
    (show 27 < 301 by decide)

/-! ## The fields in front of the options -/

theorem mem_udhcpAddBinaryOption (r : Reply) (o : Opt) {i : ℕ} (hi : i < optionsOff) :
    (udhcpAddBinaryOption r o).mem i = r.mem i := by
  rw [udhcpAddBinaryOption]
  split
  · rfl
  · exact (copy_of_outside (by omega)).trans (copy_of_outside (by omega))

theorem mem_udhcpAddSimpleOption (r : Reply) (code : UInt8) (v : ℕ) {i : ℕ}
    (hi : i < optionsOff) : (udhcpAddSimpleOption r code v).mem i = r.mem i := by
  rw [udhcpAddSimpleOption]
  cases simpleOption code v with
  | none => rfl
  | some o => exact mem_udhcpAddBinaryOption r o hi

theorem mem_foldl_add (added : List Opt) (r : Reply) {i : ℕ} (hi : i < optionsOff) :
    (added.foldl udhcpAddBinaryOption r).mem i = r.mem i := by
  induction added generalizing r with
  | nil => rfl
  | cons o added ih => exact (ih _).trans (mem_udhcpAddBinaryOption r o hi)

theorem mem_elim {α : Type} {f : α → Reply} {i : ℕ} (hf : ∀ a, (f a).mem i = r.mem i)
    (x : Option α) : (x.elim r f).mem i = r.mem i := by
  cases x with
  | none => rfl
  | some a => exact hf a

/-- `add_server_options` leaves the fields in front alone, but for `siaddr_nip` and the names. -/
theorem mem_addServerOptions (cfg : ServerConfig) (r : Reply) {i : ℕ}
    (hi : i < siaddrNipOff ∨ gatewayNipOff ≤ i ∧ i < snameOff) :
    (addServerOptions cfg r).mem i = r.mem i := by
  have hfront : i < 20 ∨ 24 ≤ i ∧ i < 44 := hi
  unfold addServerOptions
  rw [mem_elim (fun s => copy_of_outside (.inl (show i < 108 by omega))),
    mem_elim (fun s => copy_of_outside (.inl (show i < 44 by omega)))]
  exact (copy_of_outside (show i < 20 ∨ 20 + 4 ≤ i by omega)).trans
    (mem_foldl_add _ _ (show i < 240 by omega))

/-- The fields that an answer takes from the packet it answers, and their sizes. -/
def echoed : List (ℕ × ℕ) :=
  [(xidOff, 4), (flagsOff, 2), (ciaddrOff, 4), (gatewayNipOff, 4), (chaddrOff, 16)]

theorem mem_copyHeader (old : Mem) (r : Reply) {field : ℕ × ℕ} (hfield : field ∈ echoed) {i : ℕ}
    (hi : i < field.2) : (copyHeader old r).mem (field.1 + i) = old (field.1 + i) := by
  simp only [copyHeader, Reply.put, copy_slice]
  simp only [echoed, List.mem_cons, List.not_mem_nil, or_false] at hfield
  simp only [xidOff, flagsOff, ciaddrOff, gatewayNipOff, chaddrOff] at hfield ⊢
  rcases hfield with rfl | rfl | rfl | rfl | rfl <;> dsimp only at hi ⊢ <;> grind

/-- Where these fields stand. -/
theorem echoed_front {field : ℕ × ℕ} (h : field ∈ echoed) :
    (field.1 + field.2 ≤ yiaddrOff ∨ gatewayNipOff ≤ field.1) ∧ field.1 + field.2 ≤ snameOff := by
  revert h field
  decide

theorem mem_grantStart (cfg : ServerConfig) (memory old : Mem) (type : UInt8) (yiaddr : ℕ) {i : ℕ}
    (hi : i < optionsOff) : (grantStart cfg memory old type yiaddr).mem i =
      copy (copyHeader old (udhcpInitHeader memory type)).mem yiaddrOff (le32 yiaddr) i := by
  have hinit : (initPacket cfg memory old type).mem i
      = (copyHeader old (udhcpInitHeader memory type)).mem i := by
    rw [initPacket, mem_udhcpAddSimpleOption _ _ _ hi]
  rw [grantStart, mem_udhcpAddSimpleOption _ _ _ hi, mem_udhcpAddSimpleOption _ _ _ hi,
    mem_udhcpAddSimpleOption _ _ _ hi, mem_udhcpAddSimpleOption _ _ _ hi]
  exact copy_congr_at hinit

/-! ## Reading a packet back -/

theorem grantOptions_find (cfg : ServerConfig) (old : Mem) (type : UInt8) (rest : List Opt)
    (ho : o ∈ grantOptions cfg old type) :
    (grantOptions cfg old type ++ rest).find? (fun a => a.code = o.code) = some o := by
  rw [List.find?_append]
  simp only [grantOptions, initOptions, List.cons_append, List.nil_append, List.mem_cons,
    List.not_mem_nil, or_false] at ho
  rcases ho with rfl | rfl | rfl | rfl | rfl | rfl <;> rfl

theorem selectLeaseTime_le (cfg : ServerConfig) (old : Mem) :
    min cfg.minLeaseSec cfg.maxLeaseSec ≤ selectLeaseTime cfg old ∧
      selectLeaseTime cfg old ≤ max cfg.minLeaseSec cfg.maxLeaseSec := by
  rw [selectLeaseTime]
  cases val old (udhcpGetOption leaseTime) with
  | none => exact ⟨Nat.min_le_right _ _, Nat.le_max_right _ _⟩
  | some off =>
    dsimp only
    split_ifs <;> omega

theorem selectLeaseTime_lt (cfg : ServerConfig) (old : Mem) :
    selectLeaseTime cfg old < 4294967296 :=
  Nat.lt_of_le_of_lt (selectLeaseTime_le cfg old).2
    (Nat.max_lt.mpr ⟨cfg.minLeaseSec_lt, cfg.maxLeaseSec_lt⟩)

/-- Each option in front is found. -/
theorem grantPacket_found (cfg : ServerConfig) (memory old : Mem) (type : UInt8) (yiaddr : ℕ)
    (ho : o ∈ grantOptions cfg old type) :
    ∃ pos, val (grantPacket cfg memory old type yiaddr).mem (udhcpGetOption o.code) = some pos ∧
      (grantPacket cfg memory old type yiaddr).mem (pos - 1) = UInt8.ofNat o.data.length ∧
      slice (grantPacket cfg memory old type yiaddr).mem pos o.data.length = o.data := by
  have hheld := (holds_grantStart cfg memory old type yiaddr).addServerOptions cfg
  obtain ⟨rest, hrest⟩ := isPrefix_foldl_fitted (grantOptions cfg old type) cfg.added
  rw [← hrest] at hheld
  exact hheld.found (grantOptions_find cfg old type rest ho)

theorem slice_yiaddr (cfg : ServerConfig) (memory old : Mem) (type : UInt8) (yiaddr : ℕ) :
    slice (grantPacket cfg memory old type yiaddr).mem yiaddrOff 4 = le32 yiaddr := by
  rw [← slice_copy_self (copyHeader old (udhcpInitHeader memory type)).mem yiaddrOff (le32 yiaddr)]
  refine slice_congr fun i hi => ?_
  have hlt : yiaddrOff + i < siaddrNipOff := Nat.add_lt_add_left hi 16
  exact (mem_addServerOptions cfg _ (.inl hlt)).trans
    (mem_grantStart cfg memory old type yiaddr (Nat.lt_trans hlt (by decide)))

theorem slice_echoed (cfg : ServerConfig) (memory old : Mem) (type : UInt8) (yiaddr : ℕ)
    {field : ℕ × ℕ} (hfield : field ∈ echoed) :
    slice (grantPacket cfg memory old type yiaddr).mem field.1 field.2 =
      slice old field.1 field.2 := by
  refine slice_congr fun i hi => ?_
  obtain ⟨hlow, hhigh⟩ := echoed_front hfield
  have hfront : field.1 + i < siaddrNipOff ∨
      gatewayNipOff ≤ field.1 + i ∧ field.1 + i < snameOff := by
    have : yiaddrOff < siaddrNipOff := by decide
    omega
  have hbefore : field.1 + i < optionsOff := by
    have : snameOff < optionsOff := by decide
    omega
  have haddr : field.1 + i < yiaddrOff ∨ yiaddrOff + (le32 yiaddr).length ≤ field.1 + i := by
    have : yiaddrOff + (le32 yiaddr).length ≤ gatewayNipOff := show 16 + 4 ≤ 24 by decide
    omega
  calc (grantPacket cfg memory old type yiaddr).mem (field.1 + i)
      = (grantStart cfg memory old type yiaddr).mem (field.1 + i) :=
        mem_addServerOptions cfg _ hfront
    _ = copy (copyHeader old (udhcpInitHeader memory type)).mem yiaddrOff (le32 yiaddr)
          (field.1 + i) := mem_grantStart cfg memory old type yiaddr hbefore
    _ = (copyHeader old (udhcpInitHeader memory type)).mem (field.1 + i) :=
        copy_of_outside haddr
    _ = old (field.1 + i) := mem_copyHeader old _ hfield hi

/-- An offer and an acknowledgement, whatever the options of the configuration are and whatever was
in the packet that is answered: who looks for an option that the server put in front finds it with
its data, and for how long the lease is, which is between the bounds of the configuration; the
address is the one given, and the other fields of the header are those of the packet answered. -/
theorem grantPacket_read (cfg : ServerConfig) (memory old : Mem) (type : UInt8) (yiaddr : ℕ) :
    let r := grantPacket cfg memory old type yiaddr
    (∀ o ∈ grantOptions cfg old type, ∃ pos, val r.mem (udhcpGetOption o.code) = some pos ∧
        r.mem (pos - 1) = UInt8.ofNat o.data.length ∧ slice r.mem pos o.data.length = o.data) ∧
      (∃ pos, val r.mem (udhcpGetOption leaseTime) = some pos ∧
        htonl (getU32 r.mem pos) = selectLeaseTime cfg old) ∧
      min cfg.minLeaseSec cfg.maxLeaseSec ≤ selectLeaseTime cfg old ∧
      selectLeaseTime cfg old ≤ max cfg.minLeaseSec cfg.maxLeaseSec ∧
      slice r.mem yiaddrOff 4 = le32 yiaddr ∧
      ∀ field ∈ echoed, slice r.mem field.1 field.2 = slice old field.1 field.2 := by
  intro r
  obtain ⟨hlow, hhigh⟩ := selectLeaseTime_le cfg old
  refine ⟨fun o ho => grantPacket_found cfg memory old type yiaddr ho, ?_, hlow, hhigh,
    slice_yiaddr cfg memory old type yiaddr, fun field hfield =>
      slice_echoed cfg memory old type yiaddr hfield⟩
  obtain ⟨pos, hfound, -, hdata⟩ := grantPacket_found cfg memory old type yiaddr
    (show wordOption leaseTime (by decide) (htonl (selectLeaseTime cfg old)) ∈
      grantOptions cfg old type by simp [grantOptions])
  refine ⟨pos, hfound, ?_⟩
  rw [getU32_of_le32 hdata (htonl_lt _), htonl_htonl (selectLeaseTime_lt cfg old)]

/-- The packet of `send_inform` says nothing of a lease, unless the configuration sends who reads it
to other fields. -/
theorem informPacket_leaseTime (cfg : ServerConfig) (memory old : Mem)
    (hover : ∀ o ∈ cfg.options, o.code ≠ optionOverload) :
    val (informPacket cfg memory old).mem (udhcpGetOption leaseTime) = none := by
  have hheld := (holds_initPacket cfg memory old dhcpAck).addServerOptions cfg
  have hof : ∀ o ∈ cfg.added.foldl fitted (initOptions cfg dhcpAck),
      o.code ≠ leaseTime ∧ o.code ≠ optionOverload := by
    intro o ho
    rcases List.mem_append.mp (mem_foldl_fitted ho) with ho | ho
    · simp only [initOptions, List.mem_cons, List.not_mem_nil, or_false] at ho
      rcases ho with rfl | rfl
      · exact ⟨show (53 : UInt8) ≠ 0x33 by decide, show (53 : UInt8) ≠ 52 by decide⟩
      · exact ⟨show (0x36 : UInt8) ≠ 0x33 by decide, show (0x36 : UInt8) ≠ 52 by decide⟩
    · obtain ⟨hmem, hcode⟩ := List.mem_filter.mp ho
      exact ⟨of_decide_eq_true hcode, hover o hmem⟩
  exact hheld.not_found (List.find?_eq_none.mpr fun o ho => by simpa using (hof o ho).1)
    fun o ho => (hof o ho).2

end Fullmac.Dhcp
