import Fullmac.Ap.Driver
import Fullmac.Ap.Port

/-!
# Data frames of stations

`AP_RxHandleData` looks at a received data frame, and the frame goes to another station, to all of
them, or to the host. The handlers of `ssv6xxx_data_need_to_be_received` decide whether it goes
anywhere. Of the sender they ask that it is associated; whether it has finished the key handshake,
which `ssv6xxx_data_check_authed` asks of every receiver, they do not ask.
-/

namespace Fullmac.Ap

variable {cfg : ApCfg} {s : ApInfo cfg}

/-! ## Receiving -/

/-- A received data frame. -/
structure RxData where
  sa : EtherAddr
  da : EtherAddr
  null : Bool
  pm : Bool
  up : ℕ
  /-- `os_frame_dup` succeeds. -/
  dup : Bool

/-- Where a frame is sent again. -/
inductive Relay (cfg : ApCfg)
  | none
  | station (j : StaIdx cfg)
  | group
deriving DecidableEq

/-- What becomes of a received frame; `cont` is the return value `SSV6XXX_DATA_CONT`. -/
structure DataResult (cfg : ApCfg) where
  relay : Relay cfg
  cont : Bool

/-- `rx_h_drop`. -/
def rxHDrop (rx : RxDesp cfg) : Bool := !(rx.psPoll || rx.nullData)

/-- The return value of `ssv6xxx_data_need_to_be_received`. -/
def isReceived (s : ApInfo cfg) (rx : RxDesp cfg) : Bool :=
  (s.sta rx.sta).assoc && (rxHUapsdAndPspoll s rx).1 && rxHDrop rx

/-- The part of `AP_RxHandleData` behind the handlers. -/
def relayFrame (s : ApInfo cfg) (f : RxData) : DataResult cfg :=
  if isMulticast f.da then { relay := if f.dup then .group else .none, cont := true }
  else
    match findStaByAddr s f.da with
    | some j => { relay := .station j, cont := false }
    | none => { relay := .none, cont := true }

/-- `AP_RxHandleData`. -/
def apRxHandleData (s : ApInfo cfg) (f : RxData) : DataResult cfg × ApInfo cfg :=
  let s' := rxFrame s f.sa (.data f.null) f.pm f.up
  match findStaByAddr s f.sa with
  | none => ({ relay := .none, cont := false }, s')
  | some i =>
    let rx : RxDesp cfg :=
      { sta := i, psPoll := false, nullData := f.null, data := !f.null, pm := f.pm
        qos := (s.sta i).wmm, up := f.up }
    (if isReceived s rx then relayFrame s' f else { relay := .none, cont := false }, s')

/-- `APStaInfo_FindStaByAddr` looks at nothing but the view. -/
theorem findStaByAddr_of_dv {s s' : ApInfo cfg} (h : s'.dv = s.dv) (mac : EtherAddr) :
    findStaByAddr s' mac = findStaByAddr s mac := by
  have hsta : ∀ i, (s'.sta i).drvEntry = (s.sta i).drvEntry := congrFun (congrArg DrvView.sta h)
  have hpred : (fun i => (s'.sta i).valid && (s'.sta i).addr == mac)
      = fun i => (s.sta i).valid && (s.sta i).addr == mac := by
    funext i
    have hvalid : (s'.sta i).valid = (s.sta i).valid := congrArg DrvEntry.valid (hsta i)
    have haddr : (s'.sta i).addr = (s.sta i).addr := congrArg DrvEntry.addr (hsta i)
    rw [hvalid, haddr]
  rw [findStaByAddr, findStaByAddr, hpred]

/-- A data frame is never a poll, so `rx_h_uapsd_and_pspoll` lets it through. -/
theorem isReceived_of_data {rx : RxDesp cfg} (h : rx.psPoll = false) :
    isReceived s rx = ((s.sta rx.sta).assoc && !rx.nullData) := by
  have hpoll : (rxHUapsdAndPspoll s rx).1 = true := by
    unfold rxHUapsdAndPspoll
    rw [h]
    dsimp only
    split_ifs <;> simp_all
  rw [isReceived, hpoll, rxHDrop, h, Bool.and_true, Bool.false_or]

/-- The frames that go anywhere are those with data of associated stations. -/
theorem apRxHandleData_result {f : RxData} {i : StaIdx cfg} (hi : findStaByAddr s f.sa = some i) :
    (apRxHandleData s f).1 =
      if (s.sta i).assoc && !f.null then relayFrame s f else { relay := .none, cont := false } := by
  have hrelay : relayFrame (rxFrame s f.sa (.data f.null) f.pm f.up) f = relayFrame s f := by
    unfold relayFrame
    rw [findStaByAddr_of_dv (rxFrame_dv s f.sa (.data f.null) f.pm f.up)]
  unfold apRxHandleData
  simp only [hi, isReceived_of_data, hrelay]

/-! ## The controlled port -/

/-- What happens to the access point, and which data frames it receives. -/
inductive PortEvent (cfg : ApCfg)
  | ap (e : ApEvent cfg)
  | data (f : RxData)

/-- A data frame that was received, with the sender as it was at that moment. -/
structure Received (cfg : ApCfg) where
  sender : Option (StaIdx cfg)
  authorized : Bool
  result : DataResult cfg

def received (s : ApInfo cfg) (f : RxData) : Received cfg where
  sender := findStaByAddr s f.sa
  authorized := match findStaByAddr s f.sa with
    | some i => (s.sta i).authorized
    | none => false
  result := (apRxHandleData s f).1

def portStep (s : ApInfo cfg) : PortEvent cfg → ApInfo cfg × List (Received cfg)
  | .ap e => ((apStep s e).1, [])
  | .data f => ((apRxHandleData s f).2, [received s f])

/-- A frame of a station that is not authorised goes to nobody else: not to another station, not to
the group, not to the host. -/
structure Received.Lawful (r : Received cfg) : Prop where
  host : r.authorized = false → r.result.cont = false
  group : r.authorized = false → r.result.relay ≠ .group
  station : r.authorized = false → ∀ j, r.result.relay = .station j → r.sender = some j

/-- A frame with data that comes from an associated station comes from an authorised one, or is
addressed to its own sender. -/
def SenderAuthorized (s : ApInfo cfg) : PortEvent cfg → Prop
  | .ap _ => True
  | .data f => f.null = false → ∀ i, findStaByAddr s f.sa = some i → (s.sta i).assoc = true →
    (s.sta i).authorized = true ∨ (isMulticast f.da = false ∧ f.da = f.sa)

/-- A frame that goes anywhere goes to the host or the group, or to a station. -/
theorem relayFrame_cases (s : ApInfo cfg) (f : RxData) :
    (∃ j, isMulticast f.da = false ∧ findStaByAddr s f.da = some j ∧
      relayFrame s f = { relay := .station j, cont := false }) ∨
    ((isMulticast f.da = true ∨ findStaByAddr s f.da = none) ∧ (relayFrame s f).cont = true) := by
  unfold relayFrame
  split
  · next hm => exact .inr ⟨.inl hm, rfl⟩
  · next hm =>
    split
    · next j hj => exact .inl ⟨j, by simpa using hm, hj, rfl⟩
    · next hj => exact .inr ⟨.inr hj, rfl⟩

theorem received_lawful_iff (s : ApInfo cfg) (f : RxData) :
    (received s f).Lawful ↔ SenderAuthorized s (.data f) := by
  have hnowhere : ∀ (i : Option (StaIdx cfg)) b,
      Received.Lawful
        { sender := i, authorized := b, result := { relay := .none, cont := false } } :=
    fun _ _ => ⟨fun _ => rfl, fun _ => nofun, fun _ _ => nofun⟩
  cases hi : findStaByAddr s f.sa with
  | none =>
    have hres : (apRxHandleData s f).1 = { relay := .none, cont := false } := by
      unfold apRxHandleData
      simp only [hi]
    simp only [received, hi, hres, SenderAuthorized]
    exact ⟨fun _ _ => nofun, fun _ => hnowhere none false⟩
  | some i =>
    have hres := apRxHandleData_result hi
    simp only [received, hi, hres, SenderAuthorized, Option.some.injEq, forall_eq']
    by_cases hgo : (s.sta i).assoc = true ∧ f.null = false
    · obtain ⟨hassoc, hnull⟩ := hgo
      simp only [hassoc, hnull, Bool.not_false, Bool.and_self, if_true, forall_const]
      rcases relayFrame_cases s f with ⟨j, hmulti, hj, he⟩ | ⟨hda, hcont⟩
      · rw [he]
        constructor
        · intro h
          refine or_iff_not_imp_left.mpr fun hauth => ⟨hmulti, ?_⟩
          have hij : i = j := by simpa using h.station (by simpa using hauth) j rfl
          rw [← findStaByAddr_addr hi, hij, findStaByAddr_addr hj]
        · rintro (hauth | ⟨-, hself⟩)
          · exact ⟨by simp [hauth], by simp [hauth], by simp [hauth]⟩
          · rw [hself, hi] at hj
            exact ⟨fun _ => rfl, fun _ => nofun, fun _ k hk => hj.trans (by simpa using hk)⟩
      · constructor
        · intro h
          by_contra hnot
          rw [not_or] at hnot
          exact absurd (hcont.symm.trans (h.host (by simpa using hnot.1))) (by simp)
        · rintro (hauth | ⟨hmulti, hself⟩)
          · exact ⟨by simp [hauth], by simp [hauth], by simp [hauth]⟩
          · rcases hda with hda | hda
            · exact absurd (hda.symm.trans hmulti) (by simp)
            · rw [hself, hi] at hda
              exact absurd hda (by simp)
    · have hstay : ((s.sta i).assoc && !f.null) = false :=
        Bool.eq_false_iff.mpr fun h => hgo (by simpa using h)
      rw [hstay, if_neg Bool.false_ne_true]
      exact ⟨fun _ hnull hassoc => absurd ⟨hassoc, hnull⟩ hgo, fun _ => hnowhere _ _⟩

/-- No frame of a station that is not authorised goes anywhere, exactly as long as associated
stations that are not authorised send no data to others. -/
theorem apRun_receive_port (cfg : ApCfg) (es : List (PortEvent cfg)) :
    (∀ r ∈ (Machine.run portStep (initAp cfg) es).2, r.Lawful) ↔
      Machine.Meets portStep SenderAuthorized (initAp cfg) es := by
  generalize initAp cfg = s
  induction es generalizing s with
  | nil => simp [Machine.Meets]
  | cons e es ih =>
    have hfirst : (∀ r ∈ (portStep s e).2, r.Lawful) ↔ SenderAuthorized s e := by
      cases e with
      | ap e => simp [portStep, SenderAuthorized]
      | data f =>
        rw [← received_lawful_iff s f]
        simp [portStep]
    rw [Machine.run_cons, List.forall_mem_append, hfirst, ih]
    exact Iff.rfl

/-- A station of a network with a pre-shared key has associated and sends data to the host before it
takes part in the key handshake. -/
theorem associated_data_received :
    let es : List (PortEvent pskAp) :=
      [.ap (authEvent pskAp (Vector.replicate 6 4)), .ap (assocEvent pskAp (Vector.replicate 6 4)),
        .data { sa := Vector.replicate 6 4, da := Vector.replicate 6 8, null := false, pm := false
                up := 0, dup := true }]
    pskAp.keyMgmtPsk = true ∧ ¬ ∀ r ∈ (Machine.run portStep (initAp pskAp) es).2, r.Lawful := by
  intro es
  have hpassed : ∃ r ∈ (Machine.run portStep (initAp pskAp) es).2,
      r.authorized = false ∧ r.result.cont = true := by decide +kernel
  refine ⟨rfl, fun h => ?_⟩
  obtain ⟨r, hr, hauth, hcont⟩ := hpassed
  exact absurd (hcont.symm.trans ((h r hr).host hauth)) (by simp)

end Fullmac.Ap
