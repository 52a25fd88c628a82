import Fullmac.Wpa.Model

/-!
# What one pass does

Reference: `host/ap/wpa_auth.c`, `SM_STATE(WPA_PTK, ..)`, `SM_STEP(WPA_PTK)`, `wpa_sm_step`.

Sending changes nothing in the state machine but the replay counters (`Sends`). With that, entering
a state has one description for each state. A pass of the loop of `wpa_sm_step` takes away one of
the flags that ask for something, or it goes on along the states of a handshake; so the loop ends
(`exists_passes_atRest`).
-/

namespace Fullmac.Wpa

/-! ## Sending -/

/-- The outputs of a world that sends: a timer, or a frame with the first replay counter. -/
def SendOutput (counter : Octets 8) (o : Output) : Prop :=
  (∃ ms, o = .createTimer ms) ∨ ∃ frame encrypt,
    o = .sendEapol frame encrypt ∧ frameReplayCounter frame = counter

/-- What sending changes: the replay counters, the group counter, the memory and the outputs. A
frame goes out with the next replay counter. -/
structure Sends (w w' : World) : Prop where
  sm : w'.sm = { w.sm with keyReplay := w'.sm.keyReplay }
  auth : w'.auth = { w.auth with counter := w'.auth.counter }
  entry : w'.valid = w.valid ∧ w'.assocRsp = w.assocRsp ∧ w'.addStaFlag = w.addStaFlag ∧
    w'.reassoc = w.reassoc
  replay : w'.sm.keyReplay = w.sm.keyReplay ∨ w'.sm.keyReplay = shiftReplay w.sm.keyReplay
  out : ∃ l, w'.out = w.out ++ l ∧ ∀ o ∈ l, (∃ ms, o = .createTimer ms) ∨
    (w'.sm.keyReplay = shiftReplay w.sm.keyReplay ∧ SendOutput w'.sm.keyReplay.1.counter o)

theorem Sends.refl (w : World) : Sends w w where
  sm := rfl
  auth := rfl
  entry := ⟨rfl, rfl, rfl, rfl⟩
  replay := .inl rfl
  out := ⟨[], (List.append_nil _).symm, by simp⟩

theorem Sends.malloc (w : World) : Sends w w.malloc.2 where
  sm := rfl
  auth := rfl
  entry := ⟨rfl, rfl, rfl, rfl⟩
  replay := .inl rfl
  out := ⟨[], (List.append_nil _).symm, by simp⟩

theorem Sends.of_malloc {w w' : World} (h : Sends w.malloc.2 w') : Sends w w' :=
  ⟨h.sm, h.auth, h.entry, h.replay, h.out⟩

theorem Sends.createTimer {w w' : World} (h : Sends w w') (ms : ℕ) :
    Sends w (w'.emit (.createTimer ms)) := by
  obtain ⟨l, hl, hout⟩ := h.out
  refine ⟨h.sm, h.auth, h.entry, h.replay, l ++ [.createTimer ms], ?_, fun o ho => ?_⟩
  · show w'.out ++ [_] = _
    rw [hl, List.append_assoc]
  · rcases List.mem_append.mp ho with ho | ho
    · exact hout o ho
    · exact .inl ⟨ms, List.mem_singleton.mp ho⟩

/-- The end of `__wpa_send_eapol`: nothing, or a frame. -/
theorem finishEapol_cases (w : World) (version keyInfo keyLen : ℕ) (rsc : Octets 8)
    (nonce : Octets 32) (iv : Octets 16) (keyData : List UInt8) :
    finishEapol w version keyInfo keyLen rsc nonce iv keyData = w ∨ ∃ frame,
      finishEapol w version keyInfo keyLen rsc nonce iv keyData
        = w.emit (.sendEapol frame w.sm.pairwiseSet) ∧
      frameReplayCounter frame = w.sm.keyReplay.1.counter := by
  have hmic : ∀ (type : UInt8) (mic : Octets 16), frameReplayCounter (setMic (eapolFrame type
      keyInfo keyLen w.sm.keyReplay.1.counter nonce iv rsc (.zero 16) keyData) mic)
      = w.sm.keyReplay.1.counter := fun type mic => by
    have hlen : 81 ≤ (eapolFrame type keyInfo keyLen w.sm.keyReplay.1.counter nonce iv rsc
        (.zero 16) keyData).length := by
      rw [length_eapolFrame, headerLen]
      omega
    rw [frameReplayCounter, octetsAt_setMic mic (by decide) hlen]
    exact frameReplayCounter_eapolFrame _ _ _ _ _ _ _ _ _
  rw [finishEapol]
  split
  · split
    · exact .inl rfl
    · refine .inr ⟨_, rfl, ?_⟩
      split
      · exact frameReplayCounter_eapolFrame _ _ _ _ _ _ _ _ _
      · exact hmic _ _
  · exact .inr ⟨_, rfl, frameReplayCounter_eapolFrame _ _ _ _ _ _ _ _ _⟩

/-- The replay counters have moved; the group counter and the memory may differ. -/
structure Shifted (w w' : World) : Prop where
  sm : w'.sm = { w.sm with keyReplay := shiftReplay w.sm.keyReplay }
  auth : w'.auth = { w.auth with counter := w'.auth.counter }
  entry : w'.valid = w.valid ∧ w'.assocRsp = w.assocRsp ∧ w'.addStaFlag = w.addStaFlag ∧
    w'.reassoc = w.reassoc
  out : w'.out = w.out

theorem Shifted.sends {w w' : World} (h : Shifted w w') : Sends w w' := by
  have hreplay : w'.sm.keyReplay = shiftReplay w.sm.keyReplay := by rw [h.sm]
  exact ⟨by rw [hreplay]; exact h.sm, h.auth, h.entry, .inr hreplay,
    [], by rw [h.out, List.append_nil], by simp⟩

theorem Shifted.finishEapol {w w' : World} (h : Shifted w w') (version keyInfo keyLen : ℕ)
    (rsc : Octets 8) (nonce : Octets 32) (iv : Octets 16) (keyData : List UInt8) :
    Sends w (finishEapol w' version keyInfo keyLen rsc nonce iv keyData) := by
  rcases finishEapol_cases w' version keyInfo keyLen rsc nonce iv keyData with
    heq | ⟨frame, heq, hc⟩
  · rw [heq]
    exact h.sends
  · have hreplay : w'.sm.keyReplay = shiftReplay w.sm.keyReplay := by rw [h.sm]
    rw [heq]
    refine ⟨h.sends.sm, h.auth, h.entry, .inr hreplay,
      [.sendEapol frame w'.sm.pairwiseSet], ?_, fun o ho => ?_⟩
    · show w'.out ++ [_] = _
      rw [h.out]
    · exact .inr ⟨hreplay, .inr ⟨frame, _, List.mem_singleton.mp ho, hc⟩⟩

theorem Shifted.encipherKde {w w' : World} (h : Shifted w w') (version : ℕ)
    (kde : List UInt8) : Shifted w (encipherKde w' version kde).1 := by
  rw [Wpa.encipherKde]
  split
  · exact h
  · refine ⟨h.sm, ?_, h.entry, h.out⟩
    exact congrArg (fun a : Auth => { a with counter := incByteArray w'.auth.counter }) h.auth

theorem sends_wpaSendEapolFrame (w : World) (keyInfo : KeyInfo) (rsc : Octets 8)
    (nonce : Octets 32) (kde : Option (List UInt8)) (keyidx : ℕ) (encr : Bool) :
    Sends w (wpaSendEapolFrame w keyInfo rsc nonce kde keyidx encr) := by
  simp only [wpaSendEapolFrame]
  split
  · exact Sends.malloc w
  · cases kde with
    | none =>
      refine Shifted.finishEapol ?_ _ _ _ _ _ _ _
      exact ⟨rfl, rfl, ⟨rfl, rfl, rfl, rfl⟩, rfl⟩
    | some kde =>
      dsimp only
      split
      · refine Shifted.finishEapol ?_ _ _ _ _ _ _ _
        exact ⟨rfl, rfl, ⟨rfl, rfl, rfl, rfl⟩, rfl⟩
      · split
        · refine Shifted.sends ?_
          exact ⟨rfl, rfl, ⟨rfl, rfl, rfl, rfl⟩, rfl⟩
        · refine (Shifted.encipherKde ?_ _ kde).finishEapol _ _ _ _ _ _ _
          exact ⟨rfl, rfl, ⟨rfl, rfl, rfl, rfl⟩, rfl⟩

theorem sends_wpaSendEapol (w : World) (keyInfo : KeyInfo) (rsc : Octets 8)
    (nonce : Octets 32) (kde : Option (List UInt8)) (keyidx : ℕ) (encr : Bool) :
    Sends w (wpaSendEapol w keyInfo rsc nonce kde keyidx encr) := by
  rw [wpaSendEapol]
  split
  · exact .refl w
  · exact (sends_wpaSendEapolFrame w keyInfo rsc nonce kde keyidx encr).createTimer _

/-! ## Entering a state -/

/-- Entering `PTKSTART`: the station is asked for its nonce, or the state machine is about to give
up. -/
theorem enterPtkStart_sends (w : World) :
    Sends { w with sm := { w.sm with
      state := .ptkStart, changed := true, ptkRequest := false, timeoutEvt := false
      timeoutCtr := w.sm.timeoutCtr + 1 } } (enterPtkStart w) := by
  simp only [enterPtkStart]
  split
  · exact .refl _
  · exact sends_wpaSendEapol _ _ _ _ _ _ _

theorem enterPtkInitNegotiating_sends (w : World) :
    Sends { w with sm := { w.sm with
      state := .ptkInitNegotiating, changed := true, timeoutEvt := false
      timeoutCtr := w.sm.timeoutCtr + 1 } } (enterPtkInitNegotiating w) := by
  simp only [enterPtkInitNegotiating]
  split
  · exact .refl _
  · split
    · exact (Sends.malloc _).createTimer 100
    · exact (sends_wpaSendEapol _ _ _ _ _ _ _).of_malloc

theorem wpaStaDisconnect_sm (w : World) :
    (wpaStaDisconnect w).sm = if w.valid then .zero else w.sm := by
  have hfree : ∀ v : World, v.valid = true → (apStaInfoFree v).sm = .zero := fun v hv => by
    rw [apStaInfoFree, if_pos hv]
  rw [wpaStaDisconnect]
  split
  case isTrue h => exact hfree _ h
  case isFalse => rfl

theorem wpaStaDisconnect_entry {w : World} (hvalid : w.valid = true) :
    (wpaStaDisconnect w).assocRsp = false ∧ (wpaStaDisconnect w).reassoc = false := by
  have hfree : ∀ v : World, v.valid = true →
      (apStaInfoFree v).assocRsp = false ∧ (apStaInfoFree v).reassoc = false := fun v hv => by
    rw [apStaInfoFree, if_pos hv]
    exact ⟨rfl, rfl⟩
  rw [wpaStaDisconnect, if_pos hvalid]
  exact hfree _ hvalid

theorem enterDisconnect_sm (w : World) : (enterDisconnect w).sm = if w.valid then .zero else
    { w.sm with state := .disconnect, changed := true, disconnect := false } :=
  wpaStaDisconnect_sm _

theorem wpaRemovePtk_sm (w : World) : (wpaRemovePtk w).sm =
    { w.sm with
      ptk := if w.sm.pairwiseSet then .zero else w.sm.ptk
      pairwiseSet := false } := by
  rw [wpaRemovePtk]
  cases hset : w.sm.pairwiseSet with
  | false =>
    show w.sm = { w.sm with pairwiseSet := false }
    rw [← hset]
  | true => rfl

theorem wpaRemovePtk_entry (w : World) : (wpaRemovePtk w).auth = w.auth ∧
    (wpaRemovePtk w).valid = w.valid ∧ (wpaRemovePtk w).assocRsp = w.assocRsp ∧
    (wpaRemovePtk w).reassoc = w.reassoc := by
  rw [wpaRemovePtk]
  split_ifs <;> exact ⟨rfl, rfl, rfl, rfl⟩

theorem enterInitialize_sm (w : World) : (enterInitialize w).sm =
    { w.sm with
      state := .ptkInitialize
      changed := !w.sm.init
      pair := true
      ptk := if w.sm.pairwiseSet then .zero else w.sm.ptk
      pairwiseSet := false
      timeoutCtr := 0 } := by
  show { (wpaRemovePtk _).sm with timeoutCtr := 0 } = _
  rw [wpaRemovePtk_sm]
  rfl

/-- What `wpa_remove_ptk` does. -/
def removeOutputs (w : World) : List Output := if w.sm.pairwiseSet then [.setKey .none []] else []

theorem mem_removeOutputs {w : World} {o : Output} (h : o ∈ removeOutputs w) :
    o = .setKey .none [] := by
  rw [removeOutputs] at h
  split at h
  · exact List.mem_singleton.mp h
  · exact absurd h List.not_mem_nil

theorem wpaRemovePtk_eq (w : World) : wpaRemovePtk w = { w with
    out := w.out ++ removeOutputs w
    sm := { w.sm with
      ptk := if w.sm.pairwiseSet then .zero else w.sm.ptk, pairwiseSet := false } } := by
  cases hset : w.sm.pairwiseSet with
  | true => simp [World.mapSm, wpaRemovePtk, World.emit, removeOutputs, hset]
  | false =>
    simp only [wpaRemovePtk, removeOutputs, hset, Bool.false_eq_true, if_false, List.append_nil]
    rw [← hset]

theorem enterInitialize_eq (w : World) : enterInitialize w = { w with
    out := w.out ++ removeOutputs w
    sm := { w.sm with
      state := .ptkInitialize, changed := !w.sm.init, pair := true
      ptk := if w.sm.pairwiseSet then .zero else w.sm.ptk
      pairwiseSet := false, timeoutCtr := 0 } } := by
  rw [enterInitialize, wpaRemovePtk_eq]
  rfl

/-- The key that `PTKCALCNEGOTIATING` derives from the nonces. -/
def derivedPtk (w : World) : Ptk :=
  wpaDerivePtk w.sm.pairwise (if w.sm.wpaKeyMgmt = Ap.keyMgmtPsk then w.auth.psk else w.sm.pmk)
    w.auth.ownAddr w.sm.addr w.sm.aNonce w.sm.sNonce

/-- Entering `PTKCALCNEGOTIATING`: the key is taken if the frame that was received is verified with
it. -/
theorem enterPtkCalcNegotiating_eq (w : World) : enterPtkCalcNegotiating w =
    if wpaVerifyKeyMic (derivedPtk w) w.sm.lastRxEapolKey then
      { w with
        out := w.out ++ [.cancelTimer]
        sm := { w.sm with
          state := .ptkCalcNegotiating
          changed := true
          eapolKeyReceived := false
          pmk := if w.sm.wpaKeyMgmt = Ap.keyMgmtPsk then w.auth.psk else w.sm.pmk
          micVerified := true
          ptk := derivedPtk w
          ptkValid := true } }
    else
      { w with sm := { w.sm with
        state := .ptkCalcNegotiating, changed := true, eapolKeyReceived := false } } := rfl

/-- The outputs of `PTKINITDONE`: the key of the station, and its port. -/
def doneOutputs (w : World) : List Output :=
  (if w.sm.pair then
    [.setKey (if w.sm.pairwise = Ap.Cipher.tkip.bit then .tkip else .ccmp) w.sm.ptk.tk1.1]
  else []) ++ if w.valid then [.setAuthorized true] else []

theorem enterPtkInitDone_eq (w : World) : enterPtkInitDone w =
    { w with
      out := w.out ++ doneOutputs w
      sm := { w.sm with
        state := .ptkInitDone
        changed := true
        eapolKeyReceived := false
        pairwiseSet := w.sm.pair || w.sm.pairwiseSet } } := by
  by_cases hp : w.sm.pair = true <;> by_cases hv : w.valid = true <;>
    simp [enterPtkInitDone, doneOutputs, World.mapSm, smEntry, World.emit, hp, hv]

/-- Entering a state leaves alone what `wpa_sm_step` and the association set, or it ends the
station. -/
theorem smEnter_frame (next : PtkState) (w : World) :
    ((smEnter next w).sm.init = w.sm.init ∧ (smEnter next w).assocRsp = w.assocRsp ∧
      (smEnter next w).reassoc = w.reassoc) ∨
    ((smEnter next w).sm.init = false ∧ (smEnter next w).assocRsp = false ∧
      (smEnter next w).reassoc = false) := by
  cases next
  case ptkInitialize =>
    refine .inl ⟨?_, (wpaRemovePtk_entry _).2.2⟩
    rw [smEnter, enterInitialize_sm]
  case disconnect =>
    by_cases hvalid : w.valid = true
    · refine .inr ⟨?_, ?_⟩
      · rw [smEnter, enterDisconnect_sm, if_pos hvalid]
        rfl
      · exact wpaStaDisconnect_entry hvalid
    · have hkeep : wpaStaDisconnect ((smEntry .disconnect w).mapSm fun sm =>
          { sm with disconnect := false }) = _ := if_neg hvalid
      rw [smEnter, enterDisconnect, hkeep]
      exact .inl ⟨rfl, rfl, rfl⟩
  case ptkStart =>
    have hs := enterPtkStart_sends w
    refine .inl ⟨?_, hs.entry.2.1, hs.entry.2.2.2⟩
    rw [smEnter, hs.sm]
  case ptkCalcNegotiating =>
    rw [smEnter, enterPtkCalcNegotiating_eq]
    split <;> exact .inl ⟨rfl, rfl, rfl⟩
  case ptkInitNegotiating =>
    have hs := enterPtkInitNegotiating_sends w
    refine .inl ⟨?_, hs.entry.2.1, hs.entry.2.2.2⟩
    rw [smEnter, hs.sm]
  case ptkInitDone =>
    rw [smEnter, enterPtkInitDone_eq]
    exact .inl ⟨rfl, rfl, rfl⟩
  all_goals exact .inl ⟨rfl, rfl, rfl⟩

/-! ## What is enabled -/

/-- What a state is entered for, other than `INITIALIZE` for an association. -/
def Enabled (sm : Sm) : PtkState → Prop
  | .ptkInitialize => sm.state = .disconnected
  | .disconnect => sm.disconnect = true ∨ sm.state = .initPmk ∨
      pairwiseUpdateCount < sm.timeoutCtr ∧ (sm.state = .ptkStart ∨ sm.state = .ptkInitNegotiating)
  | .disconnected => sm.deauthenticationRequest = true ∨ sm.state = .disconnect
  | .authentication => sm.authenticationRequest = true
  | .authentication2 => sm.reAuthenticationRequest = true ∨ sm.state = .authentication
  | .initPmk => sm.state = .authentication2
  | .initPsk => sm.state = .authentication2 ∧ sm.wpaKeyMgmt = Ap.keyMgmtPsk
  | .ptkStart => sm.ptkRequest = true ∨ sm.state = .initPsk ∨
      sm.timeoutEvt = true ∧
        (sm.state = .ptkStart ∨ sm.state = .ptkCalcNegotiating ∧ sm.micVerified = false)
  | .ptkCalcNegotiating => sm.pairwiseReceived = true ∧
      (sm.state = .ptkStart ∨ sm.state = .ptkCalcNegotiating ∧ sm.micVerified = false)
  | .ptkCalcNegotiating2 => sm.state = .ptkCalcNegotiating ∧ sm.micVerified = true
  | .ptkInitNegotiating =>
      sm.state = .ptkCalcNegotiating2 ∨ sm.state = .ptkInitNegotiating ∧ sm.timeoutEvt = true
  | .ptkInitDone =>
      sm.state = .ptkInitNegotiating ∧ sm.pairwiseReceived = true ∧ sm.micVerified = true

theorem enabled_of_localState {sm : Sm} {next : PtkState} (h : localState sm = some next) :
    Enabled sm next := by
  rw [localState] at h
  cases hs : sm.state <;> rw [hs] at h
  case ptkInitialize => cases h
  case disconnect => cases h; exact .inr hs
  case disconnected => cases h; exact hs
  case authentication => cases h; exact .inr hs
  case authentication2 =>
    dsimp only at h
    split_ifs at h with h1 h2 <;> cases h
    · exact hs
    · exact ⟨hs, h2⟩
  case initPmk => cases h; exact .inr (.inl hs)
  case initPsk => cases h; exact .inr (.inl hs)
  case ptkStart =>
    dsimp only at h
    split_ifs at h with h1 h2 h3 <;> cases h
    · exact ⟨h1, .inl hs⟩
    · exact .inr (.inr ⟨h2, .inl hs⟩)
    · exact .inr (.inr ⟨h3, .inl hs⟩)
  case ptkCalcNegotiating =>
    dsimp only at h
    split_ifs at h with h1 h2 h3 <;> cases h
    · exact ⟨hs, h1⟩
    · exact ⟨h2, .inr ⟨hs, Bool.eq_false_of_not_eq_true h1⟩⟩
    · exact .inr (.inr ⟨h3, .inr ⟨hs, Bool.eq_false_of_not_eq_true h1⟩⟩)
  case ptkCalcNegotiating2 => cases h; exact .inl hs
  case ptkInitNegotiating =>
    dsimp only at h
    split_ifs at h with h1 h2 h3 <;> cases h
    · rw [Bool.and_eq_true] at h1
      exact ⟨hs, h1⟩
    · exact .inr (.inr ⟨h2, .inr hs⟩)
    · exact .inr ⟨hs, h3⟩
  case ptkInitDone => cases h

theorem enabled_of_nextState {sm : Sm} {next : PtkState} (hinit : sm.init = false)
    (h : nextState sm = some next) : Enabled sm next := by
  rw [nextState, hinit, if_neg Bool.false_ne_true] at h
  split_ifs at h with h1 h2 h3 h4 h5
  · cases h; exact .inl h1
  · cases h; exact .inl h2
  · cases h; exact h3
  · cases h; exact .inl h4
  · cases h; exact .inl h5
  · exact enabled_of_localState h

/-! ## The end of the loop -/

/-- The flags that ask for something. -/
def flags (sm : Sm) : ℕ :=
  sm.disconnect.toNat + sm.deauthenticationRequest.toNat + sm.authenticationRequest.toNat +
    sm.reAuthenticationRequest.toNat + sm.ptkRequest.toNat + sm.eapolKeyReceived.toNat +
    sm.timeoutEvt.toNat

/-- How far a state is from the end of a handshake or of the station. -/
def rank : PtkState → ℕ
  | .authentication => 11
  | .authentication2 => 10
  | .initPmk => 9
  | .initPsk => 9
  | .ptkStart => 8
  | .ptkCalcNegotiating => 7
  | .ptkCalcNegotiating2 => 6
  | .ptkInitNegotiating => 5
  | .disconnect => 3
  | .disconnected => 2
  | .ptkInitialize => 1
  | .ptkInitDone => 0

/-- What gets smaller with every pass. -/
def measure (sm : Sm) : ℕ := 16 * flags sm + rank sm.state

theorem rank_le (state : PtkState) : rank state ≤ 11 := by cases state <;> decide

theorem measure_lt_passBound (sm : Sm) : measure sm < passBound := by
  have hrank := rank_le sm.state
  have hflag : ∀ b : Bool, b.toNat ≤ 1 := Bool.toNat_le
  have h1 := hflag sm.disconnect
  have h2 := hflag sm.deauthenticationRequest
  have h3 := hflag sm.authenticationRequest
  have h4 := hflag sm.reAuthenticationRequest
  have h5 := hflag sm.ptkRequest
  have h6 := hflag sm.eapolKeyReceived
  have h7 := hflag sm.timeoutEvt
  rw [measure, flags, passBound]
  omega

/-- A flag is cleared, and the state may be any. -/
theorem measure_lt_of_flags {sm sm' : Sm} (h : flags sm' < flags sm) :
    measure sm' < measure sm := by
  have := rank_le sm'.state
  rw [measure, measure]
  omega

/-- No flag is set, and the state goes on. -/
theorem measure_lt_of_rank {sm sm' : Sm} (a b : PtkState) (hrank : rank b < rank a)
    (hb : sm'.state = b) (ha : sm.state = a) (h : flags sm' ≤ flags sm) :
    measure sm' < measure sm := by
  rw [measure, measure, ha, hb]
  omega

/-- Sending does not change the measure. -/
theorem Sends.measure {w w' : World} (h : Sends w w') : measure w'.sm = measure w.sm := by
  rw [h.sm]
  rfl

theorem smEnter_measure {w : World} {next : PtkState} (h : Enabled w.sm next)
    (hchanged : (smEnter next w).sm.changed = true) :
    measure (smEnter next w).sm < measure w.sm := by
  cases next
  case ptkInitialize =>
    have hs : w.sm.state = .disconnected := h
    rw [smEnter, enterInitialize_sm]
    exact measure_lt_of_rank .disconnected .ptkInitialize (by decide) rfl hs (Nat.le_refl _)
  case disconnect =>
    rw [smEnter, enterDisconnect_sm] at hchanged ⊢
    split at hchanged
    case isTrue => cases hchanged
    case isFalse hv =>
      rw [if_neg hv]
      have hle : flags { w.sm with
          state := .disconnect, changed := true, disconnect := false } ≤ flags w.sm := by
        simp only [flags, Bool.toNat_false]
        omega
      rcases h with h | h | ⟨-, h | h⟩
      · refine measure_lt_of_flags ?_
        simp only [flags, h, Bool.toNat_false, Bool.toNat_true]
        omega
      · exact measure_lt_of_rank .initPmk .disconnect (by decide) rfl h hle
      · exact measure_lt_of_rank .ptkStart .disconnect (by decide) rfl h hle
      · exact measure_lt_of_rank .ptkInitNegotiating .disconnect (by decide) rfl h hle
  case disconnected =>
    rcases h with h | h
    · refine measure_lt_of_flags ?_
      show flags { w.sm with state := _, changed := _, deauthenticationRequest := false } < _
      simp only [flags, h, Bool.toNat_false, Bool.toNat_true]
      omega
    · refine measure_lt_of_rank .disconnect .disconnected (by decide) rfl h ?_
      show flags { w.sm with state := _, changed := _, deauthenticationRequest := false } ≤ _
      simp only [flags, Bool.toNat_false]
      omega
  case authentication =>
    have h' : w.sm.authenticationRequest = true := h
    refine measure_lt_of_flags ?_
    show flags { w.sm with
      state := _, changed := _, ptk := _, ptkValid := _, authenticationRequest := false } < _
    simp only [flags, h', Bool.toNat_false, Bool.toNat_true]
    omega
  case authentication2 =>
    rcases h with h | h
    · refine measure_lt_of_flags ?_
      show flags { w.sm with
        state := _, changed := _, aNonce := _, reAuthenticationRequest := false, timeoutCtr := _ }
          < _
      simp only [flags, h, Bool.toNat_false, Bool.toNat_true]
      omega
    · refine measure_lt_of_rank .authentication .authentication2 (by decide) rfl h ?_
      show flags { w.sm with
        state := _, changed := _, aNonce := _, reAuthenticationRequest := false, timeoutCtr := _ }
          ≤ _
      simp only [flags, Bool.toNat_false]
      omega
  case initPmk =>
    have hs : w.sm.state = .authentication2 := h
    exact measure_lt_of_rank .authentication2 .initPmk (by decide) rfl hs (Nat.le_refl _)
  case initPsk =>
    exact measure_lt_of_rank .authentication2 .initPsk (by decide) rfl h.1 (Nat.le_refl _)
  case ptkStart =>
    rw [smEnter, (enterPtkStart_sends w).measure]
    rcases h with h | h | ⟨h, -⟩
    · refine measure_lt_of_flags ?_
      simp only [flags, h, Bool.toNat_false, Bool.toNat_true]
      omega
    · refine measure_lt_of_rank .initPsk .ptkStart (by decide) rfl h ?_
      simp only [flags, Bool.toNat_false]
      omega
    · refine measure_lt_of_flags ?_
      simp only [flags, h, Bool.toNat_false, Bool.toNat_true]
      omega
  case ptkCalcNegotiating =>
    obtain ⟨hreceived, -⟩ := h
    simp only [Sm.pairwiseReceived, Bool.and_eq_true] at hreceived
    refine measure_lt_of_flags ?_
    rw [smEnter, enterPtkCalcNegotiating_eq]
    split <;> simp only [flags, hreceived.1.1, Bool.toNat_false, Bool.toNat_true] <;> omega
  case ptkCalcNegotiating2 =>
    exact measure_lt_of_rank .ptkCalcNegotiating .ptkCalcNegotiating2 (by decide) rfl h.1
      (Nat.le_refl _)
  case ptkInitNegotiating =>
    rw [smEnter, (enterPtkInitNegotiating_sends w).measure]
    rcases h with h | ⟨-, h⟩
    · refine measure_lt_of_rank .ptkCalcNegotiating2 .ptkInitNegotiating (by decide) rfl h ?_
      simp only [flags, Bool.toNat_false]
      omega
    · refine measure_lt_of_flags ?_
      simp only [flags, h, Bool.toNat_false, Bool.toNat_true]
      omega
  case ptkInitDone =>
    rw [smEnter, enterPtkInitDone_eq]
    refine measure_lt_of_rank .ptkInitNegotiating .ptkInitDone (by decide) rfl h.1 ?_
    simp only [flags, Bool.toNat_false]
    omega

/-- A state machine that the loop leaves: it is not started, it is held in `INITIALIZE`, or no state
is entered. -/
def AtRest (sm : Sm) : Prop := sm.started = false ∨ sm.init = true ∨ nextState sm = none

theorem smEnter_changed (next : PtkState) (w : World) :
    (smEnter next w).sm.changed = true ∨ (smEnter next w).sm.init = true ∨
      (smEnter next w).sm = .zero := by
  cases next
  case ptkInitialize =>
    rw [smEnter, enterInitialize_sm]
    by_cases hinit : w.sm.init = true
    · exact .inr (.inl hinit)
    · exact .inl (by simpa using hinit)
  case disconnect =>
    rw [smEnter, enterDisconnect_sm]
    split
    · exact .inr (.inr rfl)
    · exact .inl rfl
  case ptkStart =>
    rw [smEnter, (enterPtkStart_sends w).sm]
    exact .inl rfl
  case ptkCalcNegotiating =>
    rw [smEnter, enterPtkCalcNegotiating_eq]
    split <;> exact .inl rfl
  case ptkInitNegotiating =>
    rw [smEnter, (enterPtkInitNegotiating_sends w).sm]
    exact .inl rfl
  case ptkInitDone =>
    rw [smEnter, enterPtkInitDone_eq]
    exact .inl rfl
  all_goals exact .inl rfl

/-- `SM_STEP(WPA_PTK)` with a failure counted, if it is one. -/
theorem smStep_eq {w : World} {next : PtkState} (h : nextState w.sm = some next) :
    ∃ failures,
      smStep w = smEnter next { w with auth := { w.auth with failures := failures } } := by
  rw [smStep, h]
  by_cases hgives : givesUp w.sm next = true
  · exact ⟨_, congrArg (smEnter next) (if_pos hgives)⟩
  · exact ⟨w.auth.failures, congrArg (smEnter next) (if_neg hgives)⟩

/-- A world before a pass. -/
def cleared (w : World) : World := { w with sm := { w.sm with changed := false } }

theorem smPass_of_not_started {w : World} (h : w.sm.started = false) : smPass w = .inr w := by
  rw [smPass, if_pos (by rw [h]; rfl)]

theorem smPass_of_started {w : World} (h : w.sm.started = true) : smPass w =
    if (smStep (cleared w)).sm.changed then .inl (smStep (cleared w))
    else .inr (smStep (cleared w)) := by
  rw [smPass, if_neg (by rw [h]; exact Bool.false_ne_true)]
  rfl

/-- A pass does nothing, or it enters a state. -/
theorem smStep_cleared (w : World) : nextState w.sm = none ∧ smStep (cleared w) = cleared w ∨
    ∃ next failures, nextState w.sm = some next ∧ smStep (cleared w) =
      smEnter next { cleared w with auth := { w.auth with failures := failures } } := by
  cases hnext : nextState (cleared w).sm with
  | none => exact .inl ⟨hnext, by rw [smStep, hnext]⟩
  | some next =>
    obtain ⟨failures, heq⟩ := smStep_eq hnext
    exact .inr ⟨next, failures, hnext, heq⟩

/-- A pass that goes on makes the measure smaller. -/
theorem smPass_measure {w w' : World} (h : smPass w = .inl w') : measure w'.sm < measure w.sm := by
  cases hstarted : w.sm.started with
  | false =>
    rw [smPass_of_not_started hstarted] at h
    cases h
  | true =>
    rw [smPass_of_started hstarted] at h
    split_ifs at h with hchanged
    cases h
    rcases smStep_cleared w with ⟨-, heq⟩ | ⟨next, failures, hnext, heq⟩
    · rw [heq] at hchanged
      cases hchanged
    · rw [heq] at hchanged ⊢
      cases hinit : w.sm.init with
      | false => exact smEnter_measure (enabled_of_nextState hinit hnext) hchanged
      | true =>
        -- the loop is left with `Init`
        rw [nextState, if_pos hinit] at hnext
        cases hnext
        rw [smEnter, enterInitialize_sm] at hchanged
        change (!w.sm.init) = true at hchanged
        rw [hinit] at hchanged
        cases hchanged

/-- A pass that leaves the loop leaves the state machine at rest. -/
theorem smPass_atRest {w w' : World} (h : smPass w = .inr w') : AtRest w'.sm := by
  cases hstarted : w.sm.started with
  | false =>
    rw [smPass_of_not_started hstarted] at h
    cases h
    exact .inl hstarted
  | true =>
    rw [smPass_of_started hstarted] at h
    split_ifs at h with hchanged
    cases h
    rcases smStep_cleared w with ⟨hnext, heq⟩ | ⟨next, failures, hnext, heq⟩
    · rw [heq]
      exact .inr (.inr hnext)
    · rw [heq] at hchanged ⊢
      rcases smEnter_changed next { cleared w with auth := { w.auth with failures := failures } }
        with hc | hinit | hzero
      · exact absurd hc hchanged
      · exact .inr (.inl hinit)
      · rw [hzero]
        exact .inl rfl

/-- The loop of `wpa_sm_step` ends, whatever state it begins in. -/
theorem smPass_ends (w : World) : ∃ w', Loops.passes smPass passBound w = some w' :=
  Loops.passes_of_measure (I := fun _ => True) (fun _ _ _ h => ⟨trivial, smPass_measure h⟩) trivial
    (measure_lt_passBound w.sm)

theorem atRest_of_passes {w w' : World} {n : ℕ} (h : Loops.passes smPass n w = some w') :
    AtRest w'.sm :=
  Loops.of_passes (I := fun _ => True) (Q := fun w => AtRest w.sm) (fun _ _ _ h => smPass_atRest h)
    (fun _ _ _ _ => trivial) trivial h

/-- From whatever state, the loop ends, and then the state machine is at rest. -/
theorem exists_passes_atRest (w : World) :
    ∃ w', Loops.passes smPass passBound w = some w' ∧ AtRest w'.sm := by
  obtain ⟨w', hw'⟩ := smPass_ends w
  exact ⟨w', hw', atRest_of_passes hw'⟩

/-- A world in the loop. -/
def looping (w : World) : World := { w with sm := { w.sm with inStepLoop := true } }

/-- The end of the loop, if it is run. -/
theorem wpaSmStep_eq {w : World} (hstarted : w.sm.started = true)
    (hloop : w.sm.inStepLoop = false) : ∃ w',
      Loops.passes smPass passBound (looping w) = some w' ∧
      wpaSmStep w = { w' with sm := { w'.sm with inStepLoop := false } } := by
  obtain ⟨w', hw'⟩ := smPass_ends (looping w)
  refine ⟨w', hw', ?_⟩
  have hpasses : Loops.passes smPass passBound
      (w.mapSm fun sm => { sm with inStepLoop := true }) = some w' := hw'
  simp only [wpaSmStep, hstarted, hloop, Bool.not_true, Bool.false_eq_true, if_false, hpasses,
    Option.getD_some]
  rfl

/-- Whatever happened, the loop leaves the state machine at rest. -/
theorem atRest_wpaSmStep {w : World} (hloop : w.sm.inStepLoop = false) :
    AtRest (wpaSmStep w).sm := by
  cases hstarted : w.sm.started with
  | false =>
    rw [wpaSmStep, if_pos (by rw [hstarted]; rfl)]
    exact .inl hstarted
  | true =>
    obtain ⟨w', hw', heq⟩ := wpaSmStep_eq hstarted hloop
    have hrest : AtRest w'.sm := atRest_of_passes hw'
    rw [heq]
    exact hrest

/-- With `Init` the loop makes one pass. -/
theorem wpaSmStep_init {w : World} (hstarted : w.sm.started = true)
    (hloop : w.sm.inStepLoop = false) (hinit : w.sm.init = true) : wpaSmStep w = { w with
      out := w.out ++ removeOutputs w
      sm := { w.sm with
        state := .ptkInitialize, changed := false, pair := true
        ptk := if w.sm.pairwiseSet then .zero else w.sm.ptk
        pairwiseSet := false, timeoutCtr := 0 } } := by
  obtain ⟨w', hw', heq⟩ := wpaSmStep_eq hstarted hloop
  have henter := enterInitialize_eq (cleared (looping w))
  have hstep : smStep (cleared (looping w)) = enterInitialize (cleared (looping w)) := by
    have hnext : nextState (cleared (looping w)).sm = some .ptkInitialize := if_pos hinit
    rw [smStep, hnext]
    rfl
  have hpass : smPass (looping w) = .inr (enterInitialize (cleared (looping w))) := by
    rw [smPass_of_started (w := looping w) hstarted, hstep, henter, if_neg]
    show ¬ (!w.sm.init) = true
    rw [hinit]
    exact Bool.false_ne_true
  rw [passBound, Loops.passes_succ_of_inr hpass] at hw'
  have hchanged : (!w.sm.init) = false := by rw [hinit]; rfl
  rw [heq, ← Option.some.inj hw', henter]
  simp only [cleared, looping, removeOutputs, hchanged, hloop]
  rfl

/-- A pass that enters a state and goes on. -/
theorem passes_enter {w : World} (next : PtkState) (n : ℕ) (hstarted : w.sm.started = true)
    (hnext : nextState w.sm = some next) (hgives : givesUp w.sm next = false)
    (hchanged : (smEnter next (cleared w)).sm.changed = true) :
    Loops.passes smPass (n + 1) w = Loops.passes smPass n (smEnter next (cleared w)) := by
  have hstep : smStep (cleared w) = smEnter next (cleared w) := by
    have hnext' : nextState (cleared w).sm = some next := hnext
    have hgives' : ¬ givesUp (cleared w).sm next = true := by
      show ¬ givesUp w.sm next = true
      rw [hgives]
      exact Bool.false_ne_true
    rw [smStep, hnext']
    exact congrArg (smEnter next) (if_neg hgives')
  apply Loops.passes_succ_of_inl
  rw [smPass_of_started hstarted, hstep, if_pos hchanged]

/-- The last pass. -/
theorem passes_rest {w : World} (n : ℕ) (hstarted : w.sm.started = true)
    (hnext : nextState w.sm = none) :
    Loops.passes smPass (n + 1) w = some (cleared w) := by
  have hstep : smStep (cleared w) = cleared w := by
    have hnext' : nextState (cleared w).sm = none := hnext
    rw [smStep, hnext']
  apply Loops.passes_succ_of_inr
  rw [smPass_of_started hstarted, hstep]
  rfl

theorem wpaSmStep_of_passes {w w' : World} (hstarted : w.sm.started = true)
    (hloop : w.sm.inStepLoop = false)
    (h : Loops.passes smPass passBound (looping w) = some w') :
    wpaSmStep w = { w' with sm := { w'.sm with inStepLoop := false } } := by
  obtain ⟨v, hv, heq⟩ := wpaSmStep_eq hstarted hloop
  rw [heq, Option.some.inj (hv.symm.trans h)]

/-- What does not speak of the flags of the loop, nor of the failures. -/
def IgnoresLoop (I : World → Prop) : Prop :=
  ∀ (w : World) (changed inStepLoop : Bool) (failures : ℕ), I w →
    I { w with
      sm := { w.sm with changed := changed, inStepLoop := inStepLoop }
      auth := { w.auth with failures := failures } }

/-- What entering a state keeps, the loop keeps. -/
theorem wpaSmStep_induction {I : World → Prop} (hignores : IgnoresLoop I)
    (henter : ∀ w next, I w → w.sm.started = true → nextState w.sm = some next →
      I (smEnter next w)) {w : World} (hw : I w) : I (wpaSmStep w) := by
  have hpass : ∀ w r, I w → smPass w = .inl r ∨ smPass w = .inr r → I r := fun w r hw h => by
    cases hstarted : w.sm.started with
    | false =>
      rw [smPass_of_not_started hstarted] at h
      rcases h with h | h <;> cases h
      exact hw
    | true =>
      have hI : I (smStep (cleared w)) := by
        rcases smStep_cleared w with ⟨-, heq⟩ | ⟨next, failures, hnext, heq⟩
        · rw [heq]
          exact hignores w false w.sm.inStepLoop w.auth.failures hw
        · rw [heq]
          exact henter _ next (hignores w false w.sm.inStepLoop failures hw) hstarted hnext
      rw [smPass_of_started hstarted] at h
      split_ifs at h <;> rcases h with h | h <;> cases h <;> exact hI
  cases hstarted : w.sm.started with
  | false => rwa [wpaSmStep, if_pos (by rw [hstarted]; rfl)]
  | true =>
    cases hloop : w.sm.inStepLoop with
    | true => rwa [wpaSmStep, if_neg (by rw [hstarted]; exact Bool.false_ne_true), if_pos hloop]
    | false =>
      obtain ⟨w', hw', heq⟩ := wpaSmStep_eq hstarted hloop
      rw [heq]
      refine hignores w' w'.sm.changed false w'.auth.failures ?_
      exact Loops.of_passes (I := I) (fun s r hs h => hpass s r hs (.inr h))
        (fun s s' hs h => hpass s s' hs (.inl h))
        (hignores w w.sm.changed true w.auth.failures hw) hw'

/-! ## Receiving -/

/-- A frame whose integrity code is right, or not looked at without a key. -/
def verified (w : World) : World :=
  { w with
    out := w.out ++ if w.sm.ptkValid then [.cancelTimer] else []
    sm := { w.sm with micVerified := w.sm.ptkValid } }

/-- The first replay counter is used. -/
def replayUsed (w : World) : World :=
  { w with sm := { w.sm with
    keyReplay := (⟨w.sm.keyReplay.1.counter, false⟩, w.sm.keyReplay.2) } }

/-- The ways of a frame through the end of `wpa_receive`. -/
theorem checkFrame_cases (w : World) (data : List UInt8) :
    checkFrame w data = w ∨
    checkFrame w data = { w with sm := { w.sm with micVerified := false } } ∨
    (w.sm.ptkValid = true → wpaVerifyKeyMic w.sm.ptk data = true) ∧
      ((frameKeyInfo data).testBit KeyInfo.request = true ∧
          (w.sm.ptkValid = true ∧ checkFrame w data
              = acceptFrame ((verified w).mapSm (processRequest data)) data ∨
            w.sm.ptkValid = false ∧ checkFrame w data = (verified w).emit (.createTimer 100)) ∨
        (frameKeyInfo data).testBit KeyInfo.request = false ∧
          checkFrame w data = acceptFrame (replayUsed (verified w)) data) := by
  by_cases hbits : (frameKeyInfo data).testBit KeyInfo.ack = true ∨
      (!(frameKeyInfo data).testBit KeyInfo.mic) = true
  · exact .inl (if_pos hbits)
  cases hkey : w.sm.ptkValid with
  | true =>
    cases hmic : wpaVerifyKeyMic w.sm.ptk data with
    | false =>
      refine .inr (.inl ?_)
      rw [checkFrame, if_neg hbits]
      simp only [World.mapSm, hkey, hmic, Bool.not_false, Bool.and_self, if_true]
    | true =>
      refine .inr (.inr ⟨fun _ => rfl, ?_⟩)
      rw [checkFrame, if_neg hbits]
      cases hrequest : (frameKeyInfo data).testBit KeyInfo.request <;>
        simp [World.mapSm, verified, replayUsed, World.emit, hkey, hmic]
  | false =>
    refine .inr (.inr ⟨fun hk => (by cases hk), ?_⟩)
    rw [checkFrame, if_neg hbits]
    cases hrequest : (frameKeyInfo data).testBit KeyInfo.request <;>
      simp [World.mapSm, verified, replayUsed, World.emit, hkey]

/-- What `wpa_receive` writes before the state machine runs. -/
def takeFrame (sm : Sm) (data : List UInt8) : Sm :=
  { sm with
    lastRxEapolKey := data
    rxEapolKeySecure := (frameKeyInfo data).testBit KeyInfo.secure
    eapolKeyReceived := true
    eapolKeyPairwise := (frameKeyInfo data).testBit KeyInfo.keyType
    eapolKeyRequest := (frameKeyInfo data).testBit KeyInfo.request
    sNonce := frameNonce data }

/-- A frame that is kept. -/
theorem acceptFrame_eq {w : World} (hmem : w.mallocs = []) (data : List UInt8) :
    acceptFrame w data = wpaSmStep { w with sm := takeFrame w.sm data } := by
  have hcopy : w.malloc = (true, w) := by
    rw [World.malloc, hmem]
    show (true, { w with mallocs := [] }) = _
    rw [← hmem]
  rw [acceptFrame]
  simp only [hcopy, Bool.not_true, Bool.false_eq_true, if_false]
  rfl

/-- A verified request asks for nothing more, or for a new key. -/
theorem processRequest_cases (sm : Sm) (data : List UInt8) (hstarted : sm.started = true) :
    processRequest data sm = { sm with
      reqReplayCounterUsed := true, reqReplayCounter := frameReplayCounter data } ∨
    processRequest data sm = { sm with
      reqReplayCounterUsed := true, reqReplayCounter := frameReplayCounter data
      ptkRequest := true, ptkValid := false } := by
  simp only [processRequest, wpaRequestNewPtk, hstarted, Bool.not_true, Bool.false_eq_true,
    if_false]
  split
  · exact .inr rfl
  · exact .inl rfl

theorem emit_sm (w : World) (o : Output) : (w.emit o).sm = w.sm := rfl

theorem emit_malloc_fst (w : World) (o : Output) : (w.emit o).malloc.1 = w.malloc.1 := rfl

/-- The ways of a frame through `wpa_receive`: it is not looked at, it is dropped, or it comes to
its kind, with the answer of the memory for the copy of an element. -/
theorem wpaReceive_cases (w : World) (data : List UInt8) :
    wpaReceive w data = w ∨ wpaReceive w data = w.emit .cancelTimer ∨
    w.sm.started = true ∧ headerLen ≤ data.length ∧ headerFits w.sm data = true ∧
      ((frameVerdict w.sm data w.malloc.1 = .disconnect ∧
          wpaReceive w data = wpaStaDisconnect (w.emit .cancelTimer).malloc.2) ∨
        frameVerdict w.sm data w.malloc.1 = .go ∧
          wpaReceive w data = checkFrame (w.emit .cancelTimer).malloc.2 data) := by
  by_cases hconf : w.auth.confWpa = 0 ∨ (!w.sm.started) = true
  · exact .inl (if_pos hconf)
  by_cases hlen : data.length < headerLen
  · exact .inl (by rw [wpaReceive, if_neg hconf, if_pos hlen])
  by_cases hfits : headerFits w.sm data = true
  · have hstarted : w.sm.started = true := by simpa using (not_or.mp hconf).2
    have hfits' : ¬ (!headerFits w.sm data) = true := by
      rw [hfits]
      exact Bool.false_ne_true
    cases hverdict : frameVerdict w.sm data w.malloc.1 with
    | drop =>
      refine .inr (.inl ?_)
      rw [wpaReceive, if_neg hconf, if_neg hlen]
      simp only [emit_sm, emit_malloc_fst, if_neg hfits', hverdict]
    | disconnect =>
      refine .inr (.inr ⟨hstarted, Nat.le_of_not_lt hlen, hfits, .inl ⟨rfl, ?_⟩⟩)
      rw [wpaReceive, if_neg hconf, if_neg hlen]
      simp only [emit_sm, emit_malloc_fst, if_neg hfits', hverdict]
    | go =>
      refine .inr (.inr ⟨hstarted, Nat.le_of_not_lt hlen, hfits, .inr ⟨rfl, ?_⟩⟩)
      rw [wpaReceive, if_neg hconf, if_neg hlen]
      simp only [emit_sm, emit_malloc_fst, if_neg hfits', hverdict]
  · refine .inr (.inl ?_)
    rw [wpaReceive, if_neg hconf, if_neg hlen, if_pos]
    show (!headerFits w.sm data) = true
    rw [Bool.eq_false_of_not_eq_true hfits]
    rfl

/-- A frame that is looked at further is one that the state waits for, or it is for a group or a
request. -/
theorem frameVerdict_go {sm : Sm} {data : List UInt8} {room : Bool}
    (h : frameVerdict sm data room = .go) : frameMsg data ≠ .smk ∧
      (frameMsg data = .pairwise2 → sm.state = .ptkStart ∨ sm.state = .ptkCalcNegotiating) ∧
      (frameMsg data = .pairwise4 → sm.state = .ptkInitNegotiating ∧ sm.ptkValid = true) := by
  rw [frameVerdict] at h
  refine ⟨fun hm => ?_, fun hm => ?_, fun hm => ?_⟩ <;> rw [hm] at h
  · cases h
  · dsimp only at h
    split_ifs at h with hs
    by_contra hne
    exact hs (not_or.mp hne)
  · dsimp only at h
    split_ifs at h with hs
    rw [not_or, not_not, Bool.not_eq_true', Bool.not_eq_false] at hs
    exact hs

/-- A frame with an integrity code that is no request. -/
theorem checkFrame_eq {w : World} {data : List UInt8}
    (hack : (frameKeyInfo data).testBit KeyInfo.ack = false)
    (hmic : (frameKeyInfo data).testBit KeyInfo.mic = true)
    (hrequest : (frameKeyInfo data).testBit KeyInfo.request = false)
    (hverify : w.sm.ptkValid = true → wpaVerifyKeyMic w.sm.ptk data = true) :
    checkFrame w data = acceptFrame (replayUsed (verified w)) data := by
  have hbits : ¬ ((frameKeyInfo data).testBit KeyInfo.ack = true ∨
      (!(frameKeyInfo data).testBit KeyInfo.mic) = true) := by
    rw [hack, hmic]
    decide
  rw [checkFrame, if_neg hbits]
  cases hkey : w.sm.ptkValid with
  | true => simp [World.mapSm, verified, replayUsed, World.emit, hkey, hverify hkey, hrequest]
  | false => simp [World.mapSm, verified, replayUsed, hkey, hrequest]

/-- A request with an integrity code that is right. -/
theorem checkFrame_request {w : World} {data : List UInt8}
    (hack : (frameKeyInfo data).testBit KeyInfo.ack = false)
    (hmic : (frameKeyInfo data).testBit KeyInfo.mic = true)
    (hrequest : (frameKeyInfo data).testBit KeyInfo.request = true) (hkey : w.sm.ptkValid = true)
    (hverify : wpaVerifyKeyMic w.sm.ptk data = true) :
    checkFrame w data = acceptFrame ((verified w).mapSm (processRequest data)) data := by
  have hbits : ¬ ((frameKeyInfo data).testBit KeyInfo.ack = true ∨
      (!(frameKeyInfo data).testBit KeyInfo.mic) = true) := by
    rw [hack, hmic]
    decide
  rw [checkFrame, if_neg hbits]
  simp [World.mapSm, verified, World.emit, hkey, hverify, hrequest]

/-- To let a station in does not touch its state machine. -/
@[simp] theorem letIn_sm (w : World) : (letIn w).sm = w.sm := by
  rw [letIn]
  split
  · rw [process4WaysStart, if_neg (by exact Bool.false_ne_true)]
  · rfl

/-! ## Accepted frames -/

/-- Whether `wpa_receive` hands a frame on to the state machine. -/
def accepts (w : World) (data : List UInt8) : Bool :=
  let keyInfo := frameKeyInfo data
  decide (w.auth.confWpa ≠ 0) && w.sm.started && decide (headerLen ≤ data.length) &&
    headerFits w.sm data && decide (frameVerdict w.sm data w.malloc.1 = .go) &&
    !keyInfo.testBit KeyInfo.ack && keyInfo.testBit KeyInfo.mic &&
    (if w.sm.ptkValid then wpaVerifyKeyMic w.sm.ptk data else !keyInfo.testBit KeyInfo.request)

variable {w : World} {sm : Sm} {data : List UInt8}

/-- A frame is handed on when its counter has been noted. -/
def handedOn (w : World) (data : List UInt8) : World :=
  if (frameKeyInfo data).testBit KeyInfo.request then
    (verified (w.emit .cancelTimer).malloc.2).mapSm (processRequest data)
  else replayUsed (verified (w.emit .cancelTimer).malloc.2)

/-- What is checked of a frame that is accepted. -/
theorem accepts_checks (h : accepts w data = true) :
    (w.auth.confWpa ≠ 0 ∧ w.sm.started = true ∧ headerLen ≤ data.length) ∧
      headerFits w.sm data = true ∧ frameVerdict w.sm data w.malloc.1 = .go ∧
      (frameKeyInfo data).testBit KeyInfo.ack = false ∧
      (frameKeyInfo data).testBit KeyInfo.mic = true ∧
      (w.sm.ptkValid = true → wpaVerifyKeyMic w.sm.ptk data = true) ∧
      ((frameKeyInfo data).testBit KeyInfo.request = true → w.sm.ptkValid = true) := by
  have hparts := h
  rw [accepts, Bool.and_eq_true, Bool.and_eq_true, Bool.and_eq_true, Bool.and_eq_true,
    Bool.and_eq_true, Bool.and_eq_true, Bool.and_eq_true, decide_eq_true_eq, decide_eq_true_eq,
    decide_eq_true_eq, Bool.not_eq_true'] at hparts
  obtain ⟨⟨⟨⟨⟨⟨⟨hconf, hstarted⟩, hlen⟩, hfits⟩, hgo⟩, hack⟩, hmic⟩, hverify⟩ := hparts
  refine ⟨⟨hconf, hstarted, hlen⟩, hfits, hgo, hack, hmic, fun hk => ?_, fun hrequest => ?_⟩
  · rwa [if_pos hk] at hverify
  · by_contra hk
    rw [if_neg hk, hrequest] at hverify
    cases hverify

/-- The counter of a frame whose header fits. -/
theorem headerFits_counter (h : headerFits sm data = true) :
    ((frameKeyInfo data).testBit KeyInfo.request = false →
      wpaReplayCounterValid sm (frameReplayCounter data) = true) ∧
    ((frameKeyInfo data).testBit KeyInfo.request = true → sm.reqReplayCounterUsed = true →
      0 < memcmp (frameReplayCounter data).1 sm.reqReplayCounter.1) := by
  rw [headerFits, Bool.and_eq_true] at h
  obtain ⟨-, hcounter⟩ := h
  refine ⟨fun hrequest => ?_, fun hrequest hused => ?_⟩
  · rwa [hrequest, if_neg Bool.false_ne_true] at hcounter
  · rwa [hrequest, if_pos rfl, hused, Bool.not_true, Bool.false_or, decide_eq_true_eq] at hcounter

theorem wpaReceive_of_accepts (h : accepts w data = true) :
    wpaReceive w data = acceptFrame (handedOn w data) data := by
  obtain ⟨⟨hconf, hstarted, hlen⟩, hfits, hgo, hack, hmic, hverify, hkey⟩ := accepts_checks h
  have hreceive : wpaReceive w data = checkFrame (w.emit .cancelTimer).malloc.2 data := by
    have hfits' : headerFits (w.emit .cancelTimer).sm data = true := hfits
    have hgo' : frameVerdict (w.emit .cancelTimer).sm data (w.emit .cancelTimer).malloc.1 = .go :=
      hgo
    rw [wpaReceive, if_neg (by rw [hstarted]; simpa using hconf), if_neg (Nat.not_lt.mpr hlen)]
    simp only [hfits', hgo', Bool.not_true, Bool.false_eq_true, if_false]
  rw [hreceive, handedOn]
  cases hrequest : (frameKeyInfo data).testBit KeyInfo.request with
  | false =>
    rw [if_neg Bool.false_ne_true]
    exact checkFrame_eq hack hmic hrequest hverify
  | true =>
    rw [if_pos rfl]
    exact checkFrame_request hack hmic hrequest (hkey hrequest) (hverify (hkey hrequest))

/-- A frame that is not accepted changes no more than the state of its verification, unless it ends
the station: a message 2 with another element does. -/
theorem wpaReceive_of_not_accepts (h : accepts w data = false) :
    (wpaReceive w data).assocRsp = w.assocRsp ∧
        (wpaReceive w data).sm = { w.sm with micVerified := (wpaReceive w data).sm.micVerified } ∨
      w.sm.started = true ∧ frameVerdict w.sm data w.malloc.1 = .disconnect ∧
        wpaReceive w data = wpaStaDisconnect (w.emit .cancelTimer).malloc.2 := by
  by_cases hconf : w.auth.confWpa = 0
  · left
    rw [wpaReceive, if_pos (.inl hconf)]
    exact ⟨rfl, rfl⟩
  rcases wpaReceive_cases w data with heq | heq | ⟨hstarted, hlen, hfits, ⟨hgo, heq⟩ | ⟨hgo, heq⟩⟩
  · left
    rw [heq]
    exact ⟨rfl, rfl⟩
  · left
    rw [heq]
    exact ⟨rfl, rfl⟩
  · exact .inr ⟨hstarted, hgo, heq⟩
  · left
    simp only [accepts, hstarted, hlen, hfits, hgo, ne_eq, hconf, not_false_eq_true, decide_true,
      Bool.true_and] at h
    rw [heq]
    by_cases hbits : (frameKeyInfo data).testBit KeyInfo.ack = true ∨
        (!(frameKeyInfo data).testBit KeyInfo.mic) = true
    · rw [checkFrame, if_pos hbits]
      exact ⟨rfl, rfl⟩
    · obtain ⟨hack, hmic⟩ := not_or.mp hbits
      rw [Bool.not_eq_true] at hack
      rw [Bool.not_eq_true, Bool.not_eq_false'] at hmic
      rw [hack, hmic, Bool.not_false, Bool.true_and, Bool.true_and] at h
      rw [checkFrame, if_neg hbits]
      cases hk : w.sm.ptkValid with
      | true =>
        rw [hk, if_pos rfl] at h
        simp [World.mapSm, World.malloc, World.emit, hk, h]
      | false =>
        rw [hk, if_neg Bool.false_ne_true, Bool.not_eq_false'] at h
        simp [World.mapSm, World.malloc, World.emit, hk, h]

end Fullmac.Wpa
