import Fullmac.Wpa.Handshake

/-!
# Who is let in

Reference: `host/ap/wpa_auth.c`; `host/ap/ap_mlme.c`, `handle_assoc`.

In a network with a pre-shared key, a station gets its key and its port is opened by message 4 of a
handshake and by nothing else (`grants_of_run`). The message is verified with the key that is given
to the station, and so was a message 2 that came since the station's last association request; the
key is made from the pre-shared key of that time and from the nonce of that message.

The invariant of the loop (`Inv`) leaves open what is known of the messages 2 and 4: it is used once
with the messages of a run, and for one event with the message that is handled.
-/

namespace Fullmac.Wpa

/-! ## The invariant -/

/-- A key is given to the station, or its port is opened. -/
def Grants : Output → Prop
  | .setKey alg _ => alg ≠ .none
  | .setAuthorized yes => yes = true
  | _ => False

/-- Nothing asks for a state that does not come from the state before. -/
def NoRequest (sm : Sm) : Prop :=
  sm.init = false ∧ sm.deauthenticationRequest = false ∧ sm.authenticationRequest = false ∧
    sm.ptkRequest = false

/-- The states in which a station has no key. -/
def keylessStates : List PtkState :=
  [.disconnected, .authentication, .authentication2, .initPsk, .ptkStart]

/-- A station has no key when a handshake is asked for or begins. -/
def Keyless (sm : Sm) : Prop :=
  (sm.init = true ∨ sm.deauthenticationRequest = true ∨ sm.ptkRequest = true) ∨
    sm.state ∈ keylessStates ∨ sm.state = .ptkCalcNegotiating ∧ sm.micVerified = false

theorem Keyless.requests {sm : Sm} (h : Keyless sm) (state : PtkState) (hs : sm.state = state)
    (hstate : state ∉ .ptkCalcNegotiating :: keylessStates) :
    sm.init = true ∨ sm.deauthenticationRequest = true ∨ sm.ptkRequest = true := by
  rw [List.mem_cons, not_or] at hstate
  rcases h with h | h | ⟨h, -⟩
  · exact h
  · rw [hs] at h
    exact absurd h hstate.2
  · rw [hs] at h
    exact absurd h hstate.1

/-- The key of a station is verified by a message 2, and made from it. -/
def MadeFrom (sm : Sm) (ownAddr : Octets 6) (m : List UInt8) (psk : Octets 32) : Prop :=
  wpaVerifyKeyMic sm.ptk m = true ∧
    sm.ptk = wpaDerivePtk sm.pairwise psk ownAddr sm.addr sm.aNonce (frameNonce m)

/-- What holds in the loop. `m2` are the messages 2 that count, with the pre-shared key when they
came, and `m4` the messages 4 with the key that verifies them. -/
structure Inv (m2 : List UInt8 → Octets 32 → Prop) (m4 : List UInt8 → Ptk → Prop) (w : World) :
    Prop where
  conf : w.auth.confWpaKeyMgmt = Ap.keyMgmtPsk
  entry : w.sm.started = true → w.valid = true ∧ w.auth.confWpa ≠ 0
  idle : w.sm.started = false →
    w.sm.state = .ptkInitialize ∧ w.sm.ptkValid = false ∧ NoRequest w.sm
  never : w.sm.disconnect = false ∧ w.sm.reAuthenticationRequest = false ∧ w.sm.state ≠ .disconnect
  noKey : Keyless w.sm → w.sm.ptkValid = false
  asked : w.sm.ptkRequest = true → w.sm.state ≠ .ptkStart ∧ w.sm.state ≠ .ptkCalcNegotiating
  mgmt : w.sm.state = .initPsk ∨ w.sm.state = .ptkStart ∨ w.sm.state = .ptkCalcNegotiating ∨
    w.sm.ptkRequest = true ∨ w.sm.ptkValid = true → w.sm.wpaKeyMgmt = Ap.keyMgmtPsk
  key : w.sm.ptkValid = true → ∃ m psk, m2 m psk ∧ MadeFrom w.sm w.auth.ownAddr m psk
  received : w.sm.pairwiseReceived = true → NoRequest w.sm ∧
    ((w.sm.state = .ptkStart ∨ w.sm.state = .ptkCalcNegotiating ∧ w.sm.micVerified = false) ∧
        m2 w.sm.lastRxEapolKey w.auth.psk ∧ w.sm.sNonce = frameNonce w.sm.lastRxEapolKey ∨
      w.sm.state = .ptkInitNegotiating ∧ w.sm.micVerified = true ∧
        m4 w.sm.lastRxEapolKey w.sm.ptk)
  out : ∀ o ∈ w.out, Grants o → ∃ m ptk, m4 m ptk ∧ ∀ alg key, o = .setKey alg key → key = ptk.tk1.1

variable {m2 : List UInt8 → Octets 32 → Prop} {m4 : List UInt8 → Ptk → Prop} {w w' : World}
  {data : List UInt8}

theorem Inv.ignoresLoop : IgnoresLoop (Inv m2 m4) := fun _ _ _ _ h =>
  ⟨h.conf, h.entry, h.idle, h.never, h.noKey, h.asked, h.mgmt, h.key, h.received, h.out⟩

/-- What is sent grants nothing. -/
theorem Sends.not_grants (h : Sends w w') {o : Output} (ho : o ∈ w'.out) (hgrants : Grants o) :
    o ∈ w.out := by
  obtain ⟨l, hl, hout⟩ := h.out
  rw [hl] at ho
  rcases List.mem_append.mp ho with ho | ho
  · exact ho
  · rcases hout o ho with ⟨ms, rfl⟩ | ⟨-, ⟨ms, rfl⟩ | ⟨frame, encrypt, rfl, -⟩⟩ <;> cases hgrants

theorem Inv.sends (h : Inv m2 m4 w) (hs : Sends w w') : Inv m2 m4 w' := by
  have hsm := hs.sm
  have hauth := hs.auth
  have hout := fun o ho hg => h.out o (hs.not_grants ho hg) hg
  obtain ⟨hvalid, -⟩ := hs.entry
  refine ⟨?_, ?_, ?_, ?_, ?_, ?_, ?_, ?_, ?_, hout⟩
  · rw [hauth]; exact h.conf
  · rw [hsm, hauth, hvalid]; exact h.entry
  · rw [hsm]; exact h.idle
  · rw [hsm]; exact h.never
  · rw [hsm]; exact h.noKey
  · rw [hsm]; exact h.asked
  · rw [hsm]; exact h.mgmt
  · rw [hsm, hauth]; exact h.key
  · rw [hsm, hauth]; exact h.received

/-- A state machine before its handshake. -/
def Fresh (sm : Sm) : Prop :=
  sm = { Sm.zero with
    addr := sm.addr, wpa := sm.wpa, pairwise := sm.pairwise, wpaKeyMgmt := sm.wpaKeyMgmt
    wpaIe := sm.wpaIe }

theorem Inv.of_fresh (hconf : w.auth.confWpaKeyMgmt = Ap.keyMgmtPsk) (hsm : Fresh w.sm)
    (hout : ∀ o ∈ w.out, Grants o → ∃ m ptk, m4 m ptk ∧ ∀ alg key, o = .setKey alg key →
      key = ptk.tk1.1) : Inv m2 m4 w := by
  rw [Fresh] at hsm
  refine ⟨hconf, ?_, ?_, ?_, ?_, ?_, ?_, ?_, ?_, hout⟩ <;> rw [hsm]
  · exact fun h => by cases h
  · exact fun _ => ⟨rfl, rfl, rfl, rfl, rfl, rfl⟩
  · exact ⟨rfl, rfl, fun h => by cases h⟩
  · exact fun _ => rfl
  · exact fun h => by cases h
  · rintro (h | h | h | h | h) <;> cases h
  · exact fun h => by cases h
  · exact fun h => by cases h

/-! ## Entering a state -/

theorem apStaInfoFree_out {o : Output} (ho : o ∈ (apStaInfoFree w).out) (hg : Grants o) :
    o ∈ w.out := by
  rw [apStaInfoFree] at ho
  split at ho
  · have ho' : o ∈ (wpaAuthStaDeinit (w.emit (.setAuthorized false))).out := ho
    rw [wpaAuthStaDeinit] at ho'
    split at ho' <;> simp only [World.emit, List.mem_append, List.mem_singleton] at ho'
    · rcases ho' with (ho' | rfl) | rfl
      · exact ho'
      · cases hg
      · cases hg
    · rcases ho' with ho' | rfl
      · exact ho'
      · cases hg
  · exact ho

theorem wpaStaDisconnect_out {o : Output} (ho : o ∈ (wpaStaDisconnect w).out) (hg : Grants o) :
    o ∈ w.out := by
  rw [wpaStaDisconnect] at ho
  split at ho
  · have ho' := apStaInfoFree_out ho hg
    simp only [World.emit, List.mem_append, List.mem_singleton] at ho'
    rcases ho' with ((ho' | rfl) | rfl) | rfl
    · exact ho'
    · cases hg
    · cases hg
    · cases hg
  · exact ho

theorem wpaRemovePtk_out {o : Output} (ho : o ∈ (wpaRemovePtk w).out) (hg : Grants o) :
    o ∈ w.out := by
  rw [wpaRemovePtk] at ho
  split at ho
  · rcases List.mem_append.mp ho with ho | ho
    · exact ho
    · rw [List.mem_singleton.mp ho] at hg
      exact absurd rfl hg
  · exact ho

theorem apStaInfoFree_auth (w : World) : (apStaInfoFree w).auth = w.auth := by
  rw [apStaInfoFree, wpaAuthStaDeinit]
  split_ifs <;> rfl

theorem wpaStaDisconnect_auth (w : World) : (wpaStaDisconnect w).auth = w.auth := by
  rw [wpaStaDisconnect]
  split_ifs
  · exact apStaInfoFree_auth _
  · rfl

/-- The end of a station. -/
theorem Inv.disconnect (h : Inv m2 m4 w) (hvalid : w.valid = true) :
    Inv m2 m4 (wpaStaDisconnect w) := by
  have hsm : (wpaStaDisconnect w).sm = .zero := by rw [wpaStaDisconnect_sm, if_pos hvalid]
  refine .of_fresh ?_ ?_ fun o ho hg => h.out o (wpaStaDisconnect_out ho hg) hg
  · rw [wpaStaDisconnect_auth]
    exact h.conf
  · rw [hsm]
    rfl

theorem Inv.free (h : Inv m2 m4 w) : Inv m2 m4 (apStaInfoFree w) := by
  by_cases hvalid : w.valid = true
  · refine .of_fresh ?_ ?_ fun o ho hg => h.out o (apStaInfoFree_out ho hg) hg
    · rw [apStaInfoFree_auth]
      exact h.conf
    · rw [apStaInfoFree, if_pos hvalid]
      rfl
  · rw [apStaInfoFree, if_neg hvalid]
    exact h

theorem enterInitialize_out {o : Output} (ho : o ∈ (enterInitialize w).out) (hg : Grants o) :
    o ∈ w.out := by
  have hremove : o ∈ (wpaRemovePtk ((smEntry .ptkInitialize w).mapSm fun sm =>
      { sm with changed := sm.changed && !sm.init, pair := true })).out := ho
  have hentry := wpaRemovePtk_out hremove hg
  exact hentry

/-- Entering `INITIALIZE`, for an association or behind `DISCONNECTED`. -/
theorem Inv.initialize (h : Inv m2 m4 w) (hstarted : w.sm.started = true)
    (hfrom : w.sm.init = true ∨ w.sm.state = .disconnected) : Inv m2 m4 (enterInitialize w) := by
  have hsm := enterInitialize_sm w
  have hptk : w.sm.ptkValid = false := by
    rcases hfrom with hs | hs
    · exact h.noKey (.inl (.inl hs))
    · exact h.noKey (.inr (.inl (by rw [hs]; decide)))
  have hauth : (enterInitialize w).auth = w.auth := (wpaRemovePtk_entry _).1
  have hvalid : (enterInitialize w).valid = w.valid := (wpaRemovePtk_entry _).2.1
  refine ⟨?_, ?_, ?_, ?_, ?_, ?_, ?_, ?_, ?_,
    fun o ho hg => h.out o (enterInitialize_out ho hg) hg⟩
  · rw [hauth]; exact h.conf
  · rw [hsm, hauth, hvalid]; exact h.entry
  · rw [hsm]; exact fun hs => by rw [hstarted] at hs; cases hs
  · rw [hsm]; exact ⟨h.never.1, h.never.2.1, fun hs => by cases hs⟩
  · rw [hsm]; exact fun _ => hptk
  · rw [hsm]; exact fun _ => ⟨(fun hs => by cases hs), fun hs => by cases hs⟩
  · rw [hsm]
    rintro (hs | hs | hs | hs | hs)
    · cases hs
    · cases hs
    · cases hs
    · exact h.mgmt (.inr (.inr (.inr (.inl hs))))
    · exact h.mgmt (.inr (.inr (.inr (.inr hs))))
  · rw [hsm]; exact fun hk => by rw [hptk] at hk; cases hk
  · rw [hsm]
    intro hr
    obtain ⟨⟨hinit, -⟩, hstate⟩ := h.received hr
    rcases hfrom with hi | hs
    · rw [hinit] at hi
      cases hi
    · rw [hs] at hstate
      rcases hstate with ⟨hs | ⟨hs, -⟩, -⟩ | ⟨hs, -⟩ <;> cases hs

/-- No frame of a handshake is waiting in another state. -/
theorem Inv.not_received (h : Inv m2 m4 w) (hstart : w.sm.state ≠ .ptkStart)
    (hcalc : w.sm.state ≠ .ptkCalcNegotiating ∨ w.sm.micVerified = true)
    (hneg : w.sm.state ≠ .ptkInitNegotiating) : w.sm.pairwiseReceived = false := by
  apply Bool.eq_false_of_not_eq_true
  intro hr
  rcases (h.received hr).2 with ⟨hs | ⟨hs, hmic⟩, -⟩ | ⟨hs, -⟩
  · exact hstart hs
  · rcases hcalc with hcalc | hcalc
    · exact hcalc hs
    · rw [hmic] at hcalc
      cases hcalc
  · exact hneg hs

/-- A state is entered that neither sends nor grants anything, and no frame is waiting: only the
flags and the nonce of the access point may change. -/
theorem Inv.move (h : Inv m2 m4 w) (hauth : w'.auth = { w.auth with counter := w'.auth.counter })
    (hvalid : w'.valid = w.valid) (hout : w'.out = w.out)
    (hstarted : w.sm.started = true) (hstarted' : w'.sm.started = true)
    (hnever : w'.sm.disconnect = false ∧ w'.sm.reAuthenticationRequest = false ∧
      w'.sm.state ≠ .disconnect)
    (hstate : w'.sm.state ≠ .ptkStart ∧ w'.sm.state ≠ .ptkCalcNegotiating)
    (hnoKey : Keyless w'.sm → w'.sm.ptkValid = false)
    (hmgmt : w'.sm.state = .initPsk ∨ w'.sm.state = .ptkStart ∨
      w'.sm.state = .ptkCalcNegotiating ∨ w'.sm.ptkRequest = true ∨ w'.sm.ptkValid = true →
      w'.sm.wpaKeyMgmt = Ap.keyMgmtPsk)
    (hkey : w'.sm.ptkValid = true → w.sm.ptkValid = true ∧ w'.sm.ptk = w.sm.ptk ∧
      w'.sm.pairwise = w.sm.pairwise ∧ w'.sm.addr = w.sm.addr ∧ w'.sm.aNonce = w.sm.aNonce)
    (hreceived : w'.sm.pairwiseReceived = false) : Inv m2 m4 w' := by
  refine ⟨?_, ?_, ?_, hnever, hnoKey, fun _ => hstate, hmgmt, ?_, ?_, ?_⟩
  · rw [hauth]; exact h.conf
  · rw [hvalid, hauth]; exact fun _ => h.entry hstarted
  · exact fun hs => by rw [hstarted'] at hs; cases hs
  · intro hk
    obtain ⟨hk, hptk, hpairwise, haddr, hnonce⟩ := hkey hk
    obtain ⟨m, psk, hm, hmade⟩ := h.key hk
    refine ⟨m, psk, hm, ?_⟩
    rw [MadeFrom, hptk, hpairwise, haddr, hnonce, hauth]
    exact hmade
  · exact fun hr => by rw [hreceived] at hr; cases hr
  · rw [hout]; exact h.out

/-- Entering `PTKSTART`: a frame that is waiting stays. -/
theorem Inv.start (h : Inv m2 m4 w) (hstarted : w.sm.started = true)
    (henabled : Enabled w.sm .ptkStart) : Inv m2 m4 (enterPtkStart w) := by
  refine Inv.sends ?_ (enterPtkStart_sends w)
  have hmgmt : w.sm.wpaKeyMgmt = Ap.keyMgmtPsk := by
    rcases henabled with hs | hs | ⟨-, hs | hs⟩
    · exact h.mgmt (.inr (.inr (.inr (.inl hs))))
    · exact h.mgmt (.inl hs)
    · exact h.mgmt (.inr (.inl hs))
    · exact h.mgmt (.inr (.inr (.inl hs.1)))
  have hkey : w.sm.ptkValid = false := h.noKey <| by
    rcases henabled with hs | hs | ⟨-, hs | hs⟩
    · exact .inl (.inr (.inr hs))
    · exact .inr (.inl (by rw [hs]; decide))
    · exact .inr (.inl (by rw [hs]; decide))
    · exact .inr (.inr hs)
  refine ⟨h.conf, h.entry, ?_, ⟨h.never.1, h.never.2.1, fun hs => by cases hs⟩, ?_,
    (fun hs => by cases hs), fun _ => hmgmt, h.key, ?_, h.out⟩
  · exact fun hs => by rw [hstarted] at hs; cases hs
  · exact fun _ => hkey
  · intro hr
    obtain ⟨⟨hinit, hdeauth, hauth, hrequest⟩, hstate⟩ := h.received hr
    refine ⟨⟨hinit, hdeauth, hauth, rfl⟩, .inl ⟨.inl rfl, ?_⟩⟩
    rcases hstate with ⟨-, hframe⟩ | ⟨hneg, -⟩
    · exact hframe
    · rcases henabled with hs | hs | ⟨-, hs | ⟨hs, -⟩⟩
      · rw [hrequest] at hs
        cases hs
      all_goals
        rw [hneg] at hs
        cases hs

/-- Entering `PTKCALCNEGOTIATING`: a key that the message verifies is made from it. -/
theorem Inv.calc (h : Inv m2 m4 w) (hstarted : w.sm.started = true)
    (henabled : Enabled w.sm .ptkCalcNegotiating) : Inv m2 m4 (enterPtkCalcNegotiating w) := by
  obtain ⟨hr, hstate⟩ := henabled
  obtain ⟨⟨hinit, hdeauth, -, hrequest⟩, hframe⟩ := h.received hr
  have hmgmt : w.sm.wpaKeyMgmt = Ap.keyMgmtPsk := by
    rcases hstate with hs | ⟨hs, -⟩
    · exact h.mgmt (.inr (.inl hs))
    · exact h.mgmt (.inr (.inr (.inl hs)))
  obtain ⟨hm2, hnonce⟩ : m2 w.sm.lastRxEapolKey w.auth.psk ∧
      w.sm.sNonce = frameNonce w.sm.lastRxEapolKey := by
    rcases hframe with ⟨-, hframe⟩ | ⟨hneg, -⟩
    · exact hframe
    · rw [hneg] at hstate
      rcases hstate with hs | ⟨hs, -⟩ <;> cases hs
  have hkey : w.sm.ptkValid = false := h.noKey <| by
    rcases hstate with hs | hs
    · exact .inr (.inl (by rw [hs]; decide))
    · exact .inr (.inr hs)
  have hidle : w.sm.started = false → ¬ True := fun hs => by rw [hstarted] at hs; cases hs
  rw [enterPtkCalcNegotiating_eq]
  split
  case isTrue hverified =>
    refine ⟨h.conf, h.entry, fun hs => absurd trivial (hidle hs),
      ⟨h.never.1, h.never.2.1, fun hs => by cases hs⟩, ?_, fun hs => ?_, fun _ => hmgmt,
      fun _ => ?_, (fun hr => by cases hr), fun o ho hg => ?_⟩
    · rintro ((hs | hs | hs) | hs | ⟨-, hs⟩)
      · exact absurd (hs.symm.trans hinit) (by decide)
      · exact absurd (hs.symm.trans hdeauth) (by decide)
      · exact absurd (hs.symm.trans hrequest) (by decide)
      · exact absurd hs (show PtkState.ptkCalcNegotiating ∉ keylessStates by decide)
      · cases hs
    · exact absurd (hs.symm.trans hrequest) (by decide)
    · refine ⟨w.sm.lastRxEapolKey, w.auth.psk, hm2, hverified, ?_⟩
      show derivedPtk w = _
      rw [derivedPtk, if_pos hmgmt, hnonce]
    · rcases List.mem_append.mp ho with ho | ho
      · exact h.out o ho hg
      · rw [List.mem_singleton.mp ho] at hg
        cases hg
  case isFalse =>
    exact ⟨h.conf, h.entry, fun hs => absurd trivial (hidle hs),
      ⟨h.never.1, h.never.2.1, fun hs => by cases hs⟩, fun _ => hkey,
      fun hs => absurd (hs.symm.trans hrequest) (by decide), fun _ => hmgmt, h.key,
      (fun hr => by cases hr), h.out⟩

/-- Entering `PTKINITNEGOTIATING`: message 3 is sent, for the first time or again. -/
theorem Inv.negotiate (h : Inv m2 m4 w) (hstarted : w.sm.started = true)
    (henabled : Enabled w.sm .ptkInitNegotiating) : Inv m2 m4 (enterPtkInitNegotiating w) := by
  refine Inv.sends ?_ (enterPtkInitNegotiating_sends w)
  refine ⟨h.conf, h.entry, ?_, ⟨h.never.1, h.never.2.1, fun hs => by cases hs⟩, ?_,
    fun _ => ⟨(fun hs => by cases hs), fun hs => by cases hs⟩, ?_, h.key, ?_, h.out⟩
  · exact fun hs => by rw [hstarted] at hs; cases hs
  · exact fun hk => h.noKey (.inl (hk.requests .ptkInitNegotiating rfl (by decide)))
  · rintro (hs | hs | hs | hs | hs)
    · cases hs
    · cases hs
    · cases hs
    · exact h.mgmt (.inr (.inr (.inr (.inl hs))))
    · exact h.mgmt (.inr (.inr (.inr (.inr hs))))
  · intro hr
    obtain ⟨hrequest, hstate⟩ := h.received hr
    refine ⟨hrequest, .inr ⟨rfl, ?_⟩⟩
    rcases hstate with ⟨hs, -⟩ | ⟨-, hframe⟩
    · rcases henabled with he | ⟨he, -⟩ <;> rw [he] at hs <;> rcases hs with hs | ⟨hs, -⟩ <;>
        cases hs
    · exact hframe

theorem doneOutputs_key {alg : Alg} {key : List UInt8} (h : .setKey alg key ∈ doneOutputs w) :
    key = w.sm.ptk.tk1.1 := by
  rw [doneOutputs, List.mem_append] at h
  rcases h with h | h
  · split at h
    · exact (Output.setKey.inj (List.mem_singleton.mp h)).2
    · exact absurd h List.not_mem_nil
  · split at h
    · cases List.mem_singleton.mp h
    · exact absurd h List.not_mem_nil

/-- Entering `PTKINITDONE`: the key that is given is the one that verifies message 4. -/
theorem Inv.done (h : Inv m2 m4 w) (hstarted : w.sm.started = true)
    (henabled : Enabled w.sm .ptkInitDone) : Inv m2 m4 (enterPtkInitDone w) := by
  obtain ⟨hs, hr, -⟩ := henabled
  obtain ⟨-, hstate⟩ := h.received hr
  have hm4 : m4 w.sm.lastRxEapolKey w.sm.ptk := by
    rcases hstate with ⟨hs' | ⟨hs', -⟩, -⟩ | ⟨-, -, hm4⟩
    · rw [hs] at hs'
      cases hs'
    · rw [hs] at hs'
      cases hs'
    · exact hm4
  rw [enterPtkInitDone_eq]
  refine ⟨h.conf, h.entry, ?_, ⟨h.never.1, h.never.2.1, fun hs => by cases hs⟩, ?_,
    fun _ => ⟨(fun hs => by cases hs), fun hs => by cases hs⟩, ?_, h.key,
    (fun hr => by cases hr), fun o ho hg => ?_⟩
  · exact fun hs => by rw [hstarted] at hs; cases hs
  · exact fun hk => h.noKey (.inl (hk.requests .ptkInitDone rfl (by decide)))
  · rintro (hs | hs | hs | hs | hs)
    · cases hs
    · cases hs
    · cases hs
    · exact h.mgmt (.inr (.inr (.inr (.inl hs))))
    · exact h.mgmt (.inr (.inr (.inr (.inr hs))))
  · rcases List.mem_append.mp ho with ho | ho
    · exact h.out o ho hg
    · exact ⟨_, _, hm4, fun alg key heq => doneOutputs_key (heq ▸ ho)⟩

/-- Entering a state keeps the invariant. -/
theorem Inv.enter {next : PtkState} (h : Inv m2 m4 w) (hstarted : w.sm.started = true)
    (hnext : nextState w.sm = some next) : Inv m2 m4 (smEnter next w) := by
  by_cases hinit : w.sm.init = true
  · rw [nextState, if_pos hinit] at hnext
    cases hnext
    exact h.initialize hstarted (.inl hinit)
  have henabled := enabled_of_nextState (Bool.eq_false_of_not_eq_true hinit) hnext
  have hmgmt : w.sm.ptkRequest = true ∨ w.sm.ptkValid = true →
      w.sm.wpaKeyMgmt = Ap.keyMgmtPsk := fun hs => h.mgmt (.inr (.inr (.inr hs)))
  cases next
  case ptkInitialize => exact h.initialize hstarted (.inr henabled)
  case disconnect =>
    refine .of_fresh ?_ ?_ fun o ho hg => h.out o ?_ hg
    · rw [smEnter, enterDisconnect, wpaStaDisconnect_auth]
      exact h.conf
    · rw [smEnter, enterDisconnect_sm, if_pos (h.entry hstarted).1]
      rfl
    · rw [smEnter, enterDisconnect] at ho
      have hout := wpaStaDisconnect_out ho hg
      exact hout
  case disconnected =>
    have hfrom : w.sm.deauthenticationRequest = true := henabled.resolve_right h.never.2.2
    refine h.move rfl rfl rfl hstarted hstarted ⟨h.never.1, h.never.2.1, fun hs => by cases hs⟩
      ⟨(fun hs => by cases hs), fun hs => by cases hs⟩
      (fun _ => h.noKey (.inl (.inr (.inl hfrom)))) ?_ (fun hk => ⟨hk, rfl, rfl, rfl, rfl⟩) ?_
    · rintro (hs | hs | hs | hs)
      · cases hs
      · cases hs
      · cases hs
      · exact hmgmt hs
    · apply Bool.eq_false_of_not_eq_true
      intro hr
      have hdeauth := (h.received hr).1.2.1
      rw [hfrom] at hdeauth
      cases hdeauth
  case authentication =>
    have hfrom : w.sm.authenticationRequest = true := henabled
    refine h.move rfl rfl rfl hstarted hstarted ⟨h.never.1, h.never.2.1, fun hs => by cases hs⟩
      ⟨(fun hs => by cases hs), fun hs => by cases hs⟩
      (fun _ => rfl) ?_ (fun hk => by cases hk) ?_
    · rintro (hs | hs | hs | hs | hs)
      · cases hs
      · cases hs
      · cases hs
      · exact hmgmt (.inl hs)
      · cases hs
    · apply Bool.eq_false_of_not_eq_true
      intro hr
      have hauth := (h.received hr).1.2.2.1
      rw [hfrom] at hauth
      cases hauth
  case authentication2 =>
    have hfrom : w.sm.state = .authentication := henabled.resolve_left fun hs => by
      rw [h.never.2.1] at hs
      cases hs
    have hptk : w.sm.ptkValid = false := h.noKey (.inr (.inl (by rw [hfrom]; decide)))
    refine h.move rfl rfl rfl hstarted hstarted ⟨h.never.1, rfl, fun hs => by cases hs⟩
      ⟨(fun hs => by cases hs), fun hs => by cases hs⟩
      (fun _ => hptk) ?_ (fun hk => absurd (hk.symm.trans hptk) (by decide)) ?_
    · rintro (hs | hs | hs | hs)
      · cases hs
      · cases hs
      · cases hs
      · exact hmgmt hs
    · refine h.not_received ?_ (.inl ?_) ?_ <;> rw [hfrom] <;> exact fun hs => by cases hs
  case initPmk =>
    have hfrom : w.sm.state = .authentication2 := henabled
    refine h.move rfl rfl rfl hstarted hstarted ⟨h.never.1, h.never.2.1, fun hs => by cases hs⟩
      ⟨(fun hs => by cases hs), fun hs => by cases hs⟩
      ?_ ?_ (fun hk => ⟨hk, rfl, rfl, rfl, rfl⟩) ?_
    · exact fun hk => h.noKey (.inl (hk.requests .initPmk rfl (by decide)))
    · rintro (hs | hs | hs | hs)
      · cases hs
      · cases hs
      · cases hs
      · exact hmgmt hs
    · refine h.not_received ?_ (.inl ?_) ?_ <;> rw [hfrom] <;> exact fun hs => by cases hs
  case initPsk =>
    obtain ⟨hfrom, hpsk⟩ := henabled
    refine h.move rfl rfl rfl hstarted hstarted ⟨h.never.1, h.never.2.1, fun hs => by cases hs⟩
      ⟨(fun hs => by cases hs), fun hs => by cases hs⟩
      ?_ (fun _ => hpsk) (fun hk => ⟨hk, rfl, rfl, rfl, rfl⟩) ?_
    · exact fun _ => h.noKey (.inr (.inl (by rw [hfrom]; decide)))
    · refine h.not_received ?_ (.inl ?_) ?_ <;> rw [hfrom] <;> exact fun hs => by cases hs
  case ptkStart => exact h.start hstarted henabled
  case ptkCalcNegotiating => exact h.calc hstarted henabled
  case ptkCalcNegotiating2 =>
    obtain ⟨hfrom, hmic⟩ := henabled
    refine h.move rfl rfl rfl hstarted hstarted ⟨h.never.1, h.never.2.1, fun hs => by cases hs⟩
      ⟨(fun hs => by cases hs), fun hs => by cases hs⟩
      ?_ ?_ (fun hk => ⟨hk, rfl, rfl, rfl, rfl⟩) ?_
    · exact fun hk => h.noKey (.inl (hk.requests .ptkCalcNegotiating2 rfl (by decide)))
    · rintro (hs | hs | hs | hs)
      · cases hs
      · cases hs
      · cases hs
      · exact hmgmt hs
    · refine h.not_received ?_ (.inr hmic) ?_ <;> rw [hfrom] <;> exact fun hs => by cases hs
  case ptkInitNegotiating => exact h.negotiate hstarted henabled
  case ptkInitDone => exact h.done hstarted henabled

theorem Inv.loop (h : Inv m2 m4 w) : Inv m2 m4 (wpaSmStep w) :=
  wpaSmStep_induction Inv.ignoresLoop (fun _ _ h hs hn => h.enter hs hn) h

/-! ## Between events -/

/-- The state machine between two events: the loop is left, and nothing waits for it. -/
structure Rests (w : World) : Prop where
  loop : w.sm.inStepLoop = false
  request : w.sm.init = false ∧ w.sm.deauthenticationRequest = false ∧
    w.sm.authenticationRequest = false
  received : w.sm.pairwiseReceived = false
  unverified : w.sm.state = .ptkCalcNegotiating → w.sm.micVerified = false
  pending : w.assocRsp = true → w.sm.started = false ∧ w.valid = true
  reassoc : w.reassoc = false

theorem localState_eq_none {sm : Sm} (h : localState sm = none) :
    (sm.pairwiseReceived = true → sm.state = .ptkInitNegotiating → sm.micVerified = false) ∧
    (sm.pairwiseReceived = true → sm.state ≠ .ptkStart ∧ sm.state ≠ .ptkCalcNegotiating) ∧
    (sm.state = .ptkCalcNegotiating → sm.micVerified = false) := by
  rw [localState] at h
  refine ⟨fun hr hs => ?_, fun hr => ⟨fun hs => ?_, fun hs => ?_⟩, fun hs => ?_⟩ <;>
    rw [hs] at h <;> dsimp only at h
  · split_ifs at h with h1
    rw [hr, Bool.true_and] at h1
    exact Bool.eq_false_of_not_eq_true h1
  · rw [if_pos hr] at h
    cases h
  · rw [if_pos hr] at h
    split_ifs at h
  · split_ifs at h with h1
    exact Bool.eq_false_of_not_eq_true h1

/-- Where the loop is left nothing waits. -/
theorem Inv.rest (h : Inv m2 m4 w) (hrest : AtRest w.sm) (hinit : w.sm.init = false) :
    (w.sm.init = false ∧ w.sm.deauthenticationRequest = false ∧
      w.sm.authenticationRequest = false) ∧ w.sm.pairwiseReceived = false ∧
      (w.sm.state = .ptkCalcNegotiating → w.sm.micVerified = false) := by
  rcases hrest with hs | hs | hs
  · obtain ⟨hstate, -, hrequest⟩ := h.idle hs
    refine ⟨⟨hrequest.1, hrequest.2.1, hrequest.2.2.1⟩, h.not_received ?_ (.inl ?_) ?_, ?_⟩ <;>
      rw [hstate] <;>
      exact fun hs => by cases hs
  · rw [hinit] at hs
    cases hs
  · rw [nextState, hinit, if_neg Bool.false_ne_true] at hs
    split_ifs at hs with h1 h2 h3 h4 h5
    obtain ⟨hneg, hwait, hcalc⟩ := localState_eq_none hs
    refine ⟨⟨hinit, Bool.eq_false_of_not_eq_true h2, Bool.eq_false_of_not_eq_true h3⟩,
      Bool.eq_false_of_not_eq_true fun hr => ?_, hcalc⟩
    rcases (h.received hr).2 with ⟨hs' | ⟨hs', -⟩, -⟩ | ⟨hs', hmic, -⟩
    · exact (hwait hr).1 hs'
    · exact (hwait hr).2 hs'
    · rw [hneg hr hs'] at hmic
      cases hmic

theorem wpaSmStep_frame (w : World) (hinit : w.sm.init = false) :
    (wpaSmStep w).sm.init = false ∧ ((wpaSmStep w).assocRsp = true → w.assocRsp = true) ∧
      ((wpaSmStep w).reassoc = true → w.reassoc = true) := by
  refine wpaSmStep_induction (I := fun v => v.sm.init = false ∧ (v.assocRsp = true →
    w.assocRsp = true) ∧ (v.reassoc = true → w.reassoc = true)) (fun _ _ _ _ h => h)
    (fun v next h _ _ => ?_) ⟨hinit, id, id⟩
  rcases smEnter_frame next v with ⟨h1, h2, h3⟩ | ⟨h1, h2, h3⟩ <;> rw [h1, h2, h3]
  · exact h
  · exact ⟨rfl, (fun h => by cases h), fun h => by cases h⟩

theorem wpaSmStep_inStepLoop {w : World} (hloop : w.sm.inStepLoop = false) :
    (wpaSmStep w).sm.inStepLoop = false := by
  cases hstarted : w.sm.started with
  | false => rwa [wpaSmStep, if_pos (by rw [hstarted]; rfl)]
  | true =>
    obtain ⟨w', -, heq⟩ := wpaSmStep_eq hstarted hloop
    rw [heq]

/-- After the loop the state machine rests, whether or not its association is still pending. -/
theorem Inv.rests_loop_of (h : Inv m2 m4 w) (hloop : w.sm.inStepLoop = false)
    (hinit : w.sm.init = false) (hreassoc : w.reassoc = false) :
    Rests { wpaSmStep w with assocRsp := false, addStaFlag := false } := by
  obtain ⟨hinit', -, hreassoc'⟩ := wpaSmStep_frame w hinit
  obtain ⟨hrequest, hreceived, hcalc⟩ := h.loop.rest (atRest_wpaSmStep hloop) hinit'
  refine ⟨wpaSmStep_inStepLoop hloop, hrequest, hreceived, hcalc, (fun ha => by cases ha),
    Bool.eq_false_of_not_eq_true fun hr => ?_⟩
  rw [hreassoc' hr] at hreassoc
  cases hreassoc

theorem Inv.rests_loop (h : Inv m2 m4 w) (hloop : w.sm.inStepLoop = false)
    (hinit : w.sm.init = false) (hpending : w.assocRsp = false) (hreassoc : w.reassoc = false) :
    Rests (wpaSmStep w) := by
  have hrests := h.rests_loop_of hloop hinit hreassoc
  refine ⟨hrests.loop, hrests.request, hrests.received, hrests.unverified, fun ha => ?_,
    hrests.reassoc⟩
  rw [(wpaSmStep_frame w hinit).2.1 ha] at hpending
  cases hpending

/-- A state machine before its handshake rests. -/
theorem Rests.of_fresh (hsm : Fresh w.sm) (hvalid : w.assocRsp = true → w.valid = true)
    (hreassoc : w.reassoc = false) : Rests w := by
  rw [Fresh] at hsm
  refine ⟨?_, ?_, ?_, ?_, fun ha => ⟨?_, hvalid ha⟩, hreassoc⟩ <;> rw [hsm]
  · rfl
  · exact ⟨rfl, rfl, rfl⟩
  · rfl
  · exact fun _ => rfl
  · rfl

/-! ## Events -/

/-- The messages 4 of an event: the frame that is received, if it is verified with the key of the
station. -/
def Fourth (w : World) (i : Input) (m : List UInt8) (ptk : Ptk) : Prop :=
  i = .receive m ∧ frameMsg m = .pairwise4 ∧ w.sm.state = .ptkInitNegotiating ∧
    w.sm.ptkValid = true ∧ ptk = w.sm.ptk ∧ wpaVerifyKeyMic ptk m = true

theorem Inv.mono {n2 : List UInt8 → Octets 32 → Prop} {n4 : List UInt8 → Ptk → Prop}
    (h : Inv m2 m4 w) (h2 : ∀ m psk, m2 m psk → n2 m psk) (h4 : ∀ m ptk, m4 m ptk → n4 m ptk) :
    Inv n2 n4 w := by
  refine ⟨h.conf, h.entry, h.idle, h.never, h.noKey, h.asked, h.mgmt, fun hk => ?_, fun hr => ?_,
    fun o ho hg => ?_⟩
  · obtain ⟨m, psk, hm, hmade⟩ := h.key hk
    exact ⟨m, psk, h2 m psk hm, hmade⟩
  · obtain ⟨hrequest, ⟨hs, hm, hnonce⟩ | ⟨hs, hmic, hm⟩⟩ := h.received hr
    · exact ⟨hrequest, .inl ⟨hs, h2 _ _ hm, hnonce⟩⟩
    · exact ⟨hrequest, .inr ⟨hs, hmic, h4 _ _ hm⟩⟩
  · obtain ⟨m, ptk, hm, hkey⟩ := h.out o ho hg
    exact ⟨m, ptk, h4 m ptk hm, hkey⟩

/-- Something is done that grants nothing. -/
theorem Inv.emit (h : Inv m2 m4 w) {o : Output} (ho : ¬ Grants o) : Inv m2 m4 (w.emit o) := by
  refine ⟨h.conf, h.entry, h.idle, h.never, h.noKey, h.asked, h.mgmt, h.key, h.received,
    fun o' ho' hg => ?_⟩
  rcases List.mem_append.mp ho' with ho' | ho'
  · exact h.out o' ho' hg
  · rw [List.mem_singleton.mp ho'] at hg
    exact absurd hg ho

theorem Rests.of_same (h : Rests w) (hsm : w'.sm = w.sm) (hvalid : w'.valid = w.valid)
    (hassoc : w'.assocRsp = w.assocRsp) (hreassoc : w'.reassoc = w.reassoc) : Rests w' := by
  refine ⟨?_, ?_, ?_, ?_, ?_, ?_⟩
  · rw [hsm]; exact h.loop
  · rw [hsm]; exact h.request
  · rw [hsm]; exact h.received
  · rw [hsm]; exact h.unverified
  · rw [hassoc, hsm, hvalid]; exact h.pending
  · rw [hreassoc]; exact h.reassoc

/-- A frame that is neither for a group nor a request is message 2 or 4. -/
theorem frameMsg_pairwise {data : List UInt8} (hsmk : frameMsg data ≠ .smk)
    (hrequest : (frameKeyInfo data).testBit KeyInfo.request = false)
    (htype : (frameKeyInfo data).testBit KeyInfo.keyType = true) :
    frameMsg data = .pairwise2 ∨ frameMsg data = .pairwise4 := by
  rw [frameMsg] at hsmk ⊢
  simp only [hrequest, htype, Bool.not_true, Bool.false_eq_true, if_false] at hsmk ⊢
  split_ifs at hsmk ⊢
  · exact absurd rfl hsmk
  · exact .inr rfl
  · exact .inl rfl

/-- Fields that the invariant reads only with a frame that is waiting. -/
theorem Inv.noted (h : Inv m2 m4 w) (hrests : Rests w) (mic used : Bool)
    (replay : Replay × Replay × Replay × Replay) (counter : Octets 8) :
    Inv m2 m4 { w with sm := { w.sm with
      micVerified := mic, keyReplay := replay, reqReplayCounterUsed := used
      reqReplayCounter := counter } } := by
  refine ⟨h.conf, h.entry, h.idle, h.never, ?_, h.asked, h.mgmt, h.key, fun hr => ?_, h.out⟩
  · rintro (hs | hs | ⟨hs, -⟩)
    · exact h.noKey (.inl hs)
    · exact h.noKey (.inr (.inl hs))
    · exact h.noKey (.inr (.inr ⟨hs, hrests.unverified hs⟩))
  · exact absurd (hr.symm.trans hrests.received) (by decide)

theorem Rests.noted (hrests : Rests w) (h : Inv m2 m4 w) (mic : Bool)
    (hmic : mic = true → w.sm.ptkValid = true) (used : Bool)
    (replay : Replay × Replay × Replay × Replay) (counter : Octets 8) :
    Rests { w with sm := { w.sm with
      micVerified := mic, keyReplay := replay, reqReplayCounterUsed := used
      reqReplayCounter := counter } } := by
  refine ⟨hrests.loop, hrests.request, hrests.received, fun hs => ?_, hrests.pending,
    hrests.reassoc⟩
  apply Bool.eq_false_of_not_eq_true
  intro hm
  have hkey := h.noKey (.inr (.inr ⟨hs, hrests.unverified hs⟩))
  rw [hmic hm] at hkey
  cases hkey

/-- A station that has a key asks for another. -/
theorem Inv.asks (h : Inv m2 m4 w) (hrests : Rests w) (hstarted : w.sm.started = true)
    (hkey : w.sm.ptkValid = true) :
    Inv m2 m4 { w with sm := { w.sm with ptkRequest := true, ptkValid := false } } := by
  have hkeyless : ¬ Keyless w.sm := fun hk => by
    rw [h.noKey hk] at hkey
    cases hkey
  refine ⟨h.conf, h.entry, ?_, h.never, fun _ => rfl, fun _ => ⟨fun hs => ?_, fun hs => ?_⟩,
    fun _ => ?_, (fun hk => by cases hk), fun hr => ?_, h.out⟩
  · exact fun hs => absurd (hs.symm.trans hstarted) (by decide)
  · exact hkeyless (.inr (.inl (by rw [show w.sm.state = .ptkStart from hs]; decide)))
  · exact hkeyless (.inr (.inr ⟨hs, hrests.unverified hs⟩))
  · exact h.mgmt (.inr (.inr (.inr (.inr hkey))))
  · exact absurd (hr.symm.trans hrests.received) (by decide)

/-- What a frame that is kept must be for the invariant. -/
def Fits (m2 : List UInt8 → Octets 32 → Prop) (m4 : List UInt8 → Ptk → Prop) (w : World)
    (data : List UInt8) : Prop :=
  (takeFrame w.sm data).pairwiseReceived = true → NoRequest w.sm ∧
    ((w.sm.state = .ptkStart ∨ w.sm.state = .ptkCalcNegotiating ∧ w.sm.micVerified = false) ∧
        m2 data w.auth.psk ∨
      w.sm.state = .ptkInitNegotiating ∧ w.sm.micVerified = true ∧ m4 data w.sm.ptk)

/-- `acceptFrame` keeps the invariant, and the loop is left again. -/
theorem Inv.accept (h : Inv m2 m4 w) (hrests : Rests w) (hpending : w.assocRsp = false)
    {data : List UInt8} (hfits : Fits m2 m4 w data) :
    Inv m2 m4 (acceptFrame w data) ∧ Rests (acceptFrame w data) := by
  have hmalloc := h.sends (.malloc w)
  rw [acceptFrame]
  split
  · constructor
    · refine Inv.emit ?_ fun hg => by cases hg
      exact ⟨hmalloc.conf, hmalloc.entry, hmalloc.idle, hmalloc.never, hmalloc.noKey,
        hmalloc.asked, hmalloc.mgmt, hmalloc.key,
        fun hr => absurd (hr.symm.trans hrests.received) (by decide), hmalloc.out⟩
    · exact ⟨hrests.loop, hrests.request, hrests.received, hrests.unverified, hrests.pending,
        hrests.reassoc⟩
  · have htaken : Inv m2 m4 (w.malloc.2.mapSm fun sm => takeFrame sm data) := by
      refine ⟨hmalloc.conf, hmalloc.entry, hmalloc.idle, hmalloc.never, hmalloc.noKey,
        hmalloc.asked, hmalloc.mgmt, hmalloc.key, fun hr => ?_, hmalloc.out⟩
      obtain ⟨hrequest, ⟨hs, hm⟩ | hs⟩ := hfits hr
      · exact ⟨hrequest, .inl ⟨hs, hm, rfl⟩⟩
      · exact ⟨hrequest, .inr hs⟩
    exact ⟨htaken.loop, htaken.rests_loop hrests.loop hrests.request.1 hpending hrests.reassoc⟩

/-- A frame whose kind has been looked at (`frameVerdict`). -/
structure Seen (m2 : List UInt8 → Octets 32 → Prop) (m4 : List UInt8 → Ptk → Prop) (w : World)
    (data : List UInt8) : Prop where
  started : w.sm.started = true
  pending : w.assocRsp = false
  notSmk : frameMsg data ≠ .smk
  second : frameMsg data = .pairwise2 →
    (w.sm.state = .ptkStart ∨ w.sm.state = .ptkCalcNegotiating) ∧ m2 data w.auth.psk
  fourth : frameMsg data = .pairwise4 → w.sm.state = .ptkInitNegotiating ∧ w.sm.ptkValid = true ∧
    (wpaVerifyKeyMic w.sm.ptk data = true → m4 data w.sm.ptk)

theorem Seen.fits (hseen : Seen m2 m4 w data) (h : Inv m2 m4 w) (hrests : Rests w)
    (hverify : w.sm.ptkValid = true → wpaVerifyKeyMic w.sm.ptk data = true)
    (hrequest : (frameKeyInfo data).testBit KeyInfo.request = false)
    (replay : Replay × Replay × Replay × Replay) :
    Fits m2 m4 { w with sm := { w.sm with
      micVerified := w.sm.ptkValid, keyReplay := replay } } data := by
  intro hr
  have htype : (frameKeyInfo data).testBit KeyInfo.keyType = true := by
    have hbits := (Bool.and_eq_true _ _).mp hr
    exact hbits.2
  obtain ⟨hinit, hdeauth, hauth⟩ := hrests.request
  rcases frameMsg_pairwise hseen.notSmk hrequest htype with hmsg | hmsg
  · obtain ⟨hs, hm⟩ := hseen.second hmsg
    have hkey : w.sm.ptkValid = false := h.noKey <| by
      rcases hs with hs | hs
      · exact .inr (.inl (by rw [hs]; decide))
      · exact .inr (.inr ⟨hs, hrests.unverified hs⟩)
    refine ⟨⟨hinit, hdeauth, hauth, Bool.eq_false_of_not_eq_true fun hask => ?_⟩,
      .inl ⟨hs.imp_right fun hs => ⟨hs, hkey⟩, hm⟩⟩
    exact hs.elim (h.asked hask).1 (h.asked hask).2
  · obtain ⟨hs, hkey, hm⟩ := hseen.fourth hmsg
    refine ⟨⟨hinit, hdeauth, hauth, Bool.eq_false_of_not_eq_true fun hask => ?_⟩,
      .inr ⟨hs, hkey, hm (hverify hkey)⟩⟩
    rw [h.noKey (.inl (.inr (.inr hask)))] at hkey
    cases hkey

/-- A request is no message of a handshake. -/
theorem fits_of_request (hrequest : (frameKeyInfo data).testBit KeyInfo.request = true) :
    Fits m2 m4 w data := fun hr => by
  simp only [Sm.pairwiseReceived, takeFrame, hrequest, Bool.not_true, Bool.and_false,
    Bool.false_and, Bool.false_eq_true] at hr

/-- The rest of `wpa_receive`. -/
theorem Inv.check (h : Inv m2 m4 w) (hrests : Rests w) (hseen : Seen m2 m4 w data) :
    Inv m2 m4 (checkFrame w data) ∧ Rests (checkFrame w data) := by
  have hverified : Inv m2 m4 (verified w) := by
    refine ⟨h.conf, h.entry, h.idle, h.never,
      (h.noted hrests w.sm.ptkValid w.sm.reqReplayCounterUsed w.sm.keyReplay
        w.sm.reqReplayCounter).noKey, h.asked, h.mgmt, h.key,
      fun hr => absurd (hr.symm.trans hrests.received) (by decide), fun o ho hg => ?_⟩
    rcases List.mem_append.mp ho with ho | ho
    · exact h.out o ho hg
    · split at ho
      · rw [List.mem_singleton.mp ho] at hg
        cases hg
      · exact absurd ho List.not_mem_nil
  have hvrests : Rests (verified w) :=
    (hrests.noted h w.sm.ptkValid id w.sm.reqReplayCounterUsed w.sm.keyReplay
      w.sm.reqReplayCounter).of_same rfl rfl rfl rfl
  rcases checkFrame_cases w data with heq | heq | ⟨hverify, hcases⟩
  · rw [heq]
    exact ⟨h, hrests⟩
  · rw [heq]
    exact ⟨h.noted hrests false _ _ _, hrests.noted h false (fun hm => by cases hm) _ _ _⟩
  rcases hcases with ⟨hrequest, ⟨hkey, heq⟩ | ⟨-, heq⟩⟩ | ⟨hrequest, heq⟩
  · have hnoted := hverified.noted hvrests w.sm.ptkValid true w.sm.keyReplay
      (frameReplayCounter data)
    have hnrests := hvrests.noted hverified w.sm.ptkValid id true w.sm.keyReplay
      (frameReplayCounter data)
    rw [heq]
    rcases processRequest_cases (verified w).sm data hseen.started with hprocess | hprocess <;>
      rw [World.mapSm, hprocess]
    · exact hnoted.accept hnrests hseen.pending (fits_of_request hrequest)
    · refine (hnoted.asks hnrests hseen.started hkey).accept ?_ hseen.pending
        (fits_of_request hrequest)
      exact ⟨hnrests.loop, hnrests.request, hnrests.received, hnrests.unverified,
        hnrests.pending, hnrests.reassoc⟩
  · rw [heq]
    exact ⟨hverified.emit fun hg => (by cases hg), hvrests.of_same rfl rfl rfl rfl⟩
  · rw [heq]
    refine (hverified.noted hvrests w.sm.ptkValid w.sm.reqReplayCounterUsed _
      w.sm.reqReplayCounter).accept ?_ hseen.pending (hseen.fits h hrests hverify hrequest _)
    exact hvrests.noted hverified w.sm.ptkValid id _ _ _

theorem Rests.not_pending (hrests : Rests w) (hstarted : w.sm.started = true) :
    w.assocRsp = false := by
  apply Bool.eq_false_of_not_eq_true
  intro ha
  rw [(hrests.pending ha).1] at hstarted
  cases hstarted

theorem Rests.free (hrests : Rests w) : Rests (apStaInfoFree w) := by
  by_cases hvalid : w.valid = true
  · rw [apStaInfoFree, if_pos hvalid]
    exact .of_fresh rfl (fun ha => by cases ha) rfl
  · rwa [apStaInfoFree, if_neg hvalid]

theorem Rests.disconnect (hvalid : w.valid = true) : Rests (wpaStaDisconnect w) := by
  have hsm : (wpaStaDisconnect w).sm = .zero := by rw [wpaStaDisconnect_sm, if_pos hvalid]
  obtain ⟨hassoc, hreassoc⟩ := wpaStaDisconnect_entry hvalid
  refine .of_fresh ?_ (fun ha => ?_) hreassoc
  · rw [hsm]
    rfl
  · rw [hassoc] at ha
    cases ha

/-- A frame comes; message 2 is one that counts, and so is message 4 if the key of the station
verifies it. -/
theorem Inv.receive (h : Inv m2 m4 w) (hrests : Rests w)
    (hm2 : frameMsg data = .pairwise2 → m2 data w.auth.psk)
    (hm4 : frameMsg data = .pairwise4 → w.sm.state = .ptkInitNegotiating →
      w.sm.ptkValid = true → wpaVerifyKeyMic w.sm.ptk data = true → m4 data w.sm.ptk) :
    Inv m2 m4 (wpaReceive w data) ∧ Rests (wpaReceive w data) := by
  have hemit : Inv m2 m4 (w.emit .cancelTimer) := h.emit fun hg => by cases hg
  have hmalloc : Inv m2 m4 (w.emit .cancelTimer).malloc.2 := hemit.sends (.malloc _)
  rcases wpaReceive_cases w data with heq | heq | ⟨hstarted, -, -, ⟨-, heq⟩ | ⟨hgo, heq⟩⟩ <;>
    rw [heq]
  · exact ⟨h, hrests⟩
  · exact ⟨hemit, hrests.of_same rfl rfl rfl rfl⟩
  · exact ⟨hmalloc.disconnect (h.entry hstarted).1, .disconnect (h.entry hstarted).1⟩
  · obtain ⟨hsmk, hsecond, hfourth⟩ := frameVerdict_go hgo
    refine hmalloc.check (hrests.of_same rfl rfl rfl rfl) ⟨hstarted, hrests.not_pending hstarted,
      hsmk, fun hm => ⟨hsecond hm, hm2 hm⟩, fun hm => ?_⟩
    obtain ⟨hs, hkey⟩ := hfourth hm
    exact ⟨hs, hkey, hm4 hm hs hkey⟩

/-- The timer of a handshake runs out. -/
theorem Inv.timeout (h : Inv m2 m4 w) (hrests : Rests w) :
    Inv m2 m4 (wpaSendEapolTimeout w) ∧ Rests (wpaSendEapolTimeout w) := by
  cases hstarted : w.sm.started with
  | false =>
    rw [wpaSendEapolTimeout, if_pos (by rw [hstarted]; rfl)]
    exact ⟨h, hrests⟩
  | true =>
    have hinv : Inv m2 m4 (w.mapSm fun sm => { sm with timeoutEvt := true }) :=
      ⟨h.conf, h.entry, h.idle, h.never, h.noKey, h.asked, h.mgmt, h.key, h.received, h.out⟩
    rw [wpaSendEapolTimeout, if_neg (by rw [hstarted]; exact Bool.false_ne_true)]
    exact ⟨hinv.loop, hinv.rests_loop hrests.loop hrests.request.1 (hrests.not_pending hstarted)
      hrests.reassoc⟩

/-- The handshake of a station begins. -/
theorem Inv.associated (h : Inv m2 m4 w) (hrests : Rests w) (hassoc : w.assocRsp = true)
    (hconf : w.auth.confWpa ≠ 0) :
    Inv m2 m4 (wpaAuthStaAssociated w) ∧
      Rests { wpaAuthStaAssociated w with assocRsp := false, addStaFlag := false } := by
  obtain ⟨hnot, hvalid⟩ := hrests.pending hassoc
  obtain ⟨hstate, hkey, hrequest⟩ := h.idle hnot
  have heq := wpaSmStep_init (w := w.mapSm fun sm =>
    { sm with started := true, init := true }) rfl hrests.loop rfl
  have hbegin : Inv m2 m4 ((wpaSmStep (w.mapSm fun sm =>
      { sm with started := true, init := true })).mapSm fun sm =>
      { sm with init := false, authenticationRequest := true }) := by
    rw [heq]
    refine ⟨h.conf, fun _ => ⟨hvalid, hconf⟩, (fun hs => by cases hs), ?_, fun _ => hkey,
      fun hs => absurd (hs.symm.trans hrequest.2.2.2) (by decide), ?_,
      fun hk => absurd (hk.symm.trans hkey) (by decide),
      fun hr => absurd (hr.symm.trans hrests.received) (by decide), fun o ho hg => ?_⟩
    · exact ⟨h.never.1, h.never.2.1, fun hs => by cases hs⟩
    · rintro (hs | hs | hs | hs | hs)
      · cases hs
      · cases hs
      · cases hs
      · exact absurd (hs.symm.trans hrequest.2.2.2) (by decide)
      · exact absurd (hs.symm.trans hkey) (by decide)
    · rcases List.mem_append.mp ho with ho | ho
      · exact h.out o ho hg
      · rw [mem_removeOutputs ho] at hg
        exact absurd rfl hg
  have hassociated : wpaAuthStaAssociated w = wpaSmStep ((wpaSmStep (w.mapSm fun sm =>
      { sm with started := true, init := true })).mapSm fun sm =>
      { sm with init := false, authenticationRequest := true }) := by
    rw [wpaAuthStaAssociated, if_neg hconf, if_neg (by rw [hnot]; exact Bool.false_ne_true)]
  rw [hassociated]
  refine ⟨hbegin.loop, hbegin.rests_loop_of ?_ rfl ?_⟩ <;> rw [heq]
  · exact hrests.loop
  · exact hrests.reassoc

/-- The firmware has added the station: the handshake begins if its association was answered. -/
theorem Inv.added (h : Inv m2 m4 w) (hrests : Rests w) :
    Inv m2 m4 (start4wayHandshake w) ∧ Rests (start4wayHandshake w) := by
  have hflag : Inv m2 m4 { w with addStaFlag := true } :=
    ⟨h.conf, h.entry, h.idle, h.never, h.noKey, h.asked, h.mgmt, h.key, h.received, h.out⟩
  have hflagRests : Rests { w with addStaFlag := true } := hrests.of_same rfl rfl rfl rfl
  rw [start4wayHandshake]
  split
  case isFalse => exact ⟨hflag, hflagRests⟩
  case isTrue hconf =>
    rw [process4WaysStart]
    split
    case isFalse => exact ⟨hflag, hflagRests⟩
    case isTrue hflags =>
      have hconf' : w.auth.confWpa ≠ 0 := by
        have hconf' : w.auth.confWpa = 2 := hconf
        omega
      obtain ⟨hinv, hfinal⟩ :=
        hflag.associated hflagRests ((Bool.and_eq_true _ _).mp hflags).1 hconf'
      rw [if_neg (show ¬ w.reassoc = true by rw [hrests.reassoc]; exact Bool.false_ne_true)]
      refine ⟨⟨hinv.conf, hinv.entry, hinv.idle, hinv.never, hinv.noKey, hinv.asked, hinv.mgmt,
        hinv.key, hinv.received, hinv.out⟩, ?_⟩
      exact hfinal.of_same rfl rfl rfl hfinal.reassoc.symm

/-- A station without a key loses what is left of it. -/
theorem Inv.remove (h : Inv m2 m4 w) (hkey : w.sm.ptkValid = false)
    (hreceived : w.sm.pairwiseReceived = false) : Inv m2 m4 (wpaRemovePtk w) := by
  rw [wpaRemovePtk_eq]
  refine ⟨h.conf, h.entry, h.idle, h.never, h.noKey, h.asked, h.mgmt,
    fun hk => absurd (hk.symm.trans hkey) (by decide),
    fun hr => absurd (hr.symm.trans hreceived) (by decide), fun o ho hg => ?_⟩
  rcases List.mem_append.mp ho with ho | ho
  · exact h.out o ho hg
  · rw [mem_removeOutputs ho] at hg
    exact absurd rfl hg

/-- The station leaves. -/
theorem Inv.deauth (h : Inv m2 m4 w) (hrests : Rests w) :
    Inv m2 m4 (rxDeauth w) ∧ Rests (rxDeauth w) := by
  by_cases hvalid : (!w.valid) = true
  · rw [rxDeauth, if_pos hvalid]
    exact ⟨h, hrests⟩
  have hemit : Inv m2 m4 (w.emit (.setAuthorized false)) := h.emit fun hg => by cases hg
  have hevent : Inv m2 m4 (wpaAuthSmEvent (w.emit (.setAuthorized false)) .deauth) ∧
      Rests (wpaAuthSmEvent (w.emit (.setAuthorized false)) .deauth) := by
    cases hstarted : w.sm.started with
    | false =>
      rw [wpaAuthSmEvent, if_pos (by rw [World.emit, hstarted]; rfl)]
      exact ⟨hemit, hrests.of_same rfl rfl rfl rfl⟩
    | true =>
      have hasks : Inv m2 m4 (((w.emit (.setAuthorized false)).mapSm fun sm =>
          { sm with deauthenticationRequest := true }).mapSm fun sm =>
          { sm with ptkValid := false, ptk := .zero }) := by
        refine ⟨hemit.conf, hemit.entry, ?_, hemit.never, fun _ => rfl, hemit.asked, ?_,
          (fun hk => by cases hk), fun hr => absurd (hr.symm.trans hrests.received) (by decide),
          hemit.out⟩
        · exact fun hs => absurd (hs.symm.trans hstarted) (by decide)
        · rintro (hs | hs | hs | hs | hs)
          · exact h.mgmt (.inl hs)
          · exact h.mgmt (.inr (.inl hs))
          · exact h.mgmt (.inr (.inr (.inl hs)))
          · exact h.mgmt (.inr (.inr (.inr (.inl hs))))
          · cases hs
      have hremoved := hasks.remove rfl hrests.received
      have heq : wpaAuthSmEvent (w.emit (.setAuthorized false)) .deauth = wpaSmStep _ :=
        if_neg (show ¬ (!w.sm.started) = true by rw [hstarted]; exact Bool.false_ne_true)
      rw [heq]
      refine ⟨hremoved.loop, hremoved.rests_loop ?_ ?_ ?_ ?_⟩
      · rw [wpaRemovePtk_sm]; exact hrests.loop
      · rw [wpaRemovePtk_sm]; exact hrests.request.1
      · rw [(wpaRemovePtk_entry _).2.2.1]; exact hrests.not_pending hstarted
      · rw [(wpaRemovePtk_entry _).2.2.2]; exact hrests.reassoc
  have heq : rxDeauth w
      = apStaInfoFree (wpaAuthSmEvent (w.emit (.setAuthorized false)) .deauth) := by
    rw [rxDeauth, if_neg hvalid]
    exact congrArg apStaInfoFree (if_pos h.conf)
  rw [heq]
  exact ⟨hevent.1.free, hevent.2.free⟩

/-- A station is let in before its state machine runs. -/
theorem Inv.admitted (h : Inv m2 m4 w) (hrests : Rests w) (hnot : w.sm.started = false)
    (hvalid : w.valid = true) : Inv m2 m4 (letIn w) ∧ Rests (letIn w) := by
  have heq : letIn w =
      { w with addStaFlag := false, assocRsp := true, reassoc := false } := by
    rw [letIn, if_pos h.conf, process4WaysStart, if_neg]
    exact Bool.false_ne_true
  rw [heq]
  exact ⟨⟨h.conf, h.entry, h.idle, h.never, h.noKey, h.asked, h.mgmt, h.key, h.received, h.out⟩,
    hrests.loop, hrests.request, hrests.received, hrests.unverified, fun _ => ⟨hnot, hvalid⟩, rfl⟩

/-- Between events the messages 4 are of no account, and without a key the messages 2 are not. -/
theorem Inv.forget {n2 : List UInt8 → Octets 32 → Prop} {n4 : List UInt8 → Ptk → Prop}
    (h : Inv m2 m4 w) (hreceived : w.sm.pairwiseReceived = false) (hout : w.out = [])
    (hkey : w.sm.ptkValid = true → ∀ m psk, m2 m psk → n2 m psk) : Inv n2 n4 w := by
  refine ⟨h.conf, h.entry, h.idle, h.never, h.noKey, h.asked, h.mgmt, fun hk => ?_,
    fun hr => absurd (hr.symm.trans hreceived) (by decide), fun o ho _ => ?_⟩
  · obtain ⟨m, psk, hm, hmade⟩ := h.key hk
    exact ⟨m, psk, hkey hk m psk hm, hmade⟩
  · rw [hout] at ho
    exact absurd ho List.not_mem_nil

/-- An association request is answered; of the messages before nothing is kept. -/
theorem Inv.assoc {n2 : List UInt8 → Octets 32 → Prop} {n4 : List UInt8 → Ptk → Prop}
    (h : Inv m2 m4 w) (hrests : Rests w) (hout : w.out = []) (addr : Octets 6)
    (check : AssocCheck) :
    Inv n2 n4 (handleAssoc w addr check) ∧ Rests (handleAssoc w addr check) := by
  have hnil : ∀ o ∈ w.out, Grants o → ∃ m ptk, n4 m ptk ∧ ∀ alg key, o = .setKey alg key →
      key = ptk.tk1.1 := fun o ho _ => by
    rw [hout] at ho
    exact absurd ho List.not_mem_nil
  by_cases hconf : w.auth.confWpa = 0
  · have hnot : w.sm.started = false :=
      Bool.eq_false_of_not_eq_true fun hs => (h.entry hs).2 hconf
    have heq : handleAssoc w addr check = letIn { w with valid := true } := by
      have hopen : handleAssoc w addr check
          = letIn { w with valid := true, sm := wpaAuthStaNoWpa w.sm } := if_pos hconf
      rw [hopen, wpaAuthStaNoWpa, if_pos (by rw [hnot]; rfl)]
    have hinv : Inv m2 m4 { w with valid := true } :=
      ⟨h.conf, fun hs => ⟨rfl, (h.entry hs).2⟩, h.idle, h.never, h.noKey, h.asked, h.mgmt, h.key,
        h.received, h.out⟩
    have hrests' : Rests { w with valid := true } :=
      ⟨hrests.loop, hrests.request, hrests.received, hrests.unverified,
        fun ha => ⟨(hrests.pending ha).1, rfl⟩, hrests.reassoc⟩
    rw [heq]
    refine (hinv.forget hrests.received hout fun hk => ?_).admitted hrests' hnot rfl
    exact absurd (hk.symm.trans (h.idle hnot).2.1) (by decide)
  · have hfresh : ∀ sm : Sm, Fresh sm → Inv n2 n4 { w with valid := true, sm := sm } ∧
        Rests { w with valid := true, sm := sm } := fun sm hsm =>
      ⟨.of_fresh h.conf hsm hnil, .of_fresh hsm (fun _ => rfl) hrests.reassoc⟩
    cases check with
    | missing =>
      have heq : handleAssoc w addr .missing = apStaInfoFree { w with valid := true } :=
        if_neg hconf
      rw [heq]
      have hfree : (apStaInfoFree { w with valid := true }).sm = .zero ∧
          (apStaInfoFree { w with valid := true }).assocRsp = false ∧
          (apStaInfoFree { w with valid := true }).reassoc = false := ⟨rfl, rfl, rfl⟩
      refine ⟨.of_fresh ?_ ?_ fun o ho hg => hnil o ?_ hg, .of_fresh ?_ (fun ha => ?_) ?_⟩
      · rw [apStaInfoFree_auth]
        exact h.conf
      · exact hfree.1
      · have hin := apStaInfoFree_out ho hg
        exact hin
      · exact hfree.1
      · exact absurd (ha.symm.trans hfree.2.1) (by decide)
      · exact hfree.2.2
    | refused =>
      have heq : handleAssoc w addr .refused =
          apStaInfoFree { w with valid := true, sm := { Sm.zero with addr := addr } } :=
        if_neg hconf
      rw [heq]
      have hrefused := hfresh { Sm.zero with addr := addr } rfl
      exact ⟨hrefused.1.free, hrefused.2.free⟩
    | accepted ie =>
      have heq : handleAssoc w addr (.accepted ie) = letIn { w with
          valid := true
          sm := { Sm.zero with
            addr := addr, wpa := ie.wpa, pairwise := ie.pairwise, wpaKeyMgmt := ie.keyMgmt
            wpaIe := ie.ie } } := if_neg hconf
      rw [heq]
      have haccepted := hfresh { Sm.zero with
        addr := addr, wpa := ie.wpa, pairwise := ie.pairwise, wpaKeyMgmt := ie.keyMgmt
        wpaIe := ie.ie } rfl
      exact haccepted.1.admitted haccepted.2 rfl rfl

/-! ## Runs -/

/-- An association request. -/
def Input.IsAssoc : Input → Prop
  | .assoc _ _ => True
  | _ => False

/-- A message 2 that came after the last association request of a run, and the pre-shared key when
it came. -/
def Second (auth : Auth) (is : List (Input × List Bool)) (m : List UInt8) (psk : Octets 32) :
    Prop :=
  ∃ js mallocs ks, is = js ++ (.receive m, mallocs) :: ks ∧ (∀ k ∈ ks, ¬ k.1.IsAssoc) ∧
    frameMsg m = .pairwise2 ∧ psk = (Machine.run step (World.start auth) js).1.auth.psk

theorem Second.append {auth : Auth} {is : List (Input × List Bool)} {m : List UInt8}
    {psk : Octets 32} (h : Second auth is m psk) {i : Input × List Bool} (hi : ¬ i.1.IsAssoc) :
    Second auth (is ++ [i]) m psk := by
  obtain ⟨js, mallocs, ks, rfl, hks, hm, hpsk⟩ := h
  refine ⟨js, mallocs, ks ++ [i], by rw [List.append_assoc, List.cons_append], fun k hk => ?_, hm,
    hpsk⟩
  rcases List.mem_append.mp hk with hk | hk
  · exact hks k hk
  · rwa [List.mem_singleton.mp hk]

/-- One event. -/
theorem Inv.handle (h : Inv m2 (fun _ _ => False) w) (hrests : Rests w) (hout : w.out = [])
    (i : Input) (n2 : List UInt8 → Octets 32 → Prop)
    (hold : ¬ i.IsAssoc → ∀ m psk, m2 m psk → n2 m psk)
    (hnew : ∀ data, i = .receive data → frameMsg data = .pairwise2 → n2 data w.auth.psk) :
    Inv n2 (Fourth w i) (handle w i) ∧ Rests (handle w i) := by
  by_cases hassoc : i.IsAssoc
  · cases i <;> try cases hassoc
    exact h.assoc hrests hout _ _
  have h' : Inv n2 (Fourth w i) w := h.mono (hold hassoc) fun _ _ hf => hf.elim
  cases i with
  | assoc addr check => exact absurd trivial hassoc
  | added => exact h'.added hrests
  | receive data =>
    exact h'.receive hrests (hnew data rfl) fun hm hs hkey hv => ⟨rfl, hm, hs, hkey, rfl, hv⟩
  | timeout => exact h'.timeout hrests
  | deauth => exact h'.deauth hrests
  | free => exact ⟨h'.free, hrests.free⟩
  | pmk psk =>
    refine ⟨⟨h'.conf, h'.entry, h'.idle, h'.never, h'.noKey, h'.asked, h'.mgmt, h'.key,
      fun hr => absurd (hr.symm.trans hrests.received) (by decide), h'.out⟩,
      hrests.of_same rfl rfl rfl rfl⟩
  | other =>
    exact ⟨⟨h'.conf, h'.entry, h'.idle, h'.never, h'.noKey, h'.asked, h'.mgmt, h'.key,
      h'.received, h'.out⟩, hrests.of_same rfl rfl rfl rfl⟩

/-- An event begins. -/
theorem Inv.begin (h : Inv m2 m4 w) (mallocs : List Bool) :
    Inv m2 m4 { w with mallocs := mallocs, out := [] } :=
  ⟨h.conf, h.entry, h.idle, h.never, h.noKey, h.asked, h.mgmt, h.key, h.received,
    fun _ ho _ => absurd ho List.not_mem_nil⟩

/-- An event has ended. -/
theorem Inv.finish {n4 : List UInt8 → Ptk → Prop} (h : Inv m2 m4 w)
    (hreceived : w.sm.pairwiseReceived = false) : Inv m2 n4 { w with out := [] } :=
  ⟨h.conf, h.entry, h.idle, h.never, h.noKey, h.asked, h.mgmt, h.key,
    fun hr => absurd (hr.symm.trans hreceived) (by decide), fun _ ho _ =>
      absurd ho List.not_mem_nil⟩

/-- The state of a run between two events. -/
theorem inv_of_run (auth : Auth) (hpsk : auth.confWpaKeyMgmt = Ap.keyMgmtPsk)
    (is : List (Input × List Bool)) :
    Inv (Second auth is) (fun _ _ => False) (Machine.run step (World.start auth) is).1 ∧
      Rests (Machine.run step (World.start auth) is).1 := by
  induction is using List.reverseRecOn with
  | nil =>
    exact ⟨.of_fresh hpsk rfl fun o ho _ => absurd ho List.not_mem_nil,
      .of_fresh rfl (fun ha => by cases ha) rfl⟩
  | append_singleton is i ih =>
    obtain ⟨hinv, hrests⟩ := ih
    obtain ⟨hnext, hnextRests⟩ := (hinv.begin i.2).handle (hrests.of_same rfl rfl rfl rfl) rfl i.1
      (Second auth (is ++ [i])) (fun hi m psk hm => hm.append hi)
      fun data hi hm => ⟨is, i.2, [], by rw [← hi], (fun k hk => absurd hk List.not_mem_nil), hm,
        rfl⟩
    have hrun : (Machine.run step (World.start auth) (is ++ [i])).1
        = (step (Machine.run step (World.start auth) is).1 i).1 := by
      rw [Machine.run_append]
      rfl
    rw [hrun]
    exact ⟨hnext.finish hnextRests.received, hnextRests.of_same rfl rfl rfl rfl⟩

/-- Whenever a station gets its key or its port is opened, in whatever run: the event is a message 4
that is verified with the key of the station; that key is the one that is given; and it was made
from a message 2 that it verifies, that came since the last association request, and from the
pre-shared key of then. -/
theorem grants_of_run (auth : Auth) (hpsk : auth.confWpaKeyMgmt = Ap.keyMgmtPsk)
    (is : List (Input × List Bool)) (w : World)
    (hw : w = (Machine.run step (World.start auth) is).1) (i : Input × List Bool) (o : Output)
    (ho : o ∈ (step w i).2) (hg : Grants o) :
    (∃ m4, i.1 = .receive m4 ∧ frameMsg m4 = .pairwise4 ∧ w.sm.state = .ptkInitNegotiating ∧
        wpaVerifyKeyMic w.sm.ptk m4 = true) ∧
      (∀ alg key, o = .setKey alg key → key = w.sm.ptk.tk1.1) ∧
      ∃ m2 psk, Second auth is m2 psk ∧ MadeFrom w.sm w.auth.ownAddr m2 psk := by
  subst hw
  obtain ⟨hinv, hrests⟩ := inv_of_run auth hpsk is
  obtain ⟨hnext, -⟩ := (hinv.begin i.2).handle (hrests.of_same rfl rfl rfl rfl) rfl i.1
    (Second auth (is ++ [i])) (fun hi m psk hm => hm.append hi)
    fun data hi hm => ⟨is, i.2, [], by rw [← hi], (fun k hk => absurd hk List.not_mem_nil), hm, rfl⟩
  obtain ⟨m4, ptk, ⟨hi, hmsg, hstate, hkey, rfl, hverify⟩, hgiven⟩ := hnext.out o ho hg
  exact ⟨⟨m4, hi, hmsg, hstate, hverify⟩, hgiven, hinv.key hkey⟩

/-- The run of a handshake, but for message 4. -/
def untilThird (auth : Auth) (st : Station) : List (Input × List Bool) :=
  untilFirst st ++ [(.receive (second auth st), [])]

theorem run_untilThird {auth : Auth} {st : Station} (h : Ready auth st) :
    (Machine.run step (World.start auth) (untilThird auth st)).1 = thirdWorld auth st := by
  have hfirst : Machine.run step (World.start auth) (untilFirst st)
      = (startWorld auth st, startOutputs auth) := run_untilFirst h
  rw [untilThird, Machine.run_append, hfirst, Machine.run_cons, step_second h]
  rfl

theorem grants_of_run_home :
    ∃ m4, frameMsg m4 = .pairwise4 ∧
      wpaVerifyKeyMic (thirdWorld homeAuth homeStation).sm.ptk m4 = true := by
  have hrun := run_untilThird ready_home
  have hout : .setAuthorized true ∈ (step (thirdWorld homeAuth homeStation)
      (.receive (fourth homeAuth homeStation), [])).2 := by
    rw [step_fourth ready_home]
    exact .tail _ (.tail _ (.tail _ (.head _)))
  obtain ⟨⟨m4, -, hmsg, -, hverify⟩, -⟩ := grants_of_run homeAuth rfl
    (untilThird homeAuth homeStation) _ hrun.symm _ _ hout rfl
  exact ⟨m4, hmsg, hverify⟩

end Fullmac.Wpa
