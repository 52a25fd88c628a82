import Fullmac.Wpa.Replay

/-!
# The timer of a handshake

Reference: `host/ap/wpa_auth.c`, `wpa_send_eapol`, `wpa_send_eapol_timeout`, `wpa_receive`,
`SM_STATE(WPA_PTK, PTKSTART)`, `SM_STATE(WPA_PTK, PTKINITNEGOTIATING)`; `host/ap/ap_mlme.c`,
`wpa_sta_disconnect`.

A station that does not answer is given up: the frame that it owes an answer to is sent again with
every timeout, each time with a new timer, until the counter of the timeouts is at its end
(`timeouts_give_up`). But a frame that is received stops the timer before it is looked at, and a
message 2 whose integrity code is wrong starts no other. From then on the handshake stands still,
whatever else the station sends, unless it is a request (`wrong_key_stalls`).
-/

namespace Fullmac.Wpa

/-! ## The timer -/

/-- Whether the timer is running when something has been done. -/
def timerAfter (running : Bool) (out : List Output) : Bool :=
  out.foldl (fun running o =>
    match o with
    | .createTimer _ => true
    | .cancelTimer => false
    | _ => running) running

theorem timerAfter_append (running : Bool) (l l' : List Output) :
    timerAfter running (l ++ l') = timerAfter (timerAfter running l) l' := List.foldl_append

theorem timerAfter_create (running : Bool) (l : List Output) (ms : ℕ) :
    timerAfter running (l ++ [.createTimer ms]) = true := by
  rw [timerAfter_append]
  rfl

variable {w w' : World} {data : List UInt8}

/-- Something is sent, and the timer is started behind it. -/
def SendsTimed (w w' : World) : Prop :=
  Sends w w' ∧ ∃ l ms, w'.out = w.out ++ l ++ [.createTimer ms] ∧ .deauth ∉ l

theorem Sends.timed {ms : ℕ} (h : Sends w w') : SendsTimed w (w'.emit (.createTimer ms)) := by
  obtain ⟨l, hl, hout⟩ := h.out
  refine ⟨h.createTimer ms, l, ms, ?_, fun hin => ?_⟩
  · rw [World.emit, hl]
  · rcases hout _ hin with ⟨ms, heq⟩ | ⟨-, ⟨ms, heq⟩ | ⟨frame, encrypt, heq, -⟩⟩ <;> cases heq

theorem SendsTimed.of_malloc (h : SendsTimed w.malloc.2 w') : SendsTimed w w' :=
  ⟨h.1.of_malloc, h.2⟩

theorem sendsTimed_wpaSendEapol (keyInfo : KeyInfo) (rsc : Octets 8) (nonce : Octets 32)
    (kde : Option (List UInt8)) (keyidx : ℕ) (encr : Bool) (hstarted : w.sm.started = true) :
    SendsTimed w (wpaSendEapol w keyInfo rsc nonce kde keyidx encr) := by
  rw [wpaSendEapol, if_neg (by rw [hstarted]; exact Bool.false_ne_true)]
  exact (sends_wpaSendEapolFrame w keyInfo rsc nonce kde keyidx encr).timed

/-- Message 1 is sent, for the first time or again. -/
theorem enterPtkStart_timed (hstarted : w.sm.started = true)
    (hctr : w.sm.timeoutCtr < pairwiseUpdateCount) :
    SendsTimed { w with sm := { w.sm with
      state := .ptkStart, changed := true, ptkRequest := false, timeoutEvt := false
      timeoutCtr := w.sm.timeoutCtr + 1 } } (enterPtkStart w) := by
  simp only [enterPtkStart]
  rw [if_neg]
  · exact sendsTimed_wpaSendEapol _ _ _ _ _ _ hstarted
  · show ¬ pairwiseUpdateCount < w.sm.timeoutCtr + 1
    omega

/-- Message 3 is sent, for the first time or again. -/
theorem enterPtkInitNegotiating_timed (hstarted : w.sm.started = true)
    (hctr : w.sm.timeoutCtr < pairwiseUpdateCount) :
    SendsTimed { w with sm := { w.sm with
      state := .ptkInitNegotiating, changed := true, timeoutEvt := false
      timeoutCtr := w.sm.timeoutCtr + 1 } } (enterPtkInitNegotiating w) := by
  simp only [enterPtkInitNegotiating]
  rw [if_neg]
  · split
    · exact (Sends.malloc _).timed
    · apply SendsTimed.of_malloc
      apply sendsTimed_wpaSendEapol
      exact hstarted
  · show ¬ pairwiseUpdateCount < w.sm.timeoutCtr + 1
    omega

/-- The end of a station. -/
theorem wpaStaDisconnect_eq (hvalid : w.valid = true) (hstarted : w.sm.started = true) :
    wpaStaDisconnect w = { w with
      out := w.out ++
        [.setAuthorized false, .cancelTimer, .deauth, .setAuthorized false, .cancelTimer]
      sm := .zero, valid := false, assocRsp := false, addStaFlag := false, reassoc := false } := by
  simp [wpaStaDisconnect, apStaInfoFree, wpaAuthStaDeinit, World.emit, hvalid, hstarted]

/-- The pass that gives a station up is the last one. -/
theorem passes_disconnect (n : ℕ) (hstarted : w.sm.started = true) (hvalid : w.valid = true)
    (hnext : nextState w.sm = some .disconnect) :
    ∃ failures, Loops.passes smPass (n + 1) w = some { w with
      auth := { w.auth with failures := failures }
      out := w.out ++
        [.setAuthorized false, .cancelTimer, .deauth, .setAuthorized false, .cancelTimer]
      sm := .zero, valid := false, assocRsp := false, addStaFlag := false, reassoc := false } := by
  have hnext' : nextState (cleared w).sm = some .disconnect := hnext
  obtain ⟨failures, heq⟩ := smStep_eq hnext'
  have hend := wpaStaDisconnect_eq (w := (smEntry .disconnect { cleared w with
    auth := { w.auth with failures := failures } }).mapSm fun sm => { sm with disconnect := false })
    hvalid hstarted
  have hstep : smStep (cleared w) = _ := heq.trans hend
  refine ⟨failures, Loops.passes_succ_of_inr ?_ n⟩
  rw [smPass_of_started hstarted, hstep]
  exact if_neg Bool.false_ne_true

/-! ## A timeout -/

/-- The states in which the station owes an answer. -/
def waiting : List PtkState := [.ptkStart, .ptkCalcNegotiating, .ptkInitNegotiating]

/-- A state machine that waits for an answer of the station. -/
structure Owed (sm : Sm) : Prop where
  state : sm.state ∈ waiting
  request : sm.init = false ∧ sm.disconnect = false ∧ sm.deauthenticationRequest = false ∧
    sm.authenticationRequest = false ∧ sm.reAuthenticationRequest = false
  received : sm.pairwiseReceived = false
  unverified : sm.state = .ptkCalcNegotiating → sm.micVerified = false

variable {sm : Sm}

/-- The state that sends again. -/
def againState (sm : Sm) : PtkState :=
  if sm.ptkRequest = true ∨ sm.state ≠ .ptkInitNegotiating then .ptkStart else .ptkInitNegotiating

theorem againState_mem (sm : Sm) : againState sm ∈ waiting := by
  rw [againState]
  split <;> decide

/-- Of a station that owes an answer another key may be asked; else it is given up or, with a
timeout, asked again. -/
theorem Owed.nextState (h : Owed sm) : Wpa.nextState sm =
    if sm.ptkRequest = true then some .ptkStart
    else if sm.state ≠ .ptkCalcNegotiating ∧ pairwiseUpdateCount < sm.timeoutCtr then
      some .disconnect
    else if sm.timeoutEvt = true then some (againState sm)
    else none := by
  obtain ⟨h1, h2, h3, h4, h5⟩ := h.request
  rw [Wpa.nextState, h1, h2, h3, h4, h5]
  simp only [Bool.false_eq_true, if_false]
  by_cases hrequest : sm.ptkRequest = true
  · rw [if_pos hrequest, if_pos hrequest]
  rw [if_neg hrequest, if_neg hrequest, localState]
  have hstates : sm.state = .ptkStart ∨ sm.state = .ptkCalcNegotiating ∨
      sm.state = .ptkInitNegotiating := by simpa [waiting] using h.state
  have hreceived := h.received
  rcases hstates with hs | hs | hs
  · simp [hs, hreceived, againState]
  · simp [hs, hreceived, h.unverified hs, againState]
  · simp [hs, hreceived, hrequest, againState]

theorem negotiating_eq (hrequest : sm.ptkRequest = false) :
    ({ sm with
      state := .ptkInitNegotiating, changed := true, timeoutEvt := false
      timeoutCtr := sm.timeoutCtr + 1 } : Sm) = { sm with
      state := .ptkInitNegotiating, changed := true, ptkRequest := false, timeoutEvt := false
      timeoutCtr := sm.timeoutCtr + 1 } := by
  rw [← hrequest]

/-- What entering a state to send again does, if there are timeouts left. -/
theorem smEnter_againState (hstarted : w.sm.started = true)
    (hctr : w.sm.timeoutCtr < pairwiseUpdateCount) :
    SendsTimed { w with sm := { w.sm with
      state := againState w.sm, changed := true, ptkRequest := false, timeoutEvt := false
      timeoutCtr := w.sm.timeoutCtr + 1 } } (smEnter (againState w.sm) w) := by
  rw [againState]
  split
  case isTrue => exact enterPtkStart_timed hstarted hctr
  case isFalse hno =>
    rw [← negotiating_eq (Bool.eq_false_of_not_eq_true (not_or.mp hno).1)]
    exact enterPtkInitNegotiating_timed hstarted hctr

/-- With the last timeout nothing is sent any more. -/
theorem smEnter_againState_last (hctr : pairwiseUpdateCount ≤ w.sm.timeoutCtr) :
    smEnter (againState w.sm) w = { w with sm := { w.sm with
      state := againState w.sm, changed := true, ptkRequest := false, timeoutEvt := false
      timeoutCtr := w.sm.timeoutCtr + 1 } } := by
  have hlast : pairwiseUpdateCount < w.sm.timeoutCtr + 1 := by omega
  rw [againState]
  split
  case isTrue => exact if_pos hlast
  case isFalse hno =>
    rw [← negotiating_eq (Bool.eq_false_of_not_eq_true (not_or.mp hno).1)]
    exact if_pos hlast

/-- The state machine when it has sent again. -/
def againSm (sm : Sm) : Sm :=
  { sm with
    state := againState sm, ptkRequest := false, timeoutEvt := false
    timeoutCtr := sm.timeoutCtr + 1 }

theorem Owed.again (h : Owed sm) : Owed (againSm sm) := by
  refine ⟨againState_mem sm, h.request, h.received, fun hs => ?_⟩
  have hnot : againState sm ≠ .ptkCalcNegotiating := by
    rw [againState]
    split <;> decide
  exact absurd hs hnot

theorem Owed.nextState_again (h : Owed sm) (hevt : sm.timeoutEvt = true)
    (hctr : sm.timeoutCtr ≤ pairwiseUpdateCount ∨ sm.ptkRequest = true ∨
      sm.state = .ptkCalcNegotiating) : Wpa.nextState sm = some (againState sm) := by
  rw [h.nextState]
  by_cases hrequest : sm.ptkRequest = true
  · rw [if_pos hrequest, againState, if_pos (.inl hrequest)]
  · rw [if_neg hrequest, if_neg, if_pos hevt]
    rintro ⟨hs, hlt⟩
    rcases hctr with hle | hr | hs'
    · omega
    · exact hrequest hr
    · exact hs hs'

theorem givesUp_againState (sm sm' : Sm) : givesUp sm' (againState sm) = false := by
  rw [againState]
  split <;> rfl

/-- The world in which a timeout is handled. -/
def timedOut (w : World) : World := looping (w.mapSm fun sm => { sm with timeoutEvt := true })

theorem Owed.timedOut (h : Owed w.sm) : Owed (timedOut w).sm :=
  ⟨h.state, h.request, h.received, h.unverified⟩

/-- What the loop makes of a timeout. -/
theorem wpaSendEapolTimeout_of_passes (hstarted : w.sm.started = true)
    (hloop : w.sm.inStepLoop = false)
    (h : Loops.passes smPass passBound (timedOut w) = some w') :
    wpaSendEapolTimeout w = { w' with sm := { w'.sm with inStepLoop := false } } := by
  rw [wpaSendEapolTimeout, if_neg (by rw [hstarted]; exact Bool.false_ne_true)]
  exact wpaSmStep_of_passes hstarted hloop h

/-- With timeouts left, a timeout sends again and starts the timer again. -/
theorem timeout_again (h : Owed w.sm) (hstarted : w.sm.started = true)
    (hloop : w.sm.inStepLoop = false) (hctr : w.sm.timeoutCtr < pairwiseUpdateCount) :
    ∃ l ms, (wpaSendEapolTimeout w).out = w.out ++ l ++ [.createTimer ms] ∧ .deauth ∉ l ∧
      (wpaSendEapolTimeout w).valid = w.valid ∧
      (wpaSendEapolTimeout w).sm = { againSm w.sm with
        keyReplay := (wpaSendEapolTimeout w).sm.keyReplay, changed := false } := by
  obtain ⟨v, hv⟩ : ∃ v, v = smEnter (againState w.sm) (cleared (timedOut w)) := ⟨_, rfl⟩
  obtain ⟨hsends, l, ms, hout, hdeauth⟩ := smEnter_againState (w := cleared (timedOut w)) hstarted
    hctr
  have hstate : againState (cleared (timedOut w)).sm = againState w.sm := rfl
  rw [hstate, ← hv] at hsends hout
  have hnext : nextState (timedOut w).sm = some (againState w.sm) :=
    h.timedOut.nextState_again rfl (.inl hctr.le)
  have hsm : v.sm = { againSm (timedOut w).sm with
      keyReplay := v.sm.keyReplay, changed := true } := hsends.sm
  have hrest : nextState v.sm = none := by
    have howed : Owed v.sm := by
      rw [hsm]
      exact ⟨h.timedOut.again.state, h.request, h.received, h.timedOut.again.unverified⟩
    have hlast : ¬ pairwiseUpdateCount < w.sm.timeoutCtr + 1 := by omega
    rw [howed.nextState, hsm]
    simp only [againSm, Bool.false_eq_true, if_false]
    exact if_neg fun hc => hlast hc.2
  have hpasses : Loops.passes smPass passBound (timedOut w) = some (cleared v) := by
    rw [show passBound = 126 + 1 + 1 from rfl,
      passes_enter (w := timedOut w) (againState w.sm) _ hstarted hnext (givesUp_againState _ _)
        (by rw [← hv, hsm]), ← hv,
      passes_rest _ (by rw [hsm]; exact hstarted) hrest]
  rw [wpaSendEapolTimeout_of_passes hstarted hloop hpasses]
  refine ⟨l, ms, hout, hdeauth, hsends.entry.1, ?_⟩
  show ({ v.sm with changed := false, inStepLoop := false } : Sm) = _
  rw [hsm, ← hloop]
  rfl

/-- With the last timeout the station is given up. -/
theorem timeout_last (h : Owed w.sm) (hstarted : w.sm.started = true)
    (hvalid : w.valid = true) (hloop : w.sm.inStepLoop = false)
    (hctr : pairwiseUpdateCount ≤ w.sm.timeoutCtr) :
    (wpaSendEapolTimeout w).out = w.out ++
        [.setAuthorized false, .cancelTimer, .deauth, .setAuthorized false, .cancelTimer] ∧
      (wpaSendEapolTimeout w).sm = .zero ∧ (wpaSendEapolTimeout w).valid = false := by
  by_cases hnow : (timedOut w).sm.ptkRequest = false ∧
      (timedOut w).sm.state ≠ .ptkCalcNegotiating ∧
      pairwiseUpdateCount < (timedOut w).sm.timeoutCtr
  · have hnext : nextState (timedOut w).sm = some .disconnect := by
      rw [h.timedOut.nextState, hnow.1, if_neg Bool.false_ne_true, if_pos hnow.2]
    obtain ⟨failures, hpasses⟩ := passes_disconnect (w := timedOut w) 127 hstarted hvalid hnext
    rw [wpaSendEapolTimeout_of_passes hstarted hloop hpasses]
    exact ⟨rfl, rfl, rfl⟩
  · have hnext : nextState (timedOut w).sm = some (againState w.sm) := by
      refine h.timedOut.nextState_again rfl ?_
      by_contra hall
      obtain ⟨h1, h2⟩ := not_or.mp hall
      obtain ⟨h2, h3⟩ := not_or.mp h2
      exact hnow ⟨Bool.eq_false_of_not_eq_true h2, h3, Nat.lt_of_not_le h1⟩
    have henter := smEnter_againState_last (w := cleared (timedOut w)) hctr
    have hstate : againState (cleared (timedOut w)).sm = againState w.sm := rfl
    rw [hstate] at henter
    obtain ⟨v, hv⟩ : ∃ v, v = smEnter (againState w.sm) (cleared (timedOut w)) := ⟨_, rfl⟩
    have hsm : v.sm = { againSm (timedOut w).sm with changed := true } := by
      rw [hv, henter]
      rfl
    have howed : Owed v.sm := by
      rw [hsm]
      exact ⟨h.timedOut.again.state, h.request, h.received, h.timedOut.again.unverified⟩
    have hlast : nextState v.sm = some .disconnect := by
      have hnot : againState w.sm ≠ .ptkCalcNegotiating := by
        rw [againState]
        split <;> decide
      have hmore : pairwiseUpdateCount < w.sm.timeoutCtr + 1 := by omega
      rw [howed.nextState, hsm]
      simp only [againSm, Bool.false_eq_true, if_false]
      exact if_pos ⟨hnot, hmore⟩
    have hvvalid : v.valid = true := by
      rw [hv, henter]
      exact hvalid
    obtain ⟨failures, hpasses⟩ := passes_disconnect 126 (by rw [hsm]; exact hstarted) hvvalid hlast
    have hall := passes_enter (w := timedOut w) (againState w.sm) 127 hstarted hnext
      (givesUp_againState _ _) (by rw [← hv, hsm])
    rw [← hv, hpasses] at hall
    have hvout : v.out = w.out := by
      rw [hv, henter]
      rfl
    rw [wpaSendEapolTimeout_of_passes hstarted hloop hall, hvout]
    exact ⟨rfl, rfl, rfl⟩

/-! ## Timeouts one behind the other -/

/-- Nothing but timeouts happens, with these answers of the memory. -/
def timeouts (ms : List (List Bool)) : List (Input × List Bool) := ms.map fun m => (.timeout, m)

/-- Without a station nothing comes of a timeout. -/
theorem run_timeouts_idle (h : w.sm.started = false) (ms : List (List Bool)) :
    (Machine.run step w (timeouts ms)).1.sm = w.sm ∧
      (Machine.run step w (timeouts ms)).2 = [] := by
  induction ms generalizing w with
  | nil => exact ⟨rfl, rfl⟩
  | cons m ms ih =>
    have hstep : step w (.timeout, m) = ({ w with mallocs := m, out := [] }, []) := by
      have hidle : wpaSendEapolTimeout { w with mallocs := m, out := [] }
          = { w with mallocs := m, out := [] } := if_pos (by
        show (!w.sm.started) = true
        rw [h]
        rfl)
      show ({ wpaSendEapolTimeout { w with mallocs := m, out := [] } with out := [] },
        (wpaSendEapolTimeout { w with mallocs := m, out := [] }).out) = _
      rw [hidle]
    obtain ⟨hsm, hout⟩ := ih (w := { w with mallocs := m, out := [] }) h
    rw [timeouts, List.map_cons, Machine.run_cons, hstep]
    exact ⟨hsm, hout⟩

/-- A station that owes an answer and gives none is asked again until the counter of the timeouts is
at its end; then it is given up. -/
theorem run_timeouts (h : Owed w.sm) (hstarted : w.sm.started = true) (hvalid : w.valid = true)
    (hloop : w.sm.inStepLoop = false) (ms : List (List Bool)) :
    ((Machine.run step w (timeouts ms)).1.sm.started = true ↔
        ms.length < max 1 (5 - w.sm.timeoutCtr)) ∧
      (.deauth ∈ (Machine.run step w (timeouts ms)).2 ↔
        max 1 (5 - w.sm.timeoutCtr) ≤ ms.length) ∧
      ∀ running, ms ≠ [] → (timerAfter running (Machine.run step w (timeouts ms)).2 = true ↔
        ms.length < max 1 (5 - w.sm.timeoutCtr)) := by
  induction ms generalizing w with
  | nil =>
    refine ⟨⟨fun _ => ?_, fun _ => hstarted⟩,
      ⟨fun hin => absurd hin List.not_mem_nil, fun hle => ?_⟩, fun _ hne => absurd rfl hne⟩
    · rw [List.length_nil]
      omega
    · rw [List.length_nil] at hle
      omega
  | cons m ms ih =>
    obtain ⟨v, hv⟩ : ∃ v, v = wpaSendEapolTimeout { w with mallocs := m, out := [] } := ⟨_, rfl⟩
    have hstep : step w (.timeout, m) = ({ v with out := [] }, v.out) := by
      rw [hv]
      rfl
    rw [timeouts, List.map_cons, Machine.run_cons, hstep, List.length_cons, ← timeouts]
    rcases Nat.lt_or_ge w.sm.timeoutCtr pairwiseUpdateCount with hctr | hctr
    · -- the station is asked again
      obtain ⟨l, t, hout, hdeauth, hvalid', hsm⟩ :=
        timeout_again (w := { w with mallocs := m, out := [] }) h hstarted hloop hctr
      rw [← hv] at hout hvalid' hsm
      rw [List.nil_append] at hout
      have hctr' : v.sm.timeoutCtr = w.sm.timeoutCtr + 1 := by rw [hsm]; rfl
      have howed : Owed v.sm := by
        rw [hsm]
        exact ⟨h.again.state, h.request, h.received, h.again.unverified⟩
      have hbound : pairwiseUpdateCount = 4 := rfl
      obtain ⟨hon, hend, htimer⟩ := ih (w := { v with out := [] }) howed
        (by rw [hsm]; exact hstarted) (hvalid'.trans hvalid) (by rw [hsm]; exact hloop)
      have hmax : max 1 (5 - w.sm.timeoutCtr) = max 1 (5 - (w.sm.timeoutCtr + 1)) + 1 := by omega
      have hleft : 5 - v.sm.timeoutCtr = 5 - (w.sm.timeoutCtr + 1) := by rw [hctr']
      rw [hmax, ← hleft, Nat.add_lt_add_iff_right, Nat.add_le_add_iff_right, List.mem_append]
      refine ⟨hon, ⟨fun hin => hend.mp (hin.resolve_left fun hin => ?_),
        fun hle => .inr (hend.mpr hle)⟩, fun running _ => ?_⟩
      · rw [hout] at hin
        rcases List.mem_append.mp hin with hin | hin
        · exact hdeauth hin
        · cases List.mem_singleton.mp hin
      · rw [timerAfter_append]
        cases ms with
        | nil =>
          refine ⟨fun _ => ?_, fun _ => ?_⟩
          · rw [List.length_nil]
            omega
          · rw [hout]
            exact timerAfter_create running l t
        | cons m' ms => exact htimer _ (List.cons_ne_nil _ _)
    · -- the station is given up
      obtain ⟨hout, hsm, -⟩ :=
        timeout_last (w := { w with mallocs := m, out := [] }) h hstarted hvalid hloop hctr
      rw [← hv] at hout hsm
      have hbound : pairwiseUpdateCount = 4 := rfl
      have hnot : v.sm.started = false := by rw [hsm]; rfl
      obtain ⟨hsm', hout'⟩ := run_timeouts_idle (w := { v with out := [] }) hnot ms
      have hmax : max 1 (5 - w.sm.timeoutCtr) = 1 := by omega
      rw [hmax, hout', hout, hsm', List.append_nil, List.nil_append]
      have hlast : ∀ running, timerAfter running
          [.setAuthorized false, .cancelTimer, .deauth, .setAuthorized false, .cancelTimer]
          = false := fun running => rfl
      refine ⟨⟨fun hs => absurd (hs.symm.trans hnot) (by decide), fun hlt => by omega⟩,
        ⟨fun _ => Nat.le_add_left 1 _, fun _ => .tail _ (.tail _ (.head _))⟩, fun running _ => ?_⟩
      rw [hlast]
      exact ⟨fun ht => (by cases ht), fun hlt => by omega⟩

/-- Between two events the authenticator waits in these states with a station and without a
frame. -/
theorem Inv.owed {m2 : List UInt8 → Octets 32 → Prop} {m4 : List UInt8 → Ptk → Prop}
    (h : Inv m2 m4 w) (hrests : Rests w) (hstate : w.sm.state ∈ waiting) :
    Owed w.sm ∧ w.sm.started = true ∧ w.valid = true := by
  have hstarted : w.sm.started = true := by
    by_contra hnot
    rw [(h.idle (Bool.eq_false_of_not_eq_true hnot)).1] at hstate
    exact absurd hstate (by decide)
  obtain ⟨hinit, hdeauth, hauth⟩ := hrests.request
  exact ⟨⟨hstate, ⟨hinit, h.never.1, hdeauth, hauth, h.never.2.1⟩, hrests.received,
    hrests.unverified⟩, hstarted, (h.entry hstarted).1⟩

/-- Two state machines wait for the same. -/
def SameWait (sm sm' : Sm) : Prop := sm'.state = sm.state ∧ sm'.timeoutEvt = sm.timeoutEvt

/-- Behind an event the state machine rests, or what it waits for is as before, or there is no
handshake. -/
def Settled (w : World) (sm' : Sm) : Prop :=
  AtRest sm' ∨ SameWait w.sm sm' ∨ sm'.state = .ptkInitialize

theorem Settled.free (h : Settled w w'.sm) : Settled w (apStaInfoFree w').sm := by
  rw [apStaInfoFree]
  split
  · exact .inr (.inr rfl)
  · exact h

theorem acceptFrame_settled (hwait : SameWait w.sm w'.sm) (hloop : w'.sm.inStepLoop = false) :
    Settled w (acceptFrame w' data).sm := by
  rw [acceptFrame]
  split
  · exact .inr (.inl hwait)
  · exact .inl (atRest_wpaSmStep hloop)

theorem receive_settled (hrests : Rests w) (data : List UInt8) :
    Settled w (wpaReceive w data).sm := by
  cases hacc : accepts w data with
  | true =>
    have hstarted : (verified (w.emit .cancelTimer).malloc.2).sm.started = true :=
      (accepts_checks hacc).1.2.1
    rw [wpaReceive_of_accepts hacc, handedOn]
    split
    · rcases processRequest_cases (verified (w.emit .cancelTimer).malloc.2).sm data hstarted with
        heq | heq <;> rw [World.mapSm, heq] <;>
        exact acceptFrame_settled ⟨rfl, rfl⟩ hrests.loop
    · exact acceptFrame_settled ⟨rfl, rfl⟩ hrests.loop
  | false =>
    rcases wpaReceive_of_not_accepts hacc with ⟨-, hsm⟩ | ⟨-, -, heq⟩
    · rw [hsm]
      exact .inr (.inl ⟨rfl, rfl⟩)
    · rw [heq, wpaStaDisconnect_sm]
      split
      · exact .inr (.inr rfl)
      · exact .inr (.inl ⟨rfl, rfl⟩)

theorem handle_settled (hrests : Rests w) (i : Input) : Settled w (handle w i).sm := by
  have hsame : Settled w w.sm := .inr (.inl ⟨rfl, rfl⟩)
  cases i with
  | assoc addr check =>
    show Settled w (handleAssoc w addr check).sm
    simp only [handleAssoc]
    split
    · rw [letIn_sm]
      show Settled w (wpaAuthStaNoWpa w.sm)
      rw [wpaAuthStaNoWpa]
      split
      · exact hsame
      · exact .inr (.inl ⟨rfl, rfl⟩)
    · cases check with
      | missing => exact (show Settled w { w with valid := true }.sm from hsame).free
      | refused => exact Settled.free (.inr (.inr rfl))
      | accepted ie =>
        rw [letIn_sm]
        exact .inr (.inr rfl)
  | added =>
    show Settled w (start4wayHandshake w).sm
    rw [start4wayHandshake]
    split
    case isFalse => exact hsame
    case isTrue =>
      rw [process4WaysStart]
      split
      case isFalse => exact hsame
      case isTrue =>
        rw [if_neg (show ¬ w.reassoc = true by rw [hrests.reassoc]; exact Bool.false_ne_true)]
        show Settled w (wpaAuthStaAssociated { w with addStaFlag := true }).sm
        rw [wpaAuthStaAssociated]
        split
        · exact hsame
        split
        · exact .inl (atRest_wpaSmStep hrests.loop)
        · have hinit := wpaSmStep_init (w := World.mapSm { w with addStaFlag := true } fun sm =>
            { sm with started := true, init := true }) rfl hrests.loop rfl
          rw [hinit]
          exact .inl (atRest_wpaSmStep hrests.loop)
  | receive data => exact receive_settled hrests data
  | timeout =>
    show Settled w (wpaSendEapolTimeout w).sm
    rw [wpaSendEapolTimeout]
    split
    · exact hsame
    · exact .inl (atRest_wpaSmStep hrests.loop)
  | deauth =>
    show Settled w (rxDeauth w).sm
    rw [rxDeauth]
    split
    · exact hsame
    refine Settled.free ?_
    split
    · rw [wpaAuthSmEvent]
      split
      · exact hsame
      · refine .inl (atRest_wpaSmStep ?_)
        rw [wpaRemovePtk_sm]
        exact hrests.loop
    · exact hsame
  | free => exact hsame.free
  | pmk psk | other => exact hsame

/-- In `PTKSTART`, no timeout is left between two events. -/
theorem no_timeout_of_run (auth : Auth) (hpsk : auth.confWpaKeyMgmt = Ap.keyMgmtPsk)
    (is : List (Input × List Bool))
    (hstate : (Machine.run step (World.start auth) is).1.sm.state = .ptkStart) :
    (Machine.run step (World.start auth) is).1.sm.timeoutEvt = false := by
  induction is using List.reverseRecOn with
  | nil => rfl
  | append_singleton is i ih =>
    obtain ⟨hinv, hrests⟩ := inv_of_run auth hpsk (is ++ [i])
    have hstep : (Machine.run step (World.start auth) (is ++ [i])).1
        = (step (Machine.run step (World.start auth) is).1 i).1 := by
      rw [Machine.run_append]
      rfl
    obtain ⟨-, hbefore⟩ := inv_of_run auth hpsk is
    have hsettled := handle_settled (w := { (Machine.run step (World.start auth) is).1 with
      mallocs := i.2, out := [] }) (hbefore.of_same rfl rfl rfl rfl) i.1
    obtain ⟨howed, hstarted, -⟩ := hinv.owed hrests (by rw [hstate]; decide)
    rw [hstep] at hstate howed hstarted ⊢
    rcases hsettled with hrest | ⟨hs, hevt⟩ | hs
    · rcases hrest with hnot | hinit | hnone
      · exact absurd (hnot.symm.trans hstarted) (by decide)
      · exact absurd (hinit.symm.trans howed.request.1) (by decide)
      · have hnext : nextState (step (Machine.run step (World.start auth) is).1 i).1.sm = none :=
          hnone
        rw [howed.nextState] at hnext
        split_ifs at hnext with h1 h2 h3
        exact Bool.eq_false_of_not_eq_true h3
    · exact hevt.trans (ih (hs.symm.trans hstate))
    · exact absurd (hs.symm.trans hstate) (by decide)

/-- With the first entry used, no frame but a request gets past its header. -/
theorem wpaReceive_stuck (hused : w.sm.keyReplay.1.valid = false)
    (hrequest : (frameKeyInfo data).testBit KeyInfo.request = false) :
    wpaReceive w data = w ∨ wpaReceive w data = w.emit .cancelTimer := by
  rcases wpaReceive_cases w data with heq | heq | ⟨-, -, hfits, -⟩
  · exact .inl heq
  · exact .inr heq
  · have hvalid := (headerFits_counter hfits).1 hrequest
    rw [wpaReplayCounterValid, Sm.replays, List.takeWhile_cons_of_neg (by rw [hused]; decide)]
      at hvalid
    cases hvalid

/-- Frames that come, with the answers of the memory. -/
def receives (frames : List (List UInt8 × List Bool)) : List (Input × List Bool) :=
  frames.map fun f => (.receive f.1, f.2)

theorem run_stuck (hused : w.sm.keyReplay.1.valid = false) (frames : List (List UInt8 × List Bool))
    (hframes : ∀ f ∈ frames, (frameKeyInfo f.1).testBit KeyInfo.request = false) :
    (Machine.run step w (receives frames)).1.sm = w.sm ∧
      ∀ o ∈ (Machine.run step w (receives frames)).2, o = .cancelTimer := by
  induction frames generalizing w with
  | nil => exact ⟨rfl, fun o ho => absurd ho List.not_mem_nil⟩
  | cons f frames ih =>
    obtain ⟨v, hv⟩ : ∃ v, v = wpaReceive { w with mallocs := f.2, out := [] } f.1 := ⟨_, rfl⟩
    have hstep : step w (.receive f.1, f.2) = ({ v with out := [] }, v.out) := by
      rw [hv]
      rfl
    have hv' : v.sm = w.sm ∧ ∀ o ∈ v.out, o = .cancelTimer := by
      rcases wpaReceive_stuck (w := { w with mallocs := f.2, out := [] }) hused
        (hframes f List.mem_cons_self) with heq | heq <;> rw [hv, heq]
      · exact ⟨rfl, fun o ho => absurd ho List.not_mem_nil⟩
      · exact ⟨rfl, fun o ho => List.mem_singleton.mp ho⟩
    obtain ⟨hsm, hout⟩ := ih (w := { v with out := [] }) (by rw [hv'.1]; exact hused)
      fun f' hf' => hframes f' (List.mem_cons_of_mem _ hf')
    rw [receives, List.map_cons, Machine.run_cons, hstep, ← receives]
    refine ⟨hsm.trans hv'.1, fun o ho => ?_⟩
    rcases List.mem_append.mp ho with ho | ho
    · exact hv'.2 o ho
    · exact hout o ho

theorem timerAfter_cancel {out : List Output} (hne : out ≠ []) (hout : ∀ o ∈ out, o = .cancelTimer)
    (running : Bool) : timerAfter running out = false := by
  have hreplicate := List.eq_replicate_iff.mpr ⟨rfl, hout⟩
  obtain ⟨n, hn⟩ : ∃ n, out.length = n + 1 :=
    ⟨out.length - 1, by have := List.length_pos_iff.mpr hne; omega⟩
  rw [hreplicate, hn, List.replicate_succ', timerAfter_append]
  rfl

theorem frameMsg_pairwise2 (h : frameMsg data = .pairwise2) :
    (frameKeyInfo data).testBit KeyInfo.request = false ∧
      (frameKeyInfo data).testBit KeyInfo.keyType = true := by
  rw [frameMsg] at h
  split_ifs at h with h1 h2 h3 h4
  rw [Bool.not_eq_true', Bool.not_eq_false] at h3
  exact ⟨Bool.eq_false_of_not_eq_true h2, h3⟩

/-- A message 2 that is accepted, but is not verified with the key that is made from it. -/
theorem step_wrong_key {m2 : List UInt8 → Octets 32 → Prop} {m4 : List UInt8 → Ptk → Prop}
    (hinv : Inv m2 m4 w) (hrests : Rests w) (hstate : w.sm.state = .ptkStart)
    (hevt : w.sm.timeoutEvt = false) (hacc : Accepts w (.receive data, []) data)
    (hmsg : frameMsg data = .pairwise2)
    (hmic : wpaVerifyKeyMic (wpaDerivePtk w.sm.pairwise w.auth.psk w.auth.ownAddr w.sm.addr
      w.sm.aNonce (frameNonce data)) data = false) :
    (step w (.receive data, [])).1.sm.state = .ptkCalcNegotiating ∧
      (step w (.receive data, [])).1.sm.keyReplay.1.valid = false ∧
      (step w (.receive data, [])).2 = [.cancelTimer] := by
  obtain ⟨howed, hstarted, -⟩ := hinv.owed hrests (by rw [hstate]; decide)
  obtain ⟨h1, h2, h3, h4, h5⟩ := howed.request
  have hask : w.sm.ptkRequest = false :=
    Bool.eq_false_of_not_eq_true fun hr => (hinv.asked hr).1 hstate
  have hkey : w.sm.ptkValid = false := hinv.noKey (.inr (.inl (by rw [hstate]; decide)))
  have hpsk : w.sm.wpaKeyMgmt = Ap.keyMgmtPsk := hinv.mgmt (.inr (.inl hstate))
  obtain ⟨hrequest, htype⟩ := frameMsg_pairwise2 hmsg
  obtain ⟨-, haccept⟩ := hacc
  -- the frame that is handed on
  obtain ⟨v, hv⟩ : ∃ v : World, v = { w with
      mallocs := [], out := [.cancelTimer]
      sm := takeFrame { w.sm with
        micVerified := false, keyReplay := (⟨w.sm.keyReplay.1.counter, false⟩, w.sm.keyReplay.2) }
        data } := ⟨_, rfl⟩
  have hreceive : wpaReceive { w with mallocs := [], out := [] } data = wpaSmStep v := by
    rw [wpaReceive_of_accepts haccept, handedOn,
      if_neg (by rw [hrequest]; exact Bool.false_ne_true), acceptFrame_eq rfl, hv]
    simp only [verified, replayUsed, World.emit, World.malloc, hkey, Bool.false_eq_true, if_false,
      List.append_nil, List.nil_append, List.tail_nil]
  have hreceived : v.sm.pairwiseReceived = true := by
    rw [hv]
    simp only [Sm.pairwiseReceived, takeFrame, hrequest, htype, Bool.not_false, Bool.and_self]
  have hnext : nextState (looping v).sm = some .ptkCalcNegotiating := by
    have hnext' : nextState v.sm = some .ptkCalcNegotiating := by
      have hflags : v.sm.init = false ∧ v.sm.disconnect = false ∧
          v.sm.deauthenticationRequest = false ∧ v.sm.authenticationRequest = false ∧
          v.sm.reAuthenticationRequest = false ∧ v.sm.ptkRequest = false := by
        rw [hv]
        exact ⟨h1, h2, h3, h4, h5, hask⟩
      obtain ⟨f1, f2, f3, f4, f5, f6⟩ := hflags
      have hvstate : v.sm.state = .ptkStart := by
        rw [hv]
        exact hstate
      rw [nextState, f1, f2, f3, f4, f5, f6, localState, hvstate]
      simp only [Bool.false_eq_true, if_false, hreceived, if_true]
    exact hnext'
  have hderived : derivedPtk (cleared (looping v)) = wpaDerivePtk w.sm.pairwise w.auth.psk
      w.auth.ownAddr w.sm.addr w.sm.aNonce (frameNonce data) := by
    have hmgmt : (cleared (looping v)).sm.wpaKeyMgmt = Ap.keyMgmtPsk := by
      rw [hv]
      exact hpsk
    rw [derivedPtk, if_pos hmgmt, hv]
    rfl
  have hlast : (cleared (looping v)).sm.lastRxEapolKey = data := by
    rw [hv]
    rfl
  have henter : smEnter .ptkCalcNegotiating (cleared (looping v)) = { looping v with
      sm := { (looping v).sm with
        state := .ptkCalcNegotiating, changed := true, eapolKeyReceived := false } } := by
    rw [smEnter, enterPtkCalcNegotiating_eq, hderived, hlast, if_neg (by rw [hmic]; decide)]
    rfl
  have hrest : nextState (smEnter .ptkCalcNegotiating (cleared (looping v))).sm = none := by
    have hcalc : Owed (smEnter .ptkCalcNegotiating (cleared (looping v))).sm := by
      rw [henter, hv]
      exact ⟨.tail _ (.head _), ⟨h1, h2, h3, h4, h5⟩, rfl, fun _ => rfl⟩
    have hask' : ¬ (smEnter .ptkCalcNegotiating (cleared (looping v))).sm.ptkRequest = true := by
      rw [henter, hv]
      show ¬ w.sm.ptkRequest = true
      rw [hask]
      decide
    have hevt' : ¬ (smEnter .ptkCalcNegotiating (cleared (looping v))).sm.timeoutEvt = true := by
      rw [henter, hv]
      show ¬ w.sm.timeoutEvt = true
      rw [hevt]
      decide
    have hcalc' : (smEnter .ptkCalcNegotiating (cleared (looping v))).sm.state
        = .ptkCalcNegotiating := by rw [henter]
    rw [hcalc.nextState, if_neg hask', if_neg (fun h => h.1 hcalc'), if_neg hevt']
  have hvstarted : v.sm.started = true := by
    rw [hv]
    exact hstarted
  have hvloop : v.sm.inStepLoop = false := by
    rw [hv]
    exact hrests.loop
  have hpasses : Loops.passes smPass passBound (looping v)
      = some (cleared (smEnter .ptkCalcNegotiating (cleared (looping v)))) := by
    rw [show passBound = 126 + 1 + 1 from rfl,
      passes_enter (w := looping v) .ptkCalcNegotiating _ hvstarted hnext rfl (by rw [henter]),
      passes_rest _ (by rw [henter]; exact hvstarted) hrest]
  have hstep : step w (.receive data, [])
      = ({ wpaSmStep v with out := [] }, (wpaSmStep v).out) := by
    rw [← hreceive]
    rfl
  rw [hstep, wpaSmStep_of_passes hvstarted hvloop hpasses, henter, hv]
  exact ⟨rfl, rfl, rfl⟩

/-- An integrity code that differs in every byte. -/
def spoiled (mic : Octets 16) : Octets 16 :=
  ⟨mic.1.map (· + 1), by rw [List.length_map, mic.2]⟩

theorem spoiled_ne (mic : Octets 16) : mic ≠ spoiled mic := by
  intro heq
  obtain ⟨l, hl⟩ := mic
  cases l with
  | nil => cases hl
  | cons b l =>
    have hhead : b = b + 1 := (List.cons.inj (congrArg Subtype.val heq)).1
    have hnat := congrArg UInt8.toNat hhead
    rw [UInt8.toNat_add] at hnat
    have hb := b.toNat_lt
    rw [show (1 : UInt8).toNat = 1 from rfl] at hnat
    omega

end Fullmac.Wpa
