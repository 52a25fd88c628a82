import Fullmac.Lib.Numerals
import Fullmac.Wpa.Safety

/-!
# No key frame counts twice

Reference: `host/ap/wpa_auth.c`, `wpa_receive`, `wpa_replay_counter_valid`, `__wpa_send_eapol`;
`host/ap/common/wpa_common.c`, `inc_byte_array`; `host/lib/ssv_lib.c`, `ssv6xxx_memcmp`.

Between two association requests the frames that are accepted have larger and larger replay counters
(`replayCounter_lt_of_accepts`): the answers to what was sent among themselves, and so the requests.
For the answers this is a matter of the entries of `key_replay`, which move with every frame that is
sent; so the counter must not have come round.
-/

namespace Fullmac.Wpa

/-! ## Counters as numbers -/

/-- The value of a counter, its first byte the highest. -/
def counterValue {n : ℕ} (c : Octets n) : ℕ := Numerals.value 256 (c.1.map UInt8.toNat)

theorem ofDigits_incBytes (bs : List UInt8) :
    Nat.ofDigits 256 ((incBytes bs).map UInt8.toNat)
      = (Nat.ofDigits 256 (bs.map UInt8.toNat) + 1) % 256 ^ bs.length := by
  induction bs with
  | nil => rfl
  | cons b bs ih =>
    have hb : b.toNat < 256 := b.toNat_lt
    have hadd : (b + 1).toNat = (b.toNat + 1) % 256 := by
      rw [UInt8.toNat_add]
      rfl
    have hlt : Nat.ofDigits 256 (bs.map UInt8.toNat) < 256 ^ bs.length := by
      have hlen := Nat.ofDigits_lt_base_pow_length (b := 256) (l := bs.map UInt8.toNat) (by decide)
        fun d hd => by
          obtain ⟨e, -, rfl⟩ := List.mem_map.mp hd
          exact e.toNat_lt
      rwa [List.length_map] at hlen
    rw [incBytes, List.length_cons, Nat.pow_succ', List.map_cons, Nat.ofDigits_cons]
    split
    case isTrue hzero =>
      have hmax : b.toNat = 255 := by
        rw [hzero, show (0 : UInt8).toNat = 0 from rfl] at hadd
        omega
      rw [List.map_cons, Nat.ofDigits_cons, ih, hmax, show (0 : UInt8).toNat = 0 from rfl,
        Nat.zero_add, ← Nat.mul_mod_mul_left]
      congr 1
      omega
    case isFalse hnot =>
      have hne : (b + 1).toNat ≠ 0 := fun h => hnot (UInt8.toNat_inj.mp h)
      have hsmall : (b + 1).toNat = b.toNat + 1 := by omega
      rw [List.map_cons, Nat.ofDigits_cons, hsmall, Nat.mod_eq_of_lt (by omega)]
      omega

theorem counterValue_incByteArray {n : ℕ} (c : Octets n) (h : counterValue c + 1 < 256 ^ n) :
    counterValue (incByteArray c) = counterValue c + 1 := by
  have hinc := ofDigits_incBytes c.1.reverse
  have hvalue : counterValue c = Nat.ofDigits 256 (c.1.reverse.map UInt8.toNat) := by
    rw [counterValue, Numerals.value, List.map_reverse]
  rw [List.length_reverse, c.2, ← hvalue, Nat.mod_eq_of_lt h] at hinc
  rw [← hinc, counterValue, Numerals.value, incByteArray, ← List.map_reverse, List.reverse_reverse]

theorem counterValue_zero (n : ℕ) : counterValue (Octets.zero n) = 0 := by
  rw [counterValue, Octets.zero, List.map_replicate]
  induction n with
  | zero => rfl
  | succ n ih =>
    rw [List.replicate_succ, Numerals.value_cons, ih]
    exact Nat.zero_mul _

/-- `ssv6xxx_memcmp` compares the values. -/
theorem counterValue_lt_of_memcmp {n : ℕ} {a b : Octets n} (h : 0 < memcmp b.1 a.1) :
    counterValue a < counterValue b := by
  obtain ⟨a, ha⟩ := a
  obtain ⟨b, hb⟩ := b
  change Numerals.value 256 (a.map UInt8.toNat) < Numerals.value 256 (b.map UInt8.toNat)
  replace h : 0 < memcmp b a := h
  subst ha
  induction a generalizing b with
  | nil => cases b <;> cases h
  | cons x a ih =>
    cases b with
    | nil => cases h
    | cons y b =>
      have hlen : b.length = a.length := Nat.succ.inj hb
      rw [memcmp] at h
      split at h
      case isTrue hxy =>
        have hrest := ih b h hlen
        rw [List.map_cons, List.map_cons, Numerals.value_cons, Numerals.value_cons, hxy,
          List.length_map, List.length_map, hlen]
        omega
      case isFalse =>
        refine Numerals.value_cons_lt ?_ (fun e he => ?_) (by omega)
        · rw [List.length_map, List.length_map, hlen]
        · obtain ⟨c, -, rfl⟩ := List.mem_map.mp he
          exact c.toNat_lt

variable {w w' : World} {sm sm' : Sm} {data : List UInt8} {N K v : ℕ} {floor : Option ℕ}

/-! ## What has been passed -/

/-- A state machine whose frames so far had at most the counter `N`, and that has passed `v`: only
counters above it are still taken. `floor` is the counter of a request, if one has been passed. -/
structure Passed (N v : ℕ) (floor : Option ℕ) (sm : Sm) : Prop where
  bound : counterValue sm.keyReplay.1.counter ≤ N
  top : ∀ r ∈ sm.replays, counterValue r.counter ≤ counterValue sm.keyReplay.1.counter
  past : v ≤ counterValue sm.keyReplay.1.counter ∧
    ∀ r ∈ sm.replays.takeWhile (·.valid), v < counterValue r.counter
  request : ∀ u ∈ floor, sm.reqReplayCounterUsed = true ∧ u ≤ counterValue sm.reqReplayCounter ∧
    sm.authenticationRequest = false ∧ sm.reAuthenticationRequest = false ∧
    sm.state ≠ .authentication ∧ sm.state ≠ .authentication2

/-- What `Passed` says of requests has not changed. -/
def SameRequests (sm sm' : Sm) : Prop :=
  sm'.reqReplayCounterUsed = sm.reqReplayCounterUsed ∧ sm'.reqReplayCounter = sm.reqReplayCounter ∧
    sm'.authenticationRequest = sm.authenticationRequest ∧
    sm'.reAuthenticationRequest = sm.reAuthenticationRequest

theorem Passed.of_same (h : Passed N v floor sm) (hreplay : sm'.keyReplay = sm.keyReplay)
    (hrequest : ∀ u ∈ floor, SameRequests sm sm' ∧ sm'.state ≠ .authentication ∧
      sm'.state ≠ .authentication2) : Passed N v floor sm' := by
  have hreplays : sm'.replays = sm.replays := by rw [Sm.replays, hreplay, Sm.replays]
  refine ⟨?_, ?_, ?_, fun u hu => ?_⟩
  · rw [hreplay]
    exact h.bound
  · rw [hreplays, hreplay]
    exact h.top
  · rw [hreplays, hreplay]
    exact h.past
  · obtain ⟨⟨h1, h2, h3, h4⟩, h5⟩ := hrequest u hu
    obtain ⟨hused, hle, hauth, hreauth, -⟩ := h.request u hu
    rw [h1, h2, h3, h4]
    exact ⟨hused, hle, hauth, hreauth, h5⟩

/-- Less is passed, too. -/
theorem Passed.mono (h : Passed N v floor sm) (hle : N ≤ K) {u : ℕ} {ground : Option ℕ} (hu : u ≤ v)
    (hground : ∀ a ∈ ground, ∃ b ∈ floor, a ≤ b) : Passed K u ground sm := by
  refine ⟨h.bound.trans hle, h.top, ⟨hu.trans h.past.1, fun r hr => ?_⟩, fun a ha => ?_⟩
  · exact Nat.lt_of_le_of_lt hu (h.past.2 r hr)
  · obtain ⟨b, hb, hab⟩ := hground a ha
    obtain ⟨hused, hle, hrest⟩ := h.request b hb
    exact ⟨hused, hab.trans hle, hrest⟩

/-- Before the first frame nothing has been passed. -/
theorem Passed.of_zero (N : ℕ) (h : sm.keyReplay = Sm.zero.keyReplay) : Passed N 0 none sm := by
  have hreplays : sm.replays = Sm.zero.replays := by rw [Sm.replays, h, Sm.replays]
  have hzero : counterValue Sm.zero.keyReplay.1.counter = 0 := counterValue_zero 8
  refine ⟨?_, ?_, ⟨Nat.zero_le _, ?_⟩, fun u hu => by cases hu⟩
  · rw [h, hzero]
    exact Nat.zero_le N
  · rw [hreplays, h, hzero]
    intro r hr
    have hr' : r ∈ List.replicate 4 (⟨.zero 8, false⟩ : Replay) := hr
    rw [List.eq_of_mem_replicate hr', counterValue_zero]
  · rw [hreplays]
    exact fun r hr => absurd hr List.not_mem_nil

/-- A frame is sent. -/
theorem Passed.shift (h : Passed N v floor sm) (hN : N + 1 < 256 ^ 8) :
    Passed (N + 1) v floor { sm with keyReplay := shiftReplay sm.keyReplay } := by
  obtain ⟨hpast, htaken⟩ := h.past
  have hbound := h.bound
  have hinc := counterValue_incByteArray sm.keyReplay.1.counter (by omega)
  have hfirst : counterValue (shiftReplay sm.keyReplay).1.counter
      = counterValue sm.keyReplay.1.counter + 1 := hinc
  refine ⟨?_, ?_, ⟨?_, ?_⟩, h.request⟩
  · show counterValue (shiftReplay sm.keyReplay).1.counter ≤ N + 1
    omega
  · intro r hr
    show counterValue r.counter ≤ counterValue (shiftReplay sm.keyReplay).1.counter
    rcases List.mem_cons.mp hr with rfl | hr
    · exact Nat.le_refl _
    · have hold := h.top r (List.mem_append_left [sm.keyReplay.2.2.2] hr)
      omega
  · show v ≤ counterValue (shiftReplay sm.keyReplay).1.counter
    omega
  · intro r hr
    have hcons : r ∈ (shiftReplay sm.keyReplay).1 ::
        [sm.keyReplay.1, sm.keyReplay.2.1, sm.keyReplay.2.2.1].takeWhile (·.valid) := hr
    rcases List.mem_cons.mp hcons with rfl | hr
    · omega
    · refine htaken r ?_
      show r ∈ ([sm.keyReplay.1, sm.keyReplay.2.1, sm.keyReplay.2.2.1] ++
        [sm.keyReplay.2.2.2]).takeWhile (·.valid)
      rw [List.takeWhile_append]
      split
      · exact List.mem_append_left _ (List.takeWhile_subset _ hr)
      · exact hr

/-- The first entry is used. -/
theorem Passed.use (h : Passed N v floor sm) {u : ℕ}
    (hu : u ≤ counterValue sm.keyReplay.1.counter) : Passed N u floor
      { sm with keyReplay := (⟨sm.keyReplay.1.counter, false⟩, sm.keyReplay.2) } := by
  refine ⟨h.bound, fun r hr => ?_, ⟨hu, fun r hr => absurd hr List.not_mem_nil⟩, h.request⟩
  rcases List.mem_cons.mp hr with rfl | hr
  · exact Nat.le_refl _
  · exact h.top r (List.mem_cons_of_mem _ hr)

/-! ## The loop -/

/-- The states that forget the counter of a request, or lead there. -/
def forgetting : List PtkState := [.authentication, .authentication2, .initPmk, .initPsk]

/-- Entering a state ends the station, or it sends at most one frame, and but for a new
authentication the counter of a request stays. -/
theorem smEnter_replay (next : PtkState) (w : World) : (smEnter next w).sm = .zero ∨
    ((smEnter next w).sm.keyReplay = w.sm.keyReplay ∨
      (smEnter next w).sm.keyReplay = shiftReplay w.sm.keyReplay) ∧
    (smEnter next w).sm.init = w.sm.init ∧ (smEnter next w).sm.state = next ∧
    (next ∉ forgetting → SameRequests w.sm (smEnter next w).sm) := by
  cases next
  case ptkInitialize =>
    rw [smEnter, enterInitialize_sm]
    exact .inr ⟨.inl rfl, rfl, rfl, fun _ => ⟨rfl, rfl, rfl, rfl⟩⟩
  case disconnect =>
    rw [smEnter, enterDisconnect_sm]
    split
    · exact .inl rfl
    · exact .inr ⟨.inl rfl, rfl, rfl, fun _ => ⟨rfl, rfl, rfl, rfl⟩⟩
  case ptkStart =>
    have hs := enterPtkStart_sends w
    refine .inr ⟨hs.replay, ?_⟩
    rw [smEnter, hs.sm]
    exact ⟨rfl, rfl, fun _ => ⟨rfl, rfl, rfl, rfl⟩⟩
  case ptkCalcNegotiating =>
    rw [smEnter, enterPtkCalcNegotiating_eq]
    split <;> exact .inr ⟨.inl rfl, rfl, rfl, fun _ => ⟨rfl, rfl, rfl, rfl⟩⟩
  case ptkInitNegotiating =>
    have hs := enterPtkInitNegotiating_sends w
    refine .inr ⟨hs.replay, ?_⟩
    rw [smEnter, hs.sm]
    exact ⟨rfl, rfl, fun _ => ⟨rfl, rfl, rfl, rfl⟩⟩
  case ptkInitDone =>
    rw [smEnter, enterPtkInitDone_eq]
    exact .inr ⟨.inl rfl, rfl, rfl, fun _ => ⟨rfl, rfl, rfl, rfl⟩⟩
  case authentication | authentication2 | initPmk | initPsk =>
    exact .inr ⟨.inl rfl, rfl, rfl, fun h => absurd h (by decide)⟩
  case disconnected | ptkCalcNegotiating2 =>
    exact .inr ⟨.inl rfl, rfl, rfl, fun _ => ⟨rfl, rfl, rfl, rfl⟩⟩

/-- No station, or one whose handshake has not begun. -/
def Idle (sm : Sm) : Prop := sm.started = false ∧ sm.keyReplay = Sm.zero.keyReplay

/-- In the loop: with every pass there are fewer frames that may still be sent. -/
def Turning (K v : ℕ) (floor : Option ℕ) (w : World) : Prop :=
  Idle w.sm ∨ w.sm.init = false ∧ ∃ N, N + measure w.sm ≤ K ∧ Passed N v floor w.sm

theorem Turning.ignoresLoop : IgnoresLoop (Turning K v floor) := fun _ _ _ _ h =>
  h.imp id fun ⟨hinit, N, hle, h⟩ => ⟨hinit, N, hle, h.bound, h.top, h.past, h.request⟩

/-- With the counter of a request, no state is entered that forgets it. -/
theorem Passed.not_forgetting {u : ℕ} (h : Passed N v (some u) sm) {next : PtkState}
    (henabled : Enabled sm next) : next ∉ forgetting := by
  obtain ⟨-, -, hauth, hreauth, hstate, hstate2⟩ := h.request u rfl
  intro hin
  have hcases : next = .authentication ∨ next = .authentication2 ∨ next = .initPmk ∨
      next = .initPsk := by simpa [forgetting] using hin
  rcases hcases with rfl | rfl | rfl | rfl
  · exact absurd (hauth.symm.trans henabled) (by decide)
  · rcases henabled with hs | hs
    · exact absurd (hreauth.symm.trans hs) (by decide)
    · exact hstate hs
  · exact hstate2 henabled
  · exact hstate2 henabled.1

theorem Turning.enter (hK : K < 256 ^ 8) (h : Turning K v floor w)
    (hstarted : w.sm.started = true) {next : PtkState} (hnext : nextState w.sm = some next) :
    Turning K v floor (smEnter next w) := by
  rcases h with ⟨hidle, -⟩ | ⟨hinit, N, hle, h⟩
  · exact absurd (hstarted.symm.trans hidle) (by decide)
  have henabled := enabled_of_nextState hinit hnext
  rcases smEnter_replay next w with hzero | ⟨hreplay, hinit', hstate, hrequest⟩
  · exact .inl (by rw [hzero]; exact ⟨rfl, rfl⟩)
  right
  rw [hinit] at hinit'
  have hless : measure (smEnter next w).sm < measure w.sm := by
    apply smEnter_measure henabled
    rcases smEnter_changed next w with hchanged | hi | hzero
    · exact hchanged
    · exact absurd (hi.symm.trans hinit') (by decide)
    · rw [hzero] at hstate
      have hentered : next = .ptkInitialize := hstate.symm
      rw [hentered, smEnter, enterInitialize_sm, hinit]
      rfl
  have hkeep : ∀ u ∈ floor, SameRequests w.sm (smEnter next w).sm ∧
      (smEnter next w).sm.state ≠ .authentication ∧
      (smEnter next w).sm.state ≠ .authentication2 := fun u hu => by
    cases hu
    have hnot := h.not_forgetting henabled
    refine ⟨hrequest hnot, ?_, ?_⟩ <;> rw [hstate] <;> rintro rfl <;> exact hnot (by decide)
  refine ⟨hinit', ?_⟩
  rcases hreplay with hreplay | hreplay
  · exact ⟨N, by omega, h.of_same hreplay hkeep⟩
  · exact ⟨N + 1, by omega, (h.shift (by omega)).of_same hreplay hkeep⟩

/-- What the loop sends is counted by the passes that it makes. -/
theorem Passed.loop (h : Passed N v floor w.sm) (hinit : w.sm.init = false)
    (hN : N + 127 < 256 ^ 8) :
    Idle (wpaSmStep w).sm ∨ Passed (N + 127) v floor (wpaSmStep w).sm := by
  have hmeasure : measure w.sm < 128 := measure_lt_passBound w.sm
  have hturning : Turning (N + 127) v floor w := .inr ⟨hinit, N, by omega, h⟩
  rcases wpaSmStep_induction Turning.ignoresLoop (fun _ _ h hs hn => h.enter hN hs hn) hturning
    with hidle | ⟨-, M, hle, h⟩
  · exact .inl hidle
  · exact .inr (h.mono (by omega) (Nat.le_refl v) fun a ha => ⟨a, ha, Nat.le_refl a⟩)

/-! ## Events -/

/-- Between two events: no station, or one that has passed so much; and while an association is
still to be answered nothing has been passed. -/
structure Counted (N v : ℕ) (floor : Option ℕ) (w : World) : Prop where
  sm : Idle w.sm ∨ Passed N v floor w.sm
  pending : w.assocRsp = true → v = 0 ∧ floor = none

theorem Counted.of_same (h : Counted N v floor w) (hreplay : w'.sm.keyReplay = w.sm.keyReplay)
    (hrequest : SameRequests w.sm w'.sm) (hstate : w'.sm.state = w.sm.state)
    (hstarted : w'.sm.started = w.sm.started) (hpending : w'.assocRsp = true → w.assocRsp = true) :
    Counted N v floor w' := by
  refine ⟨h.sm.imp (fun ⟨hs, hk⟩ => ⟨hstarted.trans hs, hreplay.trans hk⟩) fun hp => ?_,
    fun ha => h.pending (hpending ha)⟩
  refine hp.of_same hreplay fun u hu => ⟨hrequest, ?_⟩
  rw [hstate]
  exact (hp.request u hu).2.2.2.2

theorem Counted.mono (h : Counted N v floor w) (hle : N ≤ K) {u : ℕ} {ground : Option ℕ}
    (hu : u ≤ v) (hground : ∀ a ∈ ground, ∃ b ∈ floor, a ≤ b) : Counted K u ground w := by
  refine ⟨h.sm.imp_right fun hp => hp.mono hle hu hground, fun ha => ?_⟩
  obtain ⟨rfl, rfl⟩ := h.pending ha
  refine ⟨Nat.le_zero.mp hu, ?_⟩
  cases ground with
  | none => rfl
  | some a =>
    obtain ⟨b, hb, -⟩ := hground a rfl
    cases hb

theorem Counted.later (h : Counted N v floor w) : Counted (N + 127) v floor w :=
  h.mono (Nat.le_add_right N 127) (Nat.le_refl v) fun a ha => ⟨a, ha, Nat.le_refl a⟩

theorem wpaSmStep_assocRsp (w : World) :
    (wpaSmStep w).assocRsp = true → w.assocRsp = true := by
  refine wpaSmStep_induction (I := fun v => v.assocRsp = true → w.assocRsp = true)
    (fun _ _ _ _ h => h) (fun v next h _ _ => ?_) id
  rcases smEnter_frame next v with ⟨-, heq, -⟩ | ⟨-, heq, -⟩ <;> rw [heq]
  · exact h
  · exact fun ha => by cases ha

theorem Counted.loop (h : Counted N v floor w) (hinit : w.sm.init = false)
    (hN : N + 127 < 256 ^ 8) : Counted (N + 127) v floor (wpaSmStep w) := by
  refine ⟨?_, fun ha => h.pending (wpaSmStep_assocRsp w ha)⟩
  rcases h.sm with hidle | hp
  · left
    rw [wpaSmStep, if_pos (by rw [hidle.1]; rfl)]
    exact hidle
  · exact hp.loop hinit hN

theorem Counted.free (h : Counted N v floor w) : Counted N v floor (apStaInfoFree w) := by
  by_cases hvalid : w.valid = true
  · rw [apStaInfoFree, if_pos hvalid]
    exact ⟨.inl ⟨rfl, rfl⟩, fun ha => by cases ha⟩
  · rwa [apStaInfoFree, if_neg hvalid]

theorem Counted.accept (h : Counted N v floor w) (hinit : w.sm.init = false)
    (hN : N + 127 < 256 ^ 8) : Counted (N + 127) v floor (acceptFrame w data) := by
  rw [acceptFrame]
  split
  · refine Counted.later ?_
    exact h.of_same rfl ⟨rfl, rfl, rfl, rfl⟩ rfl rfl id
  · refine Counted.loop ?_ hinit hN
    exact h.of_same rfl ⟨rfl, rfl, rfl, rfl⟩ rfl rfl id

/-- An accepted frame that is no request passes its counter. -/
theorem Counted.answer (h : Counted N v floor w) (hinit : w.sm.init = false)
    (hacc : accepts w data = true) (hN : N + 127 < 256 ^ 8)
    (hrequest : (frameKeyInfo data).testBit KeyInfo.request = false)
    (hstarted : w.sm.started = true) (hpending : w.assocRsp = false) :
    v < counterValue (frameReplayCounter data) ∧
      Counted (N + 127) (counterValue (frameReplayCounter data)) floor (wpaReceive w data) := by
  have hp : Passed N v floor w.sm :=
    h.sm.resolve_left fun hidle => absurd (hstarted.symm.trans hidle.1) (by decide)
  have hfits := (headerFits_counter (accepts_checks hacc).2.1).1 hrequest
  obtain ⟨r, hr, hcounter⟩ := List.any_eq_true.mp hfits
  rw [decide_eq_true_eq] at hcounter
  have htop := hp.top r (List.takeWhile_subset _ hr)
  have hlt := hp.past.2 r hr
  rw [hcounter] at htop hlt
  refine ⟨hlt, ?_⟩
  rw [wpaReceive_of_accepts hacc, handedOn, if_neg (by rw [hrequest]; exact Bool.false_ne_true)]
  have hused : Passed N (counterValue (frameReplayCounter data)) floor
      (replayUsed (verified (w.emit .cancelTimer).malloc.2)).sm :=
    (hp.use htop).of_same rfl fun u hu => ⟨⟨rfl, rfl, rfl, rfl⟩, (hp.request u hu).2.2.2.2⟩
  refine Counted.accept ⟨.inr hused, fun ha => ?_⟩ hinit hN
  exact absurd (ha.symm.trans hpending) (by decide)

/-- An accepted request passes its counter. -/
theorem Counted.ask {m2 : List UInt8 → Octets 32 → Prop} {m4 : List UInt8 → Ptk → Prop}
    (h : Counted N v floor w) (hinv : Inv m2 m4 w) (hrests : Rests w)
    (hacc : accepts w data = true) (hN : N + 127 < 256 ^ 8)
    (hrequest : (frameKeyInfo data).testBit KeyInfo.request = true)
    (hstarted : w.sm.started = true) :
    (∀ u ∈ floor, u < counterValue (frameReplayCounter data)) ∧
      Counted (N + 127) v (some (counterValue (frameReplayCounter data))) (wpaReceive w data) := by
  have hp : Passed N v floor w.sm :=
    h.sm.resolve_left fun hidle => absurd (hstarted.symm.trans hidle.1) (by decide)
  obtain ⟨-, hfits, -, -, -, -, hvalid⟩ := accepts_checks hacc
  have hkey := hvalid hrequest
  refine ⟨fun u hu => ?_, ?_⟩
  · obtain ⟨hused, hle, -⟩ := hp.request u hu
    have hlt := counterValue_lt_of_memcmp ((headerFits_counter hfits).2 hrequest hused)
    omega
  · rw [wpaReceive_of_accepts hacc, handedOn, if_pos hrequest]
    have hstate : ∀ state ∈ keylessStates, w.sm.state ≠ state := fun state hin hs => by
      rw [hinv.noKey (.inr (.inl (by rw [hs]; exact hin)))] at hkey
      cases hkey
    have hasked : ∀ sm' : Sm, sm'.keyReplay = w.sm.keyReplay → sm'.reqReplayCounterUsed = true →
        sm'.reqReplayCounter = frameReplayCounter data →
        sm'.authenticationRequest = w.sm.authenticationRequest →
        sm'.reAuthenticationRequest = w.sm.reAuthenticationRequest →
        sm'.state = w.sm.state →
        Passed N v (some (counterValue (frameReplayCounter data))) sm' := by
      intro sm' hreplay hused hcounter hauth hreauth hs
      have hnone : Passed N v none w.sm := ⟨hp.bound, hp.top, hp.past, fun u hu => by cases hu⟩
      have hsame : Passed N v none sm' := hnone.of_same hreplay fun u hu => by cases hu
      refine ⟨hsame.bound, hsame.top, hsame.past, fun u hu => ?_⟩
      cases hu
      rw [hcounter, hauth, hreauth, hs]
      exact ⟨hused, Nat.le_refl _, hrests.request.2.2, hinv.never.2.1,
        hstate _ (by decide), hstate _ (by decide)⟩
    refine Counted.accept ⟨.inr ?_, fun ha => ?_⟩ ?_ hN
    · rcases processRequest_cases (verified (w.emit .cancelTimer).malloc.2).sm data hstarted with
        heq | heq <;> exact hasked _ (by rw [World.mapSm, heq]; rfl) (by rw [World.mapSm, heq])
          (by rw [World.mapSm, heq]) (by rw [World.mapSm, heq]; rfl) (by rw [World.mapSm, heq]; rfl)
          (by rw [World.mapSm, heq]; rfl)
    · exact absurd ((hrests.not_pending hstarted).symm.trans ha) (by decide)
    · rcases processRequest_cases (verified (w.emit .cancelTimer).malloc.2).sm data hstarted with
        heq | heq <;> rw [World.mapSm, heq] <;> exact hrests.request.1

/-- A frame of whatever kind. -/
theorem Counted.receive {m2 : List UInt8 → Octets 32 → Prop} {m4 : List UInt8 → Ptk → Prop}
    (h : Counted N v floor w) (hinv : Inv m2 m4 w) (hrests : Rests w) (hN : N + 127 < 256 ^ 8)
    (data : List UInt8) : Counted (N + 127) v floor (wpaReceive w data) := by
  cases hacc : accepts w data with
  | false =>
    rcases wpaReceive_of_not_accepts hacc with ⟨hassoc, hsm⟩ | ⟨hstarted, -, heq⟩
    · refine Counted.later (h.of_same ?_ ⟨?_, ?_, ?_, ?_⟩ ?_ ?_ fun ha => hassoc.symm.trans ha) <;>
        rw [hsm]
    · obtain ⟨hvalid, -⟩ := hinv.entry hstarted
      have hzero : (wpaReceive w data).sm = .zero := by
        rw [heq, wpaStaDisconnect_sm]
        exact if_pos hvalid
      refine ⟨.inl (by rw [hzero]; exact ⟨rfl, rfl⟩), fun ha => ?_⟩
      have hpending : (wpaStaDisconnect (w.emit .cancelTimer).malloc.2).assocRsp = false :=
        (wpaStaDisconnect_entry (w := (w.emit .cancelTimer).malloc.2) hvalid).1
      rw [heq, hpending] at ha
      cases ha
  | true =>
    have hstarted := (accepts_checks hacc).1.2.1
    cases hrequest : (frameKeyInfo data).testBit KeyInfo.request with
    | false =>
      obtain ⟨hlt, hnext⟩ := h.answer hrests.request.1 hacc hN hrequest hstarted
        (hrests.not_pending hstarted)
      exact hnext.mono (Nat.le_refl _) hlt.le fun a ha => ⟨a, ha, Nat.le_refl a⟩
    | true =>
      obtain ⟨hlt, hnext⟩ := h.ask hinv hrests hacc hN hrequest hstarted
      exact hnext.mono (Nat.le_refl _) (Nat.le_refl v) fun a ha => ⟨_, rfl, (hlt a ha).le⟩

theorem Counted.timeout (h : Counted N v floor w) (hrests : Rests w) (hN : N + 127 < 256 ^ 8) :
    Counted (N + 127) v floor (wpaSendEapolTimeout w) := by
  rw [wpaSendEapolTimeout]
  split
  · exact h.later
  · refine Counted.loop ?_ hrests.request.1 hN
    exact h.of_same rfl ⟨rfl, rfl, rfl, rfl⟩ rfl rfl id

/-- A handshake begins with nothing passed. -/
theorem Counted.associated (h : Counted N v floor w) (hrests : Rests w)
    (hassoc : w.assocRsp = true) (hconf : w.auth.confWpa ≠ 0) (hN : N + 127 < 256 ^ 8) :
    Counted (N + 127) v floor (wpaAuthStaAssociated w) := by
  obtain ⟨rfl, rfl⟩ := h.pending hassoc
  obtain ⟨hnot, -⟩ := hrests.pending hassoc
  have hpassed : Passed N 0 none w.sm := by
    rcases h.sm with ⟨-, hzero⟩ | hp
    · exact .of_zero N hzero
    · exact hp
  have heq := wpaSmStep_init (w := w.mapSm fun sm =>
    { sm with started := true, init := true }) rfl hrests.loop rfl
  rw [wpaAuthStaAssociated, if_neg hconf, if_neg (by rw [hnot]; exact Bool.false_ne_true), heq]
  refine Counted.loop ⟨.inr (hpassed.of_same rfl fun u hu => by cases hu), fun _ => ⟨rfl, rfl⟩⟩ rfl
    hN

theorem Counted.added (h : Counted N v floor w) (hrests : Rests w) (hN : N + 127 < 256 ^ 8) :
    Counted (N + 127) v floor (start4wayHandshake w) := by
  have hflag : Counted N v floor { w with addStaFlag := true } :=
    h.of_same rfl ⟨rfl, rfl, rfl, rfl⟩ rfl rfl id
  have hflagRests : Rests { w with addStaFlag := true } := hrests.of_same rfl rfl rfl rfl
  rw [start4wayHandshake]
  split
  case isFalse => exact hflag.later
  case isTrue hconf =>
    rw [process4WaysStart]
    split
    case isFalse => exact hflag.later
    case isTrue hflags =>
      have hconf' : w.auth.confWpa ≠ 0 := by
        have hconf' : w.auth.confWpa = 2 := hconf
        omega
      have hnext := hflag.associated hflagRests ((Bool.and_eq_true _ _).mp hflags).1 hconf' hN
      rw [if_neg (show ¬ w.reassoc = true by rw [hrests.reassoc]; exact Bool.false_ne_true)]
      exact ⟨hnext.sm, fun ha => by cases ha⟩

theorem Counted.deauth (h : Counted N v floor w) (hrests : Rests w) (hN : N + 127 < 256 ^ 8) :
    Counted (N + 127) v floor (rxDeauth w) := by
  rw [rxDeauth]
  split
  · exact h.later
  refine Counted.free ?_
  have hemit : Counted N v floor (w.emit (.setAuthorized false)) :=
    h.of_same rfl ⟨rfl, rfl, rfl, rfl⟩ rfl rfl id
  split
  · rw [wpaAuthSmEvent]
    split
    · exact hemit.later
    · show Counted (N + 127) v floor (wpaSmStep (wpaRemovePtk
        (((w.emit (.setAuthorized false)).mapSm fun sm =>
          { sm with deauthenticationRequest := true }).mapSm fun sm =>
          { sm with ptkValid := false, ptk := .zero })))
      rw [wpaRemovePtk_eq]
      refine Counted.loop ?_ hrests.request.1 hN
      exact hemit.of_same rfl ⟨rfl, rfl, rfl, rfl⟩ rfl rfl id
  · exact hemit.later

/-- An association request is answered: of what was passed before nothing is said. -/
theorem Counted.assoc (h : Counted N 0 none w) (addr : Octets 6) (check : AssocCheck) :
    Counted N 0 none (handleAssoc w addr check) := by
  have hzero : ∀ u : World, u.sm.keyReplay = Sm.zero.keyReplay → Counted N 0 none u := fun u hu =>
    ⟨.inr (.of_zero N hu), fun _ => ⟨rfl, rfl⟩⟩
  have hvalid : ∀ u : World, u.valid = true →
      (apStaInfoFree u).sm.keyReplay = Sm.zero.keyReplay := fun u hu => by
    rw [apStaInfoFree, if_pos hu]
  simp only [handleAssoc]
  split
  · refine ⟨?_, fun _ => ⟨rfl, rfl⟩⟩
    rw [letIn_sm]
    show Idle (wpaAuthStaNoWpa w.sm) ∨ Passed N 0 none (wpaAuthStaNoWpa w.sm)
    rw [wpaAuthStaNoWpa]
    split
    · exact h.sm
    · exact h.sm.imp (fun hidle => hidle) fun hp => hp.of_same rfl fun u hu => by cases hu
  · cases check with
    | missing => exact hzero _ (hvalid _ rfl)
    | refused => exact hzero _ (hvalid _ rfl)
    | accepted ie => exact hzero _ (by rw [letIn_sm])

/-- One event. -/
theorem Counted.handle {m2 : List UInt8 → Octets 32 → Prop} {m4 : List UInt8 → Ptk → Prop}
    (h : Counted N v floor w) (hinv : Inv m2 m4 w) (hrests : Rests w) (hN : N + 127 < 256 ^ 8)
    (i : Input) (hi : i.IsAssoc → v = 0 ∧ floor = none) :
    Counted (N + 127) v floor (handle w i) := by
  cases i with
  | assoc addr check =>
    obtain ⟨rfl, rfl⟩ := hi trivial
    exact (h.assoc addr check).later
  | added => exact h.added hrests hN
  | receive data => exact h.receive hinv hrests hN data
  | timeout => exact h.timeout hrests hN
  | deauth => exact h.deauth hrests hN
  | free => exact h.free.later
  | pmk psk | other =>
    refine Counted.later (h.of_same ?_ ⟨?_, ?_, ?_, ?_⟩ ?_ ?_ ?_)
    all_goals first | rfl | exact id

/-! ## Runs -/

/-- A run that goes on. -/
theorem Counted.run {auth : Auth} (hpsk : auth.confWpaKeyMgmt = Ap.keyMgmtPsk)
    {is : List (Input × List Bool)}
    (h : Counted N v floor (Machine.run step (World.start auth) is).1)
    (js : List (Input × List Bool)) (hjs : ∀ j ∈ js, j.1.IsAssoc → v = 0 ∧ floor = none)
    (hN : N + 127 * js.length < 256 ^ 8) :
    Counted (N + 127 * js.length) v floor (Machine.run step (World.start auth) (is ++ js)).1 := by
  induction js using List.reverseRecOn with
  | nil => rwa [List.append_nil]
  | append_singleton js j ih =>
    rw [List.length_append, List.length_singleton] at hN ⊢
    have hbefore := ih (fun k hk => hjs k (List.mem_append_left _ hk)) (by omega)
    obtain ⟨hinv, hrests⟩ := inv_of_run auth hpsk (is ++ js)
    have hstep : (Machine.run step (World.start auth) (is ++ (js ++ [j]))).1
        = (step (Machine.run step (World.start auth) (is ++ js)).1 j).1 := by
      rw [← List.append_assoc, Machine.run_append]
      rfl
    have hbegin : Counted (N + 127 * js.length) v floor
        { (Machine.run step (World.start auth) (is ++ js)).1 with mallocs := j.2, out := [] } :=
      hbefore.of_same rfl ⟨rfl, rfl, rfl, rfl⟩ rfl rfl id
    have hnext := hbegin.handle (hinv.begin j.2) (hrests.of_same rfl rfl rfl rfl) (by omega) j.1
      (hjs j (List.mem_append_right _ (List.mem_singleton.mpr rfl)))
    rw [hstep, Nat.mul_add, ← Nat.add_assoc]
    exact hnext.of_same rfl ⟨rfl, rfl, rfl, rfl⟩ rfl rfl id

/-- An event is a frame that is accepted. -/
def Accepts (w : World) (i : Input × List Bool) (data : List UInt8) : Prop :=
  i.1 = .receive data ∧ accepts { w with mallocs := i.2, out := [] } data = true

/-- What an accepted frame passes. -/
def passedBy (data : List UInt8) : ℕ × Option ℕ :=
  if (frameKeyInfo data).testBit KeyInfo.request then
    (0, some (counterValue (frameReplayCounter data)))
  else (counterValue (frameReplayCounter data), none)

/-- The state of a run behind a frame that was accepted. -/
theorem counted_of_accepts {auth : Auth} (hpsk : auth.confWpaKeyMgmt = Ap.keyMgmtPsk)
    {is : List (Input × List Bool)} {i : Input × List Bool}
    (hi : Accepts (Machine.run step (World.start auth) is).1 i data)
    (hN : 127 * is.length + 127 < 256 ^ 8) :
    Counted (127 * is.length + 127) (passedBy data).1 (passedBy data).2
      (Machine.run step (World.start auth) (is ++ [i])).1 := by
  obtain ⟨hreceive, haccept⟩ := hi
  have hstart : Counted 0 0 none (Machine.run step (World.start auth) []).1 :=
    ⟨.inr (.of_zero 0 rfl), fun ha => by cases ha⟩
  have hbefore := hstart.run hpsk is (fun _ _ _ => ⟨rfl, rfl⟩) (by omega)
  rw [Nat.zero_add, List.nil_append] at hbefore
  obtain ⟨hinv, hrests⟩ := inv_of_run auth hpsk is
  have hstep : (Machine.run step (World.start auth) (is ++ [i])).1
      = (step (Machine.run step (World.start auth) is).1 i).1 := by
    rw [Machine.run_append]
    rfl
  have hhandle : (step (Machine.run step (World.start auth) is).1 i).1
      = { wpaReceive { (Machine.run step (World.start auth) is).1 with
          mallocs := i.2, out := [] } data with out := [] } := by
    rw [step, hreceive]
    rfl
  rw [hstep, hhandle]
  generalize (Machine.run step (World.start auth) is).1 = w at *
  have hstarted : w.sm.started = true := (accepts_checks haccept).1.2.1
  have hbegin : Counted (127 * is.length) 0 none { w with mallocs := i.2, out := [] } :=
    hbefore.of_same rfl ⟨rfl, rfl, rfl, rfl⟩ rfl rfl id
  have hbeginRests : Rests { w with mallocs := i.2, out := [] } := hrests.of_same rfl rfl rfl rfl
  rw [passedBy]
  split
  case isTrue hrequest =>
    have hnext := (hbegin.ask (hinv.begin i.2) hbeginRests haccept hN hrequest hstarted).2
    exact hnext.of_same rfl ⟨rfl, rfl, rfl, rfl⟩ rfl rfl id
  case isFalse hrequest =>
    have hnext := (hbegin.answer hrests.request.1 haccept hN
      (Bool.eq_false_of_not_eq_true hrequest) hstarted (hrests.not_pending hstarted)).2
    exact hnext.of_same rfl ⟨rfl, rfl, rfl, rfl⟩ rfl rfl id

/-- Of two frames that are accepted with no association request between them, both of them requests
or none, the later one has the larger replay counter; so no frame counts twice. The runs are short
enough for the counter not to come round. -/
theorem replayCounter_lt_of_accepts (auth : Auth) (hpsk : auth.confWpaKeyMgmt = Ap.keyMgmtPsk)
    (is js : List (Input × List Bool)) (i j : Input × List Bool) (first second : List UInt8)
    (hi : Accepts (Machine.run step (World.start auth) is).1 i first)
    (hj : Accepts (Machine.run step (World.start auth) (is ++ i :: js)).1 j second)
    (hjs : ∀ k ∈ js, ¬ k.1.IsAssoc)
    (hkind : (frameKeyInfo first).testBit KeyInfo.request
      = (frameKeyInfo second).testBit KeyInfo.request)
    (hlen : (is ++ i :: js).length < 2 ^ 57) :
    counterValue (frameReplayCounter first) < counterValue (frameReplayCounter second) := by
  have hbound : 127 * (is.length + (js.length + 1)) + 127 < 256 ^ 8 := by
    rw [List.length_append, List.length_cons] at hlen
    omega
  have hrun := (counted_of_accepts hpsk hi (by omega)).run hpsk js
    (fun k hk hassoc => absurd hassoc (hjs k hk)) (by omega)
  rw [List.append_assoc, List.singleton_append] at hrun
  obtain ⟨hinv, hrests⟩ := inv_of_run auth hpsk (is ++ i :: js)
  obtain ⟨-, haccept⟩ := hj
  generalize (Machine.run step (World.start auth) (is ++ i :: js)).1 = w at *
  have hstarted : w.sm.started = true := (accepts_checks haccept).1.2.1
  have hbegin : Counted (127 * is.length + 127 + 127 * js.length) (passedBy first).1
      (passedBy first).2 { w with mallocs := j.2, out := [] } :=
    hrun.of_same rfl ⟨rfl, rfl, rfl, rfl⟩ rfl rfl id
  have hbeginRests : Rests { w with mallocs := j.2, out := [] } := hrests.of_same rfl rfl rfl rfl
  cases hrequest : (frameKeyInfo second).testBit KeyInfo.request with
  | true =>
    rw [hrequest] at hkind
    rw [passedBy, if_pos hkind] at hbegin
    exact (hbegin.ask (hinv.begin j.2) hbeginRests haccept (by omega) hrequest hstarted).1 _ rfl
  | false =>
    rw [hrequest] at hkind
    rw [passedBy, if_neg (by rw [hkind]; exact Bool.false_ne_true)] at hbegin
    exact (hbegin.answer hrests.request.1 haccept (by omega) hrequest hstarted
      (hrests.not_pending hstarted)).1

theorem replayCounter_lt_of_accepts_home :
    counterValue (frameReplayCounter (second homeAuth homeStation))
      < counterValue (frameReplayCounter (fourth homeAuth homeStation)) := by
  have hfirst : Machine.run step (World.start homeAuth) (untilFirst homeStation)
      = (startWorld homeAuth homeStation, startOutputs homeAuth) := run_untilFirst ready_home
  have hthird : (Machine.run step (World.start homeAuth)
      (untilFirst homeStation ++ [(.receive (second homeAuth homeStation), [])])).1
      = thirdWorld homeAuth homeStation := run_untilThird ready_home
  obtain ⟨mic, hsecond⟩ := second_eq homeAuth homeStation
  refine replayCounter_lt_of_accepts homeAuth rfl (untilFirst homeStation) []
    (.receive (second homeAuth homeStation), []) (.receive (fourth homeAuth homeStation), []) _ _
    ⟨rfl, ?_⟩ ⟨rfl, ?_⟩ (fun k hk => absurd hk List.not_mem_nil) ?_ (by decide)
  · rw [hfirst, hsecond]
    exact accepts_second ready_home mic
  · rw [hthird]
    exact accepts_fourth ready_home
  · rw [hsecond, fourth_eq, Station.frame, Station.frame, frameKeyInfo_eapolFrame (h := by decide),
      frameKeyInfo_eapolFrame (h := by decide)]
    rfl

end Fullmac.Wpa
