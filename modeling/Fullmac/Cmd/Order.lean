import Fullmac.Cmd.Model

/-!
# One blocking command at a time, and all commands in order

What the gate is for can be said about the trace alone: `gateAfter` follows the blocking command in
progress from one event of the trace to the next, and `Serial` asks that no blocking command is
passed on while there is one. The engine's two fields are that state (`serial_turn`). Commands wait
in two queues, the mailbox and `pending_cmds`; the task does not touch the first while it may empty
the second, so that the commands passed on, followed by those parked, are the commands taken from
the mailbox (`passed_turn`).
-/

namespace Fullmac.Cmd

variable {τ ι : Type*}

/-! ## The trace -/

/-- The report that the blocking command with number `n` is done, processed by the task. -/
def cmdDone (n : ℕ) : CmdOut := .fetched (.hostEvent (.mlmeCmdDone n))

/-- The blocking command in progress, after one more event of the trace. -/
def gateStep (g : Option ℕ) : CmdOut → Option ℕ
  | .passed c _ => if c.hCmd.isBlocking then some c.cmdSeqNo else g
  | .fetched (.hostEvent (.mlmeCmdDone n)) => if g = some n then none else g
  | _ => g

/-- The blocking command in progress at the end of a trace. -/
def gateAfter (g : Option ℕ) (tr : List CmdOut) : Option ℕ := tr.foldl gateStep g

/-- No blocking command is passed on while one is in progress. -/
def Serial : Option ℕ → List CmdOut → Prop
  | _, [] => True
  | g, o :: tr =>
    (∀ c ok, o = .passed c ok → c.hCmd.isBlocking → g = none) ∧ Serial (gateStep g o) tr

theorem serial_append {g : Option ℕ} {tr tr' : List CmdOut} :
    Serial g (tr ++ tr') ↔ Serial g tr ∧ Serial (gateAfter g tr) tr' := by
  induction tr generalizing g with
  | nil => simp [Serial, gateAfter]
  | cons o tr ih => simp [Serial, ih, gateAfter, and_assoc]

theorem gateAfter_append (g : Option ℕ) (tr tr' : List CmdOut) :
    gateAfter g (tr ++ tr') = gateAfter (gateAfter g tr) tr' := by
  simp [gateAfter]

/-- The report comes before the next blocking command. -/
theorem Serial.done_mem {n : ℕ} {b d : List CmdOut} {c : HostCmd} {ok : Bool}
    (h : Serial (some n) (b ++ .passed c ok :: d)) (hc : c.hCmd.isBlocking) : cmdDone n ∈ b := by
  induction b with
  | nil => cases h.1 c ok rfl hc
  | cons o b ih =>
    by_cases ho : o = cmdDone n
    · simp [ho]
    -- any other event leaves the command in progress
    have hsame : gateStep (some n) o = some n := by
      cases o with
      | fetched m =>
        cases m with
        | hostEvent e =>
          cases e with
          | mlmeCmdDone n' =>
            have hne : n ≠ n' := by
              rintro rfl
              exact ho rfl
            simp [gateStep, hne]
          | other => rfl
        | hostCmd | other => rfl
      | passed c' ok' =>
        have hc' : ¬ c'.hCmd.isBlocking := fun hblock => by cases h.1 c' ok' rfl hblock
        simp [gateStep, hc']
      | lost | freed => rfl
    have htail := h.2
    rw [hsame] at htail
    exact List.mem_cons_of_mem _ (ih htail)

/-- Between two blocking commands the first is reported done. -/
theorem Serial.done_mem_between {g : Option ℕ} {a b d : List CmdOut} {c₁ c₂ : HostCmd}
    {ok₁ ok₂ : Bool} (h : Serial g (a ++ .passed c₁ ok₁ :: (b ++ .passed c₂ ok₂ :: d)))
    (hc₁ : c₁.hCmd.isBlocking) (hc₂ : c₂.hCmd.isBlocking) : cmdDone c₁.cmdSeqNo ∈ b := by
  have htail := (serial_append.mp h).2.2
  rw [gateStep, if_pos hc₁] at htail
  exact htail.done_mem hc₂

/-- The commands passed to `TXRXTask_FrameEnqueue`. -/
def passed (tr : List CmdOut) : List HostCmd :=
  tr.filterMap fun
    | .passed c _ => some c
    | _ => none

/-- The commands taken from the mailbox. -/
def taken (tr : List CmdOut) : List HostCmd :=
  tr.filterMap fun
    | .fetched (.hostCmd c) => some c
    | .lost c => some c
    | _ => none

/-- The commands taken from the mailbox, without those for which there was no node. -/
def kept (tr : List CmdOut) : List HostCmd :=
  tr.filterMap fun
    | .fetched (.hostCmd c) => some c
    | _ => none

/-- The parked commands. -/
def parked (s : Eng τ) : List HostCmd := s.pendingCmds.map FrmQ.frame

/-- The commands for the firmware. -/
def socOf (l : List HostCmd) : List HostCmd := l.filter fun c => c.hCmd.isSoc

@[simp] theorem passed_append (tr tr' : List CmdOut) :
    passed (tr ++ tr') = passed tr ++ passed tr' := by
  simp [passed]

@[simp] theorem kept_append (tr tr' : List CmdOut) : kept (tr ++ tr') = kept tr ++ kept tr' := by
  simp [kept]

@[simp] theorem socOf_append (l l' : List HostCmd) : socOf (l ++ l') = socOf l ++ socOf l' := by
  simp [socOf]

/-! ## The gate -/

/-- The blocking command in progress, as the engine has it. -/
def gateOf (s : Eng τ) : Option ℕ := if s.blockcmdInQ then some s.pendingCmdSeqno else none

theorem serial_txHdlCmd (side : TxSide τ ι) {s : Eng τ} {c : HostCmd}
    (h : c.hCmd.isBlocking → s.blockcmdInQ = false) :
    Serial (gateOf s) (txHdlCmd side s c).2 ∧
      gateAfter (gateOf s) (txHdlCmd side s c).2 = gateOf (txHdlCmd side s c).1 := by
  by_cases hsoc : c.hCmd.isSoc
  · by_cases hblock : c.hCmd.isBlocking
    · have hgate := h hblock
      cases hok : (side.enqueue s.tx c).2 <;>
        simp [txHdlCmd, hsoc, hok, Serial, gateAfter, gateStep, closeGate, hblock, gateOf, hgate]
    · cases hok : (side.enqueue s.tx c).2 <;>
        simp [txHdlCmd, hsoc, hok, Serial, gateAfter, gateStep, closeGate, hblock, gateOf]
  · simp [txHdlCmd, hsoc, Serial, gateAfter, gateStep]

/-- The engine's gate is the one that the trace shows, and it keeps the trace serial. -/
theorem serial_turn {side : TxSide τ ι} {s s' : Eng τ} {m : Msg} {malloc : Bool}
    {out : List CmdOut} (h : Turn side s m malloc s' out) :
    Serial (gateOf s) out ∧ gateAfter (gateOf s) out = gateOf s' := by
  cases h with
  | resume hgate hpending =>
    rename_i pcmd rest
    have hout := serial_txHdlCmd side (s := { s with pendingCmds := rest }) (c := pcmd.frame)
      fun _ => hgate
    refine ⟨hout.1, hout.2.trans ?_⟩
    simp [gateOf]
  | event hm hfirst =>
    rename_i e
    cases e with
    | mlmeCmdDone n =>
      refine ⟨by simp [Serial], ?_⟩
      cases hgate : s.blockcmdInQ
      · simp [gateAfter, gateStep, rxHdlEvent, gateOf, hgate]
      · by_cases hn : n = s.pendingCmdSeqno
        · simp [gateAfter, gateStep, rxHdlEvent, gateOf, hgate, hn]
        · simp [gateAfter, gateStep, rxHdlEvent, gateOf, hgate, hn, Ne.symm hn]
    | other n => exact ⟨by simp [Serial], rfl⟩
  | park hm hparks =>
    unfold park
    split
    · exact ⟨by simp [Serial], rfl⟩
    split
    · exact ⟨by simp [Serial], rfl⟩
    · exact ⟨by simp [Serial], rfl⟩
  | handle hm hparks hfirst =>
    rename_i c
    have hopen : c.hCmd.isBlocking → s.blockcmdInQ = false := by
      intro hblock
      have hcfg : c.hCmd.isCfg = false := by
        by_contra hcfg
        have hsoc := HostCmdId.isSoc_of_isCfg (by simpa using hcfg)
        rw [HostCmdId.isSoc_of_isBlocking hblock] at hsoc
        cases hsoc
      simpa [parks, hcfg] using hparks
    have hout := serial_txHdlCmd side hopen
    exact ⟨⟨by simp, hout.1⟩, hout.2⟩
  | other hm hfirst => exact ⟨by simp [Serial], rfl⟩

/-! ## The order -/

theorem passed_txHdlCmd (side : TxSide τ ι) (s : Eng τ) (c : HostCmd) :
    passed (txHdlCmd side s c).2 = socOf [c] := by
  by_cases hsoc : c.hCmd.isSoc
  · cases hok : (side.enqueue s.tx c).2 <;> simp [txHdlCmd, hsoc, hok, passed, socOf]
  · simp [txHdlCmd, hsoc, passed, socOf]

theorem kept_txHdlCmd (side : TxSide τ ι) (s : Eng τ) (c : HostCmd) :
    kept (txHdlCmd side s c).2 = [] := by
  by_cases hsoc : c.hCmd.isSoc
  · cases hok : (side.enqueue s.tx c).2 <;> simp [txHdlCmd, hsoc, hok, kept]
  · simp [txHdlCmd, hsoc, kept]

/-- A turn moves commands from the mailbox to the parked ones and from these to the transmit side,
in order. -/
theorem passed_turn {side : TxSide τ ι} {s s' : Eng τ} {m : Msg} {malloc : Bool}
    {out : List CmdOut} (h : Turn side s m malloc s' out) :
    passed out ++ socOf (parked s') = socOf (parked s) ++ socOf (kept out) := by
  cases h with
  | resume hgate hpending =>
    rw [passed_txHdlCmd, kept_txHdlCmd]
    simp only [parked, recycle_pendingCmds, txHdlCmd_pendingCmds, hpending, List.map_cons]
    rw [← socOf_append, ← socOf_append]
    simp
  | event hm hfirst =>
    rename_i e
    have hparked : parked (rxHdlEvent s e) = parked s := by
      cases e with
      | mlmeCmdDone n =>
        rw [rxHdlEvent]
        split <;> rfl
      | other n => rfl
    rw [hparked]
    simp [passed, kept, socOf]
  | park hm hparks =>
    unfold park
    split
    · simp [passed, kept, parked]
    split
    · simp [passed, kept, parked]
    · simp [passed, kept, socOf]
  | handle hm hparks hfirst =>
    rename_i c
    have hpassed : passed (.fetched (.hostCmd c) :: (txHdlCmd side s c).2) = socOf [c] := by
      rw [← passed_txHdlCmd side s c]
      rfl
    have hkept : kept (.fetched (.hostCmd c) :: (txHdlCmd side s c).2) = [c] := by
      rw [← List.singleton_append, kept_append, kept_txHdlCmd]
      rfl
    have hparked : parked (txHdlCmd side s c).1 = parked s := by
      simp only [parked, txHdlCmd_pendingCmds]
    rw [hpassed, hkept, hparked]
    -- either nothing is parked, or the command is none for the firmware
    rcases hfirst with hgate | hpending
    · have hcfg : c.hCmd.isCfg := by simpa [parks, hgate] using hparks
      simp [socOf, HostCmdId.isSoc_of_isCfg hcfg]
    · simp [parked, hpending, socOf]
  | other hm hfirst => simp [passed, kept, socOf]

/-! ## The whole run -/

/-- The engine is left alone by those that empty its queue. -/
def NoFlush : CmdIn ι → Prop
  | .task _ _ | .tx _ => True
  | .flushPendingCmds | .setOpMode _ => False

instance : (i : CmdIn ι) → Decidable (NoFlush i)
  | .task _ _ | .tx _ => isTrue trivial
  | .flushPendingCmds | .setOpMode _ => isFalse not_false

/-- What a stretch of a run without a flush keeps, seen from the state `s₀` it starts from. -/
structure InOrder (s₀ : Eng τ) (s : Eng τ) (tr : List CmdOut) : Prop where
  serial : Serial (gateOf s₀) tr
  gate : gateAfter (gateOf s₀) tr = gateOf s
  order : passed tr ++ socOf (parked s) = socOf (parked s₀) ++ socOf (kept tr)

theorem InOrder.step {side : TxSide τ ι} {s₀ s : Eng τ} {tr : List CmdOut} (h : InOrder s₀ s tr)
    {i : CmdIn ι} (hi : NoFlush i) :
    InOrder s₀ (cmdStep side s i).1 (tr ++ (cmdStep side s i).2) := by
  cases i with
  | task m malloc =>
    have hturn := turn_cmdTask side s m malloc
    have hserial := serial_turn hturn
    have horder := passed_turn hturn
    refine ⟨serial_append.mpr ⟨h.serial, by rw [h.gate]; exact hserial.1⟩, ?_, ?_⟩
    · rw [gateAfter_append, h.gate]
      exact hserial.2
    · calc passed (tr ++ (cmdTask side s m malloc).2) ++ socOf (parked (cmdTask side s m malloc).1)
          = passed tr ++ (socOf (parked s) ++ socOf (kept (cmdTask side s m malloc).2)) := by
            rw [passed_append, List.append_assoc, horder]
        _ = socOf (parked s₀) ++ socOf (kept (tr ++ (cmdTask side s m malloc).2)) := by
            rw [← List.append_assoc, h.order, kept_append, socOf_append, List.append_assoc]
  | flushPendingCmds => cases hi
  | setOpMode mode => cases hi
  | tx i =>
    simp only [cmdStep, List.append_nil]
    exact ⟨h.serial, h.gate, h.order⟩

theorem inOrder_run (side : TxSide τ ι) (s₀ : Eng τ) {js : List (CmdIn ι)}
    (hjs : ∀ i ∈ js, NoFlush i) :
    InOrder s₀ (Machine.run (cmdStep side) s₀ js).1 (Machine.run (cmdStep side) s₀ js).2 :=
  Machine.run_induction_of_meets (P := fun s _ tr => InOrder s₀ s tr)
    ⟨trivial, rfl, by simp [passed, kept, socOf]⟩ (fun _ _ _ _ hi h => h.step hi) js
    (Machine.meets_of_forall hjs)

/-- After any run, and then for as long as nobody flushes the parked commands: between two blocking
commands passed on, the first was reported done; the same for the one in progress at the start; and
the commands passed on, followed by those parked, are those parked at the start, followed by those
taken from the mailbox, without those for which no node could be had. -/
theorem cmdRun_serial_in_order (side : TxSide τ ι) (tx : τ) (is js : List (CmdIn ι))
    (hjs : ∀ i ∈ js, NoFlush i) :
    let s := (cmdRun side tx is).1
    let s' := (Machine.run (cmdStep side) s js).1
    let tr := (Machine.run (cmdStep side) s js).2
    (∀ a c₁ ok₁ b c₂ ok₂ d, tr = a ++ .passed c₁ ok₁ :: (b ++ .passed c₂ ok₂ :: d) →
      c₁.hCmd.isBlocking → c₂.hCmd.isBlocking → cmdDone c₁.cmdSeqNo ∈ b) ∧
    (s.blockcmdInQ = true → ∀ a c ok d, tr = a ++ .passed c ok :: d → c.hCmd.isBlocking →
      cmdDone s.pendingCmdSeqno ∈ a) ∧
    passed tr ++ socOf (parked s') = socOf (parked s) ++ socOf (kept tr) := by
  intro s s' tr
  have h := inOrder_run side s hjs
  refine ⟨?_, ?_, h.order⟩
  · intro a c₁ ok₁ b c₂ ok₂ d htr hc₁ hc₂
    have hserial := h.serial
    rw [show (Machine.run (cmdStep side) s js).2 = tr from rfl, htr] at hserial
    exact hserial.done_mem_between hc₁ hc₂
  · intro hgate a c ok d htr hc
    have hserial := h.serial
    rw [show (Machine.run (cmdStep side) s js).2 = tr from rfl, htr, gateOf,
      if_pos hgate] at hserial
    exact hserial.done_mem hc

/-- The pools of the default configuration. -/
def defaultCfg : Tx.TxCfg := ⟨72, 16, by decide, by decide⟩

/-- A join comes while a scan is in progress. -/
def scanJoinRun : List (CmdIn Tx.TxIn) :=
  [.task (.hostCmd ⟨1, .scan, 1⟩) true, .task (.hostCmd ⟨2, .join, 2⟩) true,
    .task (.hostEvent (.mlmeCmdDone 1)) true, .task .other true]

/-- The join is passed on after the report of the scan. -/
theorem scanJoinRun_serial : (∀ i ∈ scanJoinRun, NoFlush i) ∧
    cmdDone 1 ∈ [.fetched (.hostCmd ⟨2, .join, 2⟩), cmdDone 1] :=
  ⟨by decide,
    (cmdRun_serial_in_order (txSide defaultCfg) (Tx.txInit defaultCfg) [] scanJoinRun (by decide)).1
      [.fetched (.hostCmd ⟨1, .scan, 1⟩)] ⟨1, .scan, 1⟩ true _ ⟨2, .join, 2⟩ true [] rfl rfl rfl⟩

/-- There is no memory to park the second command. -/
def lostRun : List (CmdIn Tx.TxIn) :=
  [.task (.hostCmd ⟨1, .scan, 1⟩) true, .task (.hostCmd ⟨2, .soc 7, 2⟩) false,
    .task (.hostEvent (.mlmeCmdDone 1)) true, .task (.hostCmd ⟨3, .soc 8, 3⟩) true]

/-- The third command overtakes the second, which is never passed on. -/
theorem lostRun_not_in_order : (∀ i ∈ lostRun, NoFlush i) ∧
    ¬ passed (cmdRun (txSide defaultCfg) (Tx.txInit defaultCfg) lostRun).2
      <+: socOf (taken (cmdRun (txSide defaultCfg) (Tx.txInit defaultCfg) lostRun).2) := by
  decide

end Fullmac.Cmd
