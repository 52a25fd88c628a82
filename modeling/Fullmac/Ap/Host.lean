import Fullmac.Ap.Mlme

/-!
# The access point in its host

Besides what the stations do (`ApEvent`), the access point's state is reached by the firmware, which
reports how many frames it holds for a station and opens block-ack sessions, by the data path, which
stores frames in sessions and releases them, and by the host, which may turn the access point or
another interface off. `hostStep` is a step of all that.
-/

namespace Fullmac.Ap

variable {cfg : ApCfg}

/-! ## Reports of the firmware -/

/-- `_dq_status_handler`: the number of the report is used as an index into the table. `none` stands
for an index outside it. -/
def dqStatusHandler (s : ApInfo cfg) (wsid : ℕ) (len : ℤ) : Option (ApInfo cfg) :=
  if h : wsid < cfg.maxAid then
    let i : StaIdx cfg := ⟨wsid, h⟩
    let s := s.modSta i fun st => { st with fwQLen := len }
    some (if 0 < len then recalcTimGenBeacon s i else s)
  else none

/-! ## Sessions -/

/-- `os_cancel_timer` for `timer_sta_reorder_release`. -/
def cancelReorderTimer (s : ApInfo cfg) : ApInfo cfg :=
  { s with drv := { s.drv with reorderTimer := s.drv.reorderTimer - 1 } }

/-- `os_create_timer` for `timer_sta_reorder_release`. -/
def createReorderTimer (s : ApInfo cfg) : ApInfo cfg :=
  { s with drv := { s.drv with reorderTimer := s.drv.reorderTimer + 1 } }

/-- An operation on the table of sessions; the frames that leave it go to the data path. -/
def onSessions (s : ApInfo cfg) (f : Rx.BaTable → Rx.BaTable × List Rx.RxEvent) : ApInfo cfg :=
  { s with drv := { s.drv with sessions := (f s.drv.sessions).1 } }

/-- `SOC_EVT_ADD_BA`: `ieee80211_addba_handler` arms the release timer anew for a session of the
table. -/
def addbaEvent (s : ApInfo cfg) (env : Rx.Env) (wsid tid ssn bufSize : ℕ) : ApInfo cfg :=
  if cfg.ampduRxEnable then
    match Rx.sessionId? wsid tid with
    | none => s
    | some _ =>
      createReorderTimer (cancelReorderTimer
        (onSessions s fun t => Rx.addbaHandler cfg.host env t wsid tid ssn bufSize))
  else s

/-- `ieee80211_delete_all_ampdu_rx`. -/
def deleteAllAmpduRx (host : Rx.HostCfg) (env : Rx.Env) (t : Rx.BaTable) : Rx.BaTable :=
  (List.range Rx.rxAggRxBaMaxStation).foldl (fun t wsid => (Rx.deleteAmpduRx host env t wsid).1) t

/-- All sessions end, and the release timer is cancelled. -/
def endAllSessions (s : ApInfo cfg) (env : Rx.Env) : ApInfo cfg :=
  cancelReorderTimer (onSessions s fun t => (deleteAllAmpduRx cfg.host env t, []))

/-- `timer_sta_reorder_release` fires, if it is pending, and arms itself anew. -/
def reorderRelease (s : ApInfo cfg) (env : Rx.SessionId → Rx.Env) : ApInfo cfg :=
  if s.drv.reorderTimer = 0 then s
  else
    createReorderTimer (cancelReorderTimer
      (onSessions s fun t => Rx.timerStaReorderRelease cfg.host env t))

/-! ## Turning off -/

/-- `send_deauth_and_remove_all`. -/
def sendDeauthAndRemoveAll (s : ApInfo cfg) : ApInfo cfg :=
  (List.finRange cfg.maxAid).foldl (fun s i => if (s.sta i).valid then removeSilent s i else s) s

/-- `APStaInfo_Release`. -/
def apStaInfoRelease (s : ApInfo cfg) : ApInfo cfg :=
  (List.finRange cfg.maxAid).foldl apStaInfoFree s

/-- `ap_mode_off`; `ampduRxVif` says whether `ampduRx_vif` is the access point's interface. -/
def apModeOff (s : ApInfo cfg) (env : Rx.Env) (ampduRxVif : Bool) : ApInfo cfg :=
  let s := if cfg.ampduRxEnable && ampduRxVif then endAllSessions s env else s
  apStaInfoRelease (sendDeauthAndRemoveAll s)

/-! ## Events -/

/-- What happens to the access point in its host. -/
inductive HostEvent (cfg : ApCfg)
  | ap (e : ApEvent cfg)
  | dqStatus (wsid : ℕ) (len : ℤ)
  | addba (env : Rx.Env) (wsid tid ssn bufSize : ℕ)
  | ampdu (env : Rx.Env) (f : Rx.RxFrame)
  | bar (env : Rx.Env) (wsid tid startSeqNum : ℕ)
  | reorderRelease (env : Rx.SessionId → Rx.Env)
  /-- Another interface, whose sessions are in the table, leaves its network or is turned off. -/
  | leave (env : Rx.Env)
  | modeOff (env : Rx.Env) (ampduRxVif : Bool)

/-- The state after an event. A report for an index outside the table does not reach the state. -/
def hostNext (s : ApInfo cfg) : HostEvent cfg → ApInfo cfg
  | .ap e => (apStep s e).1
  | .dqStatus wsid len => (dqStatusHandler s wsid len).getD s
  | .addba env wsid tid ssn bufSize => addbaEvent s env wsid tid ssn bufSize
  | .ampdu env f => onSessions s fun t => Rx.rxReorderAmpdu cfg.host env t f
  | .bar env wsid tid start => onSessions s fun t => Rx.rxBarFrame cfg.host env t wsid tid start
  | .reorderRelease env => reorderRelease s env
  | .leave env => if cfg.ampduRxEnable then endAllSessions s env else s
  | .modeOff env ampduRxVif => apModeOff s env ampduRxVif

/-- A station has left the table: its slot, the number it was given, and the sessions as they are
then. -/
structure Departure (cfg : ApCfg) where
  slot : StaIdx cfg
  wsid : ℕ
  sessions : Rx.BaTable

/-- A slot had a station before an event and has none, or another one, after it. -/
def HasLeft (s s' : ApInfo cfg) (i : StaIdx cfg) : Prop :=
  (s.sta i).valid = true ∧ ((s'.sta i).valid = false ∨ (s'.sta i).addr ≠ (s.sta i).addr)

instance (s s' : ApInfo cfg) (i : StaIdx cfg) : Decidable (HasLeft s s' i) :=
  inferInstanceAs (Decidable (_ ∧ _))

/-- The stations that have left between two states. -/
def departures (s s' : ApInfo cfg) : List (Departure cfg) :=
  ((List.finRange cfg.maxAid).filter fun i => HasLeft s s' i).map fun i =>
    { slot := i, wsid := s.drv.given i, sessions := s'.drv.sessions }

/-- One event, with the stations that leave. -/
def hostStep (s : ApInfo cfg) (e : HostEvent cfg) : ApInfo cfg × List (Departure cfg) :=
  (hostNext s e, departures s (hostNext s e))

end Fullmac.Ap
