import Iec61850.Reporting.Urcb

/-!
The reservation of an unbuffered block over whole runs: who holds it, who may write, and what
becomes of it when the holder's connection is lost.
-/

namespace Iec61850.Reporting

open RcbRights

namespace ReportControl

variable {control before after : ReportControl} {conn : ConnectionId} {answer : Answer}

structure Consistent (control : ReportControl) : Prop where
  resv : control.state.resv = true ↔ ∃ holder, control.state.clientConnId = some holder
  enabled : control.state.rptEna = true → control.state.resv = true

theorem Consistent.of_rights (consistent : before.Consistent) (rights : after.rights = before.rights) :
    after.Consistent := by
  have rptEna : after.state.rptEna = before.state.rptEna := congrArg rptEna rights
  have resv : after.state.resv = before.state.resv := congrArg RcbRights.resv rights
  have holder : after.state.clientConnId = before.state.clientConnId := congrArg clientConnId rights
  constructor
  · rw [resv, holder]
    exact consistent.resv
  · rw [rptEna, resv]
    exact consistent.enabled

theorem Written.consistent (written : Written conn before answer after) (consistent : before.Consistent) :
    after.Consistent := by
  cases written with
  | refused _ _ rights _ | field _ _ rights _ => exact consistent.of_rights rights
  | reserved _ _ disabled rights | released _ _ disabled rights =>
    have rptEna : after.state.rptEna = before.state.rptEna := congrArg rptEna rights
    have resv := congrArg resv rights
    have holder := congrArg clientConnId rights
    simp only [ReportControl.rights] at resv holder
    constructor
    · simp [resv, holder]
    · simp [rptEna, disabled]
  | enabled _ entitled _ rights =>
    have resv := congrArg resv rights
    have holder := congrArg clientConnId rights
    simp only [ReportControl.rights] at resv holder
    constructor
    · rw [resv, holder]
      rcases entitled with free | ⟨_, mine⟩
      · simp [free]
      · simp [RcbState.unreserved, mine]
    · simp [resv]
  | disabled _ _ rights _ =>
    have rptEna := congrArg rptEna rights
    have resv : after.state.resv = before.state.resv := congrArg resv rights
    have holder : after.state.clientConnId = before.state.clientConnId := congrArg clientConnId rights
    simp only [ReportControl.rights] at rptEna
    constructor
    · rw [resv, holder]
      exact consistent.resv
    · simp [rptEna]

theorem Written.by_holder (written : Written conn before .accepted after) (consistent : before.Consistent)
    (reserved : before.state.resv = true) : before.state.clientConnId = some conn := by
  have ofOpen (entitled : before.OpenTo conn) : before.state.clientConnId = some conn := by
    rcases entitled with free | ⟨_, mine⟩
    · simp [RcbState.unreserved, reserved] at free
    · exact mine
  cases written with
  | reserved _ free _ _ => exact free reserved
  | released _ mine _ _ =>
    obtain ⟨holder, held⟩ := consistent.resv.mp reserved
    rw [held, mine holder held]
  | enabled _ entitled _ _ | disabled _ entitled _ _ | field _ entitled _ _ => exact ofOpen entitled

theorem Written.configuration (written : Written conn before answer after) (enabled : before.state.rptEna = true) :
    after.state.configuration = before.state.configuration := by
  cases written with
  | refused _ _ _ configuration => exact configuration
  | reserved _ _ disabled _ | released _ _ disabled _ | enabled _ _ disabled _ =>
    rw [disabled] at enabled
    cases enabled
  | disabled _ _ _ configuration => exact configuration
  | field _ _ _ configuration => exact configuration enabled

theorem Written.setting (written : Written conn before answer after) :
    after.rcb = before.rcb ∧ after.peers = before.peers := by
  cases written with
  | refused _ _ rights _ | reserved _ _ _ rights | released _ _ _ rights | enabled _ _ _ rights | disabled _ _ rights _
  | field _ _ rights _ => exact ⟨congrArg RcbRights.rcb rights, congrArg RcbRights.peers rights⟩

theorem onConnectionDropped_of_holder (held : control.state.clientConnId = some conn) :
    (control.onConnectionDropped conn).state.resv = false ∧
      (control.onConnectionDropped conn).state.clientConnId = none ∧
      (control.onConnectionDropped conn).state.rptEna = false := by
  simp [onConnectionDropped, held]

theorem onConnectionDropped_of_other (other : control.state.clientConnId ≠ some conn) :
    (control.onConnectionDropped conn).state = control.state := by
  simp [onConnectionDropped, other]

theorem onConnectionDropped_setting :
    (control.onConnectionDropped conn).rcb = control.rcb ∧
    (control.onConnectionDropped conn).peers = control.peers := by
  unfold onConnectionDropped
  dsimp only
  split <;> exact ⟨rfl, rfl⟩

theorem onConnectionDropped_configuration :
    (control.onConnectionDropped conn).state.configuration = control.state.configuration := by
  unfold onConnectionDropped
  dsimp only
  split <;> rfl

theorem Consistent.onConnectionDropped (consistent : control.Consistent) :
    (control.onConnectionDropped conn).Consistent := by
  by_cases held : control.state.clientConnId = some conn
  · obtain ⟨resv, holder, rptEna⟩ := onConnectionDropped_of_holder held
    constructor
    · simp [resv, holder]
    · simp [rptEna]
  · have same := onConnectionDropped_of_other held
    constructor
    · rw [same]
      exact consistent.resv
    · rw [same]
      exact consistent.enabled

end ReportControl

inductive RcbStep where
  | write (field : RcbField) (value : RcbWriteValue) (conn : ConnectionId) (now : Instant)
  | connectionLost (conn : ConnectionId)

namespace RcbStep

def after (control : ReportControl) : RcbStep → ReportControl
  | .write field value conn now => (control.handleSetRcbField field value conn now).2
  | .connectionLost conn => control.onConnectionDropped conn

def WrittenBy (clients : ConnectionId → Prop) : RcbStep → Prop
  | .write _ _ conn _ => clients conn
  | .connectionLost _ => True

variable {control : ReportControl} (step : RcbStep)

theorem consistent (consistent : control.Consistent) : (step.after control).Consistent := by
  cases step with
  | write field value conn now => exact (control.handleSetRcbField_written field value conn now).consistent consistent
  | connectionLost conn => exact consistent.onConnectionDropped

theorem setting : (step.after control).rcb = control.rcb ∧ (step.after control).peers = control.peers := by
  cases step with
  | write field value conn now => exact (control.handleSetRcbField_written field value conn now).setting
  | connectionLost conn => exact ReportControl.onConnectionDropped_setting

theorem configuration (enabled : control.state.rptEna = true) :
    (step.after control).state.configuration = control.state.configuration := by
  cases step with
  | write field value conn now => exact (control.handleSetRcbField_written field value conn now).configuration enabled
  | connectionLost conn => exact ReportControl.onConnectionDropped_configuration

end RcbStep

def runRcbSteps (steps : List RcbStep) (control : ReportControl) : ReportControl := steps.foldl RcbStep.after control

theorem runRcbSteps_consistent {control : ReportControl} (consistent : control.Consistent) (steps : List RcbStep) :
    (runRcbSteps steps control).Consistent := by
  induction steps generalizing control with
  | nil => exact consistent
  | cons step rest ih => exact ih (step.consistent consistent)

theorem runRcbSteps_setting (steps : List RcbStep) (control : ReportControl) :
    (runRcbSteps steps control).rcb = control.rcb ∧ (runRcbSteps steps control).peers = control.peers := by
  induction steps generalizing control with
  | nil => exact ⟨rfl, rfl⟩
  | cons step rest ih =>
    obtain ⟨rcb, peers⟩ := ih (step.after control)
    exact ⟨rcb.trans step.setting.1, peers.trans step.setting.2⟩

/-- The reservation is exclusive in one state, whatever is done next; `clients` are the connections
that write. -/
structure ReportControl.Exclusive (clients : ConnectionId → Prop) (control : ReportControl) : Prop where
  resv : control.state.resv = true ↔ ∃ holder, control.state.clientConnId = some holder
  enabled : control.state.rptEna = true → control.state.resv = true
  holder : control.state.resv = true → ∀ field value conn now,
    (control.handleSetRcbField field value conn now).1 = .accepted → control.state.clientConnId = some conn
  configuration : control.state.rptEna = true → ∀ step : RcbStep,
    (step.after control).state.configuration = control.state.configuration
  lost : ∀ conn, control.state.clientConnId = some conn →
    (control.onConnectionDropped conn).state.resv = false ∧
      (control.onConnectionDropped conn).state.clientConnId = none ∧
      (control.onConnectionDropped conn).state.rptEna = false
  address : ∀ ip, control.rcb.clientReservation = some ip → ∀ field value conn now, clients conn →
    (control.handleSetRcbField field value conn now).1 = .accepted → control.peer conn = some ip

namespace ReportControl

theorem Consistent.exclusive {control : ReportControl} {clients : ConnectionId → Prop} (consistent : control.Consistent)
    (address : ∀ ip, control.rcb.clientReservation = some ip → ∀ conn, clients conn → control.peer conn = some ip) :
    control.Exclusive clients where
  resv := consistent.resv
  enabled := consistent.enabled
  holder := by
    intro reserved field value conn now accepted
    have written := control.handleSetRcbField_written field value conn now
    rw [accepted] at written
    exact written.by_holder consistent reserved
  configuration enabled step := step.configuration enabled
  lost _ held := onConnectionDropped_of_holder held
  address ip configured _ _ conn _ client _ := address ip configured conn client

variable (mmsPath : String) (rcb : Rcb) (dataset : Dataset) (datasetRegistry : String × String → Option Dataset)
  (peers : ConnectionId → Option Peer)

theorem registered_consistent : (registered mmsPath rcb dataset datasetRegistry peers).Consistent := by
  constructor <;> simp [registered, RcbState.fromRcb]

theorem registered_setResv (conn : ConnectionId) (now : Instant) :
    ((registered mmsPath rcb dataset datasetRegistry peers).handleSetRcbField .resv (.bool true) conn now).1 =
      .accepted := by
  simp [handleSetRcbField, setResv, setState, registered, RcbState.fromRcb]

end ReportControl

/-- The reservation of a registered block is exclusive in every run of the clients' writes and of
connection losses exactly when all the clients are at the configured address, if one is configured:
the handler never looks at it. -/
theorem urcb_exclusive_iff_clients_at_configured_address (mmsPath : String) (rcb : Rcb) (dataset : Dataset)
    (datasetRegistry : String × String → Option Dataset) (peers : ConnectionId → Option Peer)
    (clients : ConnectionId → Prop) : let control := ReportControl.registered mmsPath rcb dataset datasetRegistry peers
    (∀ steps : List RcbStep, (∀ step ∈ steps, step.WrittenBy clients) →
        (runRcbSteps steps control).Exclusive clients) ↔
      ∀ ip, rcb.clientReservation = some ip → ∀ conn, clients conn → control.peer conn = some ip := by
  intro control
  constructor
  · intro exclusive ip configured conn client
    have start : control.Exclusive clients := exclusive [] (by simp)
    exact start.address ip configured .resv (.bool true) conn 0 client
      (ReportControl.registered_setResv mmsPath rcb dataset datasetRegistry peers conn 0)
  · intro address steps _
    have consistent := runRcbSteps_consistent
      (ReportControl.registered_consistent mmsPath rcb dataset datasetRegistry peers) steps
    obtain ⟨sameRcb, samePeers⟩ := runRcbSteps_setting steps control
    apply consistent.exclusive
    intro ip configured conn client
    have peer : (runRcbSteps steps control).peer conn = control.peer conn := by
      unfold ReportControl.peer
      rw [samePeers]
    rw [peer]
    rw [sameRcb] at configured
    exact address ip configured conn client

def IpAddr.ofQuad (a b c d : UInt8) : IpAddr := .v4 #v[a, b, c, d]

def configuredBlock : ReportControl :=
  .registered "LD0/LLN0$RP$urcb01"
    { name := "urcb01", rptId := "", datasetName := "events", confRev := 1, trgOps := .dataChanged, optFlds := .reason
      bufTmMs := 0, intgPdMs := 0, clientReservation := some (.ofQuad 10 0 0 1), withOwner := true }
    { name := "events", entries := [] } (fun _ => none)
    (fun _ => some { ip := .ofQuad 10 0 0 2, maxPduSizeBytes := 65000 })

theorem stranger_reserves_configured_urcb : configuredBlock.rcb.clientReservation = some (.v4 #v[10, 0, 0, 1]) ∧
      configuredBlock.peer 7 = some (.v4 #v[10, 0, 0, 2]) ∧
      (configuredBlock.handleSetRcbField .resv (.bool true) 7 0).1 = .accepted ∧
      (configuredBlock.handleSetRcbField .resv (.bool true) 7 0).2.state.clientConnId = some 7 := by
  decide

end Iec61850.Reporting
