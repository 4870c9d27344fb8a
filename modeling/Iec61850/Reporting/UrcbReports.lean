import Iec61850.Reporting.UrcbEngine
import Iec61850.Reporting.UrcbReservation

/-!
What an unbuffered block sends over whole runs. An enabled period is told as the list of the reports
attempted in it, each with the segments the channel took: every report is sent whole or dropped
whole, apart from the last one started, and the reports are numbered from zero. A report is dropped
exactly if it lacks room or an earlier one is unfinished.
-/

namespace Iec61850.Reporting

open List Model ReportControl

structure AttemptedReport where
  params : ReportEncodeParams
  pdus : List Bytes
  taken : List Bytes
  dropped : Bool

namespace AttemptedReport

def Withheld (report : AttemptedReport) : Prop := report.dropped = true ∧ report.taken = []

/-- The report was started, and the channel has not taken all of it. -/
def Unfinished (report : AttemptedReport) : Prop :=
  report.dropped = false ∧ report.taken ≠ report.pdus

def Settled (report : AttemptedReport) : Prop := report.Withheld ∨ report.dropped = false ∧ report.taken = report.pdus

theorem Settled.not_unfinished {report : AttemptedReport} (settled : report.Settled) :
    ¬ report.Unfinished := by
  rintro ⟨started, cut⟩
  rcases settled with ⟨dropped, -⟩ | ⟨-, whole⟩
  · rw [started] at dropped
    cases dropped
  · exact cut whole

end AttemptedReport

/-- The places left in the channel are too few for a report: fewer than its segments, or than all
the channel has if the report is longer than that. -/
def LacksRoom (free : Option Nat) (pdus : List Bytes) : Prop :=
  ∃ places ∈ free, places < min pdus.length reportChannelCap

/-- The events of an enabled period and the reports they tell of. A report is dropped if it lacks
room or an earlier one is unfinished, and started otherwise. A segment that is accepted belongs to
the last report that was started. -/
inductive Tells : List RcbEvent → List AttemptedReport → Prop
  | start : Tells [] []
  | dropped {events reports} (told : Tells events reports) (params : ReportEncodeParams)
      (pdus : List Bytes) (free : Option Nat)
      (cause : LacksRoom free pdus ∨ ∃ other ∈ reports, other.Unfinished) :
      Tells (events ++ [.attempted params pdus free, .dropped])
        (reports ++ [{ params, pdus, taken := [], dropped := true }])
  | started {events reports} (told : Tells events reports) (params : ReportEncodeParams)
      (pdus : List Bytes) (free : Option Nat) (room : ¬ LacksRoom free pdus)
      (idle : ∀ other ∈ reports, ¬ other.Unfinished) :
      Tells (events ++ [.attempted params pdus free])
        (reports ++ [{ params, pdus, taken := [], dropped := false }])
  | accepted {events earlier report later} (told : Tells events (earlier ++ report :: later))
      (started : report.dropped = false) (behind : ∀ other ∈ later, other.Withheld) (pdu : Bytes) :
      Tells (events ++ [.accepted pdu]) (earlier ++ { report with taken := report.taken ++ [pdu] } :: later)

variable {earlier later : List AttemptedReport} {report : AttemptedReport}

theorem Tells.acceptedAll {events : List RcbEvent} (told : Tells events (earlier ++ report :: later))
    (started : report.dropped = false) (behind : ∀ other ∈ later, other.Withheld) (pdus : List Bytes) :
    Tells (events ++ pdus.map .accepted) (earlier ++ { report with taken := report.taken ++ pdus } :: later) := by
  induction pdus generalizing events report with
  | nil => simpa using told
  | cons pdu rest ih =>
    have more := ih (told.accepted started behind pdu) started
    simpa only [append_assoc, cons_append, nil_append, map_cons] using more

/-- How far the reports have got: all of them are settled, or `rest` is still to be sent of one of
them and the reports behind it are dropped. -/
inductive Underway : List AttemptedReport → Option (List Bytes) → Prop
  | settled {reports} (all : ∀ report ∈ reports, report.Settled) : Underway reports none
  | waiting {earlier report later rest} (before : ∀ other ∈ earlier, other.Settled) (started : report.dropped = false)
      (split : report.pdus = report.taken ++ rest) (unfinished : rest ≠ [])
      (behind : ∀ other ∈ later, other.Withheld) : Underway (earlier ++ report :: later) (some rest)

theorem Underway.unfinished {reports : List AttemptedReport} {rest : List Bytes}
    (underway : Underway reports (some rest)) : ∃ report ∈ reports, report.Unfinished := by
  cases underway with
  | @waiting _ report _ _ _ started split unfinished _ =>
    refine ⟨report, by simp, started, fun whole => unfinished ?_⟩
    rwa [whole, self_eq_append_right] at split

theorem Underway.withheld {reports : List AttemptedReport} {rest : Option (List Bytes)} {report : AttemptedReport}
    (underway : Underway reports rest) (withheld : report.Withheld) : Underway (reports ++ [report]) rest := by
  cases underway with
  | settled all =>
    exact .settled (forall_mem_append.mpr ⟨all, forall_mem_singleton.mpr (.inl withheld)⟩)
  | waiting before started split unfinished behind =>
    rw [append_assoc, cons_append]
    refine .waiting before started split unfinished (forall_mem_append.mpr ⟨behind, ?_⟩)
    exact forall_mem_singleton.mpr withheld

structure EnabledPeriod (events : List RcbEvent) (reports : List AttemptedReport) : Prop where
  tells : Tells events reports
  inOrder : ∃ rest, Underway reports rest
  numbered : ∀ index report, reports[index]? = some report → report.params.sqNum = UInt8.ofNat index
  encoded : ∀ report ∈ reports, ∃ live, encodeReportPdus live report.params = .ok report.pdus

/-- The reports of the period a block is in, with what it keeps of them. -/
structure Sending (control : ReportControl) (events : List RcbEvent) (reports : List AttemptedReport) : Prop
    extends EnabledPeriod events reports where
  underway : Underway reports (control.partialReport.map (·.rest))
  next : control.state.sqNum = UInt8.ofNat reports.length
  dataset : control.state.dataset.isSome = true

theorem numbered_append {reports : List AttemptedReport}
    (numbered : ∀ index report, reports[index]? = some report → report.params.sqNum = UInt8.ofNat index)
    (last : report.params.sqNum = UInt8.ofNat reports.length) :
    ∀ index other, (reports ++ [report])[index]? = some other → other.params.sqNum = UInt8.ofNat index := by
  intro index other found
  rcases Nat.lt_or_ge index reports.length with inside | outside
  · rw [getElem?_append_left inside] at found
    exact numbered index other found
  rw [getElem?_append_right outside] at found
  obtain ⟨rfl, rfl⟩ : index = reports.length ∧ report = other := by
    rw [getElem?_singleton] at found
    split at found
    · exact ⟨by omega, Option.some.inj found⟩
    · cases found
  exact last

theorem encoded_append {reports : List AttemptedReport} {live : LiveValues}
    (encoded : ∀ report ∈ reports, ∃ live, encodeReportPdus live report.params = .ok report.pdus)
    (last : encodeReportPdus live report.params = .ok report.pdus) :
    ∀ other ∈ reports ++ [report], ∃ live, encodeReportPdus live other.params = .ok other.pdus :=
  forall_mem_append.mpr ⟨encoded, forall_mem_singleton.mpr ⟨live, last⟩⟩

structure Served (connId : ConnectionId) (before after : ReportControl) : Prop where
  rptEna : after.state.rptEna = before.state.rptEna
  clientConnId : after.state.clientConnId = before.state.clientConnId
  resv : after.state.resv = before.state.resv
  datSet : after.state.datSet = before.state.datSet
  dataset : after.state.dataset = before.state.dataset
  gi : after.state.gi = true → before.state.gi = true
  partialReport : ∀ report, after.partialReport = some report →
    before.partialReport = some report ∨ report.connId = connId

theorem Served.trans {connId : ConnectionId} {first second third : ReportControl} (front : Served connId first second)
    (back : Served connId second third) : Served connId first third where
  rptEna := back.rptEna.trans front.rptEna
  clientConnId := back.clientConnId.trans front.clientConnId
  resv := back.resv.trans front.resv
  datSet := back.datSet.trans front.datSet
  dataset := back.dataset.trans front.dataset
  gi set := front.gi (back.gi set)
  partialReport report kept := by
    rcases back.partialReport report kept with kept | mine
    · exact front.partialReport report kept
    · exact .inr mine

theorem EnabledPeriod.resumed {events : List RcbEvent} {reports : List AttemptedReport} {taken left : List Bytes}
    (period : EnabledPeriod events reports) (underway : Underway reports (some (taken ++ left))) :
    ∃ more, EnabledPeriod (events ++ taken.map .accepted) more ∧
      Underway more (if left = [] then none else some left) ∧ more.length = reports.length := by
  cases underway with
  | @waiting earlier report later _ before started split _ behind =>
    let grown : AttemptedReport := { report with taken := report.taken ++ taken }
    have tells := period.tells.acceptedAll started behind taken
    have under : Underway (earlier ++ grown :: later) (if left = [] then none else some left) := by
      split
      next whole =>
        have sent : grown.Settled := .inr ⟨started, by simpa [whole] using split.symm⟩
        have dropped : ∀ other ∈ later, other.Settled := fun other member => .inl (behind other member)
        exact .settled (forall_mem_append.mpr ⟨before, forall_mem_cons.mpr ⟨sent, dropped⟩⟩)
      next cut => exact .waiting before started (by rw [split, ← append_assoc]) cut behind
    have same : (earlier ++ grown :: later).map (fun other => (other.params, other.pdus)) =
        (earlier ++ report :: later).map (fun other => (other.params, other.pdus)) := by
      simp [grown]
    refine ⟨earlier ++ grown :: later, ⟨tells, ⟨_, under⟩, ?_, ?_⟩, under, by simp⟩
    · intro index other found
      have paired := congrArg (fun list => list[index]?) same
      simp only [getElem?_map, found, Option.map_some] at paired
      obtain ⟨earlierOther, foundEarlier, equal⟩ := Option.map_eq_some_iff.mp paired.symm
      rw [← (Prod.mk.inj equal).1]
      exact period.numbered index earlierOther foundEarlier
    · intro other member
      have paired : (other.params, other.pdus) ∈
          (earlier ++ report :: later).map (fun other => (other.params, other.pdus)) := by
        rw [← same]
        exact mem_map.mpr ⟨other, member, rfl⟩
      obtain ⟨earlierOther, memberEarlier, equal⟩ := mem_map.mp paired
      obtain ⟨live, encoded⟩ := period.encoded earlierOther memberEarlier
      rw [(Prod.mk.inj equal).1, (Prod.mk.inj equal).2] at encoded
      exact ⟨live, encoded⟩

namespace RcbSession

variable {serving : RcbSession} {past : List RcbEvent} {reports : List AttemptedReport} {connId : ConnectionId}

/-- The period as a send leaves it: it goes on, or the connection turned out to be gone. -/
def Continues (past : List RcbEvent) (connId : ConnectionId) (sent : Option ConnectionId × RcbSession) : Prop :=
  (sent.1 = none ∧ ∃ reports, Sending sent.2.control (past ++ sent.2.events) reports) ∨
    sent.1 = some connId ∧ ∃ reports, EnabledPeriod (past ++ sent.2.events) reports

theorem sendPdus_served (serving : RcbSession) (connId : ConnectionId) (params : ReportEncodeParams)
    (pdus : List Bytes) :
    Served connId serving.control (serving.sendPdus connId params pdus).2.control := by
  unfold sendPdus
  dsimp only
  split
  · exact ⟨rfl, rfl, rfl, rfl, rfl, id, fun _ => .inl⟩
  split
  · exact ⟨rfl, rfl, rfl, rfl, rfl, id, fun _ => .inl⟩
  split
  · exact ⟨rfl, rfl, rfl, rfl, rfl, id, fun _ => .inl⟩
  · refine ⟨rfl, rfl, rfl, rfl, rfl, id, fun report kept => .inr ?_⟩
    cases kept
    rfl
  · exact ⟨rfl, rfl, rfl, rfl, rfl, id, fun _ => .inl⟩

theorem flushPending_served (serving : RcbSession) (connId : ConnectionId) (live : LiveValues) (pending : PendingReport)
    (nowMs : UInt64) : Served connId serving.control (serving.flushPending live connId pending nowMs).2.control := by
  unfold flushPending
  dsimp only
  split
  · exact ⟨rfl, rfl, rfl, rfl, rfl, id, fun _ => .inl⟩
  split
  · exact ⟨rfl, rfl, rfl, rfl, rfl, id, fun _ => .inl⟩
  · refine Served.trans ?_ (sendPdus_served _ connId _ _)
    exact ⟨rfl, rfl, rfl, rfl, rfl, id, fun _ => .inl⟩

theorem sendPdus_continues {params : ReportEncodeParams} {pdus : List Bytes} {live : LiveValues}
    (period : EnabledPeriod (past ++ serving.events) reports)
    (underway : Underway reports (serving.control.partialReport.map (·.rest)))
    (next : serving.control.state.sqNum = UInt8.ofNat (reports.length + 1))
    (bound : serving.control.state.dataset.isSome = true) (number : params.sqNum = UInt8.ofNat reports.length)
    (encodes : encodeReportPdus live params = .ok pdus) :
    Continues past connId (serving.sendPdus connId params pdus) := by
  -- the report as part of the period, whatever becomes of it
  have joins {events : List RcbEvent} {taken : List Bytes} {dropped : Bool} {rest : Option (List Bytes)}
      (tells : Tells events (reports ++ [⟨params, pdus, taken, dropped⟩]))
      (under : Underway (reports ++ [⟨params, pdus, taken, dropped⟩]) rest) :
      EnabledPeriod events (reports ++ [⟨params, pdus, taken, dropped⟩]) := by
    constructor
    · exact tells
    · exact ⟨rest, under⟩
    · exact numbered_append period.numbered number
    · exact encoded_append period.encoded encodes
  have grown (report : AttemptedReport) :
      serving.control.state.sqNum = UInt8.ofNat (reports ++ [report]).length := by
    rw [length_append, length_singleton]
    exact next
  generalize available : serving.channel.next.availableCapacity = free
  have isDropped (cause : LacksRoom free pdus ∨ ∃ other ∈ reports, other.Unfinished) :
      ∃ more, EnabledPeriod (past ++ (serving.events ++ [.attempted params pdus free] ++ [.dropped])) more ∧
        Underway more (serving.control.partialReport.map (·.rest)) ∧
        serving.control.state.sqNum = UInt8.ofNat more.length := by
    have under := @Underway.withheld _ _ ⟨params, pdus, [], true⟩ underway ⟨rfl, rfl⟩
    have tells := period.tells.dropped params pdus free cause
    rw [append_assoc past] at tells
    exact ⟨_, joins (by rwa [append_assoc]) under, under, grown _⟩
  unfold sendPdus emit
  dsimp only
  rw [available]
  split
  next full =>
    have lacking : LacksRoom free pdus := by
      simpa [← available, LacksRoom, Channel.hasRoom_eq_false] using full
    obtain ⟨more, told, under, counted⟩ := isDropped (.inl lacking)
    exact .inl ⟨rfl, more, told, under, counted, bound⟩
  next fits =>
  have room : ¬ LacksRoom free pdus := by
    simpa [← available, LacksRoom, Channel.hasRoom_eq_false] using fits
  split
  next busy =>
    obtain ⟨report, kept⟩ := Option.isSome_iff_exists.mp busy
    have waiting : Underway reports (some report.rest) := by
      rwa [show serving.control.partialReport = some report from kept] at underway
    obtain ⟨more, told, under, counted⟩ := isDropped (.inr waiting.unfinished)
    exact .inl ⟨rfl, more, told, under, counted, bound⟩
  next unoccupied =>
  -- nothing is under way, so every earlier report is settled
  have idle : serving.control.partialReport = none := Option.not_isSome_iff_eq_none.mp unoccupied
  have settled : ∀ report ∈ reports, report.Settled := by
    rw [idle] at underway
    cases underway with
    | settled all => exact all
  have started := period.tells.started params pdus free room fun other member =>
    (settled other member).not_unfinished
  generalize pushing : Channel.pushSegments _ 0 pdus = push
  obtain ⟨delivery, taken, channel⟩ := push
  have pushed : Pushed 0 pdus taken delivery := by
    have pushed := Channel.pushSegments_pushed serving.channel.next 0 pdus
    rwa [show serving.channel.next.pushSegments 0 pdus = _ from pushing] at pushed
  have tells := started.acceptedAll rfl (by simp) taken
  rw [append_assoc past, append_assoc past, nil_append] at tells
  cases pushed with
  | complete =>
    have under : Underway (reports ++ [⟨params, pdus, pdus, false⟩]) none :=
      .settled (forall_mem_append.mpr ⟨settled, forall_mem_singleton.mpr (.inr ⟨rfl, rfl⟩)⟩)
    refine .inl ⟨rfl, _, joins tells under, ?_, grown _, bound⟩
    change Underway _ (serving.control.partialReport.map (·.rest))
    rw [idle]
    exact under
  | blocked _ left split waits =>
    have under : Underway (reports ++ [⟨params, pdus, taken, false⟩]) (some left) :=
      .waiting settled rfl split waits (by simp)
    exact .inl ⟨rfl, _, joins tells under, under, grown _, bound⟩
  | gone _ left split waits =>
    have under : Underway (reports ++ [⟨params, pdus, taken, false⟩]) (some left) :=
      .waiting settled rfl split waits (by simp)
    exact .inr ⟨rfl, _, joins tells under⟩

theorem flushPending_continues (live : LiveValues) (pending : PendingReport) (nowMs : UInt64)
    (sending : Sending serving.control (past ++ serving.events) reports) :
    Continues past connId (serving.flushPending live connId pending nowMs) := by
  unfold flushPending
  dsimp only
  split
  next missing =>
    have bound := sending.dataset
    rw [missing] at bound
    cases bound
  next dataset found =>
  split
  · exact .inl ⟨rfl, reports, sending⟩
  next pdus encodes =>
  have next : serving.control.state.sqNum + 1 = UInt8.ofNat (reports.length + 1) := by
    rw [sending.next, UInt8.ofNat_add]
    rfl
  exact @sendPdus_continues (serving.setState { serving.control.state with sqNum := serving.control.state.sqNum + 1 })
    past reports connId _ pdus live sending.toEnabledPeriod sending.underway next sending.dataset sending.next encodes

end RcbSession

structure Traceable (control : ReportControl) : Prop extends control.Consistent where
  bound : control.Bound
  dataset : control.state.rptEna = true → control.state.dataset.isSome = true
  /-- a report is under way only for the holder of an enabled block -/
  owned : ∀ report, control.partialReport = some report →
    control.state.rptEna = true ∧ control.state.clientConnId = some report.connId

section

variable {connId : ConnectionId} {control after : ReportControl}

section

variable (traceable : Traceable control)

include traceable

theorem Traceable.served (served : Served connId control after)
    (enabled : control.state.rptEna = true) (holder : control.state.clientConnId = some connId) : Traceable after where
  resv := by
    rw [served.resv, served.clientConnId]
    exact traceable.resv
  enabled := by
    rw [served.rptEna, served.resv]
    exact traceable.enabled
  bound := by
    unfold Bound
    rw [served.datSet, served.dataset]
    exact traceable.bound
  dataset := by
    rw [served.rptEna, served.dataset]
    exact traceable.dataset
  owned := by
    intro report kept
    rw [served.rptEna, served.clientConnId]
    rcases served.partialReport report kept with kept | mine
    · exact traceable.owned report kept
    · rw [mine]
      exact ⟨enabled, holder⟩

theorem Traceable.partialReport_dropped (holder : control.state.clientConnId = some connId) :
    (control.onConnectionDropped connId).partialReport = none := by
  have mine : control.partialReport.filter (fun report => report.connId != connId) = none := by
    cases kept : control.partialReport with
    | none => rfl
    | some report =>
      have owner := (traceable.owned report kept).2
      rw [holder] at owner
      simp [Option.some.inj owner]
  simp [ReportControl.onConnectionDropped, holder, mine]

theorem Traceable.dropped_other (other : control.state.clientConnId ≠ some connId) :
    control.onConnectionDropped connId = control := by
  have kept : control.partialReport.filter (fun report => report.connId != connId) = control.partialReport := by
    cases kept : control.partialReport with
    | none => rfl
    | some report =>
      have owner := (traceable.owned report kept).2
      have differs : report.connId ≠ connId := by
        rintro rfl
        exact other owner
      simp [differs]
  simp [ReportControl.onConnectionDropped, other, kept]

theorem Traceable.dropped : Traceable (control.onConnectionDropped connId) := by
  by_cases holder : control.state.clientConnId = some connId
  · have consistent : (control.onConnectionDropped connId).Consistent := traceable.toConsistent.onConnectionDropped
    have disabled := (onConnectionDropped_of_holder holder).2.2
    refine ⟨consistent, ?_, ?_, ?_⟩
    · have bound := traceable.bound
      simpa [ReportControl.Bound, ReportControl.onConnectionDropped, holder, RcbState.clearPending] using bound
    · intro enabled
      rw [disabled] at enabled
      cases enabled
    · intro report kept
      rw [traceable.partialReport_dropped holder] at kept
      cases kept
  · rw [traceable.dropped_other holder]
    exact traceable

end

end

/-- The period as an operation leaves it: it goes on, or it is over. -/
def Leaves (control : ReportControl) (events : List RcbEvent) : Prop :=
  (control.state.rptEna = true ∧ ∃ reports, Sending control events reports) ∨
    control.state.rptEna = false ∧ control.partialReport = none ∧ ∃ reports, EnabledPeriod events reports

theorem Sending.of_same {control after : ReportControl} {events : List RcbEvent} {reports : List AttemptedReport}
    (sending : Sending control events reports) (sqNum : after.state.sqNum = control.state.sqNum)
    (dataset : after.state.dataset = control.state.dataset)
    (partialReport : after.partialReport = control.partialReport) :
    Sending after events reports where
  toEnabledPeriod := sending.toEnabledPeriod
  underway := by
    rw [partialReport]
    exact sending.underway
  next := sqNum.trans sending.next
  dataset := by
    rw [dataset]
    exact sending.dataset

namespace RcbSession

variable {serving : RcbSession} {past : List RcbEvent} {reports : List AttemptedReport} {connId : ConnectionId}

theorem Continues.leaves {sent : Option ConnectionId × RcbSession} (continues : Continues past connId sent)
    (traceable : Traceable sent.2.control) (enabled : sent.2.control.state.rptEna = true)
    (holder : sent.2.control.state.clientConnId = some connId) :
    Leaves (sent.2.dropConnection sent.1).control (past ++ (sent.2.dropConnection sent.1).events) := by
  rcases continues with ⟨alive, told⟩ | ⟨gone, told⟩
  · rw [alive]
    exact .inl ⟨enabled, told⟩
  · rw [gone]
    exact .inr ⟨(onConnectionDropped_of_holder holder).2.2, traceable.partialReport_dropped holder, told⟩

theorem dropConnection_traceable (traceable : Traceable serving.control) (gone : Option ConnectionId) :
    Traceable (serving.dropConnection gone).control := by
  cases gone with
  | none => exact traceable
  | some connId => exact traceable.dropped

theorem decideTick_served (serving : RcbSession) (connId : ConnectionId) (live : LiveValues) (now : Instant)
    (nowMs : UInt64) :
    Served connId serving.control (serving.setState (serving.control.state.decideTick live now nowMs).2).control := by
  have taken : Served connId serving.control (serving.setState serving.control.state.takeTriggered.2).control := by
    unfold RcbState.takeTriggered
    split <;> exact ⟨rfl, rfl, rfl, rfl, rfl, id, fun _ => .inl⟩
  unfold RcbState.decideTick
  split
  · exact ⟨taken.rptEna, taken.clientConnId, taken.resv, taken.datSet, taken.dataset, nofun, fun _ => .inl⟩
  split
  · exact ⟨taken.rptEna, taken.clientConnId, taken.resv, taken.datSet, taken.dataset, taken.gi, fun _ => .inl⟩
  split
  · split <;> exact ⟨rfl, rfl, rfl, rfl, rfl, id, fun _ => .inl⟩
  · exact ⟨rfl, rfl, rfl, rfl, rfl, id, fun _ => .inl⟩

variable (state : RcbState) (live : LiveValues) (batch : BatchValues) (members : List TriggeredMember) (now : Instant)
  (nowMs : UInt64)

theorem decideTick_sqNum : (state.decideTick live now nowMs).2.sqNum = state.sqNum := by
  have taken : state.takeTriggered.2.sqNum = state.sqNum := by
    unfold RcbState.takeTriggered
    split <;> rfl
  unfold RcbState.decideTick
  split
  · exact taken
  split
  · exact taken
  split
  · split <;> rfl
  · rfl

theorem perform_served (serving : RcbSession) (connId : ConnectionId) (live : LiveValues) (nowMs : UInt64)
    (action : TickAction) : Served connId serving.control (serving.perform live connId nowMs action).2.control := by
  cases action with
  | none => exact ⟨rfl, rfl, rfl, rfl, rfl, id, fun _ => .inl⟩
  | dataChange pending => exact flushPending_served serving connId live pending nowMs
  | full pendingDc pending =>
    cases pendingDc with
    | none => exact flushPending_served serving connId live pending nowMs
    | some pendingDc =>
      have first := flushPending_served serving connId live pendingDc nowMs
      unfold perform
      dsimp only
      generalize serving.flushPending live connId pendingDc nowMs = flushed at first ⊢
      obtain ⟨gone, sent⟩ := flushed
      cases gone with
      | some gone => exact first
      | none => exact first.trans (flushPending_served sent connId live pending nowMs)

theorem perform_continues (action : TickAction) (sending : Sending serving.control (past ++ serving.events) reports) :
    Continues past connId (serving.perform live connId nowMs action) := by
  cases action with
  | none => exact .inl ⟨rfl, reports, sending⟩
  | dataChange pending => exact flushPending_continues live pending nowMs sending
  | full pendingDc pending =>
    cases pendingDc with
    | none => exact flushPending_continues live pending nowMs sending
    | some pendingDc =>
      have first : Continues past connId (serving.flushPending live connId pendingDc nowMs) :=
        flushPending_continues live pendingDc nowMs sending
      unfold perform
      dsimp only
      generalize serving.flushPending live connId pendingDc nowMs = flushed at first ⊢
      obtain ⟨gone, sent⟩ := flushed
      rcases first with ⟨rfl, more, sending⟩ | ⟨rfl, told⟩
      · exact flushPending_continues live pending nowMs sending
      · exact .inr ⟨rfl, told⟩

theorem tickIdle_leaves (live : LiveValues) (now : Instant) (nowMs : UInt64) (traceable : Traceable serving.control)
    (enabled : serving.control.state.rptEna = true)
    (sending : Sending serving.control (past ++ serving.events) reports) :
    Traceable (serving.tickIdle live now nowMs).control ∧
      Leaves (serving.tickIdle live now nowMs).control (past ++ (serving.tickIdle live now nowMs).events) := by
  unfold tickIdle
  split
  next connId _ holder =>
    have decided := decideTick_served serving connId live now nowMs
    have performed := decided.trans
      (perform_served _ connId live nowMs (serving.control.state.decideTick live now nowMs).1)
    have kept := traceable.served performed enabled holder
    have told : Sending (serving.setState (serving.control.state.decideTick live now nowMs).2).control _ reports :=
      sending.of_same (decideTick_sqNum _ live now nowMs) decided.dataset rfl
    have continues : Continues past connId _ :=
      perform_continues live nowMs (serving.control.state.decideTick live now nowMs).1 told
    exact ⟨dropConnection_traceable kept _,
      continues.leaves kept (performed.rptEna.trans enabled) (performed.clientConnId.trans holder)⟩
  · exact ⟨traceable, .inl ⟨enabled, reports, sending⟩⟩

theorem tickIdle_of_disabled
    (disabled : serving.control.state.rptEna = false) : serving.tickIdle live now nowMs = serving := by
  unfold tickIdle
  rw [disabled]

theorem tickAt_of_disabled (live : LiveValues) (now : Instant) (nowMs : UInt64)
    (disabled : serving.control.state.rptEna = false) (clear : serving.control.partialReport = none) :
    serving.tickAt live now nowMs = serving := by
  unfold tickAt resumePartial
  simp only [clear]
  exact tickIdle_of_disabled live now nowMs disabled

theorem tickAt_leaves (traceable : Traceable serving.control) (enabled : serving.control.state.rptEna = true)
    (sending : Sending serving.control (past ++ serving.events) reports) :
    Traceable (serving.tickAt live now nowMs).control ∧
      Leaves (serving.tickAt live now nowMs).control (past ++ (serving.tickAt live now nowMs).events) := by
  unfold tickAt resumePartial
  cases kept : serving.control.partialReport with
  | none => exact tickIdle_leaves live now nowMs traceable enabled sending
  | some report =>
    have holder := (traceable.owned report kept).2
    simp only [enabled, holder, Bool.not_true, Bool.false_or, bne_self_eq_false, Bool.false_eq_true, if_false]
    generalize pushing : Channel.pushSegments _ 0 report.rest = push
    obtain ⟨delivery, taken, channel⟩ := push
    have pushed : Pushed 0 report.rest taken delivery := by
      have pushed := Channel.pushSegments_pushed serving.channel 0 report.rest
      rwa [show serving.channel.pushSegments 0 report.rest = _ from pushing] at pushed
    have underway := sending.underway
    rw [kept] at underway
    cases pushed with
    | complete =>
      have all : Underway reports (some (report.rest ++ [])) := by simpa using underway
      obtain ⟨more, period, settled, counted⟩ := sending.toEnabledPeriod.resumed all
      rw [append_assoc] at period
      refine @tickIdle_leaves _ past more live now nowMs ?_ enabled ?_
      · exact traceable.served ⟨rfl, rfl, rfl, rfl, rfl, id, nofun⟩ enabled holder
      · exact ⟨period, settled, by rw [counted]; exact sending.next, sending.dataset⟩
    | blocked _ left split waits =>
      rw [Option.map_some, split] at underway
      obtain ⟨more, period, under, counted⟩ := sending.toEnabledPeriod.resumed underway
      rw [append_assoc] at period
      rw [if_neg waits] at under
      refine ⟨?_, .inl ⟨enabled, more, period, under, by rw [counted]; exact sending.next, sending.dataset⟩⟩
      refine traceable.served ⟨rfl, rfl, rfl, rfl, rfl, id, ?_⟩ enabled holder
      rintro _ ⟨⟩
      exact .inr rfl
    | gone _ left split =>
      rw [Option.map_some, split] at underway
      obtain ⟨more, period, _⟩ := sending.toEnabledPeriod.resumed underway
      rw [append_assoc] at period
      have idle : Traceable (serving.setPartial none).control :=
        traceable.served ⟨rfl, rfl, rfl, rfl, rfl, id, nofun⟩ enabled holder
      have disabled := @ReportControl.onConnectionDropped_of_holder (serving.setPartial none).control _ holder
      exact ⟨idle.dropped, .inr ⟨disabled.2.2, idle.partialReport_dropped holder, more, period⟩⟩

theorem addMembers_served (serving : RcbSession) (connId : ConnectionId) (live : LiveValues) (batch : BatchValues)
    (members : List TriggeredMember) (now : Instant) (nowMs : UInt64) :
    Served connId serving.control (serving.addMembers live batch members now nowMs).control := by
  unfold addMembers
  dsimp only
  split
  · exact ⟨rfl, rfl, rfl, rfl, rfl, id, fun _ => .inl⟩
  split
  · exact ⟨rfl, rfl, rfl, rfl, rfl, id, fun _ => .inl⟩
  · exact ⟨rfl, rfl, rfl, rfl, rfl, id, fun _ => .inl⟩

theorem addMembers_continues {sent : Option ConnectionId × RcbSession} (continues : Continues past connId sent)
    (live : LiveValues) (batch : BatchValues) (members : List TriggeredMember) (now : Instant) (nowMs : UInt64) :
    Continues past connId (sent.1, sent.2.addMembers live batch members now nowMs) := by
  have events : (sent.2.addMembers live batch members now nowMs).events = sent.2.events := by
    unfold addMembers
    dsimp only
    split
    · rfl
    split <;> rfl
  have same : (sent.2.addMembers live batch members now nowMs).control.state.sqNum = sent.2.control.state.sqNum ∧
      (sent.2.addMembers live batch members now nowMs).control.partialReport = sent.2.control.partialReport := by
    unfold addMembers
    dsimp only
    split
    · exact ⟨rfl, rfl⟩
    split <;> exact ⟨rfl, rfl⟩
  unfold Continues
  rw [events]
  rcases continues with ⟨alive, reports, sending⟩ | gone
  · exact .inl ⟨alive, reports,
      sending.of_same same.1 (addMembers_served sent.2 connId live batch members now nowMs).dataset same.2⟩
  · exact .inr gone

theorem closeRetriggered_sent (holder : serving.control.state.clientConnId = some connId)
    (sending : Sending serving.control (past ++ serving.events) reports) :
    Served connId serving.control (serving.closeRetriggered live members nowMs).2.control ∧
      Continues past connId (serving.closeRetriggered live members nowMs) := by
  unfold closeRetriggered
  dsimp only
  split
  next pending holderId _ held =>
    obtain rfl : connId = holderId := Option.some.inj (holder.symm.trans held)
    split
    · have cleared : Sending (serving.setState serving.control.state.clearPending).control _ reports :=
        sending.of_same rfl rfl rfl
      have emptied : Served connId serving.control (serving.setState serving.control.state.clearPending).control :=
        ⟨rfl, rfl, rfl, rfl, rfl, id, fun _ => .inl⟩
      exact ⟨emptied.trans (flushPending_served _ connId live pending nowMs),
        flushPending_continues live pending nowMs cleared⟩
    · exact ⟨⟨rfl, rfl, rfl, rfl, rfl, id, fun _ => .inl⟩, .inl ⟨rfl, reports, sending⟩⟩
  · exact ⟨⟨rfl, rfl, rfl, rfl, rfl, id, fun _ => .inl⟩, .inl ⟨rfl, reports, sending⟩⟩

theorem triggerMembers_leaves (traceable : Traceable serving.control) (enabled : serving.control.state.rptEna = true)
    (sending : Sending serving.control (past ++ serving.events) reports) :
    Traceable (serving.triggerMembers live batch members now nowMs).control ∧
      Leaves (serving.triggerMembers live batch members now nowMs).control
        (past ++ (serving.triggerMembers live batch members now nowMs).events) := by
  obtain ⟨connId, holder⟩ := traceable.resv.mp (traceable.enabled enabled)
  unfold triggerMembers
  split
  · exact ⟨traceable, .inl ⟨enabled, reports, sending⟩⟩
  have closed := closeRetriggered_sent live members nowMs holder sending
  generalize serving.closeRetriggered live members nowMs = sent at closed ⊢
  obtain ⟨served, continues⟩ := closed
  dsimp only
  rw [if_pos (served.rptEna.trans enabled)]
  have added := served.trans (addMembers_served sent.2 connId live batch members now nowMs)
  have kept := traceable.served added enabled holder
  exact ⟨dropConnection_traceable kept _,
    (addMembers_continues continues live batch members now nowMs).leaves kept (added.rptEna.trans enabled)
      (added.clientConnId.trans holder)⟩

end RcbSession

/-- A trace made of enabled periods that are over, and of the one the block is in. -/
def Told (trace : List RcbEvent) (current : Option (List RcbEvent)) : Prop :=
  ∃ closed : List (List RcbEvent), (∀ period ∈ closed, ∃ reports, EnabledPeriod period reports) ∧
    trace = closed.flatMap (fun period => .enabled :: period ++ [.disabled]) ++ current.elim [] (.enabled :: ·)

section

variable {trace events more : List RcbEvent} {reports : List AttemptedReport}

theorem Told.enabled (told : Told trace none) : Told (trace ++ [.enabled]) (some []) := by
  obtain ⟨closed, periods, rfl⟩ := told
  exact ⟨closed, periods, by simp⟩

theorem Told.extend (told : Told trace (some events)) (more : List RcbEvent) :
    Told (trace ++ more) (some (events ++ more)) := by
  obtain ⟨closed, periods, rfl⟩ := told
  exact ⟨closed, periods, by simp⟩

theorem Told.disabled (told : Told trace (some events)) (period : EnabledPeriod events reports) :
    Told (trace ++ [.disabled]) none := by
  obtain ⟨closed, periods, rfl⟩ := told
  refine ⟨closed ++ [events], ?_, by simp⟩
  exact forall_mem_append.mpr ⟨periods, forall_mem_singleton.mpr ⟨reports, period⟩⟩

end

structure Chronicle (control : ReportControl) (trace : List RcbEvent) : Prop where
  traceable : Traceable control
  told : (control.state.rptEna = true ∧ ∃ events reports, Told trace (some events) ∧ Sending control events reports) ∨
    control.state.rptEna = false ∧ control.partialReport = none ∧ Told trace none

section

variable {control after : ReportControl} {trace : List RcbEvent}

theorem rptEnaEvents_same (same : after.state.rptEna = control.state.rptEna) : rptEnaEvents control after = [] := by
  unfold rptEnaEvents
  rw [same]
  cases control.state.rptEna <;> rfl

theorem rptEnaEvents_enabled (disabled : control.state.rptEna = false) (enabled : after.state.rptEna = true) :
    rptEnaEvents control after = [.enabled] := by
  unfold rptEnaEvents
  rw [disabled, enabled]

theorem rptEnaEvents_disabled (enabled : control.state.rptEna = true) (disabled : after.state.rptEna = false) :
    rptEnaEvents control after = [.disabled] := by
  unfold rptEnaEvents
  rw [disabled, enabled]

theorem Chronicle.of_leaves {events more : List RcbEvent} (enabled : control.state.rptEna = true)
    (told : Told trace (some events)) (traceable : Traceable after) (leaves : Leaves after (events ++ more)) :
    Chronicle after (trace ++ (more ++ rptEnaEvents control after)) := by
  refine ⟨traceable, ?_⟩
  have extended := told.extend more
  rcases leaves with ⟨still, reports, sending⟩ | ⟨disabled, clear, reports, period⟩
  · rw [rptEnaEvents_same (still.trans enabled.symm), append_nil]
    exact .inl ⟨still, _, reports, extended, sending⟩
  · rw [rptEnaEvents_disabled enabled disabled, ← append_assoc]
    exact .inr ⟨disabled, clear, extended.disabled period⟩

theorem Chronicle.unchanged (chronicle : Chronicle control trace) :
    Chronicle control (trace ++ ([] ++ rptEnaEvents control control)) := by
  rw [rptEnaEvents_same rfl, append_nil, append_nil]
  exact chronicle

theorem Chronicle.written (chronicle : Chronicle control trace) (consistent : after.Consistent)
    (holder : control.state.rptEna = true → after.state.rptEna = true → after.state.clientConnId =
      control.state.clientConnId) (switched : control.Switched after) :
    Chronicle after (trace ++ ([] ++ rptEnaEvents control after)) := by
  obtain ⟨traceable, told⟩ := chronicle
  rw [nil_append]
  cases switched with
  | kept rptEna sqNum partialReport _ dataset bound =>
    rw [rptEnaEvents_same rptEna, append_nil]
    refine ⟨⟨consistent, bound traceable.bound, ?_, ?_⟩, ?_⟩
    · intro enabled
      rw [rptEna] at enabled
      rw [dataset enabled]
      exact traceable.dataset enabled
    · intro report kept
      rw [partialReport] at kept
      obtain ⟨enabled, owner⟩ := traceable.owned report kept
      rw [rptEna, holder enabled (rptEna.trans enabled)]
      exact ⟨enabled, owner⟩
    · rcases told with ⟨enabled, events, reports, told, sending⟩ | ⟨disabled, clear, told⟩
      · exact .inl ⟨rptEna.trans enabled, events, reports, told, sending.of_same sqNum (dataset enabled) partialReport⟩
      · exact .inr ⟨rptEna.trans disabled, partialReport.trans clear, told⟩
  | enabled disabled rptEna sqNum partialReport _ dataset datSet named =>
    rw [rptEnaEvents_enabled disabled rptEna]
    rcases told with ⟨enabled, _⟩ | ⟨_, clear, told⟩
    · rw [disabled] at enabled
      cases enabled
    have bound : after.state.dataset.isSome = true := by
      rw [dataset]
      exact traceable.bound named
    refine ⟨⟨consistent, fun _ => bound, fun _ => bound, ?_⟩, .inl ⟨rptEna, [], [], told.enabled, ?_⟩⟩
    · intro report kept
      rw [partialReport, clear] at kept
      cases kept
    · have idle : Underway [] none := .settled (by simp)
      refine ⟨⟨.start, ⟨_, idle⟩, by simp, by simp⟩, ?_, sqNum, bound⟩
      rw [partialReport, clear]
      exact idle
  | disabled enabled rptEna partialReport _ dataset datSet =>
    rw [rptEnaEvents_disabled enabled rptEna]
    rcases told with ⟨_, events, reports, told, sending⟩ | ⟨disabled, _⟩
    · refine ⟨⟨consistent, ?_, ?_, ?_⟩, .inr ⟨rptEna, partialReport, told.disabled sending.toEnabledPeriod⟩⟩
      · unfold Bound
        rw [datSet, dataset]
        exact traceable.bound
      · intro isEnabled
        rw [rptEna] at isEnabled
        cases isEnabled
      · intro report kept
        rw [partialReport] at kept
        cases kept
    · rw [disabled] at enabled
      cases enabled

theorem Chronicle.lost (chronicle : Chronicle control trace) (connId : ConnectionId) :
    Chronicle (control.onConnectionDropped connId)
      (trace ++ ([] ++ rptEnaEvents control (control.onConnectionDropped connId))) := by
  by_cases holder : control.state.clientConnId = some connId
  · have disabled := (onConnectionDropped_of_holder holder).2.2
    have clear := chronicle.traceable.partialReport_dropped holder
    rcases chronicle.told with ⟨enabled, events, reports, told, sending⟩ | ⟨off, _, told⟩
    · refine .of_leaves enabled told chronicle.traceable.dropped (.inr ⟨disabled, clear, reports, ?_⟩)
      rw [append_nil]
      exact sending.toEnabledPeriod
    · rw [rptEnaEvents_same (disabled.trans off.symm), append_nil, append_nil]
      exact ⟨chronicle.traceable.dropped, .inr ⟨disabled, clear, told⟩⟩
  · rw [chronicle.traceable.dropped_other holder]
    exact chronicle.unchanged

end

namespace UrcbStep

theorem holder_of_written {conn : ConnectionId} {control after : ReportControl} {answer : Answer}
    (written : Written conn control answer after) (enabled : control.state.rptEna = true)
    (_ : after.state.rptEna = true) : after.state.clientConnId = control.state.clientConnId := by
  cases written with
  | refused _ _ rights _ | disabled _ _ rights _ | field _ _ rights _ => exact congrArg RcbRights.clientConnId rights
  | reserved _ _ disabled _ | released _ _ disabled _ | enabled _ _ disabled _ =>
    rw [disabled] at enabled
    cases enabled

theorem chronicle_of_serve {control : ReportControl} {trace : List RcbEvent} {step : UrcbStep}
    (chronicle : Chronicle control trace)
    (active : control.state.rptEna = true → ∀ {past reports}, Sending control (past ++ []) reports → Traceable
      (step.after control) ∧ Leaves (step.after control) (past ++ (step.serve control).2))
    (idle : control.state.rptEna = false → control.partialReport = none → step.serve control = (control, [])) :
    Chronicle (step.after control) (trace ++ step.events control) := by
  rcases chronicle.told with ⟨enabled, past, reports, told, sending⟩ | ⟨disabled, clear, _⟩
  · rw [← append_nil past] at sending
    obtain ⟨traceable, leaves⟩ := active enabled sending
    exact .of_leaves enabled told traceable leaves
  · unfold events after
    rw [idle disabled clear]
    exact chronicle.unchanged

theorem chronicle {control : ReportControl} {trace : List RcbEvent} (step : UrcbStep)
    (chronicle : Chronicle control trace) : Chronicle (step.after control) (trace ++ step.events control) := by
  have traceable := chronicle.traceable
  cases step with
  | write field value conn now =>
    have written := control.handleSetRcbField_written field value conn now
    exact chronicle.written (written.consistent traceable.toConsistent) (holder_of_written written)
      (control.handleSetRcbField_switched field value conn now)
  | connectionLost conn => exact chronicle.lost conn
  | updates batch watched live channel now nowMs =>
    refine chronicle_of_serve chronicle (fun enabled past reports sending => ?_) fun disabled _ => ?_
    · unfold after serve RcbSession.triggerUrcbBatch
      dsimp only
      rw [if_pos enabled]
      exact RcbSession.triggerMembers_leaves live batch _ now nowMs traceable enabled sending
    · simp [serve, RcbSession.triggerUrcbBatch, disabled]
  | update changed live channel now nowMs =>
    refine chronicle_of_serve chronicle (fun enabled past reports sending => ?_) fun disabled _ => ?_
    · unfold after serve RcbSession.onValueUpdated
      dsimp only
      rw [if_pos enabled]
      exact RcbSession.triggerMembers_leaves live .none _ now nowMs traceable enabled sending
    · simp [serve, RcbSession.onValueUpdated, disabled]
  | tick live channel now nowMs =>
    refine chronicle_of_serve chronicle (fun enabled past reports sending => ?_) fun disabled clear => ?_
    · exact RcbSession.tickAt_leaves live now nowMs traceable enabled sending
    · have unchanged := @RcbSession.tickAt_of_disabled ⟨control, channel, []⟩ live now nowMs disabled clear
      simp [serve, unchanged]

end UrcbStep

theorem traceUrcb_chronicle {control : ReportControl} {trace : List RcbEvent} (chronicle : Chronicle control trace)
    (steps : List UrcbStep) : Chronicle (runUrcb steps control) (trace ++ traceUrcb steps control) := by
  induction steps generalizing control trace with
  | nil => simpa [runUrcb, traceUrcb] using chronicle
  | cons step rest ih =>
    have later := ih (step.chronicle chronicle)
    rwa [append_assoc] at later

def acceptedSegments (events : List RcbEvent) : List Bytes :=
  events.filterMap fun event =>
    match event with
    | .accepted pdu => some pdu
    | _ => none

/-- The segments of an enabled period, report by report. -/
structure SentInOrder (events : List RcbEvent) (reports : List AttemptedReport) : Prop where
  tells : Tells events reports
  accepted : acceptedSegments events = reports.flatMap (·.taken)
  encoded : ∀ report ∈ reports, ∃ live, encodeReportPdus live report.params = .ok report.pdus
  /-- a report is sent whole or dropped whole, unless it is the last one started -/
  whole : ∀ earlier report later, reports = earlier ++ report :: later →
    report.Settled ∨ report.taken <+: report.pdus ∧ ∀ other ∈ later, other.Withheld
  numbered : ∀ earlier report later, reports = earlier ++ report :: later →
    report.params.sqNum.toNat = earlier.length % 256
  /-- the numbers of two reports that follow each other in the channel differ by the reports dropped
  in between -/
  gap : ∀ earlier first between second later, reports = earlier ++ first :: (between ++ second :: later) →
    (∀ other ∈ between, other.Withheld) →
    (second.params.sqNum - first.params.sqNum).toNat = (between.length + 1) % 256

theorem Tells.accepted_taken {events : List RcbEvent} {reports : List AttemptedReport} (told : Tells events reports) :
    acceptedSegments events = reports.flatMap (·.taken) := by
  induction told with
  | start => rfl
  | dropped told params pdus free cause ih => simpa [acceptedSegments] using ih
  | started told params pdus free room idle ih => simpa [acceptedSegments] using ih
  | @accepted events earlier report later told started behind pdu ih =>
    have silent : later.flatMap (·.taken) = [] := by
      rw [flatMap_eq_nil_iff]
      exact fun other member => (behind other member).2
    simp only [acceptedSegments, flatMap_append, flatMap_cons, silent, append_nil,
      filterMap_append] at ih ⊢
    rw [ih]
    simp

theorem Underway.whole {reports : List AttemptedReport}
    {rest : Option (List Bytes)} (underway : Underway reports rest) (split : reports = earlier ++ report :: later) :
    report.Settled ∨ report.taken <+: report.pdus ∧ ∀ other ∈ later, other.Withheld := by
  cases underway with
  | settled all => exact .inl (all report (by simp [split]))
  | @waiting front current back rest before started pdus _ behind =>
    rcases append_eq_append_iff.mp split with ⟨between, rfl, tail⟩ | ⟨between, rfl, tail⟩
    · cases between with
      | nil =>
        obtain ⟨rfl, rfl⟩ := cons.inj tail
        exact .inr ⟨⟨rest, pdus.symm⟩, behind⟩
      | cons head between =>
        obtain ⟨rfl, rfl⟩ := cons.inj tail
        exact .inl (.inl (behind report (by simp)))
    · cases between with
      | nil =>
        obtain ⟨rfl, rfl⟩ := cons.inj tail
        exact .inr ⟨⟨rest, pdus.symm⟩, behind⟩
      | cons head between =>
        obtain ⟨rfl, rfl⟩ := cons.inj tail
        exact .inl (before report (by simp))

theorem EnabledPeriod.sentInOrder {events : List RcbEvent} {reports : List AttemptedReport}
    (period : EnabledPeriod events reports) :
    SentInOrder events reports where
  tells := period.tells
  accepted := period.tells.accepted_taken
  encoded := period.encoded
  whole _ _ _ split := period.inOrder.elim fun _ underway => underway.whole split
  numbered earlier report later split := by
    rw [period.numbered earlier.length report (by simp [split]), UInt8.toNat_ofNat']
  gap earlier first between second later split _ := by
    rw [period.numbered earlier.length first (by simp [split]),
      period.numbered (earlier.length + (between.length + 1)) second (by simp [split]), UInt8.ofNat_add,
      UInt8.add_comm, UInt8.add_sub_cancel, UInt8.toNat_ofNat']

/-- A block whose reports go out in segments of 60 octets, one or two members in each. -/
def narrowUrcb : ReportControl :=
  .registered "LD0/LLN0$RP$urcb01"
    { name := "urcb01", rptId := "", datasetName := "events", confRev := 1, trgOps := ⟨0x1f⟩
      optFlds := ⟨0⟩, bufTmMs := 0, intgPdMs := 0, clientReservation := none, withOwner := true }
    { name := "events", entries := List.replicate 33 ⟨"a", .leaf ⟨"a", 0⟩⟩ }
    (fun _ => none) (fun _ => some { ip := .v4 (Vector.replicate 4 0), maxPduSizeBytes := 60 })

end Iec61850.Reporting
