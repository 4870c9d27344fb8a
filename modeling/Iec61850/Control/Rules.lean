import Iec61850.Concurrency.Monitor
import Iec61850.Control.Deadline

/-!
The rules of the control models, as a monitor that reads what an observer of the object sees: who
holds the selection, with which value and until when, and which commands are executing. The end
steps of a command do not say which command they end, and an Operate is admitted some time after its
request has looked for an elapsed selection; the object keeps the rules in every run in which each
end step finds its own command executing, or nothing to end, and no selection runs out between that
look and the admission.
-/

namespace Iec61850.Control

open Concurrency List
open Proc (Respects)

/-- A selection, with the instant it began or was last renewed and how long it then lasts; a time of
0 is no limit. -/
structure Selection where
  owner : ConnectionId
  value : Option OperParams
  operates : Nat
  since : Instant
  timeoutMs : UInt32

def Selection.LiveAt (selection : Selection) (instant : Instant) : Prop :=
  selection.timeoutMs = 0 ∨ instant - selection.since < selection.timeoutMs.toNat

instance (selection : Selection) (instant : Instant) : Decidable (selection.LiveAt instant) :=
  inferInstanceAs (Decidable (_ ∨ _))

def OperParams.Repeats (oper sbow : OperParams) : Prop :=
  oper.ctlVal = sbow.ctlVal ∧ oper.origin = sbow.origin ∧ oper.ctlNum = sbow.ctlNum ∧ oper.test = sbow.test

/-- The selection lets its owner operate: while it is live, with its value under enhanced security,
and once if it is for one Operate. -/
structure Selection.Admits (selection : Selection) (connId : ConnectionId) (params : OperParams)
    (settings : ControlSettings) (now : Instant) : Prop where
  owner : selection.owner = connId
  live : selection.LiveAt now
  value : settings.ctlModel = .sboEnhanced → ∃ sbow, selection.value = some sbow ∧ params.Repeats sbow
  once : settings.sboClass = .operateOnce → selection.operates = 0

structure Ideal where
  selection : Option Selection
  executing : List Nat

/-- A finished command renews the selection it was for. An Operate may be admitted only while
nothing is executing, and by a select-before-operate object only if the selection admits it; only
its owner may cancel a selection. -/
def rules : Monitor Ideal Event where
  start := { selection := none, executing := [] }
  step ideal
    | .selected owner settings value now =>
      { ideal with
        selection := some { owner, value, operates := 0, since := now, timeoutMs := settings.sboTimeoutMs } }
    | .admitted command _ _ _ _ _ =>
      { selection := ideal.selection.map fun selection => { selection with operates := selection.operates + 1 }
        executing := command :: ideal.executing }
    | .canceled _ => { ideal with selection := none }
    | .deselected _ => { ideal with selection := none }
    | .ended command _ .abort _ => { ideal with executing := ideal.executing.erase command }
    | .ended command _ .finish now =>
      { selection := ideal.selection.map fun selection =>
          if command ∈ ideal.executing then { selection with since := now } else selection
        executing := ideal.executing.erase command }
    | .notified _ => ideal
  allowed ideal
    | .admitted _ connId params settings _ now =>
      ideal.executing = [] ∧
        (settings.isSbo = true →
          ∃ selection, ideal.selection = some selection ∧ selection.Admits connId params settings now)
    | .canceled connId => ∃ selection, ideal.selection = some selection ∧ selection.owner = connId
    | .selected _ _ _ _ => True
    | .deselected _ => True
    | .ended _ _ _ _ => True
    | .notified _ => True

/-- An unselected object has forgotten its owner, the selected value and the deadline. -/
def ControlObjectInner.Clean (inner : ControlObjectInner) : Prop :=
  inner.state = .unselected →
    inner.ownerConnId = 0 ∧ inner.lastOperParams = none ∧ inner.selectTime = none ∧ inner.timer = none

structure Holds (inner : ControlObjectInner) (selection : Selection) (active : ControlSettings) : Prop where
  inForce : inner.active = some active
  owner : selection.owner = inner.ownerConnId
  since : inner.selectTime = some selection.since
  timeout : selection.timeoutMs = active.sboTimeoutMs
  value : active.ctlModel = .sboEnhanced → ∀ last, inner.lastOperParams = some last →
    ∃ sbow, selection.value = some sbow ∧ last.Repeats sbow ∧ nestedZeroFree sbow.ctlVal = true

/-- The record in each state, against what the clients know. -/
def Linked (inner : ControlObjectInner) (ideal : Ideal) : Prop :=
  match inner.state with
  | .unselected => ideal = { selection := none, executing := [] } ∧ inner.lastOperParams = none
  | .ready => ideal.executing = [] ∧ ∃ selection active, ideal.selection = some selection ∧
    Holds inner selection active ∧ (active.sboClass = .operateOnce → selection.operates = 0)
  | .waitForExecution | .operate => ∃ command active, ideal.executing = [command] ∧ inner.active = some active ∧
      (active.isSbo = true → ∃ selection, ideal.selection = some selection ∧ Holds inner selection active) ∧
      (active.isSbo = false → ideal.selection = none)

/-- A command takes an end step while it is executing, or finds nothing to end; the value of a
SelectWithValue has no zero inside an array or a structure; and a selection that is live when a
request looks for an elapsed one is still live when its Operate is admitted. -/
def Event.Orderly (ideal : Ideal) (state : ControlState) : Event → Prop
  | .ended command _ .abort _ => command ∈ ideal.executing ∨ state = .unselected
  | .ended command _ .finish _ => command ∈ ideal.executing ∨ state.isExecuting = false
  | .selected _ _ value _ => ∀ sbow ∈ value, nestedZeroFree sbow.ctlVal = true
  | .admitted _ _ _ _ checked now =>
    ∀ selection ∈ ideal.selection, selection.LiveAt checked → selection.LiveAt now
  | .canceled _ => True
  | .deselected _ => True
  | .notified _ => True

instance (ideal : Ideal) (state : ControlState) : (event : Event) → Decidable (event.Orderly ideal state)
  | .ended _ _ .abort _ => inferInstanceAs (Decidable (_ ∨ _))
  | .ended _ _ .finish _ => inferInstanceAs (Decidable (_ ∨ _))
  | .selected _ _ value _ => Option.decidableForallMem value
  | .admitted _ _ _ _ _ _ => Option.decidableForallMem ideal.selection
  | .canceled _ => .isTrue trivial
  | .deselected _ => .isTrue trivial
  | .notified _ => .isTrue trivial

theorem paramsConsistent_repeats {oper sbow : OperParams} (consistent : paramsConsistent oper sbow = true)
    (free : nestedZeroFree sbow.ctlVal = true) : oper.Repeats sbow := by
  simp only [paramsConsistent, Bool.and_eq_true, beq_iff_eq] at consistent
  obtain ⟨⟨⟨⟨⟨value, origin⟩, ctlNum⟩, _⟩, _⟩, test⟩ := consistent
  exact ⟨eq_of_mmsValueBinaryEqual value free, origin, ctlNum, test⟩

theorem OperParams.Repeats.trans {first second third : OperParams} (one : first.Repeats second)
    (two : second.Repeats third) : first.Repeats third :=
  ⟨one.1.trans two.1, one.2.1.trans two.2.1, one.2.2.1.trans two.2.2.1, one.2.2.2.trans two.2.2.2⟩

variable {before after : ControlObject} {ideal : Ideal} {events : List Event}

theorem acceptsFrom_notifications (silent : ∀ event ∈ events, event.IsNotification) :
    rules.AcceptsFrom ideal events ∧ rules.afterFrom ideal events = ideal := by
  induction events with
  | nil => exact ⟨trivial, rfl⟩
  | cons event rest ih =>
    have first := silent event mem_cons_self
    obtain ⟨accepted, same⟩ := ih fun event member => silent event (mem_cons_of_mem _ member)
    cases event with
    | notified change => exact ⟨⟨trivial, accepted⟩, same⟩
    | selected | admitted | canceled | deselected | ended => cases first

variable {inner : ControlObjectInner} {command : Nat}

theorem Linked.unselected (linked : Linked inner ideal) (state : inner.state = .unselected) :
    ideal = { selection := none, executing := [] } ∧ inner.lastOperParams = none := by
  simpa only [Linked, state] using linked

theorem Linked.ready (linked : Linked inner ideal) (state : inner.state = .ready) :
    ideal.executing = [] ∧ ∃ selection active, ideal.selection = some selection ∧ Holds inner selection active ∧
      (active.sboClass = .operateOnce → selection.operates = 0) := by
  simpa only [Linked, state] using linked

theorem Linked.executing (linked : Linked inner ideal) (state : inner.state.isExecuting = true) :
    ∃ command active, ideal.executing = [command] ∧ inner.active = some active ∧
      (active.isSbo = true → ∃ selection, ideal.selection = some selection ∧ Holds inner selection active) ∧
      (active.isSbo = false → ideal.selection = none) := by
  cases inState : inner.state with
  | unselected | ready => rw [inState] at state; cases state
  | waitForExecution | operate => simpa only [Linked, inState] using linked

theorem linked_of_executing (state : inner.state.isExecuting = true)
    (running : ∃ command active, ideal.executing = [command] ∧ inner.active = some active ∧ (active.isSbo = true → ∃
      selection, ideal.selection = some selection ∧ Holds inner selection active) ∧ (active.isSbo = false →
      ideal.selection = none)) : Linked inner ideal := by
  cases inState : inner.state with
  | unselected | ready => rw [inState] at state; cases state
  | waitForExecution | operate => simpa only [Linked, inState] using running

theorem Linked.isExecuting_of_mem (linked : Linked inner ideal)
    (member : command ∈ ideal.executing) : inner.state.isExecuting = true := by
  cases state : inner.state with
  | unselected =>
    rw [(linked.unselected state).1] at member
    cases member
  | ready =>
    rw [(linked.ready state).1] at member
    cases member
  | waitForExecution | operate => rfl

theorem linked_clear (inner : ControlObjectInner) : Linked inner.clear { selection := none, executing := [] } :=
  ⟨rfl, rfl⟩

theorem settingsLocked_of_active {active : ControlSettings}
    (busy : inner.state ≠ .unselected) (inForce : inner.active = some active) (live : ControlSettings) :
    inner.settingsLocked live = active := by
  simp only [ControlObjectInner.settingsLocked, inForce]
  exact if_pos busy

theorem Linked.own (linked : Linked inner ideal) (own : command ∈ ideal.executing) :
    inner.state ≠ .unselected ∧ ideal.executing.erase command = [] ∧ ∃ active, inner.active = some active ∧
      (active.isSbo = true → ∃ selection, ideal.selection = some selection ∧ Holds inner selection active) := by
  have executing := linked.isExecuting_of_mem own
  obtain ⟨running, active, only, inForce, selected, _⟩ := linked.executing executing
  rw [only] at own
  cases mem_singleton.mp own
  refine ⟨?_, by simp [only], active, inForce, selected⟩
  intro unselected
  rw [unselected] at executing
  cases executing

section

variable (linked : Linked before.inner ideal) (own : command ∈ ideal.executing) (connId : ConnectionId)

include linked own connId

theorem linked_finishing_own :
    Linked (finishing before).2.1
      (rules.afterFrom ideal (.ended command connId .finish before.now :: (finishing before).2.2)) := by
  have executing := linked.isExecuting_of_mem own
  obtain ⟨busy, ends, active, inForce, selected⟩ := linked.own own
  have settings := settingsLocked_of_active busy inForce before.live
  simp only [finishing, executing, settings, Bool.not_true, Bool.false_eq_true, if_false]
  split
  · simp only [Monitor.afterFrom, foldl_cons, foldl_nil, rules, ends]
    exact linked_clear _
  next sbo =>
  split
  · next many =>
    obtain ⟨selection, known, holds⟩ := selected (by simpa using sbo)
    simp only [Monitor.afterFrom, foldl_cons, foldl_nil, rules, ends, known, Option.map_some, own, if_true]
    refine ⟨rfl, _, active, rfl, ⟨rfl, holds.owner, rfl, holds.timeout, holds.value⟩, ?_⟩
    intro once
    rw [once] at many
    cases many.1
  · simp only [Monitor.afterFrom, foldl_cons, foldl_nil, rules, ends]
    exact linked_clear _

theorem linked_aborting_own (reason : SelectStateChangedReason) : Linked (aborting before reason).2.1
      (rules.afterFrom ideal (.ended command connId .abort before.now :: (aborting before reason).2.2)) := by
  obtain ⟨busy, ends, _⟩ := linked.own own
  simp only [aborting, if_pos busy, Monitor.afterFrom, foldl_cons, foldl_nil, rules, ends]
  exact linked_clear _

end

theorem Linked.executing_eq_nil (linked : Linked inner ideal)
    (idle : inner.state.isExecuting = false) : ideal.executing = [] := by
  cases state : inner.state with
  | unselected => rw [(linked.unselected state).1]
  | ready => exact (linked.ready state).1
  | waitForExecution | operate => rw [state] at idle; cases idle

theorem linked_finishing (linked : Linked before.inner ideal) (connId : ConnectionId)
    (orderly : command ∈ ideal.executing ∨ before.inner.state.isExecuting = false) :
    Linked (finishing before).2.1
      (rules.afterFrom ideal (.ended command connId .finish before.now :: (finishing before).2.2)) := by
  rcases orderly with own | idle
  · exact linked_finishing_own linked own connId
  · have none := linked.executing_eq_nil idle
    have same : rules.afterFrom ideal [.ended command connId .finish before.now] = ideal := by
      cases ideal
      simp_all [Monitor.afterFrom, rules]
    simp only [finishing, idle, Bool.not_false, if_true, same]
    exact linked

theorem linked_aborting (linked : Linked before.inner ideal) (connId : ConnectionId)
    (reason : SelectStateChangedReason) (orderly : command ∈ ideal.executing ∨ before.inner.state = .unselected) :
    Linked (aborting before reason).2.1
      (rules.afterFrom ideal (.ended command connId .abort before.now :: (aborting before reason).2.2)) := by
  rcases orderly with own | unselected
  · exact linked_aborting_own linked own connId reason
  obtain ⟨nothing, _⟩ := linked.unselected unselected
  rw [nothing]
  simp only [aborting, unselected, ne_eq, not_true_eq_false, if_false, Monitor.afterFrom, foldl_cons,
    foldl_nil, rules, erase_nil]
  exact linked_clear _

theorem acceptsFrom_finishing (connId : ConnectionId) (command : Nat) :
    rules.AcceptsFrom ideal (.ended command connId .finish before.now :: (finishing before).2.2) := by
  refine ⟨trivial, ?_⟩
  simp only [finishing]
  split
  · trivial
  split
  · exact ⟨trivial, trivial⟩
  · split
    · trivial
    · exact ⟨trivial, trivial⟩

theorem acceptsFrom_aborting (connId : ConnectionId) (command : Nat) (reason : SelectStateChangedReason) :
    rules.AcceptsFrom ideal (.ended command connId .abort before.now :: (aborting before reason).2.2) := by
  refine ⟨trivial, ?_⟩
  simp only [aborting]
  split
  · exact ⟨trivial, trivial⟩
  · trivial

/-- What the look for an elapsed selection found, of the selection the observer knows. -/
theorem Holds.liveAt {selection : Selection} {active : ControlSettings} {instant : Instant}
    (holds : Holds inner selection active) (ready : inner.state = .ready)
    (inTime : inner.elapsedPeriod instant = none) : selection.LiveAt instant := by
  have elapsed : ¬ (active.sboTimeoutMs ≠ 0 ∧ active.sboTimeoutMs.toNat ≤ instant - selection.since) := by
    intro elapsed
    simp only [ControlObjectInner.elapsedPeriod, ready, holds.since, holds.inForce, if_pos elapsed] at inTime
    cases inTime
  rw [Selection.LiveAt, holds.timeout]
  by_cases unlimited : active.sboTimeoutMs = 0
  · exact .inl unlimited
  · exact .inr (Nat.not_le.mp fun late => elapsed ⟨unlimited, late⟩)

/-- A section keeps the rules and the link between the record and what the clients know. -/
theorem ObjectStep.linked (step : ObjectStep before events after) (linked : Linked before.inner ideal)
    (inTime : InTime before events after)
    (orderly : ∀ event ∈ events, event.Orderly ideal before.inner.state) :
    rules.AcceptsFrom ideal events ∧ Linked after.inner (rules.afterFrom ideal events) := by
  cases step with
  | quiet inner admitted later silent =>
    obtain ⟨accepted, same⟩ : rules.AcceptsFrom ideal events ∧ rules.afterFrom ideal events = ideal :=
      acceptsFrom_notifications silent
    rw [same, inner]
    exact ⟨accepted, linked⟩
  | armed ready =>
    obtain ⟨idle, selection, active, known, holds, once⟩ := linked.ready ready
    refine ⟨trivial, ?_⟩
    simp only [Linked, ready]
    exact ⟨idle, selection, active, known,
      ⟨holds.inForce, holds.owner, holds.since, holds.timeout, holds.value⟩, once⟩
  | ownerLost executing =>
    obtain ⟨command, active, only, inForce, selected, direct⟩ := linked.executing executing
    refine ⟨trivial, ?_⟩
    have kept : active.isSbo = true → ∃ selection, ideal.selection = some selection ∧
        Holds { before.inner with ownerLost := true } selection active := by
      intro sbo
      obtain ⟨selection, known, holds⟩ := selected sbo
      exact ⟨selection, known, holds.inForce, holds.owner, holds.since, holds.timeout, holds.value⟩
    exact linked_of_executing executing ⟨command, active, only, inForce, kept, direct⟩
  | started waiting =>
    have executing : before.inner.state.isExecuting = true := by rw [waiting]; rfl
    obtain ⟨command, active, only, inForce, selected, direct⟩ := linked.executing executing
    refine ⟨trivial, command, active, only, inForce, ?_, direct⟩
    intro sbo
    obtain ⟨selection, known, holds⟩ := selected sbo
    exact ⟨selection, known, holds.inForce, holds.owner, holds.since, holds.timeout, holds.value⟩
  | @selected connId unselected =>
    obtain ⟨nothing, noValue⟩ := linked.unselected unselected
    rw [nothing]
    refine ⟨⟨trivial, trivial⟩, rfl, _, before.live, rfl, ⟨rfl, rfl, rfl, rfl, ?_⟩, fun _ => rfl⟩
    intro _ last recorded
    have none : before.inner.lastOperParams = some last := recorded
    rw [noValue] at none
    cases none
  | @selectedWithValue connId params unselected =>
    obtain ⟨nothing, _⟩ := linked.unselected unselected
    rw [nothing]
    have free : nestedZeroFree params.ctlVal = true := orderly _ mem_cons_self params rfl
    refine ⟨⟨trivial, trivial⟩, rfl, _, before.live, rfl, ⟨rfl, rfl, rfl, rfl, ?_⟩, fun _ => rfl⟩
    intro _ last recorded
    cases recorded
    exact ⟨params, rfl, ⟨rfl, rfl, rfl, rfl⟩, free⟩
  | admittedDirect unselected direct =>
    obtain ⟨nothing, _⟩ := linked.unselected unselected
    rw [nothing]
    have notSbo : ∀ {goal : Prop}, before.live.isSbo = true → goal := by
      intro goal sbo
      rw [direct] at sbo
      cases sbo
    exact ⟨⟨⟨rfl, notSbo⟩, trivial⟩, before.admitted, before.live, rfl, rfl, notSbo, fun _ => rfl⟩
  | @admittedSelected params inForceNow checked ready inForce consistent sbo =>
    obtain ⟨idle, selection, active, known, holds, once⟩ := linked.ready ready
    have busy : before.inner.state ≠ .unselected := by
      rw [ready]
      nofun
    rw [settingsLocked_of_active busy holds.inForce] at inForce
    subst inForce
    have value : active.ctlModel = .sboEnhanced →
        ∃ sbow, selection.value = some sbow ∧ params.Repeats sbow ∧ nestedZeroFree sbow.ctlVal = true := by
      intro enhanced
      obtain ⟨last, recorded, agrees⟩ := consistent enhanced
      obtain ⟨sbow, selectedWith, repeats, free⟩ := holds.value enhanced last recorded
      have lastFree : nestedZeroFree last.ctlVal = true := by
        rw [repeats.1]
        exact free
      exact ⟨sbow, selectedWith, (paramsConsistent_repeats agrees lastFree).trans repeats, free⟩
    have live : selection.LiveAt before.now := by
      refine orderly _ mem_cons_self selection known (holds.liveAt ready ?_)
      exact inTime _ _ _ _ _ _ mem_cons_self sbo
    have admits : selection.Admits before.inner.ownerConnId params active before.now := by
      refine ⟨holds.owner, live, ?_, once⟩
      intro enhanced
      obtain ⟨sbow, selectedWith, repeats, _⟩ := value enhanced
      exact ⟨sbow, selectedWith, repeats⟩
    refine ⟨⟨⟨idle, fun _ => ⟨selection, known, admits⟩⟩, trivial⟩, ?_⟩
    have counted : rules.afterFrom ideal
        [.admitted before.admitted before.inner.ownerConnId params active checked before.now] =
        { selection := some { selection with operates := selection.operates + 1 },
          executing := [before.admitted] } := by
      simp [Monitor.afterFrom, rules, known, idle]
    rw [counted]
    refine ⟨before.admitted, active, rfl, holds.inForce, ?_, ?_⟩
    · intro _
      refine ⟨_, rfl, holds.inForce, holds.owner, holds.since, holds.timeout, ?_⟩
      intro enhanced last recorded
      cases recorded
      exact value enhanced
    · intro direct
      rw [sbo] at direct
      cases direct
  | deselected ready =>
    obtain ⟨idle, _⟩ := linked.ready ready
    refine ⟨⟨trivial, trivial⟩, ?_⟩
    simp only [Monitor.afterFrom, foldl_cons, foldl_nil, rules, idle]
    exact linked_clear _
  | canceled ready =>
    obtain ⟨idle, selection, active, known, holds, _⟩ := linked.ready ready
    refine ⟨⟨⟨selection, known, holds.owner⟩, trivial⟩, ?_⟩
    simp only [Monitor.afterFrom, foldl_cons, foldl_nil, rules, idle]
    exact linked_clear _
  | aborted reason =>
    exact ⟨acceptsFrom_aborting _ _ reason, linked_aborting linked _ reason (orderly _ mem_cons_self)⟩
  | finished => exact ⟨acceptsFrom_finishing _ _, linked_finishing linked _ (orderly _ mem_cons_self)⟩

theorem Linked.executing_length_le (linked : Linked inner ideal) : ideal.executing.length ≤ 1 := by
  cases state : inner.state with
  | unselected => simp [(linked.unselected state).1]
  | ready => simp [(linked.ready state).1]
  | waitForExecution | operate =>
    obtain ⟨command, active, only, _⟩ := linked.executing (by rw [state]; rfl)
    simp [only]

theorem ObjectStep.clean (step : ObjectStep before events after) (clean : before.inner.Clean) : after.inner.Clean := by
  have cleared : before.inner.clear.Clean := fun _ => ⟨rfl, rfl, rfl, rfl⟩
  cases step with
  | quiet inner admitted later silent =>
    rw [inner]
    exact clean
  | armed ready =>
    intro unselected
    rw [ready] at unselected
    cases unselected
  | ownerLost executing => exact clean
  | started waiting | selected unselected | selectedWithValue unselected | admittedDirect unselected direct
  | admittedSelected ready inForce consistent sbo =>
    intro unselected
    cases unselected
  | deselected ready | canceled ready | aborted reason => exact cleared
  | finished =>
    simp only [finishing]
    split
    · exact clean
    split
    · exact cleared
    · split
      · intro unselected
        cases unselected
      · exact cleared

section Runs

variable {ι : Type}

def start (live : ControlSettings) (programs : ι → Program) : Config ι ControlObject Event where
  state := .new live
  threads := fun thread => (programs thread).code
  history := []

def Orderly (config : Config ι ControlObject Event) (thread : ι) : Prop :=
  ∀ event ∈ config.nextEvents thread, event.Orderly (rules.after config.trace) config.state.inner.state

structure LinkedConfig (config : Config ι ControlObject Event) : Prop where
  respects : ∀ thread, (config.threads thread).Respects ObjectStep
  punctual : ∀ thread, Punctual (fun _ _ => True) (config.threads thread) config.state
  accepted : rules.Accepts config.trace
  linked : Linked config.state.inner (rules.after config.trace)
  clean : config.state.inner.Clean

theorem linkedConfig_start (live : ControlSettings) (programs : ι → Program) : LinkedConfig (start live programs) where
  respects := fun thread => code_respects (programs thread)
  punctual := fun thread => code_punctual (programs thread) _
  accepted := trivial
  linked := ⟨rfl, rfl⟩
  clean := fun _ => ⟨rfl, rfl, rfl, rfl⟩

variable [DecidableEq ι]

theorem linkedConfig_advance (config next : Config ι ControlObject Event) (thread : ι) (linked : LinkedConfig config)
    (orderly : Orderly config thread) (advanced : config.advance thread = some next) : LinkedConfig next := by
  obtain ⟨step, respects⟩ := Config.advance_respects linked.respects advanced
  obtain ⟨inTime, punctual⟩ := Config.advance_heeds linked.punctual Later.refl Later.trans advanced step.later
  obtain ⟨accepted, kept⟩ := step.linked linked.linked inTime orderly
  have trace := Config.advance_trace advanced
  refine ⟨respects, punctual, ?_, ?_, step.clean linked.clean⟩
  · rw [trace]
    exact Monitor.accepts_append.mpr ⟨linked.accepted, accepted⟩
  · rw [trace, Monitor.after_append]
    exact kept

instance (config : Config ι ControlObject Event) (thread : ι) : Decidable (Orderly config thread) :=
  inferInstanceAs (Decidable (∀ event ∈ config.nextEvents thread, _))

/-- The object keeps the rules in every run of orderly sections: the observer's trace is accepted,
at most one command is executing, and an unselected object has forgotten its last selection. -/
theorem rules_kept_of_orderly (live : ControlSettings) (programs : ι → Program) (config : Config ι ControlObject Event)
    (reached : Config.Reaches Orderly (start live programs) config) :
    rules.Accepts config.trace ∧ (rules.after config.trace).executing.length ≤ 1 ∧ config.state.inner.Clean := by
  have linked := reached.invariant LinkedConfig (linkedConfig_start live programs) linkedConfig_advance
  exact ⟨linked.accepted, linked.linked.executing_length_le, linked.clean⟩

end Runs

def sampleSettings (ctlModel : ControlModel) : ControlSettings where
  ctlModel
  sboTimeoutMs := 30000
  sboClass := .operateOnce
  operTimeoutMs := 0

def sampleParams (ctlVal : Model.MmsValue) : OperParams where
  ctlVal
  operTmMs := 0
  origin := .default
  ctlNum := 1
  t := .replicate 8 0
  test := false
  synchroCheck := false
  interlockCheck := false

def allPass : Handlers where
  operateHandler := true
  check := none

/-- One of the three threads that a sample run has. -/
def runner (number : Nat) : Fin 3 := .ofNat 3 number

def selectAndOperate : Fin 3 → Program
  | 0 => .selectWithValue true 1 (sampleParams (.boolean true)) none
  | 1 => .operate allPass 1 (sampleParams (.boolean true)) (some (.unchecked (.handlerFinished .returned)))
  | 2 => .cancel 2

def selectedAndOperated : Config (Fin 3) ControlObject Event :=
  ((start (sampleSettings .sboEnhanced) selectAndOperate).scheduleWithin Orderly
    ([0, 0, 0, 0, 0, 1, 1, 2, 1, 1, 1, 1].map runner)).get (by decide +kernel)

theorem rules_kept_selectedAndOperated :
    Config.Reaches Orderly (start (sampleSettings .sboEnhanced) selectAndOperate) selectedAndOperated ∧
      rules.Accepts selectedAndOperated.trace ∧ (rules.after selectedAndOperated.trace).executing.length ≤ 1 ∧
      selectedAndOperated.state.inner.Clean := by
  have reached : Config.Reaches Orderly (start (sampleSettings .sboEnhanced) selectAndOperate) selectedAndOperated :=
    Config.reaches_of_scheduleWithin .refl (Option.some_get _).symm
  exact ⟨reached, rules_kept_of_orderly _ _ _ reached⟩

def refusedTwice : Fin 3 → Program
  | 0 => .operate allPass 1 (sampleParams (.boolean true)) none
  | 1 => .operate allPass 2 (sampleParams (.boolean true)) (some (.unchecked .handlerUnfinished))
  | 2 => .operate allPass 3 (sampleParams (.boolean false)) (some (.unchecked .handlerUnfinished))

/-- The command of connection 2 is admitted between the two aborts of the refused one, and the
command of connection 3 after them. -/
def twoExecuting : Config (Fin 3) ControlObject Event :=
  ((start (sampleSettings .directNormal) refusedTwice).schedule
    ([0, 0, 0, 0, 1, 1, 0, 2, 2].map runner)).get (by decide +kernel)

/-- A select with the value zero in a structure, and an Operate with minus zero. -/
def otherZero : Fin 2 → Program
  | 0 => .selectWithValue true 1 (sampleParams (.struct [.float32 0])) none
  | 1 => .operate allPass 1 (sampleParams (.struct [.float32 0x80000000])) (some (.unchecked .handlerUnfinished))

def otherZeroAdmitted : Config (Fin 2) ControlObject Event :=
  ((start (sampleSettings .sboEnhanced) otherZero).schedule [0, 0, 0, 0, 0, 1, 1]).get (by decide +kernel)

/-- The selection runs out between the look for an elapsed one and the admission. -/
def overtaken : Fin 3 → Program
  | 0 => .readSbo true 1 none
  | 1 => .operate allPass 1 (sampleParams (.boolean true)) (some (.unchecked .handlerUnfinished))
  | 2 => .clock 30000

def admittedLate : Config (Fin 3) ControlObject Event :=
  ((start (sampleSettings .sboNormal) overtaken).schedule
    ([0, 0, 0, 0, 0, 1, 2, 1].map runner)).get (by decide +kernel)

/-- Two commands execute at once, an Operate is admitted with another value than the one selected,
and one is admitted on a selection that has run out. -/
theorem two_commands_execute_and_other_zero_admitted : (rules.after twoExecuting.trace).executing = [2, 1] ∧
      otherZeroAdmitted.state.inner.state = .waitForExecution ∧ ¬ rules.Accepts otherZeroAdmitted.trace ∧
      admittedLate.state.inner.state = .waitForExecution ∧ ¬ rules.Accepts admittedLate.trace := by
  refine ⟨by decide +kernel, by decide +kernel, ?_, by decide +kernel, ?_⟩
  · intro accepted
    have shape : otherZeroAdmitted.trace =
        [.selected 1 (sampleSettings .sboEnhanced) (some (sampleParams (.struct [.float32 0]))) 0,
          .notified ⟨1, true, .selected, .replicate 8 0, .default, 1⟩]
        ++ .admitted 0 1 (sampleParams (.struct [.float32 0x80000000])) (sampleSettings .sboEnhanced) 0 0
          :: [] := rfl
    rw [shape] at accepted
    obtain ⟨selection, known, admits⟩ := accepted.allowed.2 rfl
    cases known
    obtain ⟨sbow, selectedWith, repeats⟩ := admits.value rfl
    cases selectedWith
    have sameValue : (sampleParams (.struct [.float32 0x80000000])).ctlVal =
        (sampleParams (.struct [.float32 0])).ctlVal := repeats.1
    simp [sampleParams] at sameValue
  · intro accepted
    have shape : admittedLate.trace =
        [.selected 1 (sampleSettings .sboNormal) none 0,
          .notified ⟨1, true, .selected, .replicate 8 0, .default, 0⟩]
        ++ .admitted 0 1 (sampleParams (.boolean true)) (sampleSettings .sboNormal) 0 30000 :: [] := rfl
    rw [shape] at accepted
    obtain ⟨selection, known, admits⟩ := accepted.allowed.2 rfl
    cases known
    exact absurd admits.live (by decide)

end Iec61850.Control
