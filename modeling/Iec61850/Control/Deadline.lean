import Iec61850.Concurrency.Schedule
import Iec61850.Control.Sections

/-!
The deadline of a selection. An Operate looks for an elapsed selection first and is admitted by a
later section: whatever other threads do in between, the selection it then finds had not elapsed at
the instant of that look.
-/

namespace Iec61850.Control

open Concurrency
open Proc (Heeds Respects)

/-- What other threads do while time passes: at an instant that has passed, no other ready period
than before is elapsed. -/
structure Later (before after : ControlObject) : Prop where
  now : before.now ≤ after.now
  kept : ∀ instant ≤ before.now, after.inner.elapsedPeriod instant = none ∨
    after.inner.elapsedPeriod instant = before.inner.elapsedPeriod instant

theorem Later.refl (object : ControlObject) : Later object object :=
  ⟨Nat.le_refl _, fun _ _ => .inr rfl⟩

theorem Later.trans (first middle last : ControlObject) (one : Later first middle) (two : Later middle last) :
    Later first last := by
  refine ⟨Nat.le_trans one.now two.now, ?_⟩
  intro instant passed
  rcases two.kept instant (Nat.le_trans passed one.now) with none | same
  · exact .inl none
  · rw [same]
    exact one.kept instant passed

theorem elapsedPeriod_of_not_ready {inner : ControlObjectInner} (other : inner.state ≠ .ready) (instant : Instant) :
    inner.elapsedPeriod instant = none := by
  unfold ControlObjectInner.elapsedPeriod
  split
  · next ready _ _ => exact absurd ready other
  · rfl

theorem elapsedPeriod_of_some {inner : ControlObjectInner} {instant : Instant} {period : UInt64}
    (elapsed : inner.elapsedPeriod instant = some period) : inner.state = .ready ∧ inner.readyPeriod = period := by
  unfold ControlObjectInner.elapsedPeriod at elapsed
  split at elapsed
  · next ready _ _ =>
    split at elapsed
    · cases elapsed
      exact ⟨ready, rfl⟩
    · cases elapsed
  · cases elapsed

/-- A period that begins now is not elapsed at an instant that has passed. -/
theorem elapsedPeriod_enterReady (inner : ControlObjectInner) (connId : ConnectionId) (settings : ControlSettings)
    {now instant : Instant} (passed : instant ≤ now) :
    (inner.enterReady connId settings now).elapsedPeriod instant = none := by
  refine if_neg ?_
  rintro ⟨limited, elapsed⟩
  rw [Nat.sub_eq_zero_of_le passed] at elapsed
  have zero : settings.sboTimeoutMs.toNat = 0 := Nat.le_zero.mp elapsed
  exact limited (UInt32.toNat_inj.mp zero)

theorem ObjectStep.later {before after : ControlObject} {events : List Event}
    (step : ObjectStep before events after) : Later before after := by
  have cleared (instant : Instant) : before.inner.clear.elapsedPeriod instant = none :=
    elapsedPeriod_of_not_ready (fun ready => by cases ready) instant
  cases step with
  | quiet inner admitted later silent => exact ⟨later, fun _ _ => .inr (by rw [inner])⟩
  | armed ready | ownerLost executing => exact ⟨Nat.le_refl _, fun _ _ => .inr rfl⟩
  | started waiting | admittedDirect unselected direct | admittedSelected ready inForce consistent sbo =>
    exact ⟨Nat.le_refl _, fun instant _ => .inl (elapsedPeriod_of_not_ready (fun ready => by cases ready) instant)⟩
  | @selected connId unselected | @selectedWithValue connId params unselected =>
    exact ⟨Nat.le_refl _, fun _ passed => .inl (elapsedPeriod_enterReady before.inner connId _ passed)⟩
  | deselected ready | canceled ready | aborted reason =>
    exact ⟨Nat.le_refl _, fun instant _ => .inl (cleared instant)⟩
  | finished =>
    refine ⟨Nat.le_refl _, fun instant passed => ?_⟩
    simp only [finishing]
    split
    · exact .inr rfl
    split
    · exact .inl (cleared instant)
    split
    · exact .inl (elapsedPeriod_enterReady before.inner _ _ passed)
    · exact .inl (cleared instant)

/-- A command of a selection is admitted only if the selection had not elapsed when its request
looked. -/
def InTime (before : ControlObject) (events : List Event) (_ : ControlObject) : Prop :=
  ∀ command connId params settings checked now,
    .admitted command connId params settings checked now ∈ events → settings.isSbo = true →
      before.inner.elapsedPeriod checked = none

abbrev Punctual {α : Type} (post : α → ControlObject → Prop) (program : ControlM α) (object : ControlObject) : Prop :=
  program.Heeds Later InTime post object

theorem inTime_of_silent {before after : ControlObject} {events : List Event}
    (silent : events.any Event.isAdmission = false) : InTime before events after := by
  intro command connId params settings checked now member
  have admission := List.any_eq_false.mp silent _ member
  exact absurd rfl admission

theorem punctual_of_reports {α : Type} {program : ControlM α} (reports : Reports True program)
    (object : ControlObject) :
    Punctual (fun _ _ => True) program object :=
  .of_respects (reports.respects fun _ _ _ _ _ move => inTime_of_silent (move.admits trivial)) object

/-- The look for an elapsed selection leaves none that had elapsed by then. -/
theorem checkSboTimeout_punctual (object : ControlObject) :
    Punctual (fun checked after => checked ≤ after.now ∧ after.inner.elapsedPeriod checked = none) checkSboTimeout
      object := by
  intro found _
  refine ⟨inTime_of_silent rfl, ?_⟩
  dsimp only
  cases elapsed : found.inner.elapsedPeriod found.now with
  | none => exact ⟨Nat.le_refl _, elapsed⟩
  | some period =>
    intro object later
    have silent : (expiring object period).2.2.any Event.isAdmission = false := by
      unfold expiring
      split <;> rfl
    refine ⟨inTime_of_silent silent, ?_⟩
    dsimp only
    unfold expiring
    split
    · -- the elapsed period is over, and the one that may have begun since is not elapsed
      next ended =>
      refine ⟨later.now, ?_⟩
      rcases later.kept found.now (Nat.le_refl _) with none | same
      · exact none
      · rw [elapsed] at same
        obtain ⟨ready, current⟩ := elapsedPeriod_of_some same
        rcases ended with other | other
        · exact absurd ready other
        · exact absurd current other
    · intro notified after
      refine ⟨inTime_of_silent rfl, Nat.le_trans later.now after.now, ?_⟩
      have none : object.inner.clear.elapsedPeriod found.now = none :=
        elapsedPeriod_of_not_ready (fun ready => by cases ready) _
      rcases after.kept found.now later.now with gone | same
      · exact gone
      · exact same.trans none

theorem beginOperate_punctual (connId : ConnectionId) (params : OperParams) {checked : Instant} {object : ControlObject}
    (passed : checked ≤ object.now) (live : object.inner.elapsedPeriod checked = none) :
    Punctual (fun _ _ => True) (beginOperate connId params checked) object := by
  intro found later
  have still : found.inner.elapsedPeriod checked = none := by
    rcases later.kept checked passed with none | same
    · exact none
    · exact same.trans live
  constructor
  · intro command owner admittedParams settings instant now member _
    have same : instant = checked := by
      simp only [admission] at member
      split_ifs at member <;> simp_all
    rw [same]
    exact still
  · dsimp only
    cases (admission found connId params checked).1 with
    | accepted command => exact True.intro
    | denied cause => exact True.intro
    | inconsistent owner => exact fun _ _ => ⟨inTime_of_silent rfl, True.intro⟩

theorem operate_punctual (handlers : Handlers) (connId : ConnectionId) (params : OperParams) (course : Option Course)
    (object : ControlObject) : Punctual (fun _ _ => True) (operate handlers connId params course) object := by
  have admits : Punctual (fun _ _ => True) (admitOperate handlers connId params) object := by
    apply (checkSboTimeout_punctual object).bind
    intro checked found known
    split
    · exact True.intro
    split
    · exact True.intro
    apply (beginOperate_punctual connId params known.1 known.2).bind
    intro admitted found _
    refine punctual_of_reports ?_ found
    cases admitted with
    | error cause => exact .pure _
    | ok command =>
      cases handlers.check with
      | some cause => exact (abort_reports _ _ _).bind fun _ => .pure _
      | none => exact (reports_read _).bind fun _ => .pure _
  apply admits.bind
  intro admitted found _
  refine punctual_of_reports ?_ found
  cases admitted with
  | error refusal => exact .pure _
  | ok accepted =>
    cases course with
    | none => exact (abort_reports _ _ _).bind fun _ => abort_reports _ _ _
    | some course => exact task_reports accepted course

theorem code_punctual (program : Program) (object : ControlObject) :
    Punctual (fun _ _ => True) program.code object := by
  cases program with
  | operate handlers connId params course => exact operate_punctual handlers connId params course object
  | configure live => exact .of_respects (Respects.atomically fun _ => inTime_of_silent rfl) object
  | readSbo | selectWithValue | cancel | selectTimer | connectionClosed | clock =>
    refine punctual_of_reports (code_reports _ ?_ fun _ => id) object
    exact True.intro

end Iec61850.Control
