import Iec61850.Control.Rules

/-!
The notifications of a select-before-operate object. A change of the selection is made under the
lock and reported after the lock is released, so another thread can make and report the next change
in between. The notifications alternate, and end with the state of the object, in every run in which
no change is made while an earlier one is unreported.
-/

namespace Iec61850.Control

open Concurrency List
open Proc (Follows)

def ControlObject.isSelected (object : ControlObject) : Bool := object.inner.state != .unselected

theorem ControlObject.isSelected_of_ne {object : ControlObject} (busy : object.inner.state ≠ .unselected) :
    object.isSelected = true :=
  bne_iff_ne.mpr busy

variable (programs : ι → Program) (config : Config ι ControlObject Event) (thread : ι) (count : Nat)

def alternating : List Bool := (range count).map (· % 2 == 0)

theorem alternating_succ : alternating (count + 1) = alternating count ++ [count % 2 == 0] := by
  simp only [alternating, range_succ, map_append, map_cons, map_nil]

theorem length_alternating : (alternating count).length = count := by
  simp only [alternating, length_map, length_range]

theorem changes_notifications {events : List Event} (silent : ∀ event ∈ events, event.IsNotification) :
    changes events = [] := by
  apply filterMap_eq_nil_iff.mpr
  intro event member
  have notification := silent event member
  cases event with
  | notified change => rfl
  | _ => cases notification

theorem ObjectStep.selection {before after : ControlObject} {events : List Event}
    (step : ObjectStep before events after) (sbo : before.Sbo) :
    (changes events = [] ∧ after.isSelected = before.isSelected ∨
      changes events = [!before.isSelected] ∧ after.isSelected = !before.isSelected) ∧
      ∀ active, after.inner.active = some active → active.isSbo = true := by
  have cleared : ∀ active, before.inner.clear.active = some active →
      active.isSbo = true := by simp [ControlObjectInner.clear]
  cases step with
  | quiet inner admitted later silent =>
    refine ⟨.inl ⟨changes_notifications silent, ?_⟩, ?_⟩
    · simp only [ControlObject.isSelected, inner]
    · rw [inner]
      exact sbo.2
  | armed ready | ownerLost executing => exact ⟨.inl ⟨rfl, rfl⟩, sbo.2⟩
  | started waiting =>
    have busy : before.isSelected = true := before.isSelected_of_ne (by simp [waiting])
    exact ⟨.inl ⟨rfl, busy.symm⟩, sbo.2⟩
  | selected unselected | selectedWithValue unselected =>
    refine ⟨.inr ?_, fun active inForce => ?_⟩
    · simp [changes, Event.change?, ControlObject.isSelected, ControlObjectInner.enterReady, unselected]
    · cases inForce
      exact sbo.1
  | admittedDirect unselected direct =>
    rw [sbo.1] at direct
    cases direct
  | admittedSelected ready inForce consistent isSbo =>
    have busy : before.isSelected = true := before.isSelected_of_ne (by simp [ready])
    exact ⟨.inl ⟨rfl, busy.symm⟩, sbo.2⟩
  | deselected ready | canceled ready =>
    rw [before.isSelected_of_ne (by simp [ready])]
    exact ⟨.inr ⟨rfl, rfl⟩, cleared⟩
  | aborted reason =>
    refine ⟨?_, cleared⟩
    by_cases unselected : before.inner.state = .unselected
    · left
      simp only [aborting, ControlObject.isSelected, unselected, ne_eq, not_true_eq_false, if_false]
      exact ⟨rfl, rfl⟩
    · right
      rw [before.isSelected_of_ne unselected]
      simp only [aborting, ne_eq, unselected, not_false_eq_true, if_true]
      exact ⟨rfl, rfl⟩
  | finished =>
    simp only [finishing]
    split
    · exact ⟨.inl ⟨rfl, rfl⟩, sbo.2⟩
    next executing =>
    have busy : before.inner.state ≠ .unselected := by
      intro unselected
      simp [unselected, ControlState.isExecuting] at executing
    rw [before.isSelected_of_ne busy]
    split
    · next direct => simp [sbo.settingsLocked] at direct
    split
    · refine ⟨.inl ⟨rfl, rfl⟩, fun active inForce => ?_⟩
      cases inForce
      exact sbo.settingsLocked
    · exact ⟨.inr ⟨rfl, rfl⟩, cleared⟩

variable {ι : Type} [DecidableEq ι]

/-- The section of the thread leaves the selection as it is, or every earlier change has been
reported. -/
def Prompt : Prop :=
  changes (config.nextEvents thread) = [] ∨ (changes config.trace).length = (notifications config.trace).length

instance (config : Config ι ControlObject Event) (thread : ι) : Decidable (Prompt config thread) :=
  inferInstanceAs (Decidable (_ ∨ _))

/-- What each thread owes when at most one of them has a change to report. -/
def owedBy : Option (ι × Bool) → ι → Option Bool
  | none => fun _ => none
  | some (thread, flag) => Function.update (fun _ => none) thread (some flag)

structure Told (pending : Option (ι × Bool)) (config : Config ι ControlObject Event) : Prop where
  follows : ∀ thread, (config.threads thread).Follows (Move False) none (owedBy pending thread)
  sbo : config.state.Sbo
  alternate : ∃ count, changes config.trace = alternating count ∧ config.state.isSelected = (count % 2 == 1)
  behind : changes config.trace = notifications config.trace ++ (pending.map Prod.snd).toList

theorem alternating_step {past events : List Bool} {before after : Bool} {count : Nat} (told : past = alternating count)
    (current : before = (count % 2 == 1))
    (moved : events = [] ∧ after = before ∨ events = [!before] ∧ after = !before) :
    ∃ count, past ++ events = alternating count ∧ after = (count % 2 == 1) := by
  rcases moved with ⟨rfl, rfl⟩ | ⟨rfl, rfl⟩
  · exact ⟨count, by rw [append_nil, told], current⟩
  have parity : (!(count % 2 == 1)) = (count % 2 == 0) ∧ (count % 2 == 0) = ((count + 1) % 2 == 1) := by
    rcases Nat.mod_two_eq_zero_or_one count with even | odd
    · simp [Nat.add_mod, even]
    · simp [Nat.add_mod, odd]
  refine ⟨count + 1, ?_, ?_⟩
  · rw [told, alternating_succ, current, parity.1]
  · rw [current, parity.1, parity.2]

theorem owedBy_step {pending : Option (ι × Bool)} {thread : ι} {onward : Option Bool}
    {past reported moved told : List Bool} (behind : past = reported ++ (pending.map Prod.snd).toList)
    (prompt : moved = [] ∨ past.length = reported.length) (delivered : told = (owedBy pending thread).toList)
    (changed : moved = onward.toList) : ∃ later, Function.update (owedBy pending) thread onward = owedBy later ∧
      past ++ moved = reported ++ told ++ (later.map Prod.snd).toList := by
  cases pending with
  | none =>
    subst behind delivered changed
    cases onward with
    | none => exact ⟨none, Function.update_eq_self _ _, by simp [owedBy]⟩
    | some flag => exact ⟨some (thread, flag), rfl, by simp [owedBy]⟩
  | some owed =>
    obtain ⟨owner, flag⟩ := owed
    by_cases own : thread = owner
    · subst own behind delivered changed
      cases onward with
      | none => exact ⟨none, by simp [owedBy], by simp [owedBy]⟩
      | some next => exact ⟨some (thread, next), by simp [owedBy], by simp [owedBy]⟩
    · -- the change of `owner` is unreported, so this section makes none
      have unchanged : onward = none := by
        rcases prompt with silent | reportedAll
        · rw [changed] at silent
          simpa using silent
        · simp [behind] at reportedAll
      subst unchanged delivered changed
      have owesNothing : owedBy (some (owner, flag)) thread = none := by
        rw [owedBy, Function.update_of_ne own]
      refine ⟨some (owner, flag), ?_, by simp [behind, owesNothing]⟩
      rw [← owesNothing]
      exact Function.update_eq_self _ _

theorem Told.advance {config next : Config ι ControlObject Event} {pending : Option (ι × Bool)} {thread : ι}
    (told : Told pending config) (prompt : Prompt config thread) (advanced : config.advance thread = some next) :
    ∃ later, Told later next := by
  obtain ⟨onward, move, follows⟩ := Config.advance_follows told.follows advanced
  have trace := Config.advance_trace advanced
  obtain ⟨moved, active⟩ := move.step.selection told.sbo
  obtain ⟨count, alternate, current⟩ := told.alternate
  obtain ⟨later, owed, behind⟩ := owedBy_step told.behind prompt move.notified (move.changed told.sbo)
  refine ⟨later, ?_, ⟨move.sbo told.sbo.1, active⟩, ?_, ?_⟩
  · rwa [owed] at follows
  · rw [trace, changes, filterMap_append]
    exact alternating_step alternate current moved
  · rw [trace, changes, notifications, filterMap_append, filterMap_append]
    exact behind

theorem told_start {live : ControlSettings} (sbo : live.isSbo = true) {programs : ι → Program}
    (keeps : ∀ thread, (programs thread).KeepsSbo) : Told none (start live programs) where
  follows := fun thread => code_reports (programs thread) (keeps thread) False.elim
  sbo := ⟨sbo, nofun⟩
  alternate := ⟨0, rfl, rfl⟩
  behind := rfl

def AtRest : Prop :=
  config.threads thread = .done () ∨ config.threads thread = (programs thread).code

theorem not_follows_of_reports {program : ControlM Unit} {flag : Bool}
    (reports : Reports False program) (object : ControlObject)
    (owes : program.Follows (Move False) none (some flag)) : False := by
  cases program with
  | done result => cases owes
  | critical ready effect emitted next =>
    obtain ⟨_, silent, _⟩ := reports object
    obtain ⟨_, speaks, _⟩ := owes object
    have same := silent.notified.symm.trans speaks.notified
    cases same

theorem Told.reported {config : Config ι ControlObject Event} {pending : Option (ι × Bool)} (told : Told pending config)
    {programs : ι → Program} (keeps : ∀ thread, (programs thread).KeepsSbo)
    (rest : ∀ thread, AtRest programs config thread) : pending = none := by
  cases pending with
  | none => rfl
  | some owed =>
    obtain ⟨owner, flag⟩ := owed
    have owes := told.follows owner
    simp only [owedBy, Function.update_self] at owes
    rcases rest owner with answered | unasked
    · rw [answered] at owes
      cases owes
    · rw [unasked] at owes
      exact (not_follows_of_reports (code_reports _ (keeps owner) False.elim) config.state owes).elim

theorem getLast_alternating : (alternating count).getLast?.getD false = (count % 2 == 1) := by
  cases count with
  | zero => rfl
  | succ count =>
    rw [alternating_succ, getLast?_concat, Option.getD_some]
    rcases Nat.mod_two_eq_zero_or_one count with even | odd
    · simp [Nat.add_mod, even]
    · simp [Nat.add_mod, odd]

/-- While every change is reported before the next is made, the notifications alternate, starting
with selected, and once no request is in progress the last one is the state of the object. -/
theorem notifications_alternate_of_prompt (live : ControlSettings) (sbo : live.isSbo = true) (programs : ι → Program)
    (keeps : ∀ thread, (programs thread).KeepsSbo) (config : Config ι ControlObject Event)
    (reached : Config.Reaches Prompt (start live programs) config) :
    notifications config.trace = alternating (notifications config.trace).length ∧
      ((∀ thread, AtRest programs config thread) →
        (notifications config.trace).getLast?.getD false = config.state.isSelected) := by
  obtain ⟨pending, told⟩ := reached.invariant (fun config => ∃ pending, Told pending config)
    ⟨none, told_start sbo keeps⟩ fun _ _ _ ⟨_, told⟩ prompt advanced => told.advance prompt advanced
  obtain ⟨count, alternate, current⟩ := told.alternate
  have behind := told.behind
  rw [alternate] at behind
  constructor
  · cases pending with
    | none =>
      rw [Option.map_none, Option.toList_none, append_nil] at behind
      rw [← behind, length_alternating]
    | some owed =>
      cases count with
      | zero => simp [alternating] at behind
      | succ count =>
        rw [alternating_succ] at behind
        have reported := (append_inj' behind rfl).1
        rw [← reported, length_alternating]
  · intro rest
    rw [told.reported keeps rest, Option.map_none, Option.toList_none, append_nil] at behind
    rw [← behind, current]
    exact getLast_alternating count

def selectAndExpire : Fin 3 → Program
  | 0 => .readSbo true 1 none
  | 1 => .readSbo true 2 (some .unknown)
  | 2 => .clock 30000

def reportedInTime : Config (Fin 3) ControlObject Event :=
  ((start (sampleSettings .sboNormal) selectAndExpire).scheduleWithin Prompt
    ([0, 0, 0, 0, 0, 2, 1, 1, 1, 1].map runner)).get (by decide +kernel)

theorem reportedInTime_alternates : notifications reportedInTime.trace = [true, false] ∧
      notifications reportedInTime.trace = alternating (notifications reportedInTime.trace).length := by
  have reached : Config.Reaches Prompt (start (sampleSettings .sboNormal) selectAndExpire) reportedInTime :=
    Config.reaches_of_scheduleWithin .refl (Option.some_get _).symm
  have keeps : ∀ thread, (selectAndExpire thread).KeepsSbo
    | 0 | 1 | 2 => trivial
  exact ⟨by decide +kernel, (notifications_alternate_of_prompt _ rfl _ keeps _ reached).1⟩

def reportedLate : Config (Fin 3) ControlObject Event :=
  ((start (sampleSettings .sboNormal) selectAndExpire).schedule
    ([0, 0, 0, 2, 1, 1, 1, 1, 0, 0].map runner)).get (by decide +kernel)

theorem reportedLate_ends_selected :
    notifications reportedLate.trace = [false, true] ∧ reportedLate.state.isSelected = false ∧
      (reportedLate.schedule [0]).isNone = true ∧ (reportedLate.schedule [1]).isNone = true ∧
      (reportedLate.schedule [2]).isNone = true := by
  decide +kernel

end Iec61850.Control
