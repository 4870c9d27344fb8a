import Iec61850.SettingGroups.Runtime

/-!
An expired edit session counts as no session: nothing is stored and nothing committed at or after
its deadline.
-/

namespace Iec61850.SettingGroups

open Concurrency SettingGroupRuntime

def Event.effect : Event → Option (Nat × Nat)
  | .stored number time _ => some (number, time)
  | .committed number time _ => some (number, time)
  | _ => none

def Event.opening : Event → Option (Nat × Option Nat)
  | .opened _ number deadline _ => some (number, deadline)
  | _ => none

variable (log : List Event) (event : Event)

def effects : List (Nat × Nat) := log.filterMap Event.effect

def openings : List (Nat × Option Nat) := log.filterMap Event.opening

def holders : List Event → List ConnectionId :=
  List.foldl (fun before event => match event with
    | .opened conn _ _ _ => conn :: before.erase conn
    | .ended conn => before.erase conn
    | _ => before) []

def Stage.isConfirming : Stage → Bool
  | .admitting .confirm => true
  | .committing _ _ => true
  | _ => false

/-- The clock does not reach the deadline of a session while a commit of its association is in
progress. -/
def StaysOpen (system : System) : Input → Prop
  | .advance time => ∀ conn ∈ system.state.editingConn, (system.stages conn).isConfirming →
      ∀ deadline ∈ system.state.reservationDeadline, system.clock + time < deadline
  | _ => True

instance (system : System) : (input : Input) → Decidable (StaysOpen system input)
  | .advance _ => inferInstanceAs (Decidable (∀ conn ∈ system.state.editingConn, _ → ∀ deadline ∈ _, _))
  | .request _ _ | .proceed _ _ | .tick _ | .close _ => isTrue trivial

/-- What the log and the state of the session have in common, and where the deadline stands in a
commit. -/
structure Regular (system : System) : Prop where
  held : holders system.log = system.state.editingConn.toList
  numbered : ∀ number deadline, (number, deadline) ∈ openings system.log → number ≤ system.state.session ∧
    (number = system.state.session → system.state.editingConn.isSome → deadline = system.state.reservationDeadline)
  inTime : ∀ number time, (number, time) ∈ effects system.log → number ≤ system.state.session ∧
    ∀ deadline, (number, some deadline) ∈ openings system.log → time < deadline
  confirming : ∀ conn ∈ system.state.editingConn, (system.stages conn).isConfirming →
    ∀ deadline ∈ system.state.reservationDeadline, system.clock < deadline

theorem effects_append : effects (log ++ [event]) = effects log ++ event.effect.toList := by
  rw [effects, List.filterMap_append]
  cases event <;> rfl

theorem openings_append : openings (log ++ [event]) = openings log ++ event.opening.toList := by
  rw [openings, List.filterMap_append]
  cases event <;> rfl

theorem holders_append : holders (log ++ [event]) = match event with
    | .opened conn _ _ _ => conn :: (holders log).erase conn
    | .ended conn => (holders log).erase conn
    | _ => holders log := by
  rw [holders, List.foldl_append]
  rfl

namespace Regular

variable {system : System} {conn : ConnectionId}

section

variable (regular : Regular system)

include regular

theorem goto {stage : Stage}
    (prompt : stage.isConfirming → system.state.editingConn = some conn → ∀ deadline ∈ system.state.reservationDeadline,
      system.clock < deadline) : Regular (system.goto conn stage) := by
  refine ⟨regular.held, regular.numbered, regular.inTime, fun other holder confirming => ?_⟩
  by_cases same : other = conn
  · subst same
    exact prompt (by simpa [System.goto] using confirming) holder
  · exact regular.confirming other holder (by simpa [System.goto, same] using confirming)

theorem record {event : Event} (opens : event.opening = none) (effect : event.effect = none)
    (holds : holders (system.log ++ [event]) = holders system.log) :
    Regular { system with log := system.log ++ [event] } := by
  have openings : openings (system.log ++ [event]) = openings system.log := by simp [openings_append, opens]
  have effects : effects (system.log ++ [event]) = effects system.log := by simp [effects_append, effect]
  refine ⟨holds.trans regular.held, ?_, ?_, regular.confirming⟩
  · simpa only [openings] using regular.numbered
  · simpa only [openings, effects] using regular.inTime

theorem answer (result : Except Mms.DataAccessError Unit) : Regular (system.answer conn result) :=
  have idle : Regular (system.goto conn .idle) := regular.goto nofun
  idle.record rfl rfl (holders_append _ _)

theorem settle (actSg : UInt8) (settings : List SettingLeaf) (activeLoads editLoads : Nat) :
    Regular { system with state := { system.state with actSg }, settings, activeLoads, editLoads } :=
  ⟨regular.held, regular.numbered, regular.inTime, regular.confirming⟩

theorem prepareLoad (buffer : Buffer) (group : UInt8) : Regular (system.prepareLoad conn buffer group) := by
  have loading (load : Load) : Regular (system.goto conn (.loading load)) := regular.goto nofun
  cases buffer with
  | active | edit => exact (loading _).settle _ _ _ _

theorem endSession : Regular system.endSession := by
  have openings : openings system.endSession.log = openings system.log := by
    cases holder : system.state.editingConn <;> simp [System.endSession, holder, openings_append, Event.opening]
  have effects : effects system.endSession.log = effects system.log := by
    cases holder : system.state.editingConn <;> simp [System.endSession, holder, effects_append, Event.effect]
  refine ⟨?_, fun number deadline opened => ⟨?_, nofun⟩, fun number time happened => ?_, nofun⟩
  · cases holder : system.state.editingConn <;>
      simp [System.endSession, State.endSession, holder, holders_append, regular.held]
  · exact (regular.numbered number deadline (openings ▸ opened)).1
  · rw [openings]
    exact regular.inTime number time (effects ▸ happened)

theorem effect {event : Event} (opens : event.opening = none)
    (effect : event.effect = some (system.state.session, system.clock))
    (holds : holders (system.log ++ [event]) = holders system.log) (isOpen : system.state.editingConn.isSome)
    (prompt : ∀ deadline ∈ system.state.reservationDeadline, system.clock < deadline) :
    Regular { system with log := system.log ++ [event] } := by
  have openings : openings (system.log ++ [event]) = openings system.log := by simp [openings_append, opens]
  refine ⟨holds.trans regular.held, ?_, fun number time happened => ?_, regular.confirming⟩
  · simpa only [openings] using regular.numbered
  · simp only [effects_append, effect, Option.toList_some, List.mem_append, List.mem_singleton,
      Prod.mk.injEq] at happened
    simp only [openings]
    rcases happened with earlier | ⟨rfl, rfl⟩
    · exact regular.inTime number time earlier
    · exact ⟨le_refl _, fun deadline opened => prompt deadline ((regular.numbered _ _ opened).2 rfl isOpen).symm⟩

theorem openSession (runtime : SettingGroupRuntime) (group : UInt8)
    (stage : (system.stages conn).isConfirming = false) : Regular (runtime.openSession system conn group) := by
  unfold SettingGroupRuntime.openSession
  split
  · exact regular.answer _
  next free =>
  refine prepareLoad ?_ _ _
  refine ⟨?_, fun number deadline opened => ?_, fun number time happened => ?_, fun other holder confirming => ?_⟩
  · -- the association held the session itself or nobody did
    cases holder : system.state.editingConn with
    | none => simp [holders_append, regular.held, holder]
    | some owner =>
      have own : owner = conn := by simpa [holder] using free
      simp [holders_append, regular.held, holder, own]
  · simp only [openings_append, Event.opening, Option.toList_some, List.mem_append, List.mem_singleton,
      Prod.mk.injEq] at opened
    rcases opened with earlier | ⟨rfl, rfl⟩
    · have before := (regular.numbered number deadline earlier).1
      exact ⟨Nat.le_succ_of_le before, fun same => absurd before (same ▸ Nat.not_succ_le_self _)⟩
    · exact ⟨le_refl _, fun _ _ => rfl⟩
  · simp only [effects_append, Event.effect, Option.toList_none, List.append_nil] at happened
    obtain ⟨before, inTime⟩ := regular.inTime number time happened
    refine ⟨Nat.le_succ_of_le before, fun deadline opened => ?_⟩
    simp only [openings_append, Event.opening, Option.toList_some, List.mem_append, List.mem_singleton,
      Prod.mk.injEq] at opened
    rcases opened with earlier | ⟨rfl, -⟩
    · exact inTime deadline earlier
    · omega
  · cases holder
    simp [stage] at confirming

theorem store (updates : List (Nat × Model.MmsValue)) (session : EditSession) :
    Regular (system.store conn updates session) := by
  unfold System.store
  split
  · next current =>
    simp only [State.isCurrent, Bool.and_eq_true, decide_eq_true_eq, beq_iff_eq, Option.all_eq_true] at current
    obtain ⟨⟨⟨-, holder⟩, number⟩, prompt⟩ := current
    have stored : Regular { system with log := system.log ++ [.stored session.number system.clock updates] } :=
      regular.effect rfl (by rw [Event.effect, number]) (holders_append _ _) (by simp [holder]) prompt
    exact (stored.settle _ _ _ _).answer _
  · exact regular.answer _

/-- The section itself does not look at the deadline: that it has not passed is what the stage of
the request says. -/
theorem commit {editSg : UInt8} {session : Nat}
    (stage : system.stages conn = .committing editSg session) : Regular (system.commit conn editSg session) := by
  unfold System.commit
  split
  · exact regular.answer _
  next same =>
  simp only [not_or, not_not] at same
  obtain ⟨-, holder, number⟩ := same
  have prompt := regular.confirming conn holder (by rw [stage]; rfl)
  have committed (values : List (Option Model.MmsValue)) :
      Regular { system with log := system.log ++ [.committed session system.clock values] } :=
    regular.effect rfl (by rw [Event.effect, number]) (holders_append _ _) (by simp [holder]) prompt
  have ended (settings : List SettingLeaf) := ((committed (system.settings.map (·.edit))).settle
    system.state.actSg settings system.activeLoads system.editLoads).endSession
  split
  · exact (ended _).prepareLoad _ _
  · exact (ended _).answer _

theorem tick (now : Nat) : Regular (system.tickReservationAt now) := by
  unfold System.tickReservationAt
  split
  · exact regular.endSession
  · exact regular

theorem admitWrite (access : Access) (stage : system.stages conn = .admitting access) :
    Regular (system.admitWrite conn access) := by
  cases access with
  | edit group =>
    simp only [System.admitWrite]
    split
    · exact regular.answer _
    · split
      · exact regular.goto nofun
      · exact regular.endSession.answer _
  | confirm =>
    simp only [System.admitWrite]
    split
    · exact regular.answer _
    · exact regular.goto fun _ holder => regular.confirming conn holder (by rw [stage]; rfl)
  | store updates =>
    simp only [System.admitWrite]
    split
    · exact regular.goto nofun
    · exact regular.answer _

theorem change (group : UInt8) (position : Nat) (value : Model.MmsValue) :
    Regular (system.change conn group position value) := by
  unfold System.change
  split
  · exact regular.answer _
  split
  · exact regular.answer _
  dsimp only
  split
  · exact (regular.settle _ _ _ _).prepareLoad _ _
  · exact (regular.settle _ _ _ _).answer _

theorem proceed (runtime : SettingGroupRuntime) {allowed : Bool} {next : System}
    (proceeds : runtime.proceed system conn allowed = some next) : Regular next := by
  unfold SettingGroupRuntime.proceed at proceeds
  split at proceeds
  · cases proceeds
  all_goals cases proceeds
  · -- what the release of expired sessions leaves open has not expired
    refine (regular.tick _).goto fun _ holder deadline due => ?_
    by_cases expired : system.state.hasExpired system.clock = true
    · simp [System.tickReservationAt, expired, System.endSession, State.endSession] at holder
    · rw [System.tickReservationAt, if_neg expired] at holder due ⊢
      simpa [State.hasExpired, holder, Option.mem_def.mp due] using expired
  · next access stage => exact regular.admitWrite access stage
  · split
    · exact regular.answer _
    · exact (regular.settle _ _ _ _).prepareLoad _ _
  · next group stage =>
    split
    · exact regular.openSession runtime group (by rw [stage]; rfl)
    · exact regular.answer _
  · next editSg session stage =>
    split
    · exact regular.commit stage
    · exact regular.answer _
  · split
    · exact regular.store _ _
    · exact regular.answer _
  · exact regular.change _ _ _
  · refine answer ?_ _
    unfold System.runLoad
    split
    · exact regular.settle _ _ _ _
    · exact regular

end

theorem not_confirming_of_accept {runtime : SettingGroupRuntime} {request : Request} {stage : Stage}
    (accepted : runtime.accept request = .ok stage) : stage.isConfirming = false := by
  cases request with
  | write updates =>
    cases accepted
    rfl
  | _ =>
    simp only [accept] at accepted
    split at accepted <;> cases accepted
    rfl

theorem step (regular : Regular system) (runtime : SettingGroupRuntime) {input : Input} {next : System}
    (open_ : StaysOpen system input) (stepped : runtime.step system input = some next) : Regular next := by
  cases input with
  | request conn request =>
    simp only [SettingGroupRuntime.step] at stepped
    split at stepped
    · cases stepped
      split
      · exact regular.answer _
      · next stage accepted =>
        exact regular.goto fun confirming => absurd confirming (by simp [not_confirming_of_accept accepted])
    · cases stepped
  | proceed conn allowed => exact regular.proceed runtime stepped
  | tick now =>
    cases stepped
    exact regular.tick now
  | close conn =>
    cases stepped
    unfold System.releaseEditSessionForConn
    split
    · exact regular.endSession
    · exact regular
  | advance time =>
    cases stepped
    exact ⟨regular.held, regular.numbered, regular.inTime, open_⟩

end Regular

/-- In every run in which the clock does not reach the deadline of a session while a commit of it is
in progress, no effect comes at or after the deadline of its session, and one association holds a
session at most. -/
theorem expired_session_takes_no_effect (runtime : SettingGroupRuntime) (actSg : UInt8) (settings : List SettingLeaf)
    (inputs : List Input) (last : System)
    (ran : Machine.run runtime.step { state := { actSg }, settings } inputs = some last)
    (within : Machine.Within runtime.step StaysOpen { state := { actSg }, settings } inputs) :
    (∀ number time deadline, (number, time) ∈ effects last.log → (number, some deadline) ∈ openings last.log →
      time < deadline) ∧ (holders last.log).length ≤ 1 := by
  have regular : Regular last := Machine.invariant_within Regular
    (fun regular allowed stepped => regular.step runtime allowed stepped) ran within ⟨rfl, nofun, nofun, nofun⟩
  refine ⟨fun number time deadline happened opened => (regular.inTime number time happened).2 deadline opened, ?_⟩
  rw [regular.held]
  cases last.state.editingConn <;> simp

def oneSetting : List SettingLeaf := [⟨some (.boolean false), some (.boolean false), [.boolean false, .boolean true]⟩]

def tenSeconds : SettingGroupRuntime := { numOfSg := 2, defaultResvTmsS := 10, lastInstant := 2 ^ 63 }

/-- An association opens a session on the first group, stores a value and commits; the callback of
the commit lasts. -/
def commitAfter (time : Nat) : List Input :=
  let request (request : Request) (sections : Nat) : List Input :=
    .request 7 request :: List.replicate sections (.proceed 7 true)
  request (.editSg 1) 4 ++ request (.write [(0, .boolean true)]) 3 ++ request (.confirmEditSg true) 2 ++
    [.advance time, .proceed 7 true]

theorem commit_before_deadline : ∃ last,
    Machine.run tenSeconds.step
      { state := { actSg := 1 }, settings := oneSetting } (commitAfter 9000000000) = some last ∧
    (effects last.log, openings last.log) = ([(1, 0), (1, 9000000000)], [(1, some 10000000000)]) ∧
    (∀ number time deadline, (number, time) ∈ effects last.log → (number, some deadline) ∈ openings last.log →
      time < deadline) ∧ (holders last.log).length ≤ 1 := by
  have runs : (Machine.run tenSeconds.step { state := { actSg := 1 }, settings := oneSetting }
      (commitAfter 9000000000)).map (fun last => (effects last.log, openings last.log)) =
      some ([(1, 0), (1, 9000000000)], [(1, some 10000000000)]) := by decide +kernel
  obtain ⟨last, ran, seen⟩ := Option.map_eq_some_iff.mp runs
  exact ⟨last, ran, seen, expired_session_takes_no_effect tenSeconds 1 oneSetting _ last ran (by decide +kernel)⟩

/-- A commit whose callback lasts beyond the deadline takes effect, in a session that nobody has
released yet. -/
theorem commit_after_deadline :
    (Machine.run tenSeconds.step { state := { actSg := 1 }, settings := oneSetting } (commitAfter 11000000000)).map
      (fun last => (effects last.log, openings last.log)) =
      some ([(1, 0), (1, 11000000000)], [(1, some 10000000000)]) := by
  decide +kernel

end Iec61850.SettingGroups
