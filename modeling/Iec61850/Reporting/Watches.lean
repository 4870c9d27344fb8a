import Iec61850.Reporting.Dataset
import Mathlib.Logic.Function.Basic

/-!
The inverted index of the reporting engine: for each attribute the control blocks to look at when it
changes, kept while blocks are registered and bound to other data sets.
-/

namespace Iec61850.Reporting

open List

def Dataset.leafRefs (dataset : Dataset) : List DataAttributeRef :=
  (dataset.entries.flatMap fun entry => entry.node.leaves).map DatasetLeaf.attrRef

/-- The handles of the control blocks that watch an attribute; a handle is the address of its
block. -/
abbrev WatchMap := DataAttributeRef → Option (List Nat)

def added (watcher : Nat) (list : Option (List Nat)) : Option (List Nat) :=
  let list := list.getD []
  some (if watcher ∈ list then list else list ++ [watcher])

def removed (watcher : Nat) : Option (List Nat) → Option (List Nat)
  | some list =>
    let list := list.filter (· ≠ watcher)
    if list.isEmpty then none else some list
  | none => none

/-- Changes the watch list of every leaf of the members of a data set. -/
def atLeaves (dataset : Dataset) (watchMap : WatchMap)
    (change : Option (List Nat) → Option (List Nat)) : WatchMap :=
  dataset.leafRefs.foldl
    (fun watchMap leaf => Function.update watchMap leaf (change (watchMap leaf))) watchMap

def watchLeaves (watchMap : WatchMap) (watcher : Nat) (dataset : Dataset) : WatchMap :=
  atLeaves dataset watchMap (added watcher)

def unwatchLeaves (watchMap : WatchMap) (watcher : Nat) (dataset : Dataset) : WatchMap :=
  atLeaves dataset watchMap (removed watcher)

/-- Moves a watcher from the leaves of one data set to those of another. -/
def rewatchLeaves (watchMap : WatchMap) (watcher : Nat) (old new : Option Dataset) : WatchMap :=
  let unwatched := old.elim watchMap (unwatchLeaves watchMap watcher)
  new.elim unwatched (watchLeaves unwatched watcher)

def observes (bound : Option Dataset) (attrRef : DataAttributeRef) : Bool :=
  bound.any (attrRef ∈ ·.leafRefs)

/-- The watch list is not empty and holds each of `watchers` once and no other block. -/
structure Lists (list : Option (List Nat)) (watchers : Nat → Prop) : Prop where
  filled : list ≠ some []
  nodup : (list.getD []).Nodup
  listed : ∀ other, other ∈ list.getD [] ↔ watchers other

/-- The watch lists follow the data sets the watchers hold. -/
def Follows (watchMap : WatchMap) (held : Nat → Option Dataset) : Prop :=
  ∀ attrRef, Lists (watchMap attrRef) fun watcher => observes (held watcher) attrRef

section

variable {attrRef : DataAttributeRef} {list : Option (List Nat)} {watchers : Nat → Prop}
  {watchMap : WatchMap} {held : Nat → Option Dataset}

theorem Lists.added (watcher : Nat) (lists : Lists list watchers) :
    Lists (added watcher list) fun other => watchers other ∨ other = watcher := by
  unfold Reporting.added
  dsimp only
  split
  · rename_i member
    refine ⟨fun empty => ne_nil_of_mem member (Option.some.inj empty), lists.nodup, fun other => ?_⟩
    rw [← lists.listed, Option.getD_some]
    exact ⟨.inl, fun either => either.elim id fun own => own ▸ member⟩
  · rename_i absent
    refine ⟨by simp, lists.nodup.append (nodup_singleton _) (disjoint_singleton.mpr absent), ?_⟩
    intro other
    rw [← lists.listed, Option.getD_some, mem_append, mem_singleton]

theorem Lists.removed (watcher : Nat) (lists : Lists list watchers) :
    Lists (removed watcher list) fun other => watchers other ∧ other ≠ watcher := by
  obtain ⟨_, nodup, listed⟩ := lists
  cases list with
  | none => exact ⟨nofun, nodup, fun other => ⟨nofun, fun both => (listed other).mpr both.1⟩⟩
  | some list =>
    have kept : ∀ other, other ∈ list.filter (· ≠ watcher) ↔ watchers other ∧ other ≠ watcher := by
      simp [← listed]
    unfold Reporting.removed
    dsimp only
    split
    · rename_i empty
      rw [isEmpty_iff.mp empty] at kept
      exact ⟨nofun, nodup_nil, kept⟩
    · rename_i filled
      exact ⟨fun empty => filled (isEmpty_iff.mpr (Option.some.inj empty)), nodup.filter _, kept⟩

theorem Lists.atLeaves (dataset : Dataset) {change : Option (List Nat) → Option (List Nat)}
    {effect : (Nat → Prop) → Nat → Prop}
    (keeps : ∀ {list watchers}, Lists list watchers → Lists (change list) (effect watchers))
    (again : ∀ watchers, effect (effect watchers) = effect watchers)
    (lists : Lists (watchMap attrRef) watchers) : Lists (atLeaves dataset watchMap change attrRef)
      (if attrRef ∈ dataset.leafRefs then effect watchers else watchers) := by
  unfold Reporting.atLeaves
  induction dataset.leafRefs generalizing watchMap watchers with
  | nil => exact lists
  | cons leaf rest ih =>
    by_cases here : attrRef = leaf
    · subst here
      have first : Lists (Function.update watchMap attrRef (change (watchMap attrRef)) attrRef)
          (effect watchers) := by
        rw [Function.update_self]
        exact keeps lists
      simpa [again] using ih first
    · have still : Lists (Function.update watchMap leaf (change (watchMap leaf)) attrRef) watchers := by
        rwa [Function.update_of_ne here]
      simpa [here] using ih still

theorem Follows.watch {watcher : Nat} (follows : Follows watchMap held)
    (free : held watcher = none) (dataset : Dataset) :
    Follows (watchLeaves watchMap watcher dataset) (Function.update held watcher (some dataset)) := by
  intro attrRef
  have lists := (follows attrRef).atLeaves dataset (Lists.added watcher) (by simp)
  refine { lists with listed := fun other => (lists.listed other).trans ?_ }
  by_cases leaf : attrRef ∈ dataset.leafRefs <;> by_cases same : other = watcher <;>
    simp [observes, leaf, same, free]

theorem Follows.unwatch {watcher : Nat} {dataset : Dataset} (follows : Follows watchMap held)
    (bound : held watcher = some dataset) :
    Follows (unwatchLeaves watchMap watcher dataset) (Function.update held watcher none) := by
  intro attrRef
  have lists := (follows attrRef).atLeaves dataset (Lists.removed watcher) (by simp)
  refine { lists with listed := fun other => (lists.listed other).trans ?_ }
  by_cases leaf : attrRef ∈ dataset.leafRefs <;> by_cases same : other = watcher <;>
    simp [observes, leaf, same, bound]

theorem Follows.rewatch (follows : Follows watchMap held) (watcher : Nat) (new : Option Dataset) :
    Follows (rewatchLeaves watchMap watcher (held watcher) new)
      (Function.update held watcher new) := by
  have cleared : Follows ((held watcher).elim watchMap (unwatchLeaves watchMap watcher))
      (Function.update held watcher none) := by
    cases bound : held watcher with
    | none => rwa [Function.update_eq_self_iff.mpr bound.symm]
    | some old => exact follows.unwatch bound
  cases new with
  | none => exact cleared
  | some dataset =>
    have watched := cleared.watch (Function.update_self ..) dataset
    rwa [Function.update_idem] at watched

theorem Follows.count (follows : Follows watchMap held) (watcher : Nat) :
    ((watchMap attrRef).getD []).count watcher =
      if observes (held watcher) attrRef then 1 else 0 := by
  rw [(follows attrRef).nodup.count]
  simp only [(follows attrRef).listed]

end

/-- A registered control block: the address of its allocation and the data set it is bound to. -/
structure RegisteredBlock where
  address : Nat
  dataset : Option Dataset

/-- The control blocks of one kind and their inverted index. The handles in a watch list are weak:
those of a block that was replaced under its path stay, and name no registered block any more. -/
structure BlockTable where
  blocks : String → Option RegisteredBlock
  /-- the next allocation; no handle to an earlier one has its address -/
  allocations : Nat
  watchMap : WatchMap

/-- The registered paths of one kind of block, each with the data set it was bound to last. -/
abbrev Bindings := String → Option (Option Dataset)

namespace BlockTable

def empty : BlockTable := ⟨fun _ => none, 0, fun _ => none⟩

def insert (table : BlockTable) (mmsPath : String) (new : Option Dataset) : BlockTable where
  blocks := Function.update table.blocks mmsPath (some ⟨table.allocations, new⟩)
  allocations := table.allocations + 1
  watchMap := new.elim table.watchMap (watchLeaves table.watchMap table.allocations)

def rebind (table : BlockTable) (mmsPath : String) (new : Option Dataset) : BlockTable :=
  match table.blocks mmsPath with
  | none => table
  | some block =>
    { table with
      blocks := Function.update table.blocks mmsPath (some { block with dataset := new })
      watchMap := rewatchLeaves table.watchMap block.address block.dataset new }

/-- The table against the bindings its calls were meant to make. `told` says for every allocation
the path of its block and the data set that block has or, if it was replaced, had. -/
structure Exact (table : BlockTable) (bindings : Bindings) (told : Nat → String × Option Dataset) :
    Prop where
  follows : Follows table.watchMap (Prod.snd ∘ told)
  unallocated : ∀ address, table.allocations ≤ address → (told address).2 = none
  registered : ∀ path block, table.blocks path = some block →
    block.address < table.allocations ∧ told block.address = (path, block.dataset)
  bound : ∀ path, (table.blocks path).map (·.dataset) = bindings path

variable {table : BlockTable} {bindings : Bindings} {told : Nat → String × Option Dataset}

theorem Exact.insert (exact : table.Exact bindings told) (mmsPath : String) (new : Option Dataset) :
    ∃ told, (table.insert mmsPath new).Exact (Function.update bindings mmsPath (some new)) told := by
  refine ⟨Function.update told table.allocations (mmsPath, new), ?_, ?_, ?_, ?_⟩
  · have free := exact.unallocated table.allocations le_rfl
    rw [Function.comp_update]
    cases new with
    | none => rw [Function.update_eq_self_iff.mpr free.symm]; exact exact.follows
    | some dataset => exact exact.follows.watch free dataset
  · intro address later
    have beyond : table.allocations < address := later
    rw [Function.update_of_ne beyond.ne']
    exact exact.unallocated address beyond.le
  · intro path block found
    by_cases here : path = mmsPath
    · subst here
      obtain rfl : _ = block := by simpa [BlockTable.insert] using found
      exact ⟨Nat.lt_succ_self _, Function.update_self ..⟩
    · have earlier : table.blocks path = some block := by simpa [BlockTable.insert, here] using found
      obtain ⟨allocated, same⟩ := exact.registered path block earlier
      exact ⟨allocated.trans (Nat.lt_succ_self _),
        (Function.update_of_ne allocated.ne ..).trans same⟩
  · intro path
    by_cases here : path = mmsPath
    · simp [BlockTable.insert, here]
    · simp [BlockTable.insert, here, exact.bound]

theorem Exact.rebind (exact : table.Exact bindings told) (mmsPath : String) (new : Option Dataset) :
    ∃ told, (table.rebind mmsPath new).Exact
      (Function.update bindings mmsPath ((bindings mmsPath).map fun _ => new)) told := by
  unfold BlockTable.rebind
  split
  next absent =>
    have unbound : (bindings mmsPath).map (fun _ => new) = bindings mmsPath := by
      simp [← exact.bound, absent]
    rw [unbound, Function.update_eq_self]
    exact ⟨told, exact⟩
  next block found =>
    obtain ⟨allocated, same⟩ := exact.registered mmsPath block found
    refine ⟨Function.update told block.address (mmsPath, new), ?_, ?_, ?_, ?_⟩
    · have moved := exact.follows.rewatch block.address new
      rw [Function.comp_apply, same] at moved
      rwa [Function.comp_update]
    · intro address later
      rw [Function.update_of_ne (allocated.trans_le later).ne']
      exact exact.unallocated address later
    · intro path entry present
      by_cases here : path = mmsPath
      · subst here
        obtain rfl : _ = entry := by simpa using present
        exact ⟨allocated, Function.update_self ..⟩
      · have earlier : table.blocks path = some entry := by simpa [here] using present
        obtain ⟨below, other⟩ := exact.registered path entry earlier
        -- the blocks of two paths have different addresses
        have apart : entry.address ≠ block.address := by
          intro equal
          rw [equal, same] at other
          exact here (Prod.mk.inj other).1.symm
        exact ⟨below, (Function.update_of_ne apart ..).trans other⟩
    · intro path
      by_cases here : path = mmsPath
      · simp [here, ← exact.bound, found]
      · simp [here, exact.bound]

end BlockTable

structure ControlBlocks where
  rcbs : BlockTable
  brcbs : BlockTable

namespace ControlBlocks

section

variable (engine : ControlBlocks) (mmsPath : String) (dataset : Dataset) (new : Option Dataset)

/-- Registers a block under a path, in place of the one that was there. -/
def registerRcb : ControlBlocks := { engine with rcbs := engine.rcbs.insert mmsPath (some dataset) }

def addBrcb : Except String ControlBlocks :=
  if (engine.brcbs.blocks mmsPath).isSome then
    .error ("BRCB already registered: " ++ mmsPath)
  else
    .ok { engine with brcbs := engine.brcbs.insert mmsPath new }

def registerBrcb : Except String ControlBlocks := engine.addBrcb mmsPath none

def registerBrcbWithDataset : Except String ControlBlocks := engine.addBrcb mmsPath (some dataset)

/-- What a DatSet write does to a URCB once the data set it names is resolved. -/
def rebindRcbWatches : ControlBlocks := { engine with rcbs := engine.rcbs.rebind mmsPath new }

def rebindBrcbDataset : ControlBlocks := { engine with brcbs := engine.brcbs.rebind mmsPath new }

end

inductive Call where
  | registerRcb (mmsPath : String) (dataset : Dataset)
  | registerBrcb (mmsPath : String)
  | registerBrcbWithDataset (mmsPath : String) (dataset : Dataset)
  | rebindRcbWatches (mmsPath : String) (new : Option Dataset)
  | rebindBrcbDataset (mmsPath : String) (new : Option Dataset)

/-- A registration that fails changes nothing. -/
def act (engine : ControlBlocks) : Call → ControlBlocks
  | .registerRcb mmsPath dataset => engine.registerRcb mmsPath dataset
  | .registerBrcb mmsPath => (engine.registerBrcb mmsPath).toOption.getD engine
  | .registerBrcbWithDataset mmsPath dataset =>
    (engine.registerBrcbWithDataset mmsPath dataset).toOption.getD engine
  | .rebindRcbWatches mmsPath new => engine.rebindRcbWatches mmsPath new
  | .rebindBrcbDataset mmsPath new => engine.rebindBrcbDataset mmsPath new

def run (calls : List Call) : ControlBlocks := calls.foldl act ⟨.empty, .empty⟩

/-- What the calls mean for the URCBs: the last registration or rebinding decides. -/
def Call.bindRcbs (bindings : Bindings) : Call → Bindings
  | .registerRcb mmsPath dataset => Function.update bindings mmsPath (some (some dataset))
  | .rebindRcbWatches mmsPath new =>
    Function.update bindings mmsPath ((bindings mmsPath).map fun _ => new)
  | _ => bindings

/-- What they mean for the BRCBs: only the first registration under a path counts. -/
def Call.bindBrcbs (bindings : Bindings) : Call → Bindings
  | .registerBrcb mmsPath => Function.update bindings mmsPath ((bindings mmsPath).or (some none))
  | .registerBrcbWithDataset mmsPath dataset =>
    Function.update bindings mmsPath ((bindings mmsPath).or (some (some dataset)))
  | .rebindBrcbDataset mmsPath new =>
    Function.update bindings mmsPath ((bindings mmsPath).map fun _ => new)
  | _ => bindings

variable {engine : ControlBlocks} {rcbs brcbs : Bindings}

theorem addBrcb_exact {told : Nat → String × Option Dataset} (exact : engine.brcbs.Exact brcbs told)
    (mmsPath : String) (new : Option Dataset) :
    ((engine.addBrcb mmsPath new).toOption.getD engine).rcbs = engine.rcbs ∧
      ∃ told, ((engine.addBrcb mmsPath new).toOption.getD engine).brcbs.Exact
        (Function.update brcbs mmsPath ((brcbs mmsPath).or (some new))) told := by
  have known := exact.bound mmsPath
  unfold addBrcb
  cases found : engine.brcbs.blocks mmsPath with
  | some block =>
    rw [← known, found, Option.map_some, Option.some_or]
    refine ⟨rfl, told, ?_⟩
    rwa [Function.update_eq_self_iff.mpr (by rw [← known, found]; rfl)]
  | none =>
    rw [← known, found, Option.map_none, Option.none_or]
    exact ⟨rfl, exact.insert mmsPath new⟩

theorem act_exact (call : Call) (rcbsExact : ∃ told, engine.rcbs.Exact rcbs told)
    (brcbsExact : ∃ told, engine.brcbs.Exact brcbs told) :
    (∃ told, (engine.act call).rcbs.Exact (call.bindRcbs rcbs) told) ∧
      ∃ told, (engine.act call).brcbs.Exact (call.bindBrcbs brcbs) told := by
  obtain ⟨_, urcbs⟩ := rcbsExact
  obtain ⟨_, buffered⟩ := brcbsExact
  have added (mmsPath : String) (new : Option Dataset) := addBrcb_exact buffered mmsPath new
  cases call with
  | registerRcb mmsPath dataset => exact ⟨urcbs.insert mmsPath (some dataset), _, buffered⟩
  | rebindRcbWatches mmsPath new => exact ⟨urcbs.rebind mmsPath new, _, buffered⟩
  | registerBrcb mmsPath => exact ⟨⟨_, (added mmsPath none).1 ▸ urcbs⟩, (added mmsPath none).2⟩
  | registerBrcbWithDataset mmsPath dataset =>
    exact ⟨⟨_, (added mmsPath (some dataset)).1 ▸ urcbs⟩, (added mmsPath (some dataset)).2⟩
  | rebindBrcbDataset mmsPath new => exact ⟨⟨_, urcbs⟩, buffered.rebind mmsPath new⟩

theorem run_exact (calls : List Call) (rcbsExact : ∃ told, engine.rcbs.Exact rcbs told)
    (brcbsExact : ∃ told, engine.brcbs.Exact brcbs told) :
    (∃ told, (calls.foldl act engine).rcbs.Exact (calls.foldl Call.bindRcbs rcbs) told) ∧
      ∃ told, (calls.foldl act engine).brcbs.Exact (calls.foldl Call.bindBrcbs brcbs) told := by
  induction calls generalizing engine rcbs brcbs with
  | nil => exact ⟨rcbsExact, brcbsExact⟩
  | cons call rest ih =>
    obtain ⟨urcbs, buffered⟩ := act_exact call rcbsExact brcbsExact
    exact ih urcbs buffered

end ControlBlocks

/-- The index of a table is exact: the blocks registered are those of `bindings`, each is bound to
its data set and stands once in the watch lists of the attributes this observes and in no other, and
no list is left empty. -/
structure BlockTable.Indexed (table : BlockTable) (bindings : Bindings) : Prop where
  bound : ∀ path, (table.blocks path).map (·.dataset) = bindings path
  listed : ∀ path block, table.blocks path = some block → ∀ attrRef,
    ((table.watchMap attrRef).getD []).count block.address =
      if observes (bindings path).join attrRef then 1 else 0
  apart : ∀ path other block block', table.blocks path = some block →
    table.blocks other = some block' → block.address = block'.address → path = other
  filled : ∀ attrRef, table.watchMap attrRef ≠ some []

theorem BlockTable.Exact.indexed {table : BlockTable} {bindings : Bindings}
    {told : Nat → String × Option Dataset} (exact : table.Exact bindings told) :
    table.Indexed bindings where
  bound := exact.bound
  listed path block found attrRef := by
    have holds := (exact.registered path block found).2
    rw [exact.follows.count, Function.comp_apply, holds, ← exact.bound, found]
    rfl
  apart path other block block' found foundOther same := by
    have here := (exact.registered path block found).2
    have there := (exact.registered other block' foundOther).2
    rw [same, there] at here
    exact (Prod.mk.inj here).1.symm
  filled attrRef := (exact.follows attrRef).filled

/-- After any registrations and rebindings the watch lists hold every registered block as the data
set it was bound to last asks for. -/
theorem watch_lists_exact (calls : List ControlBlocks.Call) :
    (ControlBlocks.run calls).rcbs.Indexed (calls.foldl ControlBlocks.Call.bindRcbs fun _ => none) ∧
      (ControlBlocks.run calls).brcbs.Indexed
        (calls.foldl ControlBlocks.Call.bindBrcbs fun _ => none) := by
  have start : BlockTable.empty.Exact (fun _ => none) fun _ => ("", none) :=
    ⟨fun _ => ⟨nofun, nodup_nil, fun _ => ⟨nofun, nofun⟩⟩, fun _ _ => rfl, nofun, fun _ => rfl⟩
  obtain ⟨⟨_, rcbs⟩, _, brcbs⟩ :=
    @ControlBlocks.run_exact ⟨.empty, .empty⟩ _ _ calls ⟨_, start⟩ ⟨_, start⟩
  exact ⟨rcbs.indexed, brcbs.indexed⟩

/-- A URCB replaced under its path leaves its handle in the watch list of an attribute that no
registered block observes. -/
theorem replaced_rcb_still_listed :
    let dataset := fun attrRef : String => (⟨attrRef, [⟨attrRef, .leaf ⟨attrRef, 0⟩⟩]⟩ : Dataset)
    let engine := ControlBlocks.run
      [.registerRcb "LD/LLN0$RP$urcb" (dataset "a"), .registerRcb "LD/LLN0$RP$urcb" (dataset "b")]
    engine.rcbs.watchMap "a" = some [0] ∧
      (engine.rcbs.blocks "LD/LLN0$RP$urcb").map (·.address) = some 1 := by
  decide +kernel

end Iec61850.Reporting
