import Iec61850.Reporting.Pdu

/-!
What the triggers of value updates put into a report: the reasons a control block has enabled, and
the slot of each data set member that an updated attribute belongs to.
-/

namespace Iec61850.Reporting

open Model

structure Update where
  attrRef : DataAttributeRef
  value : MmsValue
  flag : InclusionFlag

/-- The values one batch gave attributes: those that raised a trigger and those that raised
nothing. -/
structure BatchValues where
  updates : List Update
  context : List (DataAttributeRef × MmsValue)

namespace BatchValues

def none : BatchValues where
  updates := []
  context := []

def values (batch : BatchValues) : List (DataAttributeRef × MmsValue) :=
  batch.context ++ batch.updates.map fun update => (update.attrRef, update.value)

end BatchValues

variable (flag : InclusionFlag) (update : Update) (trgOps : TriggerOptions) (live : LiveValues) (dataset : Dataset)
  (batch : BatchValues) (member : TriggeredMember) (members : List TriggeredMember) (flags : List InclusionFlag)
  (values : List (Option MmsValue))

def enabledTriggers : InclusionFlag :=
  [(InclusionFlag.valueChanged, TriggerOptions.dataChanged), (.qualityChanged, .qualityChanged),
    (.valueUpdate, .dataUpdate)].foldl
    (fun out (reason, trigger) => if flag.contains reason && trgOps.contains trigger then out.union reason else out)
    .none

structure TriggeredMember where
  index : Nat
  flag : InclusionFlag
  attrRef : DataAttributeRef
  value : MmsValue

/-- The slots an update triggers: the members its attribute belongs to, if one of its reasons is
enabled. -/
def Update.triggered : List TriggeredMember :=
  let flag := enabledTriggers update.flag trgOps
  if flag.hasTrigger then
    (dataset.membersOf update.attrRef).map fun index =>
      { index, flag, attrRef := update.attrRef, value := update.value }
  else
    []

/-- Records a trigger in its slot. A member that names the attribute takes its value; a member above
it adds the reasons to those it holds and takes the value the batch left it, with the attribute's
part set. -/
def fillMember : List InclusionFlag × List (Option MmsValue) :=
  match dataset.entry member.index, flags[member.index]?, values[member.index]? with
  | some entry, some flag, some slot =>
    if entry.isLeaf then
      (flags.set member.index member.flag, values.set member.index (some member.value))
    else
      let held := slot <|> entry.readValue live
      let held := batch.values.foldl (fun held (attrRef, value) => entry.valueWith live held attrRef value) held
      (flags.set member.index (flag.union member.flag),
        values.set member.index (entry.valueWith live held member.attrRef member.value))
  | _, _, _ => (flags, values)

def fillMembers : List InclusionFlag × List (Option MmsValue) :=
  members.foldl (fun slots member => fillMember live dataset batch member slots.1 slots.2) (flags, values)

def retriggers : Bool :=
  members.any fun member => (flags[member.index]?).any InclusionFlag.hasTrigger

end Iec61850.Reporting
