import Iec61850.Model.Value
import Mathlib.Data.List.Basic

/-!
Data sets: the members a report control block observes. The value of a member lives in the
basic-type attributes at or beneath the node it names. Each of these leaves shares a cell with the
device model, so a member always reads live values.
-/

namespace Iec61850.Reporting

open Model

abbrev DataAttributeRef := String

/-- The value cells of the device model; a cell whose lock is poisoned cannot be read. -/
abbrev LiveValues := Nat → Option MmsValue

structure DatasetLeaf where
  attrRef : DataAttributeRef
  cell : Nat
  deriving DecidableEq, Repr

inductive MemberNode where
  | leaf (basic : DatasetLeaf)
  | struct (children : List MemberNode)
  | array (children : List MemberNode)

namespace MemberNode

mutual

def readValue (live : LiveValues) : MemberNode → Option MmsValue
  | .leaf basic => live basic.cell
  | .struct children => (readValues live children).map .struct
  | .array children => (readValues live children).map .array

def readValues (live : LiveValues) : List MemberNode → Option (List MmsValue)
  | [] => some []
  | child :: rest => do
      let value ← readValue live child
      let values ← readValues live rest
      return value :: values

end

mutual

def leaves : MemberNode → List DatasetLeaf
  | .leaf basic => [basic]
  | .struct children => leavesOf children
  | .array children => leavesOf children

def leavesOf : List MemberNode → List DatasetLeaf
  | [] => []
  | child :: rest => leaves child ++ leavesOf rest

end

mutual

/-- Replaces the first leaf named `leafRef` inside `value`, a value of this node; says whether there
was one. -/
def replaceLeaf (leafRef : DataAttributeRef) (newValue : MmsValue) : MemberNode → MmsValue → Bool × MmsValue
  | .leaf basic, value => if basic.attrRef = leafRef then (true, newValue) else (false, value)
  | .struct children, .struct members =>
    let replaced := replaceLeaves leafRef newValue children members
    (replaced.1, .struct replaced.2)
  | .array children, .array members =>
    let replaced := replaceLeaves leafRef newValue children members
    (replaced.1, .array replaced.2)
  | _, value => (false, value)

def replaceLeaves (leafRef : DataAttributeRef) (newValue : MmsValue) :
    List MemberNode → List MmsValue → Bool × List MmsValue
  | child :: children, member :: members =>
    let replaced := replaceLeaf leafRef newValue child member
    if replaced.1 then
      (true, replaced.2 :: members)
    else
      let rest := replaceLeaves leafRef newValue children members
      (rest.1, replaced.2 :: rest.2)
  | _, members => (false, members)

end

end MemberNode

structure DatasetEntry where
  attrRef : DataAttributeRef
  node : MemberNode

namespace DatasetEntry

variable (entry : DatasetEntry)

def isLeaf : Bool :=
  match entry.node with
  | .leaf _ => true
  | .struct _ | .array _ => false

variable (live : LiveValues) (held : Option MmsValue) (leafRef : DataAttributeRef)

def readValue : Option MmsValue := entry.node.readValue live

/-- A reference beneath the member continues its name with a component or an array index. -/
def mayHold : Bool :=
  match entry.attrRef.toList.isPrefixOf? leafRef.toList with
  | some (next :: _) => next == '$' || next == '('
  | _ => false

def covers : Bool :=
  match entry.node with
  | .leaf leaf => leaf.attrRef == leafRef
  | .struct _ | .array _ =>
    entry.mayHold leafRef && entry.node.leaves.any fun leaf => leaf.attrRef == leafRef

/-- The value of the member once the attribute `leafRef` holds `newValue`, the rest of it as `held`
or as read. -/
def valueWith (newValue : MmsValue) : Option MmsValue :=
  match entry.node with
  | .leaf leaf => if leaf.attrRef = leafRef then some newValue else held
  | .struct _ | .array _ => do
      let value ← held <|> entry.readValue live
      if entry.mayHold leafRef then
        return (entry.node.replaceLeaf leafRef newValue value).2
      else
        return value

end DatasetEntry

structure Dataset where
  name : String
  entries : List DatasetEntry

namespace Dataset

variable (dataset : Dataset)

def len : Nat := dataset.entries.length

def entry (index : Nat) : Option DatasetEntry := dataset.entries[index]?

def membersOf (leafRef : DataAttributeRef) : List Nat :=
  (List.range dataset.len).filter fun index =>
    (dataset.entry index).any fun entry => entry.covers leafRef

def snapshotValues (live : LiveValues) : List (Option MmsValue) :=
  dataset.entries.map fun entry => entry.readValue live

end Dataset

variable (domain name path mmsPath datSet : String)

/-- Qualifies a control block's reference to an object: a name without a scope of its own gets the
domain. -/
def qualifiedObjectReference : String :=
  if name.isEmpty || name.toList.head? == some '@' || name.toList.contains '/' || domain.isEmpty then
    name
  else
    domain ++ "/" ++ name

def splitOnceSlash : Option (String × String) :=
  if path.toList.contains '/' then
    some (String.ofList (path.toList.takeWhile (· != '/')), String.ofList ((path.toList.dropWhile (· != '/')).drop 1))
  else
    none

def qualifiedDatSet : String :=
  qualifiedObjectReference ((splitOnceSlash mmsPath).elim "" Prod.fst) datSet

/-- The key under which the data set registry holds the data set a DatSet value names. -/
def datasetKey : Option (String × String) :=
  if datSet.isEmpty then
    none
  else
    match splitOnceSlash datSet with
    | some key => some key
    | none => (splitOnceSlash mmsPath).map fun path => (path.1, datSet)

example : qualifiedDatSet "IED1LD0/LLN0$BR$brcb01" "LLN0$ds1" = "IED1LD0/LLN0$ds1" := by decide

end Iec61850.Reporting
