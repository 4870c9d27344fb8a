import Iec61850.Mms.Services
import Iec61850.Wire.Cursor
import Mathlib.Data.String.Basic

/-!
GetNameList: the names of the model and of the registered objects, sorted, without repetition, one
page at a time.
-/

namespace Iec61850.Service

open Mms

/-- A domain with the component paths of its named variables, flattened: `LN`, `LN$FC`, `LN$FC$DO`
and so on. -/
structure MmsDomain where
  name : String
  flatPaths : List String

structure MmsDeviceModel where
  domains : List MmsDomain

namespace MmsDeviceModel

def listDomains (model : MmsDeviceModel) : List String := model.domains.map MmsDomain.name

/-- `none` for a domain that does not exist. -/
def listNamedVariablesFlat (model : MmsDeviceModel) (domain : String) : Option (List String) :=
  (model.domains.find? fun candidate => candidate.name = domain).map MmsDomain.flatPaths

end MmsDeviceModel

def pageSize : Nat := 100

inductive GetNameListResult where
  | response (response : GetNameListResponse)
  | notFound

variable (names : List String) (model : MmsDeviceModel) (request : GetNameListRequest) (extras : List String)
  (continueAfter : Option String)

/-- The page starts at the first name of the sorted list that comes after the cursor, in the list
or not. -/
def paginate : List String × Bool := Wire.Cursor.firstBehind pageSize names continueAfter

theorem paginate_length_le : (paginate names continueAfter).1.length ≤ pageSize := by
  unfold paginate Wire.Cursor.firstBehind
  dsimp only
  split
  · assumption
  · exact List.length_take_le _ _

def mergedPage : GetNameListResponse :=
  let sorted := (names ++ extras).insertionSort (· ≤ ·)
  let (identifiers, moreFollows) := paginate (sorted.destutter (· ≠ ·)) continueAfter
  ⟨identifiers, moreFollows⟩

def emptyPage : GetNameListResponse := ⟨[], false⟩

def handleGetNameList : GetNameListResult :=
  match request.objectClass, request.objectScope with
  | .domain, .vmdSpecific => .response (mergedPage model.listDomains [] request.continueAfter)
  | .namedVariable, .domainSpecific domain =>
    match model.listNamedVariablesFlat domain with
    | some names => .response (mergedPage names [] request.continueAfter)
    | none => .notFound
  | .namedVariableList, .domainSpecific domain =>
    if (model.listNamedVariablesFlat domain).isNone then .notFound else .response emptyPage
  | _, _ => .response emptyPage

/-- The registered control blocks, data sets and journals join the names of the model. -/
def handleGetNameListWithExtras : GetNameListResult :=
  if extras.isEmpty then
    handleGetNameList model request
  else
    match request.objectClass, request.objectScope with
    | .namedVariable, .domainSpecific domain =>
      match model.listNamedVariablesFlat domain with
      | some names => .response (mergedPage names extras request.continueAfter)
      | none => .notFound
    | .namedVariableList, .domainSpecific domain | .journal, .domainSpecific domain =>
      if (model.listNamedVariablesFlat domain).isNone then .notFound
      else .response (mergedPage [] extras request.continueAfter)
    | _, _ => handleGetNameList model request

def GetNameListResult.Paged : GetNameListResult → Prop
  | .response page => page.identifiers.length ≤ pageSize
  | .notFound => True

theorem mergedPage_paged : (GetNameListResult.response (mergedPage names extras continueAfter)).Paged :=
  paginate_length_le _ continueAfter

theorem emptyPage_paged : (GetNameListResult.response emptyPage).Paged := Nat.zero_le pageSize

theorem handleGetNameList_paged : (handleGetNameList model request).Paged := by
  unfold handleGetNameList
  split
  · exact mergedPage_paged _ _ _
  · split
    · exact mergedPage_paged _ _ _
    · trivial
  · split
    · trivial
    · exact emptyPage_paged
  · exact emptyPage_paged

theorem handleGetNameListWithExtras_paged : (handleGetNameListWithExtras model request extras).Paged := by
  unfold handleGetNameListWithExtras
  split
  · exact handleGetNameList_paged model request
  split
  · split
    · exact mergedPage_paged _ _ _
    · trivial
  · split
    · trivial
    · exact mergedPage_paged _ _ _
  · split
    · trivial
    · exact mergedPage_paged _ _ _
  · exact handleGetNameList_paged model request

end Iec61850.Service
