import Iec61850.Reporting.Pdu

/-!
Wire values as the client hands them on.
-/

namespace Iec61850.Client

open Model Mms

def mmsValueToMmsData (value : MmsValue) : MmsData := Reporting.mmsValueToMmsData value

mutual

def mmsDataToMmsValue : MmsData → MmsValue
  | .boolean value => .boolean value
  | .integer value => .integer value
  | .unsigned value => .unsigned value
  | .float32 bits => .float32 bits
  | .float64 bits => .float64 bits
  | .bitString padding data => .bitString padding data
  | .booleanArray padding data => .bitString padding data
  | .octetString bytes => .octetString bytes
  | .visibleString text => .visibleString text
  | .mmsString text => .mmsString text
  | .utcTime bytes => .utcTime bytes
  | .binaryTime bytes => .binaryTime bytes
  | .generalizedTime text => .visibleString text
  | .array items => .array (mmsDatasToMmsValues items)
  | .struct items => .struct (mmsDatasToMmsValues items)

def mmsDatasToMmsValues : List MmsData → List MmsValue
  | [] => []
  | item :: rest => mmsDataToMmsValue item :: mmsDatasToMmsValues rest

end

mutual

theorem mmsDataToMmsValue_of_value (value : MmsValue) :
    mmsDataToMmsValue (Reporting.mmsValueToMmsData value) = value := by
  cases value with
  | array items | struct items =>
    rw [Reporting.mmsValueToMmsData, mmsDataToMmsValue, mmsDatasToMmsValues_of_values items]
  | _ => rfl

theorem mmsDatasToMmsValues_of_values (values : List MmsValue) :
    mmsDatasToMmsValues (Reporting.mmsValuesToMmsData values) = values := by
  cases values with
  | nil => rfl
  | cons value rest =>
    rw [Reporting.mmsValuesToMmsData, mmsDatasToMmsValues, mmsDataToMmsValue_of_value value,
      mmsDatasToMmsValues_of_values rest]

end

theorem mmsValueToMmsData_injective {value other : MmsValue}
    (same : mmsValueToMmsData value = mmsValueToMmsData other) :
    value = other := by
  rw [← mmsDataToMmsValue_of_value value]
  exact (congrArg mmsDataToMmsValue same).trans (mmsDataToMmsValue_of_value other)

end Iec61850.Client
