import Iec61850.Mms.Data

/-!
Values between the model and the wire, as the read and write services convert them.
-/

namespace Iec61850.Service

open Model
open Mms

/-- Clears the unused low bits of the last octet; more than seven of them leave the octets alone. -/
def bitStringBytes (padding : UInt8) (data : List UInt8) : List UInt8 :=
  match data.getLast? with
  | none => []
  | some last => if padding < 8 then data.dropLast ++ [last &&& (0xff <<< padding)] else data

mutual

def mmsValueToMmsData : MmsValue → MmsData
  | .boolean value => .boolean value
  | .integer value => .integer value
  | .unsigned value => .unsigned value
  | .float32 bits => .float32 bits
  | .float64 bits => .float64 bits
  | .bitString padding data => .bitString padding (bitStringBytes padding data)
  | .octetString bytes => .octetString bytes
  | .visibleString text => .visibleString text
  | .mmsString text => .mmsString text
  | .utcTime bytes => .utcTime bytes
  | .binaryTime bytes => .binaryTime bytes
  | .array items => .array (mmsValuesToMmsData items)
  | .struct items => .struct (mmsValuesToMmsData items)

def mmsValuesToMmsData : List MmsValue → List MmsData
  | [] => []
  | item :: rest => mmsValueToMmsData item :: mmsValuesToMmsData rest

end

mutual

def mmsDataToMmsValue : MmsData → MmsValue
  | .boolean value => .boolean value
  | .integer value => .integer value
  | .unsigned value => .unsigned value
  | .float32 bits => .float32 bits
  | .float64 bits => .float64 bits
  | .bitString padding data => .bitString padding (bitStringBytes padding data)
  | .octetString bytes => .octetString bytes
  | .visibleString text => .visibleString text
  | .mmsString text => .mmsString text
  | .utcTime bytes => .utcTime bytes
  | .binaryTime bytes => .binaryTime bytes
  | .array items => .array (mmsDatasToMmsValues items)
  | .struct items => .struct (mmsDatasToMmsValues items)
  | .booleanArray padding data => .bitString padding (bitStringBytes padding data)
  | .generalizedTime text => .visibleString text

def mmsDatasToMmsValues : List MmsData → List MmsValue
  | [] => []
  | item :: rest => mmsDataToMmsValue item :: mmsDatasToMmsValues rest

end

end Iec61850.Service
