import Iec61850.Reporting.Pdu
import Iec61850.Wire.BigEndian

/-!
Instants as they arrive at the client: BINARY-TIME expresses the milliseconds from 1984 on for 65536
days.
-/

namespace Iec61850.Client

open Reporting (binaryTime6FromEpochMs epoch1984Ms msPerDay maxBinaryTime6Ms)

def epochMsFromBinaryTime6 (octets : List UInt8) : UInt64 :=
  let msOfDay := Wire.ofBytes (octets.take 4)
  let daysSince1984 := Wire.ofBytes (octets.drop 4)
  UInt64.ofNat (epoch1984Ms + daysSince1984 * msPerDay + msOfDay)

variable (number : Nat) (epochMs : UInt64)

def carriedMs : UInt64 := epochMsFromBinaryTime6 (binaryTime6FromEpochMs epochMs)

theorem carriedMs_def : carriedMs epochMs = epochMsFromBinaryTime6 (binaryTime6FromEpochMs epochMs) := rfl

theorem ofBytes_four (small : number < 2 ^ 32) :
    Wire.ofBytes ([number / 2 ^ 24, number / 2 ^ 16, number / 2 ^ 8, number].map UInt8.ofNat) = number := by
  simp only [List.map_cons, List.map_nil, Wire.ofBytes_cons, Wire.ofBytes_nil, List.length_cons,
    List.length_nil, UInt8.toNat_ofNat']
  omega

theorem ofBytes_two (small : number < 2 ^ 16) : Wire.ofBytes ([number / 2 ^ 8, number].map UInt8.ofNat) = number := by
  simp only [List.map_cons, List.map_nil, Wire.ofBytes_cons, Wire.ofBytes_nil, List.length_cons,
    List.length_nil, UInt8.toNat_ofNat']
  omega

theorem carriedMs_toNat : (carriedMs epochMs).toNat = min (max epochMs.toNat epoch1984Ms) maxBinaryTime6Ms := by
  let since1984 := min (max epochMs.toNat epoch1984Ms) maxBinaryTime6Ms - epoch1984Ms
  have range : epoch1984Ms ≤ maxBinaryTime6Ms := by decide
  have bound : since1984 < 65536 * msPerDay := by
    have most : maxBinaryTime6Ms = epoch1984Ms + 65536 * msPerDay - 1 := by decide
    have positive : 0 < msPerDay := by decide
    omega
  have days : since1984 / msPerDay < 2 ^ 16 := Nat.div_lt_of_lt_mul (by rwa [Nat.mul_comm])
  have msOfDay : since1984 % msPerDay < 2 ^ 32 := Nat.lt_trans (Nat.mod_lt _ (by decide)) (by decide)
  have whole := Nat.div_add_mod' since1984 msPerDay
  have front : (binaryTime6FromEpochMs epochMs).take 4 =
      [since1984 % msPerDay / 2 ^ 24, since1984 % msPerDay / 2 ^ 16, since1984 % msPerDay / 2 ^ 8,
        since1984 % msPerDay].map UInt8.ofNat := rfl
  have back : (binaryTime6FromEpochMs epochMs).drop 4 =
      [since1984 / msPerDay / 2 ^ 8, since1984 / msPerDay].map UInt8.ofNat := rfl
  have decoded : carriedMs epochMs =
      UInt64.ofNat (epoch1984Ms + since1984 / msPerDay * msPerDay + since1984 % msPerDay) := by
    unfold carriedMs epochMsFromBinaryTime6
    rw [front, back, ofBytes_four _ msOfDay, ofBytes_two _ days]
  have total : epoch1984Ms + since1984 / msPerDay * msPerDay + since1984 % msPerDay =
      min (max epochMs.toNat epoch1984Ms) maxBinaryTime6Ms := by
    omega
  have small : maxBinaryTime6Ms < 2 ^ 64 := by decide
  rw [decoded, total, UInt64.toNat_ofNat']
  exact Nat.mod_eq_of_lt (by omega)

-- what an instant becomes is known by the theorems above only
attribute [irreducible] carriedMs

end Iec61850.Client
