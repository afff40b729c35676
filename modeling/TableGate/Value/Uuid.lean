import TableGate.Text.Digit

/-!
# Universally unique identifiers

An identifier is a number of 128 bits, written as 32 small hexadecimal digits
in groups of 8, 4, 4, 4 and 12.
-/

namespace TableGate

/-- An identifier of 128 bits. -/
structure Uuid where
  bits : BitVec 128
deriving DecidableEq, Repr

namespace Uuid

/-- The identifier of sixteen bytes, most significant first. -/
def ofBytes (bs : List Nat) : Uuid :=
  ⟨.ofNat 128 (bs.foldl (fun n b => n * 256 + b) 0)⟩

/-- The grouped hexadecimal text. -/
def text (u : Uuid) : String :=
  let ds := Text.hexDigits 32 u.bits.toNat
  let group (start count : Nat) := (ds.drop start).take count
  .ofList (group 0 8 ++ '-' :: group 8 4 ++ '-' :: group 12 4 ++
    '-' :: group 16 4 ++ '-' :: group 20 12)

/-- Read 32 hexadecimal digits of either case, hyphens and outer braces
passed over. -/
def ofText? (s : String) : Option Uuid :=
  let ds := s.toList.filter fun c => !(['-', '\x7b', '\x7d'].contains c)
  if ds.length = 32 then
    (Text.hexNumber? ds).map fun n => ⟨.ofNat 128 n⟩
  else none

end Uuid
end TableGate
