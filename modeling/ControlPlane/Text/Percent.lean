/-
Percent escapes: octets of a path or a query written as `%` and two digits
to base sixteen. A sign that no two digits follow stands for itself.
-/
import ControlPlane.Uuid

namespace ControlPlane.Text

/-- The octets that a text stands for. -/
def percentDecode : List UInt8 → List UInt8
  | [] => []
  | 0x25 :: a :: b :: rest =>
    match Uuid.digit? (Char.ofNat a.toNat),
      Uuid.digit? (Char.ofNat b.toNat) with
    | some a, some b => UInt8.ofNat (a * 16 + b) :: percentDecode rest
    | _, _ => 0x25 :: percentDecode (a :: b :: rest)
  | c :: rest => c :: percentDecode rest

/-- The octets of a text. -/
def octets (s : String) : List UInt8 := s.toUTF8.toList

/-- The text that octets spell, if they spell one. -/
def ofOctets? (bs : List UInt8) : Option String :=
  String.fromUTF8? ⟨bs.toArray⟩

end ControlPlane.Text
