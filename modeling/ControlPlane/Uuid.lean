/-
Universally unique identifiers. An identifier is a word of 128 bits. It is
written as 32 digits in five groups, in lower case; reading also takes the
digits without hyphens, in braces, or behind `urn:uuid:`, in any case.
-/
import ControlPlane.Text.Json.Printer

namespace ControlPlane

/-- An identifier of 128 bits. -/
structure Uuid where
  bits : BitVec 128
  deriving DecidableEq, Repr

namespace Uuid

/-- The 32 digits to base sixteen, the highest first. -/
def digits (u : Uuid) : List Nat :=
  (List.range 32).map fun i => (u.bits.toNat >>> (4 * (31 - i))) % 16

/-- The written form: digits in groups of 8, 4, 4, 4 and 12. -/
def chars (u : Uuid) : List Char :=
  let ds := u.digits.map Json.hexDigit
  ds.take 8 ++ '-' :: (ds.drop 8).take 4 ++ '-' :: (ds.drop 12).take 4 ++
    '-' :: (ds.drop 16).take 4 ++ '-' :: ds.drop 20

/-- The written form. -/
def text (u : Uuid) : String := String.ofList u.chars

/-- The value of a digit to base sixteen. -/
def digit? (c : Char) : Option Nat :=
  if '0' ≤ c ∧ c ≤ '9' then some (c.toNat - 48)
  else if 'a' ≤ c ∧ c ≤ 'f' then some (c.toNat - 87)
  else if 'A' ≤ c ∧ c ≤ 'F' then some (c.toNat - 55)
  else none

/-- The digits of a text that holds nothing else. -/
def digits? : List Char → Option (List Nat)
  | [] => some []
  | c :: rest =>
    match digit? c, digits? rest with
    | some d, some ds => some (d :: ds)
    | _, _ => none

/-- The identifier with these digits, if there are 32. -/
def ofDigits? (ds : List Nat) : Option Uuid :=
  if ds.length = 32 then
    some ⟨BitVec.ofNat 128 (ds.foldl (fun n d => n * 16 + d) 0)⟩
  else none

/-- The hyphenated form: the hyphens stand behind 8, 12, 16 and 20 digits. -/
def ofHyphenated? (cs : List Char) : Option Uuid :=
  if cs.length = 36 ∧ cs[8]? = some '-' ∧ cs[13]? = some '-' ∧
      cs[18]? = some '-' ∧ cs[23]? = some '-' then
    (digits? (cs.take 8 ++ (cs.drop 9).take 4 ++ (cs.drop 14).take 4 ++
      (cs.drop 19).take 4 ++ cs.drop 24)).bind ofDigits?
  else none

/-- The characters of `urn:uuid:`. -/
def urn : List Char := ['u', 'r', 'n', ':', 'u', 'u', 'i', 'd', ':']

/-- Reads any of the forms. -/
def parse? (s : String) : Option Uuid :=
  let cs := s.toList
  if cs.length = 32 then (digits? cs).bind ofDigits?
  else if cs.length = 36 then ofHyphenated? cs
  else if cs.length = 38 ∧ cs.head? = some '\x7b' ∧
      cs.getLast? = some '\x7d' then
    ofHyphenated? (cs.drop 1).dropLast
  else if cs.length = 45 ∧ cs.take 9 = urn then ofHyphenated? (cs.drop 9)
  else none

/-- The version of an identifier, which its thirteenth digit tells. -/
def version (u : Uuid) : Nat := (u.bits.toNat >>> 76) % 16

/-- The identifier of version 4 for the `n`-th draw: the draw's number
fills the bits that version and variant leave free, so different draws
below `2^122` give different identifiers. -/
def draw (n : Nat) : Uuid :=
  let low := n % Nat.pow 2 62
  let high := n / Nat.pow 2 62
  ⟨BitVec.ofNat 128
    (high / Nat.pow 2 12 % Nat.pow 2 48 * Nat.pow 2 80 + 4 * Nat.pow 2 76 +
      high % Nat.pow 2 12 * Nat.pow 2 64 + 2 * Nat.pow 2 62 + low)⟩

end Uuid

end ControlPlane
