/-
The JSON values that requests, records, bus messages and answers are made
of. A number keeps the kind it was written in: a whole number stays exact
over the whole signed and unsigned 64-bit range, and every other number is
a double. The members of an object are listed in the order in which they
are to be written; free-form objects that were read are listed in the
order of their keys (`insertMember`).
-/
import ControlPlane.Number.Double

namespace ControlPlane

namespace Json

/-- A whole number of at most 64 bits, signed or unsigned. -/
structure Integer where
  val : Int
  low : -9223372036854775808 ≤ val := by decide
  high : val < 18446744073709551616 := by decide
  deriving DecidableEq, Repr

/-- A number of a JSON text. -/
inductive Number
  | integer (n : Integer)
  | real (x : Double)
  deriving DecidableEq, Repr

end Json

/-- A JSON value. -/
inductive Json
  | null
  | bool (b : Bool)
  | number (n : Json.Number)
  | string (s : String)
  | array (items : List Json)
  | object (members : List (String × Json))
  deriving Repr, Inhabited

namespace Json

/-- A natural number of at most 64 bits as a JSON number. -/
def ofUInt64 (n : UInt64) : Json :=
  .number (.integer ⟨n.toNat, by omega, by have := n.toNat_lt; omega⟩)

/-- A natural number of at most 32 bits as a JSON number. -/
def ofUInt32 (n : UInt32) : Json := ofUInt64 n.toUInt64

/-- An octet as a JSON number. -/
def ofUInt8 (n : UInt8) : Json := ofUInt64 n.toUInt64

/-- A count as a JSON number; counts stay far below 64 bits. -/
def ofNat (n : Nat) : Json := ofUInt64 n.toUInt64

/-- A whole number as a JSON number, if it has at most 64 bits. -/
def ofInt? (n : Int) : Option Json :=
  if h : -9223372036854775808 ≤ n ∧ n < 18446744073709551616 then
    some (.number (.integer ⟨n, h.1, h.2⟩))
  else none

/-- A text that may be missing; a missing one is written `null`. -/
def ofString? : Option String → Json
  | some s => .string s
  | none => .null

/-- Keeps `value` under `key` in a list of members that is sorted by key:
a known key gets the new value, a new one its place. -/
def insertMember (key : String) (value : Json) :
    List (String × Json) → List (String × Json)
  | [] => [(key, value)]
  | (k, v) :: rest =>
    if key = k then (key, value) :: rest
    else if key < k then (key, value) :: (k, v) :: rest
    else (k, v) :: insertMember key value rest

/-- The value of a member, the first one of that name. -/
def member? (key : String) : List (String × Json) → Option Json
  | [] => none
  | (k, v) :: rest => if k = key then some v else member? key rest

/-- The value under `key`, if this is an object that has one. -/
def get? (j : Json) (key : String) : Option Json :=
  match j with
  | .object members => member? key members
  | _ => none

mutual

/-- The same value with the members of every object in the order of their
keys. -/
def sorted : Json → Json
  | .array items => .array (sortedItems items)
  | .object members => .object (sortedMembers members)
  | j => j

/-- `sorted` on each item. -/
def sortedItems : List Json → List Json
  | [] => []
  | j :: rest => sorted j :: sortedItems rest

/-- `sorted` on each member's value, the members put into the order of
their keys. -/
def sortedMembers : List (String × Json) → List (String × Json)
  | [] => []
  | (k, v) :: rest => insertMember k (sorted v) (sortedMembers rest)

end

/-- Without the member of that name. -/
def eraseMember (key : String) (members : List (String × Json)) :
    List (String × Json) :=
  members.filter (fun m => ! decide (m.1 = key))

/-- The members of an object; none of any other value. -/
def members : Json → List (String × Json)
  | .object ms => ms
  | _ => []

mutual

/-- A merge patch: the members of an object patch are merged one by one,
`null` removes a member, and any other patch takes the place of the value. -/
def mergePatch (target : Json) : Json → Json
  | .object patch => .object (mergeMembers target.members patch)
  | other => other

/-- Merges the members of a patch into a list of members, in order. -/
def mergeMembers (target : List (String × Json)) :
    List (String × Json) → List (String × Json)
  | [] => target
  | (k, .null) :: rest => mergeMembers (eraseMember k target) rest
  | (k, v) :: rest =>
    mergeMembers
      (insertMember k (mergePatch ((member? k target).getD .null) v) target)
      rest

end

end Json

end ControlPlane
