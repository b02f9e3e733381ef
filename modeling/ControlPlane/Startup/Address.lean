/-
Addresses to listen on. An address is a host and a port. The host is a
number, the older or the newer form of internet addresses, or the name
that every machine has for itself. Which hosts can be listened on is for
the machine to say.
-/
import ControlPlane.Settings

namespace ControlPlane

/-- A host that an address names. -/
inductive Host
  /-- By its number of 32 bits. -/
  | four (number : Nat)
  /-- By its number of 128 bits, in eight groups. -/
  | six (groups : List Nat)
  deriving DecidableEq, Repr

namespace Host

/-- The value of digits to a base, if there is at least one and nothing
else. -/
def ofDigits? (base : Nat) (digit? : Char → Option Nat) :
    List Char → Option Nat
  | [] => none
  | cs => cs.foldlM (fun n c => (digit? c).map fun d => n * base + d) 0

/-- The value of a digit up to sixteen, if it is below the base. -/
def digitBelow? (base : Nat) (c : Char) : Option Nat :=
  let value :=
    if '0' ≤ c ∧ c ≤ '9' then c.toNat - 48
    else if 'a' ≤ c ∧ c ≤ 'f' then c.toNat - 87
    else if 'A' ≤ c ∧ c ≤ 'F' then c.toNat - 55
    else 16
  if value < base then some value else none

/-- A part of an older host: to base sixteen behind `0x`, to base eight
behind another `0`. -/
def part? : List Char → Option Nat
  | '0' :: 'x' :: cs => ofDigits? 16 (digitBelow? 16) cs
  | '0' :: 'X' :: cs => ofDigits? 16 (digitBelow? 16) cs
  | '0' :: cs => ofDigits? 8 (digitBelow? 8) ('0' :: cs)
  | cs => ofDigits? 10 (digitBelow? 10) cs

/-- The number of one to four parts. The last part fills what the others
leave of 32 bits. -/
def join? (room : Nat) : List Nat → Option Nat
  | [] => none
  | [last] => if last < Nat.pow 256 room then some last else none
  | first :: rest =>
    if first < 256 ∧ 1 < room then
      (join? (room - 1) rest).map fun n => first * Nat.pow 256 (room - 1) + n
    else none

/-- An older host, in any of its forms. -/
def four? (s : String) : Option Host :=
  (((s.splitOn ".").mapM fun part => part? part.toList).bind (join? 4)).map
    four

/-- The two groups of an older host in its only full form: four numbers
without needless zeros. -/
def tail? (s : String) : Option (List Nat) :=
  let octet? := fun (part : String) =>
    match part.toList with
    | '0' :: _ :: _ => none
    | cs => (ofDigits? 10 (digitBelow? 10) cs).filter (· < 256)
  match (s.splitOn ".").map octet? with
  | [some a, some b, some c, some d] => some [a * 256 + b, c * 256 + d]
  | _ => none

/-- A group of a newer host: up to four digits. -/
def group? (s : String) : Option Nat :=
  if s.length ≤ 4 then ofDigits? 16 (digitBelow? 16) s.toList else none

/-- The groups between colons; the last part may be an older host if
`mixed` says so. -/
def groups? (mixed : Bool) : List String → Option (List Nat)
  | [] => some []
  | [last] =>
    match group? last with
    | some n => some [n]
    | none => if mixed then tail? last else none
  | first :: rest =>
    (group? first).bind fun n => (groups? mixed rest).map fun ns => n :: ns

/-- The parts of a text between colons; none of an empty text. -/
def parts (s : String) : List String := if s = "" then [] else s.splitOn ":"

/-- A newer host. Two colons in a row stand for all groups that are
missing, at least one. -/
def six? (s : String) : Option Host :=
  match s.splitOn "::" with
  | [whole] =>
    ((groups? true (parts whole)).filter fun ns => ns.length = 8).map six
  | [front, back] =>
    (groups? false (parts front)).bind fun ns =>
      (groups? true (parts back)).bind fun ms =>
        if ns.length + ms.length < 8 then
          some (six (ns ++ List.replicate (8 - ns.length - ms.length) 0 ++ ms))
        else none
  | _ => none

/-- A newer host, perhaps with the number of the network that it is looked
for in. -/
def scoped? (s : String) : Option Host :=
  match s.splitOn "%" with
  | [host] => six? host
  | [host, scope] =>
    if (Environment.digits? scope.toList).any (· < UInt32.size) then six? host
    else none
  | _ => none

/-- The host of a text: a number in any form, or the name that a machine
has for itself. -/
def ofText? (s : String) : Option Host :=
  if s.toList.map Char.toLower = "localhost".toList then four? "127.0.0.1"
  else (four? s).or (scoped? s)

/-- Does the host stand for all of a machine? -/
def isUnspecified : Host → Bool
  | four n => n = 0
  | six ns => ns.all (· = 0)

/-- The number of an older host, also of one in its newer form. -/
def older? : Host → Option Nat
  | four n => some n
  | six [0, 0, 0, 0, 0, 65535, a, b] => some (a * 65536 + b)
  | six _ => none

/-- Does the host stand for the machine itself, whatever its network? -/
def isOwn (h : Host) : Bool :=
  h.isUnspecified || h = six [0, 0, 0, 0, 0, 0, 0, 1] ||
    h.older?.any fun n => n = 0 || n / Nat.pow 256 3 = 127

end Host

/-- An address to listen on. -/
structure Address where
  host : Host
  port : Nat
  deriving DecidableEq, Repr

namespace Address

/-- The text before the last colon, and the text behind it. -/
def splitPort? (s : String) : Option (String × String) :=
  match (s.splitOn ":").reverse with
  | port :: rest@(_ :: _) => some (":".intercalate rest.reverse, port)
  | _ => none

/-- The host between brackets, if it stands between brackets. -/
def bracketed? (s : String) : Option String :=
  match s.toList with
  | '[' :: rest =>
    if rest.getLast? = some ']' then some (String.ofList rest.dropLast)
    else none
  | _ => none

/-- The address of a text, whose port stands behind the last colon. A
newer host may stand in brackets; the port has then no sign. -/
def ofText? (s : String) : Option Address :=
  (splitPort? s).bind fun (host, port) =>
    match bracketed? host with
    | some inner =>
      (Host.scoped? inner).bind fun h =>
        ((Environment.digits? port.toList).filter (· < 65536)).map fun p =>
          ⟨h, p⟩
    | none =>
      (Host.ofText? host).bind fun h =>
        (Environment.natBelow? 65536 port.toList).map fun p => ⟨h, p⟩

/-- Can be listened on under this address, if the machine allows these
hosts? -/
def isUsable (allowed : Host → Bool) (s : String) : Bool :=
  (ofText? s).any fun a => allowed a.host

end Address

end ControlPlane
