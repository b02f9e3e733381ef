/-
Directives of a log filter. A directive says up to which level the lines
of a part of the program are written. Written in full it is
`target[span{field=value}]=level`, of which each part may be missing.

The characters of a directive are looked at without the white space around
them, but its parts are taken from the text as it was given, at the same
distances from its start. So white space at the start moves all parts, and
white space at the end belongs to the last one.
-/
import ControlPlane.Settings
import ControlPlane.Telemetry.Log
import ControlPlane.Telemetry.Pattern
import ControlPlane.Text.Alphanumeric
import ControlPlane.Text.Percent

namespace ControlPlane

/-- How much is written: the lines up to a level, or none. -/
abbrev Verbosity := Option LogLevel

/-- The verbosity of a name or a number. -/
def Verbosity.ofText? (s : String) : Option Verbosity :=
  match Environment.natBelow? 6 s.toList with
  | some 0 => some none
  | some 1 => some (some .error)
  | some 2 => some (some .warn)
  | some 3 => some (some .info)
  | some 4 => some (some .debug)
  | some _ => some (some .trace)
  | none =>
    match String.ofList (s.toList.map Char.toLower) with
    | "off" => some none
    | "error" => some (some .error)
    | "warn" => some (some .warn)
    | "info" => some (some .info)
    | "debug" => some (some .debug)
    | "trace" => some (some .trace)
    | _ => none

/-- A field that a directive asks for, and whether it asks for a value of
it. -/
structure FieldCondition where
  name : String
  valued : Bool
  deriving DecidableEq, Repr

/-- The condition of a text: a name, perhaps with an equals sign and a
value, if it is one. What stands behind a second equals sign is left out. -/
def FieldCondition.ofText? (s : String) : Option FieldCondition :=
  match s.splitOn "=" with
  | name :: value :: _ =>
    if Pattern.isValue value then some ⟨name, true⟩ else none
  | _ => some ⟨s, false⟩

/-- A directive. -/
structure Directive where
  /-- What the names of the parts begin with; all parts if there is none. -/
  target : Option String := none
  /-- The span within which it holds. -/
  span : Option String := none
  fields : List FieldCondition := []
  verbosity : Verbosity := some .trace
  deriving DecidableEq, Repr

namespace Directive

/-- Does the directive look at the spans that a line stands in? -/
def isDynamic (d : Directive) : Bool := d.span.isSome || ! d.fields.isEmpty

/-- Can the directive be decided on a line alone, by the names of its
fields? -/
def isStatic (d : Directive) : Bool :=
  d.span.isNone && ! d.fields.any FieldCondition.valued

/-- The names of the fields that are asked for. -/
def fieldNames (d : Directive) : List String :=
  d.fields.map FieldCondition.name

/-- Does a line of a part fall under the directive? Every line has a
message. -/
def covers (d : Directive) (target : String) (l : LogLine) : Bool :=
  ((d.target.map fun t => t.toList.isPrefixOf target.toList).getD true) &&
    d.fieldNames.all fun name =>
      name = "message" || l.fields.any fun f => f.1 = name

/-- The order of two lists of names, as words of a dictionary are ordered. -/
def namesBelow : List String → List String → Bool
  | _, [] => false
  | [], _ :: _ => true
  | a :: as, b :: bs => a < b || (a = b && namesBelow as bs)

/-- Is the second directive closer to what it is about? A longer target is
closer than a shorter one and that closer than none; then more fields are
closer than fewer; what is left is settled by the names. -/
def isBelow (d e : Directive) : Bool :=
  let size :=
    fun (d : Directive) => (d.target.map fun t => t.utf8ByteSize + 1).getD 0
  let name := fun (d : Directive) => d.target.getD ""
  if size d ≠ size e then size d < size e
  else if d.fields.length ≠ e.fields.length then
    d.fields.length < e.fields.length
  else if name d ≠ name e then name d < name e
  else namesBelow d.fieldNames e.fieldNames

/-- Can a directive begin with the character, unless it begins with a
bracket? -/
def canBegin (c : Char) : Bool :=
  c = '-' || c = ':' || c = '_' || Text.isAlphanumeric c

/-- Where in a directive a reader is; the numbers say how many octets
stand before the part. -/
inductive Place
  | front
  /-- In a name that may be a level's or a target's. -/
  | name (start : Nat)
  | span (start : Nat)
  | field (start : Nat)
  /-- Behind the closing brace. -/
  | fieldsEnd
  /-- Behind the closing bracket. -/
  | spanEnd
  | level (start : Nat)
  deriving DecidableEq, Repr

/-- How far a directive has been read. -/
structure Reading where
  place : Place := .front
  directive : Directive := {}
  deriving DecidableEq, Repr

/-- The text of the octets from one place up to another one, if they spell
one. -/
def slice? (bs : List UInt8) (start stop : Nat) : Option String :=
  Text.ofOctets? ((bs.take stop).drop start)

/-- Reads one more character, with `here` octets before it; `none` if it
may not stand there. -/
def Reading.next (bs : List UInt8) (r : Reading) (here : Nat) (c : Char) :
    Option Reading :=
  let d := r.directive
  match r.place with
  | .front =>
    if c = '[' then some ⟨.span (here + 1), d⟩
    else if canBegin c then some ⟨.name here, d⟩
    else none
  | .name start =>
    if c = '=' then
      (slice? bs start here).map fun t =>
        ⟨.level (here + 1), { d with target := some t }⟩
    else if c = '[' then
      (slice? bs start here).map fun t =>
        ⟨.span (here + 1), { d with target := some t }⟩
    else some r
  | .span start =>
    if c = ']' then
      (slice? bs start here).map fun t => ⟨.spanEnd, { d with span := some t }⟩
    else if c = '\x7b' then
      (slice? bs start here).map fun t =>
        ⟨.field (here + 1), { d with span := if t = "" then none else some t }⟩
    else some r
  | .field start =>
    if c = '\x7d' then
      (slice? bs start here).bind fun t =>
        if t = "" then none
        else (FieldCondition.ofText? t).map fun f =>
          ⟨.fieldsEnd, { d with fields := d.fields ++ [f] }⟩
    else some r
  | .fieldsEnd => if c = ']' then some ⟨.spanEnd, d⟩ else none
  | .spanEnd => if c = '=' then some ⟨.level (here + 1), d⟩ else none
  | .level _ => some r

/-- The directive that has been read when the text ends. A name on its own
is a level, if there is one of that name, and otherwise a part all of
whose lines are written. -/
def Reading.finish (bs : List UInt8) (r : Reading) : Option Directive :=
  match r.place with
  | .name start =>
    (slice? bs start bs.length).map fun t =>
      match Verbosity.ofText? t with
      | some v => { r.directive with verbosity := v }
      | none => { r.directive with target := some t }
  | .level start =>
    (slice? bs start bs.length).bind fun t =>
      if t = "" then some r.directive
      else
        (Verbosity.ofText? t).map fun v => { r.directive with verbosity := v }
  | .spanEnd => some r.directive
  | _ => none

/-- Reads characters, with `here` octets before them, to the end. -/
def Reading.run (bs : List UInt8) (r : Reading) (here : Nat) :
    List Char → Option Directive
  | [] => r.finish bs
  | c :: rest =>
    match r.next bs here c with
    | some r => Reading.run bs r (here + c.utf8Size) rest
    | none => none

/-- The directive of a text. -/
def parse? (s : String) : Option Directive :=
  Reading.run (Text.octets s) {} 0 (Text.trim s.toList)

end Directive

end ControlPlane
