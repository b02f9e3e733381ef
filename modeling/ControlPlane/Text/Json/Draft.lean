/-
Drafts: a JSON text as far as it can be read. A text is read from left to
right and the first problem in it decides the answer, but what is a
problem depends on what is expected at each place: a value that is skipped
may hold a number out of range, a value of the wrong kind is refused
before its inside is looked at, and an object may repeat a key of which
only one is wanted. So reading has two halves. This module holds the data
between them: the tree of a text, ending where the text stops being JSON.
A place where the text stops says how it fails when the value there is
wanted (`read`) and when it is skipped (`skipped`), which are not always
the same.
-/
import ControlPlane.Text.Json.Basic

namespace ControlPlane.Json

/-- How a text fails to be the JSON that is expected. -/
inductive Fault
  /-- Not JSON, or nested too deeply. -/
  | malformed
  /-- JSON of another shape than expected. -/
  | mismatched
  /-- The text ends too early. -/
  | truncated
  deriving DecidableEq, Repr, Inhabited

/-- How a text stops being JSON: for a reader of the value there, for one
who skips it, and for one who expects one of several names and looks no
further than the first character. -/
structure Stop where
  read : Fault
  skipped : Fault
  named : Fault
  deriving DecidableEq, Repr

/-- The stop that is the same for everybody. -/
def Stop.plain (f : Fault) : Stop := ⟨f, f, f⟩

/-- A member's key: a text (`none` if it holds half a surrogate pair,
which may be skipped but not read), or the place where the text stops. -/
inductive Key
  | name (s : Option String)
  | broken (stop : Stop)
  deriving DecidableEq, Repr

mutual

/-- A value of a text. -/
inductive Draft
  | null
  | bool (b : Bool)
  /-- A number; `none` if it is out of range, so that it may be skipped
  but not read. -/
  | number (n : Option Number)
  /-- A text; `none` if it holds half a surrogate pair. -/
  | string (s : Option String)
  | array (items : Items)
  | object (members : Members)
  | broken (stop : Stop)

/-- The items of an array, up to its closing bracket or to where the text
stops. -/
inductive Items
  | closed
  | broken (stop : Stop)
  | item (value : Draft) (rest : Items)

/-- The members of an object, up to its closing brace or to where the text
stops. -/
inductive Members
  | closed
  | broken (stop : Stop)
  /-- The first key is no text; `asText` is how reading it as a text fails. -/
  | stray (asText : Fault)
  | member (key : Key) (value : Draft) (rest : Members)

end

/-- How a value of another kind than expected fails: a scalar is read to
its end first, so that its own fault comes before the wrong kind. -/
def Draft.refusal : Draft → Fault
  | .broken stop => stop.read
  | .number none => .malformed
  | .string none => .malformed
  | _ => .mismatched

mutual

/-- Does a value that is skipped stop the text, and how? Skipped values
may nest to any depth and may hold numbers out of range and broken
surrogate pairs. -/
def Draft.skip : Draft → Except Fault Unit
  | .array items => items.skip
  | .object members => members.skip
  | .broken stop => .error stop.skipped
  | _ => .ok ()

/-- `Draft.skip` on the items of an array. -/
def Items.skip : Items → Except Fault Unit
  | .closed => .ok ()
  | .broken stop => .error stop.skipped
  | .item value rest =>
    match value.skip with
    | .ok _ => rest.skip
    | .error f => .error f

/-- `Draft.skip` on the members of an object. -/
def Members.skip : Members → Except Fault Unit
  | .closed => .ok ()
  | .broken stop => .error stop.skipped
  | .stray _ => .error .malformed
  | .member (.broken stop) _ _ => .error stop.skipped
  | .member (.name _) value rest =>
    match value.skip with
    | .ok _ => rest.skip
    | .error f => .error f

end

mutual

/-- A free-form value, nested at most `room` containers deep; members are
put into the order of their keys, and the last of several members of one
key counts. -/
def Draft.value (room : Nat) : Draft → Except Fault Json
  | .null => .ok .null
  | .bool b => .ok (.bool b)
  | .number (some n) => .ok (.number n)
  | .number none => .error .malformed
  | .string (some s) => .ok (.string s)
  | .string none => .error .malformed
  | .array items =>
    match room with
    | 0 => .error .malformed
    | room + 1 => (items.values room).map Json.array
  | .object members =>
    match room with
    | 0 => .error .malformed
    | room + 1 => (members.values room []).map Json.object
  | .broken stop => .error stop.read

/-- The free-form values of an array's items. -/
def Items.values (room : Nat) : Items → Except Fault (List Json)
  | .closed => .ok []
  | .broken stop => .error stop.read
  | .item value rest =>
    match value.value room with
    | .error f => .error f
    | .ok j =>
      match rest.values room with
      | .error f => .error f
      | .ok js => .ok (j :: js)

/-- The members of a free-form object, added to those that came before. -/
def Members.values (room : Nat) (before : List (String × Json)) :
    Members → Except Fault (List (String × Json))
  | .closed => .ok before
  | .broken stop => .error stop.read
  | .stray _ => .error .malformed
  | .member (.broken stop) _ _ => .error stop.read
  | .member (.name none) _ _ => .error .malformed
  | .member (.name (some key)) value rest =>
    match value.value room with
    | .error f => .error f
    | .ok j => rest.values room (insertMember key j before)

end

/-- How deep the containers of a text may nest, skipped values apart. -/
def maxDepth : Nat := 127

mutual

/-- The draft of a value's text. -/
def draft : Json → Draft
  | .null => .null
  | .bool b => .bool b
  | .number n => .number (some n)
  | .string s => .string (some s)
  | .array items => .array (draftItems items)
  | .object members => .object (draftMembers members)

/-- The draft of an array's items. -/
def draftItems : List Json → Items
  | [] => .closed
  | j :: rest => .item (draft j) (draftItems rest)

/-- The draft of an object's members. -/
def draftMembers : List (String × Json) → Members
  | [] => .closed
  | (k, v) :: rest => .member (.name (some k)) (draft v) (draftMembers rest)

end

end ControlPlane.Json
