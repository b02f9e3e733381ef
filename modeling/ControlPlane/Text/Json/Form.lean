/-
Forms: reading typed values. Scalars, lists and choices are read by
functions on drafts; a record is read by a *form*, which names its fields
in order. A form takes an object, whose members may stand in any order,
whose unknown members are skipped and whose known members may not repeat,
or an array of the fields in their order. A field that is missing takes
its default, if it has one.
-/
import ControlPlane.Text.Json.Reader
import ControlPlane.Text.Json.Printer

namespace ControlPlane.Json

namespace Draft

/-- A text. -/
def text : Draft → Except Fault String
  | .string (some s) => .ok s
  | d => .error d.refusal

/-- A truth value. -/
def flag : Draft → Except Fault Bool
  | .bool b => .ok b
  | d => .error d.refusal

/-- A whole number below `bound`. -/
def lessThan (bound : Nat) : Draft → Except Fault { n : Nat // n < bound }
  | .number (some (.integer n)) =>
    if h : 0 ≤ n.val ∧ n.val < bound then .ok ⟨n.val.toNat, by omega⟩
    else .error .mismatched
  | d => .error d.refusal

/-- An octet. -/
def uint8 (d : Draft) : Except Fault UInt8 :=
  (d.lessThan UInt8.size).map fun n => UInt8.ofNat n.val

/-- A number of at most 32 bits. -/
def uint32 (d : Draft) : Except Fault UInt32 :=
  (d.lessThan UInt32.size).map fun n => UInt32.ofNat n.val

/-- A number of at most 64 bits. -/
def uint64 (d : Draft) : Except Fault UInt64 :=
  (d.lessThan UInt64.size).map fun n => UInt64.ofNat n.val

/-- A value that may be `null`. -/
def optional {α : Type} (expected : Draft → Except Fault α) :
    Draft → Except Fault (Option α)
  | .null => .ok none
  | d => (expected d).map some

/-- A text that has a reading of its own; one without is JSON of the wrong
shape. -/
def parsed {α : Type} (parse : String → Option α) (d : Draft) :
    Except Fault α :=
  match d.text with
  | .error f => .error f
  | .ok s => match parse s with
    | some a => .ok a
    | none => .error .mismatched

end Draft

/-- The items of an array, each read the same way. -/
def Items.all {α : Type} (expected : Draft → Except Fault α) :
    Items → Except Fault (List α)
  | .closed => .ok []
  | .broken stop => .error stop.read
  | .item value rest =>
    match expected value with
    | .error f => .error f
    | .ok a =>
      match rest.all expected with
      | .error f => .error f
      | .ok as => .ok (a :: as)

/-- An array of any length. -/
def Draft.list {α : Type} (expected : Draft → Except Fault α) :
    Draft → Except Fault (List α)
  | .array items => items.all expected
  | d => .error d.refusal

/-- Exactly `n` items. Too few are JSON of the wrong shape; what follows
the last one may only be the closing bracket. -/
def Items.exactly {α : Type} (expected : Draft → Except Fault α) :
    Nat → Items → Except Fault (List α)
  | 0, .closed => .ok []
  | 0, .broken stop => .error stop.read
  | 0, .item _ _ => .error .malformed
  | _ + 1, .closed => .error .mismatched
  | _ + 1, .broken stop => .error stop.read
  | n + 1, .item value rest =>
    match expected value with
    | .error f => .error f
    | .ok a =>
      match rest.exactly expected n with
      | .error f => .error f
      | .ok as => .ok (a :: as)

/-- An array of exactly `n` items. -/
def Draft.tuple {α : Type} (n : Nat) (expected : Draft → Except Fault α) :
    Draft → Except Fault (List α)
  | .array items => items.exactly expected n
  | d => .error d.refusal

/-- One of several names: as a text, or as the only key of an object, with
`null` under it. Any other value is refused by its first character. -/
def Draft.choice {α : Type} (pick : String → Option α) : Draft → Except Fault α
  | .string (some s) => (pick s).elim (.error .mismatched) .ok
  | .object (.broken stop) => .error stop.read
  | .object (.stray f) => .error f
  | .object (.member (.broken stop) _ _) => .error stop.read
  | .object (.member (.name (some s)) value rest) =>
    match pick s with
    | none => .error .mismatched
    | some a =>
      match value with
      | .null =>
        match rest with
        | .closed => .ok a
        | .broken stop => .error stop.read
        | _ => .error .malformed
      | value => .error value.refusal
  | .broken stop => .error stop.named
  | _ => .error .malformed

/-- How a record is read: its fields in order, the slots that hold those
read so far, how one field is put into them, and what they make in the
end. -/
structure Form (α : Type) where
  Slots : Type
  names : List String
  blank : Slots
  /-- `none` for a name that is no field. -/
  put : String → Draft → Slots → Option (Except Fault Slots)
  take : Slots → Except Fault α

namespace Form

variable {α β γ : Type}

/-- One field; `absent` is what it is when it is missing, and without it
the field must be given. -/
def field (absent : Option α) (name : String) (read : Draft → Except Fault α) :
    Form α where
  Slots := Option α
  names := [name]
  blank := none
  put key value slot :=
    if key = name then
      some (match slot with
        | some _ => .error .mismatched
        | none => (read value).map some)
    else none
  take slot :=
    match slot <|> absent with
    | some a => .ok a
    | none => .error .mismatched

/-- A field that must be given. -/
def required (name : String) (read : Draft → Except Fault α) : Form α :=
  field none name read

/-- A field that is `a` when it is missing. -/
def withDefault (a : α) (name : String) (read : Draft → Except Fault α) :
    Form α :=
  field (some a) name read

/-- The fields of two forms, one behind the other. -/
def both (f : Form α) (g : Form β) : Form (α × β) where
  Slots := f.Slots × g.Slots
  names := f.names ++ g.names
  blank := (f.blank, g.blank)
  put key value slots :=
    match f.put key value slots.1 with
    | some r => some (r.map fun s => (s, slots.2))
    | none =>
      (g.put key value slots.2).map fun r => r.map fun s => (slots.1, s)
  take slots :=
    match f.take slots.1 with
    | .error e => .error e
    | .ok a => (g.take slots.2).map fun b => (a, b)

/-- What the fields make. -/
def map (f : Form α) (make : α → β) : Form β where
  Slots := f.Slots
  names := f.names
  blank := f.blank
  put := f.put
  take slots := (f.take slots).map make

/-- Puts the members of an object into the slots, in the order of the text. -/
def fill (f : Form α) (slots : f.Slots) : Members → Except Fault f.Slots
  | .closed => .ok slots
  | .broken stop => .error stop.read
  | .stray _ => .error .malformed
  | .member (.broken stop) _ _ => .error stop.read
  | .member (.name none) _ _ => .error .malformed
  | .member (.name (some key)) value rest =>
    match f.put key value slots with
    | some (.error e) => .error e
    | some (.ok slots) => f.fill slots rest
    | none =>
      match value.skip with
      | .error e => .error e
      | .ok _ => f.fill slots rest

end Form

/-- The items of an array as members with the given names, in order; items
beyond them are none of a record. -/
def Items.named : List String → Items → Members
  | _, .closed => .closed
  | _, .broken stop => .broken stop
  | [], .item _ _ => .broken (.plain .malformed)
  | name :: names, .item value rest =>
    .member (.name (some name)) value (rest.named names)

/-- Reads a record. -/
def Form.read {α : Type} (f : Form α) : Draft → Except Fault α
  | .object members =>
    match f.fill f.blank members with
    | .error e => .error e
    | .ok slots => f.take slots
  | .array items =>
    match f.fill f.blank (items.named f.names) with
    | .error e => .error e
    | .ok slots => f.take slots
  | d => .error d.refusal

/-- Reads a record from a whole text. -/
def Form.parse {α : Type} (f : Form α) (text : String) : Except Fault α :=
  readAll f.read text.toList

/-- Reads what is expected from a value that is JSON already, so that only
its shape can be wrong. -/
def decode? {α : Type} (expected : Draft → Except Fault α) (j : Json) :
    Option α :=
  (expected j.draft).toOption

end ControlPlane.Json
