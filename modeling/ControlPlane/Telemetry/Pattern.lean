/-
Values that directives ask for. A directive may ask for the value of a
field: a number, or a pattern of the value's text. What counts here is
only whether the text is one of these; no value is ever looked at outside
of spans.

Patterns are regular expressions in the usual notation. Looking around,
counting and referring back are not part of it.
-/

namespace ControlPlane.Pattern

/-- The value of a digit to base sixteen. -/
def hexDigit? (c : Char) : Option Nat :=
  if '0' ≤ c ∧ c ≤ '9' then some (c.toNat - 48)
  else if 'a' ≤ c ∧ c ≤ 'f' then some (c.toNat - 87)
  else if 'A' ≤ c ∧ c ≤ 'F' then some (c.toNat - 55)
  else none

/-- A part of a pattern that stands for characters: for a single one, or
for a class of them. -/
inductive Atom
  | single (code : Nat)
  | several
  /-- A place in the text, such as its start. -/
  | place
  deriving DecidableEq, Repr

/-- The character of so many digits to base sixteen. -/
def readCode (digits : Nat) (cs : List Char) : Option (Atom × List Char) :=
  if cs.length < digits then none
  else
    ((cs.take digits).foldlM
      (fun n c => (hexDigit? c).map fun d => n * 16 + d) 0).bind fun n =>
      if n.isValidChar then some (.single n, cs.drop digits) else none

/-- What an escape stands for, its backslash being read. -/
def readEscape : List Char → Option (Atom × List Char)
  | [] => none
  | 'x' :: rest => readCode 2 rest
  | 'u' :: rest => readCode 4 rest
  | 'U' :: rest => readCode 8 rest
  | 'p' :: rest => property rest
  | 'P' :: rest => property rest
  | c :: rest =>
    if c ∈ ['d', 's', 'w', 'D', 'S', 'W'] then some (.several, rest)
    else if c = 'A' || c = 'z' then some (.place, rest)
    else
      match [('a', 7), ('t', 9), ('n', 10), ('v', 11), ('f', 12),
        ('r', 13)].lookup c with
      | some n => some (.single n, rest)
      | none =>
        if c.isAlphanum || c = '<' || c = '>' || 127 < c.toNat then none
        else some (.single c.toNat, rest)
where
  /-- A class of the characters of one kind, by the letter of the kind. -/
  property : List Char → Option (Atom × List Char)
    | [] => none
    | c :: rest =>
      if c.toLower ∈ ['c', 'l', 'm', 'n', 'p', 's', 'z'] then
        some (.several, rest)
      else none

/-- The names of classes within classes. -/
def classNames : List String :=
  ["alnum", "alpha", "ascii", "blank", "cntrl", "digit", "graph", "lower",
    "print", "punct", "space", "upper", "word", "xdigit"]

/-- The text behind a named class, if the text begins with one; its first
bracket is read. -/
def readNamed (cs : List Char) : Option (List Char) :=
  match cs with
  | ':' :: rest =>
    let rest := if rest.head? = some '^' then rest.drop 1 else rest
    match rest.dropWhile (· ≠ ':') with
    | ':' :: ']' :: behind =>
      if String.ofList (rest.takeWhile (· ≠ ':')) ∈ classNames then some behind
      else none
    | _ => none
  | _ => none

/-- The text behind the first signs of a class: its negation, dashes, and
a bracket that stands for itself when nothing stands before it. -/
def openClass (cs : List Char) : List Char :=
  let cs := if cs.head? = some '^' then cs.drop 1 else cs
  if cs.head? = some ']' then cs.drop 1 else cs.dropWhile (· = '-')

/-- A member of a class. -/
def readMember : List Char → Option (Atom × List Char)
  | [] => none
  | '\\' :: rest => (readEscape rest).filter fun m => m.1 ≠ .place
  | c :: rest => some (.single c.toNat, rest)

/-- The text behind a class of characters, with `depth` of them open. A
range goes upwards. -/
def readClass : Nat → Nat → List Char → Option (List Char)
  | 0, _, _ => none
  | _, 0, cs => some cs
  | _, _, [] => none
  | fuel + 1, depth + 1, ']' :: rest => readClass fuel depth rest
  | fuel + 1, depth, '[' :: rest =>
    match readNamed rest with
    | some behind => readClass fuel depth behind
    | none => readClass fuel (depth + 1) (openClass rest)
  | fuel + 1, depth, '&' :: '&' :: rest => readClass fuel depth rest
  | fuel + 1, depth, '-' :: '-' :: rest => readClass fuel depth rest
  | fuel + 1, depth, '~' :: '~' :: rest => readClass fuel depth rest
  | fuel + 1, depth, cs =>
    match readMember cs with
    | none => none
    | some (low, '-' :: c :: rest) =>
      if c = ']' || c = '-' then readClass fuel depth ('-' :: c :: rest)
      else
        match low, readMember (c :: rest) with
        | .single a, some (.single b, behind) =>
          if a ≤ b then readClass fuel depth behind else none
        | _, _ => none
    | some (_, rest) => readClass fuel depth rest

/-- The flags at the front of a group, which are given at most once each. -/
def readFlags (seen : List Char) : List Char → Option (List Char × List Char)
  | [] => none
  | c :: rest =>
    if c = ':' || c = ')' then
      if seen.head? = some '-' then none else some (seen, c :: rest)
    else if c ∈ seen then none
    else if c ∈ ['-', 'i', 'm', 's', 'U', 'u', 'R', 'x'] then
      readFlags (c :: seen) rest
    else none

/-- The text behind the name of a group and its bracket. -/
def readName (cs : List Char) : Option (List Char) :=
  match cs.takeWhile (· ≠ '>'), cs.dropWhile (· ≠ '>') with
  | c :: name, _ :: rest =>
    if (c.isAlpha || c = '_') &&
          name.all (fun c => c.isAlphanum || c ∈ ['_', '.', '[', ']']) then
        some rest
      else none
  | _, _ => none

/-- What stands behind the opening of a group, and whether a group was
opened at all: flags may stand on their own. -/
def openGroup : List Char → Option (Bool × List Char)
  | '?' :: 'P' :: '<' :: rest => (readName rest).map fun rest => (true, rest)
  | '?' :: '<' :: rest => (readName rest).map fun rest => (true, rest)
  | '?' :: rest =>
    match readFlags [] rest with
    | some (_, ':' :: rest) => some (true, rest)
    | some (_ :: _, ')' :: rest) => some (false, rest)
    | _ => none
  | rest => some (true, rest)

/-- Is this the rest of a pattern with `depth` open groups? `repeatable`
says that something stands before it which can be repeated. -/
def isRest : Nat → Nat → Bool → List Char → Bool
  | 0, _, _, _ => false
  | _, depth, _, [] => depth = 0
  | fuel + 1, depth, repeatable, c :: rest =>
    if c = '(' then
      match openGroup rest with
      | some (true, rest) => isRest fuel (depth + 1) false rest
      | some (false, rest) => isRest fuel depth false rest
      | none => false
    else if c = ')' then depth ≠ 0 && isRest fuel (depth - 1) true rest
    else if c = '|' then isRest fuel depth false rest
    else if c = '*' || c = '+' || c = '?' then
      repeatable && isRest fuel depth true rest
    else if c = '\x7b' then false
    else if c = '[' then
      match readClass (rest.length + 1) 1 (openClass rest) with
      | some rest => isRest fuel depth true rest
      | none => false
    else if c = '\\' then
      match readEscape rest with
      | some (_, rest) => isRest fuel depth true rest
      | none => false
    else isRest fuel depth true rest

/-- Is this a pattern? -/
def isPattern (cs : List Char) : Bool := isRest (cs.length + 1) 0 false cs

/-- Is this a number without a sign: digits with a point somewhere and an
exponent, or the name of what is no finite number? -/
def isNumber (cs : List Char) : Bool :=
  let cs := cs.map Char.toLower
  if String.ofList cs ∈ ["inf", "infinity", "nan"] then true
  else
    let whole := cs.takeWhile Char.isDigit
    let rest := cs.dropWhile Char.isDigit
    let (part, rest) := if rest.head? = some '.' then
        ((rest.drop 1).takeWhile Char.isDigit,
          (rest.drop 1).dropWhile Char.isDigit)
      else ([], rest)
    let expo := match rest with
      | [] => true
      | 'e' :: '+' :: ds => ! ds.isEmpty && ds.all Char.isDigit
      | 'e' :: '-' :: ds => ! ds.isEmpty && ds.all Char.isDigit
      | 'e' :: ds => ! ds.isEmpty && ds.all Char.isDigit
      | _ => false
    (! whole.isEmpty || ! part.isEmpty) && expo

/-- Can a directive ask for this value? A number without a plus sign is a
pattern as well. -/
def isValue (s : String) : Bool :=
  match s.toList with
  | '+' :: rest => isNumber rest
  | cs => isPattern cs

end ControlPlane.Pattern
