/-
The address of a place on the web, as a client sends it or as a setting
names it: a scheme, an authority, a path and a query. A text is one of
four things: a whole address, a path with its query, an authority on its
own, or `*`. A fragment is read over.
-/

namespace ControlPlane

/-- A web address. -/
structure Uri where
  scheme : Option (List Char) := none
  /-- Host and port, and who asks. -/
  authority : Option (List Char) := none
  path : List Char
  query : Option (List Char) := none
  deriving DecidableEq, Repr

namespace Uri

/-- The most octets of an address. -/
def maxSize : Nat := 65534

/-- The longest name of a scheme. -/
def maxScheme : Nat := 64

/-- The most colons that may follow each other before they are forgotten. -/
def maxColons : Nat := 8

/-- Can a character stand in the name of a scheme? -/
def isSchemeChar (c : Char) : Bool := c.isAlphanum || c ∈ ['+', '-', '.', '~']

/-- Can a character stand in an authority? -/
def isAuthorityChar (c : Char) : Bool :=
  c.isAlphanum ||
    c ∈ ['!', '$', '&', '(', ')', '*', '+', ',', '-', '.', ':', ';', '=', '@',
      '[', ']', '_', '~'] || c.toNat = 39

/-- Can a character stand in a path? -/
def isPathChar (c : Char) : Bool :=
  126 ≤ c.toNat ||
    (33 ≤ c.toNat && c.toNat ≤ 125 && ! c ∈ ['#', '<', '>', '?'] &&
      c.toNat ≠ 96)

/-- Can a character stand in a query? -/
def isQueryChar (c : Char) : Bool :=
  33 ≤ c.toNat && ! c ∈ ['"', '#', '<', '>']

/-- Does a character end an authority? -/
def endsAuthority (c : Char) : Bool := c = '/' || c = '?' || c = '#'

/-- What was seen of an authority. Its port is what stands behind the last
colon; colons and escapes before an `@` or within brackets do not count. -/
structure Survey where
  colons : Nat := 0
  opened : Bool := false
  closed : Bool := false
  escaped : Bool := false
  deriving DecidableEq, Repr

/-- Looks at one more character of an authority; `none` if it may not
stand there. -/
def Survey.next (s : Survey) (c : Char) : Option Survey :=
  if c = ':' then
    if s.colons < maxColons then some { s with colons := s.colons + 1 }
    else none
  else if c = '[' then
    if s.escaped || s.opened then none else some { s with opened := true }
  else if c = ']' then
    if s.opened && ! s.closed then
      some { s with closed := true, colons := 0, escaped := false }
    else none
  else if c = '@' then some { s with colons := 0, escaped := false }
  else if c = '%' then some { s with escaped := true }
  else if isAuthorityChar c then some s
  else none

/-- Is this an authority, perhaps an empty one? -/
def isAuthority (cs : List Char) : Bool :=
  match cs.foldlM Survey.next {} with
  | some s =>
    s.opened == s.closed && s.colons ≤ 1 && ! s.escaped &&
      cs.getLast? ≠ some '@'
  | none => false

/-- Path and query of a text; a fragment behind them is left out. -/
def located? (scheme authority : Option (List Char)) (cs : List Char) :
    Option Uri :=
  let path := cs.takeWhile fun c => c ≠ '?' && c ≠ '#'
  let given := if path.isEmpty then ['/'] else path
  if path.all isPathChar then
    match cs.dropWhile fun c => c ≠ '?' && c ≠ '#' with
    | '?' :: rest =>
      let query := rest.takeWhile (· ≠ '#')
      if query.all isQueryChar then some ⟨scheme, authority, given, some query⟩
      else none
    | _ => some ⟨scheme, authority, given, none⟩
  else none

/-- The scheme of a text and what stands behind its `://`; no scheme if
there is none, and `none` if it is too long. -/
def splitScheme? (cs : List Char) : Option (Option (List Char) × List Char) :=
  let name := cs.takeWhile isSchemeChar
  match cs.dropWhile isSchemeChar with
  | ':' :: '/' :: '/' :: rest =>
    if maxScheme < name.length then none
    else some (some name, rest)
  | _ => some (none, cs)

/-- The address of a text, if it is one. -/
def parse? (s : String) : Option Uri :=
  let cs := s.toList
  if cs.isEmpty || maxSize < s.utf8ByteSize then none
  else if cs = ['*'] then some { path := cs }
  else if cs.head? = some '/' then located? none none cs
  else
    match splitScheme? cs with
    | none => none
    | some (scheme, rest) =>
      let authority := rest.takeWhile fun c => ! endsAuthority c
      let behind := rest.dropWhile fun c => ! endsAuthority c
      if isAuthority authority then
        match scheme with
        | some _ =>
          if authority.isEmpty then none
          else located? scheme (some authority) behind
        | none =>
          if behind.isEmpty then
            some { authority := some authority, path := [] }
          else none
      else none

end Uri

end ControlPlane
