/-
Media types. What a request says its body is: a kind and a subtype, such
as `application/json`, perhaps with a suffix behind the subtype's last
`+`, and parameters behind semicolons. A text with a fault anywhere, be it
in its last parameter, is no media type.
-/

namespace ControlPlane.Http

/-- A media type; its parameters say nothing that matters here. -/
structure MediaType where
  kind : List Char
  subtype : List Char
  suffix : Option (List Char)
  deriving DecidableEq, Repr

namespace MediaType

/-- Can a character stand in a name? -/
def isNameChar (c : Char) : Bool :=
  c.isAlphanum ||
    c ∈ ['!', '#', '$', '%', '&', '*', '+', '-', '.', '^', '_', '|', '~'] ||
    c.toNat = 39 || c.toNat = 96

/-- Can a character stand between quotation marks? -/
def isQuotable (c : Char) : Bool := 31 < c.toNat && c.toNat < 127

/-- Where in the parameters a reader is. -/
inductive Place
  /-- Behind a semicolon, or a blank behind it. -/
  | front
  | name
  /-- Behind the equals sign. -/
  | valueFront
  | value
  /-- Behind the opening quotation mark; a second one here is quoted. -/
  | quoteFront
  | quote
  /-- Behind the closing quotation mark. -/
  | quoteEnd
  deriving DecidableEq, Repr

/-- The place behind one more character, if it may stand there. -/
def Place.next (p : Place) (c : Char) : Option Place :=
  match p with
  | front =>
    if c = ' ' then some front else if isNameChar c then some name else none
  | name =>
    if c = '=' then some valueFront
    else if isNameChar c then some name else none
  | valueFront =>
    if c = '"' then some quoteFront
    else if isNameChar c then some value else none
  | value =>
    if c = ';' then some front else if isNameChar c then some value else none
  | quoteFront => if isQuotable c then some quote else none
  | quote =>
    if c = '"' then some quoteEnd
    else if isQuotable c then some quote else none
  | quoteEnd =>
    if c = ';' then some front else if c = ' ' then some quoteEnd else none

/-- May the parameters end here?  A value may be missing at the very end. -/
def Place.isEnd : Place → Bool
  | front | valueFront | value | quoteEnd => true
  | name | quoteFront | quote => false

/-- Are these parameters, from a place on? -/
def areParameters (p : Place) : List Char → Bool
  | [] => p.isEnd
  | c :: rest =>
    match p.next c with
    | some p => areParameters p rest
    | none => false

/-- The part before the last `+`, unless nothing stands before it, and the
part behind it. -/
def splitSuffix (cs : List Char) : List Char × Option (List Char) :=
  match cs.reverse.dropWhile (· ≠ '+') with
  | _ :: front@(_ :: _) =>
    (front.reverse, some (cs.reverse.takeWhile (· ≠ '+')).reverse)
  | _ => (cs, none)

/-- The media type of a text, in small letters. -/
def parse? (s : String) : Option MediaType :=
  let cs := s.toList.map Char.toLower
  let kind := cs.takeWhile isNameChar
  match kind, cs.dropWhile isNameChar with
  | _ :: _, '/' :: rest =>
    let name := rest.takeWhile isNameChar
    let whole : MediaType := ⟨kind, (splitSuffix name).1, (splitSuffix name).2⟩
    match name, rest.dropWhile isNameChar with
    | _, [] => some whole
    | _ :: _, ';' :: parameters =>
      if areParameters .front parameters then some whole else none
    | _, _ => none
  | _, _ => none

/-- Is this JSON, or an application's own form of it? -/
def isJson (m : MediaType) : Bool :=
  m.kind = "application".toList &&
    (m.subtype = "json".toList || m.suffix = some "json".toList)

end MediaType

end ControlPlane.Http
