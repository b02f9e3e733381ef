/-
What a client sends, and its parts: the path's segments, the query's
parameters, the kind of the body.
-/
import ControlPlane.Http.MediaType
import ControlPlane.Machine.Json
import ControlPlane.Settings
import ControlPlane.Text.Percent
import ControlPlane.Text.Quoted
import ControlPlane.Uri

namespace ControlPlane.Http

/-- A request; the body is text. -/
structure Request where
  method : String := "GET"
  /-- Path and query, as they were sent; a scheme and an authority may
  stand before them. -/
  target : String
  contentType : Option String := none
  body : String := ""
  deriving Repr

/-- The part of a text before a mark, and the part behind it if the mark
is there. -/
def cutAt (mark : Char) (cs : List Char) : List Char × Option (List Char) :=
  match cs.dropWhile (· ≠ mark) with
  | [] => (cs, none)
  | _ :: rest => (cs.takeWhile (· ≠ mark), some rest)

/-- The parts of a text between marks. -/
def splitAt (mark : Char) : List Char → List (List Char)
  | [] => [[]]
  | c :: rest =>
    if c = mark then [] :: splitAt mark rest
    else
      match splitAt mark rest with
      | part :: parts => (c :: part) :: parts
      | [] => [[c]]

/-- The address that a request is for, if its target is one. -/
def Request.uri? (r : Request) : Option Uri := Uri.parse? r.target

/-- The segments of the path, behind its first slash. -/
def segments (u : Uri) : List String :=
  match u.path with
  | '/' :: rest => (splitAt '/' rest).map String.ofList
  | _ => []

/-- A part of a query, with `+` for a blank and escapes resolved. -/
def queryPart (cs : List Char) : Option String :=
  Text.ofOctets? (Text.percentDecode (Text.octets
    (String.ofList (cs.map fun c => if c = '+' then ' ' else c))))

/-- The parameters of the query, in order; a name or a value that is no
text is missing. -/
def parameters (u : Uri) : List (Option String × Option String) :=
  ((splitAt '&' (u.query.getD [])).filter fun p => ! p.isEmpty).map fun p =>
    let (name, value) := cutAt '=' p
    (queryPart name, queryPart (value.getD []))

/-- Does the request say that its body is JSON? -/
def Request.isJson (r : Request) : Bool :=
  ((r.contentType.bind MediaType.parse?).map MediaType.isJson).getD false

end ControlPlane.Http
