/-
The key-value server of a simulated world, with a record of the requests
that it has received and with plans to misbehave, and the link over which
it is reached.
-/
import ControlPlane.Etcd.Server
import ControlPlane.Text.Json.Reader

namespace ControlPlane.Simulation

open Etcd (Range Compare Request Server)

/-- Is the server reached? -/
inductive Link
  | up
  /-- Requests fail before they get there. -/
  | down (reason : String)
  deriving DecidableEq, Repr, Inhabited

/-- The kinds of requests. -/
inductive RequestKind
  | range
  | put
  | commit
  | grant
  | watch
  | status
  deriving DecidableEq, Repr

/-- How a request is answered on purpose. -/
inductive Mischief
  /-- Not at all, with a status of the protocol. -/
  | refuse (code : Nat)
  /-- As it should be, after somebody else wrote these keys. -/
  | race (writes : List (String × String))
  /-- As it should be, but without the server's revision. -/
  | headless
  deriving Repr

/-- A plan: so many requests of a kind are answered in a way. -/
structure ServerPlan where
  kind : RequestKind
  times : Nat
  mischief : Mischief
  deriving Repr

/-- The server, the link to it, its plans, and the requests received, the
latest first. -/
structure Cluster where
  server : Server := {}
  link : Link := .up
  plans : List ServerPlan := []
  received : List Json := []
  deriving Inhabited

/-- The kind of a request. -/
def kindOf {α : Type} : Request α → RequestKind
  | .range _ => .range
  | .put _ _ _ => .put
  | .commit _ _ _ => .commit
  | .grant _ => .grant
  | .watch _ _ => .watch
  | .status => .status

/-- The name of a kind in the record. -/
def RequestKind.name : RequestKind → String
  | range => "range"
  | put => "put"
  | commit => "txn"
  | grant => "lease_grant"
  | watch => "watch"
  | status => "status"

/-- The kind that a plan names. -/
def RequestKind.ofName? : String → Option RequestKind
  | "range" => some range
  | "put" => some put
  | "txn" => some commit
  | "lease" => some grant
  | "watch" => some watch
  | "status" => some status
  | _ => none

/-- A text as JSON, if it is some, or as it is. -/
def shownValue (s : String) : Json :=
  match Json.parse s with
  | .ok j => j
  | .error _ => .string s

/-- The key that ends a range: none for one key, and the root with its
last character raised for all keys under a root. -/
def rangeEnd : Range → String
  | .one _ => ""
  | .under root =>
    match root.toList.reverse with
    | c :: rest => String.ofList (rest.reverse ++ [Char.ofNat (c.toNat + 1)])
    | [] => ""

/-- The key that begins a range. -/
def rangeStart : Range → String
  | .one key => key
  | .under root => root

/-- A write as it stands in the record. -/
def shownWrite (key value : String) (lease : Nat) : Json :=
  .object [("key", .string key), ("value", shownValue value),
    ("lease", .ofNat lease)]

/-- A number of 64 bits. -/
def shownInt (n : Int) : Json := (Json.ofInt? n).getD .null

/-- A comparison as it stands in the record: what is compared has a
number, and it is always for equality. -/
def shownCompare : Compare → Json
  | .absent key => shown key 1 0
  | .modifiedAt key n => shown key 2 n
where
  /-- The members of a comparison. -/
  shown (key : String) (target : Nat) (value : Int) : Json :=
    .object [("key", .string key), ("target", .ofNat target),
      ("result", .ofNat 0), ("value", shownInt value)]

/-- A request as it stands in the record. -/
def shownRequest {α : Type} (r : Request α) : Json :=
  let shown (members : List (String × Json)) : Json :=
    .object (("op", .string (kindOf r).name) :: members)
  match r with
  | .range r =>
    shown [("key", .string (rangeStart r)),
      ("range_end", .string (rangeEnd r)),
      ("sort_order", .ofNat (match r with
        | .one _ => 0
        | .under _ => 1)),
      ("sort_target", .ofNat 0)]
  | .put key value lease =>
    shown [("key", .string key), ("value", shownValue value),
      ("lease", .ofNat lease)]
  | .commit c key value =>
    shown [("compare", .array [shownCompare c]),
      ("success", .array [shownWrite key value 0]), ("failure", .array [])]
  | .grant seconds => shown [("ttl", shownInt seconds), ("id", .ofNat 0)]
  | .watch r start =>
    shown [("key", .string (rangeStart r)),
      ("range_end", .string (rangeEnd r)),
      ("start_revision", .ofNat (start.getD 0))]
  | .status => shown []

/-- Takes the first plan for a kind of requests; one that has been carried
out is gone. -/
def takePlan (k : RequestKind) :
    List ServerPlan → Option Mischief × List ServerPlan
  | [] => (none, [])
  | p :: rest =>
    if p.kind = k then
      if 1 < p.times then
        (some p.mischief, { p with times := p.times - 1 } :: rest)
      else (some p.mischief, rest)
    else
      let (found, rest) := takePlan k rest
      (found, p :: rest)

/-- An answer without the server's revision. -/
def beheaded {α : Type} (r : Request α) (a : α) : α :=
  match r with
  | .commit _ _ _ => { a with revision := none }
  | _ => a

namespace Cluster

/-- Changes the server, as somebody else would. -/
def modify (c : Cluster) (f : Server → Server) : Cluster :=
  { c with server := f c.server }

/-- Sends a request. -/
def send {α : Type} (r : Request α) (c : Cluster) :
    Except String α × Cluster :=
  match c.link with
  | .down reason => (.error reason, c)
  | .up =>
    let (m, plans) := takePlan (kindOf r) c.plans
    let c := { c with plans, received := shownRequest r :: c.received }
    let answered (c : Cluster) : α × Cluster :=
      let (a, server) := c.server.serve r
      (a, { c with server })
    match m with
    | some (.refuse code) =>
      (.error ("refused with status " ++ toString code), c)
    | some (.race writes) =>
      let (a, c) :=
        answered (c.modify fun s =>
          writes.foldl (fun s w => s.put w.1 w.2 0) s)
      (.ok a, c)
    | some .headless =>
      let (a, c) := answered c
      (.ok (beheaded r a), c)
    | none =>
      let (a, c) := answered c
      (.ok a, c)

/-- Requests go to the server under test. -/
def client : Etcd.Client Cluster where
  send := send

end Cluster

end ControlPlane.Simulation
