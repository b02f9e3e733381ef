/-
What is relied on of the key-value server behind the durable backends. It
keeps texts under keys. One revision counts all changes, whatever keys
they are about, and every key remembers at which revision it came to be
and at which it was last written. A write can be tied to the revision of a
key (`Request.commit`), and a watch gets the changes of its keys in the
order of their revisions, from a revision that it may name and that may be
long past (`changesFrom`).

A client's requests may be answered by the server or fail on the way
(`Client`), so that whatever is built on requests can be run over a server
that is always there (`Client.direct`) and over one that is not.
-/
import ControlPlane.Table

namespace ControlPlane.Etcd

/-- A key with its value. -/
structure Entry where
  key : String
  value : String
  /-- The revision at which the key came to be. -/
  created : Nat
  /-- The revision at which the key was last written. -/
  modified : Nat
  /-- How often the key was written since it came to be. -/
  version : Nat
  /-- The lease that the key lives on; zero if it lives on its own. -/
  lease : Nat
  deriving DecidableEq, Repr

/-- The keys that a request is about. -/
inductive Range
  | one (key : String)
  /-- All keys that begin with `root`. -/
  | under (root : String)
  deriving DecidableEq, Repr

/-- Is a key in the range? -/
def Range.covers (r : Range) (key : String) : Bool :=
  match r with
  | one k => k = key
  | under root => root.toList.isPrefixOf key.toList

/-- What happened to a key. -/
inductive Change
  | put (e : Entry)
  | delete (key : String) (revision : Nat)
  deriving DecidableEq, Repr

namespace Change

/-- The key that changed. -/
def key : Change → String
  | put e => e.key
  | delete k _ => k

/-- The revision of the change. -/
def revision : Change → Nat
  | put e => e.modified
  | delete _ n => n

end Change

/-- What a write can be tied to. -/
inductive Compare
  /-- The key does not exist. -/
  | absent (key : String)
  /-- The key was last written at a revision; one that does not exist
  counts as written at zero. -/
  | modifiedAt (key : String) (revision : Int)
  deriving DecidableEq, Repr

/-- How a tied write ended. -/
structure Commit where
  succeeded : Bool
  /-- The server's revision, if the answer tells it. -/
  revision : Option Nat
  deriving DecidableEq, Repr

/-- The requests, each with the type of its answer. -/
inductive Request : Type → Type
  /-- The keys in a range, in their order. -/
  | range (r : Range) : Request (List Entry)
  | put (key value : String) (lease : Nat) : Request Unit
  /-- Writes if the comparison holds. -/
  | commit (c : Compare) (key value : String) : Request Commit
  /-- A lease for so many seconds. -/
  | grant (seconds : Int) : Request Nat
  /-- Opens a watch, from a past revision on or only for what is to come;
  the answer is the first revision of which it tells. -/
  | watch (r : Range) (start : Option Nat) : Request Nat
  | status : Request Unit

/-- The state of the server. -/
structure Server where
  revision : Nat := 0
  entries : Table String Entry := .empty
  /-- All changes, in order. -/
  history : List Change := []
  /-- How many leases were granted. -/
  leases : Nat := 0
  deriving Repr, Inhabited

namespace Server

/-- Writes a key. -/
def put (s : Server) (key value : String) (lease : Nat) : Server :=
  let n := s.revision + 1
  let e : Entry := match s.entries.get? key with
    | some e =>
      { e with value, lease, modified := n, version := e.version + 1 }
    | none => { key, value, lease, created := n, modified := n, version := 1 }
  { s with
    revision := n
    entries := s.entries.set key e
    history := s.history ++ [.put e] }

/-- Deletes a key, if it exists. -/
def delete (s : Server) (key : String) : Server :=
  if s.entries.contains key then
    { s with
      revision := s.revision + 1, entries := s.entries.erase key
      history := s.history ++ [.delete key (s.revision + 1)] }
  else s

/-- The entries in a range, in the order of their keys. -/
def range (s : Server) (r : Range) : List Entry :=
  (s.entries.values.filter fun e => r.covers e.key).mergeSort fun a b =>
    decide (a.key ≤ b.key)

/-- Does a comparison hold? -/
def satisfies (s : Server) : Compare → Bool
  | .absent key => ! s.entries.contains key
  | .modifiedAt key n =>
    decide ((((s.entries.get? key).map Entry.modified).getD 0 : Int) = n)

/-- The number of the first lease. -/
def firstLease : Nat := 7001

/-- The changes of keys in a range from a revision on. -/
def changesFrom (s : Server) (r : Range) (start : Nat) : List Change :=
  s.history.filter fun c => decide (start ≤ c.revision) && r.covers c.key

/-- Answers a request. -/
def serve {α : Type} (s : Server) : Request α → α × Server
  | .range r => (s.range r, s)
  | .put key value lease => ((), s.put key value lease)
  | .commit c key value =>
    if s.satisfies c then (⟨true, some (s.revision + 1)⟩, s.put key value 0)
    else (⟨false, some s.revision⟩, s)
  | .grant _ => (firstLease + s.leases, { s with leases := s.leases + 1 })
  | .watch _ start => (start.getD (s.revision + 1), s)
  | .status => ((), s)

end Server

/-- The way of requests to a server and back, over a state `σ` that holds
the server. A request fails with the reason's wording. -/
structure Client (σ : Type) where
  send : {α : Type} → Request α → σ → Except String α × σ

/-- Nothing stands between the requests and the server. -/
def Client.direct : Client Server where
  send r s :=
    let (a, s) := s.serve r
    (.ok a, s)

end ControlPlane.Etcd
