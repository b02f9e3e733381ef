/-
A key-value server, the bus on it, and all that can happen to the two.
The outside writes and deletes whatever keys it likes, publishes,
subscribes and gives subscriptions up, breaks watches, and lets receive
loops take their turns; a history of such events is one way in which all
of that can be interleaved.

# What is left open

- A request gets through, does not arrive, or is carried out and its
  answer lost (`Passage`).
- A watch may break at any place, also before it has told what was on
  its way (`cut`), or behind all that the server has done
  (`breakWatches`).
- The moments of turns are arbitrary, so that pauses are of any length.

The server keeps its whole history: nothing is compacted.

Chain: over Changes.lean; Loops.lean reads one subscription through the
events.
-/
import ControlPlane.Proofs.Etcd.Changes

namespace ControlPlane.Etcd

-- ========================================================== the requests

/-- What becomes of a request. -/
inductive Passage
  | through
  /-- It does not arrive. -/
  | refused (detail : String)
  /-- It is carried out, but its answer is lost. -/
  | lost (detail : String)
  deriving Repr

/-- A server whose next requests fare as foretold; all behind these get
through. -/
def Client.foretold : Client (Server × List Passage) where
  send r s :=
    match s.2 with
    | [] => (.ok (s.1.serve r).1, (s.1.serve r).2, [])
    | .through :: fates => (.ok (s.1.serve r).1, (s.1.serve r).2, fates)
    | .refused detail :: fates => (.error detail, s.1, fates)
    | .lost detail :: fates => (.error detail, (s.1.serve r).2, fates)

/-- A request is answered as the server answers it, or fails; whether it
then was carried out is open. -/
theorem Client.foretold_cases {α : Type} (r : Request α) (s : Server)
    (fates : List Passage) :
    (∃ rest, Client.foretold.send r (s, fates)
        = (.ok (s.serve r).1, (s.serve r).2, rest))
      ∨ ∃ detail s' rest, Client.foretold.send r (s, fates)
          = (.error detail, s', rest) ∧ (s' = s ∨ s' = (s.serve r).2) := by
  match fates with
  | [] => exact Or.inl ⟨_, rfl⟩
  | .through :: rest => exact Or.inl ⟨_, rfl⟩
  | .refused detail :: rest =>
      exact Or.inr ⟨detail, _, rest, rfl, Or.inl rfl⟩
  | .lost detail :: rest =>
      exact Or.inr ⟨detail, _, rest, rfl, Or.inr rfl⟩

-- ============================================================== the site

/-- A server and the bus on it. -/
structure Site where
  server : Server := {}
  bus : Bus
  ambient : Ambient

/-- A watch that is not broken yet is, and tells nothing behind
`last`. -/
def Subscriber.cut (x : Subscriber) (last : Nat) (withError : Bool) :
    Subscriber :=
  match x.state with
  | .watching { next, cut := none } =>
      { x with state := .watching ⟨next, some (last, withError)⟩ }
  | _ => x

namespace Site

/-- What happens. -/
inductive Event
  /-- Somebody writes a key. -/
  | put (key value : String) (lease : Nat)
  /-- A key is deleted, or its lease is over. -/
  | delete (key : String)
  | publish (topic : String) (payload : Json) (fates : List Passage)
  | subscribe (topic name : String) (options : SubscriptionOptions)
      (fates : List Passage)
  /-- The handle of a subscription is dropped. -/
  | unsubscribe (i : Nat)
  /-- The watch of a subscription breaks. -/
  | cut (i last : Nat) (withError : Bool)
  /-- All watches break. -/
  | breakWatches (withError : Bool)
  /-- A receive loop takes a turn, if it can. -/
  | turn (i : Nat) (now : Moment) (fates : List Passage)
  /-- A delivery of a subscription ends. -/
  | finish (i : Nat)

/-- What an event makes of a site. -/
def step (f : Site) : Event → Site
  | .put key value lease =>
      { f with server := f.server.put key value lease }
  | .delete key => { f with server := f.server.delete key }
  | .publish topic payload fates =>
      let (_, s, a) := f.bus.publish .foretold topic payload
        (f.server, fates) f.ambient
      { f with server := s.1, ambient := a }
  | .subscribe topic name options fates =>
      let (_, bus, s, a) := f.bus.subscribe .foretold topic name options
        (f.server, fates) f.ambient
      { server := s.1, bus, ambient := a }
  | .unsubscribe i => { f with bus := f.bus.cancel i }
  | .cut i last withError =>
      { f with bus := f.bus.modify i fun x => x.cut last withError }
  | .breakWatches withError =>
      { f with bus := f.bus.breakWatches f.server withError }
  | .turn i now fates =>
      match f.bus.turn .foretold Prod.fst i now (f.server, fates)
          f.ambient with
      | some (_, bus, s, a) => { server := s.1, bus, ambient := a }
      | none => f
  | .finish i => { f with bus := f.bus.finish i }

/-- What a site starts from. -/
structure Setting where
  bus : BusSettings
  ambient : Ambient

/-- Events, the latest first. -/
abbrev History := List Event

/-- The site after a history. -/
def after (s : Setting) : History → Site
  | [] => { bus := .ofSettings s.bus, ambient := s.ambient }
  | e :: h => (after s h).step e

theorem after_cons (s : Setting) (e : Event) (h : History) :
    after s (e :: h) = (after s h).step e := rfl

/-- A site with nothing special about it, to try histories on. -/
def lab : Setting where
  bus := {}
  ambient := { clock := ⟨0, 0⟩ }

-- ============================================================ the server

/-- Publishing changes the history once at most. -/
theorem publish_grown (b : Bus) (topic : String) (payload : Json)
    (s : Server) (fates : List Passage) (a : Ambient) :
    s.Grown (b.publish .foretold topic payload (s, fates) a).2.1.1 := by
  unfold Bus.publish
  simp only
  rcases Client.foretold_cases (.grant b.leaseSecs) s fates with
    ⟨rest, h⟩ | ⟨detail, s', rest, h, hs⟩
  · rw [h]
    simp only
    generalize Bus.key _ = key
    generalize Json.text _ = value
    -- a lease is no change
    refine @Server.Grown.of_same s (s.serve (.grant b.leaseSecs)).2
      rfl rfl _ ?_
    rcases Client.foretold_cases
        (.put key value (s.serve (.grant b.leaseSecs)).1)
        (s.serve (.grant b.leaseSecs)).2 rest with
      ⟨rest', h'⟩ | ⟨detail, t, rest', h', ht⟩
    · rw [h']
      exact Server.put_grown _ key value _
    · rw [h']
      rcases ht with rfl | rfl
      · exact .still rfl rfl
      · exact Server.put_grown _ key value _
  · rw [h]
    rcases hs with rfl | rfl <;> exact .still rfl rfl

end Site

end ControlPlane.Etcd
