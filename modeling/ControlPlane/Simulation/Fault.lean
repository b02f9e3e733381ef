/-
How a simulated world misbehaves on purpose: the next calls of a method
are delayed, refused, overtaken by another writer, or their messages are
lost or doubled.
-/
import ControlPlane.Error
import ControlPlane.Text.Json.Basic

namespace ControlPlane.Simulation

/-- The methods that can be made to misbehave. -/
inductive Method
  | find
  | create
  | update
  | ping
  | append
  | list
  | publish
  | subscribe
  deriving DecidableEq, Repr

/-- The method of that name. -/
def Method.ofName? : String → Option Method
  | "find" => some find
  | "create" => some create
  | "update" => some update
  | "ping" => some ping
  | "append" => some append
  | "list" => some list
  | "publish" => some publish
  | "subscribe" => some subscribe
  | _ => none

/-- Is it a call on a machine's record? Only there can another writer come
between. -/
def Method.isOnRecord : Method → Bool
  | find | create | update => true
  | _ => false

/-- What happens to a published message. -/
inductive BusFault
  | drop
  | duplicate
  | fail
  deriving DecidableEq, Repr

/-- What happens on a call: a delay in milliseconds, then another writer's
patch of the record, then a failure, which is made from the machine's id. -/
structure Misbehaviour where
  delay : Nat := 0
  race : Option Json := none
  failure : Option (String → StoreError) := none
  bus : Option BusFault := none

/-- A plan: the calls of `method` that are let through first, and how many
misbehave then. -/
structure FaultPlan where
  method : Method
  skip : Nat
  times : Nat
  misbehaviour : Misbehaviour

/-- Looks up what happens on a call of a method, by the first plan for it.
A plan that has been carried out is gone. -/
def takeFault (m : Method) :
    List FaultPlan → Option Misbehaviour × List FaultPlan
  | [] => (none, [])
  | p :: rest =>
    if p.method = m then
      if 0 < p.skip then (none, { p with skip := p.skip - 1 } :: rest)
      else if 1 < p.times then
        (some p.misbehaviour, { p with times := p.times - 1 } :: rest)
      else (some p.misbehaviour, rest)
    else
      let (found, rest) := takeFault m rest
      (found, p :: rest)

end ControlPlane.Simulation
