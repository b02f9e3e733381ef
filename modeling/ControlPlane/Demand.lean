/-
What calls demand. A call is a machine that moves in steps. Between two
steps it demands something of the world: a call to the store, to a
machine's history or to the bus, a pause, or, while a wait call is
blocked, whichever of several things happens first. A demand says what the
call becomes with each answer, so that whoever runs calls decides only how
their steps are interleaved and what the world answers. Steps read the
clock and write the log as they go; `κ` is the state of the call and `ρ`
its result.
-/
import ControlPlane.Store.Basic
import ControlPlane.Text.Json.Basic
import ControlPlane.Wake.Registry

namespace ControlPlane

/-- A moment of the clock that timers run by, in nanoseconds since some
start. -/
abbrev Moment := Nat

/-- A step of a call: what it becomes, and what it leaves around it. -/
abbrev Move (κ : Type) := Local → κ × Local

/-- What a call wants next. -/
inductive Demand (κ ρ : Type)
  /-- Nothing: the step can be taken at once. -/
  | proceed (k : Move κ)
  | find (id : String) (k : Except StoreError Versioned → Move κ)
  | create (record : MachineRecord) (k : Except StoreError Versioned → Move κ)
  | update (old : Versioned) (next : MachineRecord)
    (k : Except StoreError Versioned → Move κ)
  | ping (k : Except StoreError Unit → Move κ)
  | append (id : String) (event : ProvisioningEvent)
    (k : Except StoreError Unit → Move κ)
  | list (id : String)
    (k : Except StoreError (List ProvisioningEvent) → Move κ)
  | publish (topic : String) (payload : Json)
    (k : Except BusError Unit → Move κ)
  /-- Time to pass. -/
  | pause (d : Duration) (k : Move κ)
  /-- A keep-alive to be sent. -/
  | send (k : Except WaitError Unit → Move κ)
  /-- Whichever comes first: the cancellation of the call, a wake-up of
  the registration (if there is one to listen to), or the moment of the
  next tick. -/
  | select (listen : Option Registration) (tick : Moment) (cancelled : Move κ)
    (woken : Wake → Registration → Moment → Move κ)
    (ticked : Moment → Move κ)
  | finished (result : ρ)

namespace Demand

variable {κ ι ρ τ : Type}

/-- A step of a call that is part of a larger one. -/
def wrapMove (wrap : κ → ι) (k : Move κ) : Move ι := fun l =>
  let (c, l) := k l
  (wrap c, l)

/-- The demand of a call that is part of a larger one; the end of the part
is a step of the whole. -/
def embed (wrap : κ → ι) (finish : ρ → Move ι) : Demand κ ρ → Demand ι τ
  | proceed k => .proceed (wrapMove wrap k)
  | find i k => .find i fun a => wrapMove wrap (k a)
  | create r k => .create r fun a => wrapMove wrap (k a)
  | update o n k => .update o n fun a => wrapMove wrap (k a)
  | ping k => .ping fun a => wrapMove wrap (k a)
  | append i e k => .append i e fun a => wrapMove wrap (k a)
  | list i k => .list i fun a => wrapMove wrap (k a)
  | publish t p k => .publish t p fun a => wrapMove wrap (k a)
  | pause d k => .pause d (wrapMove wrap k)
  | send k => .send fun a => wrapMove wrap (k a)
  | select r t c w i =>
    .select r t (wrapMove wrap c) (fun a r n => wrapMove wrap (w a r n))
      fun n => wrapMove wrap (i n)
  | finished r => .proceed (finish r)

end Demand

end ControlPlane
