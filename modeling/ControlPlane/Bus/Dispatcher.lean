/-
Dispatching messages. A subscription's dispatcher hands one message after
another to the handler. Each delivery runs on its own, at most as many at
once as there are slots, and a message waits until a slot is free.
Whichever way a delivery ends, its slot is free again.
-/
import ControlPlane.Bus.Envelope
import ControlPlane.Settings
import ControlPlane.Wake.Registry

namespace ControlPlane

/-- How a delivery ends. -/
inductive DeliveryEnd
  | handled
  | failed (e : BusError)
  | panicked
  | timedOut
  deriving DecidableEq, Repr

namespace DeliveryEnd

/-- The wording and the reason of a delivery that went wrong. -/
def failure? : DeliveryEnd → Option (String × String)
  | handled => none
  | failed e => some (e.message, "error")
  | panicked => some ("handler panicked", "panic")
  | timedOut => some ("handler timed out", "timeout")

/-- Logs and counts how the delivery of a message ended. -/
def report (e : DeliveryEnd) (subscription : String) (message : Uuid)
    (a : Ambient) : Ambient :=
  match e.failure? with
  | none => a
  | some (words, reason) =>
    (a.say (.handlerFailed subscription message.text words)).count
      (.handlerFailure reason)

end DeliveryEnd

/-- The dispatcher of a subscription. -/
structure Dispatcher where
  subscription : String
  options : SubscriptionOptions
  /-- Are old messages dropped here?  Not where the bus itself drops them. -/
  checkAge : Bool
  /-- The deliveries under way. -/
  running : Nat := 0
  /-- The message that waits for a slot. -/
  waiting : Option Envelope := none
  deriving Repr

namespace Dispatcher

/-- How many deliveries may run at once; never none. -/
def slots (d : Dispatcher) : Nat := max d.options.concurrency 1

/-- Takes a message, unless it is too old. -/
def accept (d : Dispatcher) (m : Envelope) (a : Ambient) :
    Dispatcher × Ambient :=
  let (now, a) := if d.checkAge then a.now else (a.clock, a)
  if d.checkAge && m.isExpiredAt d.options.messageTtl now then
    (d,
      (a.say (.expiredMessage d.subscription m.id.text
        m.publishedAt.text)).count (.handlerFailure "expired"))
  else ({ d with waiting := some m }, a)

/-- Starts the delivery of the message that waits, if a slot is free. -/
def start (d : Dispatcher) : Option (Envelope × Dispatcher) :=
  match d.waiting with
  | some m =>
    if d.running < d.slots then
      some (m, { d with waiting := none, running := d.running + 1 })
    else none
  | none => none

/-- A delivery has ended. -/
def finish (d : Dispatcher) : Dispatcher := { d with running := d.running - 1 }

end Dispatcher

end ControlPlane
