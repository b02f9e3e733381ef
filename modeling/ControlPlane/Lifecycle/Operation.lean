/-
The operations on a machine's record, each as the change that it makes to
the record that it found. A change is made from scratch on every attempt,
so it depends on nothing but the record, the request and the clock.
-/
import ControlPlane.Error
import ControlPlane.Machine.Connections
import ControlPlane.Telemetry.Ambient

namespace ControlPlane

/-- An operation on a machine's record. -/
inductive Operation
  /-- Create the record, or take over new hardware and wiring. -/
  | register (req : RegisterRequest)
  | attach (connections : List SwitchConnection)
  | allocate (req : AllocateRequest)
  | assignVrf (vrf : UInt32)
  /-- The machine's last word on its installation. -/
  | report (req : ReportRequest)
  /-- The machine gave a reinstallation up; unless its disk was wiped it
  boots as before. -/
  | abortReinstall (diskWiped : Bool)
  deriving DecidableEq, Repr

namespace Operation

/-- The name of an operation in the log. -/
def name : Operation → String
  | register _ => "register"
  | attach _ => "attach_switch_connections"
  | allocate _ => "allocate"
  | assignVrf _ => "assign_vrf"
  | report _ => "report"
  | abortReinstall _ => "abort_reinstall"

/-- What an operation makes of a record, before the time of the change is
set: an error, nothing to write, or a new record. Only an allocation reads
the clock. -/
def change (op : Operation) (r : MachineRecord) (a : Ambient) :
    Except ServiceError (Option MachineRecord) × Ambient :=
  match op with
  | register req =>
    let r :=
      if req.partition = "" then r else { r with partition := req.partition }
    (.ok (some ({ r with hardware := req.hardware }.attach req.connections)),
      a)
  | attach connections =>
    if r.attachCount connections = 0 then (.ok none, a)
    else (.ok (some (r.attach connections)), a)
  | allocate req =>
    if r.isAllocated then (.error (.alreadyAllocated r.id), a)
    else
      let (now, a) := a.now
      (.ok (some { r with allocation := some (.ofRequest req now) }), a)
  | assignVrf vrf =>
    match r.allocation with
    | none => (.error (.notAllocated r.id), a)
    | some x =>
      if x.vrf = some vrf then (.ok none, a)
      else
        (.ok (some { r with
          allocation := some { x with vrf := some vrf } }), a)
  | report req =>
    match r.allocation with
    | none => (.error (.notAllocated r.id), a)
    | some x =>
      (.ok (some { r with
        allocation := some
          { x with succeeded := req.success, reportMessage := req.message } }),
        a)
  | abortReinstall diskWiped =>
    match r.allocation with
    | some x =>
      if x.reinstall && ! diskWiped then
        (.ok (some { r with
          allocation := some { x with reinstall := false } }), a)
      else (.ok none, a)
    | none => (.ok none, a)

/-- The record that a registration creates for a machine that was unknown. -/
def created (req : RegisterRequest) (machine : String) (now : Timestamp) :
    MachineRecord :=
  { MachineRecord.fresh machine now with
    partition := req.partition, hardware := req.hardware }.attach
    req.connections

/-- The entry that an operation leaves in the machine's history, by kind
and wording; wiring and routing leave none. -/
def entry (op : Operation) (created : Bool) : Option (EventKind × String) :=
  match op with
  | register _ =>
    some (.registered,
      if created then "machine registered" else "machine re-registered")
  | attach _ => none
  | allocate req =>
    some (.allocated,
      "allocated to project " ++ req.project ++ " as " ++ req.hostname)
  | assignVrf _ => none
  | report req =>
    if req.success then
      some (.provisioned, req.message.getD "installation succeeded")
    else some (.failed, req.message.getD "installation failed")
  | abortReinstall _ =>
    some (.reinstallAborted, "machine sent extended reinstall error")

end Operation

end ControlPlane
