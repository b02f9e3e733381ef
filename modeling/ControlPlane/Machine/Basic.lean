/-
What is kept about a bare machine: its hardware, the switch ports that its
network cards are wired to, and its allocation once an operator has given
it to a project. Beside the record stands the machine's history, a list of
provisioning events.
-/
import ControlPlane.Time.Timestamp

namespace ControlPlane

/-- A hardware address: six octets. -/
structure MacAddress where
  a : UInt8
  b : UInt8
  c : UInt8
  d : UInt8
  e : UInt8
  f : UInt8
  deriving DecidableEq, Repr

/-- A network card. -/
structure Nic where
  name : String
  mac : MacAddress
  deriving DecidableEq, Repr

/-- The size of a machine and its network cards. -/
structure Hardware where
  cpuCores : UInt32 := 0
  memoryBytes : UInt64 := 0
  nics : List Nic := []
  deriving DecidableEq, Repr

/-- A wire between a network card and a switch port. -/
structure SwitchConnection where
  switchId : String
  port : String
  nicMac : MacAddress
  deriving DecidableEq, Repr

/-- What a machine was given to a project with, and how its installation
ended. -/
structure Allocation where
  project : String
  hostname : String
  image : String
  vrf : Option UInt32 := none
  /-- The machine is to be installed over an earlier installation. -/
  reinstall : Bool := false
  succeeded : Bool := false
  reportMessage : Option String := none
  allocatedAt : Timestamp
  deriving DecidableEq, Repr

/-- What is kept about a machine. -/
structure MachineRecord where
  id : String
  partition : String := ""
  hardware : Hardware := {}
  connections : List SwitchConnection := []
  allocation : Option Allocation := none
  /-- Some replica holds, or held, a wait call for this machine. -/
  waiting : Bool := false
  createdAt : Timestamp
  changedAt : Timestamp
  deriving DecidableEq, Repr

namespace MachineRecord

/-- The record of a machine that has just become known. -/
def fresh (id : String) (now : Timestamp) : MachineRecord :=
  { id, createdAt := now, changedAt := now }

/-- Has the machine been given to a project? -/
def isAllocated (r : MachineRecord) : Bool := r.allocation.isSome

end MachineRecord

/-- What an operator asks for when giving a machine to a project. -/
structure AllocateRequest where
  project : String
  hostname : String
  image : String
  vrf : Option UInt32 := none
  reinstall : Bool := false
  deriving DecidableEq, Repr

/-- The allocation that a request asks for. -/
def Allocation.ofRequest (req : AllocateRequest) (now : Timestamp) :
    Allocation :=
  { project := req.project, hostname := req.hostname, image := req.image
    vrf := req.vrf, reinstall := req.reinstall, allocatedAt := now }

/-- What a machine tells about itself when it registers. -/
structure RegisterRequest where
  partition : String := ""
  hardware : Hardware := {}
  connections : List SwitchConnection := []
  deriving DecidableEq, Repr

/-- How a machine's installation ended. -/
structure ReportRequest where
  success : Bool
  message : Option String := none
  deriving DecidableEq, Repr

/-- The kinds of provisioning events. -/
inductive EventKind
  | registered
  | allocated
  | provisioned
  | failed
  | reinstallAborted
  deriving DecidableEq, Repr

namespace EventKind

/-- The name of a kind, as it is written. -/
def name : EventKind → String
  | registered => "registered"
  | allocated => "allocated"
  | provisioned => "provisioned"
  | failed => "failed"
  | reinstallAborted => "reinstall_aborted"

/-- All kinds. -/
def all : List EventKind :=
  [registered, allocated, provisioned, failed, reinstallAborted]

/-- The kind of that very name. -/
def ofName? (s : String) : Option EventKind := all.find? fun k => k.name = s

end EventKind

/-- An entry of a machine's history. -/
structure ProvisioningEvent where
  kind : EventKind
  message : String := ""
  time : Timestamp
  deriving DecidableEq, Repr

/-- What every replica is told when a machine has been allocated. -/
structure AllocationEvent where
  machineId : String
  deriving DecidableEq, Repr

end ControlPlane
