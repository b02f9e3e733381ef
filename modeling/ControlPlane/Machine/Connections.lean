/-
Attaching switch connections. A network card has at most one wire to a
switch, so a connection is known by its switch and its card. Attaching
keeps what is known as it is and appends what is new, in order.
-/
import ControlPlane.Machine.Basic

namespace ControlPlane

/-- Do two connections join the same card to the same switch? -/
def SwitchConnection.sameWire (a b : SwitchConnection) : Bool :=
  a.switchId = b.switchId && a.nicMac = b.nicMac

/-- Does the list hold a connection of the same card to the same switch? -/
def knowsWire (known : List SwitchConnection) (c : SwitchConnection) : Bool :=
  known.any fun k => k.sameWire c

/-- The connections with those of `new` that are not known yet, in order. -/
def attachAll (known : List SwitchConnection) :
    List SwitchConnection → List SwitchConnection
  | [] => known
  | c :: rest =>
    if knowsWire known c then attachAll known rest
    else attachAll (known ++ [c]) rest

/-- How many of `new` are not known yet. -/
def countNew (known : List SwitchConnection) : List SwitchConnection → Nat
  | [] => 0
  | c :: rest =>
    if knowsWire known c then countNew known rest
    else countNew (known ++ [c]) rest + 1

/-- The record with more connections attached. -/
def MachineRecord.attach (r : MachineRecord) (new : List SwitchConnection) :
    MachineRecord :=
  { r with connections := attachAll r.connections new }

/-- The number of connections that attaching adds. -/
def MachineRecord.attachCount (r : MachineRecord)
    (new : List SwitchConnection) : Nat :=
  countNew r.connections new

end ControlPlane
