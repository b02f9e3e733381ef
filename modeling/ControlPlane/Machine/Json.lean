/-
How records, requests and events are written as JSON, with every field
present and in order, and how they are read.
-/
import ControlPlane.Machine.Basic
import ControlPlane.Text.Json.Form

namespace ControlPlane

open Json (Form Draft)

namespace Timestamp

/-- A point in time is written as its text. -/
def toJson (t : Timestamp) : Json := .string t.text

/-- Reads a point in time. -/
def read (d : Draft) : Except Json.Fault Timestamp := d.parsed parse?

end Timestamp

namespace MacAddress

/-- An address is written as the list of its octets. -/
def toJson (m : MacAddress) : Json :=
  .array [.ofUInt8 m.a, .ofUInt8 m.b, .ofUInt8 m.c, .ofUInt8 m.d,
    .ofUInt8 m.e, .ofUInt8 m.f]

/-- The address of six octets. -/
def ofList? : List UInt8 → Except Json.Fault MacAddress
  | [a, b, c, d, e, f] => .ok ⟨a, b, c, d, e, f⟩
  | _ => .error .mismatched

/-- Reads an address. -/
def read (d : Draft) : Except Json.Fault MacAddress :=
  match d.tuple 6 Draft.uint8 with
  | .error f => .error f
  | .ok octets => ofList? octets

end MacAddress

namespace Nic

/-- A card's JSON. -/
def toJson (n : Nic) : Json :=
  .object [("name", .string n.name), ("mac", n.mac.toJson)]

/-- A card's fields. -/
def form : Form Nic :=
  ((Form.required "name" Draft.text).both
    (Form.required "mac" MacAddress.read)).map
    fun (name, mac) => ⟨name, mac⟩

end Nic

namespace Hardware

/-- A machine's hardware as JSON. -/
def toJson (h : Hardware) : Json :=
  .object [("cpu_cores", .ofUInt32 h.cpuCores),
    ("memory_bytes", .ofUInt64 h.memoryBytes),
    ("nics", .array (h.nics.map Nic.toJson))]

/-- The fields of a machine's hardware. -/
def form : Form Hardware :=
  (((Form.required "cpu_cores" Draft.uint32).both
    (Form.required "memory_bytes" Draft.uint64)).both
    (Form.withDefault [] "nics" (Draft.list Nic.form.read))).map
    fun ((cpuCores, memoryBytes), nics) => ⟨cpuCores, memoryBytes, nics⟩

end Hardware

namespace SwitchConnection

/-- A connection's JSON. -/
def toJson (c : SwitchConnection) : Json :=
  .object [("switch_id", .string c.switchId), ("port", .string c.port),
    ("nic_mac", c.nicMac.toJson)]

/-- A connection's fields. -/
def form : Form SwitchConnection :=
  (((Form.required "switch_id" Draft.text).both
    (Form.required "port" Draft.text)).both
    (Form.required "nic_mac" MacAddress.read)).map
    fun ((switchId, port), nicMac) => ⟨switchId, port, nicMac⟩

/-- Reads a list of connections. -/
def readList : Draft → Except Json.Fault (List SwitchConnection) :=
  Draft.list form.read

end SwitchConnection

/-- A number that may be missing. -/
def Json.ofUInt32? : Option UInt32 → Json
  | some n => .ofUInt32 n
  | none => .null

namespace Allocation

/-- An allocation's JSON. -/
def toJson (a : Allocation) : Json :=
  .object [("project", .string a.project), ("hostname", .string a.hostname),
    ("image", .string a.image), ("vrf", .ofUInt32? a.vrf),
    ("reinstall", .bool a.reinstall), ("succeeded", .bool a.succeeded),
    ("report_message", .ofString? a.reportMessage),
    ("allocated_at", a.allocatedAt.toJson)]

/-- An allocation's fields. -/
def form : Form Allocation :=
  ((((((((Form.required "project" Draft.text).both
    (Form.required "hostname" Draft.text)).both
    (Form.required "image" Draft.text)).both
    (Form.withDefault none "vrf" (Draft.optional Draft.uint32))).both
    (Form.withDefault false "reinstall" Draft.flag)).both
    (Form.withDefault false "succeeded" Draft.flag)).both
    (Form.withDefault none "report_message" (Draft.optional Draft.text))).both
    (Form.required "allocated_at" Timestamp.read)).map
    fun (((((((project, hostname), image), vrf), reinstall), succeeded),
      reportMessage), allocatedAt) =>
      { project, hostname, image, vrf, reinstall, succeeded, reportMessage,
        allocatedAt }

end Allocation

/-- An allocation that may be missing. -/
def Allocation.toJson? : Option Allocation → Json
  | some a => a.toJson
  | none => .null

namespace MachineRecord

/-- A record's JSON. -/
def toJson (r : MachineRecord) : Json :=
  .object [("id", .string r.id), ("partition", .string r.partition),
    ("hardware", r.hardware.toJson),
    ("connections", .array (r.connections.map SwitchConnection.toJson)),
    ("allocation", Allocation.toJson? r.allocation),
    ("waiting", .bool r.waiting), ("created_at", r.createdAt.toJson),
    ("changed_at", r.changedAt.toJson)]

/-- A record's fields. -/
def form : Form MachineRecord :=
  ((((((((Form.required "id" Draft.text).both
    (Form.withDefault "" "partition" Draft.text)).both
    (Form.withDefault {} "hardware" Hardware.form.read)).both
    (Form.withDefault [] "connections" SwitchConnection.readList)).both
    (Form.withDefault none "allocation"
      (Draft.optional Allocation.form.read))).both
    (Form.withDefault false "waiting" Draft.flag)).both
    (Form.required "created_at" Timestamp.read)).both
    (Form.required "changed_at" Timestamp.read)).map
    fun (((((((id, partition), hardware), connections), allocation), waiting),
      createdAt), changedAt) =>
      { id, partition, hardware, connections, allocation, waiting, createdAt,
        changedAt }

end MachineRecord

namespace AllocationEvent

/-- An allocation event's JSON. -/
def toJson (e : AllocationEvent) : Json :=
  .object [("machine_id", .string e.machineId)]

/-- An allocation event's fields. -/
def form : Form AllocationEvent :=
  (Form.required "machine_id" Draft.text).map AllocationEvent.mk

end AllocationEvent

namespace EventKind

/-- A kind is written as its name. -/
def toJson (k : EventKind) : Json := .string k.name

/-- Reads a kind. -/
def read : Draft → Except Json.Fault EventKind := Draft.choice ofName?

end EventKind

namespace ProvisioningEvent

/-- An event's JSON. -/
def toJson (e : ProvisioningEvent) : Json :=
  .object [("kind", e.kind.toJson), ("message", .string e.message),
    ("time", e.time.toJson)]

/-- An event's fields. -/
def form : Form ProvisioningEvent :=
  (((Form.required "kind" EventKind.read).both
    (Form.withDefault "" "message" Draft.text)).both
    (Form.required "time" Timestamp.read)).map
    fun ((kind, message), time) => ⟨kind, message, time⟩

end ProvisioningEvent

namespace RegisterRequest

/-- A registration's JSON. -/
def toJson (r : RegisterRequest) : Json :=
  .object [("partition", .string r.partition), ("hardware", r.hardware.toJson),
    ("connections", .array (r.connections.map SwitchConnection.toJson))]

/-- A registration's fields. -/
def form : Form RegisterRequest :=
  (((Form.withDefault "" "partition" Draft.text).both
    (Form.withDefault {} "hardware" Hardware.form.read)).both
    (Form.withDefault [] "connections" SwitchConnection.readList)).map
    fun ((partition, hardware), connections) =>
      ⟨partition, hardware, connections⟩

end RegisterRequest

namespace AllocateRequest

/-- An allocation request's JSON. -/
def toJson (r : AllocateRequest) : Json :=
  .object [("project", .string r.project), ("hostname", .string r.hostname),
    ("image", .string r.image), ("vrf", .ofUInt32? r.vrf),
    ("reinstall", .bool r.reinstall)]

/-- An allocation request's fields. -/
def form : Form AllocateRequest :=
  (((((Form.required "project" Draft.text).both
    (Form.required "hostname" Draft.text)).both
    (Form.required "image" Draft.text)).both
    (Form.withDefault none "vrf" (Draft.optional Draft.uint32))).both
    (Form.withDefault false "reinstall" Draft.flag)).map
    fun ((((project, hostname), image), vrf), reinstall) =>
      ⟨project, hostname, image, vrf, reinstall⟩

end AllocateRequest

namespace ReportRequest

/-- A report's JSON. -/
def toJson (r : ReportRequest) : Json :=
  .object [("success", .bool r.success), ("message", .ofString? r.message)]

/-- A report's fields. -/
def form : Form ReportRequest :=
  ((Form.required "success" Draft.flag).both
    (Form.withDefault none "message" (Draft.optional Draft.text))).map
    fun (success, message) => ⟨success, message⟩

end ReportRequest

end ControlPlane
