/-
Records and events survive being stored as JSON. A record is written
with every field present and in order, so its form reads each field from
the member of its name (`Form.Reads`), whatever strings, numbers, lists
and missing parts it holds. Only points in time have values that no text
stands for: a record is `Valid` if each of its points is one that can be
read.

Each law below lists the fields of its record in the order of the form.

Chain: Json/Forms.lean, Time/Written.lean → Records (this file) →
StoreAgreement.lean, Messages.lean, Chronology.lean.
-/
import ControlPlane.Machine.Json
import ControlPlane.Proofs.Json.Forms
import ControlPlane.Proofs.Time.Written

namespace ControlPlane

open Json (Form Draft Whole draft)
open Json.Form (Reads)

-- ======================================================= the parts

theorem Timestamp.read_toJson {t : Timestamp} (h : t.Valid) :
    Timestamp.read (draft t.toJson) = .ok t := by
  simp only [Timestamp.read, Timestamp.toJson, Draft.parsed,
    Json.text_string, Timestamp.parse?_text h]

theorem MacAddress.read_toJson (m : MacAddress) :
    MacAddress.read (draft m.toJson) = .ok m := by
  have h : Draft.tuple 6 Draft.uint8 (draft m.toJson)
      = .ok [m.a, m.b, m.c, m.d, m.e, m.f] :=
    Json.tuple_map Json.ofUInt8 [m.a, m.b, m.c, m.d, m.e, m.f] rfl
      fun n _ => Json.uint8_ofUInt8 n
  simp only [MacAddress.read, h, MacAddress.ofList?]

theorem Nic.read_toJson (n : Nic) :
    Nic.form.read (draft n.toJson) = .ok n := by
  have hname := Json.text_string n.name
  have hmac := MacAddress.read_toJson n.mac
  exact (((Reads.field hname).both (Reads.field hmac) (by decide)).map).read

theorem Hardware.read_toJson (h : Hardware) :
    Hardware.form.read (draft h.toJson) = .ok h := by
  have hcores := Json.uint32_ofUInt32 h.cpuCores
  have hbytes := Json.uint64_ofUInt64 h.memoryBytes
  have hnics := Json.list_map h.nics fun n _ => Nic.read_toJson n
  exact ((((Reads.field hcores).both (Reads.field hbytes) (by decide)).both
    (Reads.field hnics) (by decide)).map).read

theorem SwitchConnection.read_toJson (c : SwitchConnection) :
    SwitchConnection.form.read (draft c.toJson) = .ok c := by
  have hswitch := Json.text_string c.switchId
  have hport := Json.text_string c.port
  have hmac := MacAddress.read_toJson c.nicMac
  exact ((((Reads.field hswitch).both (Reads.field hport) (by decide)).both
    (Reads.field hmac) (by decide)).map).read

theorem Allocation.read_vrf (vrf : Option UInt32) :
    Draft.optional Draft.uint32 (draft (Json.ofUInt32? vrf)) = .ok vrf := by
  cases vrf with
  | none => rfl
  | some n =>
      exact Json.optional_some (by simp [Json.ofUInt32?, Json.ofUInt32,
        Json.ofUInt64]) (Json.uint32_ofUInt32 n)

theorem Allocation.read_message (message : Option String) :
    Draft.optional Draft.text (draft (Json.ofString? message))
      = .ok message := by
  cases message with
  | none => rfl
  | some s => rfl

theorem Allocation.read_toJson {a : Allocation} (h : a.allocatedAt.Valid) :
    Allocation.form.read (draft a.toJson) = .ok a := by
  have hproject := Json.text_string a.project
  have hhost := Json.text_string a.hostname
  have himage := Json.text_string a.image
  have hvrf := Allocation.read_vrf a.vrf
  have hreinstall := Json.flag_bool a.reinstall
  have hsucceeded := Json.flag_bool a.succeeded
  have hmessage := Allocation.read_message a.reportMessage
  have hat := Timestamp.read_toJson h
  exact (((((((((Reads.field hproject).both (Reads.field hhost)
    (by decide)).both (Reads.field himage) (by decide)).both
    (Reads.field hvrf) (by decide)).both
    (Reads.field hreinstall) (by decide)).both
    (Reads.field hsucceeded) (by decide)).both
    (Reads.field hmessage) (by decide)).both
    (Reads.field hat) (by decide)).map).read

-- ======================================================= the record

/-- Every point in time of the record is one that can be read. -/
structure MachineRecord.Valid (r : MachineRecord) : Prop where
  created : r.createdAt.Valid
  changed : r.changedAt.Valid
  allocated : ∀ a ∈ r.allocation, a.allocatedAt.Valid

theorem MachineRecord.valid_fresh (id : String) {now : Timestamp}
    (h : now.Valid) : (MachineRecord.fresh id now).Valid :=
  ⟨h, h, fun _ ha => nomatch ha⟩

theorem Allocation.read_toJson? {allocation : Option Allocation}
    (h : ∀ a ∈ allocation, a.allocatedAt.Valid) :
    Draft.optional Allocation.form.read (draft (toJson? allocation))
      = .ok allocation := by
  cases allocation with
  | none => rfl
  | some a =>
      exact Json.optional_some (by simp [toJson?, toJson])
        (Allocation.read_toJson (h a rfl))

theorem MachineRecord.read_toJson {r : MachineRecord} (h : r.Valid) :
    MachineRecord.form.read (draft r.toJson) = .ok r := by
  have hid := Json.text_string r.id
  have hpartition := Json.text_string r.partition
  have hhardware := Hardware.read_toJson r.hardware
  have hconnections := Json.list_map r.connections
    fun c _ => SwitchConnection.read_toJson c
  have hallocation := Allocation.read_toJson? h.allocated
  have hwaiting := Json.flag_bool r.waiting
  have hcreated := Timestamp.read_toJson h.created
  have hchanged := Timestamp.read_toJson h.changed
  exact (((((((((Reads.field hid).both (Reads.field hpartition)
    (by decide)).both (Reads.field hhardware) (by decide)).both
    (Reads.field hconnections) (by decide)).both
    (Reads.field hallocation) (by decide)).both
    (Reads.field hwaiting) (by decide)).both
    (Reads.field hcreated) (by decide)).both
    (Reads.field hchanged) (by decide)).map).read

-- ======================================================== the event

theorem EventKind.read_toJson (k : EventKind) :
    EventKind.read (draft k.toJson) = .ok k := by
  cases k <;> rfl

theorem ProvisioningEvent.read_toJson {e : ProvisioningEvent}
    (h : e.time.Valid) :
    ProvisioningEvent.form.read (draft e.toJson) = .ok e := by
  have hkind := e.kind.read_toJson
  have hmessage := Json.text_string e.message
  have htime := Timestamp.read_toJson h
  exact ((((Reads.field hkind).both (Reads.field hmessage)
    (by decide)).both (Reads.field htime) (by decide)).map).read

-- ======================================================= the text

theorem MacAddress.whole_toJson (m : MacAddress) : Whole m.toJson :=
  Json.wholeItems_map [m.a, m.b, m.c, m.d, m.e, m.f]
    fun _ _ => trivial

theorem Hardware.whole_toJson (h : Hardware) : Whole h.toJson := by
  have hnics : Json.WholeItems (h.nics.map Nic.toJson) :=
    Json.wholeItems_map h.nics
      fun n _ => ⟨trivial, n.mac.whole_toJson, trivial⟩
  exact ⟨trivial, trivial, hnics, trivial⟩

theorem SwitchConnection.whole_toJson (c : SwitchConnection) :
    Whole c.toJson :=
  ⟨trivial, trivial, c.nicMac.whole_toJson, trivial⟩

theorem Allocation.whole_toJson (a : Allocation) : Whole a.toJson := by
  have hvrf : Whole (Json.ofUInt32? a.vrf) := by
    cases a.vrf <;> trivial
  have hmessage : Whole (Json.ofString? a.reportMessage) := by
    cases a.reportMessage <;> trivial
  exact ⟨trivial, trivial, trivial, hvrf, trivial, trivial, hmessage,
    trivial, trivial⟩

/-- A record is written without doubles. -/
theorem MachineRecord.whole_toJson (r : MachineRecord) :
    Whole r.toJson := by
  have hconnections : Json.WholeItems
      (r.connections.map SwitchConnection.toJson) :=
    Json.wholeItems_map r.connections fun c _ => c.whole_toJson
  have hallocation : Whole (Allocation.toJson? r.allocation) := by
    cases r.allocation with
    | none => trivial
    | some a => exact a.whole_toJson
  exact ⟨trivial, trivial, r.hardware.whole_toJson, hconnections,
    hallocation, trivial, trivial, trivial, trivial⟩

/-- A record is read back from its text. -/
theorem MachineRecord.readAll_text {r : MachineRecord} (h : r.Valid) :
    Json.readAll MachineRecord.form.read r.toJson.text.toList = .ok r := by
  rw [Json.readAll_text _ r.whole_toJson, MachineRecord.read_toJson h]

/-- An event is read back from its text. -/
theorem ProvisioningEvent.readAll_text {e : ProvisioningEvent}
    (h : e.time.Valid) :
    Json.readAll ProvisioningEvent.form.read e.toJson.text.toList
      = .ok e := by
  have hwhole : Whole e.toJson := ⟨trivial, trivial, trivial, trivial⟩
  rw [Json.readAll_text _ hwhole, ProvisioningEvent.read_toJson h]

end ControlPlane
