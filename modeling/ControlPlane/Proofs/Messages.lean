/-
Whatever is stored or sent is read back as it was. A record or an event
has fixed fields, whose laws are in Records.lean; an envelope also has a
payload, which may be any JSON. `read_back` puts the three together with
the one payload that the system itself sends, the news of an allocation:
on its way through an envelope's text it reaches the handler of a
subscription with the machine's id unchanged.

# What can be read back

- Points in time are those that have texts (`Timestamp.Valid`,
  `Timestamp.exists_parse?_iff`).
- A payload holds whole numbers only, since a reader of decimals rounds
  in its own way; the members of its objects are in order, as they are
  in every value that was read (`Json.ordered_of_value`); and it nests
  at most 126 containers deep, the envelope being one more
  (`Envelope.Valid`).

Chain: Records.lean, Json/Free.lean, Identifiers.lean → Messages (this
file) → TopicIsolation.lean.
-/
import ControlPlane.Bus.Envelope
import ControlPlane.Notifier
import ControlPlane.Proofs.Identifiers
import ControlPlane.Proofs.Json.Free
import ControlPlane.Proofs.Records

namespace ControlPlane

open Json (Draft Whole draft readAll)
open Json.Form (Reads)

-- ======================================================= the envelope

/-- A message that can be read back. -/
structure Envelope.Valid (m : Envelope) : Prop where
  published : m.publishedAt.Valid
  whole : Whole m.payload
  ordered : m.payload.Ordered
  shallow : m.payload.depth ≤ 126

theorem Uuid.read_text (u : Uuid) :
    Draft.parsed Uuid.parse? (draft (.string u.text)) = .ok u := by
  simp only [Draft.parsed, Json.text_string, Uuid.parse?_text]

theorem Envelope.read_toJson {m : Envelope} (h : m.Valid) :
    Envelope.form.read (draft m.toJson) = .ok m := by
  have hid := m.id.read_text
  have htopic := Json.text_string m.topic
  have hat := Timestamp.read_toJson h.published
  have hpayload := Json.value_draft m.payload h.ordered h.shallow
  exact (((((Reads.field hid).both (Reads.field htopic)
    (by decide)).both (Reads.field hat) (by decide)).both
    (Reads.field hpayload) (by decide)).map).read

/-- A message is read back from its text. -/
theorem Envelope.readAll_text {m : Envelope} (h : m.Valid) :
    readAll Envelope.form.read m.toJson.text.toList = .ok m := by
  have hwhole : Whole m.toJson :=
    ⟨trivial, trivial, trivial, h.whole, trivial⟩
  rw [Json.readAll_text _ hwhole, Envelope.read_toJson h]

-- ============================================== news of an allocation

namespace Notifier

theorem payload_valid (id : Uuid) (topic : String) {time : Timestamp}
    (h : time.Valid) (machine : String) :
    Envelope.Valid ⟨id, topic, time, payload machine⟩ where
  published := h
  whole := ⟨trivial, trivial⟩
  ordered := ⟨List.pairwise_singleton _ _, trivial, trivial⟩
  shallow := by
    show 1 ≤ 126
    decide

/-- The handler of the news fires the signal of the machine that the
news is of. -/
theorem handle_payload (subscription machine : String) (l : Local) :
    handle subscription (payload machine) l
      = (.ok (), (wake subscription machine l).2) := by
  have hread : AllocationEvent.form.read (draft (payload machine))
      = .ok ⟨machine⟩ :=
    ((Reads.field (Json.text_string machine)).map).read
  simp only [handle, Json.decode?, hread, Except.toOption]

end Notifier

-- ===================================================== all that is kept

/-- Records, events and messages are read back from their texts as they
were. So the news of an allocation comes to the machine's signal, on
whatever topic and whenever it is sent. -/
theorem read_back :
    (∀ r : MachineRecord, r.Valid →
      readAll MachineRecord.form.read r.toJson.text.toList = .ok r)
    ∧ (∀ e : ProvisioningEvent, e.time.Valid →
      readAll ProvisioningEvent.form.read e.toJson.text.toList = .ok e)
    ∧ (∀ m : Envelope, m.Valid →
      readAll Envelope.form.read m.toJson.text.toList = .ok m)
    ∧ ∀ (machine : String) (id : Uuid) (topic : String)
        (time : Timestamp) (subscription : String) (l : Local),
      time.Valid →
        ∃ m, readAll Envelope.form.read
            (Envelope.toJson ⟨id, topic, time, Notifier.payload machine⟩
              ).text.toList = .ok m
          ∧ Notifier.handle subscription m.payload l
            = (.ok (), (Notifier.wake subscription machine l).2) := by
  refine ⟨fun r => MachineRecord.readAll_text,
    fun e => ProvisioningEvent.readAll_text,
    fun m => Envelope.readAll_text, ?_⟩
  intro machine id topic time subscription l h
  have hvalid := Notifier.payload_valid id topic h machine
  exact ⟨_, Envelope.readAll_text hvalid,
    Notifier.handle_payload subscription machine l⟩

/-- The leap second at the end of 2016, with all its digits. -/
def leapSecond : Timestamp := ⟨1483228799, 1999999999⟩

/-- The first second of all, in a year with a sign. -/
def firstSecond : Timestamp := ⟨-8334601228800, 1⟩

/-- A record with a value of every kind, each at an end of its range. -/
def fullRecord : MachineRecord where
  id := "m\"1\"\n\\ä"
  partition := ""
  hardware := ⟨4294967295, 18446744073709551615,
    [⟨"eth0", 0, 222, 17, 100, 0, 255⟩]⟩
  connections := [⟨"leaf01", "swp1", 255, 255, 255, 255, 255, 255⟩]
  allocation := some
    { project := "p", hostname := "h", image := "\t", vrf := some 0
      reportMessage := some "", allocatedAt := leapSecond }
  waiting := true
  createdAt := firstSecond
  changedAt := leapSecond

/-- A message with a payload of several levels. -/
def deepMessage : Envelope where
  id := ⟨0xFFFFFFFFFFFF4FFF8000000000000000⟩
  topic := "machine.allocation"
  publishedAt := leapSecond
  payload := .object [("", .array [.null, .array []]),
    ("a", .number (.integer ⟨-9223372036854775808, by decide, by decide⟩)),
    ("b", .number (.integer ⟨18446744073709551615, by decide, by decide⟩))]

theorem leapSecond_valid : leapSecond.Valid :=
  ⟨by decide, by decide, by decide, by decide⟩

theorem read_back_corners :
    fullRecord.Valid ∧ deepMessage.Valid
    ∧ readAll MachineRecord.form.read fullRecord.toJson.text.toList
      = .ok fullRecord
    ∧ readAll ProvisioningEvent.form.read
        (ProvisioningEvent.toJson ⟨.reinstallAborted, "", leapSecond⟩
          ).text.toList
      = .ok ⟨.reinstallAborted, "", leapSecond⟩
    ∧ readAll Envelope.form.read deepMessage.toJson.text.toList
      = .ok deepMessage
    ∧ ∀ l : Local, ∃ m, readAll Envelope.form.read
          (Envelope.toJson ⟨⟨1⟩, "t", leapSecond, Notifier.payload "m/\"1"⟩
            ).text.toList = .ok m
        ∧ Notifier.handle "s" m.payload l
          = (.ok (), (Notifier.wake "s" "m/\"1" l).2) := by
  have hfirst : firstSecond.Valid :=
    ⟨by decide, by decide, by decide, by decide⟩
  have hrecord : fullRecord.Valid := by
    refine ⟨hfirst, leapSecond_valid, ?_⟩
    rintro a ⟨⟩
    exact leapSecond_valid
  have hmessage : deepMessage.Valid := by
    have hsorted : Json.Sorted deepMessage.payload.members := by
      unfold Json.Sorted
      decide
    exact ⟨leapSecond_valid,
      ⟨⟨trivial, trivial, trivial⟩, trivial, trivial, trivial⟩,
      ⟨hsorted, ⟨trivial, trivial, trivial⟩, trivial, trivial, trivial⟩,
      by decide⟩
  exact ⟨hrecord, hmessage, read_back.1 _ hrecord,
    read_back.2.1 _ leapSecond_valid, read_back.2.2.1 _ hmessage,
    fun l => read_back.2.2.2 _ _ _ _ "s" l leapSecond_valid⟩

end ControlPlane
