/-
The store on the key-value server. Every record is kept as JSON under a
key of its own, and the revision at which the key was last written is the
record's version. Writes are tied to it, so that of two writers that read
the same version only one succeeds.
-/
import ControlPlane.Etcd.Server
import ControlPlane.Machine.Json
import ControlPlane.Store.Basic
import ControlPlane.Telemetry.Ambient

namespace ControlPlane.Etcd.MachineStore

variable {σ : Type}

/-- What the keys of all machines begin with. -/
def root : String := "/metal/machines/"

/-- The key of a machine. -/
def key (id : String) : String := root ++ id

/-- The words in place of the reader's about a text that is no record. -/
def unreadable : StoreError := .serialization "no machine record"

/-- The record that is kept under a key. -/
def decode (e : Entry) : Except StoreError Versioned :=
  match Json.readAll MachineRecord.form.read e.value.toList with
  | .ok r => .ok ⟨r, e.modified⟩
  | .error _ => .error unreadable

/-- The latest version of a machine's record. -/
def find (c : Client σ) (id : String) (s : σ) :
    Except StoreError Versioned × σ :=
  match c.send (.range (.one (key id))) s with
  | (.error detail, s) => (.error (.etcd detail), s)
  | (.ok [], s) => (.error (.notFound id), s)
  | (.ok (e :: _), s) => (decode e, s)

/-- Writes a machine's record if a comparison holds; if not, another
writer came first. The write is the only change that it makes, so the
server's revision behind it is the record's version. -/
def putIf (c : Client σ) (id : String) (compare : Compare) (r : MachineRecord)
    (s : σ) : Except StoreError Versioned × σ :=
  match c.send (.commit compare (key id) r.toJson.text) s with
  | (.error detail, s) => (.error (.etcd detail), s)
  | (.ok commit, s) =>
    if commit.succeeded then (.ok ⟨r, commit.revision.getD 0⟩, s)
    else (.error (.conflict id), s)

/-- Writes the record of a machine that has none. -/
def create (c : Client σ) (r : MachineRecord) (s : σ) :
    Except StoreError Versioned × σ :=
  putIf c r.id (.absent (key r.id)) r s

/-- Writes `next` if `old` is still the latest version of its machine's
record. -/
def update (c : Client σ) (old : Versioned) (next : MachineRecord) (s : σ) :
    Except StoreError Versioned × σ :=
  putIf c old.record.id (.modifiedAt (key old.record.id) old.revision) next s

/-- Can the server be asked? -/
def ping (c : Client σ) (s : σ) : Except StoreError Unit × σ :=
  match c.send .status s with
  | (.error detail, s) => (.error (.etcd detail), s)
  | (.ok (), s) => (.ok (), s)

/-- Logs a write that came too late. -/
def report (answer : Except StoreError Versioned) (a : Ambient) : Ambient :=
  match answer with
  | .error (.conflict id) => a.say (.writeRejected id)
  | _ => a

end ControlPlane.Etcd.MachineStore
