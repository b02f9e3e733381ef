/-
The store in memory and the store on the key-value server answer alike.
A script of calls, each update with a version that an earlier call of the
same script returned, is run on both from nothing; between the calls
others may write to the server whatever they like under keys that are no
machine's. Every call then ends the same way on both and with the same
record, and the revisions of the one store are those of the other under
one strictly increasing map (`same_answers`).

The two keep different things: records with a counter of their own, and
texts with the revisions of a server that counts other writes too. The
relation between them (`Agree`) says that the map takes the revision of
every record that is kept to the revision of its key, whose text is the
record's; a text is read back to the very record that was written
(Records.lean). The map is not known before the script has run. A write
takes both stores to revisions that neither has used, so the map may be
chosen anew above the last revision (`extend`) and everything that was
said below it stays true.

# Scripts
# The map of the revisions
# The relation
# Writes
# Answers
# Runs

Chain: Records.lean, Etcd/Entries.lean → StoreAgreement (this file).
-/
import Mathlib
import ControlPlane.Etcd.MachineStore
import ControlPlane.Proofs.Etcd.Entries
import ControlPlane.Proofs.Records
import ControlPlane.Store.Memory

namespace ControlPlane.Stores

open Etcd (Client Compare Entry Server)
open Etcd.MachineStore (key)

-- ============================================================= scripts

/-- What a call to a store ends with. -/
abbrev Answer := Except StoreError Versioned

/-- A record with points in time that can be read. -/
abbrev Storable := { r : MachineRecord // r.Valid }

/-- A key that is no machine's. -/
abbrev Foreign := { k : String // ∀ id, k ≠ key id }

/-- What others do to the server under keys that are no machine's. -/
inductive Outside
  | put (key : Foreign) (value : String) (lease : Nat)
  | commit (compare : Compare) (key : Foreign) (value : String)
  | delete (key : Foreign)
  | grant (seconds : Int)

/-- A step of a script. -/
inductive Step
  | find (id : String)
  | create (record : Storable)
  /-- Writes `next` over the version that the call of that number returned. -/
  | update (answer : Nat) (next : Storable)
  | outside (deed : Outside)

/-- The server after somebody else's deed. -/
def Outside.run (s : Server) : Outside → Server
  | put k value lease => (s.serve (.put k.1 value lease)).2
  | commit c k value => (s.serve (.commit c k.1 value)).2
  | delete k => s.delete k.1
  | grant seconds => (s.serve (.grant seconds)).2

/-- The calls of a store over a state, and what becomes of the state when
others do something to the server. -/
structure Store (σ : Type) where
  find : String → σ → Answer × σ
  create : MachineRecord → σ → Answer × σ
  update : Versioned → MachineRecord → σ → Answer × σ
  outside : Outside → σ → σ

/-- The store in memory. -/
def memory : Store MemoryStore where
  find id s := (s.find id, s)
  create r s := s.create r
  update old next s := s.update old next
  outside _ s := s

/-- The store on the key-value server. -/
def onServer : Store Server where
  find := Etcd.MachineStore.find Client.direct
  create := Etcd.MachineStore.create Client.direct
  update := Etcd.MachineStore.update Client.direct
  outside deed s := deed.run s

/-- A store and what its calls have ended with so far. -/
structure Session (σ : Type) where
  answers : List Answer := []
  store : σ

namespace Session

variable {σ : Type}

/-- The version that the call of that number returned, if it is one of
`next`'s machine. -/
def version? (x : Session σ) (answer : Nat) (next : MachineRecord) :
    Option Versioned :=
  match x.answers[answer]? with
  | some (.ok old) => if next.id = old.record.id then some old else none
  | _ => none

/-- Adds what a call ended with. -/
def told (x : Session σ) (ended : Answer × σ) : Session σ :=
  ⟨x.answers ++ [ended.1], ended.2⟩

/-- One step of a script; an update without a version to go by is no
call. -/
def step (b : Store σ) (x : Session σ) : Step → Session σ
  | .find id => x.told (b.find id x.store)
  | .create r => x.told (b.create r.1 x.store)
  | .update answer next =>
    match x.version? answer next.1 with
    | some old => x.told (b.update old next.1 x.store)
    | none => x
  | .outside deed => { x with store := b.outside deed x.store }

/-- A whole script. -/
def run (b : Store σ) (x : Session σ) (script : List Step) : Session σ :=
  script.foldl (step b) x

end Session

-- ============================================ the map of the revisions

variable {f : Int → Int} {low high : Int}

/-- The map up to `low`, and from there on in step with the numbers from
`high` on. -/
def extend (f : Int → Int) (low high : Int) (n : Int) : Int :=
  if n ≤ low then f n else high + (n - low - 1)

theorem extend_old {n : Int} (h : n ≤ low) : extend f low high n = f n :=
  if_pos h

theorem extend_new : extend f low high (low + 1) = high := by
  rw [extend, if_neg (by omega)]
  omega

theorem extend_strictMono (hf : StrictMono f) (h : f low < high) :
    StrictMono (extend f low high) := by
  intro a b hab
  unfold extend
  split
  · rename_i ha
    have hle : f a ≤ f low := hf.monotone ha
    split
    · exact hf hab
    · omega
  · rw [if_neg (by omega)]
    omega

/-- The version at the revision that the map gives. -/
def moved (f : Int → Int) (v : Versioned) : Versioned :=
  ⟨v.record, f v.revision⟩

/-- The answer at the revision that the map gives. -/
def mapped (f : Int → Int) (a : Answer) : Answer := a.map (moved f)

@[simp] theorem mapped_ok (f : Int → Int) (v : Versioned) :
    mapped f (.ok v) = .ok (moved f v) := rfl

@[simp] theorem mapped_error (f : Int → Int) (e : StoreError) :
    mapped f (.error e) = .error e := rfl

-- ======================================================== the relation

/-- What an entry says of a version. -/
def content (e : Entry) : String × Int := (e.value, e.modified)

/-- What the entry of a version has to say. -/
def stored (f : Int → Int) (v : Versioned) : String × Int :=
  (v.record.toJson.text, f v.revision)

/-- The server keeps what the store in memory keeps, at the revisions that
the map gives. -/
structure Same (f : Int → Int) (m : MemoryStore) (s : Server) : Prop where
  mono : StrictMono f
  online : m.offline = false
  level : f m.revision ≤ s.revision
  keyed : s.Keyed
  kept : ∀ id, (s.entries.get? (key id)).map content
    = (m.records.get? id).map (stored f)
  own : ∀ id v, m.records.get? id = some v →
    v.record.id = id ∧ v.record.Valid ∧ v.revision ≤ m.revision

theorem same_empty (n : Nat) :
    Same (fun r => r + n) {} { revision := n } where
  mono a b h := by
    show a + _ < b + _
    omega
  online := rfl
  level := by simp
  keyed := ⟨fun p hp => (nomatch hp), List.nodup_nil⟩
  kept _ := rfl
  own _ _ h := nomatch h

theorem key_injective {i j : String} (h : key i = key j) : i = j := by
  have hlist := congrArg String.toList h
  simp only [key, String.toList_append] at hlist
  exact String.toList_inj.mp (List.append_cancel_left hlist)

variable {m m' : MemoryStore} {s s' : Server}

/-- A machine is unknown to both or known to both. -/
theorem Same.absent (h : Same f m s) {id : String}
    (hm : m.records.get? id = none) : s.entries.get? (key id) = none := by
  have hk := h.kept id
  rw [hm] at hk
  simpa using hk

theorem Same.present (h : Same f m s) {id : String} {v : Versioned}
    (hm : m.records.get? id = some v) :
    ∃ e, s.entries.get? (key id) = some e ∧ e.value = v.record.toJson.text
      ∧ (e.modified : Int) = f v.revision := by
  have hk := h.kept id
  rw [hm] at hk
  cases he : s.entries.get? (key id) with
  | none => simp [he] at hk
  | some e =>
      simp only [he, Option.map_some, content, stored, Option.some.injEq,
        Prod.mk.injEq] at hk
      exact ⟨e, rfl, hk⟩

/-- What others do leaves the machines' keys alone. -/
theorem Outside.frame (deed : Outside) (hk : s.Keyed) :
    (deed.run s).Keyed ∧ s.revision ≤ (deed.run s).revision
      ∧ ∀ id, (deed.run s).entries.get? (key id)
        = s.entries.get? (key id) := by
  cases deed with
  | put k value lease =>
      exact ⟨hk.put _ _ _, (s.put_grown _ _ _).revision_le,
        fun id => s.put_other (k.2 id) _ _⟩
  | commit c k value =>
      by_cases hc : s.satisfies c = true
      · simp only [Outside.run, Server.serve, if_pos hc]
        exact ⟨hk.put _ _ _, (s.put_grown _ _ _).revision_le,
          fun id => s.put_other (k.2 id) _ _⟩
      · have hstill : (Outside.commit c k value).run s = s := by
          simp only [Outside.run, Server.serve, if_neg hc]
        rw [hstill]
        exact ⟨hk, Nat.le_refl _, fun _ => rfl⟩
  | delete k =>
      exact ⟨hk.delete _, (s.delete_grown _).revision_le,
        fun id => s.delete_other (k.2 id)⟩
  | grant seconds =>
      exact ⟨⟨hk.own, hk.nodup⟩, Nat.le_refl _, fun _ => rfl⟩

theorem Same.outside (h : Same f m s) (deed : Outside) :
    Same f m (deed.run s) := by
  obtain ⟨hkeyed, hle, hget⟩ := deed.frame h.keyed
  have hlevel := h.level
  refine ⟨h.mono, h.online, by omega, hkeyed, fun id => ?_, h.own⟩
  rw [hget, h.kept]

-- ============================================================== writes

/-- The map goes on from `f` over a step of the store in memory, which
loses nothing. -/
structure Onward (f f' : Int → Int) (m m' : MemoryStore) : Prop where
  old : ∀ n ≤ m.revision, f' n = f n
  later : m.revision ≤ m'.revision
  kept : ∀ id, (m.records.get? id).isSome → (m'.records.get? id).isSome

theorem Onward.refl (f : Int → Int) (m : MemoryStore) : Onward f f m m :=
  ⟨fun _ _ => rfl, Int.le_refl _, fun _ h => h⟩

theorem write_get? (m : MemoryStore) (id : String) (r : MachineRecord)
    (j : String) :
    (m.write id r).2.records.get? j
      = if id = j then some ⟨r, m.revision + 1⟩ else m.records.get? j :=
  Table.get?_set _ _ _ _

theorem onward_write (f : Int → Int) (m : MemoryStore) (id : String)
    (r : MachineRecord) (high : Int) :
    Onward f (extend f m.revision high) m (m.write id r).2 := by
  refine ⟨fun n hn => extend_old hn, ?_, ?_⟩
  · show m.revision ≤ m.revision + 1
    omega
  · intro j hj
    rw [write_get?]
    split
    · rfl
    · exact hj

/-- A record that is written to both is kept by both at their next
revisions; what they kept before is at revisions below. -/
theorem Same.kept_write (h : Same f m s) (id : String)
    (r : MachineRecord) (j : String) :
    ((s.put (key id) r.toJson.text 0).entries.get? (key j)).map content
      = ((m.write id r).2.records.get? j).map
        (stored (extend f m.revision (s.revision + 1))) := by
  rw [write_get?]
  by_cases hij : id = j
  · obtain ⟨e, he, hvalue, hmodified⟩ :=
      s.put_same (key id) r.toJson.text 0
    rw [if_pos hij, ← hij, he]
    simp [content, stored, hvalue, hmodified, extend_new]
  · rw [if_neg hij, s.put_other (fun hk => hij (key_injective hk)), h.kept]
    cases hv : m.records.get? j with
    | none => rfl
    | some v =>
        have hle := (h.own j v hv).2.2
        simp [stored, extend_old hle]

/-- Both stores take the same record of a machine. -/
theorem Same.write (h : Same f m s) {id : String} {r : MachineRecord}
    (hid : r.id = id) (hr : r.Valid) :
    Same (extend f m.revision (s.revision + 1)) (m.write id r).2
      (s.put (key id) r.toJson.text 0) := by
  have hlevel := h.level
  refine ⟨extend_strictMono h.mono (by omega), h.online, ?_,
    h.keyed.put _ _ _, h.kept_write id r, ?_⟩
  · show extend f m.revision (s.revision + 1) (m.revision + 1) ≤ _
    rw [extend_new, Server.put_revision]
    omega
  · intro j v hv
    show _ ∧ _ ∧ v.revision ≤ m.revision + 1
    rw [write_get?] at hv
    split at hv
    · rename_i hij
      cases hv
      exact ⟨hid.trans hij, hr, Int.le_refl _⟩
    · obtain ⟨hid', hvalid, hle⟩ := h.own j v hv
      exact ⟨hid', hvalid, by omega⟩

-- ============================================================= answers

/-- A version that was handed out is of a machine that the store knows, at
a revision that it has come to. -/
def Known (m : MemoryStore) (a : Answer) : Prop :=
  ∀ v, a = .ok v →
    v.revision ≤ m.revision ∧ (m.records.get? v.record.id).isSome

variable {f' : Int → Int} {a : Answer}

theorem Known.onward (h : Known m a) (ho : Onward f f' m m') :
    Known m' a := by
  intro v hv
  obtain ⟨hle, hsome⟩ := h v hv
  have hlater := ho.later
  exact ⟨by omega, ho.kept _ hsome⟩

theorem Known.mapped (h : Known m a) (ho : Onward f f' m m') :
    mapped f' a = mapped f a := by
  cases a with
  | error e => rfl
  | ok v => simp [moved, ho.old _ (h v rfl).1]

/-- A call has ended the same way on both stores, and the stores go on to
agree. -/
structure Alike (f f' : Int → Int) (m : MemoryStore)
    (x : Answer × MemoryStore) (y : Answer × Server) : Prop where
  onward : Onward f f' m x.2
  same : Same f' x.2 y.2
  answer : y.1 = mapped f' x.1
  known : Known x.2 x.1

theorem Same.refused (h : Same f m s) (e : StoreError) :
    Alike f f m (.error e, m) (.error e, s) :=
  ⟨Onward.refl f m, h, rfl, fun _ hv => nomatch hv⟩

theorem Same.taken (h : Same f m s) {id : String} {r : MachineRecord}
    (hid : r.id = id) (hr : r.Valid) :
    ∃ f', Alike f f' m (.ok (m.write id r).1, (m.write id r).2)
      (.ok ⟨r, (s.revision + 1 : Nat)⟩,
        s.put (key id) r.toJson.text 0) := by
  refine ⟨extend f m.revision (s.revision + 1),
    onward_write f m id r _, h.write hid hr, ?_, ?_⟩
  · simp [moved, MemoryStore.write, extend_new]
  · rintro v ⟨⟩
    refine ⟨Int.le_refl _, ?_⟩
    simp [MemoryStore.write, hid]

/-- The text of a version is read back. -/
theorem decode_entry {e : Entry} {v : Versioned} (hv : v.record.Valid)
    (hvalue : e.value = v.record.toJson.text)
    (hmodified : (e.modified : Int) = f v.revision) :
    Etcd.MachineStore.decode e = .ok (moved f v) := by
  simp only [Etcd.MachineStore.decode, hvalue,
    MachineRecord.readAll_text hv, hmodified, moved]

theorem Same.find (h : Same f m s) (id : String) :
    Alike f f m (memory.find id m) (onServer.find id s) := by
  have hrange := Server.range_one h.keyed (key id)
  simp only [memory, MemoryStore.find, h.online, Bool.false_eq_true,
    if_false, onServer, Etcd.MachineStore.find, Client.direct,
    Server.serve, hrange]
  cases hm : m.records.get? id with
  | none =>
      rw [h.absent hm]
      exact h.refused (.notFound id)
  | some v =>
      obtain ⟨e, he, hvalue, hmodified⟩ := h.present hm
      obtain ⟨hid, hvalid, hle⟩ := h.own id v hm
      rw [he]
      refine ⟨Onward.refl f m, h, decode_entry hvalid hvalue hmodified, ?_⟩
      rintro v ⟨⟩
      exact ⟨hle, by rw [hid, hm]; rfl⟩

/-- A write that is tied to a comparison, on a server that is reached. -/
theorem putIf_direct (s : Server) (id : String) (c : Compare)
    (r : MachineRecord) :
    Etcd.MachineStore.putIf Client.direct id c r s
      = if s.satisfies c
        then (.ok ⟨r, (s.revision + 1 : Nat)⟩,
          s.put (key id) r.toJson.text 0)
        else (.error (.conflict id), s) := by
  by_cases hc : s.satisfies c = true
  · simp [Etcd.MachineStore.putIf, Client.direct, Server.serve, hc]
  · simp [Etcd.MachineStore.putIf, Client.direct, Server.serve, hc]

theorem Same.create (h : Same f m s) (r : Storable) :
    ∃ f', Alike f f' m (memory.create r.1 m) (onServer.create r.1 s) := by
  obtain ⟨r, hr⟩ := r
  simp only [memory, MemoryStore.create, h.online, Bool.false_eq_true,
    if_false, onServer, Etcd.MachineStore.create, putIf_direct]
  cases hm : m.records.get? r.id with
  | none =>
      have hfits : s.satisfies (.absent (key r.id)) = true := by
        simp [Server.satisfies, Table.contains, h.absent hm]
      have hnew : m.records.contains r.id = false := by
        simp [Table.contains, hm]
      rw [if_pos hfits, hnew]
      exact h.taken rfl hr
  | some v =>
      obtain ⟨e, he, -⟩ := h.present hm
      have hfits : s.satisfies (.absent (key r.id)) = false := by
        simp [Server.satisfies, Table.contains, he]
      have hknown : m.records.contains r.id = true := by
        simp [Table.contains, hm]
      rw [hfits, if_pos hknown]
      exact ⟨f, h.refused (.conflict r.id)⟩

theorem Same.update (h : Same f m s) {old : Versioned} (next : Storable)
    (hold : Known m (.ok old)) (hid : next.1.id = old.record.id) :
    ∃ f', Alike f f' m (memory.update old next.1 m)
      (onServer.update (moved f old) next.1 s) := by
  obtain ⟨next, hnext⟩ := next
  obtain ⟨-, hsome⟩ := hold old rfl
  obtain ⟨v, hv⟩ := Option.isSome_iff_exists.mp hsome
  obtain ⟨e, he, -, hmodified⟩ := h.present hv
  -- The map tells two revisions of the store in memory apart.
  have hsame : ((e.modified : Int) = f old.revision)
      ↔ v.revision = old.revision := by
    rw [hmodified]
    exact h.mono.injective.eq_iff
  simp only [memory, MemoryStore.update, h.online, Bool.false_eq_true,
    if_false, hv, onServer, Etcd.MachineStore.update, putIf_direct,
    Server.satisfies, moved, he, Option.map_some, Option.getD_some,
    decide_eq_true_eq, hsame]
  split
  · exact h.taken hid hnext
  · exact ⟨f, h.refused (.conflict old.record.id)⟩

-- ================================================================ runs

/-- The two sessions have got the same answers, and their stores agree. -/
structure Agree (f : Int → Int) (x : Session MemoryStore)
    (y : Session Server) : Prop where
  same : Same f x.store y.store
  answers : y.answers = x.answers.map (mapped f)
  known : ∀ a ∈ x.answers, Known x.store a

variable {x : Session MemoryStore} {y : Session Server}

theorem Agree.told (h : Agree f x y) {a : Answer × MemoryStore}
    {b : Answer × Server} (hab : Alike f f' x.store a b) :
    Agree f' (x.told a) (y.told b) := by
  refine ⟨hab.same, ?_, ?_⟩
  · have hbefore : x.answers.map (mapped f) = x.answers.map (mapped f') :=
      List.map_congr_left fun c hc =>
        ((h.known c hc).mapped hab.onward).symm
    simp [Session.told, h.answers, hbefore, hab.answer]
  · intro c hc
    rcases List.mem_append.mp hc with hc | hc
    · exact (h.known c hc).onward hab.onward
    · cases List.mem_singleton.mp hc
      exact hab.known

/-- Both sessions have the same version to go by, if any. -/
theorem Agree.version? (h : Agree f x y) (answer : Nat)
    (next : MachineRecord) :
    y.version? answer next = (x.version? answer next).map (moved f) := by
  simp only [Session.version?, h.answers, List.getElem?_map]
  cases x.answers[answer]? with
  | none => rfl
  | some a =>
      cases a with
      | error e => rfl
      | ok old =>
          simp only [Option.map_some, mapped_ok, moved]
          split <;> rfl

theorem version?_cases {old : Versioned} {answer : Nat}
    {next : MachineRecord} (h : x.version? answer next = some old) :
    .ok old ∈ x.answers ∧ next.id = old.record.id := by
  unfold Session.version? at h
  split at h
  · rename_i v hv
    split at h
    · rename_i hid
      cases h
      exact ⟨List.mem_of_getElem? hv, hid⟩
    · cases h
  · cases h

/-- One step of a script keeps the two in agreement. -/
theorem Agree.step (h : Agree f x y) (act : Step) :
    ∃ f', Agree f' (x.step memory act) (y.step onServer act) := by
  cases act with
  | find id => exact ⟨f, h.told (h.same.find id)⟩
  | create r =>
      obtain ⟨f', hf⟩ := h.same.create r
      exact ⟨f', h.told hf⟩
  | outside deed =>
      exact ⟨f, h.same.outside deed, h.answers, h.known⟩
  | update answer next =>
      have hversion := h.version? answer next.1
      simp only [Session.step, hversion]
      cases hv : x.version? answer next.1 with
      | none => exact ⟨f, h⟩
      | some old =>
          obtain ⟨hmem, hid⟩ := version?_cases hv
          obtain ⟨f', hf⟩ := h.same.update next (h.known _ hmem) hid
          exact ⟨f', h.told hf⟩

theorem Agree.run (h : Agree f x y) (script : List Step) :
    ∃ f', Agree f' (x.run memory script) (y.run onServer script) := by
  induction script generalizing f x y with
  | nil => exact ⟨f, h⟩
  | cons act rest ih =>
      obtain ⟨f', hf⟩ := h.step act
      exact ih hf

/-- Every script gets the same answers from the store in memory and from
the store on a server without keys, at revisions that one strictly
increasing map takes to each other. -/
theorem same_answers (n : Nat) (script : List Step) :
    ∃ f : Int → Int, StrictMono f
      ∧ (Session.run onServer { store := { revision := n } } script).answers
        = (Session.run memory { store := {} } script).answers.map
          (mapped f) := by
  have hstart : Agree (fun r => r + n) { store := {} }
      { store := { revision := n } } :=
    ⟨same_empty n, rfl, fun a ha => nomatch ha⟩
  obtain ⟨f, hf⟩ := hstart.run script
  exact ⟨f, hf.same.mono, hf.answers⟩

-- Of two updates from one version the second comes too late, on both.
example :
    let epoch : Timestamp := ⟨0, 0⟩
    let r : Storable := ⟨.fresh "m1" epoch, MachineRecord.valid_fresh "m1"
      (by unfold Timestamp.Valid; decide)⟩
    let script : List Step := [.create r, .update 0 r, .update 0 r]
    (Session.run memory { store := {} } script).answers
        = [.ok ⟨r.1, 1⟩, .ok ⟨r.1, 2⟩, .error (.conflict "m1")]
      ∧ (Session.run onServer { store := { revision := 5 } } script).answers
        = [.ok ⟨r.1, 6⟩, .ok ⟨r.1, 7⟩, .error (.conflict "m1")] := by
  decide

end ControlPlane.Stores
