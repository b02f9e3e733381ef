/-
The wires of a machine. Attaching connections reads through the new ones
and appends each that is not known yet. A wire is known by its switch and
its network card, whatever port it ends in.

# What is appended

The loop looks each connection up in the list that it is extending, so a
connection can be shadowed by an old entry as well as by one of its own
request. What is left of a request is said without the loop
(`firstOfEach`): a connection is appended when its wire is neither among
the old ones nor among those in front of it. That the loop does just this
(`attachAll_eq`) is the only place where its recursion is followed
against the extended list; where the old entries stay, how many are new
and that no wire is listed twice is read off there.

# Several requests

A request only matters by the wires that are known when it comes
(`wire_mem_attachAll`). So one request behind another is both at once, a
request that comes again finds all of its wires known
(`attachAll_known`), and in the end the wires of the record are its old
ones and those of all requests, in whatever order these came
(`merging`).

Chain: the base layer of what is said about the connections of records;
consumed by RecordHistory.lean and ExactlyOnce.lean.
-/
import Mathlib.Data.Finset.Dedup
import ControlPlane.Lifecycle.Operation
import ControlPlane.Machine.Connections

namespace ControlPlane

/-- What a connection is known by. -/
def SwitchConnection.wire (c : SwitchConnection) : String × MacAddress :=
  (c.switchId, c.nicMac)

variable {known new : List SwitchConnection} {c : SwitchConnection}

theorem knowsWire_iff :
    knowsWire known c = true ↔ c.wire ∈ known.map SwitchConnection.wire := by
  simp [knowsWire, SwitchConnection.sameWire, SwitchConnection.wire]

-- ==================================================== what is appended

/-- Of every wire that is not known yet the first connection, in
order. -/
def firstOfEach (known new : List SwitchConnection) :
    List SwitchConnection :=
  (new.zipIdx.filter fun p =>
    p.1.wire ∉ known.map SwitchConnection.wire
      ∧ p.1.wire ∉ (new.take p.2).map SwitchConnection.wire).map Prod.fst

/-- What is appended depends on the known wires only. -/
theorem firstOfEach_congr {known' : List SwitchConnection}
    (h : ∀ w, w ∈ known.map SwitchConnection.wire
      ↔ w ∈ known'.map SwitchConnection.wire) :
    firstOfEach known new = firstOfEach known' new := by
  unfold firstOfEach
  simp only [h]

/-- Behind a connection the rest is read with its wire known. -/
theorem firstOfEach_cons (known : List SwitchConnection)
    (c : SwitchConnection) (rest : List SwitchConnection) :
    firstOfEach known (c :: rest)
      = (if knowsWire known c then [] else [c])
        ++ firstOfEach (known ++ [c]) rest := by
  -- one place further on, the wire of `c` is among those in front
  have hrest : (List.filter (fun p => decide
        (p.1.wire ∉ known.map SwitchConnection.wire
          ∧ p.1.wire ∉ ((c :: rest).take p.2).map SwitchConnection.wire))
        (rest.zipIdx.map (Prod.map id (· + 1)))).map Prod.fst
      = firstOfEach (known ++ [c]) rest := by
    rw [List.filter_map, List.map_map]
    refine congrArg (List.map Prod.fst) (List.filter_congr fun p hp => ?_)
    simp only [Function.comp_apply, Prod.map, id_eq, List.take_succ_cons,
      List.map_cons, List.mem_cons, List.map_append, List.map_nil,
      List.mem_append, List.not_mem_nil, or_false, not_or, and_assoc]
  rw [← hrest, firstOfEach, List.zipIdx_cons', List.filter_cons]
  by_cases hc : knowsWire known c = true <;> simp [hc, ← knowsWire_iff]

/-- The loop appends the first connection of every new wire. -/
theorem attachAll_eq (known new : List SwitchConnection) :
    attachAll known new = known ++ firstOfEach known new := by
  induction new generalizing known with
  | nil => exact (List.append_nil known).symm
  | cons c rest ih =>
      rw [attachAll, firstOfEach_cons]
      split
      · rename_i hc
        -- nothing becomes known that was not
        have hsame : firstOfEach (known ++ [c]) rest
            = firstOfEach known rest :=
          firstOfEach_congr fun w => by
            have hw := knowsWire_iff.mp hc
            grind
        rw [ih, hsame, List.nil_append]
      · rw [ih, List.append_assoc]

theorem attachAll_prefix (known new : List SwitchConnection) :
    known <+: attachAll known new := by
  rw [attachAll_eq]
  exact List.prefix_append _ _

theorem attachAll_length (known new : List SwitchConnection) :
    (attachAll known new).length = known.length + countNew known new := by
  induction new generalizing known with
  | nil => rfl
  | cons c rest ih =>
      unfold attachAll countNew
      split
      · exact ih known
      · rw [ih, List.length_append, List.length_singleton]
        omega

/-- As many are counted as are appended. -/
theorem countNew_eq (known new : List SwitchConnection) :
    countNew known new = (firstOfEach known new).length := by
  have hlen := attachAll_length known new
  rw [attachAll_eq, List.length_append] at hlen
  omega

theorem attachAll_nodup (new : List SwitchConnection)
    (h : (known.map SwitchConnection.wire).Nodup) :
    ((attachAll known new).map SwitchConnection.wire).Nodup := by
  induction new generalizing known with
  | nil => exact h
  | cons c rest ih =>
      unfold attachAll
      split
      · exact ih h
      · rename_i hnew
        have hc : c.wire ∉ known.map SwitchConnection.wire :=
          fun hm => hnew (knowsWire_iff.mpr hm)
        apply ih
        rw [List.map_append, List.map_singleton, List.nodup_append]
        refine ⟨h, by simp, ?_⟩
        intro a ha b hb hab
        rw [hab, List.mem_singleton.mp hb] at ha
        exact hc ha

-- ==================================================== several requests

/-- Nothing is missing and nothing comes from elsewhere. -/
theorem wire_mem_attachAll {w : String × MacAddress} :
    w ∈ (attachAll known new).map SwitchConnection.wire
      ↔ w ∈ known.map SwitchConnection.wire
        ∨ w ∈ new.map SwitchConnection.wire := by
  induction new generalizing known with
  | nil => simp [attachAll]
  | cons c rest ih =>
      rw [List.map_cons, List.mem_cons]
      unfold attachAll
      split
      · rename_i hc
        have hc := knowsWire_iff.mp hc
        rw [ih]
        constructor
        · rintro (hw | hw)
          · exact Or.inl hw
          · exact Or.inr (Or.inr hw)
        · rintro (hw | rfl | hw)
          · exact Or.inl hw
          · exact Or.inl hc
          · exact Or.inr hw
      · rw [ih, List.map_append, List.map_singleton, List.mem_append,
          List.mem_singleton, or_assoc]

theorem attachAll_append (known a b : List SwitchConnection) :
    attachAll known (a ++ b) = attachAll (attachAll known a) b := by
  induction a generalizing known with
  | nil => rfl
  | cons c rest ih =>
      rw [List.cons_append, attachAll, attachAll]
      split
      · exact ih known
      · exact ih (known ++ [c])

theorem countNew_append (known a b : List SwitchConnection) :
    countNew known (a ++ b)
      = countNew known a + countNew (attachAll known a) b := by
  have hboth := attachAll_length known (a ++ b)
  have ha := attachAll_length known a
  have hb := attachAll_length (attachAll known a) b
  rw [attachAll_append] at hboth
  omega

/-- A request whose wires are all known changes nothing. -/
theorem attachAll_known
    (h : ∀ c ∈ new, c.wire ∈ known.map SwitchConnection.wire) :
    attachAll known new = known := by
  induction new with
  | nil => rfl
  | cons c rest ih =>
      rw [attachAll, if_pos (knowsWire_iff.mpr (h c List.mem_cons_self))]
      exact ih fun d hd => h d (List.mem_cons_of_mem c hd)

theorem attachAll_again (known new : List SwitchConnection) :
    attachAll (attachAll known new) new = attachAll known new :=
  attachAll_known fun _ hc =>
    wire_mem_attachAll.mpr (Or.inr (List.mem_map_of_mem hc))

-- =========================================================== on records

namespace MachineRecord

variable {r : MachineRecord}

/-- The wires of a machine, as a set. -/
def wires (r : MachineRecord) : Finset (String × MacAddress) :=
  (r.connections.map SwitchConnection.wire).toFinset

/-- The wires of the record are listed once each. -/
def Wired (r : MachineRecord) : Prop :=
  (r.connections.map SwitchConnection.wire).Nodup

instance (r : MachineRecord) : Decidable r.Wired :=
  inferInstanceAs (Decidable (List.Nodup _))

theorem Wired.attach (hr : r.Wired) (new : List SwitchConnection) :
    (r.attach new).Wired :=
  attachAll_nodup new hr

/-- Nothing is counted just when nothing changes. -/
theorem attachCount_eq_zero (r : MachineRecord)
    (new : List SwitchConnection) :
    r.attachCount new = 0 ↔ r.attach new = r := by
  have hlen := attachAll_length r.connections new
  have hfront := attachAll_prefix r.connections new
  unfold attachCount
  constructor
  · intro hzero
    have hsame : r.connections = attachAll r.connections new :=
      hfront.eq_of_length (by omega)
    unfold attach
    rw [← hsame]
  · intro hsame
    have hsame : attachAll r.connections new = r.connections :=
      congrArg connections hsame
    rw [hsame] at hlen
    omega

theorem mem_wires_attach {w : String × MacAddress}
    {new : List SwitchConnection} : w ∈ (r.attach new).wires
      ↔ w ∈ r.wires ∨ w ∈ new.map SwitchConnection.wire := by
  unfold wires attach
  rw [List.mem_toFinset, List.mem_toFinset]
  exact wire_mem_attachAll

/-- After any number of requests, the wires are the old ones and those of
all requests. -/
theorem mem_wires_foldl {w : String × MacAddress}
    (requests : List (List SwitchConnection)) :
    w ∈ (requests.foldl attach r).wires
      ↔ w ∈ r.wires
        ∨ ∃ new ∈ requests, w ∈ new.map SwitchConnection.wire := by
  induction requests generalizing r with
  | nil => simp
  | cons new rest ih =>
      rw [List.foldl_cons, ih, mem_wires_attach, or_assoc]
      simp only [List.mem_cons, exists_eq_or_imp]

/-- The call that attaches connections leaves the merged record behind,
and writes it only if it is another one. -/
theorem change_attach (r : MachineRecord) (a : List SwitchConnection)
    (ambient : Ambient) : ∃ x,
      ((Operation.attach a).change r ambient).1 = .ok x
        ∧ x.getD r = r.attach a ∧ (x = none ↔ r.attach a = r) := by
  rw [← attachCount_eq_zero]
  simp only [Operation.change]
  split
  · rename_i hzero
    exact ⟨none, rfl, ((attachCount_eq_zero r a).mp hzero).symm,
      ⟨fun _ => hzero, fun _ => rfl⟩⟩
  · rename_i hnew
    refine ⟨some (r.attach a), rfl, rfl, ⟨fun h => ?_, fun h => ?_⟩⟩
    · cases h
    · exact absurd h hnew

/-- What becomes of a record to which the connections `a` are attached,
and then `b`. -/
structure Merges (r : MachineRecord) (a b : List SwitchConnection) :
    Prop where
  /-- The old entries stay in front as they are; behind them comes the
  first connection of every new wire, in order. All else stays. -/
  appends : r.attach a
    = { r with connections := r.connections ++ firstOfEach r.connections a }
  counts : r.attachCount a = (firstOfEach r.connections a).length
  /-- One request behind the other is both at once. -/
  joins : (r.attach a).attach b = r.attach (a ++ b)
  sums : r.attachCount a + (r.attach a).attachCount b
    = r.attachCount (a ++ b)
  /-- The same request again adds nothing. -/
  repeats : (r.attach a).attach a = r.attach a
    ∧ (r.attach a).attachCount a = 0
  wired : r.Wired → (r.attach a).Wired
  /-- In the end the wires do not tell in which order requests came. -/
  commutes : ∀ requests requests' : List (List SwitchConnection),
    requests.Perm requests' →
      (requests.foldl attach r).wires = (requests'.foldl attach r).wires
  /-- So much for the call that attaches them, which writes nothing where
  nothing is new. -/
  written : ∀ ambient : Ambient, ∃ x,
    ((Operation.attach a).change r ambient).1 = .ok x
      ∧ x.getD r = r.attach a ∧ (x = none ↔ r.attach a = r)

/-- Connections are merged by their wires. -/
theorem merging (r : MachineRecord) (a b : List SwitchConnection) :
    r.Merges a b where
  appends := by
    unfold attach
    rw [attachAll_eq]
  counts := countNew_eq r.connections a
  joins := by
    unfold attach
    rw [attachAll_append]
  sums := (countNew_append r.connections a b).symm
  repeats := by
    have hagain : (r.attach a).attach a = r.attach a := by
      unfold attach
      rw [attachAll_again]
    exact ⟨hagain, (attachCount_eq_zero _ a).mpr hagain⟩
  wired hr := hr.attach a
  commutes requests requests' hperm := by
    ext w
    rw [mem_wires_foldl, mem_wires_foldl]
    simp only [hperm.mem_iff]
  written := change_attach r a

/-- A machine with one card on two switches. -/
def twoLeaves : MachineRecord :=
  { MachineRecord.fresh "m" ⟨0, 0⟩ with
    connections := [⟨"leaf01", "swp1", ⟨0, 0, 0, 0, 0, 1⟩⟩,
      ⟨"leaf02", "swp1", ⟨0, 0, 0, 0, 0, 1⟩⟩] }

/-- A request with a known wire at another port, and a new one twice. -/
def rewiring : List SwitchConnection :=
  [⟨"leaf01", "swp9", ⟨0, 0, 0, 0, 0, 1⟩⟩,
    ⟨"leaf01", "swp2", ⟨0, 0, 0, 0, 0, 2⟩⟩,
    ⟨"leaf01", "swp3", ⟨0, 0, 0, 0, 0, 2⟩⟩]

/-- The known wire keeps its port, and of the new one the first port
counts. -/
theorem merging_rewiring :
    twoLeaves.attach rewiring
        = { twoLeaves with
          connections := twoLeaves.connections
            ++ [⟨"leaf01", "swp2", ⟨0, 0, 0, 0, 0, 2⟩⟩] }
      ∧ twoLeaves.Wired ∧ (twoLeaves.attach rewiring).Wired := by
  have hwired : twoLeaves.Wired := by decide
  exact ⟨(merging twoLeaves rewiring []).appends, hwired,
    (merging twoLeaves rewiring []).wired hwired⟩

end MachineRecord

end ControlPlane
