/-
The history of one record. Eight writers change the records of machines
through copies that they read earlier, and still the versions of a
record only move forward (`only_forward`): what identifies the record
stays, connections are only added, an allocation is never taken back,
and the waiting flag goes up at most once and down at most once.

# What each write keeps

A version is made of the one right before it (`Follows`), so it is
enough to say what one mutation keeps (`Follows.forward`). Operations
keep the waiting flag; marks and clearings keep everything else.

# Why the flag moves twice at most

A mark is taken only while the machine is not allocated, and a call
clears the flag only after its wake-up, which tells the truth
(`sound`). So the flag goes up before the allocation and comes down
behind it, and each move takes the record to a later `phase`.

Chain: over Linearizability.lean, Wiring.lean and WakeSoundness.lean.
-/
import ControlPlane.Proofs.Linearizability
import ControlPlane.Proofs.WaitingFlag
import ControlPlane.Proofs.Wiring

namespace ControlPlane

-- ======================================================= moving forward

/-- What an allocation keeps for ever; to install over an earlier
installation can only be given up. -/
structure Allocation.Kept (a b : Allocation) : Prop where
  project : b.project = a.project
  hostname : b.hostname = a.hostname
  image : b.image = a.image
  allocatedAt : b.allocatedAt = a.allocatedAt
  reinstall : b.reinstall = true → a.reinstall = true

theorem Allocation.Kept.refl (a : Allocation) : a.Kept a :=
  ⟨rfl, rfl, rfl, rfl, id⟩

theorem Allocation.Kept.trans {a b c : Allocation} (hab : a.Kept b)
    (hbc : b.Kept c) : a.Kept c where
  project := hbc.project.trans hab.project
  hostname := hbc.hostname.trans hab.hostname
  image := hbc.image.trans hab.image
  allocatedAt := hbc.allocatedAt.trans hab.allocatedAt
  reinstall h := hab.reinstall (hbc.reinstall h)

namespace MachineRecord

/-- What a later version `x` of the record `r` keeps of it. -/
structure Advances (r x : MachineRecord) : Prop where
  id : x.id = r.id
  createdAt : x.createdAt = r.createdAt
  connections : r.connections <+: x.connections
  allocation : ∀ a, r.allocation = some a →
    ∃ b, x.allocation = some b ∧ a.Kept b

/-- How the waiting flag may move from a version to the next one: up
while there is no allocation, down once there is one. -/
structure FlagMoves (r x : MachineRecord) : Prop where
  raised : r.waiting = false → x.waiting = true →
    r.isAllocated = false ∧ x.isAllocated = false
  lowered : r.waiting = true → x.waiting = false →
    r.isAllocated = true ∧ x.isAllocated = true

variable {r x y : MachineRecord}

theorem Advances.trans (hrx : r.Advances x) (hxy : x.Advances y) :
    r.Advances y where
  id := hxy.id.trans hrx.id
  createdAt := hxy.createdAt.trans hrx.createdAt
  connections := hrx.connections.trans hxy.connections
  allocation a ha := by
    obtain ⟨b, hb, hab⟩ := hrx.allocation a ha
    obtain ⟨c, hc, hbc⟩ := hxy.allocation b hb
    exact ⟨c, hc, hab.trans hbc⟩

/-- A record that differs in nothing that lasts. -/
theorem Advances.same (hid : x.id = r.id) (hat : x.createdAt = r.createdAt)
    (hc : x.connections = r.connections)
    (ha : x.allocation = r.allocation) : r.Advances x where
  id := hid
  createdAt := hat
  connections := hc ▸ List.prefix_rfl
  allocation a h := ⟨a, ha.trans h, .refl a⟩

/-- A record with the same allocation but for what the machine and its
network report. -/
theorem Advances.allocated {a b : Allocation}
    (hr : r.allocation = some a) (hab : a.Kept b) :
    r.Advances { r with allocation := some b } where
  id := rfl
  createdAt := rfl
  connections := List.prefix_rfl
  allocation c hc := by
    cases hr.symm.trans hc
    exact ⟨b, rfl, hab⟩

/-- Attaching connections only adds some, each wire once. -/
theorem Advances.attach (r : MachineRecord)
    (new : List SwitchConnection) : r.Advances (r.attach new) where
  id := rfl
  createdAt := rfl
  connections := attachAll_prefix r.connections new
  allocation a ha := ⟨a, ha, .refl a⟩

theorem rewired (hid : x.id = r.id) (hat : x.createdAt = r.createdAt)
    (hc : x.connections = r.connections)
    (ha : x.allocation = r.allocation) (new : List SwitchConnection) :
    r.Advances (x.attach new) ∧ (r.Wired → (x.attach new).Wired) := by
  refine ⟨(Advances.same hid hat hc ha).trans (.attach x new), ?_⟩
  intro hr
  have hx : x.Wired := by
    unfold Wired
    rw [hc]
    exact hr
  exact hx.attach new

theorem FlagMoves.same (h : x.waiting = r.waiting) : r.FlagMoves x where
  raised hr hx := by rw [h, hr] at hx; cases hx
  lowered hr hx := by rw [h, hr] at hx; cases hx

end MachineRecord

-- ========================================================== operations

open MachineRecord

/-- Whatever an operation makes of a record keeps what lasts. -/
theorem Operation.change_forward {op : Operation} {r x : MachineRecord}
    {a b : Ambient} (h : op.change r a = (.ok (some x), b)) :
    r.Advances x ∧ (r.Wired → x.Wired) := by
  cases op with
  | register req =>
      -- the place and the hardware are taken over, the wires are added
      cases h
      by_cases hp : req.partition = ""
      · rw [if_pos hp]
        refine rewired ?_ ?_ ?_ ?_ req.connections <;> rfl
      · rw [if_neg hp]
        refine rewired ?_ ?_ ?_ ?_ req.connections <;> rfl
  | attach connections =>
      simp only [change] at h
      split at h
      · cases h
      · cases h
        exact ⟨.attach r connections, fun hr => hr.attach connections⟩
  | allocate req =>
      simp only [change] at h
      split at h
      · cases h
      · rename_i hr
        cases h
        refine ⟨⟨rfl, rfl, List.prefix_rfl, ?_⟩, id⟩
        intro a ha
        simp [isAllocated, ha] at hr
  | assignVrf vrf =>
      simp only [change] at h
      split at h
      · cases h
      · rename_i a ha
        split at h
        · cases h
        · cases h
          exact ⟨.allocated ha ⟨rfl, rfl, rfl, rfl, id⟩, id⟩
  | report req =>
      simp only [change] at h
      split at h
      · cases h
      · rename_i a ha
        cases h
        exact ⟨.allocated ha ⟨rfl, rfl, rfl, rfl, id⟩, id⟩
  | abortReinstall diskWiped =>
      simp only [change] at h
      split at h
      · rename_i a ha
        split at h
        · cases h
          refine ⟨.allocated ha ⟨rfl, rfl, rfl, rfl, ?_⟩, id⟩
          exact fun hno => by cases hno
        · cases h
      · cases h

/-- A record that has just been created has its wires listed once
each. -/
theorem Operation.created_wired (req : RegisterRequest) (m : String)
    (t : Timestamp) : (Operation.created req m t).Wired :=
  attachAll_nodup req.connections List.nodup_nil

namespace Fleet

variable {s : Setting} {h : History} {i : Nat} {ch : Choice} {m : String}
  {μ : Mutation} {u v : Versioned}

-- ============================================================ one write

/-- Only a call that knows its machine allocated clears a flag. -/
theorem Follows.cleared (hfol : Follows s h i ch m .clear v) :
    (after s h).Allocated m := by
  obtain ⟨r, t, hi, hm, hμ⟩ := hfol.call
  have hsure : t.sure = true := by
    cases t with
    | lifecycle c =>
        obtain ⟨machine, op, topic, retry, pacing, stage⟩ := c
        cases stage with
        | creating => cases op <;> cases hμ
        | _ => cases hμ
    | wait c =>
        obtain ⟨machine, node, settings, retry, stage⟩ := c
        cases stage with
        | clearing => rfl
        | _ => cases hμ
  exact hm ▸ (sound s h).calls i _ hi hsure

/-- What a version keeps of the one that it was written over. -/
structure Forward (r x : MachineRecord) : Prop where
  advances : r.Advances x
  wired : r.Wired → x.Wired
  flag : r.FlagMoves x

theorem Follows.forward (hfol : Follows s h i ch m μ v)
    (hu : (after s h).stored m = some u) : Forward u.record v.record := by
  have hclear : μ = .clear → u.record.isAllocated = true := by
    rintro rfl
    obtain ⟨u', hu', ha⟩ := hfol.cleared
    cases hu.symm.trans hu'
    exact ha
  obtain ⟨ch', q, -, -, hmade, -, -⟩ := hfol.made
  rw [hu, Option.map_some] at hmade
  have hmade := Mutation.apply_made hmade
  generalize v.record = x at hmade
  generalize u.record = r at hmade hclear
  cases hmade with
  | changed hy =>
      obtain ⟨hadv, hwired⟩ := Operation.change_forward hy
      have hwaiting := change_waiting hy
      exact ⟨hadv.trans (.same rfl rfl rfl rfl), hwired, .same hwaiting⟩
  | marked hr =>
      refine ⟨.same rfl rfl rfl rfl, id, fun _ _ => ⟨hr, hr⟩, ?_⟩
      intro _ hx
      cases hx
  | cleared hr =>
      have ha := hclear rfl
      refine ⟨.same rfl rfl rfl rfl, id, ?_, fun _ _ => ⟨ha, ha⟩⟩
      intro _ hx
      cases hx

/-- The first version of a record is what a registration creates. -/
theorem Follows.first (hfol : Follows s h i ch m μ v)
    (hu : (after s h).stored m = none) :
    ∃ req t, v.record = Operation.created req m t := by
  obtain ⟨ch', q, -, -, hmade, -, -⟩ := hfol.made
  rw [hu, Option.map_none] at hmade
  have hmade := Mutation.apply_made hmade
  generalize v.record = x at hmade
  cases hmade with
  | created => exact ⟨_, _, rfl⟩

-- ======================================================= all the versions

/-- How often two neighbours in a list differ. -/
def flips : List Bool → Nat
  | a :: b :: l => flips (b :: l) + if a = b then 0 else 1
  | _ => 0

/-- How far the waiting flag of a record has come: not raised yet,
raised, or down behind the allocation. -/
def phase (r : MachineRecord) : Nat :=
  if r.waiting then 1 else if r.isAllocated then 2 else 0

theorem phase_le (r : MachineRecord) : phase r ≤ 2 := by
  unfold phase
  split
  · omega
  · split <;> omega

/-- Each move of the flag is one into a later phase. -/
theorem Forward.phase {r x : MachineRecord} (h : Forward r x) :
    Fleet.phase r + (if x.waiting = r.waiting then 0 else 1)
      ≤ Fleet.phase x := by
  have hkept : r.isAllocated = true → x.isAllocated = true := by
    intro ha
    obtain ⟨a, hr⟩ := Option.isSome_iff_exists.mp ha
    obtain ⟨b, hx, -⟩ := h.advances.allocation a hr
    exact Option.isSome_iff_exists.mpr ⟨b, hx⟩
  have hup := h.flag.raised
  have hdown := h.flag.lowered
  unfold Fleet.phase
  cases hr : r.waiting <;> cases hx : x.waiting <;>
    cases ha : r.isAllocated <;> simp_all

/-- The versions of a machine's record along a history, the latest
first, and how they follow each other. -/
structure OnlyForward (s : Setting) (h : History) (m : String) : Prop where
  /-- The latest version is what is stored. -/
  latest : (versions s m h).head? = (after s h).stored m
  /-- A registration created the first one. -/
  begun : ∀ v, [v] <:+ versions s m h →
    ∃ req t, v.record = Operation.created req m t
  /-- Identity, creation, wires and allocation last. -/
  advances : (versions s m h).Pairwise fun v u =>
    u.record.Advances v.record
  wired : ∀ v ∈ versions s m h, v.record.Wired
  /-- From each version to the next one the waiting flag goes up only
  without an allocation, and down only with one. -/
  flag : (versions s m h).IsChain fun v u => u.record.FlagMoves v.record
  flips : flips ((versions s m h).map fun v => v.record.waiting) ≤ 2
  /-- Each change is later than the one before, and than the creation. -/
  dated : (versions s m h).Pairwise fun v u =>
    u.record.changedAt < v.record.changedAt
  notBefore : ∀ v ∈ versions s m h, v.record.createdAt ≤ v.record.changedAt

theorem versions_begun (hv : [v] <:+ versions s m h) :
    ∃ req t, v.record = Operation.created req m t := by
  obtain ⟨p, i, ch, μ, -, hnil, hfol⟩ := versions_link hv
  refine hfol.first ?_
  rw [← versions_head, hnil]
  rfl

/-- Each version is one step forward from the one before. -/
theorem versions_chain (s : Setting) (m : String) (h : History) :
    (versions s m h).IsChain fun v u => Forward u.record v.record := by
  induction h with
  | nil => exact .nil
  | cons e h ih =>
      rcases versions_step s m e h with
        ⟨hv, -⟩ | ⟨i, ch, μ, v, rfl, hfol, hv⟩
      · rw [hv]
        exact ih
      · rw [hv]
        have hhead := versions_head s m h
        cases hvs : versions s m h with
        | nil => exact .singleton v
        | cons u us =>
            rw [hvs] at ih hhead
            exact List.isChain_cons_cons.mpr
              ⟨hfol.forward hhead.symm, ih⟩

/-- A fact that the first version has, and that each write keeps, holds
of all versions. -/
theorem versions_all {P : MachineRecord → Prop}
    (first : ∀ req t, P (Operation.created req m t))
    (next : ∀ r x, Forward r x → r.changedAt < x.changedAt → P r → P x) :
    ∀ v ∈ versions s m h, P v.record := by
  have hchain := versions_chain s m h
  have hdated := versions_ordered s m h
  have hbegun := fun v => versions_begun (s := s) (m := m) (h := h) (v := v)
  generalize versions s m h = vs at hchain hdated hbegun
  induction vs with
  | nil => exact fun v hv => by cases hv
  | cons v vs ih =>
      have hrest := ih (List.isChain_of_isChain_cons hchain) hdated.tail
        fun u hu => hbegun u (hu.trans (List.suffix_cons v vs))
      have hv : P v.record := by
        cases vs with
        | nil =>
            obtain ⟨req, t, hr⟩ := hbegun v List.suffix_rfl
            exact hr ▸ first req t
        | cons u us =>
            have hlt := (List.pairwise_cons.mp hdated).1 u
              List.mem_cons_self
            exact next u.record v.record
              (List.isChain_cons_cons.mp hchain).1 hlt.2
              (hrest u List.mem_cons_self)
      intro w hw
      rcases List.mem_cons.mp hw with rfl | hw
      · exact hv
      · exact hrest w hw

theorem flips_le (v : Versioned) (vs : List Versioned)
    (hc : (v :: vs).IsChain fun v u => Forward u.record v.record) :
    flips ((v :: vs).map fun v => v.record.waiting) ≤ phase v.record := by
  induction vs generalizing v with
  | nil => exact Nat.zero_le _
  | cons u us ih =>
      obtain ⟨hfirst, hrest⟩ := List.isChain_cons_cons.mp hc
      have hle := ih u hrest
      have hphase := hfirst.phase
      simp only [List.map_cons, flips] at hle ⊢
      omega

/-- The versions of a record only move forward, however the calls of any
replicas interleave. -/
theorem only_forward (s : Setting) (h : History) (m : String) :
    OnlyForward s h m where
  latest := versions_head s m h
  begun v hv := versions_begun hv
  advances := by
    have hchain := (versions_chain s m h).imp fun _ _ hf => hf.advances
    have htrans : Trans
        (fun v u : Versioned => u.record.Advances v.record)
        (fun v u : Versioned => u.record.Advances v.record)
        (fun v u : Versioned => u.record.Advances v.record) :=
      ⟨fun huv hwu => hwu.trans huv⟩
    exact hchain.pairwise
  wired := versions_all (fun req t => Operation.created_wired req m t)
    fun _ _ hf _ hr => hf.wired hr
  flag := (versions_chain s m h).imp fun _ _ hf => hf.flag
  flips := by
    have hchain := versions_chain s m h
    cases hvs : versions s m h with
    | nil => exact Nat.zero_le 2
    | cons v vs =>
        rw [hvs] at hchain
        exact Nat.le_trans (flips_le v vs hchain) (phase_le v.record)
  dated := (versions_ordered s m h).imp fun hlt => hlt.2
  notBefore := versions_all (fun _ _ => le_refl _) fun r x hf hlt hr =>
    le_of_lt (lt_of_le_of_lt (hf.advances.createdAt ▸ hr) hlt)

end Fleet

end ControlPlane
