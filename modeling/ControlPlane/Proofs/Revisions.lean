/-
What a revision tells. The store in memory counts its writes: every write
takes the next revision, whichever machine it is for, and nothing else
moves the counter. So no revision is ever given to two versions, and
whoever holds a version knows by its revision which write made it
(`revision_identifies`).

# Why an update cannot hit the wrong record

An update writes under the machine of the version that it is given, and
compares nothing but the revision. The record that is written may be of
another machine, so what is kept under a machine need not be a record of
it, and a version that was found under one machine may name another. Such
a version is never taken: the revision that it carries belongs to the
write under the machine where it was found. It is enough to keep account
of all writes (`written`): what is stored is the latest of them under its
machine, and whatever was answered is one of them (`Accounted`).

# Acts
# One act
# The account of all writes
# Versions that were handed out

Chain: over the store alone; sibling of Fleet/Writes.lean, which follows
the writes of calls that may come between each other.
-/
import ControlPlane.Store.Memory

namespace ControlPlane.MemoryStore

-- =================================================================== acts

/-- What can be done to a store. -/
inductive Act
  | put (record : MachineRecord)
  | create (record : MachineRecord)
  | update (old : Versioned) (next : MachineRecord)
  | find (id : String)
  /-- The store goes out of reach, or comes back. -/
  | switch (offline : Bool)

/-- The machine that an act is to write. -/
def Act.key? : Act → Option String
  | put r => some r.id
  | create r => some r.id
  | update old _ => some old.record.id
  | find _ => none
  | switch _ => none

/-- What an act answers, if there is an answer, and the store behind it.
Who puts a record is told its revision, which with the record is a
version. -/
def perform (s : MemoryStore) :
    Act → Option (Except StoreError Versioned) × MemoryStore
  | .put r => (some (.ok (s.put r).1), (s.put r).2)
  | .create r => (some (s.create r).1, (s.create r).2)
  | .update old next => (some (s.update old next).1, (s.update old next).2)
  | .find id => (some (s.find id), s)
  | .switch offline => (none, { s with offline })

/-- Acts, the latest first. -/
abbrev Acts := List Act

/-- A new store after acts. -/
def after : Acts → MemoryStore
  | [] => {}
  | a :: h => ((after h).perform a).2

/-- The machine under which an act writes and the version that it writes
there, if it succeeds in writing. -/
def entry (s : MemoryStore) (a : Act) : Option (String × Versioned) :=
  match a.key?, (s.perform a).1 with
  | some k, some (.ok v) => some (k, v)
  | _, _ => none

/-- All that was written, the latest first. -/
def written : Acts → List (String × Versioned)
  | [] => []
  | a :: h => ((after h).entry a).toList ++ written h

/-- An act of the past answered with a version. -/
def Returned (h : Acts) (v : Versioned) : Prop :=
  ∃ a p, (a :: p) <:+ h ∧ ((after p).perform a).1 = some (.ok v)

variable {s t : MemoryStore} {a b : Act} {h p q : Acts} {j k : String}
  {v w old : Versioned} {next : MachineRecord}

-- ================================================================ one act

@[simp] theorem write_get? (s : MemoryStore) (k : String)
    (r : MachineRecord) (j : String) :
    (s.write k r).2.records.get? j
      = if k = j then some (s.write k r).1 else s.records.get? j :=
  Table.get?_set ..

/-- What an act does to a store. -/
inductive Performed (s : MemoryStore) :
    Act → Option (Except StoreError Versioned) → MemoryStore → Prop
  | wrote {a : Act} {k : String} (r : MachineRecord)
      (hk : a.key? = some k) :
      Performed s a (some (.ok ⟨r, s.revision + 1⟩)) (s.write k r).2
  | failed {a : Act} (e : StoreError) : Performed s a (some (.error e)) s
  | found {id : String} {v : Versioned}
      (hv : s.records.get? id = some v) :
      Performed s (.find id) (some (.ok v)) s
  | switched (b : Bool) :
      Performed s (.switch b) none { s with offline := b }

theorem performed (s : MemoryStore) (a : Act) :
    Performed s a (s.perform a).1 (s.perform a).2 := by
  cases a with
  | put r => exact .wrote r rfl
  | create r =>
      simp only [perform, create]
      split
      · exact .failed _
      · split
        · exact .failed _
        · exact .wrote r rfl
  | update old next =>
      simp only [perform, update]
      split
      · exact .failed _
      · split
        · exact .failed _
        · split
          · exact .wrote next rfl
          · exact .failed _
  | find id =>
      simp only [perform, find]
      split
      · exact .failed _
      · split
        · rename_i hv
          exact .found hv
        · exact .failed _
  | switch b => exact .switched b

/-- A write takes the next revision. -/
theorem entry_some (he : s.entry a = some (k, v)) :
    v.revision = s.revision + 1
      ∧ (s.perform a).2 = (s.write k v.record).2 := by
  have hp := s.performed a
  unfold entry at he
  generalize (s.perform a).1 = answer, (s.perform a).2 = t at hp he ⊢
  cases hp with
  | wrote r hk =>
      rw [hk] at he
      cases he
      exact ⟨rfl, rfl⟩
  | failed e => split at he <;> simp_all
  | found hv => cases he
  | switched b => cases he

/-- A write leaves what is stored under other machines. -/
theorem entry_records (he : s.entry a = some (k, v)) (j : String) :
    (s.perform a).2.records.get? j
      = if k = j then some v else s.records.get? j := by
  obtain ⟨hrev, ht⟩ := entry_some he
  have hv : (s.write k v.record).1 = v := by
    rw [write, ← hrev]
  rw [ht, write_get?, hv]

/-- An act that writes nothing leaves records and revision; a version
that it answers with is stored. -/
theorem entry_none (he : s.entry a = none) :
    (s.perform a).2.records = s.records
      ∧ (s.perform a).2.revision = s.revision
      ∧ ∀ v, (s.perform a).1 = some (.ok v) →
        ∃ k, s.records.get? k = some v := by
  have hp := s.performed a
  unfold entry at he
  generalize (s.perform a).1 = answer, (s.perform a).2 = t at hp he ⊢
  cases hp with
  | wrote r hk =>
      rw [hk] at he
      cases he
  | failed e => exact ⟨rfl, rfl, fun v hv => by cases hv⟩
  | @found id v hv =>
      refine ⟨rfl, rfl, ?_⟩
      rintro w ⟨⟩
      exact ⟨id, hv⟩
  | switched b => exact ⟨rfl, rfl, fun v hv => by cases hv⟩

/-- An act that fails leaves the store as it is. -/
theorem perform_error {e : StoreError}
    (he : (s.perform a).1 = some (.error e)) : (s.perform a).2 = s := by
  have hp := s.performed a
  rw [he] at hp
  generalize (s.perform a).2 = t at hp ⊢
  cases hp
  rfl

/-- An update that succeeds found the revision that it was given, and
writes under the same machine. -/
theorem update_ok (ho : (s.update old next).1 = .ok v) :
    (∃ w, s.records.get? old.record.id = some w
        ∧ w.revision = old.revision)
      ∧ v = ⟨next, s.revision + 1⟩
      ∧ s.entry (.update old next) = some (old.record.id, v) := by
  have he : s.entry (.update old next) = some (old.record.id, v) := by
    simp only [entry, Act.key?, perform, ho]
  unfold update at ho
  split at ho
  · cases ho
  · split at ho
    · cases ho
    · rename_i w hw
      split at ho
      · rename_i hrev
        cases ho
        exact ⟨⟨w, hw, hrev⟩, rfl, he⟩
      · cases ho

-- ============================================== the account of all writes

/-- The store and the account of its writes agree. -/
structure Accounted (h : Acts) : Prop where
  /-- No write is ahead of the counter. -/
  bounded : ∀ e ∈ written h, e.2.revision ≤ (after h).revision
  /-- Every write is behind the ones before it. -/
  falling : (written h).Pairwise fun d e => e.2.revision < d.2.revision
  /-- What is stored is the latest write under its machine. -/
  stored : ∀ k v, (after h).records.get? k = some v →
    (k, v) ∈ written h ∧ ∀ w, (k, w) ∈ written h → w.revision ≤ v.revision

theorem written_some (he : (after h).entry a = some (k, v)) :
    written (a :: h) = (k, v) :: written h := by
  rw [written, he]
  rfl

theorem written_none (he : (after h).entry a = none) :
    written (a :: h) = written h := by
  rw [written, he]
  rfl

/-- A write adds itself to the account. -/
theorem Accounted.wrote (hh : Accounted h)
    (he : (after h).entry a = some (k, v)) : Accounted (a :: h) := by
  obtain ⟨hrev, hafter⟩ := entry_some he
  have hstore : after (a :: h) = ((after h).write k v.record).2 := hafter
  -- all earlier writes are behind this one
  have hahead : ∀ e ∈ written h, e.2.revision < v.revision := by
    intro e hin
    have := hh.bounded e hin
    omega
  refine ⟨?_, ?_, ?_⟩
  · intro e hin
    have hnow : (after (a :: h)).revision = v.revision := by
      rw [hstore, hrev]
      rfl
    rw [written_some he] at hin
    rcases List.mem_cons.mp hin with rfl | hin
    · exact Int.le_of_eq hnow.symm
    · have := hahead e hin
      omega
  · rw [written_some he]
    exact List.pairwise_cons.mpr ⟨hahead, hh.falling⟩
  · intro j w hget
    have hw := (entry_records he j).symm.trans hget
    rw [written_some he]
    split at hw
    · rename_i hkj
      subst hkj
      cases hw
      refine ⟨List.mem_cons_self, fun u hu => ?_⟩
      rcases List.mem_cons.mp hu with heq | hu
      · cases heq
        exact Int.le_refl _
      · exact Int.le_of_lt (hahead _ hu)
    · rename_i hkj
      obtain ⟨hin, hlatest⟩ := hh.stored j w hw
      refine ⟨List.mem_cons_of_mem _ hin, fun u hu => ?_⟩
      rcases List.mem_cons.mp hu with heq | hu
      · cases heq
        exact absurd rfl hkj
      · exact hlatest u hu

/-- What writes nothing leaves store and account as they are. -/
theorem Accounted.kept (hh : Accounted h)
    (he : (after h).entry a = none) : Accounted (a :: h) := by
  obtain ⟨hrecords, hrev, -⟩ := entry_none he
  have hrecords : (after (a :: h)).records = (after h).records := hrecords
  have hrev : (after (a :: h)).revision = (after h).revision := hrev
  have hwritten := written_none he
  refine ⟨?_, ?_, ?_⟩
  · rw [hwritten, hrev]
    exact hh.bounded
  · rw [hwritten]
    exact hh.falling
  · rw [hwritten, hrecords]
    exact hh.stored

theorem accounted (h : Acts) : Accounted h := by
  induction h with
  | nil =>
      refine ⟨fun p hp => ?_, .nil, fun k v hv => ?_⟩
      · cases hp
      · cases hv
  | cons a h ih =>
      cases he : (after h).entry a with
      | none => exact ih.kept he
      | some e => exact ih.wrote he

/-- A revision tells the write that it was given to. -/
theorem written_unique {d e : String × Versioned} (hd : d ∈ written h)
    (he : e ∈ written h) (hrev : d.2.revision = e.2.revision) :
    d = e := by
  have hfalling := (accounted h).falling
  generalize written h = l at hd he hfalling
  induction l with
  | nil => cases hd
  | cons c l ih =>
      obtain ⟨hc, hl⟩ := List.pairwise_cons.mp hfalling
      rcases List.mem_cons.mp hd with rfl | hd
      · rcases List.mem_cons.mp he with heq | he
        · exact heq.symm
        · have := hc e he
          omega
      · rcases List.mem_cons.mp he with heq | he
        · have := hc d hd
          rw [heq] at hrev
          omega
        · exact ih hd he hl

theorem written_suffix (hp : p <:+ h) : written p <:+ written h := by
  induction h with
  | nil =>
      obtain rfl := List.suffix_nil.mp hp
      exact List.suffix_rfl
  | cons a h ih =>
      rcases List.suffix_cons_iff.mp hp with rfl | hp
      · exact List.suffix_rfl
      · exact (ih hp).trans (List.suffix_append _ _)

-- ========================================== versions that were handed out

/-- Whatever is answered with was written. -/
theorem answered_written
    (ha : ((after p).perform a).1 = some (.ok v)) :
    ∃ k, (k, v) ∈ written (a :: p) := by
  cases he : (after p).entry a with
  | none =>
      obtain ⟨k, hk⟩ := (entry_none he).2.2 v ha
      refine ⟨k, ?_⟩
      rw [written_none he]
      exact ((accounted p).stored k v hk).1
  | some e =>
      obtain ⟨k, w⟩ := e
      refine ⟨k, ?_⟩
      have hw : w = v := by
        unfold entry at he
        rw [ha] at he
        split at he
        · rename_i hsome
          cases hsome
          cases he
          rfl
        · cases he
      rw [written_some he, hw]
      exact List.mem_cons_self

/-- What is stored under a machine is not behind any write there. -/
theorem written_le_stored (hv : (after h).records.get? k = some v)
    (hq : (b :: q) <:+ h) (hb : (after q).entry b = some (k, w)) :
    w.revision ≤ v.revision := by
  refine ((accounted h).stored k v hv).2 w ((written_suffix hq).subset ?_)
  rw [written_some hb]
  exact List.mem_cons_self

/-- The counter goes up by one with every write, and with nothing else;
an act changes nothing but what it writes, and nothing at all if it
fails. What is stored under two machines differs in the revision, and
versions that were ever answered with do if they differ at all. An update
that succeeds with a version that was answered with finds that very
version, and nothing was written there since; only what it writes is
changed. -/
theorem revision_identifies (h : Acts) :
    (∀ a k v, (after h).entry a = some (k, v) →
        v.revision = (after h).revision + 1
          ∧ (after (a :: h)).revision = (after h).revision + 1
          ∧ (after (a :: h)).records.get? k = some v
          ∧ ∀ j, j ≠ k → (after (a :: h)).records.get? j
            = (after h).records.get? j)
      ∧ (∀ a, (after h).entry a = none →
        (after (a :: h)).revision = (after h).revision
          ∧ (after (a :: h)).records = (after h).records)
      ∧ (∀ a e, ((after h).perform a).1 = some (.error e) →
        after (a :: h) = after h)
      ∧ (∀ j k v w, (after h).records.get? j = some v →
        (after h).records.get? k = some w → v.revision = w.revision →
          j = k)
      ∧ (∀ v w, Returned h v → Returned h w → v.revision = w.revision →
        v = w)
      ∧ ∀ a p old next v, (a :: p) <:+ h →
        ((after p).perform a).1 = some (.ok old) →
        ((after h).update old next).1 = .ok v →
          (after h).records.get? old.record.id = some old
            ∧ (∀ b q w, (b :: q) <:+ h → (a :: p) <:+ q →
              (after q).entry b ≠ some (old.record.id, w))
            ∧ v = ⟨next, (after h).revision + 1⟩
            ∧ (after (.update old next :: h)).records.get? old.record.id
              = some v
            ∧ ∀ j, j ≠ old.record.id →
              (after (.update old next :: h)).records.get? j
                = (after h).records.get? j := by
  refine ⟨?_, ?_, ?_, ?_, ?_, ?_⟩
  · intro a k v he
    obtain ⟨hrev, hafter⟩ := entry_some he
    refine ⟨hrev, congrArg MemoryStore.revision hafter, ?_, fun j hj => ?_⟩
    · exact (entry_records he k).trans (if_pos rfl)
    · exact (entry_records he j).trans (if_neg (Ne.symm hj))
  · intro a he
    obtain ⟨hrecords, hrev, -⟩ := entry_none he
    exact ⟨hrev, hrecords⟩
  · exact fun a e he => perform_error he
  · intro j k v w hv hw hrev
    have hj := ((accounted h).stored j v hv).1
    have hk := ((accounted h).stored k w hw).1
    exact congrArg Prod.fst (written_unique hj hk hrev)
  · rintro v w ⟨a, p, hp, hv⟩ ⟨b, q, hq, hw⟩ hrev
    obtain ⟨j, hj⟩ := answered_written hv
    obtain ⟨k, hk⟩ := answered_written hw
    exact congrArg Prod.snd (written_unique
      ((written_suffix hp).subset hj) ((written_suffix hq).subset hk) hrev)
  · intro a p old next v hp ha ho
    obtain ⟨⟨w, hw, hrev⟩, hv, he⟩ := update_ok ho
    obtain ⟨k, hk⟩ := answered_written ha
    -- the write that the version comes from is the one that is stored
    have hsame := written_unique ((accounted h).stored _ _ hw).1
      ((written_suffix hp).subset hk) hrev
    obtain ⟨-, rfl⟩ := Prod.mk.inj hsame
    refine ⟨hw, fun b q u hq hpq hb => ?_, hv,
      (entry_records he _).trans (if_pos rfl),
      fun j hj => (entry_records he j).trans (if_neg (Ne.symm hj))⟩
    have hbehind := (accounted q).bounded _ ((written_suffix hpq).subset hk)
    have hahead := (entry_some hb).1
    have hlatest := written_le_stored hw hq hb
    simp only at hbehind
    omega

/-- The record of one machine is written under another, where it was
found by its revision; then the record that it names is updated. -/
def crossed : Acts :=
  [.find "a", .update ⟨.fresh "a" ⟨0, 0⟩, 1⟩ (.fresh "b" ⟨0, 0⟩),
    .put (.fresh "b" ⟨0, 0⟩), .create (.fresh "a" ⟨0, 0⟩)]

theorem revision_identifies_crossed :
    (after crossed).records.get? "a" = some ⟨.fresh "b" ⟨0, 0⟩, 3⟩
      ∧ ((after crossed).update ⟨.fresh "b" ⟨0, 0⟩, 3⟩
        (.fresh "b" ⟨1, 0⟩)).1 = .error (.conflict "b")
      ∧ (after crossed).records.get? "b" = some ⟨.fresh "b" ⟨0, 0⟩, 2⟩
      ∧ ∀ b q w, (b :: q) <:+ crossed →
        [Act.put (.fresh "b" ⟨0, 0⟩), .create (.fresh "a" ⟨0, 0⟩)] <:+ q →
          (after q).entry b ≠ some ("b", w) := by
  have hfound : (after crossed).records.get? "a"
      = some ⟨.fresh "b" ⟨0, 0⟩, 3⟩ := by decide
  have hrefused : ((after crossed).update ⟨.fresh "b" ⟨0, 0⟩, 3⟩
      (.fresh "b" ⟨1, 0⟩)).1 = .error (.conflict "b") := rfl
  obtain ⟨-, -, -, -, -, hupdate⟩ := revision_identifies crossed
  obtain ⟨hstored, hbetween, -⟩ :=
    hupdate (.put (.fresh "b" ⟨0, 0⟩)) [.create (.fresh "a" ⟨0, 0⟩)]
      ⟨.fresh "b" ⟨0, 0⟩, 2⟩ (.fresh "b" ⟨1, 0⟩)
      ⟨.fresh "b" ⟨1, 0⟩, 4⟩ (List.drop_suffix 2 crossed) rfl rfl
  exact ⟨hfound, hrefused, hstored, hbetween⟩

end ControlPlane.MemoryStore
