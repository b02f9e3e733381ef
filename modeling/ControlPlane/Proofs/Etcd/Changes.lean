/-
The changes of a key-value server and what a watch tells of them. The
history of a server only grows, by one change at the next revision at a
time (`Server.Grown`), so it is in the order of its revisions
(`Server.Ordered`); and a watch tells every change in its range from its
first revision on, up to where it was cut (`Watch.Told`).

Chain: the base layer below Site.lean; everything said about
subscriptions reads the server through these lemmas.
-/
import ControlPlane.Etcd.Bus

namespace ControlPlane.Etcd

variable {s s' : Server} {r : Range} {w w' : Watch} {cs : List Change}
  {c : Change}

namespace Server

-- ============================================================ the history

/-- What one thing done to a server can be to its history. -/
inductive Grown (s : Server) : Server → Prop
  | still {s' : Server} (hh : s'.history = s.history)
      (hr : s'.revision = s.revision) : Grown s s'
  | wrote {s' : Server} {c : Change} (hh : s'.history = s.history ++ [c])
      (hc : c.revision = s.revision + 1)
      (hr : s'.revision = s.revision + 1) : Grown s s'

/-- The changes are in the order of their revisions, and the server has
come to the last one. -/
structure Ordered (s : Server) : Prop where
  sorted : s.history.Pairwise fun a b => a.revision < b.revision
  bounded : ∀ c ∈ s.history, c.revision ≤ s.revision

theorem ordered_empty : Ordered {} where
  sorted := List.Pairwise.nil
  bounded _ hc := nomatch hc

theorem Ordered.grown (ho : Ordered s) (h : Grown s s') : Ordered s' := by
  cases h with
  | still hh hr =>
      refine ⟨?_, ?_⟩
      · rw [hh]
        exact ho.sorted
      · rw [hh, hr]
        exact ho.bounded
  | @wrote c hh hc hr =>
      refine ⟨?_, ?_⟩
      · rw [hh, List.pairwise_append]
        refine ⟨ho.sorted, List.pairwise_singleton _ _, ?_⟩
        intro a ha b hb
        cases List.mem_singleton.mp hb
        have := ho.bounded a ha
        omega
      · intro a ha
        rw [hh, List.mem_append] at ha
        rcases ha with ha | ha
        · have := ho.bounded a ha
          omega
        · cases List.mem_singleton.mp ha
          omega

theorem Grown.of_same (hh : s'.history = s.history)
    (hr : s'.revision = s.revision) {t : Server} (h : Grown s' t) :
    Grown s t := by
  cases h with
  | still hh' hr' => exact .still (hh'.trans hh) (hr'.trans hr)
  | wrote hh' hc hr' =>
      rw [hh] at hh'
      rw [hr] at hc hr'
      exact .wrote hh' hc hr'

theorem Grown.revision_le (h : Grown s s') : s.revision ≤ s'.revision := by
  cases h <;> omega

/-- A change that the server had come to is not new. -/
theorem Grown.known (h : Grown s s') (hc : c ∈ s'.history)
    (hle : c.revision ≤ s.revision) : c ∈ s.history := by
  cases h with
  | still hh hr => exact hh ▸ hc
  | wrote hh hn hr =>
      rw [hh, List.mem_append] at hc
      rcases hc with hc | hc
      · exact hc
      · cases List.mem_singleton.mp hc
        omega

theorem put_grown (s : Server) (key value : String) (lease : Nat) :
    Grown s (s.put key value lease) := by
  unfold put
  cases s.entries.get? key with
  | none => exact .wrote rfl rfl rfl
  | some e => exact .wrote rfl rfl rfl

theorem delete_grown (s : Server) (key : String) :
    Grown s (s.delete key) := by
  unfold delete
  split
  · exact .wrote rfl rfl rfl
  · exact .still rfl rfl

end Server

namespace Watch

-- ========================================================== what is told

/-- Is a change one that the watch still tells? -/
def Reaches (w : Watch) (c : Change) : Prop :=
  w.next ≤ c.revision
    ∧ ∀ last withError, w.cut = some (last, withError) → c.revision ≤ last

/-- A watch has told changes: all that it still tells, in their order. It
goes on behind the last one. -/
structure Told (w : Watch) (r : Range) (s : Server) (cs : List Change)
    (w' : Watch) : Prop where
  mem : ∀ c, c ∈ cs
    ↔ c ∈ s.history ∧ r.covers c.key = true ∧ w.Reaches c
  sorted : s.Ordered → cs.Pairwise fun a b => a.revision < b.revision
  next : ∃ c, cs.getLast? = some c ∧ w'.next = c.revision + 1

theorem receive_cases (w : Watch) (r : Range) (s : Server) :
    (w.receive r s = none ∧ w.cut = none
        ∧ ∀ c ∈ s.history, r.covers c.key = true → c.revision < w.next)
      ∨ (∃ cs w', w.receive r s = some (.changes cs, w')
        ∧ w.Told r s cs w')
      ∨ ∃ news, w.receive r s = some (news, w) ∧ ∀ cs, news ≠ .changes cs
        := by
  have hfrom : ∀ c, c ∈ s.changesFrom r w.next
      ↔ c ∈ s.history ∧ w.next ≤ c.revision ∧ r.covers c.key = true := by
    intro c
    simp only [Server.changesFrom, List.mem_filter, Bool.and_eq_true,
      decide_eq_true_eq]
  have hsorted : s.Ordered → (s.changesFrom r w.next).Pairwise
      fun a b => a.revision < b.revision :=
    fun ho => ho.sorted.filter _
  unfold receive
  cases hcut : w.cut with
  | none =>
      simp only
      cases hl : (s.changesFrom r w.next).getLast? with
      | none =>
          refine Or.inl ⟨rfl, trivial, ?_⟩
          intro c hc hr
          refine Nat.lt_of_not_le fun hle => ?_
          rw [List.getLast?_eq_none_iff] at hl
          have hmem := (hfrom c).mpr ⟨hc, hle, hr⟩
          rw [hl] at hmem
          cases hmem
      | some c =>
          refine Or.inr (Or.inl ⟨_, _, rfl, ?_, hsorted, c, hl, rfl⟩)
          intro c
          rw [hfrom, Reaches, hcut]
          constructor
          · rintro ⟨hc, hn, hr⟩
            exact ⟨hc, hr, hn, fun _ _ h => by cases h⟩
          · rintro ⟨hc, hr, hn, -⟩
            exact ⟨hc, hn, hr⟩
  | some cut =>
      obtain ⟨last, withError⟩ := cut
      simp only
      cases hl : ((s.changesFrom r w.next).filter fun c =>
          decide (c.revision ≤ last)).getLast? with
      | none =>
          cases withError with
          | true =>
              exact Or.inr (Or.inr ⟨_, rfl, fun _ h => by cases h⟩)
          | false =>
              exact Or.inr (Or.inr ⟨_, rfl, fun _ h => by cases h⟩)
      | some c =>
          refine Or.inr (Or.inl ⟨_, _, rfl, ?_,
            fun ho => (hsorted ho).filter _, c, hl, rfl⟩)
          intro c
          rw [List.mem_filter, hfrom, Reaches, hcut, decide_eq_true_eq]
          constructor
          · rintro ⟨⟨hc, hn, hr⟩, hle⟩
            refine ⟨hc, hr, hn, ?_⟩
            rintro l e ⟨⟩
            exact hle
          · rintro ⟨hc, hr, hn, hle⟩
            exact ⟨⟨hc, hn, hr⟩, hle last withError rfl⟩

theorem Told.behind (ht : w.Told r s cs w') (ho : s.Ordered)
    (hc : c ∈ cs) : c.revision < w'.next := by
  obtain ⟨l, hl, hnext⟩ := ht.next
  obtain ⟨before, rfl⟩ := List.getLast?_eq_some_iff.mp hl
  have hs := (List.pairwise_append.mp (ht.sorted ho)).2.2
  rw [List.mem_append] at hc
  rcases hc with hc | hc
  · have := hs c hc l (List.mem_singleton.mpr rfl)
    omega
  · cases List.mem_singleton.mp hc
    omega

/-- The watch goes on no further than behind what it has told. -/
theorem Told.next_le (ht : w.Told r s cs w') {n : Nat}
    (hcs : ∀ c ∈ cs, c.revision < n) : w'.next ≤ n := by
  obtain ⟨l, hl, hnext⟩ := ht.next
  have := hcs l (List.mem_of_getLast? hl)
  omega

end Watch

end ControlPlane.Etcd
