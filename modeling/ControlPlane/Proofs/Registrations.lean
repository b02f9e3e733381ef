/-
The books that a registry keeps about its registrations. Every signal
counts its holders, every entry points to a signal, and a gauge counts
what is open in all; none of them is ever compared with the
registrations that are really alive. They agree nevertheless, whatever
is done with the registry and in whatever order (`consistent`).

# Why a stale registration does no harm

- A signal has one machine (`Tracks.single`), so the entry that the last
  holder takes away is the one under its own machine, or none.
- An entry goes with its last holder, so every entry has a holder
  (`Tracks.entered`), and registering never replaces a signal that
  somebody holds.
- A holder whose signal is not the one under its machine was left behind
  by `remove`, which closes what it takes away (`Tracks.stale`). Letting
  go of it finds another generation under the machine and leaves that
  alone.

Chain: over Signals.lean; consumed by Releases.lean, where the live
registrations are the holds of the calls of a replica.
-/
import Mathlib.Data.List.Perm.Basic
import ControlPlane.Proofs.Signals

namespace ControlPlane.Registry

variable {r r' : Registry} {m : String} {g k : Nat} {a b : Registration}
  {live live' : List Registration}

-- ============================================================= the books

/-- The books of a registry are right about the registrations that are
alive. -/
structure Tracks (r : Registry) (live : List Registration) : Prop where
  counted : ∀ g, (r.signal g).holders
    = live.countP fun a => a.generation == g
  /-- A signal has one machine. -/
  single : ∀ a ∈ live, ∀ b ∈ live, a.generation = b.generation →
    a.machine = b.machine
  /-- What stands under a machine is held for it. -/
  entered : ∀ m g, r.lookup m = some g →
    ∃ a ∈ live, a.machine = m ∧ a.generation = g
  /-- A signal that is held stands under its machine, unless it wakes
  nobody any more. -/
  stale : ∀ a ∈ live, r.lookup a.machine = some a.generation
    ∨ (r.signal a.generation).isClosed = true
  abandoned : ∀ g, g < r.signals.length → (r.signal g).holders = 0 →
    (r.signal g).isClosed = true
  gauge : r.streams.getD 0 = live.length

theorem countP_cons_generation (a : Registration)
    (live : List Registration) (k : Nat) :
    ((a :: live).countP fun x => x.generation == k)
      = (live.countP fun x => x.generation == k)
        + if k = a.generation then 1 else 0 := by
  rw [List.countP_cons]
  by_cases hk : k = a.generation
  · rw [if_pos hk, hk, if_pos (beq_self_eq_true _)]
  · rw [if_neg hk, if_neg (by simpa using fun h => hk h.symm)]

/-- A signal still has one machine when a registration for that machine
is added. -/
theorem single_cons
    (hs : ∀ x ∈ live, ∀ y ∈ live, x.generation = y.generation →
      x.machine = y.machine)
    (hnew : ∀ x ∈ live, x.generation = a.generation →
      x.machine = a.machine) :
    ∀ x ∈ a :: live, ∀ y ∈ a :: live, x.generation = y.generation →
      x.machine = y.machine := by
  intro x hx y hy hxy
  rw [List.mem_cons] at hx hy
  rcases hx with rfl | hx
  · rcases hy with rfl | hy
    · rfl
    · exact (hnew y hy hxy.symm).symm
  · rcases hy with rfl | hy
    · exact hnew x hx hxy
    · exact hs x hx y hy hxy

theorem Tracks.held (ht : Tracks r live) (ha : a ∈ live) :
    0 < (r.signal a.generation).holders := by
  rw [ht.counted, List.countP_pos_iff]
  exact ⟨a, ha, beq_self_eq_true _⟩

theorem Tracks.bounded (ht : Tracks r live) (ha : a ∈ live) :
    a.generation < r.signals.length := by
  refine Nat.lt_of_not_le fun hle => ?_
  have hpos := ht.held ha
  rw [signal_of_length_le hle] at hpos
  exact Nat.lt_irrefl 0 hpos

/-- A signal under a machine is held for that machine only. -/
theorem Tracks.owned (ht : Tracks r live) (hl : r.lookup m = some g)
    (ha : a ∈ live) (hg : a.generation = g) : a.machine = m := by
  obtain ⟨b, hb, rfl, rfl⟩ := ht.entered m g hl
  exact ht.single a ha b hb hg

theorem Tracks.entry_held (ht : Tracks r live)
    (hl : r.lookup m = some g) : 0 < (r.signal g).holders := by
  obtain ⟨a, ha, -, rfl⟩ := ht.entered m g hl
  exact ht.held ha

theorem tracks_empty : Tracks {} [] where
  counted g := by rw [signal_of_length_le (Nat.zero_le g)]; rfl
  single _ ha := nomatch ha
  entered _ _ hl := nomatch hl
  stale _ ha := nomatch ha
  abandoned g hg := absurd hg (Nat.not_lt_zero g)
  gauge := rfl

/-- The order of the registrations does not matter, -/
theorem Tracks.perm (ht : Tracks r live) (hp : live.Perm live') :
    Tracks r live' where
  counted g := (ht.counted g).trans (hp.countP_eq _)
  single a ha b hb :=
    ht.single a (hp.mem_iff.mpr ha) b (hp.mem_iff.mpr hb)
  entered m g hl := by
    obtain ⟨a, ha, hm⟩ := ht.entered m g hl
    exact ⟨a, hp.mem_iff.mp ha, hm⟩
  stale a ha := ht.stale a (hp.mem_iff.mpr ha)
  abandoned := ht.abandoned
  gauge := by rw [ht.gauge, hp.length_eq]

/-- nor does what a holder has seen of its signal. -/
theorem Tracks.observed (ht : Tracks r (a :: live))
    (hm : b.machine = a.machine) (hg : b.generation = a.generation) :
    Tracks r (b :: live) := by
  -- a registration with the machine and the generation of `a` is as good
  have hback : ∀ x ∈ b :: live, ∃ y ∈ a :: live,
      y.machine = x.machine ∧ y.generation = x.generation := by
    intro x hx
    rcases List.mem_cons.mp hx with rfl | hx
    · exact ⟨a, List.mem_cons_self, hm.symm, hg.symm⟩
    · exact ⟨x, List.mem_cons_of_mem a hx, rfl, rfl⟩
  refine ⟨?_, ?_, ?_, ?_, ht.abandoned, ht.gauge⟩
  · intro k
    rw [ht.counted, countP_cons_generation, countP_cons_generation, hg]
  · intro x hx y hy hxy
    obtain ⟨x', hx', hxm, hxg⟩ := hback x hx
    obtain ⟨y', hy', hym, hyg⟩ := hback y hy
    rw [← hxm, ← hym]
    exact ht.single x' hx' y' hy' (by rw [hxg, hyg, hxy])
  · intro m k hl
    obtain ⟨x, hx, hxm, hxk⟩ := ht.entered m k hl
    rcases List.mem_cons.mp hx with rfl | hx
    · exact ⟨b, List.mem_cons_self, hm.trans hxm, hg.trans hxk⟩
    · exact ⟨x, List.mem_cons_of_mem b hx, hxm, hxk⟩
  · intro x hx
    obtain ⟨y, hy, hym, hyg⟩ := hback x hx
    rw [← hym, ← hyg]
    exact ht.stale y hy

-- =========================================================== registering

theorem Tracks.joined (ht : Tracks r live)
    (hl : r.lookup a.machine = some a.generation)
    (hj : Joined r a.generation r')
    (hs : r'.streams.getD 0 = r.streams.getD 0 + 1) :
    Tracks r' (a :: live) := by
  obtain ⟨a₀, h₀, hm₀, hg₀⟩ := ht.entered _ _ hl
  have hlook : ∀ m, r'.lookup m = r.lookup m := by
    intro m
    rw [lookup, lookup, hj.entries]
  have hclosed : ∀ k, (r'.signal k).isClosed = (r.signal k).isClosed := by
    intro k
    rw [Signal.isClosed, Signal.isClosed, hj.state]
  refine ⟨?_, single_cons ht.single fun x => ht.owned hl, ?_, ?_, ?_, ?_⟩
  · intro k
    rw [countP_cons_generation, ← ht.counted]
    by_cases hk : k = a.generation
    · rw [hk, hj.held (hg₀ ▸ ht.bounded h₀), if_pos rfl]
    · rw [hj.others k hk, if_neg hk, Nat.add_zero]
  · intro m k hmk
    rw [hlook] at hmk
    obtain ⟨x, hx, hxm⟩ := ht.entered m k hmk
    exact ⟨x, List.mem_cons_of_mem a hx, hxm⟩
  · intro x hx
    rw [hlook, hclosed]
    rcases List.mem_cons.mp hx with rfl | hx
    · exact Or.inl hl
    · exact ht.stale x hx
  · intro k hk hzero
    rw [hclosed]
    rw [hj.length] at hk
    refine ht.abandoned k hk ?_
    by_cases hka : k = a.generation
    · rw [hka, hj.held (hka ▸ hk)] at hzero
      exact absurd hzero (Nat.succ_ne_zero _)
    · rw [← hj.others k hka, hzero]
  · rw [hs, ht.gauge, List.length_cons]
    rfl

theorem Tracks.issued (ht : Tracks r live)
    (hl : ∀ g, r.lookup a.machine = some g → (r.signal g).holders = 0)
    (hg : a.generation = r.signals.length)
    (hi : Issued r a.machine r')
    (hs : r'.streams.getD 0 = r.streams.getD 0 + 1) :
    Tracks r' (a :: live) := by
  have hne : ∀ x ∈ live, x.generation ≠ a.generation := by
    intro x hx h
    have hlt := ht.bounded hx
    omega
  have hlook : ∀ m, r'.lookup m
      = if a.machine = m then some a.generation else r.lookup m := by
    intro m
    rw [lookup, hi.entries, Table.get?_set, hg]
    rfl
  have hothers : ∀ k, k ≠ a.generation → r'.signal k = r.signal k :=
    fun k hk => hi.others k (hg ▸ hk)
  have hheld : (r'.signal a.generation).holders = 1 := by
    rw [hg]
    exact hi.held
  refine ⟨?_, single_cons ht.single fun x hx h => absurd h (hne x hx),
    ?_, ?_, ?_, ?_⟩
  · intro k
    rw [countP_cons_generation, ← ht.counted]
    by_cases hk : k = a.generation
    · rw [hk, hheld, if_pos rfl,
        signal_of_length_le (Nat.le_of_eq hg.symm)]
    · rw [hothers k hk, if_neg hk, Nat.add_zero]
  · intro m k hmk
    rw [hlook] at hmk
    split at hmk
    · rename_i hm
      exact ⟨a, List.mem_cons_self, hm, Option.some.inj hmk⟩
    · obtain ⟨x, hx, hxm⟩ := ht.entered m k hmk
      exact ⟨x, List.mem_cons_of_mem a hx, hxm⟩
  · intro x hx
    rw [hlook]
    rcases List.mem_cons.mp hx with rfl | hx
    · exact Or.inl (if_pos rfl)
    · rw [hothers _ (hne x hx)]
      rcases ht.stale x hx with hxl | hxc
      · -- what stands under the machine and is held is not replaced
        rw [if_neg, hxl]
        · exact Or.inl rfl
        · intro hm
          rw [← hm] at hxl
          exact absurd (hl _ hxl) (Nat.ne_of_gt (ht.held hx))
      · exact Or.inr hxc
  · intro k hk hzero
    by_cases hka : k = a.generation
    · rw [hka, hheld] at hzero
      exact absurd hzero Nat.one_ne_zero
    · rw [hothers k hka] at hzero ⊢
      rw [hi.length, ← hg] at hk
      exact ht.abandoned k (by omega) hzero
  · rw [hs, ht.gauge, List.length_cons]
    rfl

/-- Registering adds a registration. -/
theorem Tracks.register (ht : Tracks r live)
    (h : r.register m = (.ok a, r')) : Tracks r' (a :: live) := by
  have hs := register_streams h
  obtain ⟨rfl, ⟨hl, -, -, hj⟩ | ⟨hl, hg, hi⟩⟩ := register_ok h
  · exact ht.joined hl hj hs
  · exact ht.issued hl hg hi hs

-- ============================================================ letting go

theorem Tracks.last (ht : Tracks r (a :: live)) :
    (r.signal a.generation).holders
      = (live.countP fun x => x.generation == a.generation) + 1 := by
  rw [ht.counted, countP_cons_generation, if_pos rfl]

theorem Tracks.released_signal (ht : Tracks r (a :: live)) (k : Nat) :
    (r.release a).signal k
      = if k = a.generation then r.lowered a.generation
        else r.signal k := by
  rw [release_signal]
  simp only [ht.bounded List.mem_cons_self, and_true]

/-- The entry goes with the last holder of its signal, and with no
other: an entry whose signal is held by another one stays, -/
theorem Tracks.released_lookup (ht : Tracks r (a :: live))
    (hl : r.lookup m = some g) (hb : b ∈ live) (hg : b.generation = g) :
    (r.release a).lookup m = some g := by
  rw [release_lookup, if_neg, hl]
  rintro ⟨hzero, hla, rfl⟩
  cases hl.symm.trans hla
  have hlast := ht.last
  have hpos : 0 < live.countP fun x => x.generation == a.generation :=
    List.countP_pos_iff.mpr ⟨b, hb, by simp [hg]⟩
  omega

/-- and an entry that stays is held by another one. -/
theorem Tracks.released_entry (ht : Tracks r (a :: live))
    (hl : (r.release a).lookup m = some g) :
    ∃ b ∈ live, b.machine = m ∧ b.generation = g := by
  rw [release_lookup] at hl
  split at hl
  · cases hl
  rename_i hnot
  obtain ⟨b, hb, hbm, hbg⟩ := ht.entered m g hl
  rcases List.mem_cons.mp hb with rfl | hb
  · -- the one that lets go is not the last one
    have hpos : live.countP (fun x => x.generation == b.generation)
        ≠ 0 := by
      intro hzero
      refine hnot ⟨by rw [ht.last, hzero], ?_, hbm⟩
      rw [hbm, hbg]
      exact hl
    obtain ⟨x, hx, hxg⟩ :=
      List.countP_pos_iff.mp (Nat.pos_of_ne_zero hpos)
    have hxg : x.generation = b.generation := by simpa using hxg
    refine ⟨x, hx, ?_, hxg.trans hbg⟩
    rw [← hbm]
    exact ht.single x (List.mem_cons_of_mem b hx) b List.mem_cons_self hxg
  · exact ⟨b, hb, hbm, hbg⟩

/-- Letting go takes a registration away. -/
theorem Tracks.release (ht : Tracks r (a :: live)) :
    Tracks (r.release a) live := by
  refine ⟨?_, ?_, fun m g hl => ht.released_entry hl, ?_, ?_, ?_⟩
  · intro k
    have hk := ht.counted k
    rw [countP_cons_generation] at hk
    rw [ht.released_signal]
    by_cases hka : k = a.generation
    · rw [if_pos hka, lowered_holders, ht.last, hka]
      rfl
    · rw [if_neg hka, hk, if_neg hka, Nat.add_zero]
  · intro x hx y hy
    exact ht.single x (List.mem_cons_of_mem a hx) y
      (List.mem_cons_of_mem a hy)
  · intro x hx
    rcases ht.stale x (List.mem_cons_of_mem a hx) with hl | hc
    · exact Or.inl (ht.released_lookup hl hx rfl)
    · refine Or.inr ?_
      rw [ht.released_signal]
      split
      · rename_i hxa
        exact lowered_closed (hxa ▸ hc)
      · exact hc
  · intro k hk hzero
    rw [release_length] at hk
    rw [ht.released_signal] at hzero ⊢
    split
    · rename_i hka
      rw [if_pos hka, lowered_holders] at hzero
      exact lowered_last hzero
    · rename_i hka
      rw [if_neg hka] at hzero
      exact ht.abandoned k hk hzero
  · rw [release_streams, Option.getD_some, ht.gauge, List.length_cons]
    omega

-- ====================================================== firing, removing

/-- Firing and closing change what signals say, not who holds them. -/
theorem Tracks.said (ht : Tracks r live) (hent : r'.entries = r.entries)
    (hlen : r'.signals.length = r.signals.length)
    (hstreams : r'.streams = r.streams)
    (hheld : ∀ k, (r'.signal k).holders = (r.signal k).holders)
    (hkeep : ∀ k, (r.signal k).isClosed = true →
      (r'.signal k).isClosed = true) : Tracks r' live where
  counted k := (hheld k).trans (ht.counted k)
  single := ht.single
  entered m k hl := by
    rw [lookup, hent] at hl
    exact ht.entered m k hl
  stale a ha := by
    rw [lookup, hent]
    exact (ht.stale a ha).imp_right (hkeep _)
  abandoned k hk hzero := by
    rw [hlen] at hk
    rw [hheld] at hzero
    exact hkeep k (ht.abandoned k hk hzero)
  gauge := by rw [hstreams, ht.gauge]

theorem Tracks.fire (ht : Tracks r live) (g : Nat) (allocated : Bool) :
    Tracks (r.fire g allocated).2 live := by
  refine ht.said rfl (fire_length _) rfl ?_ ?_
  · intro k
    rw [fire_signal]
    split
    · rename_i hk
      rw [Signal.fire_holders, hk.1]
    · rfl
  · intro k hk
    rw [fire_signal]
    split
    · rename_i hkg
      rw [hkg.1] at hk
      rw [Signal.fire_of_closed hk]
      exact hk
    · exact hk

theorem Tracks.close (ht : Tracks r live) (g : Nat) :
    Tracks (r.close g) live := by
  refine ht.said rfl close_length rfl ?_ ?_
  · intro k
    rw [close_signal]
    split
    · rename_i hk
      rw [Signal.close_holders, hk.1]
    · rfl
  · intro k hk
    rw [close_signal]
    split
    · exact Signal.isClosed_close _
    · exact hk

/-- Whoever still holds a signal that is taken away finds it closed. -/
theorem Tracks.remove (ht : Tracks r live) (m : String) :
    Tracks (r.remove m) live := by
  rcases r.remove_cases m with ⟨-, hr⟩ | ⟨g, hl, hr⟩
  · rw [hr]
    exact ht
  · have hc := ht.close g
    have hlook : ∀ n, (r.remove m).lookup n
        = if m = n then none else r.lookup n := by
      intro n
      rw [hr, lookup, Table.get?_erase]
      rfl
    have hsignal : ∀ k, (r.remove m).signal k = (r.close g).signal k := by
      intro k
      rw [hr]
      rfl
    refine ⟨?_, hc.single, ?_, ?_, ?_, ?_⟩
    · intro k
      rw [hsignal]
      exact hc.counted k
    · intro n k hn
      rw [hlook] at hn
      split at hn
      · cases hn
      · exact ht.entered n k hn
    · intro a ha
      rw [hlook, hsignal]
      rcases hc.stale a ha with hla | hca
      · by_cases hm : m = a.machine
        · have hag : a.generation = g :=
            Option.some.inj (hla.symm.trans (hm ▸ hl))
          have hg : g < r.signals.length := hag ▸ ht.bounded ha
          refine Or.inr ?_
          rw [hag, close_signal, if_pos (And.intro rfl hg)]
          exact Signal.isClosed_close _
        · rw [if_neg hm]
          exact Or.inl hla
      · exact Or.inr hca
    · intro k hk hzero
      rw [hsignal] at hzero ⊢
      rw [hr] at hk
      exact hc.abandoned k hk hzero
    · rw [hr]
      exact hc.gauge

-- ====================================================== a registry in use

/-- A registry, and the registrations that were made and not dropped. -/
structure InUse where
  registry : Registry := {}
  live : List Registration := []

/-- What is done with a registry. -/
inductive Act
  | register (machine : String)
  /-- A live registration, known by its place, is dropped. -/
  | drop (k : Nat)
  /-- A live registration takes note of what its signal says. -/
  | observe (k : Nat)
  /-- A signal is fired by somebody who looked it up at whatever time. -/
  | fire (generation : Nat) (allocated : Bool)
  /-- A signal is closed by somebody who looked it up. -/
  | close (generation : Nat)
  | remove (machine : String)

/-- What an act makes of a registry in use. -/
def InUse.act (u : InUse) : Act → InUse
  | .register m =>
      match u.registry.register m with
      | (.ok a, r) => ⟨r, a :: u.live⟩
      | (.error _, r) => ⟨r, u.live⟩
  | .drop k =>
      match u.live[k]? with
      | some a => ⟨u.registry.release a, u.live.eraseIdx k⟩
      | none => u
  | .observe k =>
      match u.live[k]? with
      | some a =>
          match u.registry.woken a with
          | some (_, b) => ⟨u.registry, u.live.set k b⟩
          | none => u
      | none => u
  | .fire g allocated => ⟨(u.registry.fire g allocated).2, u.live⟩
  | .close g => ⟨u.registry.close g, u.live⟩
  | .remove m => ⟨u.registry.remove m, u.live⟩

/-- A registry after a sequence of acts, the latest first. -/
def InUse.after : List Act → InUse
  | [] => {}
  | x :: xs => (InUse.after xs).act x

/-- An element of a list, before and after another one was put in its
place. -/
theorem perm_set {α : Type} {l : List α} {x : α} (hx : l[k]? = some x)
    (y : α) : l.Perm (x :: l.eraseIdx k)
      ∧ (l.set k y).Perm (y :: l.eraseIdx k) := by
  obtain ⟨hk, rfl⟩ := List.getElem?_eq_some_iff.mp hx
  refine ⟨(List.getElem_cons_eraseIdx_perm hk).symm, ?_⟩
  have hk' : k < (l.set k y).length := by
    rw [List.length_set]
    exact hk
  have hp := List.getElem_cons_eraseIdx_perm hk'
  rw [List.getElem_set_self, List.eraseIdx_set_eq] at hp
  exact hp.symm

theorem Tracks.act {u : InUse} (ht : Tracks u.registry u.live) (x : Act) :
    Tracks (u.act x).registry (u.act x).live := by
  cases x with
  | register m =>
      simp only [InUse.act]
      rcases u.registry.register_cases m with
        ⟨g, -, -, -, hr⟩ | ⟨g, a, r, -, -, -, hr, -⟩ | ⟨a, r, -, hr, -⟩
      · rw [hr]
        exact ht
      · rw [hr]
        exact ht.register hr
      · rw [hr]
        exact ht.register hr
  | drop k =>
      simp only [InUse.act]
      cases hk : u.live[k]? with
      | none => exact ht
      | some a => exact (ht.perm (perm_set hk a).1).release
  | observe k =>
      simp only [InUse.act]
      cases hk : u.live[k]? with
      | none => exact ht
      | some a =>
          simp only
          cases hw : u.registry.woken a with
          | none => exact ht
          | some x =>
              obtain ⟨wake, b⟩ := x
              obtain ⟨hb, hset⟩ := perm_set hk b
              obtain ⟨hm, hg⟩ := woken_same hw
              exact ((ht.perm hb).observed hm hg).perm hset.symm
  | fire g allocated => exact ht.fire g allocated
  | close g => exact ht.close g
  | remove m => exact ht.remove m

/-- The books are right at all times. -/
theorem tracks (xs : List Act) :
    Tracks (InUse.after xs).registry (InUse.after xs).live := by
  induction xs with
  | nil => exact tracks_empty
  | cons x xs ih => exact ih.act x

/-- A registry whose books agree with the registrations that live. -/
structure Consistent (u : InUse) : Prop where
  /-- A signal has as many holders as there are registrations on it. -/
  counted : ∀ g, (u.registry.signal g).holders
    = u.live.countP fun a => a.generation == g
  /-- Every entry has a holder. -/
  entered : ∀ m g, u.registry.lookup m = some g →
    0 < (u.registry.signal g).holders
  /-- A registration that its machine does not lead to has a final
  signal. -/
  stale : ∀ a ∈ u.live,
    u.registry.lookup a.machine ≠ some a.generation →
      (u.registry.signal a.generation).isClosed = true
  /-- A signal that its last holder has let go of is final. -/
  abandoned : ∀ g, g < u.registry.signals.length →
    (u.registry.signal g).holders = 0 →
      (u.registry.signal g).isClosed = true
  /-- Registering fails if the machine's signal was closed, and only
  then, -/
  refuses : ∀ m, (∃ e r, u.registry.register m = (.error e, r))
    ↔ ∃ g, u.registry.lookup m = some g
      ∧ (u.registry.signal g).state = .closed
  /-- and then changes nothing. -/
  refused : ∀ m e r, u.registry.register m = (.error e, r) →
    r = u.registry
  /-- The gauge counts the registrations. -/
  gauge : u.registry.streams.getD 0 = u.live.length

/-- Whatever is done with a registry, and in whatever order, its books
agree with the registrations that live. -/
theorem consistent (xs : List Act) : Consistent (InUse.after xs) where
  counted := (tracks xs).counted
  entered m g hl := (tracks xs).entry_held hl
  stale a ha hl := ((tracks xs).stale a ha).resolve_left hl
  abandoned := (tracks xs).abandoned
  refuses m := by
    constructor
    · rintro ⟨e, r, he⟩
      rcases (InUse.after xs).registry.register_cases m with
        ⟨g, hl, -, hc, -⟩ | ⟨g, a, t, -, -, -, hr, -⟩ | ⟨a, t, -, hr, -⟩
      · exact ⟨g, hl, hc⟩
      · cases hr.symm.trans he
      · cases hr.symm.trans he
    · rintro ⟨g, hl, hc⟩
      rcases (InUse.after xs).registry.register_cases m with
        ⟨-, -, -, -, hr⟩ | ⟨k, a, t, hk, -, hs, -⟩ | ⟨a, t, hzero, -⟩
      · exact ⟨_, _, hr⟩
      · cases hl.symm.trans hk
        exact absurd hc hs
      · exact absurd (hzero g hl)
          (Nat.ne_of_gt ((tracks xs).entry_held hl))
  refused m e r he := by
    rcases (InUse.after xs).registry.register_cases m with
      ⟨g, -, -, -, hr⟩ | ⟨g, a, t, -, -, -, hr, -⟩ | ⟨a, t, -, hr, -⟩
    · cases hr.symm.trans he
      rfl
    · cases hr.symm.trans he
    · cases hr.symm.trans he
  gauge := (tracks xs).gauge

end ControlPlane.Registry
