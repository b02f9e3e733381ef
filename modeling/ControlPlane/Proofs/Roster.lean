/-
Who holds the names of a bus. A name is claimed before its receive loop
is there, passes to the loop when that begins, and is given back by
whoever has it then: by the loop when it ends, or by the subscribe if it
comes to nothing. A roster is what is left of a bus when only that is
looked at.

# The invariant

The names in use are those of the claims and of the running loops, none
of them twice (`Exclusive`). Which loop gives a name back is not asked
for: it filters all occurrences out, so that one loop would take the name
from another if two had it. That there is only one is what keeps the two
sides equal (`perm_release`).

Of two loops of one name the later one began when nobody had the name, so
the earlier one had ended by then (`successive`). That is why a loop
which ended holds no name, and whoever holds it now came later
(`Exclusive.taken_over`).

# Two buses

All that a bus has to show is that whatever happens on it is one of the
moves of a roster (`Register`); the invariant and what follows from it
are then the same for both.

Chain: the base layer of SubscriptionNames.lean and of Etcd/Lobby.lean,
which read the buses as rosters.
-/
import Mathlib
import ControlPlane.Bus.Dispatcher

namespace ControlPlane

theorem Dispatcher.start_subscription {d d' : Dispatcher} {m : Envelope}
    (h : d.start = some (m, d')) : d'.subscription = d.subscription := by
  unfold start at h
  split at h
  · split at h
    · cases h
      rfl
    · cases h
  · cases h

theorem Dispatcher.accept_subscription (d : Dispatcher) (m : Envelope)
    (a : Ambient) : (d.accept m a).1.subscription = d.subscription := by
  unfold accept
  simp only
  generalize (if d.checkAge then a.now else (a.clock, a)) = na
  split <;> rfl

/-- A receive loop, by its name. -/
structure Holder where
  name : String
  ended : Bool
  deriving DecidableEq, Repr

/-- The names in use on a bus, those among them that are claimed by
subscribes under way, and all receive loops that ever were. -/
structure Roster where
  names : List String
  claims : List String := []
  loops : List Holder := []
  deriving DecidableEq, Repr

namespace Roster

/-- The names of the loops that have not ended. -/
def running (loops : List Holder) : List String :=
  (loops.filter fun x => ! x.ended).map Holder.name

-- ============================================================= one move

/-- A subscribe claims a name. -/
def claim (r : Roster) (name : String) : Roster :=
  { r with names := name :: r.names, claims := r.claims ++ [name] }

/-- A name is given back. -/
def release (r : Roster) (name : String) : Roster :=
  { r with names := r.names.filter fun n => ! decide (n = name) }

/-- A claim is over. -/
def unclaim (r : Roster) (k : Nat) : Roster :=
  { r with claims := r.claims.eraseIdx k }

/-- A receive loop begins. -/
def begin (r : Roster) (name : String) : Roster :=
  { r with loops := r.loops ++ [⟨name, false⟩] }

/-- A name is claimed, and its receive loop begins at once. -/
def join (r : Roster) (name : String) : Roster :=
  { r with
    names := name :: r.names, loops := r.loops ++ [⟨name, false⟩] }

/-- A receive loop ends. -/
def finish (r : Roster) (i : Nat) (name : String) : Roster :=
  { r with loops := r.loops.set i ⟨name, true⟩ }

/-- What can happen to a roster at once; `asked` is the name that somebody
asks for, if anybody does. -/
inductive Moves (r : Roster) (asked : Option String) : Roster → Prop
  | still : Moves r asked r
  | claimed {name : String} (ha : asked = some name)
      (hfree : name ∉ r.names) : Moves r asked (r.claim name)
  /-- A subscribe that nothing comes between. -/
  | joined {name : String} (ha : asked = some name)
      (hfree : name ∉ r.names) : Moves r asked (r.join name)
  /-- A subscribe comes to nothing. -/
  | withdrawn {k : Nat} {name : String}
      (hk : r.claims[k]? = some name) :
      Moves r asked ((r.unclaim k).release name)
  /-- The name passes to the receive loop. -/
  | settled {k : Nat} {name : String} (hk : r.claims[k]? = some name) :
      Moves r asked ((r.unclaim k).begin name)
  | ended {i : Nat} {name : String}
      (hi : r.loops[i]? = some ⟨name, false⟩) :
      Moves r asked ((r.finish i name).release name)

-- ==================================================== the running loops

variable {r r' : Roster} {names rest : List String} {name : String}
  {asked : Option String} {loops : List Holder} {i k : Nat}

theorem mem_running : name ∈ running loops
    ↔ ∃ i : Nat, loops[i]? = some ⟨name, false⟩ := by
  unfold running
  rw [List.mem_map]
  constructor
  · rintro ⟨⟨n, e⟩, hx, rfl⟩
    obtain ⟨hmem, he⟩ := List.mem_filter.mp hx
    obtain rfl : e = false := by simpa using he
    exact List.mem_iff_getElem?.mp hmem
  · rintro ⟨i, hi⟩
    exact ⟨_, List.mem_filter.mpr ⟨List.mem_of_getElem? hi, rfl⟩, rfl⟩

theorem running_map {α : Type} (f : α → Holder) (l : List α) :
    running (l.map f)
      = (l.filter fun x => ! (f x).ended).map fun x => (f x).name := by
  rw [running, List.filter_map, List.map_map]
  rfl

/-- A loop that ends is missing among the running ones, and nothing
else is. -/
theorem running_ended (hi : loops[i]? = some ⟨name, false⟩) :
    (running loops).Perm
      (name :: running (loops.set i ⟨name, true⟩)) := by
  induction loops generalizing i with
  | nil => cases hi
  | cons x loops ih =>
      cases i with
      | zero =>
          cases hi
          exact List.Perm.refl _
      | succ i =>
          have hrest := ih hi
          obtain ⟨n, ended⟩ := x
          cases ended with
          | true => exact hrest
          | false => exact (hrest.cons n).trans (List.Perm.swap name n _)

/-- Giving back a name that is in use once leaves the others. -/
theorem perm_release (h : names.Perm (name :: rest)) (hn : names.Nodup) :
    (names.filter fun n => ! decide (n = name)).Perm rest := by
  have hnot : name ∉ rest := (List.nodup_cons.mp (h.nodup_iff.mp hn)).1
  refine (h.filter _).trans ?_
  rw [List.filter_cons_of_neg (by simp), List.filter_eq_self.mpr]
  intro n hmem
  have hne : n ≠ name := fun heq => hnot (heq ▸ hmem)
  simpa using hne

theorem map_get? {α : Type} (f : α → Holder) {l : List α} {x : α}
    (hx : l[i]? = some x) : (l.map f)[i]? = some (f x) := by
  rw [List.getElem?_map, hx]
  rfl

theorem of_map_get? {α : Type} {f : α → Holder} {l : List α} {y : Holder}
    (hi : (l.map f)[i]? = some y) : ∃ x, l[i]? = some x ∧ f x = y := by
  rw [List.getElem?_map] at hi
  exact Option.map_eq_some_iff.mp hi

/-- Holders read off a list whose entries change one at a time. -/
theorem map_modify {α : Type} {f : α → Holder} {g : α → α} {l : List α}
    {x : α} (hx : l[i]? = some x) :
    (l.modify i g).map f = (l.map f).set i (f (g x)) := by
  rw [List.modify_eq_set_getElem?, hx, ← List.map_set]
  rfl

/-- Nobody takes note of what does not concern the name. -/
theorem map_modify_same {α : Type} {f : α → Holder} {g : α → α}
    {l : List α} (h : ∀ x, l[i]? = some x → f (g x) = f x) :
    (l.modify i g).map f = l.map f := by
  apply List.ext_getElem?
  intro j
  rw [List.getElem?_map, List.getElem?_map, List.getElem?_modify]
  split
  · rename_i hij
    subst hij
    cases hx : l[i]? with
    | none => rfl
    | some x => exact congrArg some (h x hx)
  · simp

-- ======================================================== the invariant

/-- Names are held by one each. -/
structure Exclusive (r : Roster) : Prop where
  /-- In use are the names of the claims and of the running loops, -/
  held : r.names.Perm (r.claims ++ running r.loops)
  /-- each once. -/
  once : r.names.Nodup
  /-- Of two loops with one name, the earlier one has ended. -/
  successive : ∀ {i j : Nat} {x y : Holder}, i < j →
    r.loops[i]? = some x → r.loops[j]? = some y → x.name = y.name →
      x.ended = true

theorem exclusive_empty : Exclusive { names := [] } where
  held := List.Perm.refl _
  once := List.nodup_nil
  successive _ hi := by cases hi

namespace Exclusive

variable (hr : r.Exclusive)

include hr

theorem mem_names : name ∈ r.names
    ↔ name ∈ r.claims ∨ ∃ i : Nat, r.loops[i]? = some ⟨name, false⟩ := by
  rw [hr.held.mem_iff, List.mem_append, mem_running]

/-- A name that is claimed has no loop. -/
theorem claimed_alone (hc : name ∈ r.claims) :
    name ∉ running r.loops := by
  have hnodup := hr.held.nodup_iff.mp hr.once
  exact fun hrun => List.disjoint_of_nodup_append hnodup hc hrun

/-- No two loops that run have one name. -/
theorem alone {j : Nat} (hi : r.loops[i]? = some ⟨name, false⟩)
    (hj : r.loops[j]? = some ⟨name, false⟩) : i = j := by
  rcases Nat.lt_trichotomy i j with hlt | heq | hlt
  · cases hr.successive hlt hi hj rfl
  · exact heq
  · cases hr.successive hlt hj hi rfl

/-- A name that one of its loops has given back is in use again only by
somebody who came later. -/
theorem taken_over (hi : r.loops[i]? = some ⟨name, true⟩)
    (hname : name ∈ r.names) : name ∈ r.claims
      ∨ ∃ j, i < j ∧ r.loops[j]? = some ⟨name, false⟩ := by
  rcases hr.mem_names.mp hname with hc | ⟨j, hj⟩
  · exact Or.inl hc
  · refine Or.inr ⟨j, ?_, hj⟩
    rcases Nat.lt_trichotomy i j with hlt | rfl | hlt
    · exact hlt
    · cases hi.symm.trans hj
    · cases hr.successive hlt hj hi rfl

theorem claimed (hfree : name ∉ r.names) : (r.claim name).Exclusive where
  held := by
    show (name :: r.names).Perm (r.claims ++ [name] ++ running r.loops)
    rw [List.append_assoc]
    exact (hr.held.cons name).trans List.perm_middle.symm
  once := List.nodup_cons.mpr ⟨hfree, hr.once⟩
  successive := hr.successive

theorem withdrawn (hk : r.claims[k]? = some name) :
    ((r.unclaim k).release name).Exclusive where
  held := by
    obtain ⟨hlt, hget⟩ := List.getElem?_eq_some_iff.mp hk
    have hperm := (List.getElem_cons_eraseIdx_perm hlt).symm
    rw [hget] at hperm
    exact perm_release (hr.held.trans (hperm.append_right _)) hr.once
  once := hr.once.filter _
  successive := hr.successive

theorem settled (hk : r.claims[k]? = some name) :
    ((r.unclaim k).begin name).Exclusive where
  held := by
    obtain ⟨hlt, hget⟩ := List.getElem?_eq_some_iff.mp hk
    have hperm := (List.getElem_cons_eraseIdx_perm hlt).symm
    rw [hget] at hperm
    have hrun : running (r.loops ++ [⟨name, false⟩])
        = running r.loops ++ [name] := by
      simp [running]
    show r.names.Perm (r.claims.eraseIdx k ++ running (r.loops ++ _))
    rw [hrun, ← List.append_assoc]
    exact (hr.held.trans (hperm.append_right _)).trans
      (List.perm_append_singleton name _).symm
  once := hr.once
  successive := by
    intro i j x y hij hi hj hxy
    have hi : (r.loops ++ [⟨name, false⟩])[i]? = some x := hi
    have hj : (r.loops ++ [⟨name, false⟩])[j]? = some y := hj
    obtain ⟨hlen, -⟩ := List.getElem?_eq_some_iff.mp hj
    rw [List.length_append, List.length_singleton] at hlen
    rw [List.getElem?_append_left (by omega)] at hi
    by_cases hold : j < r.loops.length
    · rw [List.getElem?_append_left hold] at hj
      exact hr.successive hij hi hj hxy
    · -- the new loop has a name that was claimed until now
      rw [List.getElem?_append_right (by omega)] at hj
      have hy := List.mem_singleton.mp (List.mem_of_getElem? hj)
      obtain ⟨n, ended⟩ := x
      cases ended with
      | true => rfl
      | false =>
          rw [hy] at hxy
          cases hxy
          exact absurd (mem_running.mpr ⟨i, hi⟩)
            (hr.claimed_alone (List.mem_of_getElem? hk))

/-- To join is to claim a name and to settle it. -/
theorem joined (hfree : name ∉ r.names) : (r.join name).Exclusive := by
  have hlast : (r.claim name).claims[r.claims.length]? = some name :=
    List.getElem?_concat_length
  have heq : ((r.claim name).unclaim r.claims.length).begin name
      = r.join name := by
    simp [claim, unclaim, begin, join, List.eraseIdx_append_of_length_le]
  exact heq ▸ (hr.claimed hfree).settled hlast

theorem ended (hi : r.loops[i]? = some ⟨name, false⟩) :
    ((r.finish i name).release name).Exclusive where
  held := by
    refine perm_release (hr.held.trans ?_) hr.once
    exact ((running_ended hi).append_left _).trans List.perm_middle
  once := hr.once.filter _
  successive := by
    intro j k x y hjk hj hk hxy
    have hj : (r.loops.set i ⟨name, true⟩)[j]? = some x := hj
    have hk : (r.loops.set i ⟨name, true⟩)[k]? = some y := hk
    -- a loop keeps its name, and what has ended stays so
    have before : ∀ {m : Nat} {z : Holder},
        (r.loops.set i ⟨name, true⟩)[m]? = some z →
          ∃ w, r.loops[m]? = some w ∧ w.name = z.name
            ∧ (w.ended = true → z.ended = true) := by
      intro m z hm
      rw [List.getElem?_set] at hm
      split at hm
      · rename_i him
        subst him
        split at hm
        · cases hm
          exact ⟨_, hi, rfl, fun _ => rfl⟩
        · cases hm
      · exact ⟨z, hm, rfl, id⟩
    obtain ⟨v, hv, hvx, hended⟩ := before hj
    obtain ⟨w, hw, hwy, -⟩ := before hk
    exact hended (hr.successive hjk hv hw (hvx.trans (hxy.trans hwy.symm)))

theorem moved (hm : r.Moves asked r') : r'.Exclusive := by
  cases hm with
  | still => exact hr
  | claimed _ hfree => exact hr.claimed hfree
  | joined _ hfree => exact hr.joined hfree
  | withdrawn hk => exact hr.withdrawn hk
  | settled hk => exact hr.settled hk
  | ended hi => exact hr.ended hi

end Exclusive

-- ======================================================== giving it back

/-- A loop has the name, or has given it back and nobody has it. -/
def Kept (r : Roster) (i : Nat) (name : String) : Prop :=
  r.loops[i]? = some ⟨name, false⟩
    ∨ r.loops[i]? = some ⟨name, true⟩ ∧ name ∉ r.names

theorem not_mem_release : name ∉ (r.release name).names := by
  intro hmem
  simpa using (List.mem_filter.mp hmem).2

/-- As long as nobody asks for the name of a loop, it is the loop's or
nobody's. -/
theorem Moves.kept (hm : r.Moves asked r') (hasked : asked ≠ some name)
    (h : r.Kept i name) : r'.Kept i name := by
  -- a loop that joins is behind the others
  have behind : ∀ {x y : Holder}, r.loops[i]? = some x →
      (r.loops ++ [y])[i]? = some x := by
    intro x y hx
    rw [List.getElem?_append_left (List.getElem?_eq_some_iff.mp hx).1, hx]
  have other : ∀ {n : String}, asked = some n → name ∉ r.names →
      name ∉ n :: r.names := by
    intro n hn hname hmem
    rcases List.mem_cons.mp hmem with rfl | hmem
    · exact hasked hn
    · exact hname hmem
  have fewer : ∀ {n : String}, name ∉ r.names →
      name ∉ (r.release n).names :=
    fun hname hmem => hname (List.mem_filter.mp hmem).1
  cases hm with
  | still => exact h
  | claimed ha hfree =>
      exact h.imp id fun ⟨hi, hname⟩ => ⟨hi, other ha hname⟩
  | joined ha hfree =>
      exact h.imp behind fun ⟨hi, hname⟩ => ⟨behind hi, other ha hname⟩
  | withdrawn hk =>
      exact h.imp id fun ⟨hi, hname⟩ => ⟨hi, fewer hname⟩
  | settled hk =>
      exact h.imp behind fun ⟨hi, hname⟩ => ⟨behind hi, hname⟩
  | @ended j n hj =>
      by_cases hij : j = i
      · subst hij
        rcases h with hi | ⟨hi, -⟩
        · cases hj.symm.trans hi
          refine Or.inr ⟨?_, not_mem_release⟩
          exact List.getElem?_set_self (List.getElem?_eq_some_iff.mp hj).1
        · cases hj.symm.trans hi
      · have hother : (r.loops.set j ⟨n, true⟩)[i]? = r.loops[i]? :=
          List.getElem?_set_ne hij
        exact h.imp hother.trans
          fun ⟨hi, hname⟩ => ⟨hother.trans hi, fewer hname⟩

end Roster

-- ================================================================ buses

/-- Something on which names are held as on a roster, whatever is done. -/
structure Register (σ α : Type) where
  roster : σ → Roster
  act : σ → α → σ
  /-- The name that is asked for with an act. -/
  asks : α → Option String
  moves : ∀ s x, (roster s).Moves (asks x) (roster (act s x))

namespace Register

variable {σ α : Type} {R : Register σ α} {s : σ} {i : Nat}
  {name : String}

/-- What is left behind by acts, the latest first. -/
def acted (R : Register σ α) (s : σ) : List α → σ
  | [] => s
  | x :: l => R.act (R.acted s l) x

theorem exclusive (hs : (R.roster s).Exclusive) (l : List α) :
    (R.roster (R.acted s l)).Exclusive := by
  induction l with
  | nil => exact hs
  | cons x l ih => exact ih.moved (R.moves _ x)

theorem kept (hs : (R.roster s).Kept i name) {l : List α}
    (hl : ∀ x ∈ l, R.asks x ≠ some name) :
    (R.roster (R.acted s l)).Kept i name := by
  induction l with
  | nil => exact hs
  | cons x l ih =>
      exact (R.moves _ x).kept (hl x List.mem_cons_self)
        (ih fun y hy => hl y (List.mem_cons_of_mem x hy))

/-- When a loop has ended and nobody asked for its name meanwhile, the
name is free. -/
theorem freed (hs : (R.roster s).loops[i]? = some ⟨name, false⟩)
    {l : List α} (hl : ∀ x ∈ l, R.asks x ≠ some name) {x : Holder}
    (hx : (R.roster (R.acted s l)).loops[i]? = some x)
    (hend : x.ended = true) : name ∉ (R.roster (R.acted s l)).names := by
  rcases kept (Or.inl hs) hl with hi | ⟨-, hname⟩
  · cases hx.symm.trans hi
    cases hend
  · exact hname

end Register

end ControlPlane
