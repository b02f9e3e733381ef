/-
What a holder hears of its signal. A signal keeps only its latest state,
and those who hold it are told of a change when they next ask, of several
at once by the last; they come late, let go, and ask when they like. All
the same a signal is fired for an allocation once at most, each of its
holders is told of that whatever happens to the signal afterwards, and
nobody is told more often than the signal changed (`one_shot`).

# What carries it

A signal counts its changes, and a registration remembers the count that
it has seen. An act leaves what a signal says or sets it anew, which a
final one does not mind (`Touched`), so that counts no further. Whoever
has seen as much as there is to see of an allocated signal saw it after
it was fired, which is the invariant of a registration (`Minds`): firing
takes the count past what anybody has seen, and who joins later is taken
to have seen one change less than there were.

# The identity of a registration

Other registrations come and go, so a registration is known by its number
among all that were ever made (`Roll`), not by its place among those that
are alive.

Chain: over Registrations.lean, whose acts are used again.
-/
import ControlPlane.Proofs.Registrations

namespace ControlPlane

-- ============================================================ one signal

namespace Signal

/-- Setting the state of a signal that is not final is a change. -/
theorem advance_version (s : Signal) (next : Wake) :
    (s.advance next).2.version
      = s.version + if s.isClosed then 0 else 1 := by
  unfold advance isClosed
  cases s.state.isFinal <;> rfl

/-- A final signal stays as it is. -/
theorem advance_of_closed {s : Signal} (h : s.isClosed = true)
    (next : Wake) : (s.advance next).2 = s := by
  unfold isClosed at h
  unfold advance
  rw [if_pos h]

/-- Two signals that say the same; who holds them is not said. -/
structure Alike (s t : Signal) : Prop where
  state : s.state = t.state
  version : s.version = t.version

/-- A signal says nothing exactly as long as it was never set. -/
def Fresh (s : Signal) : Prop := s.state = .pending ↔ s.version = 0

theorem Fresh.advance {s : Signal} (h : s.Fresh) {next : Wake}
    (hnext : next ≠ .pending) : (s.advance next).2.Fresh := by
  unfold Signal.advance
  split
  · exact h
  · exact ⟨fun hs => absurd hs hnext, fun hv => nomatch hv⟩

theorem Fresh.alike {s t : Signal} (h : t.Fresh) (hs : s.Alike t) :
    s.Fresh := by
  unfold Fresh
  rw [hs.state, hs.version]
  exact h

end Signal

namespace Registry

-- =========================================================== the signals

section Signals

variable {r r' : Registry} {m : String} {g k : Nat} {a : Registration}

/-- The last holder closes the signal that it lets go of, -/
theorem lowered_shut (h : (r.signal g).holders ≤ 1) :
    (r.lowered g).Alike (r.signal g).close := by
  have hlast : (r.signal g).holders - 1 = 0 := by omega
  unfold lowered Signal.close Signal.advance
  rw [if_pos hlast]
  cases (r.signal g).state.isFinal <;> exact ⟨rfl, rfl⟩

/-- and any other leaves what it says. -/
theorem lowered_more (h : ¬ (r.signal g).holders ≤ 1) :
    (r.lowered g).Alike (r.signal g) := by
  have hmore : ¬ (r.signal g).holders - 1 = 0 := by omega
  unfold lowered
  rw [if_neg hmore]
  exact ⟨rfl, rfl⟩

/-- What a registration leaves of what signals say, and what it takes for
seen: all but a state that tells something. -/
structure Tuned (r : Registry) (a : Registration) (r' : Registry) :
    Prop where
  kept : ∀ k, (r'.signal k).version = (r.signal k).version
  seen : a.seen = if (r.signal a.generation).state = .pending then
      (r.signal a.generation).version
    else (r.signal a.generation).version - 1
  known : a.generation < r'.signals.length

/-- Taking hold of a signal counts up its holders only. -/
theorem hold_tuned (m : String) (hg : g < r.signals.length) :
    Tuned r (r.hold m g).1 (r.hold m g).2 where
  kept k := by
    show ((r.setSignal g (r.signal g).acquire.2).signal k).version = _
    rw [signal_setSignal]
    split
    · rename_i hk
      rw [hk.1]
      rfl
    · rfl
  seen := rfl
  known := by
    show g < (r.setSignal g (r.signal g).acquire.2).signals.length
    rw [setSignal_length]
    exact hg

theorem issue_tuned (r : Registry) (m : String) :
    Tuned r ((r.issue m).2.hold m (r.issue m).1).1
      ((r.issue m).2.hold m (r.issue m).1).2 := by
  have hlt : (r.issue m).1 < (r.issue m).2.signals.length := by
    show r.signals.length < (r.signals ++ [({} : Signal)]).length
    rw [List.length_append]
    exact Nat.lt_succ_self _
  obtain ⟨hkept, hseen, hknown⟩ := hold_tuned m hlt
  refine ⟨fun k => ?_, ?_, hknown⟩
  · rw [hkept, issue_signal]
  · rw [hseen, issue_signal]

theorem register_tuned (h : r.register m = (.ok a, r')) :
    Tuned r a r' := by
  unfold register at h
  cases hl : r.lookup m with
  | none =>
      rw [hl] at h
      cases h
      exact issue_tuned r m
  | some g =>
      rw [hl] at h
      by_cases hh : (r.signal g).holders = 0
      · simp only [if_pos hh] at h
        cases h
        exact issue_tuned r m
      · by_cases hc : (r.signal g).state = .closed
        · simp only [if_neg hh, if_pos hc] at h
          cases h
        · simp only [if_neg hh, if_neg hc] at h
          cases h
          refine hold_tuned m (Nat.lt_of_not_le fun hle => hh ?_)
          -- a signal that was never issued has no holder
          rw [signal_of_length_le hle]

theorem register_state (h : r.register m = (.ok a, r')) (k : Nat) :
    (r'.signal k).state = (r.signal k).state := by
  obtain ⟨-, ⟨-, -, -, hj⟩ | ⟨-, -, hi⟩⟩ := register_ok h
  · exact hj.state k
  · by_cases hk : k = r.signals.length
    · rw [hk, hi.fresh, signal_of_length_le (Nat.le_refl _)]
    · rw [hi.others k hk]

/-- Who takes hold of a signal that says something has not seen all of
it. -/
theorem Tuned.unseen (ht : Tuned r a r')
    (hf : (r.signal a.generation).Fresh)
    (hs : (r.signal a.generation).state ≠ .pending) :
    a.seen + 1 = (r.signal a.generation).version := by
  have hpos : (r.signal a.generation).version ≠ 0 :=
    fun hzero => hs (hf.mpr hzero)
  have hseen := ht.seen
  rw [if_neg hs] at hseen
  omega

theorem Tuned.le (ht : Tuned r a r') :
    a.seen ≤ (r.signal a.generation).version := by
  rw [ht.seen]
  split
  · exact Nat.le_refl _
  · exact Nat.sub_le _ _

/-- What a holder is woken with, and that it has seen it then. -/
theorem woken_seen {b : Registration} {wake : Wake}
    (hw : r.woken a = some (wake, b)) :
    a.seen ≠ (r.signal a.generation).version
      ∧ wake = (r.signal a.generation).state
      ∧ b.generation = a.generation
      ∧ b.seen = (r.signal a.generation).version := by
  simp only [woken] at hw
  split at hw
  · cases hw
  · rename_i hseen
    cases hw
    exact ⟨hseen, rfl, rfl, rfl⟩

end Signals

-- ================================================== registrations by number

/-- A registry, and all registrations that were ever made with it, in
their order; one that was dropped is `none`. -/
structure Roll where
  registry : Registry := {}
  holds : List (Option Registration) := []

namespace Roll

/-- The registration of a number, while it is alive. -/
def hold (u : Roll) (n : Nat) : Option Registration := u.holds[n]?.join

/-- What a registration would be told if it asked now; `none` if it
would have to wait. -/
def next (u : Roll) (n : Nat) : Option Wake :=
  (u.hold n).bind fun a => (u.registry.woken a).map Prod.fst

/-- What an act makes of the roll; registrations are meant by their
numbers. -/
def act (u : Roll) : Act → Roll
  | .register m =>
      match u.registry.register m with
      | (.ok a, r) => ⟨r, u.holds ++ [some a]⟩
      | (.error _, r) => ⟨r, u.holds⟩
  | .drop n =>
      match u.hold n with
      | some a => ⟨u.registry.release a, u.holds.set n none⟩
      | none => u
  | .observe n =>
      match u.hold n with
      | some a =>
          match u.registry.woken a with
          | some (_, b) => ⟨u.registry, u.holds.set n (some b)⟩
          | none => u
      | none => u
  | .fire g allocated => ⟨(u.registry.fire g allocated).2, u.holds⟩
  | .close g => ⟨u.registry.close g, u.holds⟩
  | .remove m => ⟨u.registry.remove m, u.holds⟩

/-- The roll after a sequence of acts, the latest first. -/
def after : List Act → Roll
  | [] => {}
  | x :: xs => (after xs).act x

/-- What an act tells a registration: `woken` calls are the acts
`observe`. -/
def tells (u : Roll) (n : Nat) : Act → Option Wake
  | .observe k => if k = n then u.next n else none
  | _ => none

/-- What a registration was told, in that order. -/
def told (n : Nat) : List Act → List Wake
  | [] => []
  | x :: xs => told n xs ++ ((after xs).tells n x).toList

/-- Does an act fire a signal for an allocation, with success?  Nobody
has a signal that was not issued yet. -/
def fires (u : Roll) (g : Nat) : Act → Bool
  | .fire k true =>
      k == g && decide (g < u.registry.signals.length)
        && (u.registry.fire k true).1
  | _ => false

/-- How often a signal was fired for an allocation with success. -/
def firings (g : Nat) : List Act → Nat
  | [] => 0
  | x :: xs => firings g xs + if (after xs).fires g x then 1 else 0

/-- Is an act about a signal: does it fire or close it, take it away, or
let go of it last? -/
def concerns (u : Roll) (g : Nat) : Act → Bool
  | .fire k _ => k == g
  | .close k => k == g
  | .remove m => u.registry.lookup m == some g
  | .drop n => (u.hold n).any fun a =>
      a.generation == g && decide ((u.registry.signal g).holders ≤ 1)
  | _ => false

/-- Does an act change a signal?  Nothing changes a final one. -/
def changes (u : Roll) (g : Nat) (x : Act) : Bool :=
  ! (u.registry.signal g).isClosed && u.concerns g x

/-- How often a signal was changed by the acts `l` behind the acts
`p`. -/
def changed (g : Nat) (p : List Act) : List Act → Nat
  | [] => 0
  | x :: l =>
      changed g p l + if (after (l ++ p)).changes g x then 1 else 0

variable {u v : Roll} {x : Act} {g k n : Nat} {m : String}
  {a b : Registration} {p l h : List Act}

-- ============================================================= one act

theorem hold_append (u : Roll) (r : Registry) (a : Registration)
    (n : Nat) :
    (Roll.mk r (u.holds ++ [some a])).hold n
      = if n = u.holds.length then some a else u.hold n := by
  unfold hold
  show ((u.holds ++ [some a])[n]?).join = _
  by_cases hn : n = u.holds.length
  · rw [if_pos hn, hn, List.getElem?_concat_length]
    rfl
  · rw [if_neg hn, List.getElem?_append]
    split
    · rfl
    · rename_i hlt
      rw [List.getElem?_eq_none (by simp; omega),
        List.getElem?_eq_none (by omega)]

theorem hold_lt (ha : u.hold n = some a) : n < u.holds.length := by
  unfold hold at ha
  by_cases hn : n < u.holds.length
  · exact hn
  · rw [List.getElem?_eq_none (Nat.le_of_not_lt hn)] at ha
    cases ha

theorem hold_set (ha : u.hold k = some a) (r : Registry)
    (o : Option Registration) (n : Nat) :
    (Roll.mk r (u.holds.set k o)).hold n
      = if k = n then o else u.hold n := by
  unfold hold
  show ((u.holds.set k o)[n]?).join = _
  rw [List.getElem?_set]
  by_cases hk : k = n
  · rw [if_pos hk, if_pos hk, if_pos (hold_lt ha)]
    rfl
  · rw [if_neg hk, if_neg hk]

/-- What an act can be. -/
inductive Did (u : Roll) : Act → Roll → Prop
  | registered {m : String} {a : Registration} {r : Registry}
      (hr : u.registry.register m = (.ok a, r)) :
      Did u (.register m) ⟨r, u.holds ++ [some a]⟩
  | refused {m : String} : Did u (.register m) u
  | dropped {n : Nat} {a : Registration} (ha : u.hold n = some a) :
      Did u (.drop n) ⟨u.registry.release a, u.holds.set n none⟩
  /-- There is no registration of that number. -/
  | missed {n : Nat} (ha : u.hold n = none) : Did u (.drop n) u
  | observed {n : Nat} {a b : Registration} {wake : Wake}
      (ha : u.hold n = some a) (hw : u.registry.woken a = some (wake, b)) :
      Did u (.observe n) ⟨u.registry, u.holds.set n (some b)⟩
  | waits {n : Nat} (hn : u.next n = none) : Did u (.observe n) u
  | fired {g : Nat} {allocated : Bool} :
      Did u (.fire g allocated) ⟨(u.registry.fire g allocated).2, u.holds⟩
  | closed {g : Nat} : Did u (.close g) ⟨u.registry.close g, u.holds⟩
  | removed {m : String} : Did u (.remove m) ⟨u.registry.remove m, u.holds⟩

theorem did (u : Roll) (x : Act) : Did u x (u.act x) := by
  cases x with
  | register m =>
      simp only [act]
      rcases u.registry.register_cases m with
        ⟨g, -, -, -, hr⟩ | ⟨g, a, r, -, -, -, hr, -⟩
          | ⟨a, r, -, hr, -⟩
      · rw [hr]
        exact .refused
      · rw [hr]
        exact .registered hr
      · rw [hr]
        exact .registered hr
  | drop n =>
      simp only [act]
      cases ha : u.hold n with
      | some a => exact .dropped ha
      | none => exact .missed ha
  | observe n =>
      simp only [act]
      cases ha : u.hold n with
      | none => exact .waits (by simp only [next, ha, Option.bind_none])
      | some a =>
          simp only
          cases hw : u.registry.woken a with
          | some w => exact .observed ha hw
          | none =>
              refine .waits ?_
              simp only [next, ha, Option.bind_some, hw, Option.map_none]
  | fire g allocated => exact .fired
  | close g => exact .closed
  | remove m => exact .removed

theorem remove_signal (r : Registry) (m : String) (k : Nat) :
    (r.remove m).signal k
      = if r.lookup m = some k ∧ k < r.signals.length then
          (r.signal k).close
        else r.signal k := by
  rcases r.remove_cases m with ⟨hl, hr⟩ | ⟨g, hl, hr⟩
  · rw [hr, hl, if_neg (fun h => nomatch h.1)]
  · rw [hr, hl]
    show (r.close g).signal k = _
    rw [close_signal]
    by_cases hk : k = g
    · subst hk
      simp only [true_and]
    · rw [if_neg (fun h => hk h.1),
        if_neg (fun h => hk (Option.some.inj h.1).symm)]

theorem Did.length_le (h : Did u x v) :
    u.registry.signals.length ≤ v.registry.signals.length := by
  cases h with
  | registered hr =>
      obtain ⟨-, ⟨-, -, -, hj⟩ | ⟨-, -, hi⟩⟩ := register_ok hr
      · exact Nat.le_of_eq hj.length.symm
      · exact Nat.le_of_lt (Nat.lt_of_lt_of_eq (Nat.lt_succ_self _)
          hi.length.symm)
  | dropped => exact Nat.le_of_eq (release_length _ _).symm
  | fired => exact Nat.le_of_eq (fire_length _).symm
  | closed => exact Nat.le_of_eq close_length.symm
  | @removed m =>
      rcases u.registry.remove_cases m with ⟨-, hr⟩ | ⟨g, -, hr⟩
      · exact Nat.le_of_eq (congrArg (·.signals.length) hr).symm
      · rw [hr]
        exact Nat.le_of_eq close_length.symm
  | _ => exact Nat.le_refl _

/-- Numbers are not given out twice. -/
theorem Did.numbers (h : Did u x v) : u.holds.length ≤ v.holds.length := by
  cases h with
  | registered => exact (List.sublist_append_left _ _).length_le
  | dropped => exact Nat.le_of_eq List.length_set.symm
  | observed => exact Nat.le_of_eq List.length_set.symm
  | _ => exact Nat.le_refl _

/-- What an act does to a signal, as far as can be heard of it. -/
inductive Touched (u : Roll) (g : Nat) (x : Act) (s : Signal) : Prop
  | kept (hx : u.concerns g x = false)
      (hs : s.Alike (u.registry.signal g)) : Touched u g x s
  /-- There is no such signal yet. -/
  | absent (hg : u.registry.signals.length ≤ g)
      (hs : s.Alike (u.registry.signal g)) : Touched u g x s
  | advanced {next : Wake} (hnext : next ≠ .pending)
      (hx : u.concerns g x = true)
      (hs : s.Alike ((u.registry.signal g).advance next).2) :
      Touched u g x s

theorem Touched.closed {s : Signal} (hx : u.concerns g x = true)
    (hs : s.Alike (u.registry.signal g).close) : Touched u g x s :=
  .advanced (show Wake.closed ≠ .pending from nofun) hx hs

theorem Did.touched (h : Did u x v) (g : Nat) :
    Touched u g x (v.registry.signal g) := by
  cases h with
  | registered hr =>
      exact .kept rfl ⟨register_state hr g, (register_tuned hr).kept g⟩
  | refused => exact .kept rfl ⟨rfl, rfl⟩
  | @dropped n a ha =>
      rw [release_signal]
      by_cases hk : a.generation = g
      · subst hk
        by_cases hg : a.generation < u.registry.signals.length
        · rw [if_pos ⟨rfl, hg⟩]
          by_cases hlast : (u.registry.signal a.generation).holders ≤ 1
          · exact .closed (by simp [concerns, ha, hlast])
              (lowered_shut hlast)
          · exact .kept (by simpa [concerns, ha] using hlast)
              (lowered_more hlast)
        · rw [if_neg (fun h => hg h.2)]
          exact .absent (Nat.le_of_not_lt hg) ⟨rfl, rfl⟩
      · rw [if_neg (fun h => hk h.1.symm)]
        exact .kept (by simp [concerns, ha, hk]) ⟨rfl, rfl⟩
  | missed ha => exact .kept (by simp [concerns, ha]) ⟨rfl, rfl⟩
  | observed => exact .kept rfl ⟨rfl, rfl⟩
  | waits => exact .kept rfl ⟨rfl, rfl⟩
  | @fired k allocated =>
      rw [fire_signal]
      by_cases hk : k = g
      · subst hk
        by_cases hg : k < u.registry.signals.length
        · rw [if_pos ⟨rfl, hg⟩]
          exact .advanced (by cases allocated <;> nofun)
            (beq_self_eq_true k) ⟨rfl, rfl⟩
        · rw [if_neg (fun h => hg h.2)]
          exact .absent (Nat.le_of_not_lt hg) ⟨rfl, rfl⟩
      · rw [if_neg (fun h => hk h.1.symm)]
        exact .kept (beq_false_of_ne hk) ⟨rfl, rfl⟩
  | @closed k =>
      rw [close_signal]
      by_cases hk : k = g
      · subst hk
        by_cases hg : k < u.registry.signals.length
        · rw [if_pos ⟨rfl, hg⟩]
          exact .closed (beq_self_eq_true k) ⟨rfl, rfl⟩
        · rw [if_neg (fun h => hg h.2)]
          exact .absent (Nat.le_of_not_lt hg) ⟨rfl, rfl⟩
      · rw [if_neg (fun h => hk h.1.symm)]
        exact .kept (beq_false_of_ne hk) ⟨rfl, rfl⟩
  | @removed m =>
      rw [remove_signal]
      by_cases hk : u.registry.lookup m = some g
      · by_cases hg : g < u.registry.signals.length
        · rw [if_pos ⟨hk, hg⟩]
          exact .closed (beq_iff_eq.mpr hk) ⟨rfl, rfl⟩
        · rw [if_neg (fun h => hg h.2)]
          exact .absent (Nat.le_of_not_lt hg) ⟨rfl, rfl⟩
      · rw [if_neg (fun h => hk h.1)]
        exact .kept (beq_false_of_ne hk) ⟨rfl, rfl⟩

namespace Touched

variable {s : Signal}

/-- A final signal is never changed. -/
theorem final (ht : Touched u g x s)
    (hc : (u.registry.signal g).isClosed = true) :
    s.state = (u.registry.signal g).state := by
  cases ht with
  | kept hx hs => exact hs.state
  | absent hg hs => exact hs.state
  | advanced hnext hx hs => rw [hs.state, Signal.advance_of_closed hc]

/-- An act that does not change a signal leaves what it says. -/
theorem unchanged (ht : Touched u g x s) (hx : u.changes g x = false) :
    s.state = (u.registry.signal g).state := by
  cases ht with
  | kept _ hs => exact hs.state
  | absent hg hs => exact hs.state
  | advanced hnext hconcerns hs =>
      have hc : (u.registry.signal g).isClosed = true := by
        simpa [changes, hconcerns] using hx
      rw [hs.state, Signal.advance_of_closed hc]

/-- A signal counts its changes. -/
theorem version (ht : Touched u g x s)
    (hg : g < u.registry.signals.length) :
    s.version = (u.registry.signal g).version
      + if u.changes g x then 1 else 0 := by
  unfold changes
  cases ht with
  | kept hx hs =>
      rw [hs.version, hx, Bool.and_false]
      rfl
  | absent hge hs => exact absurd hg (Nat.not_lt.mpr hge)
  | advanced hnext hx hs =>
      rw [hs.version, Signal.advance_version, hx, Bool.and_true]
      cases (u.registry.signal g).isClosed <;> rfl

theorem fresh (ht : Touched u g x s) (hf : (u.registry.signal g).Fresh) :
    s.Fresh := by
  cases ht with
  | kept hx hs => exact hf.alike hs
  | absent hg hs => exact hf.alike hs
  | advanced hnext hx hs => exact (hf.advance hnext).alike hs

end Touched

-- ============================================================= all acts

theorem final_kept (l : List Act)
    (hc : ((after h).registry.signal g).isClosed = true) :
    ((after (l ++ h)).registry.signal g).state
      = ((after h).registry.signal g).state := by
  induction l with
  | nil => rfl
  | cons x l ih =>
      refine (((did (after (l ++ h)) x).touched g).final ?_).trans ih
      show ((after (l ++ h)).registry.signal g).state.isFinal = true
      rw [ih]
      exact hc

theorem length_mono (l p : List Act) :
    (after p).registry.signals.length
      ≤ (after (l ++ p)).registry.signals.length := by
  induction l with
  | nil => exact Nat.le_refl _
  | cons x l ih => exact Nat.le_trans ih (did _ x).length_le

theorem numbers_mono (l p : List Act) :
    (after p).holds.length ≤ (after (l ++ p)).holds.length := by
  induction l with
  | nil => exact Nat.le_refl _
  | cons x l ih => exact Nat.le_trans ih (did _ x).numbers

theorem version_changed (l p : List Act)
    (hg : g < (after p).registry.signals.length) :
    ((after (l ++ p)).registry.signal g).version
      = ((after p).registry.signal g).version + changed g p l := by
  induction l with
  | nil => rfl
  | cons x l ih =>
      have hlt := Nat.lt_of_lt_of_le hg (length_mono l p)
      show (((after (l ++ p)).act x).registry.signal g).version = _
      rw [((did _ x).touched g).version hlt, ih, changed, Nat.add_assoc]

theorem fresh_after (h : List Act) (g : Nat) :
    ((after h).registry.signal g).Fresh := by
  induction h generalizing g with
  | nil =>
      show (Registry.signal {} g).Fresh
      rw [signal_of_length_le (Nat.zero_le g)]
      exact ⟨fun _ => rfl, fun _ => rfl⟩
  | cons x h ih => exact ((did _ x).touched g).fresh (ih g)

/-- Nothing counts as a change of a final signal. -/
theorem changed_final (l : List Act)
    (hc : ((after h).registry.signal g).isClosed = true) :
    changed g h l = 0 := by
  induction l with
  | nil => rfl
  | cons x l ih =>
      have hlater : ((after (l ++ h)).registry.signal g).isClosed = true := by
        show ((after (l ++ h)).registry.signal g).state.isFinal = true
        rw [final_kept l hc]
        exact hc
      unfold changed changes
      rw [ih, hlater]
      rfl

/-- What an act tells a registration, and what becomes of it. -/
theorem Did.holds (hd : Did u x v) (n : Nat) :
    (v.hold n = u.hold n ∧ u.tells n x = none)
      ∨ (∃ m a, x = .register m ∧ n = u.holds.length
        ∧ u.registry.register m = (.ok a, v.registry)
        ∧ v.hold n = some a)
      ∨ (v.hold n = none ∧ u.tells n x = none)
      ∨ ∃ a b wake, u.hold n = some a
        ∧ u.registry.woken a = some (wake, b) ∧ v.registry = u.registry
        ∧ v.hold n = some b ∧ u.tells n x = some wake := by
  cases hd with
  | @registered m a r hr =>
      rw [hold_append]
      by_cases hn : n = u.holds.length
      · rw [if_pos hn]
        exact Or.inr (Or.inl ⟨m, a, rfl, hn, hr, rfl⟩)
      · rw [if_neg hn]
        exact Or.inl ⟨rfl, rfl⟩
  | @dropped k a ha =>
      rw [hold_set ha]
      by_cases hk : k = n
      · rw [if_pos hk]
        exact Or.inr (Or.inr (Or.inl ⟨rfl, rfl⟩))
      · rw [if_neg hk]
        exact Or.inl ⟨rfl, rfl⟩
  | @observed k a b wake ha hw =>
      rw [hold_set ha]
      by_cases hk : k = n
      · subst hk
        rw [if_pos rfl]
        refine Or.inr (Or.inr (Or.inr ⟨a, b, wake, ha, hw, rfl, rfl, ?_⟩))
        simp only [tells, if_true, next, ha, Option.bind_some, hw,
          Option.map_some]
      · rw [if_neg hk]
        exact Or.inl ⟨rfl, if_neg hk⟩
  | @waits k hk =>
      refine Or.inl ⟨rfl, ?_⟩
      show (if k = n then u.next n else none) = none
      by_cases hkn : k = n
      · rw [if_pos hkn, ← hkn, hk]
      · rw [if_neg hkn]
  | _ => exact Or.inl ⟨rfl, rfl⟩

-- =============================================================== firing

theorem closed_kept (hd : Did u x v)
    (hc : (u.registry.signal g).isClosed = true) :
    (v.registry.signal g).isClosed = true := by
  unfold Signal.isClosed
  rw [(hd.touched g).final hc]
  exact hc

/-- Firing a signal for an allocation leaves it final, and finds no
final one. -/
theorem fires_closes (hx : u.fires g x = true) :
    (u.registry.signal g).isClosed = false
      ∧ ((u.act x).registry.signal g).isClosed = true
      ∧ ((u.act x).registry.signal g).state = .allocated := by
  cases x with
  | fire k allocated =>
      cases allocated with
      | false => cases hx
      | true =>
          simp only [fires, Bool.and_eq_true, beq_iff_eq,
            decide_eq_true_eq] at hx
          obtain ⟨⟨rfl, hg⟩, hfired⟩ := hx
          have hopen : (u.registry.signal k).isClosed = false := by
            by_contra hc
            have hnot := Signal.fire_wakes (Bool.of_not_eq_false hc)
            exact absurd (hnot.symm.trans hfired) nofun
          have hafter : ((u.act (.fire k true)).registry.signal k)
              = ((u.registry.signal k).fire true).2 := by
            show ((u.registry.fire k true).2.signal k) = _
            rw [fire_signal, if_pos ⟨rfl, hg⟩]
          rw [hafter]
          refine ⟨hopen, Signal.isClosed_fire _, ?_⟩
          rw [Signal.fire_state, if_neg]
          intro hs
          rw [Signal.isClosed, hs] at hopen
          cases hopen
  | _ => cases hx

/-- A signal that was fired for an allocation is final. -/
theorem firings_closed (g : Nat) (h : List Act) :
    firings g h = 0
      ∨ firings g h = 1
        ∧ ((after h).registry.signal g).isClosed = true := by
  induction h with
  | nil => exact Or.inl rfl
  | cons x h ih =>
      unfold firings
      by_cases hx : (after h).fires g x = true
      · obtain ⟨hopen, hclosed, -⟩ := fires_closes hx
        rcases ih with hzero | ⟨-, hc⟩
        · rw [if_pos hx, hzero]
          exact Or.inr ⟨rfl, hclosed⟩
        · rw [hopen] at hc
          cases hc
      · rw [if_neg hx]
        exact ih.imp id (And.imp id (closed_kept (did _ x)))

-- ================================================== one registration

/-- What a registration knows of its signal. -/
structure Minds (h : List Act) (n : Nat) (a : Registration) : Prop where
  known : a.generation < (after h).registry.signals.length
  behind : a.seen ≤ ((after h).registry.signal a.generation).version
  /-- Who has seen all that there is to see of an allocated signal was
  told so. -/
  heard : a.seen = ((after h).registry.signal a.generation).version →
    ((after h).registry.signal a.generation).state = .allocated →
      .allocated ∈ told n h

/-- Nobody was told anything under a number that is not given out. -/
theorem told_absent (hn : (after h).holds.length ≤ n) :
    told n h = [] ∧ (after h).hold n = none := by
  have habsent : (after h).hold n = none := by
    unfold hold
    rw [List.getElem?_eq_none hn]
    rfl
  refine ⟨?_, habsent⟩
  induction h with
  | nil => rfl
  | cons x h ih =>
      have hle : (after h).holds.length ≤ n :=
        Nat.le_trans (did (after h) x).numbers hn
      have hnone : (after h).hold n = none := by
        unfold hold
        rw [List.getElem?_eq_none hle]
        rfl
      unfold told
      rw [ih hle hnone]
      have htells : (after h).tells n x = none := by
        cases x with
        | observe k =>
            show (if k = n then (after h).next n else none) = none
            rw [next, hnone]
            exact ite_self _
        | _ => rfl
      rw [htells]
      rfl

/-- A registration that was just made knows of its signal what it
should. -/
theorem minds_joined
    (hr : (after h).registry.register m
      = (.ok a, (after (.register m :: h)).registry)) :
    Minds (.register m :: h) n a := by
  have ht := register_tuned hr
  refine ⟨ht.known, ?_, fun hseen hs => ?_⟩
  · rw [ht.kept]
    exact ht.le
  · rw [ht.kept] at hseen
    rw [register_state hr] at hs
    have hone := ht.unseen (fresh_after h a.generation)
      (by rw [hs]; nofun)
    omega

/-- What a registration knows does not go stale. -/
theorem Minds.kept (hm : Minds h n a) (x : Act) :
    Minds (x :: h) n a := by
  have hd := did (after h) x
  have hversion : ((after (x :: h)).registry.signal a.generation).version
      = _ := (hd.touched _).version hm.known
  refine ⟨Nat.lt_of_lt_of_le hm.known hd.length_le, ?_, fun hseen hs => ?_⟩
  · rw [hversion]
    exact Nat.le_add_right_of_le hm.behind
  · have hsame : (after h).changes a.generation x = false := by
      by_contra hx
      rw [hversion, if_pos (Bool.of_not_eq_false hx)] at hseen
      have hbehind := hm.behind
      omega
    rw [hversion, hsame] at hseen
    have hstate : ((after (x :: h)).registry.signal a.generation).state
        = _ := (hd.touched _).unchanged hsame
    rw [hstate] at hs
    unfold told
    exact List.mem_append_left _ (hm.heard hseen hs)

theorem minds (h : List Act) (ha : (after h).hold n = some a) :
    Minds h n a := by
  induction h generalizing a with
  | nil => cases ha
  | cons x h ih =>
      rcases (did (after h) x).holds n with
        ⟨hsame, -⟩ | ⟨m, b, rfl, -, hr, hb⟩ | ⟨hnone, -⟩
          | ⟨b, c, wake, hb, hw, hreg, hc, htells⟩
      · exact (ih (hsame.symm.trans ha)).kept x
      · cases hb.symm.trans ha
        exact minds_joined hr
      · cases hnone.symm.trans ha
      · -- the registration took note of what its signal says
        cases hc.symm.trans ha
        obtain ⟨-, hwake, hg, hseen⟩ := woken_seen hw
        have hr : (after (x :: h)).registry = (after h).registry := hreg
        refine ⟨?_, ?_, fun _ hs => ?_⟩
        · rw [hr, hg]
          exact (ih hb).known
        · rw [hr, hg]
          exact Nat.le_of_eq hseen
        · rw [hr, hg, ← hwake] at hs
          unfold told
          rw [htells, hs]
          exact List.mem_append_right _ (List.mem_singleton.mpr rfl)

/-- Who was not told of the allocation that a signal tells of has it to
hear yet. -/
theorem next_allocated (ha : (after h).hold n = some a)
    (hs : ((after h).registry.signal a.generation).state = .allocated)
    (hnot : .allocated ∉ told n h) :
    (after h).next n = some .allocated := by
  have hseen : a.seen
      ≠ ((after h).registry.signal a.generation).version :=
    fun heq => hnot ((minds h ha).heard heq hs)
  unfold next
  rw [ha]
  show ((after h).registry.woken a).map Prod.fst = _
  unfold woken
  rw [if_neg hseen, hs]
  rfl

/-- A signal that was never set tells nobody anything. -/
theorem next_pending (h : List Act) (n : Nat) :
    (after h).next n ≠ some .pending := by
  intro hp
  unfold next at hp
  cases ha : (after h).hold n with
  | none =>
      rw [ha] at hp
      cases hp
  | some a =>
      rw [ha] at hp
      obtain ⟨⟨wake, b⟩, hw, hwake⟩ := Option.map_eq_some_iff.mp hp
      obtain ⟨hseen, hs, -, -⟩ := woken_seen hw
      have hzero := (fresh_after h a.generation).mp (hs.symm.trans hwake)
      have hbehind := (minds h ha).behind
      omega

theorem told_pending (h : List Act) (n : Nat) :
    .pending ∉ told n h := by
  induction h with
  | nil => nofun
  | cons x h ih =>
      intro hp
      rcases List.mem_append.mp hp with hp | hp
      · exact ih hp
      · cases x with
        | observe k =>
            have hk : (if k = n then (after h).next n else none)
                = some .pending := Option.mem_toList.mp hp
            split at hk
            · exact next_pending h n hk
            · cases hk
        | _ => cases hp

-- ========================================================= the counting

/-- Every wake-up takes a registration past a change: what it was told
since `p` is not more than what it has seen since then. -/
theorem told_le (ha : (after p).hold n = some a) (hnone : told n p = [])
    (l : List Act) :
    (told n (l ++ p)).length + a.seen
        ≤ ((after (l ++ p)).registry.signal a.generation).version
      ∧ ∀ b, (after (l ++ p)).hold n = some b →
        b.generation = a.generation
          ∧ (told n (l ++ p)).length + a.seen ≤ b.seen := by
  have hm := minds p ha
  induction l with
  | nil =>
      have hzero : (told n ([] ++ p)).length + a.seen = a.seen := by
        rw [List.nil_append, hnone, List.length_nil, Nat.zero_add]
      rw [hzero]
      refine ⟨hm.behind, fun b hb => ?_⟩
      cases ha.symm.trans hb
      exact ⟨rfl, Nat.le_refl _⟩
  | cons x l ih =>
      obtain ⟨hversion, hlive⟩ := ih
      have hlt := Nat.lt_of_lt_of_le hm.known (length_mono l p)
      have hd := did (after (l ++ p)) x
      have hgrown : ((after (x :: (l ++ p))).registry.signal
          a.generation).version = _ := (hd.touched _).version hlt
      rw [List.cons_append]
      unfold told
      rw [List.length_append, hgrown]
      rcases hd.holds n with ⟨hsame, htells⟩ | ⟨m, b, -, hlen, -, -⟩
          | ⟨hdropped, htells⟩ | ⟨b, c, wake, hb, hw, -, hc, htells⟩
      · rw [htells]
        refine ⟨Nat.le_add_right_of_le hversion, fun b hb => ?_⟩
        exact hlive b (hsame.symm.trans hb)
      · -- the number was given out before
        have hgiven := Nat.lt_of_lt_of_le (hold_lt ha) (numbers_mono l p)
        omega
      · rw [htells]
        refine ⟨Nat.le_add_right_of_le hversion, fun b hb => ?_⟩
        cases hdropped.symm.trans hb
      · obtain ⟨hgen, hle⟩ := hlive b hb
        obtain ⟨hseen, -, hcgen, hcseen⟩ := woken_seen hw
        have hbehind := (minds _ hb).behind
        rw [hgen] at hseen hbehind hcseen
        rw [htells]
        show _ + 1 + a.seen ≤ _ ∧ _
        refine ⟨by omega, fun d hd' => ?_⟩
        cases hc.symm.trans hd'
        refine ⟨hcgen.trans hgen, ?_⟩
        rw [hcseen]
        show _ + 1 + a.seen ≤ _
        omega

/-- A registration is told at most once for each change of its signal,
and once more if the signal had something to say when it joined. -/
theorem told_count
    (ha : (after (.register m :: h)).hold (after h).holds.length = some a)
    (l : List Act) :
    (told (after h).holds.length (l ++ .register m :: h)).length
      ≤ changed a.generation (.register m :: h) l
        + if ((after h).registry.signal a.generation).state = .pending
          then 0 else 1 := by
  have habsent := told_absent (Nat.le_refl (after h).holds.length)
  have hnone : told (after h).holds.length (.register m :: h) = [] := by
    unfold told
    rw [habsent.1]
    rfl
  have hle := (told_le ha hnone l).1
  rw [version_changed l _ (minds _ ha).known] at hle
  rcases (did (after h) (.register m)).holds (after h).holds.length with
    ⟨hsame, -⟩ | ⟨m', b, hm', -, hr, hb⟩ | ⟨hdropped, -⟩
      | ⟨b, c, wake, hb, -⟩
  · cases habsent.2.symm.trans (hsame.symm.trans ha)
  · cases hb.symm.trans ha
    cases hm'
    have ht := register_tuned hr
    have hkept : ((after (.register m :: h)).registry.signal
        a.generation).version = _ := ht.kept a.generation
    rw [hkept] at hle
    split
    · rename_i hs
      have hseen := ht.seen
      rw [if_pos hs] at hseen
      omega
    · rename_i hs
      have hone := ht.unseen (fresh_after h a.generation) hs
      omega
  · cases hdropped.symm.trans ha
  · cases habsent.2.symm.trans hb

end Roll

-- ============================================================ one shot

open Roll in
/-- Signals that fire once and reach all who hold them, behind the acts
`h` and whatever is done then. -/
structure OneShot (h : List Act) : Prop where
  /-- A signal is fired for an allocation with success once at most. -/
  once : ∀ g, firings g h ≤ 1
  /-- Nothing that is done changes a final signal. -/
  final : ∀ g l, ((after h).registry.signal g).isClosed = true →
    ((after (l ++ h)).registry.signal g).state
        = ((after h).registry.signal g).state
      ∧ ((after (l ++ h)).registry.signal g).version
        = ((after h).registry.signal g).version
  /-- Once a signal was fired for an allocation with success, whoever
  holds it, now or later, is told of the allocation when it asks next,
  unless it was told already. -/
  reached : ∀ g l n a, (after h).fires g (.fire g true) = true →
    (after (l ++ .fire g true :: h)).hold n = some a →
    a.generation = g →
    .allocated ∉ told n (l ++ .fire g true :: h) →
      (after (l ++ .fire g true :: h)).next n = some .allocated
  /-- Nobody is told that there is nothing to say. -/
  speaks : ∀ n, (after h).next n ≠ some .pending ∧ .pending ∉ told n h
  /-- A registration that is made now, for `m`, is told at most once for
  each change of its signal, and once more if the signal had something
  to say when it was made. -/
  counted : ∀ m l a,
    (after (.register m :: h)).hold (after h).holds.length = some a →
      (told (after h).holds.length (l ++ .register m :: h)).length
        ≤ changed a.generation (.register m :: h) l
          + if ((after h).registry.signal a.generation).state = .pending
            then 0 else 1

open Roll in
/-- Whatever is done with a registry, a signal fires once and reaches
everybody. -/
theorem one_shot (h : List Act) : OneShot h where
  once g := by
    rcases firings_closed g h with hzero | ⟨hone, -⟩
    · omega
    · omega
  final g l hc := by
    have hg := lt_of_isClosed hc
    refine ⟨final_kept l hc, ?_⟩
    rw [version_changed l h hg, changed_final l hc, Nat.add_zero]
  reached g l n a hf ha hg hnot := by
    subst hg
    obtain ⟨-, hclosed, hs⟩ := fires_closes hf
    refine next_allocated ha ?_ hnot
    exact (final_kept (h := .fire a.generation true :: h) l hclosed).trans hs
  speaks n := ⟨next_pending h n, told_pending h n⟩
  counted m l a ha := told_count ha l

/-- A signal with a holder is about to be fired. -/
def armed : List Act := [.register "m"]

/-- Behind the firing somebody joins, and the signal is fired once more,
closed and taken away. -/
def belated : List Act :=
  [.remove "m", .close 0, .fire 0 true, .register "m"]

open Roll in
/-- Of the two firings the first one counts, and both who hold the
signal, whether they came before or behind it, are told of the
allocation although nobody asked in time. -/
theorem one_shot_belated :
    (after armed).fires 0 (.fire 0 true) = true
      ∧ firings 0 (belated ++ .fire 0 true :: armed) = 1
      ∧ (after (belated ++ .fire 0 true :: armed)).next 0
        = some .allocated
      ∧ (after (belated ++ .fire 0 true :: armed)).next 1
        = some .allocated := by
  have hfires : (after armed).fires 0 (.fire 0 true) = true := rfl
  have honce := (one_shot (belated ++ .fire 0 true :: armed)).once 0
  have hsome : 0 < firings 0 (belated ++ .fire 0 true :: armed) := by
    decide
  have hreached := (one_shot armed).reached 0 belated
  exact ⟨hfires, by omega,
    hreached 0 _ hfires rfl rfl List.not_mem_nil,
    hreached 1 _ hfires rfl rfl List.not_mem_nil⟩

end Registry

end ControlPlane
