/-
How often a call is attempted, and how long it pauses in between. A run
goes on over conflicts alone: it ends with the first attempt that comes
to anything else, or with the last that its budget allows, and the
outcome of that attempt is its own (`retried`). Each attempt but the last
is logged and counted once. Without jitter the pauses double until they
have grown to the greatest one.

# A run along its conflicts

How a run is paced depends on how many conflicts there were and on
nothing else: the interval behind `k` of them (`interval`), the pause
that chance makes of it (`pause`), and the log and the counters (`told`).
So what is left of a run behind `k` conflicts is told by the attempts
from there on (`go_eq`), and the whole run is the case of none.

# Settings
# A run
# Log and counters
# Pauses
# Conflicts
# The law

Chain: over Retry.lean alone; `again_cases` of Fleet/Calls.lean is what
the calls of a fleet need of it.
-/
import Mathlib
import ControlPlane.Retry

namespace ControlPlane

-- =============================================================== settings

namespace RetrySettings

/-- The interval behind so many conflicts. -/
def interval (s : RetrySettings) : Nat → Duration
  | 0 => s.initialBackoff
  | k + 1 => s.grow (s.interval k)

/-- Intervals double, up to a greatest one that is not below the first,
and delays are the intervals: no jitter, no rounding, and chance gives
less than one. -/
structure Doubling (s : RetrySettings) (a : Ambient) : Prop where
  exact : s.precision = .exact
  jitter : s.jitter.isZero = true
  multiplier : s.multiplier = .ofNat 2
  ordered : s.initialBackoff.nanos ≤ s.maxBackoff.nanos
  draws : ∀ k, (a.luck k).size.num < (a.luck k).size.den

variable {s : RetrySettings} {a : Ambient}

/-- Zero is zero steps, however small. -/
theorem size_of_isZero {x : Double} (hx : x.isZero = true) :
    x.size.num = 0 ∧ 0 < x.size.den := by
  cases x with
  | finite n m q =>
      have hm : m = 0 := by simpa [Double.isZero] using hx
      subst hm
      simp only [Double.size, Ratio.ofBinary, Ratio.scale]
      split <;> simp
  | undefined => cases hx
  | infinite n => cases hx

theorem size_two : (Double.ofNat 2).size = ⟨2 * 2 ^ 51, 2 ^ 51⟩ := by
  decide +kernel

/-- Without jitter a delay is its interval. -/
theorem Doubling.spread (hd : s.Doubling a) (k : Nat) (c : Duration) :
    s.spread (a.luck k) c = c := by
  obtain ⟨hnum, hden⟩ := size_of_isZero hd.jitter
  have hdraw := hd.draws k
  have hpos : 0 < (a.luck k).size.den := Nat.zero_lt_of_lt hdraw
  obtain ⟨n⟩ := c
  simp only [RetrySettings.spread, hd.exact, hnum, Nat.mul_zero,
    Nat.zero_mul, Nat.zero_add, Nat.sub_zero, Duration.mk.injEq]
  generalize s.jitter.size.den = j, (a.luck k).size.num = x,
    (a.luck k).size.den = d at *
  calc (n * j * d + x * j) / (j * d)
      = (j * (n * d + x)) / (j * d) := by congr 1; ring
    _ = (n * d + x) / d := Nat.mul_div_mul_left _ _ hden
    _ = n := by
      rw [Nat.mul_comm, Nat.mul_add_div hpos, Nat.div_eq_of_lt hdraw,
        Nat.add_zero]

/-- An interval is doubled, or reaches the greatest. -/
theorem Doubling.grow (hd : s.Doubling a) (c : Duration) :
    (s.grow c).nanos = min (2 * c.nanos) s.maxBackoff.nanos := by
  simp only [RetrySettings.grow, hd.exact, hd.multiplier, size_two]
  split
  · rename_i hle
    have : s.maxBackoff.nanos ≤ 2 * c.nanos := by omega
    exact (Nat.min_eq_right this).symm
  · rename_i hlt
    have : 2 * c.nanos ≤ s.maxBackoff.nanos := by omega
    show c.nanos * (2 * 2 ^ 51) / 2 ^ 51 = _
    omega

theorem Doubling.interval (hd : s.Doubling a) (k : Nat) :
    (s.interval k).nanos
      = min (s.initialBackoff.nanos * 2 ^ k) s.maxBackoff.nanos := by
  induction k with
  | zero =>
      have := hd.ordered
      simp only [RetrySettings.interval, pow_zero, mul_one]
      omega
  | succ k ih =>
      rw [RetrySettings.interval, hd.grow, ih, pow_succ, ← mul_assoc]
      omega

end RetrySettings

namespace Retry

variable {ε α : Type} {operation : String} {s : RetrySettings}
  {isConflict : ε → Bool} {attempt : Nat → Except ε α} {a : Ambient}
  {k left n : Nat}

-- ================================================================== a run

/-- An outcome that ends a run, whatever is left of the budget. -/
def Settled (isConflict : ε → Bool) (outcome : Except ε α) : Prop :=
  ∀ e, outcome = .error e → isConflict e = false

/-- The number of the first attempt that does not end in a conflict;
infinite if all of them do. -/
noncomputable def settledAt (isConflict : ε → Bool)
    (attempt : Nat → Except ε α) : ℕ∞ :=
  ⨅ (i : Nat) (_ : Settled isConflict (attempt i)), ((i + 1 : Nat) : ℕ∞)

/-- The pause behind `k` conflicts and one more. -/
def pause (s : RetrySettings) (a : Ambient) (k : Nat) : Duration :=
  s.spread (a.luck (a.chances + k)) (s.interval k)

/-- What is around a run behind `k` conflicts that were retried. -/
def told (operation : String) (s : RetrySettings) (a : Ambient) :
    Nat → Ambient
  | 0 => a
  | k + 1 =>
    ((told operation s a k).chance.2.say
      (.conflictRetry operation (k + 1) s.budget
        (pause s a k).millis)).count (.conflictRetry operation)

/-- Chance gives one number for each conflict. -/
theorem told_chance (operation : String) (s : RetrySettings) (a : Ambient)
    (k : Nat) :
    (told operation s a k).luck = a.luck
      ∧ (told operation s a k).chances = a.chances + k := by
  induction k with
  | zero => exact ⟨rfl, rfl⟩
  | succ k ih =>
      refine ⟨ih.1, ?_⟩
      show (told operation s a k).chances + 1 = _
      rw [ih.2]
      rfl

/-- A conflict is retried as long as the budget lasts. -/
theorem again_told (operation : String) (s : RetrySettings) (a : Ambient)
    (k : Nat) :
    Pacing.again operation s ⟨k + 1, s.interval k⟩ (told operation s a k)
      = if k + 1 < s.budget then
          some (pause s a k, ⟨k + 2, s.interval (k + 1)⟩,
            told operation s a (k + 1))
        else none := by
  obtain ⟨hluck, hchances⟩ := told_chance operation s a k
  have hdraw : (told operation s a k).chance.1 = a.luck (a.chances + k) := by
    show (told operation s a k).luck _ = _
    rw [hluck, hchances]
  by_cases hk : k + 1 < s.budget
  · simp only [Pacing.again, Pacing.next, hdraw, if_pos hk]
    rfl
  · simp only [Pacing.again, Pacing.next, if_neg hk]

theorem not_settled {outcome : Except ε α}
    (h : ¬ Settled isConflict outcome) :
    ∃ e, outcome = .error e ∧ isConflict e = true := by
  cases outcome with
  | ok x => exact absurd nofun h
  | error e =>
      cases hc : isConflict e with
      | true => exact ⟨e, rfl, hc⟩
      | false =>
          refine absurd ?_ h
          rintro e' ⟨⟩
          exact hc

/-- A run ends with an attempt that settles, and with the last one. -/
theorem go_ends (hend : Settled isConflict (attempt k) ∨ s.budget ≤ k + 1) :
    go operation s isConflict attempt (left + 1) ⟨k + 1, s.interval k⟩
        (told operation s a k)
      = (⟨k + 1, attempt k, []⟩, told operation s a k) := by
  simp only [go, Nat.add_sub_cancel]
  cases hout : attempt k with
  | ok x => rfl
  | error e =>
      rcases hend with hsettled | hlast
      · simp only [hsettled e hout, Bool.false_eq_true, if_false]
      · simp only [again_told, if_neg (Nat.not_lt.mpr hlast), ite_self]

/-- A run goes on behind a conflict. -/
theorem go_retries {e : ε} (hout : attempt k = .error e)
    (hc : isConflict e = true) (hk : k + 1 < s.budget) {r : Run ε α}
    {b : Ambient} (hrest : go operation s isConflict attempt left
      ⟨k + 2, s.interval (k + 1)⟩ (told operation s a (k + 1)) = (r, b)) :
    go operation s isConflict attempt (left + 1) ⟨k + 1, s.interval k⟩
        (told operation s a k)
      = ({ r with delays := pause s a k :: r.delays }, b) := by
  simp only [go, Nat.add_sub_cancel, hout, hc, if_true, again_told,
    if_pos hk, hrest]

/-- What is left of a run behind `k` conflicts: it comes to attempt `n`,
which is the first that settles or the last of the budget. -/
theorem go_eq (operation : String) (isConflict : ε → Bool)
    (attempt : Nat → Except ε α) (a : Ambient) (hk : k < s.budget)
    (hleft : k + left = s.budget) :
    ∃ n, k < n ∧ n ≤ s.budget
      ∧ (∀ i, k ≤ i → i + 1 < n → ¬ Settled isConflict (attempt i))
      ∧ (n < s.budget → Settled isConflict (attempt (n - 1)))
      ∧ go operation s isConflict attempt left ⟨k + 1, s.interval k⟩
          (told operation s a k)
        = (⟨n, attempt (n - 1),
            (List.range' k (n - 1 - k)).map (pause s a)⟩,
          told operation s a (n - 1)) := by
  induction left generalizing k with
  | zero => omega
  | succ left ih =>
      by_cases hend : Settled isConflict (attempt k) ∨ s.budget ≤ k + 1
      · refine ⟨k + 1, Nat.lt_succ_self k, hk, ?_, ?_, ?_⟩
        · exact fun i hi hlt => absurd hlt (by omega)
        · exact fun hlt => hend.resolve_right (Nat.not_le.mpr hlt)
        · rw [go_ends hend]
          simp
      · obtain ⟨hconflict, hmore⟩ := not_or.mp hend
        obtain ⟨e, hout, hc⟩ := not_settled hconflict
        obtain ⟨n, hlt, hle, hconflicts, hsettled, heq⟩ :=
          ih (Nat.lt_of_not_le hmore) (by omega)
        refine ⟨n, by omega, hle, ?_, hsettled, ?_⟩
        · intro i hi hin
          rcases Nat.eq_or_lt_of_le hi with rfl | hi
          · exact hconflict
          · exact hconflicts i hi hin
        · have hrange : n - 1 - k = (n - 1 - (k + 1)) + 1 := by omega
          rw [go_retries hout hc (Nat.lt_of_not_le hmore) heq, hrange,
            List.range'_succ]
          rfl

theorem budget_pos (s : RetrySettings) : 0 < s.budget :=
  Nat.lt_of_lt_of_le Nat.one_pos (Nat.le_max_right _ _)

/-- A run is told by the number of its attempts. -/
theorem run_eq (operation : String) (s : RetrySettings)
    (isConflict : ε → Bool) (attempt : Nat → Except ε α) (a : Ambient) :
    ∃ n, 0 < n ∧ n ≤ s.budget
      ∧ (∀ i, i + 1 < n → ¬ Settled isConflict (attempt i))
      ∧ (n < s.budget → Settled isConflict (attempt (n - 1)))
      ∧ run operation s isConflict attempt a
        = (⟨n, attempt (n - 1), (List.range (n - 1)).map (pause s a)⟩,
          told operation s a (n - 1)) := by
  obtain ⟨n, hpos, hle, hconflicts, hsettled, heq⟩ :=
    go_eq operation isConflict attempt a (budget_pos s) (Nat.zero_add _)
  refine ⟨n, hpos, hle, fun i => hconflicts i (Nat.zero_le i), hsettled, ?_⟩
  rw [List.range_eq_range']
  exact heq

/-- An attempt that is the first to settle, or the last of the budget, is
the earlier one of these two. -/
theorem attempts_eq (hle : n ≤ s.budget)
    (hconflicts : ∀ i, i + 1 < n → ¬ Settled isConflict (attempt i))
    (hpos : 0 < n)
    (hsettled : n < s.budget → Settled isConflict (attempt (n - 1))) :
    (n : ℕ∞) = min (settledAt isConflict attempt) (s.budget : ℕ∞) := by
  have hbelow : (n : ℕ∞) ≤ settledAt isConflict attempt := by
    refine le_iInf₂ fun i hi => ?_
    have : n ≤ i + 1 := Nat.le_of_not_lt fun hlt => hconflicts i hlt hi
    exact_mod_cast this
  rcases Nat.eq_or_lt_of_le hle with heq | hlt
  · rw [heq] at hbelow ⊢
    exact (min_eq_right hbelow).symm
  · have habove : settledAt isConflict attempt ≤ (n : ℕ∞) := by
      have hn : n - 1 + 1 = n := Nat.sub_add_cancel hpos
      calc settledAt isConflict attempt
          ≤ ((n - 1 + 1 : Nat) : ℕ∞) := iInf₂_le (n - 1) (hsettled hlt)
        _ = n := by rw [hn]
    rw [le_antisymm habove hbelow]
    exact (min_eq_left (by exact_mod_cast hle)).symm

-- ======================================================= log and counters

/-- A line for each conflict that was retried, numbered from one, with
the pause that followed. -/
def lines (operation : String) (s : RetrySettings)
    (delays : List Duration) : List LogLine :=
  delays.mapIdx fun k d =>
    .conflictRetry operation (k + 1) s.budget d.millis

theorem lines_concat (operation : String) (s : RetrySettings)
    (ds : List Duration) (d : Duration) :
    lines operation s (ds ++ [d]) = lines operation s ds
      ++ [.conflictRetry operation (ds.length + 1) s.budget d.millis] :=
  List.mapIdx_concat ..

theorem told_log (operation : String) (s : RetrySettings) (a : Ambient)
    (k : Nat) :
    (told operation s a k).log
      = (lines operation s ((List.range k).map (pause s a))).reverse
        ++ a.log := by
  induction k with
  | zero => rfl
  | succ k ih =>
      show _ :: (told operation s a k).log = _
      rw [ih, List.range_succ, List.map_append, List.map_singleton,
        lines_concat, List.length_map, List.length_range,
        List.reverse_append, List.reverse_singleton]
      rfl

theorem told_metrics (operation : String) (s : RetrySettings)
    (a : Ambient) (k : Nat) (m : Metric) :
    (told operation s a k).metrics.get m
      = a.metrics.get m + if m = .conflictRetry operation then k else 0 := by
  induction k with
  | zero => simp [told]
  | succ k ih =>
      show ((told operation s a k).metrics.count _).get m = _
      rw [Metrics.get_count, ih]
      split <;> rfl

-- ================================================================= pauses

theorem pause_eq (hd : s.Doubling a) (k : Nat) :
    (pause s a k).nanos
      = min (s.initialBackoff.nanos * 2 ^ k) s.maxBackoff.nanos := by
  rw [pause, hd.spread, hd.interval]

/-- Where the first and the greatest interval are whole milliseconds, all
pauses are. -/
theorem pause_whole (hd : s.Doubling a)
    (hi : 1000000 ∣ s.initialBackoff.nanos)
    (hm : 1000000 ∣ s.maxBackoff.nanos) (k : Nat) :
    1000000 ∣ (pause s a k).nanos := by
  rw [pause_eq hd]
  rcases min_choice (s.initialBackoff.nanos * 2 ^ k) s.maxBackoff.nanos
    with h | h
  · rw [h]
    exact hi.mul_right _
  · rw [h]
    exact hm

/-- What timers of whole milliseconds let pass is the sum of the pauses,
each rounded up. -/
theorem pausedMillis_eq (r : Run ε α) :
    r.pausedMillis = (r.delays.map Duration.millisUp).sum := by
  unfold Run.pausedMillis
  rw [List.sum_eq_foldl, List.foldl_map]

theorem millisUp_mul {d : Duration} (hd : 1000000 ∣ d.nanos) :
    d.millisUp * 1000000 = d.nanos := by
  obtain ⟨n, hn⟩ := hd
  rw [Duration.millisUp, hn]
  omega

/-- Of whole milliseconds, such timers let pass no more and no less. -/
theorem millisUp_sum {ds : List Duration}
    (hds : ∀ d ∈ ds, 1000000 ∣ d.nanos) :
    (ds.map Duration.millisUp).sum * 1000000
      = (ds.map Duration.nanos).sum := by
  induction ds with
  | nil => rfl
  | cons d ds ih =>
      obtain ⟨hd, hds⟩ := List.forall_mem_cons.mp hds
      rw [List.map_cons, List.map_cons, List.sum_cons, List.sum_cons,
        Nat.add_mul, millisUp_mul hd, ih hds]

-- ============================================================== conflicts

theorem storeError_conflict_iff {e : StoreError} :
    e.isConflict = true ↔ ∃ id, e = .conflict id := by
  cases e <;> simp [StoreError.isConflict]

/-- A store's cause is a conflict to the layer above if and only if it is
one to the store, and nothing else is. -/
theorem serviceError_conflict_iff {e : ServiceError} :
    e.isConflict = true
      ↔ ∃ c : StoreError, c.isConflict = true ∧ e = .ofStore c := by
  constructor
  · intro he
    cases e with
    | store c =>
        obtain ⟨id, rfl⟩ := storeError_conflict_iff.mp he
        exact ⟨.conflict id, rfl, rfl⟩
    | notFound => cases he
    | alreadyAllocated => cases he
    | notAllocated => cases he
  · rintro ⟨c, hc, rfl⟩
    obtain ⟨id, rfl⟩ := storeError_conflict_iff.mp hc
    rfl

-- ================================================================ the law

/-- A run makes as many attempts as it takes to come to something else
than a conflict, and no more than its budget; it ends as the last of them
does; and it logs and counts a retry for each attempt but the last. If
intervals double, the pause behind `k` conflicts is the first interval
doubled `k - 1` times, or the greatest interval if that is less; the run
pauses for all of them, and so it does by timers of whole milliseconds
where the first and the greatest interval are such. A store's cause is a
conflict to the layer above if and only if it is one to the store. -/
theorem retried (operation : String) (s : RetrySettings)
    (isConflict : ε → Bool) (attempt : Nat → Except ε α) (a : Ambient)
    {r : Run ε α} {b : Ambient}
    (hrun : run operation s isConflict attempt a = (r, b)) :
    (r.attempts : ℕ∞)
        = min (settledAt isConflict attempt) (max s.maxAttempts 1 : Nat)
      ∧ r.result = attempt (r.attempts - 1)
      ∧ r.delays.length = r.attempts - 1
      ∧ b.log = (lines operation s r.delays).reverse ++ a.log
      ∧ (∀ m, b.metrics.get m = a.metrics.get m
        + if m = .conflictRetry operation then r.attempts - 1 else 0)
      ∧ (s.Doubling a →
        (∀ k, 1 ≤ k → k < r.attempts → r.delays[k - 1]? = some
          ⟨min (s.initialBackoff.nanos * 2 ^ (k - 1)) s.maxBackoff.nanos⟩)
          ∧ (r.delays.map Duration.nanos).sum
            = ∑ k ∈ Finset.range (r.attempts - 1),
              min (s.initialBackoff.nanos * 2 ^ k) s.maxBackoff.nanos
          ∧ (1000000 ∣ s.initialBackoff.nanos →
            1000000 ∣ s.maxBackoff.nanos →
              r.pausedMillis * 1000000
                = (r.delays.map Duration.nanos).sum))
      ∧ (∀ e : StoreError, e.isConflict = true ↔ ∃ id, e = .conflict id)
      ∧ (∀ e : ServiceError, e.isConflict = true
        ↔ ∃ c : StoreError, c.isConflict = true ∧ e = .ofStore c) := by
  obtain ⟨n, hpos, hle, hconflicts, hsettled, heq⟩ :=
    run_eq operation s isConflict attempt a
  cases heq.symm.trans hrun
  refine ⟨attempts_eq hle hconflicts hpos hsettled, rfl, by simp,
    told_log operation s a _, told_metrics operation s a _, ?_,
    fun _ => storeError_conflict_iff, fun _ => serviceError_conflict_iff⟩
  intro hd
  have hnanos : ((List.range (n - 1)).map (pause s a)).map Duration.nanos
      = (List.range (n - 1)).map fun k =>
        min (s.initialBackoff.nanos * 2 ^ k) s.maxBackoff.nanos := by
    rw [List.map_map]
    exact List.map_congr_left fun k _ => pause_eq hd k
  refine ⟨fun k hk hkn => ?_, ?_, fun hi hm => ?_⟩
  · have hlt : k - 1 < n - 1 := by
      simp only at hkn
      omega
    rw [List.getElem?_map, List.getElem?_range hlt]
    exact congrArg (fun n => some (Duration.mk n)) (pause_eq hd (k - 1))
  · rw [hnanos]
    rfl
  · rw [pausedMillis_eq]
    refine millisUp_sum fun d hd' => ?_
    obtain ⟨k, -, rfl⟩ := List.mem_map.mp hd'
    exact pause_whole hd hi hm k

/-- A run of three attempts that all lose, with room for one doubling. -/
def stubborn : RetrySettings where
  maxAttempts := 3
  initialBackoff := .ofMillis 100
  maxBackoff := .ofMillis 150
  jitter := .zero false
  precision := .exact

/-- Nothing special around a run. -/
def quiet : Ambient := { clock := ⟨0, 0⟩ }

theorem stubborn_doubling : stubborn.Doubling quiet where
  exact := rfl
  jitter := rfl
  multiplier := rfl
  ordered := by decide
  draws _ := by
    show (Double.zero false).size.num < (Double.zero false).size.den
    decide +kernel

/-- The attempts of a run that is beaten every time. -/
def beaten (_ : Nat) : Except StoreError Unit := .error (.conflict "m")

theorem retried_stubborn :
    ∃ (r : Run StoreError Unit) (b : Ambient),
      run "allocate" stubborn StoreError.isConflict beaten quiet = (r, b)
        ∧ r.attempts = 3 ∧ b.log.length = 2
        ∧ (r.attempts : ℕ∞)
          = min (settledAt StoreError.isConflict beaten) (3 : Nat)
        ∧ r.delays[1]? = some ⟨150000000⟩
        ∧ r.pausedMillis * 1000000 = (r.delays.map Duration.nanos).sum := by
  have hrun : run "allocate" stubborn StoreError.isConflict beaten quiet
      = ((run "allocate" stubborn StoreError.isConflict beaten quiet).1,
        (run "allocate" stubborn StoreError.isConflict beaten quiet).2) :=
    rfl
  have hthree : (run "allocate" stubborn StoreError.isConflict beaten
      quiet).1.attempts = 3 := by decide +kernel
  have htwo : (run "allocate" stubborn StoreError.isConflict beaten
      quiet).2.log.length = 2 := by decide +kernel
  obtain ⟨hattempts, -, -, -, -, hpauses, -⟩ := retried "allocate" stubborn
    StoreError.isConflict beaten quiet hrun
  obtain ⟨hdelays, -, hpaused⟩ := hpauses stubborn_doubling
  refine ⟨_, _, hrun, hthree, htwo, hattempts, ?_, ?_⟩
  · exact hdelays 2 (by decide) (by rw [hthree]; decide)
  · exact hpaused (by decide) (by decide)

end Retry

end ControlPlane
