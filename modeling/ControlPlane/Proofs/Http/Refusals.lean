/-
Requests that are answered at once. A request can be wrong in its
target, its path, its method, its id, its query or its body, and each of
these is refused with a status that says so. No request that is answered
without asking a replica is answered with success (`plan_strict`).

Chain: over the routes; consumed by ExactlyOnce.lean.
-/
import ControlPlane.Http.Route

namespace ControlPlane.Http

/-- A plan that does not report success without asking a replica. -/
def Plan.Strict (p : Plan) : Prop :=
  ∀ resp, p = .reply resp → resp.status ≠ 200

variable {r : Request} {k : String → Plan} {p : Plan} {resp : Response}

theorem strict_reply (h : resp.status ≠ 200) : (Plan.reply resp).Strict := by
  intro resp' he
  cases he
  exact h

theorem strict_text {status : Nat} {words : String}
    (h : status ≠ 200) : (Plan.reply (.ofText status words)).Strict :=
  strict_reply h

theorem withMachineId_strict (machine : String)
    (hk : ∀ m, (k m).Strict) : (withMachineId machine k).Strict := by
  unfold withMachineId
  split
  · exact hk machine
  · exact strict_text (by decide)

theorem withSegment_strict (segment : String)
    (hk : ∀ m, (k m).Strict) : (withSegment segment k).Strict := by
  unfold withSegment
  split
  · exact hk _
  · exact strict_reply (by decide)

theorem getOnly_strict (r : Request) (hp : p.Strict) :
    (getOnly r p).Strict := by
  unfold getOnly
  split
  · exact hp
  · exact strict_reply (by decide)

theorem postOnly_strict (r : Request) (hp : p.Strict) :
    (postOnly r p).Strict := by
  unfold postOnly
  split
  · exact hp
  · exact strict_reply (by decide)

theorem waitPlan_strict (u : Uri) (machine : String) :
    (waitPlan u machine).Strict := by
  unfold waitPlan
  split
  · refine withMachineId_strict machine fun m => ?_
    simp only
    split
    · intro resp he
      cases he
    · exact strict_text (by decide)
  · exact strict_reply (by decide)

/-- A body that is not understood is refused. -/
theorem read_refused {α : Type} {form : Json.Form α}
    (h : r.read form = .error resp) : resp.status ≠ 200 := by
  unfold Request.read at h
  split at h
  · cases h
    decide
  · split at h
    · cases h
      decide
    · cases hp : form.parse r.body with
      | ok x =>
          rw [hp] at h
          cases h
      | error fault =>
          rw [hp] at h
          cases h
          cases fault <;> decide

theorem planAt_strict (r : Request) (u : Uri) : (r.planAt u).Strict := by
  have hask : ∀ {p : Plan}, (∀ resp, p ≠ .reply resp) → p.Strict :=
    fun hp resp he => absurd he (hp resp)
  unfold Request.planAt
  split
  · exact getOnly_strict r (hask fun _ h => by cases h)
  · exact getOnly_strict r (hask fun _ h => by cases h)
  · exact getOnly_strict r (hask fun _ h => by cases h)
  · exact getOnly_strict r (hask fun _ h => by cases h)
  · split
    · exact strict_reply (by decide)
    · exact getOnly_strict r (withSegment_strict _ fun m =>
        withMachineId_strict m fun _ => hask fun _ h => by cases h)
  · exact getOnly_strict r (withSegment_strict _ fun m =>
      withMachineId_strict m fun _ => hask fun _ h => by cases h)
  · exact getOnly_strict r (withSegment_strict _ (waitPlan_strict u))
  · split
    · exact strict_reply (by decide)
    · refine postOnly_strict r (withSegment_strict _ fun m => ?_)
      split
      · rename_i hread
        exact strict_reply (read_refused hread)
      · exact withMachineId_strict m fun _ => hask fun _ h => by cases h
  · exact strict_reply (by decide)

/-- No request is answered with success at once. -/
theorem plan_strict (r : Request) : r.plan.Strict := by
  unfold Request.plan
  split
  · exact planAt_strict r _
  · exact strict_reply (by decide)

/-- Failed calls are answered by what is wrong, others by the record. -/
theorem answerRecord_status (result : Except ServiceError MachineRecord)
    (a : Ambient) :
    (answerRecord result a).1.status = 200 ↔ ∃ x, result = .ok x := by
  cases result with
  | ok x => exact ⟨fun _ => ⟨x, rfl⟩, fun _ => rfl⟩
  | error e =>
      have hstatus : errorStatus e ≠ 200 := by
        unfold errorStatus
        split
        · decide
        · decide
        · decide
        · split <;> decide
      exact ⟨fun h => absurd h hstatus, fun ⟨x, hx⟩ => by cases hx⟩

end ControlPlane.Http
