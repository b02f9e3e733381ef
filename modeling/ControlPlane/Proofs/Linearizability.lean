/-
No update is lost. Calls read a record, change it and write it back in
separate steps, and yet every history of a fleet is one of changes that
were made one after another (`linearizable`):

- The versions of a machine's record form a chain: each was made by one
  call, of the version right before it, at a later time and at a later
  revision (`versions`, `Follows`).
- A call changes a record once, and a wait call twice: it sets its flag
  and clears it (`once`).
- What a successful call returns was the latest version of its machine's
  record at a moment between the call's beginning and its end: the
  version that the call wrote, or one that left it nothing to write.

# Why a call does not write twice

A write that is taken moves its call on: past the attempts for an
operation, past the mark for a wait call. `Task.progress` counts how far
a call is, no step lowers it, and a call that is about to write tells by
it what (`progress_mutation`). So the second write of a call is of
another kind.

Chain: over Versions.lean.
-/
import ControlPlane.Proofs.Fleet.Versions

namespace ControlPlane.Fleet

variable {s : Setting} {f g : Fleet} {h p q : History} {i r : Nat}
  {ch ch' : Choice} {t t' : Task} {m m' : String} {μ μ' : Mutation}
  {v v' : Versioned}

-- ============================================================ the chain

/-- The versions of a machine's record along a history, the latest
first. -/
def versions (s : Setting) (m : String) : History → List Versioned
  | [] => []
  | e :: h =>
      if (after s (e :: h)).stored m = (after s h).stored m then
        versions s m h
      else ((after s (e :: h)).stored m).toList ++ versions s m h

/-- An event adds no version, or the one that its call wrote. -/
theorem versions_step (s : Setting) (m : String) (e : Event)
    (h : History) :
    (versions s m (e :: h) = versions s m h
        ∧ (after s (e :: h)).stored m = (after s h).stored m)
      ∨ ∃ i ch μ v, e = .step i ch ∧ Follows s h i ch m μ v
          ∧ versions s m (e :: h) = v :: versions s m h := by
  by_cases hst : (after s (e :: h)).stored m = (after s h).stored m
  · exact Or.inl ⟨if_pos hst, hst⟩
  · rcases stored_step s h e m with hsame | ⟨i, ch, μ, v, rfl, hfol⟩
    · exact absurd hsame hst
    · refine Or.inr ⟨i, ch, μ, v, rfl, hfol, ?_⟩
      rw [versions, if_neg hst, hfol.stored]
      rfl

theorem versions_head (s : Setting) (m : String) (h : History) :
    (versions s m h).head? = (after s h).stored m := by
  induction h with
  | nil => rfl
  | cons e h ih =>
      rcases versions_step s m e h with
        ⟨hv, hst⟩ | ⟨i, ch, μ, v, rfl, hfol, hv⟩
      · rw [hv, hst, ih]
      · rw [hv, hfol.stored]
        rfl

theorem versions_ordered (s : Setting) (m : String) (h : History) :
    (versions s m h).Pairwise fun v u =>
      u.revision < v.revision
        ∧ u.record.changedAt < v.record.changedAt := by
  induction h with
  | nil => exact List.Pairwise.nil
  | cons e h ih =>
      rcases versions_step s m e h with
        ⟨hv, -⟩ | ⟨i, ch, μ, v, rfl, hfol, hv⟩
      · rw [hv]
        exact ih
      · rw [hv]
        refine List.pairwise_cons.mpr ⟨?_, ih⟩
        intro u hu
        cases hvs : versions s m h with
        | nil =>
            rw [hvs] at hu
            cases hu
        | cons w ws =>
            -- the version before is older, and all others older still
            have hw : (after s h).stored m = some w := by
              rw [← versions_head, hvs]
              rfl
            have hrev := (sane s h).revision m w hw
            obtain ⟨ch', q, -, hq, -, hlt, -⟩ := hfol.made
            have hclock := (sane s q).clock m w (hq.trans hw)
            have hnew := hfol.revision.1
            have hfirst : w.revision < v.revision
                ∧ w.record.changedAt < v.record.changedAt :=
              ⟨by omega, lt_of_le_of_lt hclock hlt⟩
            rw [hvs] at hu ih
            rcases List.mem_cons.mp hu with rfl | hu
            · exact hfirst
            · have hold := (List.pairwise_cons.mp ih).1 u hu
              exact ⟨Int.lt_trans hold.1 hfirst.1,
                lt_trans hold.2 hfirst.2⟩

theorem versions_link {vs : List Versioned}
    (hv : (v :: vs) <:+ versions s m h) :
    ∃ p i ch μ, (.step i ch :: p) <:+ h ∧ versions s m p = vs
      ∧ Follows s p i ch m μ v := by
  induction h with
  | nil => cases List.suffix_nil.mp hv
  | cons e h ih =>
      have hrest : (v :: vs) <:+ versions s m h →
          ∃ p i ch μ, (.step i ch :: p) <:+ (e :: h)
            ∧ versions s m p = vs ∧ Follows s p i ch m μ v := by
        intro hv
        obtain ⟨p, i, ch, μ, hp, hvs, hfol⟩ := ih hv
        exact ⟨p, i, ch, μ, hp.trans (List.suffix_cons _ _), hvs, hfol⟩
      rcases versions_step s m e h with
        ⟨hsame, -⟩ | ⟨i, ch, μ, w, rfl, hfol, hnew⟩
      · rw [hsame] at hv
        exact hrest hv
      · rw [hnew] at hv
        rcases List.suffix_cons_iff.mp hv with heq | hv
        · cases heq
          exact ⟨h, i, ch, μ, List.suffix_rfl, rfl, hfol⟩
        · exact hrest hv

-- ======================================================== once per call

/-- How far a call is: before its write, between the two writes of a
wait call, or behind all writes. -/
def Task.progress : Task → Nat
  | lifecycle c =>
      match c.stage with
      | .publishing _ | .recording _ _ | .finished _ => 2
      | _ => 0
  | wait c =>
      match c.stage with
      | .opening | .reading | .marking _ _ => 0
      | .closing _ | .ended _ => 2
      | _ => 1

/-- How far a call is that is about to write, -/
def Mutation.before : Mutation → Nat
  | clear => 1
  | _ => 0

/-- and how far it is once the write is taken. -/
def Mutation.behind : Mutation → Nat
  | mark => 1
  | _ => 2

theorem progress_mutation (h : t.mutation? = some μ) :
    t.progress = μ.before := by
  cases t with
  | lifecycle c =>
      obtain ⟨machine, op, topic, retry, pacing, stage⟩ := c
      cases stage with
      | creating =>
          cases op <;> cases h
          rfl
      | writing => cases h; rfl
      | _ => cases h
  | wait c =>
      obtain ⟨machine, node, settings, retry, stage⟩ := c
      cases stage with
      | marking => cases h; rfl
      | clearing _ s =>
          cases s <;> cases h
          rfl
      | _ => cases h

theorem Settles.progress {c c' : Lifecycle.Call} {x : MachineRecord}
    {created : Bool} (h : Settles c x created c') :
    (Task.lifecycle c').progress = 2 := by
  rcases h with ⟨-, rfl⟩ | ⟨_, _, _, -, rfl⟩ <;> rfl

theorem Wrote.progress {c c' : Lifecycle.Call} {x : MachineRecord}
    {created : Bool} (h : Wrote c x created c') :
    (Task.lifecycle c').progress = 2 := by
  rcases h with ⟨_, -, rfl⟩ | ⟨-, h⟩
  · rfl
  · exact h.progress

theorem ClearFailed.progress {c c' : Wait.Call} {q : Pacing}
    {e : StoreError} (h : ClearFailed c q e c') :
    1 ≤ (Task.wait c').progress := by
  rcases h with ⟨rfl, -⟩ | ⟨-, -, _, _, -, rfl⟩
  · exact Nat.le_succ 1
  · exact Nat.le_refl 1

theorem lifecycle_progress_zero {c : Lifecycle.Call} {w : Write}
    (h : lifecycleWrite? c = some w) :
    (Task.lifecycle c).progress = 0 := by
  unfold lifecycleWrite? at h
  cases hs : c.stage with
  | creating => simp only [Task.progress, hs]
  | writing => simp only [Task.progress, hs]
  | _ =>
      rw [hs] at h
      cases h

theorem block_progress {c : Wait.Call} {b : Wait.Block}
    (h : c.stage.block? = some b) : (Task.wait c).progress = 1 := by
  cases hs : c.stage with
  | blocked => simp only [Task.progress, hs]
  | rechecking => simp only [Task.progress, hs]
  | polling => simp only [Task.progress, hs]
  | sending => simp only [Task.progress, hs]
  | _ =>
      rw [hs] at h
      cases h

/-- No step takes a call back behind a write. -/
theorem TaskStep.progress (h : TaskStep f r t ch t' g) :
    t.progress ≤ t'.progress := by
  cases h with
  | @lifecycle c ch c' g h =>
      cases h with
      | wrote hw hon hfit hc =>
          rw [hc.progress, lifecycle_progress_zero hw]
          exact Nat.zero_le 2
      | unwritten hw he hc =>
          rw [lifecycle_progress_zero hw]
          exact Nat.zero_le _
      | lost hw hc =>
          rw [lifecycle_progress_zero hw]
          exact Nat.zero_le _
      | published hs hch hc =>
          rw [hc.progress]
          simp only [Task.progress, hs, Nat.le_refl]
      | recorded added hs => simp only [Task.progress, hs]; exact Nat.le_refl 2
      | prepared hs => simp only [Task.progress, hs, Nat.zero_le]
      | kept hs => simp only [Task.progress, hs, Nat.zero_le]
      | rejected hs => simp only [Task.progress, hs, Nat.zero_le]
      | unknown hs => simp only [Task.progress, hs, Nat.zero_le]
      | unread hs => simp only [Task.progress, hs, Nat.zero_le]
      | resumed hs => simp only [Task.progress, hs, Nat.zero_le]
  | @wait c ch c' g h =>
      cases h with
      | @stays ch b x b' g hs hb =>
          rw [block_progress hs, block_progress (c := c.goto x) hb]
      | saw hs =>
          rw [block_progress hs]
          exact Nat.le_refl 1
      | left hs =>
          rw [block_progress hs]
          exact Nat.le_succ 1
      | clearUnread hs he hc =>
          simp only [Task.progress, hs]
          exact hc.progress
      | unclear hs he hc =>
          simp only [Task.progress, hs]
          exact hc.progress
      | clearLost hs hc =>
          simp only [Task.progress, hs]
          exact hc.progress
      | clearPrepared hs => simp only [Task.progress, hs]; exact Nat.le_refl 1
      | clearKept hs => simp only [Task.progress, hs]; exact Nat.le_succ 1
      | cleared hs => simp only [Task.progress, hs]; exact Nat.le_succ 1
      | clearResumed hs => simp only [Task.progress, hs]; exact Nat.le_refl 1
      | said hs => simp only [Task.progress, hs]; exact Nat.le_refl 2
      | entered hs => simp only [Task.progress, hs]; exact Nat.le_refl 1
      | barred hs => simp only [Task.progress, hs]; exact Nat.le_succ 1
      | opened hs => simp only [Task.progress, hs, Nat.zero_le]
      | already hs => simp only [Task.progress, hs, Nat.zero_le]
      | prepared hs => simp only [Task.progress, hs, Nat.zero_le]
      | unread hs => simp only [Task.progress, hs, Nat.zero_le]
      | marked hs => simp only [Task.progress, hs, Nat.zero_le]
      | unmarked hs => simp only [Task.progress, hs, Nat.zero_le]
      | markLost hs => simp only [Task.progress, hs, Nat.zero_le]

/-- A step in which the store takes a call's write takes the call behind
that write, if the backend says so. -/
theorem TaskStep.progress_taken (h : TaskStep f r t ch t' g)
    (hch : ch.faithful = true) (hst : g.store ≠ f.store)
    (hμ : t.mutation? = some μ) : μ.behind ≤ t'.progress := by
  cases h with
  | lifecycle h =>
      obtain ⟨w, -, hc⟩ := h.taken hch hst
      rw [hc.progress]
      cases μ with
      | mark => exact Nat.le_succ 1
      | _ => exact Nat.le_refl 2
  | wait h =>
      rcases h.taken hch hst with
        ⟨old, next, hs, rfl⟩ | ⟨p, old, next, hs, rfl⟩
      · simp only [Task.mutation?, hs] at hμ
        cases hμ
        exact Nat.le_refl 1
      · simp only [Task.mutation?, hs] at hμ
        cases hμ
        exact Nat.le_refl 2

theorem progress_event (e : Event) {x : Slot}
    (hx : f.slots[i]? = some x) :
    ∃ x', (f.step e).slots[i]? = some x'
      ∧ x.task.progress ≤ x'.task.progress := by
  obtain ⟨x', hx', -⟩ := slot_kept e hx
  refine ⟨x', hx', ?_⟩
  have hs := slot_step hx'
  generalize f.step e = g at hs
  cases hs with
  | same hs => cases hs.symm.trans hx; exact Nat.le_refl _
  | idle hs => cases hs.symm.trans hx; exact Nat.le_refl _
  | submitted hs => rw [hs] at hx; cases hx
  | awaited hs => rw [hs] at hx; cases hx
  | advanced hs ht => cases hs.symm.trans hx; exact ht.progress
  | @expired r c g hs hu =>
      cases hs.symm.trans hx
      show _ ≤ 2
      simp only [Task.progress]
      split <;> omega
  | dropped hs => cases hs.symm.trans hx; exact Nat.le_refl _

theorem progress_later (hp : p <:+ h) {x : Slot}
    (hx : (after s p).slots[i]? = some x) :
    ∃ x', (after s h).slots[i]? = some x'
      ∧ x.task.progress ≤ x'.task.progress := by
  induction h with
  | nil =>
      rw [List.suffix_nil.mp hp] at hx
      cases hx
  | cons e h ih =>
      rcases List.suffix_cons_iff.mp hp with rfl | hp'
      · exact ⟨x, hx, Nat.le_refl _⟩
      · obtain ⟨x', hx', hle⟩ := ih hp'
        obtain ⟨y, hy, hle'⟩ := progress_event e hx'
        exact ⟨y, hy, Nat.le_trans hle hle'⟩

/-- Once its write is taken, a call is behind it for ever. -/
theorem Follows.behind (hfol : Follows s p i ch m μ v)
    (hch : ch.faithful = true) (hq : (.step i ch :: p) <:+ q) {x : Slot}
    (hx : (after s q).slots[i]? = some x) : μ.behind ≤ x.task.progress := by
  obtain ⟨r, t, t', g, -, -, hμ, ht, hst, hy⟩ := hfol.step
  obtain ⟨x', hx', hle⟩ := progress_later hq hy
  cases hx'.symm.trans hx
  exact Nat.le_trans (ht.progress_taken hch hst hμ) hle

/-- A later write of a call is its second one: after the mark of a wait
call, the clearing. -/
theorem Follows.later (hfol : Follows s p i ch m μ v)
    (hch : ch.faithful = true) (hq : (.step i ch :: p) <:+ q)
    (hfol' : Follows s q i ch' m' μ' v') : μ = .mark ∧ μ' = .clear := by
  obtain ⟨r, t, hi, -, hμ⟩ := hfol'.call
  have hle := hfol.behind hch hq hi
  rw [show (⟨r, t, false⟩ : Slot).task = t from rfl,
    progress_mutation hμ] at hle
  cases μ <;> cases μ' <;> simp_all [Mutation.behind, Mutation.before]

/-- A call writes once, and a wait call once of each kind. -/
theorem once (hf : Faithful h) (hp : (.step i ch :: p) <:+ h)
    (hq : (.step i ch' :: q) <:+ h) (hfol : Follows s p i ch m μ v)
    (hfol' : Follows s q i ch' m' μ' v') :
    p = q ∨ (μ = .mark ∧ μ' = .clear) ∨ (μ = .clear ∧ μ' = .mark) := by
  have hch : ch.faithful = true := hf _ (hp.subset List.mem_cons_self)
  have hch' : ch'.faithful = true := hf _ (hq.subset List.mem_cons_self)
  rcases List.suffix_or_suffix_of_suffix hp hq with hpq | hqp
  · rcases List.suffix_cons_iff.mp hpq with heq | hpq
    · exact Or.inl (List.cons.inj heq).2
    · exact Or.inr (Or.inl (hfol.later hch hpq hfol'))
  · rcases List.suffix_cons_iff.mp hqp with heq | hqp
    · exact Or.inl (List.cons.inj heq).2.symm
    · obtain ⟨h1, h2⟩ := hfol'.later hch' hqp hfol
      exact Or.inr (Or.inr ⟨h2, h1⟩)

-- ============================================================ the answers

/-- Call `i` is under way: begun, not given up, and not finished. -/
def Underway (f : Fleet) (i : Nat) : Prop :=
  ∃ r c, f.slots[i]? = some ⟨r, .lifecycle c, false⟩
    ∧ ∀ result, c.stage ≠ .finished result

/-- In one of its steps call `i` got hold of the record `x` of its
machine: it put `x` there itself, or it found `x` there and had nothing
to write. Either way `x` was the latest version at that moment. -/
def Obtained (s : Setting) (h : History) (i : Nat) (c : Lifecycle.Call)
    (x : MachineRecord) : Prop :=
  ∃ ch q v, (.step i ch :: q) <:+ h ∧ Underway (after s q) i
    ∧ v.record = x
    ∧ ((∃ μ, Follows s q i ch c.machine μ v)
      ∨ ((after s q).stored c.machine = some v
        ∧ (c.operation.change v.record (after s q).ambient).1
          = .ok none))

/-- Whatever a call returns, it obtained in one of its own steps. -/
theorem obtained {x : Slot} {c : Lifecycle.Call} {y : MachineRecord}
    (hx : (after s h).slots[i]? = some x) (hc : x.task = .lifecycle c)
    (hy : result? c = some y) : Obtained s h i c y := by
  revert c y
  refine slot_induction (s := s)
    (P := fun i h t => ∀ {c : Lifecycle.Call} {y : MachineRecord},
      t = .lifecycle c → result? c = some y → Obtained s h i c y)
    ?_ ?_ ?_ ?_ ?_ h i x hx
  · intro i e h t ih c y hc hy
    obtain ⟨ch, q, v, hq, hv⟩ := ih hc hy
    exact ⟨ch, q, v, hq.trans (List.suffix_cons _ _), hv⟩
  · intro i r retry m op h c y hc hy
    cases hc
    cases hy
  · intro i r node settings retry machine h c y hc hy
    cases hc
  · intro i r ch t t' h g hi ht hg ih c' y hc hy
    subst hc
    -- what the call had before, it still has
    have hkeep : ∀ {c : Lifecycle.Call}, t = .lifecycle c →
        result? c = some y → c'.machine = c.machine →
        c'.operation = c.operation →
          Obtained s (.step i ch :: h) i c' y := by
      intro c hc hy hm ho
      obtain ⟨ch, q, v, hq, hv⟩ := ih hc hy
      unfold Obtained
      rw [hm, ho]
      exact ⟨ch, q, v, hq.trans (List.suffix_cons _ _), hv⟩
    cases ht with
    | @lifecycle c ch _ g hstep =>
        cases hstep with
        | prepared => cases hy
        | @kept tm v a _ _ hs hv hx hset hst =>
            obtain ⟨hres, hm, ho⟩ := hset.result
            cases hres.symm.trans hy
            refine ⟨_, h, v, List.suffix_rfl, ⟨r, c, hi, ?_⟩, rfl,
              Or.inr ?_⟩
            · intro result hfin
              rw [hs] at hfin
              cases hfin
            · rw [hm, ho, hx]
              exact ⟨hv, rfl⟩
        | rejected => cases hy
        | unknown => cases hy
        | unread hs he hfail => rw [hfail.result] at hy; cases hy
        | @wrote tm w _ _ hw hon hfit hwr hst =>
            have hres : result? c' = some w.record
                ∧ c'.machine = c.machine := by
              rcases hwr with ⟨req, -, rfl⟩ | ⟨-, hset⟩
              · exact ⟨rfl, rfl⟩
              · exact ⟨hset.result.1, hset.result.2.1⟩
            cases hres.1.symm.trans hy
            obtain ⟨-, μ, hfol⟩ := follows_of_fits (.serve tm) hi hw
              hfit (by
                rw [hg]
                obtain ⟨a, -, rfl⟩ := hst
                rfl)
            refine ⟨_, h, ⟨w.record, (after s h).store.revision + 1⟩,
              List.suffix_rfl, ⟨r, c, hi, ?_⟩, rfl, Or.inl ⟨μ, ?_⟩⟩
            · intro result hfin
              rw [lifecycleWrite?, hfin] at hw
              cases hw
            · rw [hres.2]
              exact hfol
        | unwritten hw he hfail => rw [hfail.result] at hy; cases hy
        | lost hw hfail => rw [hfail.result] at hy; cases hy
        | resumed => cases hy
        | published hs hch hset =>
            obtain ⟨hres, hm, ho⟩ := hset.result
            cases hres.symm.trans hy
            exact hkeep rfl (by simp only [result?, hs]) hm ho
        | recorded added hs =>
            cases hy
            exact hkeep rfl (by simp only [result?, hs]) rfl rfl
  · intro i r c h hi hu ih c' y hc hy
    cases hc

/-- Is a wait call at this stage only once it has set its flag? -/
def pastMark : Wait.Stage → Bool
  | .entering | .blocked _ | .rechecking _ | .polling _ | .sending _
  | .clearing _ _ => true
  | .closing (.ok .allocated) | .ended (.ok .allocated) => true
  | _ => false

theorem pastMark_block {x : Wait.Stage} {b : Wait.Block}
    (h : x.block? = some b) : pastMark x = true := by
  cases x with
  | blocked => rfl
  | rechecking => rfl
  | polling => rfl
  | sending => rfl
  | _ => cases h

/-- A wait call that blocks, or that was allocated while it blocked, has
set its flag. -/
theorem marked {x : Slot} {c : Wait.Call}
    (hx : (after s h).slots[i]? = some x) (hc : x.task = .wait c)
    (hst : pastMark c.stage = true) :
    ∃ ch q v, (.step i ch :: q) <:+ h
      ∧ Follows s q i ch c.machine .mark v := by
  revert c
  refine slot_induction (s := s)
    (P := fun i h t => ∀ {c : Wait.Call}, t = .wait c →
      pastMark c.stage = true → ∃ ch q v, (.step i ch :: q) <:+ h
        ∧ Follows s q i ch c.machine .mark v)
    ?_ ?_ ?_ ?_ ?_ h i x hx
  · intro i e h t ih c hc hst
    obtain ⟨ch, q, v, hq, hv⟩ := ih hc hst
    exact ⟨ch, q, v, hq.trans (List.suffix_cons _ _), hv⟩
  · intro i r retry m op h c hc hst
    cases hc
  · intro i r node settings retry machine h c hc hst
    cases hc
    cases hst
  · intro i r ch t t' h g hi ht hg ih c' hc hst
    subst hc
    have hkeep : ∀ {c : Wait.Call}, t = .wait c →
        c'.machine = c.machine → pastMark c.stage = true →
          ∃ ch' q v, (.step i ch' :: q) <:+ (.step i ch :: h)
            ∧ Follows s q i ch' c'.machine .mark v := by
      intro c hc hm hst
      obtain ⟨ch, q, v, hq, hv⟩ := ih hc hst
      rw [hm]
      exact ⟨ch, q, v, hq.trans (List.suffix_cons _ _), hv⟩
    cases ht with
    | @wait c ch _ g hstep =>
        cases hstep with
        | @marked tm old next _ hs hon hfit hst' =>
            obtain ⟨-, μ, hfol⟩ := follows_of_fits (.serve tm)
              (w := .update old next) hi (by simp only [Task.write?, hs])
              hfit (by
                rw [hg]
                obtain ⟨a, -, rfl⟩ := hst'
                rfl)
            obtain ⟨r', t', hi', -, hμ⟩ := hfol.call
            cases hi.symm.trans hi'
            simp only [Task.mutation?, hs] at hμ
            cases hμ
            exact ⟨_, h, _, List.suffix_rfl, hfol⟩
        | entered hs => exact hkeep rfl rfl (by rw [hs]; rfl)
        | stays hs => exact hkeep rfl rfl (pastMark_block hs)
        | saw hs => exact hkeep rfl rfl (pastMark_block hs)
        | clearPrepared hs => exact hkeep rfl rfl (by rw [hs]; rfl)
        | clearKept hs => exact hkeep rfl rfl (by rw [hs]; rfl)
        | cleared hs => exact hkeep rfl rfl (by rw [hs]; rfl)
        | clearResumed hs => exact hkeep rfl rfl (by rw [hs]; rfl)
        | clearUnread hs he hfail =>
            exact hkeep rfl hfail.same.machine (by rw [hs]; rfl)
        | unclear hs he hfail =>
            exact hkeep rfl hfail.same.machine (by rw [hs]; rfl)
        | clearLost hs hfail =>
            exact hkeep rfl hfail.same.machine (by rw [hs]; rfl)
        | @said tm result g hs =>
            refine hkeep rfl rfl ?_
            rw [hs]
            cases result with
            | ok outcome =>
                cases outcome with
                | allocated => rfl
                | alreadyAllocated => cases hst
            | error e => cases hst
        | _ => cases hst
  · intro i r c h hi hu ih c' hc hst
    cases hc
    cases hst

-- ============================================================ the theorem

/-- A history whose calls may as well have changed each record one after
another. -/
structure Linearizable (s : Setting) (h : History) : Prop where
  /-- The latest version is what is stored. -/
  latest : ∀ m, (versions s m h).head? = (after s h).stored m
  /-- Versions come in the order of their revisions, and of the times
  that they bear. -/
  ordered : ∀ m, (versions s m h).Pairwise fun v u =>
    u.revision < v.revision ∧ u.record.changedAt < v.record.changedAt
  /-- Every version was made by one call, of the version before it. -/
  linked : ∀ m v before, (v :: before) <:+ versions s m h →
    ∃ p i ch μ, (.step i ch :: p) <:+ h ∧ versions s m p = before
      ∧ Follows s p i ch m μ v
  /-- No call writes twice, but for a wait call, which sets its flag and
  clears it. -/
  once : ∀ p q i ch ch' m m' μ μ' v v',
    (.step i ch :: p) <:+ h → Follows s p i ch m μ v →
    (.step i ch' :: q) <:+ h → Follows s q i ch' m' μ' v' →
      p = q ∨ (μ = .mark ∧ μ' = .clear) ∨ (μ = .clear ∧ μ' = .mark)
  /-- What a call returned was the latest version while it was under
  way, and if there was anything to write, the call wrote it. -/
  answered : ∀ i r c d x, (after s h).slots[i]? = some ⟨r, .lifecycle c, d⟩ →
    c.stage = .finished (.ok x) → Obtained s h i c x
  /-- A wait call that was allocated while it waited had set its flag. -/
  awaited : ∀ i r c d, (after s h).slots[i]? = some ⟨r, .wait c, d⟩ →
    c.stage = .ended (.ok .allocated) →
      ∃ ch q v, (.step i ch :: q) <:+ h
        ∧ Follows s q i ch c.machine .mark v

/-- Read, change and write back in separate steps, interleaved in
whatever way: no update is lost and none is made twice. -/
theorem linearizable (hf : Faithful h) : Linearizable s h where
  latest m := versions_head s m h
  ordered m := versions_ordered s m h
  linked m v before hv := versions_link hv
  once p q i ch ch' m m' μ μ' v v' hp hfol hq hfol' :=
    once hf hp hq hfol hfol'
  answered i r c d x hi hfin := obtained hi rfl (by rw [result?, hfin])
  awaited i r c d hi hend := marked hi rfl (by rw [hend]; rfl)

/-- An allocation and a second registration read the same version of a
record; the allocation writes first, so the registration has to start
over. -/
def race : History :=
  [.step 2 (.serve 0), .step 2 (.serve 0), .step 2 (.serve 0),
    .step 2 (.serve 0), .step 1 (.serve 0), .step 2 (.serve 0),
    .step 1 (.serve 0),
    .submit 1 labRetry "m" (.register { partition := "p" }),
    .submit 0 labRetry "m" (.allocate
      { project := "a", hostname := "h", image := "i" }),
    .step 0 (.serve 0), .step 0 (.serve 0),
    .submit 0 labRetry "m" (.register {})]

theorem linearizable_race :
    (versions lab "m" race).length = 3 ∧ Linearizable lab race :=
  ⟨by decide +kernel, linearizable (by unfold Faithful race; decide)⟩

end ControlPlane.Fleet
