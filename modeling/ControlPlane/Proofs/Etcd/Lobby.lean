/-
The names on the bus on the server, where to subscribe takes time. A
subscribe claims its name at once and then waits for its first watch;
meanwhile anything can happen, other subscribes included, and it can fail
or be given up. A lobby is a site with the subscribes that are under
way.

# The two stages

The name is claimed before the watch is asked for, and is given back if
there is none (`Lobby.act`). A subscribe that nothing comes between is
both stages one after the other (`Lobby.answer_claim`), so that all that
is said of lobbies holds of a site where subscribes are over at once.

# What a loop does about names

A receive loop looks at messages, opens watches and pauses without a look
at its name, and gives it back with the turn that ends it
(`Bus.turn_moves`). Whoever breaks its watches or drops its handle leaves
the name alone: it is the loop that gives it back.

Chain: over Roster.lean and DroppedHandles.lean; consumed by
SubscriptionNames.lean.
-/
import ControlPlane.Proofs.DroppedHandles
import ControlPlane.Proofs.Roster

namespace ControlPlane.Etcd

-- ================================================ the names of the bus

/-- A subscription, by its name. -/
def Subscriber.holder (x : Subscriber) : Holder := ⟨x.name, x.hasEnded⟩

theorem Subscriber.cut_holder (x : Subscriber) (last : Nat)
    (withError : Bool) : (x.cut last withError).holder = x.holder := by
  unfold cut
  split
  · rename_i next hs
    simp [holder, name, hasEnded, hs]
  · rfl

theorem Subscriber.look_name (x : Subscriber) (c : Change)
    (a : Ambient) : (x.look c a).1.name = x.name := by
  unfold look
  split
  · rfl
  · simp only
    split
    · exact Dispatcher.accept_subscription _ _ _
    · rfl

namespace Bus

variable {σ : Type} {c : Client σ} {server : σ → Server} {b b' : Bus}
  {x : Subscriber} {i : Nat} {now : Moment} {s t : σ} {a a' : Ambient}
  {g : Subscriber → Subscriber} {claims : List String}
  {asked : Option String}

/-- Who holds the names, with those that are claimed by subscribes under
way. -/
def roster (claims : List String) (b : Bus) : Roster :=
  { names := b.names, claims
    loops := b.subscribers.map Subscriber.holder }

theorem modify_roster
    (h : ∀ x, b.subscribers[i]? = some x → (g x).holder = x.holder) :
    (b.modify i g).roster claims = b.roster claims := by
  show Roster.mk b.names claims ((b.subscribers.modify i g).map _) = _
  rw [Roster.map_modify_same h]
  rfl

/-- The handle of a subscription is nothing to its name. -/
theorem handle_roster (b : Bus) (i : Nat) (c : Bool) :
    (b.modify i fun x => { x with cancelled := c }).roster claims
      = b.roster claims :=
  modify_roster fun _ _ => rfl

theorem Turn.name {r : Option Envelope} {x' : Subscriber}
    (ht : b.Turn c server now s a x r x' t) : x'.name = x.name := by
  cases ht with
  | started hd => exact Dispatcher.start_subscription hd
  | looked => exact Subscriber.look_name _ _ _
  | _ => rfl

theorem turn_moves {r : Option Envelope}
    (h : b.turn c server i now s a = some (r, b', t, a')) :
    (b.roster claims).Moves asked (b'.roster claims) := by
  obtain ⟨x, x', hx, hrun, hturn, hset, hnames⟩ := turn_some h
  have hi : (b.roster claims).loops[i]? = some ⟨x.name, false⟩ :=
    hrun ▸ Roster.map_get? Subscriber.holder hx
  have hafter : b'.roster claims = ⟨b'.names, claims,
      (b.roster claims).loops.set i ⟨x.name, x'.hasEnded⟩⟩ := by
    unfold roster
    rw [hset, List.map_set, Subscriber.holder, hturn.name]
  rw [hafter, hnames]
  cases hend : x'.hasEnded with
  | true => exact .ended hi
  | false =>
      -- the loop keeps its name, and no other loop does anything
      obtain ⟨hlt, hget⟩ := List.getElem?_eq_some_iff.mp hi
      rw [← hget, List.set_getElem_self hlt]
      exact .still

/-- The first watch of a subscribe is open, and its receive loop
begins. -/
def begin (b : Bus) (topic name : String) (options : SubscriptionOptions)
    (next : Nat) : Bus :=
  let x : Subscriber :=
    { topic, dispatcher := { subscription := name, options, checkAge := false }
      state := .watching { next } }
  { b with subscribers := b.subscribers ++ [x] }

/-- A name is claimed, -/
def claim (b : Bus) (name : String) : Bus :=
  { b with names := name :: b.names }

/-- and given back. -/
def release (b : Bus) (name : String) : Bus :=
  { b with names := b.names.filter fun n => ! decide (n = name) }

theorem release_claim {name : String} (hfree : name ∉ b.names) :
    (b.claim name).release name = b := by
  have hkept : (name :: b.names).filter (fun n => ! decide (n = name))
      = b.names := by
    rw [List.filter_cons_of_neg (by simp), List.filter_eq_self]
    intro n hn
    have hne : n ≠ name := fun heq => hfree (heq ▸ hn)
    simpa using hne
  unfold claim release
  rw [hkept]

/-- A subscribe claims its name and asks for its first watch. If there is
none it gives the name back; else its receive loop begins. -/
theorem subscribe_eq {topic name : String}
    {options : SubscriptionOptions} (hfree : name ∉ b.names) :
    b.subscribe c topic name options s a
      = match c.send (.watch (.under (topicRoot topic)) none) s with
        | (.error detail, s) =>
          (.error (.etcd detail), (b.claim name).release name, s, a)
        | (.ok next, s) =>
          (.ok b.subscribers.length,
            (b.claim name).begin topic name options next, s,
            a.say (.watchStarted name (topicRoot topic))) := by
  unfold subscribe
  rw [if_neg hfree, release_claim hfree]
  rfl

theorem begin_roster (b : Bus) (topic name : String)
    (options : SubscriptionOptions) (next : Nat) :
    (b.begin topic name options next).roster claims
      = (b.roster claims).begin name := by
  simp [roster, begin, Roster.begin, Subscriber.holder, Subscriber.name,
    Subscriber.hasEnded]

theorem subscribe_moves (b : Bus) (c : Client σ) (topic name : String)
    (options : SubscriptionOptions) (s : σ) (a : Ambient) :
    (b.roster claims).Moves (some name)
      ((b.subscribe c topic name options s a).2.1.roster claims) := by
  by_cases hname : name ∈ b.names
  · unfold subscribe
    rw [if_pos hname]
    exact .still
  · rw [subscribe_eq hname]
    split
    · rw [release_claim hname]
      exact .still
    · rw [begin_roster]
      exact .joined rfl hname

end Bus

namespace Site

variable {claims : List String}

/-- The name that is asked for with an event. -/
def Event.asks : Event → Option String
  | .subscribe _ name _ _ => some name
  | _ => none

theorem step_moves (f : Site) (e : Event) :
    (f.bus.roster claims).Moves e.asks
      ((f.step e).bus.roster claims) := by
  have modified : ∀ (j : Nat) (g : Subscriber → Subscriber),
      (∀ x : Subscriber, (g x).holder = x.holder) →
        (f.bus.roster claims).Moves e.asks
          ((f.bus.modify j g).roster claims) := by
    intro j g hg
    rw [Bus.modify_roster fun x _ => hg x]
    exact .still
  cases e with
  | put key value lease => exact .still
  | delete key => exact .still
  | publish topic payload fates => exact .still
  | subscribe topic name options fates =>
      exact f.bus.subscribe_moves .foretold topic name options _ _
  | unsubscribe j => exact modified j _ fun _ => rfl
  | cut j last withError =>
      exact modified j _ fun x => x.cut_holder last withError
  | breakWatches withError =>
      have hsame : (f.bus.breakWatches f.server withError).roster claims
          = f.bus.roster claims := by
        show Roster.mk _ claims ((f.bus.subscribers.map fun x =>
          x.cut f.server.revision withError).map _) = _
        rw [List.map_map]
        exact congrArg (Roster.mk _ claims) (List.map_congr_left
          fun x _ => x.cut_holder _ _)
      exact hsame ▸ .still
  | turn j now fates =>
      simp only [step]
      cases ht : f.bus.turn .foretold Prod.fst j now (f.server, fates)
          f.ambient with
      | none => exact .still
      | some res =>
          obtain ⟨r, b', t, a'⟩ := res
          exact Bus.turn_moves ht
  | finish j => exact modified j _ fun _ => rfl

theorem deed_moves (f : Site) (i : Nat) (x : Deed Event) :
    (f.bus.roster claims).Moves x.inner.asks
      (((loop i).deed f x).bus.roster claims) := by
  cases x with
  | event e => exact f.step_moves e
  | heedless e =>
      have hback : (f.bus.modify i fun x =>
          { x with cancelled := false }).roster claims
          = f.bus.roster claims := Bus.handle_roster _ i false
      show (f.bus.roster claims).Moves e.asks
        ((Bus.cancel (step { f with bus := f.bus.modify i _ } e).bus
          i).roster claims)
      rw [Bus.cancel, Bus.handle_roster, ← hback]
      exact step_moves { f with bus := _ } e

end Site

-- ==================================================== subscribes under way

/-- A subscribe that waits for its first watch. -/
structure Applicant where
  topic : String
  name : String
  options : SubscriptionOptions

/-- A site, and the subscribes under way. -/
structure Lobby where
  site : Site
  waiting : List Applicant := []

namespace Lobby

/-- What happens where subscribes take their time. -/
inductive Act
  /-- Anything on the site; the loop `i` may overlook its handle. -/
  | deed (i : Nat) (x : Deed Site.Event)
  /-- A subscribe claims its name, if it can, and asks for its first
  watch. -/
  | claim (topic name : String) (options : SubscriptionOptions)
  /-- A subscribe under way gets an answer. -/
  | answer (k : Nat) (fates : List Passage)
  /-- A subscribe under way is given up. -/
  | withdraw (k : Nat)

/-- The name that is asked for with an act. -/
def Act.asks : Act → Option String
  | .deed _ x => x.inner.asks
  | .claim _ name _ => some name
  | _ => none

/-- What an act makes of a lobby. -/
def act (f : Lobby) : Act → Lobby
  | .deed i x => { f with site := (Site.loop i).deed f.site x }
  | .claim topic name options =>
    if name ∈ f.site.bus.names then f
    else
      { site := { f.site with bus := f.site.bus.claim name }
        waiting := f.waiting ++ [⟨topic, name, options⟩] }
  | .answer k fates =>
    match f.waiting[k]? with
    | none => f
    | some p =>
      match Client.foretold.send
        (.watch (.under (Bus.topicRoot p.topic)) none)
        (f.site.server, fates) with
      | (.error _, s) =>
        { site := { f.site with
            server := s.1, bus := f.site.bus.release p.name }
          waiting := f.waiting.eraseIdx k }
      | (.ok next, s) =>
        { site := { f.site with
            server := s.1
            bus := f.site.bus.begin p.topic p.name p.options next
            ambient := f.site.ambient.say
              (.watchStarted p.name (Bus.topicRoot p.topic)) }
          waiting := f.waiting.eraseIdx k }
  | .withdraw k =>
    match f.waiting[k]? with
    | none => f
    | some p =>
      { site := { f.site with bus := f.site.bus.release p.name }
        waiting := f.waiting.eraseIdx k }

variable {f : Lobby} {p : Applicant} {k : Nat}

/-- Who holds the names. -/
def roster (f : Lobby) : Roster :=
  f.site.bus.roster (f.waiting.map Applicant.name)

/-- A subscribe that nothing comes between is its two stages one after
the other. -/
theorem answer_claim (f : Lobby) (topic name : String)
    (options : SubscriptionOptions) (fates : List Passage) :
    (f.act (.claim topic name options)).act
        (.answer f.waiting.length fates)
      = { f with
        site := f.site.step (.subscribe topic name options fates) } := by
  simp only [act, Site.step]
  by_cases hname : name ∈ f.site.bus.names
  · rw [if_pos hname]
    simp [Bus.subscribe, hname]
  · rw [if_neg hname, Bus.subscribe_eq hname]
    simp only [List.getElem?_concat_length]
    have hback : ∀ p : Applicant,
        (f.waiting ++ [p]).eraseIdx f.waiting.length = f.waiting := by
      simp [List.eraseIdx_append_of_length_le]
    rw [hback]
    rcases Client.foretold.send (.watch (.under (Bus.topicRoot topic)) none)
        (f.site.server, fates) with ⟨_ | _, s⟩
    · rfl
    · rfl

theorem holder_get? {x : Subscriber} {i : Nat} {ended : Bool}
    (hx : f.site.bus.subscribers[i]? = some x)
    (he : x.hasEnded = ended) :
    f.roster.loops[i]? = some ⟨x.name, ended⟩ :=
  he ▸ Roster.map_get? Subscriber.holder hx

theorem act_moves (f : Lobby) (x : Act) :
    f.roster.Moves x.asks (f.act x).roster := by
  have claimed : ∀ {k : Nat} {p : Applicant}, f.waiting[k]? = some p →
      f.roster.claims[k]? = some p.name := by
    intro k p hp
    show (f.waiting.map Applicant.name)[k]? = _
    rw [List.getElem?_map, hp]
    rfl
  -- the subscribe comes to nothing
  have released : ∀ {k : Nat} {p : Applicant}, f.waiting[k]? = some p →
      f.roster.Moves x.asks ((f.site.bus.release p.name).roster
        ((f.waiting.eraseIdx k).map Applicant.name)) := by
    intro k p hp
    rw [← List.eraseIdx_map]
    exact .withdrawn (claimed hp)
  cases x with
  | deed i x => exact f.site.deed_moves i x
  | claim topic name options =>
      simp only [act]
      split
      · exact .still
      · rename_i hfree
        show f.roster.Moves (some name) ((f.site.bus.claim name).roster
          ((f.waiting ++ [_]).map Applicant.name))
        rw [List.map_append]
        exact .claimed rfl hfree
  | answer k fates =>
      simp only [act]
      split
      · exact .still
      · rename_i p hp
        split
        · exact released hp
        · rename_i next s hs
          show f.roster.Moves none ((f.site.bus.begin p.topic p.name p.options
            next).roster ((f.waiting.eraseIdx k).map Applicant.name))
          rw [Bus.begin_roster, ← List.eraseIdx_map]
          exact .settled (claimed hp)
  | withdraw k =>
      simp only [act]
      split
      · exact .still
      · rename_i p hp
        exact released hp

/-- A lobby where nothing has happened yet. -/
def opened (st : Site.Setting) : Lobby := { site := Site.after st [] }

/-- The names of a lobby, whatever is done there. -/
def register : Register Lobby Act where
  roster := roster
  act := act
  asks := Act.asks
  moves := act_moves

end Lobby

end ControlPlane.Etcd
