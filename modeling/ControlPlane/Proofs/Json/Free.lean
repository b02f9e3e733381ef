/-
Free-form values are read back. A payload may be any JSON, so nothing is
known of its shape but what reading it makes sure of: the members of
each object come in the order of their keys, no key twice (`Ordered`),
and containers nest no deeper than there is room (`depth`). Such a value
is its own reading (`value_draft`), and every value that was read is such
a value (`ordered_of_value`).

The reader puts one member after the other into its place among those
before it. Of members that are in order each one's place is the last, so
that the members that were read are always a front part of those that
were written.

# The order of members
# Depth
# Reading
# What was read

Chain: Json/Values.lean → Json/Free (this file) → Messages.lean.
-/
import Mathlib.Data.String.Basic
import ControlPlane.Text.Json.Form

namespace ControlPlane.Json

-- ================================================ the order of members

/-- The members are in the order of their keys, and no key is repeated. -/
def Sorted (ms : List (String × Json)) : Prop :=
  ms.Pairwise fun m n => m.1 < n.1

mutual

/-- The members of every object in the value are sorted. -/
def Ordered : Json → Prop
  | .array items => OrderedItems items
  | .object members => Sorted members ∧ OrderedMembers members
  | _ => True

/-- `Ordered` of every item. -/
def OrderedItems : List Json → Prop
  | [] => True
  | j :: rest => Ordered j ∧ OrderedItems rest

/-- `Ordered` of every member's value. -/
def OrderedMembers : List (String × Json) → Prop
  | [] => True
  | (_, v) :: rest => Ordered v ∧ OrderedMembers rest

end

/-- A key behind all others comes last. -/
theorem insertMember_last {key : String} {ms : List (String × Json)}
    (h : ∀ m ∈ ms, m.1 < key) (value : Json) :
    insertMember key value ms = ms ++ [(key, value)] := by
  induction ms with
  | nil => rfl
  | cons m ms ih =>
      obtain ⟨k, v⟩ := m
      have hlt : k < key := h (k, v) (by simp)
      have hms := ih fun n hn => h n (by simp [hn])
      rw [insertMember, if_neg hlt.ne', if_neg (lt_asymm hlt), hms]
      rfl

-- ================================================================ depth

mutual

/-- How many containers of the value stand in each other, at most. -/
def depth : Json → Nat
  | .array items => depthItems items + 1
  | .object members => depthMembers members + 1
  | _ => 0

/-- The greatest `depth` of an item. -/
def depthItems : List Json → Nat
  | [] => 0
  | j :: rest => max (depth j) (depthItems rest)

/-- The greatest `depth` of a member's value. -/
def depthMembers : List (String × Json) → Nat
  | [] => 0
  | (_, v) :: rest => max (depth v) (depthMembers rest)

end

-- ============================================================== reading

mutual

/-- A value that is in order is read from its draft, if there is room
for its containers. -/
theorem value_draft {room : Nat} (j : Json) (ho : Ordered j)
    (hd : depth j ≤ room) : (draft j).value room = .ok j := by
  match j with
  | .null => rfl
  | .bool b => rfl
  | .number n => rfl
  | .string s => rfl
  | .array items =>
      rw [Ordered] at ho
      rw [depth] at hd
      obtain ⟨room, rfl⟩ : ∃ k, room = k + 1 := ⟨room - 1, by omega⟩
      have hitems := values_draftItems items ho (by omega : _ ≤ room)
      simp only [draft, Draft.value, hitems, Except.map]
  | .object members =>
      rw [Ordered] at ho
      rw [depth] at hd
      obtain ⟨room, rfl⟩ : ∃ k, room = k + 1 := ⟨room - 1, by omega⟩
      have hmembers := values_draftMembers [] members ho.1 ho.2
        (by omega : _ ≤ room)
      simp only [draft, Draft.value, hmembers, Except.map,
        List.nil_append]

theorem values_draftItems {room : Nat} (js : List Json)
    (ho : OrderedItems js) (hd : depthItems js ≤ room) :
    (draftItems js).values room = .ok js := by
  match js with
  | [] => rfl
  | j :: rest =>
      rw [OrderedItems] at ho
      rw [depthItems] at hd
      have hj := value_draft j ho.1 (by omega : _ ≤ room)
      have hrest := values_draftItems rest ho.2 (by omega : _ ≤ room)
      simp only [draftItems, Items.values, hj, hrest]

/-- Members are added to those before them. -/
theorem values_draftMembers {room : Nat} (before : List (String × Json))
    (ms : List (String × Json)) (hs : Sorted (before ++ ms))
    (ho : OrderedMembers ms) (hd : depthMembers ms ≤ room) :
    (draftMembers ms).values room before = .ok (before ++ ms) := by
  match ms with
  | [] => simp [draftMembers, Members.values]
  | (k, v) :: rest =>
      rw [OrderedMembers] at ho
      rw [depthMembers] at hd
      have hv := value_draft v ho.1 (by omega : _ ≤ room)
      have hlast := insertMember_last
        (fun m hm => (List.pairwise_append.mp hs).2.2 m hm (k, v)
          (by simp)) v
      have hsplit : before ++ [(k, v)] ++ rest
          = before ++ (k, v) :: rest := by simp
      have hrest := values_draftMembers (before ++ [(k, v)]) rest
        (hsplit ▸ hs) ho.2 (by omega : _ ≤ room)
      simp only [draftMembers, Members.values, hv, hlast, hrest, hsplit]

end

-- ======================================================== what was read

theorem of_mem_insertMember {key : String} {value : Json}
    {ms : List (String × Json)} {m : String × Json}
    (h : m ∈ insertMember key value ms) : m = (key, value) ∨ m ∈ ms := by
  induction ms with
  | nil => exact Or.inl (List.mem_singleton.mp h)
  | cons n ms ih =>
      obtain ⟨k, v⟩ := n
      unfold insertMember at h
      split at h
      · rcases List.mem_cons.mp h with h | h
        · exact Or.inl h
        · exact Or.inr (List.mem_cons_of_mem _ h)
      split at h
      · exact (List.mem_cons.mp h).imp_right id
      · rcases List.mem_cons.mp h with h | h
        · exact Or.inr (h ▸ List.mem_cons_self)
        · exact (ih h).imp_right (List.mem_cons_of_mem _)

/-- Members that are in order stay so with one more. -/
theorem Sorted.insertMember {ms : List (String × Json)} (hs : Sorted ms)
    (key : String) (value : Json) : Sorted (insertMember key value ms) := by
  induction ms with
  | nil => exact List.pairwise_singleton _ _
  | cons n ms ih =>
      obtain ⟨k, v⟩ := n
      obtain ⟨hfirst, hrest⟩ := List.pairwise_cons.mp hs
      unfold Json.insertMember
      split
      · rename_i heq
        exact List.pairwise_cons.mpr ⟨heq ▸ hfirst, hrest⟩
      split
      · rename_i hlt
        refine List.pairwise_cons.mpr ⟨fun m hm => ?_, hs⟩
        rcases List.mem_cons.mp hm with rfl | hm
        · exact hlt
        · exact hlt.trans (hfirst m hm)
      · rename_i hne hnlt
        have hlt : k < key := lt_of_le_of_ne (not_lt.mp hnlt) (Ne.symm hne)
        refine List.pairwise_cons.mpr ⟨fun m hm => ?_, ih hrest⟩
        rcases of_mem_insertMember hm with rfl | hm
        · exact hlt
        · exact hfirst m hm

theorem orderedMembers_iff (ms : List (String × Json)) :
    OrderedMembers ms ↔ ∀ m ∈ ms, Ordered m.2 := by
  induction ms with
  | nil => simp [OrderedMembers]
  | cons m ms ih => simp [OrderedMembers, ih]

theorem depthMembers_le_iff (ms : List (String × Json)) (room : Nat) :
    depthMembers ms ≤ room ↔ ∀ m ∈ ms, depth m.2 ≤ room := by
  induction ms with
  | nil => simp [depthMembers]
  | cons m ms ih => simp [depthMembers, ih]

mutual

/-- What is read is in order, and nests no deeper than there is room. -/
theorem ordered_of_value {room : Nat} (d : Draft) {j : Json}
    (h : d.value room = .ok j) : Ordered j ∧ depth j ≤ room := by
  match d with
  | .null => cases h; exact ⟨trivial, Nat.zero_le _⟩
  | .bool b => cases h; exact ⟨trivial, Nat.zero_le _⟩
  | .number (some n) => cases h; exact ⟨trivial, Nat.zero_le _⟩
  | .number none => cases h
  | .string (some s) => cases h; exact ⟨trivial, Nat.zero_le _⟩
  | .string none => cases h
  | .array items =>
      cases room with
      | zero => cases h
      | succ room =>
          rw [Draft.value] at h
          cases hitems : items.values room with
          | error f => rw [hitems] at h; cases h
          | ok js =>
              rw [hitems] at h
              cases h
              obtain ⟨ho, hd⟩ := ordered_of_items items hitems
              exact ⟨ho, Nat.succ_le_succ hd⟩
  | .object members =>
      cases room with
      | zero => cases h
      | succ room =>
          rw [Draft.value] at h
          cases hmembers : members.values room [] with
          | error f => rw [hmembers] at h; cases h
          | ok ms =>
              rw [hmembers] at h
              cases h
              obtain ⟨hs, hall⟩ := ordered_of_members members
                List.Pairwise.nil nofun hmembers
              refine ⟨⟨hs, (orderedMembers_iff ms).mpr ?_⟩,
                Nat.succ_le_succ ((depthMembers_le_iff ms room).mpr ?_)⟩
              · exact fun m hm => (hall m hm).1
              · exact fun m hm => (hall m hm).2
  | .broken stop => cases h

theorem ordered_of_items {room : Nat} (is : Items) {js : List Json}
    (h : is.values room = .ok js) :
    OrderedItems js ∧ depthItems js ≤ room := by
  match is with
  | .closed => cases h; exact ⟨trivial, Nat.zero_le _⟩
  | .broken stop => cases h
  | .item value rest =>
      rw [Items.values] at h
      cases hvalue : value.value room with
      | error f => rw [hvalue] at h; cases h
      | ok j =>
          rw [hvalue] at h
          cases hrest : rest.values room with
          | error f => rw [hrest] at h; cases h
          | ok js =>
              rw [hrest] at h
              cases h
              obtain ⟨ho, hd⟩ := ordered_of_value value hvalue
              obtain ⟨hos, hds⟩ := ordered_of_items rest hrest
              exact ⟨⟨ho, hos⟩, Nat.max_le.mpr ⟨hd, hds⟩⟩

theorem ordered_of_members {room : Nat} (ms : Members)
    {before after : List (String × Json)} (hs : Sorted before)
    (ho : ∀ m ∈ before, Ordered m.2 ∧ depth m.2 ≤ room)
    (h : ms.values room before = .ok after) :
    Sorted after ∧ ∀ m ∈ after, Ordered m.2 ∧ depth m.2 ≤ room := by
  match ms with
  | .closed => cases h; exact ⟨hs, ho⟩
  | .broken stop => cases h
  | .stray f => cases h
  | .member (.broken stop) value rest => cases h
  | .member (.name none) value rest => cases h
  | .member (.name (some key)) value rest =>
      rw [Members.values] at h
      cases hvalue : value.value room with
      | error f => rw [hvalue] at h; cases h
      | ok j =>
          rw [hvalue] at h
          have hj := ordered_of_value value hvalue
          refine ordered_of_members rest (hs.insertMember key j) ?_ h
          intro m hm
          rcases of_mem_insertMember hm with rfl | hm
          · exact hj
          · exact ho m hm

end

end ControlPlane.Json
