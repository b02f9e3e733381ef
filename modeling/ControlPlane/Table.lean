/-
A finite map kept as a list of entries in the order in which their keys
first came, so that a table can be listed, compared and reasoned about by
induction. Every operation is described by what it does to `get?`.
-/

namespace ControlPlane

/-- A finite map from keys to values, listed in the order of insertion. -/
structure Table (κ : Type) (α : Type) where
  entries : List (κ × α) := []
  deriving Repr, DecidableEq

namespace Table

variable {κ α : Type} [DecidableEq κ]

/-- The table without entries. -/
def empty : Table κ α := ⟨[]⟩

instance : Inhabited (Table κ α) := ⟨empty⟩
instance : EmptyCollection (Table κ α) := ⟨empty⟩

/-- The value kept under a key in a list of entries. -/
def find (k : κ) : List (κ × α) → Option α
  | [] => none
  | (j, a) :: rest => if j = k then some a else find k rest

/-- The entries with the value of `k` replaced, or with a new entry at the
end. -/
def put (k : κ) (a : α) : List (κ × α) → List (κ × α)
  | [] => [(k, a)]
  | (j, b) :: rest => if j = k then (k, a) :: rest else (j, b) :: put k a rest

/-- The value kept under `k`, if any. -/
def get? (t : Table κ α) (k : κ) : Option α := find k t.entries

/-- Keeps `a` under `k`; the key keeps its place if it was known. -/
def set (t : Table κ α) (k : κ) (a : α) : Table κ α := ⟨put k a t.entries⟩

/-- Forgets `k`. -/
def erase (t : Table κ α) (k : κ) : Table κ α :=
  ⟨t.entries.filter (fun e => ! decide (e.1 = k))⟩

/-- Does the table keep anything under `k`? -/
def contains (t : Table κ α) (k : κ) : Bool := (t.get? k).isSome

/-- The keys, in order. -/
def keys (t : Table κ α) : List κ := t.entries.map Prod.fst

/-- The values, in the order of their keys. -/
def values (t : Table κ α) : List α := t.entries.map Prod.snd

/-- The number of entries. -/
def size (t : Table κ α) : Nat := t.entries.length

/-- Changes the value under `k`, if there is one. -/
def modify (t : Table κ α) (k : κ) (f : α → α) : Table κ α :=
  match t.get? k with
  | some a => t.set k (f a)
  | none => t

theorem find_put (k : κ) (a : α) (j : κ) (es : List (κ × α)) :
    find j (put k a es) = if k = j then some a else find j es := by
  induction es with
  | nil => simp [put, find]
  | cons e rest ih =>
    obtain ⟨i, b⟩ := e
    by_cases hik : i = k
    · subst hik
      by_cases hij : i = j <;> simp [put, find, hij]
    · by_cases hij : i = j
      · subst hij
        simp [put, find, hik, Ne.symm hik]
      · simp [put, find, hik, hij, ih]

theorem find_filter (k j : κ) (es : List (κ × α)) :
    find j (es.filter (fun e => ! decide (e.1 = k))) =
      if k = j then none else find j es := by
  induction es with
  | nil => simp [find]
  | cons e rest ih =>
    obtain ⟨i, b⟩ := e
    by_cases hik : i = k
    · subst hik
      by_cases hij : i = j <;> simp_all [find]
    · by_cases hij : i = j
      · subst hij
        simp [find, hik, Ne.symm hik]
      · simp [find, hik, hij, ih]

@[simp] theorem get?_empty (k : κ) : (empty : Table κ α).get? k = none := rfl

@[simp] theorem get?_set (t : Table κ α) (k : κ) (a : α) (j : κ) :
    (t.set k a).get? j = if k = j then some a else t.get? j :=
  find_put k a j t.entries

@[simp] theorem get?_erase (t : Table κ α) (k j : κ) :
    (t.erase k).get? j = if k = j then none else t.get? j :=
  find_filter k j t.entries

end Table

end ControlPlane
