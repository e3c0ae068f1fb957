/-!
# Maps that keep the order of first insertion

A key that is written again keeps its place and takes the new value. The views are `keys` and
`get?`; `get?_insert_self` and `get?_insert_of_ne` say what an insertion does to them.
-/

namespace FaultSnapshot

/-- Pairs in order of first insertion, each key once. -/
structure OrderedMap (κ ν : Type) where
  entries : List (κ × ν)
  nodup : (entries.map Prod.fst).Nodup

namespace OrderedMap

variable {κ ν : Type}

theorem ext {m n : OrderedMap κ ν} (h : m.entries = n.entries) : m = n := by
  cases m; cases n; simp_all

instance [DecidableEq κ] [DecidableEq ν] : DecidableEq (OrderedMap κ ν) := fun m n =>
  if h : m.entries = n.entries then .isTrue (ext h) else .isFalse fun e => h (e ▸ rfl)

def empty : OrderedMap κ ν := ⟨[], List.nodup_nil⟩

instance : Inhabited (OrderedMap κ ν) := ⟨empty⟩
instance : EmptyCollection (OrderedMap κ ν) := ⟨empty⟩

/-- The keys, in order of first insertion. -/
def keys (m : OrderedMap κ ν) : List κ := m.entries.map Prod.fst

def size (m : OrderedMap κ ν) : Nat := m.entries.length

def isEmpty (m : OrderedMap κ ν) : Bool := m.entries.isEmpty

variable [DecidableEq κ]

/-- The value of the first pair with the key. -/
def find (k : κ) : List (κ × ν) → Option ν
  | [] => none
  | e :: es => if e.1 = k then some e.2 else find k es

/-- Writes a pair: in place if the key is there, at the end if not. -/
def write (k : κ) (v : ν) : List (κ × ν) → List (κ × ν)
  | [] => [(k, v)]
  | e :: es => if e.1 = k then (k, v) :: es else e :: write k v es

theorem mem_keys_write {k k' : κ} {v : ν} {es : List (κ × ν)} :
    k' ∈ (write k v es).map Prod.fst ↔ k' = k ∨ k' ∈ es.map Prod.fst := by
  induction es with
  | nil => simp [write]
  | cons e es ih =>
    by_cases h : e.1 = k
    · simp [write, h]
    · simp only [write, h, if_false, List.map_cons, List.mem_cons, ih]
      constructor
      · rintro (h' | h' | h') <;> simp [h']
      · rintro (h' | h' | h') <;> simp [h']

theorem nodup_write {k : κ} {v : ν} {es : List (κ × ν)} (h : (es.map Prod.fst).Nodup) :
    ((write k v es).map Prod.fst).Nodup := by
  induction es with
  | nil => simp [write]
  | cons e es ih =>
    rw [List.map_cons, List.nodup_cons] at h
    by_cases hk : e.1 = k
    · subst hk
      rw [write, if_pos rfl, List.map_cons, List.nodup_cons]
      exact h
    · rw [write, if_neg hk, List.map_cons, List.nodup_cons, mem_keys_write]
      exact ⟨fun h' => h'.elim hk h.1, ih h.2⟩

def get? (m : OrderedMap κ ν) (k : κ) : Option ν := find k m.entries

def insert (m : OrderedMap κ ν) (k : κ) (v : ν) : OrderedMap κ ν := ⟨write k v m.entries, nodup_write m.nodup⟩

/-- The map of a list of pairs; of pairs with the same key the first gives the place, the last the value. -/
def ofList (es : List (κ × ν)) : OrderedMap κ ν := es.foldl (fun m e => m.insert e.1 e.2) empty

theorem find_write_self {k : κ} {v : ν} {es : List (κ × ν)} : find k (write k v es) = some v := by
  induction es with
  | nil => simp [write, find]
  | cons e es ih => by_cases h : e.1 = k <;> simp [write, find, h, ih]

theorem find_write_of_ne {k k' : κ} {v : ν} {es : List (κ × ν)} (ne : k' ≠ k) :
    find k' (write k v es) = find k' es := by
  induction es with
  | nil => simp [write, find, Ne.symm ne]
  | cons e es ih =>
    by_cases h : e.1 = k
    · simp [write, find, h, Ne.symm ne]
    · simp [write, find, h, ih]

@[simp] theorem get?_empty {k : κ} : (empty : OrderedMap κ ν).get? k = none := rfl

@[simp] theorem get?_insert_self {m : OrderedMap κ ν} {k : κ} {v : ν} : (m.insert k v).get? k = some v :=
  find_write_self

theorem get?_insert_of_ne {m : OrderedMap κ ν} {k k' : κ} {v : ν} (ne : k' ≠ k) :
    (m.insert k v).get? k' = m.get? k' :=
  find_write_of_ne ne

end OrderedMap

end FaultSnapshot
