/-!
# Dict — a finite map as its list of entries in key order

A `Dict α` is the list of its entries with strictly increasing keys, so two maps are equal exactly
when they hold the same entries, and every listing of a map (a report row, a written file) is in
key order without a sorting step.  Keys compare by code point, which for encoded text is the order
of the bytes.  Main statements: `find?_insert_self`, `find?_insert_of_ne` say what an insertion does
to look-up, and `ext` that the entries are all there is.
-/

namespace PinKeeper

/-- Finite map from text: its entries, strictly increasing in their keys. -/
structure Dict (α : Type) where
  entries : List (String × α)
  ascending : entries.Pairwise (fun a b => a.1 < b.1)

namespace Dict

variable {α β : Type}

theorem ext {d e : Dict α} (h : d.entries = e.entries) : d = e := by
  cases d; cases e; cases h; rfl

instance [DecidableEq α] : DecidableEq (Dict α) := fun d e =>
  decidable_of_iff (d.entries = e.entries) ⟨ext, fun h => h ▸ rfl⟩

instance [Repr α] : Repr (Dict α) := ⟨fun d n => reprPrec d.entries n⟩

/-- The map with no entry. -/
def empty : Dict α := ⟨[], List.Pairwise.nil⟩

instance : EmptyCollection (Dict α) := ⟨empty⟩

instance : Inhabited (Dict α) := ⟨empty⟩

/-! ## Insertion keeps the order -/

/-- Puts an entry at its place, in the stead of one with the same key. -/
def insertEntry (k : String) (v : α) : List (String × α) → List (String × α)
  | [] => [(k, v)]
  | e :: es =>
    if k < e.1 then (k, v) :: e :: es
    else if k = e.1 then (k, v) :: es
    else e :: insertEntry k v es

theorem mem_insertEntry {k : String} {v : α} {x : String × α} :
    ∀ {es : List (String × α)}, x ∈ insertEntry k v es → x = (k, v) ∨ x ∈ es
  | [], h => by simpa [insertEntry] using h
  | e :: es, h => by
    unfold insertEntry at h
    split at h
    · simpa using h
    · split at h
      · rcases List.mem_cons.1 h with h | h
        · exact .inl h
        · exact .inr (List.mem_cons_of_mem _ h)
      · rcases List.mem_cons.1 h with h | h
        · exact .inr (by simp [h])
        · exact (mem_insertEntry h).imp id (List.mem_cons_of_mem _)

theorem lt_of_not_lt_of_ne {a b : String} (h : ¬a < b) (hne : a ≠ b) : b < a :=
  Decidable.byContradiction fun hn => hne (String.le_antisymm hn h)

theorem ascending_insertEntry (k : String) (v : α) :
    ∀ {es : List (String × α)}, es.Pairwise (fun a b => a.1 < b.1) →
      (insertEntry k v es).Pairwise (fun a b => a.1 < b.1)
  | [], _ => by simp [insertEntry]
  | e :: es, h => by
    have ⟨hh, ht⟩ := List.pairwise_cons.1 h
    unfold insertEntry
    split
    · next hlt =>
      refine List.pairwise_cons.2 ⟨fun x hx => ?_, h⟩
      rcases List.mem_cons.1 hx with rfl | hx
      · exact hlt
      · exact String.lt_trans hlt (hh x hx)
    · next hnlt =>
      split
      · next heq => exact List.pairwise_cons.2 ⟨fun x hx => heq ▸ hh x hx, ht⟩
      · next hne =>
        refine List.pairwise_cons.2 ⟨fun x hx => ?_, ascending_insertEntry k v ht⟩
        rcases mem_insertEntry hx with rfl | hx
        · exact lt_of_not_lt_of_ne hnlt hne
        · exact hh x hx

/-- Adds an entry; one with the same key is replaced. -/
def insert (d : Dict α) (k : String) (v : α) : Dict α :=
  ⟨insertEntry k v d.entries, ascending_insertEntry k v d.ascending⟩

/-- Collects entries from left to right, so the last of several with one key stays. -/
def ofList (es : List (String × α)) : Dict α :=
  es.foldl (fun d e => d.insert e.1 e.2) empty

/-! ## Look-up -/

/-- Value of the first entry with a key. -/
def lookupIn (k : String) : List (String × α) → Option α
  | [] => none
  | e :: es => if e.1 = k then some e.2 else lookupIn k es

/-- Value under a key. -/
def find? (d : Dict α) (k : String) : Option α := lookupIn k d.entries

/-- True if the key has a value. -/
def contains (d : Dict α) (k : String) : Bool := (d.find? k).isSome

def keys (d : Dict α) : List String := d.entries.map (·.1)

def values (d : Dict α) : List α := d.entries.map (·.2)

def size (d : Dict α) : Nat := d.entries.length

def isEmpty (d : Dict α) : Bool := d.entries.isEmpty

theorem lookupIn_insertEntry_self (k : String) (v : α) :
    ∀ es : List (String × α), lookupIn k (insertEntry k v es) = some v
  | [] => by simp [insertEntry, lookupIn]
  | e :: es => by
    unfold insertEntry
    split
    · simp [lookupIn]
    · split
      · simp [lookupIn]
      · next hne => simp [lookupIn, Ne.symm hne, lookupIn_insertEntry_self k v es]

theorem lookupIn_insertEntry_of_ne {k j : String} (h : j ≠ k) (v : α) :
    ∀ es : List (String × α), lookupIn j (insertEntry k v es) = lookupIn j es
  | [] => by simp [insertEntry, lookupIn, Ne.symm h]
  | e :: es => by
    unfold insertEntry
    split
    · simp [lookupIn, Ne.symm h]
    · split
      · next heq => simp [lookupIn, Ne.symm h, ← heq]
      · simp [lookupIn, lookupIn_insertEntry_of_ne h v es]

@[simp] theorem find?_empty (k : String) : (empty : Dict α).find? k = none := rfl

@[simp] theorem find?_insert_self (d : Dict α) (k : String) (v : α) :
    (d.insert k v).find? k = some v :=
  lookupIn_insertEntry_self k v d.entries

theorem find?_insert_of_ne (d : Dict α) {k j : String} (h : j ≠ k) (v : α) :
    (d.insert k v).find? j = d.find? j :=
  lookupIn_insertEntry_of_ne h v d.entries

/-! ## Changing the values leaves the keys -/

/-- Applies a function of key and value to every entry. -/
def mapEntries (f : String → α → β) (d : Dict α) : Dict β :=
  ⟨d.entries.map fun e => (e.1, f e.1 e.2), by
    rw [List.pairwise_map]; exact d.ascending⟩

@[simp] theorem keys_mapEntries (f : String → α → β) (d : Dict α) :
    (d.mapEntries f).keys = d.keys := by
  simp [keys, mapEntries, Function.comp_def]

/-- Changes the value under a key, where there is one. -/
def modify (d : Dict α) (k : String) (f : α → α) : Dict α :=
  d.mapEntries fun j v => if j = k then f v else v

end Dict

end PinKeeper
