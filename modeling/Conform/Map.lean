/-!
# Ordered mappings

A mapping from text keys to values that remembers the order in which its keys arrived.  It is its
list of entries and nothing else, so two mappings with the same entries in the same order are the
same mapping.

A key that is written again keeps its place and takes the new value; a key that is removed leaves
the order of the others alone.  Every operation keeps the keys distinct (`nodup_keys_insert`,
`nodup_keys_erase`, `nodup_keys_ofList`), and reading sees the last write (`get?_insert`,
`get?_erase`).
-/

namespace Conform

/-- A mapping from text keys, in the order of their first writing. -/
structure Map (α : Type) where
  entries : List (String × α)
deriving Repr

namespace Map

variable {α β : Type}

/-! ## Lists of entries -/

/-- The value of the first entry under `key`. -/
def lookup (key : String) : List (String × α) → Option α
  | [] => none
  | (name, value) :: rest => if name = key then some value else lookup key rest

/-- Writes `value` under `key`: in place when the key is there, else at the end. -/
def put (key : String) (value : α) : List (String × α) → List (String × α)
  | [] => [(key, value)]
  | (name, old) :: rest =>
    if name = key then (name, value) :: rest else (name, old) :: put key value rest

/-- The entries without the first one under `key`. -/
def strike (key : String) : List (String × α) → List (String × α)
  | [] => []
  | (name, value) :: rest => if name = key then rest else (name, value) :: strike key rest

/-! ## Operations -/

/-- The mapping without entries. -/
def empty : Map α := ⟨[]⟩

instance : EmptyCollection (Map α) := ⟨empty⟩

instance : Inhabited (Map α) := ⟨empty⟩

/-- The mapping without entries that is made with room for some.  The room is not part of it. -/
def withCapacity (_room : Nat) : Map α := empty

/-- The value under a key. -/
def get? (m : Map α) (key : String) : Option α := lookup key m.entries

/-- Whether a key is present. -/
def contains (m : Map α) (key : String) : Bool := (m.get? key).isSome

/-- Writes a value under a key, in place when the key is present. -/
def insert (m : Map α) (key : String) (value : α) : Map α := ⟨put key value m.entries⟩

/-- Removes a key, if it is present. -/
def erase (m : Map α) (key : String) : Map α := ⟨strike key m.entries⟩

/-- Writes a value and also answers what stood under the key before. -/
def exchange (m : Map α) (key : String) (value : α) : Option α × Map α :=
  (m.get? key, m.insert key value)

/-- Removes a key and also answers what stood under it. -/
def take (m : Map α) (key : String) : Option α × Map α := (m.get? key, m.erase key)

/-- The keys, in order. -/
def keys (m : Map α) : List String := m.entries.map Prod.fst

/-- The number of keys. -/
def size (m : Map α) : Nat := m.entries.length

/-- Whether there is no key. -/
def isEmpty (m : Map α) : Bool := m.entries.isEmpty

/-- Writes all pairs in turn, so a repeated key has its first place and its last value. -/
def insertAll (m : Map α) (pairs : List (String × α)) : Map α :=
  pairs.foldl (fun m pair => m.insert pair.1 pair.2) m

/-- The mapping that a list of pairs describes, a later pair replacing an earlier one in place. -/
def ofList (pairs : List (String × α)) : Map α := empty.insertAll pairs

/-! ## Reading after writing -/

theorem lookup_put (key other : String) (value : α) (entries : List (String × α)) :
    lookup other (put key value entries) =
      if key = other then some value else lookup other entries := by
  induction entries with
  | nil => simp [put, lookup]
  | cons entry rest ih =>
    obtain ⟨name, old⟩ := entry
    by_cases h : name = key
    · subst h
      by_cases h' : name = other <;> simp [put, lookup, h']
    · by_cases h' : name = other
      · subst h'
        simp [put, lookup, h, Ne.symm h]
      · simp [put, lookup, h, h', ih]

/-- A write is seen under its key and changes no other. -/
theorem get?_insert (m : Map α) (key other : String) (value : α) :
    (m.insert key value).get? other = if key = other then some value else m.get? other :=
  lookup_put key other value m.entries

/-- A key is found exactly when an entry carries it. -/
theorem lookup_isSome_iff (key : String) (entries : List (String × α)) :
    (lookup key entries).isSome ↔ key ∈ entries.map Prod.fst := by
  induction entries with
  | nil => simp [lookup]
  | cons entry rest ih =>
    obtain ⟨name, value⟩ := entry
    by_cases h : name = key
    · simp [lookup, h]
    · simp [lookup, h, Ne.symm h, ih]

/-- Nothing is found under a key that no entry carries. -/
theorem lookup_eq_none {key : String} {entries : List (String × α)}
    (h : key ∉ entries.map Prod.fst) : lookup key entries = none := by
  rw [← Option.not_isSome_iff_eq_none]
  exact fun found => h ((lookup_isSome_iff key entries).1 found)

theorem contains_iff_mem_keys (m : Map α) (key : String) :
    m.contains key = true ↔ key ∈ m.keys :=
  lookup_isSome_iff key m.entries

/-! ## Keys stay distinct -/

/-- A present key keeps its place, a new one goes to the end. -/
theorem map_fst_put (key : String) (value : α) (entries : List (String × α)) :
    (put key value entries).map Prod.fst =
      if key ∈ entries.map Prod.fst then entries.map Prod.fst
      else entries.map Prod.fst ++ [key] := by
  induction entries with
  | nil => simp [put]
  | cons entry rest ih =>
    obtain ⟨name, old⟩ := entry
    by_cases h : name = key
    · simp [put, h]
    · simp only [put, h, if_false, List.map_cons, ih, List.mem_cons, Ne.symm h, false_or]
      split <;> simp

theorem keys_insert (m : Map α) (key : String) (value : α) :
    (m.insert key value).keys = if key ∈ m.keys then m.keys else m.keys ++ [key] :=
  map_fst_put key value m.entries

theorem nodup_keys_insert {m : Map α} (h : m.keys.Nodup) (key : String) (value : α) :
    (m.insert key value).keys.Nodup := by
  rw [keys_insert]
  split
  · exact h
  · rename_i fresh
    rw [List.nodup_append]
    refine ⟨h, by simp, ?_⟩
    intro name hname other hother
    rw [List.mem_singleton] at hother
    subst hother
    rintro rfl
    exact fresh hname

theorem strike_sublist (key : String) (entries : List (String × α)) :
    (strike key entries).Sublist entries := by
  induction entries with
  | nil => exact .slnil
  | cons entry rest ih =>
    obtain ⟨name, value⟩ := entry
    by_cases h : name = key
    · simp [strike, h]
    · simp [strike, h, ih]

theorem nodup_keys_erase {m : Map α} (h : m.keys.Nodup) (key : String) :
    (m.erase key).keys.Nodup :=
  h.sublist ((strike_sublist key m.entries).map Prod.fst)

theorem nodup_keys_insertAll {m : Map α} (h : m.keys.Nodup) (pairs : List (String × α)) :
    (m.insertAll pairs).keys.Nodup := by
  induction pairs generalizing m with
  | nil => exact h
  | cons pair rest ih => exact ih (nodup_keys_insert h pair.1 pair.2)

theorem nodup_keys_ofList (pairs : List (String × α)) : (ofList pairs).keys.Nodup :=
  nodup_keys_insertAll (m := empty) List.nodup_nil pairs

/-- Once the keys are distinct, a removed key is gone and the others read as before. -/
theorem lookup_strike {entries : List (String × α)} (h : (entries.map Prod.fst).Nodup)
    (key other : String) :
    lookup other (strike key entries) = if key = other then none else lookup other entries := by
  induction entries with
  | nil => simp [strike, lookup]
  | cons entry rest ih =>
    obtain ⟨name, value⟩ := entry
    simp only [List.map_cons, List.nodup_cons] at h
    by_cases hk : name = key
    · subst hk
      by_cases ho : name = other
      · subst ho
        simp [strike, lookup_eq_none h.1]
      · simp [strike, lookup, ho]
    · by_cases ho : name = other
      · subst ho
        simp [strike, lookup, hk, Ne.symm hk]
      · simp [strike, lookup, hk, ho, ih h.2]

theorem get?_erase {m : Map α} (h : m.keys.Nodup) (key other : String) :
    (m.erase key).get? other = if key = other then none else m.get? other :=
  lookup_strike h key other

/-! ## Entries and their places -/

/-- What is found under a key is one of the entries. -/
theorem mem_of_lookup {key : String} {value : α} {entries : List (String × α)}
    (h : lookup key entries = some value) : (key, value) ∈ entries := by
  induction entries with
  | nil => simp [lookup] at h
  | cons entry rest ih =>
    obtain ⟨name, old⟩ := entry
    by_cases hk : name = key
    · simp only [lookup, hk, if_true, Option.some.injEq] at h
      simp [hk, h]
    · simp only [lookup, hk, if_false] at h
      exact List.mem_cons_of_mem _ (ih h)

/-- Once the keys are distinct, every entry is found under its key. -/
theorem lookup_of_mem {key : String} {value : α} {entries : List (String × α)}
    (h : (entries.map Prod.fst).Nodup) (hmem : (key, value) ∈ entries) :
    lookup key entries = some value := by
  induction entries with
  | nil => simp at hmem
  | cons entry rest ih =>
    obtain ⟨name, old⟩ := entry
    rw [List.map_cons, List.nodup_cons] at h
    rw [List.mem_cons, Prod.mk.injEq] at hmem
    obtain ⟨rfl, rfl⟩ | hrest := hmem
    · simp [lookup]
    · have hne : name ≠ key := fun heq => h.1 (List.mem_map.2 ⟨(key, value), hrest, heq.symm⟩)
      simp [lookup, hne, ih h.2 hrest]

/-- Once the keys are distinct, the order of the entries does not show in what is found. -/
theorem lookup_perm {entries others : List (String × α)} (h : (entries.map Prod.fst).Nodup)
    (hperm : entries.Perm others) (key : String) : lookup key others = lookup key entries := by
  have hkeys : (entries.map Prod.fst).Perm (others.map Prod.fst) := hperm.map Prod.fst
  cases hfound : lookup key entries with
  | some value => exact lookup_of_mem (hkeys.nodup h) (hperm.mem_iff.1 (mem_of_lookup hfound))
  | none =>
    apply lookup_eq_none
    rw [← hkeys.mem_iff, ← lookup_isSome_iff, hfound]
    exact Bool.false_ne_true

/-- A key is looked for in front, and behind only when it is not found there. -/
theorem lookup_append (key : String) (front back : List (String × α)) :
    lookup key (front ++ back) = (lookup key front).or (lookup key back) := by
  induction front with
  | nil => simp [lookup]
  | cons entry rest ih =>
    obtain ⟨name, old⟩ := entry
    by_cases h : name = key
    · simp [lookup, h]
    · simp [lookup, h, ih]

/-- What is done to all values is done to the one that is found. -/
theorem lookup_map (f : α → β) (key : String) (entries : List (String × α)) :
    lookup key (entries.map fun entry => (entry.1, f entry.2)) = (lookup key entries).map f := by
  induction entries with
  | nil => rfl
  | cons entry rest ih =>
    obtain ⟨name, value⟩ := entry
    by_cases h : name = key
    · simp [lookup, h]
    · simp [lookup, h, ih]

/-- A choice of keys leaves the chosen ones as they read. -/
theorem lookup_filter (chosen : String → Bool) (key : String) (entries : List (String × α)) :
    lookup key (entries.filter fun entry => chosen entry.1) =
      if chosen key then lookup key entries else none := by
  induction entries with
  | nil => simp [lookup]
  | cons entry rest ih =>
    obtain ⟨name, value⟩ := entry
    by_cases hname : name = key
    · subst hname
      by_cases h : chosen name = true <;> simp [lookup, h, ih]
    · by_cases h : chosen name = true <;> simp [lookup, h, hname, ih]

/-- A key that no entry in front carries is written behind them. -/
theorem put_append {key : String} {front : List (String × α)}
    (h : key ∉ front.map Prod.fst) (value : α) (back : List (String × α)) :
    put key value (front ++ back) = front ++ put key value back := by
  induction front with
  | nil => rfl
  | cons entry rest ih =>
    obtain ⟨name, old⟩ := entry
    rw [List.map_cons, List.mem_cons, not_or] at h
    simp [put, Ne.symm h.1, ih h.2]

/-- What stands in front of a key is left alone when the key is removed. -/
theorem strike_append {key : String} {front : List (String × α)}
    (h : key ∉ front.map Prod.fst) (back : List (String × α)) :
    strike key (front ++ back) = front ++ strike key back := by
  induction front with
  | nil => rfl
  | cons entry rest ih =>
    obtain ⟨name, old⟩ := entry
    rw [List.map_cons, List.mem_cons, not_or] at h
    simp [strike, Ne.symm h.1, ih h.2]

/-- What is found under a key stands at its first place. -/
theorem exists_split_of_lookup {key : String} {value : α} {entries : List (String × α)}
    (h : lookup key entries = some value) :
    ∃ front back, entries = front ++ (key, value) :: back ∧ key ∉ front.map Prod.fst := by
  induction entries with
  | nil => simp [lookup] at h
  | cons entry rest ih =>
    obtain ⟨name, old⟩ := entry
    by_cases hk : name = key
    · simp only [lookup, hk, if_true, Option.some.injEq] at h
      exact ⟨[], rest, by simp [hk, h], by simp⟩
    · simp only [lookup, hk, if_false] at h
      obtain ⟨front, back, rfl, hfront⟩ := ih h
      refine ⟨(name, old) :: front, back, rfl, ?_⟩
      rw [List.map_cons, List.mem_cons, not_or]
      exact ⟨Ne.symm hk, hfront⟩

/-- A new key is written behind all others. -/
theorem insert_of_notMem {m : Map α} {key : String} (h : key ∉ m.keys) (value : α) :
    m.insert key value = ⟨m.entries ++ [(key, value)]⟩ := by
  have hput := put_append h value []
  rw [List.append_nil] at hput
  exact congrArg Map.mk hput

/-- A write answers what stood under the key and puts the new value in its place, or answers
nothing and puts a new key behind all others. -/
theorem exchange_cases (m : Map α) (key : String) (value : α) :
    (∃ front old back, m.entries = front ++ (key, old) :: back ∧
      m.exchange key value = (some old, ⟨front ++ (key, value) :: back⟩)) ∨
    (key ∉ m.keys ∧ m.exchange key value = (none, ⟨m.entries ++ [(key, value)]⟩)) := by
  by_cases h : key ∈ m.keys
  · rw [← contains_iff_mem_keys, contains, Option.isSome_iff_exists] at h
    obtain ⟨old, hold⟩ := h
    obtain ⟨front, back, hentries, hfront⟩ := exists_split_of_lookup hold
    refine .inl ⟨front, old, back, hentries, ?_⟩
    rw [exchange, hold, insert, hentries, put_append hfront, put, if_pos rfl]
  · have hnone : m.get? key = none := lookup_eq_none h
    exact .inr ⟨h, by rw [exchange, hnone, insert_of_notMem h]⟩

/-- A removal answers what stood under the key and closes the gap, or answers nothing and changes
nothing. -/
theorem take_cases (m : Map α) (key : String) :
    (∃ front old back, m.entries = front ++ (key, old) :: back ∧
      m.take key = (some old, ⟨front ++ back⟩)) ∨
    (key ∉ m.keys ∧ m.take key = (none, m)) := by
  by_cases h : key ∈ m.keys
  · rw [← contains_iff_mem_keys, contains, Option.isSome_iff_exists] at h
    obtain ⟨old, hold⟩ := h
    obtain ⟨front, back, hentries, hfront⟩ := exists_split_of_lookup hold
    refine .inl ⟨front, old, back, hentries, ?_⟩
    rw [take, hold, erase, hentries, strike_append hfront, strike, if_pos rfl]
  · have hnone : m.get? key = none := lookup_eq_none h
    have hall := strike_append h []
    rw [strike, List.append_nil] at hall
    exact .inr ⟨h, by rw [take, hnone, erase, hall]⟩

theorem mem_put {entry : String × α} {key : String} {value : α} {entries : List (String × α)}
    (h : entry ∈ put key value entries) : entry = (key, value) ∨ entry ∈ entries := by
  induction entries with
  | nil => simpa [put] using h
  | cons first rest ih =>
    obtain ⟨name, old⟩ := first
    by_cases hk : name = key
    · subst hk
      simp only [put, if_true, List.mem_cons] at h
      obtain rfl | hrest := h
      · exact .inl rfl
      · exact .inr (List.mem_cons_of_mem _ hrest)
    · simp only [put, hk, if_false, List.mem_cons] at h
      obtain rfl | hrest := h
      · exact .inr (by simp)
      · exact (ih hrest).imp_right (List.mem_cons_of_mem _)

theorem mem_insertAll {entry : String × α} {m : Map α} {pairs : List (String × α)}
    (h : entry ∈ (m.insertAll pairs).entries) : entry ∈ m.entries ∨ entry ∈ pairs := by
  induction pairs generalizing m with
  | nil => exact .inl h
  | cons pair rest ih =>
    obtain hstep | hrest := ih (m := m.insert pair.1 pair.2) h
    · obtain rfl | hold := mem_put hstep
      · exact .inr (by simp)
      · exact .inl hold
    · exact .inr (List.mem_cons_of_mem _ hrest)

/-- Building a mapping brings in no entry that was not given. -/
theorem mem_of_mem_ofList {entry : String × α} {pairs : List (String × α)}
    (h : entry ∈ (ofList pairs).entries) : entry ∈ pairs :=
  (mem_insertAll (m := empty) h).resolve_left (by simp [empty])

/-- Writing under keys that stand nowhere in front leaves the front as it is. -/
theorem insertAll_append {front : List (String × α)} (back : List (String × α))
    {pairs : List (String × α)} (h : ∀ pair ∈ pairs, pair.1 ∉ front.map Prod.fst) :
    (insertAll ⟨front ++ back⟩ pairs).entries = front ++ (insertAll ⟨back⟩ pairs).entries := by
  induction pairs generalizing back with
  | nil => rfl
  | cons pair rest ih =>
    have hput : put pair.1 pair.2 (front ++ back) = front ++ put pair.1 pair.2 back :=
      put_append (h pair (by simp)) pair.2 back
    have hrest := ih (put pair.1 pair.2 back) fun other hother => h other (by simp [hother])
    simpa only [insertAll, List.foldl_cons, insert, hput] using hrest

/-- A list of pairs with distinct keys is its own mapping. -/
theorem ofList_of_nodup {pairs : List (String × α)} (h : (pairs.map Prod.fst).Nodup) :
    ofList pairs = ⟨pairs⟩ := by
  suffices ∀ (done todo : List (String × α)), ((done ++ todo).map Prod.fst).Nodup →
      insertAll ⟨done⟩ todo = ⟨done ++ todo⟩ from this [] pairs h
  intro done todo hnodup
  induction todo generalizing done with
  | nil => simp [insertAll]
  | cons pair rest ih =>
    obtain ⟨name, value⟩ := pair
    have fresh : name ∉ done.map Prod.fst := by
      rw [List.map_append, List.nodup_append] at hnodup
      intro hmem
      exact hnodup.2.2 name hmem name (by simp) rfl
    have step : insertAll ⟨done⟩ ((name, value) :: rest) =
        insertAll ⟨done ++ [(name, value)]⟩ rest :=
      congrArg (insertAll · rest) (insert_of_notMem (m := ⟨done⟩) fresh value)
    rw [step, ih (done ++ [(name, value)]) (by simpa using hnodup)]
    simp

/-- Distinct keys in front keep their entries, and those behind make up the rest. -/
theorem entries_ofList_append {front pairs : List (String × α)} (h : (front.map Prod.fst).Nodup)
    (hpairs : ∀ pair ∈ pairs, pair.1 ∉ front.map Prod.fst) :
    (ofList (front ++ pairs)).entries = front ++ (ofList pairs).entries := by
  have hfront : insertAll empty front = ⟨front ++ []⟩ := by
    rw [List.append_nil]
    exact ofList_of_nodup h
  have hsplit : ofList (front ++ pairs) = insertAll ⟨front ++ []⟩ pairs := by
    rw [← hfront]
    exact List.foldl_append
  rw [hsplit, insertAll_append [] hpairs]
  rfl

end Map

end Conform
