import Conform.Map
import Mathlib.Data.List.Induction
import Mathlib.Data.Set.Card

/-!
# What a mapping's history says

A mapping is changed by writes and removals, one after the other, and everything that can be asked
of it has its answer in the list of these changes.  A key reads what its last change left there
(`Leaves`): the value if it was a write, nothing if it was a removal or if there was none.  And the
keys stand in the order in which they arrived: a key arrives when it is written while it is absent
(`Arrives`), keeps its place through all later writes, and loses it when it is removed, so that it
has to arrive anew.

Both notions only speak of the list of changes.  One change keeps a mapping in step with them
(`Recounts.change`), hence every run of changes does (`recounts_after`), and
`after_ofList` says what that means for each operation of a mapping, the pairs that it was built
from being its first writes.
-/

namespace Conform.Map

variable {α : Type}

/-! ## Changes -/

/-- Something done to a mapping. -/
inductive Change (α : Type) where
  | insert (key : String) (value : α)
  | remove (key : String)

/-- The key that is written or removed. -/
def Change.key : Change α → String
  | insert key _ => key
  | remove key => key

/-- What a change answers, and the mapping that it leaves. -/
def change (m : Map α) : Change α → Option α × Map α
  | .insert key value => m.exchange key value
  | .remove key => m.take key

/-- The mapping that a list of changes leaves, made one after the other. -/
def after (m : Map α) (changes : List (Change α)) : Map α :=
  changes.foldl (fun m change => (m.change change).2) m

/-- The writes of a list of pairs, in their order. -/
def writes (pairs : List (String × α)) : List (Change α) :=
  pairs.map fun pair => .insert pair.1 pair.2

/-! ## Histories -/

/-- The last change of the key wrote this value. -/
def Leaves (history : List (Change α)) (key : String) (value : α) : Prop :=
  ∃ before later, history = before ++ .insert key value :: later ∧
    ∀ change ∈ later, change.key ≠ key

/-- The last change of the key was a write. -/
def Present (history : List (Change α)) (key : String) : Prop := ∃ value, Leaves history key value

/-- After so many changes the key was absent and was written, and it was not removed since. -/
def Arrives (history : List (Change α)) (key : String) (place : Nat) : Prop :=
  ∃ before value later, history = before ++ .insert key value :: later ∧
    before.length = place ∧ ¬ Present before key ∧ .remove key ∉ later

/-- The first key arrived before the second one. -/
def Precedes (history : List (Change α)) (first second : String) : Prop :=
  ∃ earlier later, Arrives history first earlier ∧ Arrives history second later ∧ earlier < later

/-! ### One more change -/

/-- A list with one more element is parted before that element or at it. -/
lemma concat_eq_append_cons_iff {β : Type} {history before later : List β} {last first : β} :
    history ++ [last] = before ++ first :: later ↔
      (history = before ∧ last = first ∧ later = []) ∨
        ∃ middle, later = middle ++ [last] ∧ history = before ++ first :: middle := by
  constructor
  · intro h
    rcases List.eq_nil_or_concat later with rfl | ⟨middle, other, rfl⟩
    · obtain ⟨hfront, hlast⟩ := List.append_inj' h rfl
      exact .inl ⟨hfront, List.singleton_inj.1 hlast, rfl⟩
    · rw [List.concat_eq_append, ← List.cons_append, ← List.append_assoc] at h
      obtain ⟨hfront, hlast⟩ := List.append_inj' h rfl
      rw [List.singleton_inj.1 hlast]
      exact .inr ⟨middle, List.concat_eq_append, hfront⟩
  · rintro (⟨rfl, rfl, rfl⟩ | ⟨middle, rfl, rfl⟩)
    · rfl
    · rw [List.append_assoc, List.cons_append]

lemma leaves_concat_iff {history : List (Change α)} {change : Change α} {key : String}
    {value : α} : Leaves (history ++ [change]) key value ↔
      change = .insert key value ∨ change.key ≠ key ∧ Leaves history key value := by
  constructor
  · rintro ⟨before, later, hsplit, hlater⟩
    rcases concat_eq_append_cons_iff.1 hsplit with ⟨-, hlast, -⟩ | ⟨middle, rfl, hhistory⟩
    · exact .inl hlast
    · rw [List.forall_mem_append, List.forall_mem_singleton] at hlater
      exact .inr ⟨hlater.2, before, middle, hhistory, hlater.1⟩
  · rintro (rfl | ⟨hkey, before, middle, rfl, hmiddle⟩)
    · exact ⟨history, [], rfl, List.forall_mem_nil _⟩
    · refine ⟨before, middle ++ [change], concat_eq_append_cons_iff.2 (.inr ⟨_, rfl, rfl⟩), ?_⟩
      rw [List.forall_mem_append, List.forall_mem_singleton]
      exact ⟨hmiddle, hkey⟩

lemma present_concat_iff {history : List (Change α)} {change : Change α} {key : String} :
    Present (history ++ [change]) key ↔
      (∃ value, change = .insert key value) ∨ change.key ≠ key ∧ Present history key := by
  simp only [Present, leaves_concat_iff, exists_or, exists_and_left]

lemma arrives_concat_iff {history : List (Change α)} {change : Change α} {key : String}
    {place : Nat} : Arrives (history ++ [change]) key place ↔
      (change ≠ .remove key ∧ Arrives history key place) ∨
        (place = history.length ∧ ¬ Present history key ∧ ∃ value, change = .insert key value) := by
  constructor
  · rintro ⟨before, value, later, hsplit, hplace, habsent, hlater⟩
    rcases concat_eq_append_cons_iff.1 hsplit with ⟨rfl, hlast, -⟩ | ⟨middle, rfl, hhistory⟩
    · exact .inr ⟨hplace.symm, habsent, value, hlast⟩
    · rw [List.mem_append, List.mem_singleton, not_or] at hlater
      exact .inl ⟨Ne.symm hlater.2, before, value, middle, hhistory, hplace, habsent, hlater.1⟩
  · rintro (⟨hkept, before, value, middle, rfl, hplace, habsent, hmiddle⟩ |
      ⟨hplace, habsent, value, rfl⟩)
    · refine ⟨before, value, middle ++ [change],
        concat_eq_append_cons_iff.2 (.inr ⟨_, rfl, rfl⟩), hplace, habsent, ?_⟩
      rw [List.mem_append, List.mem_singleton, not_or]
      exact ⟨hmiddle, Ne.symm hkept⟩
    · exact ⟨history, value, [], rfl, hplace.symm, habsent, List.not_mem_nil⟩

/-! ### Arrivals -/

/-- A key is present when it has arrived and was not removed since. -/
lemma present_iff_exists_arrives {history : List (Change α)} {key : String} :
    Present history key ↔ ∃ place, Arrives history key place := by
  induction history using List.reverseRecOn with
  | nil =>
    constructor
    · rintro ⟨value, before, later, h, -⟩
      simp at h
    · rintro ⟨place, before, value, later, h, -⟩
      simp at h
  | append_singleton history change ih =>
    simp only [present_concat_iff, arrives_concat_iff, exists_or, exists_and_left, ← ih,
      exists_and_right, exists_eq, true_and]
    cases change with
    | insert name value =>
      by_cases hname : name = key
      · subst hname
        by_cases hpresent : Present history name <;> simp [Change.key, hpresent]
      · simp [Change.key, hname]
    | remove name => simp [Change.key]

lemma Arrives.lt_length {history : List (Change α)} {key : String} {place : Nat}
    (h : Arrives history key place) : place < history.length := by
  obtain ⟨before, value, later, rfl, rfl, -⟩ := h
  simp

/-- A key has one place only. -/
lemma Arrives.unique {history : List (Change α)} {key : String} {place other : Nat}
    (h : Arrives history key place) (hother : Arrives history key other) : place = other := by
  induction history using List.reverseRecOn with
  | nil =>
    have hlt := h.lt_length
    simp at hlt
  | append_singleton history change ih =>
    have hpresent {place : Nat} (h : Arrives history key place) : Present history key :=
      present_iff_exists_arrives.2 ⟨place, h⟩
    rcases arrives_concat_iff.1 h with ⟨-, hold⟩ | ⟨hnew, habsent, -⟩
    · rcases arrives_concat_iff.1 hother with ⟨-, hold'⟩ | ⟨-, habsent, -⟩
      · exact ih hold hold'
      · exact absurd (hpresent hold) habsent
    · rcases arrives_concat_iff.1 hother with ⟨-, hold'⟩ | ⟨hnew', -, -⟩
      · exact absurd (hpresent hold') habsent
      · rw [hnew, hnew']

lemma Precedes.concat {history : List (Change α)} {first second : String}
    (h : Precedes history first second) {change : Change α} (hfirst : change ≠ .remove first)
    (hsecond : change ≠ .remove second) : Precedes (history ++ [change]) first second := by
  obtain ⟨earlier, later, hearlier, hlater, hlt⟩ := h
  exact ⟨earlier, later, arrives_concat_iff.2 (.inl ⟨hfirst, hearlier⟩),
    arrives_concat_iff.2 (.inl ⟨hsecond, hlater⟩), hlt⟩

/-! ## Mappings in step with their history -/

/-- The mapping is what the history says of it. -/
structure Recounts (history : List (Change α)) (m : Map α) : Prop where
  distinct : m.keys.Nodup
  reads : ∀ key value, m.get? key = some value ↔ Leaves history key value
  ordered : m.keys.Pairwise (Precedes history)

namespace Recounts

variable {history : List (Change α)} {m : Map α}

lemma mem_keys_iff (h : Recounts history m) (key : String) :
    key ∈ m.keys ↔ Present history key := by
  rw [← contains_iff_mem_keys, contains, Option.isSome_iff_exists]
  exact exists_congr fun value => h.reads key value

lemma insert (h : Recounts history m) (key : String) (value : α) :
    Recounts (history ++ [.insert key value]) (m.insert key value) where
  distinct := nodup_keys_insert h.distinct key value
  reads other read := by
    rw [get?_insert, leaves_concat_iff]
    by_cases hkey : key = other
    · simp [hkey, Change.key]
    · simp [hkey, Change.key, h.reads other read]
  ordered := by
    have hold : m.keys.Pairwise (Precedes (history ++ [.insert key value])) :=
      h.ordered.imp fun hprecedes => hprecedes.concat nofun nofun
    rw [keys_insert]
    split
    · exact hold
    · rename_i hnew
      rw [h.mem_keys_iff] at hnew
      rw [List.pairwise_append]
      refine ⟨hold, List.pairwise_singleton _ _, ?_⟩
      -- The key arrives last, and whatever is there has arrived before.
      intro other hother last hlast
      obtain rfl := List.mem_singleton.1 hlast
      rw [h.mem_keys_iff] at hother
      obtain ⟨place, hplace⟩ := present_iff_exists_arrives.1 hother
      exact ⟨place, history.length, arrives_concat_iff.2 (.inl ⟨nofun, hplace⟩),
        arrives_concat_iff.2 (.inr ⟨rfl, hnew, value, rfl⟩), hplace.lt_length⟩

lemma erase (h : Recounts history m) (key : String) :
    Recounts (history ++ [.remove key]) (m.erase key) where
  distinct := nodup_keys_erase h.distinct key
  reads other read := by
    rw [get?_erase h.distinct, leaves_concat_iff]
    by_cases hkey : key = other
    · simp [hkey, Change.key]
    · simp [hkey, Change.key, h.reads other read]
  ordered := by
    have hkept : ∀ other ∈ (m.erase key).keys, Change.remove (α := α) key ≠ .remove other := by
      rintro other hother heq
      obtain rfl := Change.remove.inj heq
      rw [← contains_iff_mem_keys, contains, get?_erase h.distinct, if_pos rfl] at hother
      cases hother
    have hsublist : (m.erase key).keys.Sublist m.keys :=
      (strike_sublist key m.entries).map Prod.fst
    apply (h.ordered.sublist hsublist).imp_of_mem
    intro first second hfirst hsecond hprecedes
    exact hprecedes.concat (hkept first hfirst) (hkept second hsecond)

/-- A change keeps the mapping in step. -/
theorem change (h : Recounts history m) (change : Change α) :
    Recounts (history ++ [change]) (m.change change).2 := by
  cases change with
  | insert key value => exact h.insert key value
  | remove key => exact h.erase key

end Recounts

/-- A mapping that starts empty is in step with all that is done to it. -/
theorem recounts_after (history : List (Change α)) :
    Recounts history ((empty : Map α).after history) := by
  induction history using List.reverseRecOn with
  | nil =>
    refine ⟨List.nodup_nil, fun key value => ⟨nofun, ?_⟩, List.Pairwise.nil⟩
    rintro ⟨before, later, h, -⟩
    simp at h
  | append_singleton history change ih =>
    rw [after, List.foldl_append]
    exact ih.change change

lemma Recounts.size_eq {history : List (Change α)} {m : Map α} (h : Recounts history m) :
    m.size = {key | Present history key}.ncard := by
  have hkeys : {key | Present history key} = ↑m.keys.toFinset := by
    ext key
    rw [List.coe_toFinset, Set.mem_ofPred_eq, Set.mem_ofPred_eq, h.mem_keys_iff]
  rw [hkeys, Set.ncard_coe_finset, List.toFinset_card_of_nodup h.distinct, keys, List.length_map,
    size]

lemma Recounts.isEmpty_iff {history : List (Change α)} {m : Map α} (h : Recounts history m) :
    m.isEmpty = true ↔ ∀ key, ¬ Present history key := by
  rw [isEmpty, List.isEmpty_iff, ← List.map_eq_nil_iff, List.eq_nil_iff_forall_not_mem]
  exact forall_congr' fun key => not_congr (h.mem_keys_iff key)

lemma Recounts.mem_entries_iff {history : List (Change α)} {m : Map α} (h : Recounts history m)
    (key : String) (value : α) : (key, value) ∈ m.entries ↔ Leaves history key value := by
  rw [← h.reads]
  exact ⟨lookup_of_mem h.distinct, mem_of_lookup⟩

/-- **A mapping is what its history says.**  Let it be built from pairs and then changed any number
of times. -/
theorem after_ofList (pairs : List (String × α)) (changes : List (Change α)) :
    let history := writes pairs ++ changes
    let m := (ofList pairs).after changes
    -- Building it writes the pairs one by one, and room makes no difference.
    m = (empty : Map α).after history ∧
    (∀ room, (withCapacity room : Map α) = empty) ∧ (empty : Map α).entries = [] ∧
    -- What is found under each key, and in which order the keys stand.
    m.keys.Nodup ∧
    (∀ key value, m.get? key = some value ↔ Leaves history key value) ∧
    (∀ key value, (key, value) ∈ m.entries ↔ Leaves history key value) ∧
    (∀ key, m.contains key = true ↔ Present history key) ∧
    m.keys = m.entries.map Prod.fst ∧
    (∀ key, key ∈ m.keys ↔ ∃! place, Arrives history key place) ∧
    m.keys.Pairwise (Precedes history) ∧
    m.size = {key | Present history key}.ncard ∧
    (m.isEmpty = true ↔ ∀ key, ¬ Present history key) ∧
    -- What the next change answers, and what it does to the entries.
    (∀ key value,
      (∃ front old back, m.entries = front ++ (key, old) :: back ∧
        m.exchange key value = (some old, ⟨front ++ (key, value) :: back⟩)) ∨
      (¬ Present history key ∧ m.exchange key value = (none, ⟨m.entries ++ [(key, value)]⟩))) ∧
    ∀ key,
      (∃ front old back, m.entries = front ++ (key, old) :: back ∧
        m.take key = (some old, ⟨front ++ back⟩)) ∨
      (¬ Present history key ∧ m.take key = (none, m)) := by
  intro history m
  have hbuilt : m = (empty : Map α).after history := by
    simp only [m, history, after, writes, List.foldl_append, List.foldl_map]
    rfl
  have hstep : Recounts history m := by
    rw [hbuilt]
    exact recounts_after history
  refine ⟨hbuilt, fun _ => rfl, rfl, hstep.distinct, hstep.reads, hstep.mem_entries_iff,
    ?contains, rfl, ?arrived, hstep.ordered, hstep.size_eq, hstep.isEmpty_iff, ?insert, ?remove⟩
  case contains =>
    intro key
    rw [contains_iff_mem_keys, hstep.mem_keys_iff]
  case arrived =>
    intro key
    rw [hstep.mem_keys_iff, present_iff_exists_arrives]
    constructor
    · rintro ⟨place, hplace⟩
      exact ⟨place, hplace, fun _ hother => hother.unique hplace⟩
    · exact ExistsUnique.exists
  case insert =>
    intro key value
    rw [← hstep.mem_keys_iff]
    exact m.exchange_cases key value
  case remove =>
    intro key
    rw [← hstep.mem_keys_iff]
    exact m.take_cases key

/-- A key that is removed and written again stands behind the others, one that is written twice does
not. -/
example : ((ofList [("a", 1), ("b", 2), ("c", 3)]).after
    [.remove "a", .insert "a" 4, .insert "b" 5]).entries = [("b", 5), ("c", 3), ("a", 4)] := by
  decide

end Conform.Map
