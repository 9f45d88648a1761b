import Conform.Proofs.Exchange
import Conform.Proofs.Json.Trees
import Conform.Proofs.Location

/-!
# Values that are written as text and read back

The text of a value is written by one recursion and read by another, which knows nothing of values.
They agree part by part: in front of any text in which a part may end, a value is read as its own
JSON tree, and what follows it is left (`Value.ReadsBack`).  Only nesting can stand against it.  The
reader takes containers to a certain depth and refuses the text of a value exactly when there are
more of them inside one another, so depth goes through the induction as a condition on the outcome
(`Json.ComesTo`) and not as a hypothesis.

The tree of a value stands for the value itself, but for timestamps, which come back as strings, and
floats that are no finite numbers, which come back as nulls (`Value.ofJson_toJson_eq_norm`).  Floats
play no part in the theorem about texts (`Value.parseJson_text`).
-/

namespace Conform.Value

open Json

/-! ## What comes back -/

mutual

/-- A value with strings for its timestamps and nulls for its floats that are no finite numbers. -/
def norm : Value → Value
  | float number => if number.isFinite then float number else null
  | sequence items => sequence (normItems items)
  | mapping ⟨entries⟩ => mapping ⟨normEntries entries⟩
  | timestamp stamp => string stamp.text
  | value => value

/-- Items with strings and nulls for what JSON does not have. -/
def normItems : List Value → List Value
  | [] => []
  | item :: items => item.norm :: normItems items

/-- Entries with strings and nulls for what JSON does not have. -/
def normEntries : List (String × Value) → List (String × Value)
  | [] => []
  | (key, value) :: entries => (key, value.norm) :: normEntries entries

end

lemma normItems_eq_map (items : List Value) : normItems items = items.map norm := by
  induction items with
  | nil => rfl
  | cons item items ih => rw [normItems, ih, List.map_cons]

lemma normEntries_eq_map (entries : List (String × Value)) :
    normEntries entries = entries.map fun entry => (entry.1, entry.2.norm) := by
  induction entries with
  | nil => rfl
  | cons entry entries ih =>
    obtain ⟨key, value⟩ := entry
    rw [normEntries, ih, List.map_cons]

/-- **A value goes out to JSON and comes back in its normal form.** -/
theorem ofJson_toJson_eq_norm (value : Value) : ofJson value.toJson = value.norm := by
  induction value with
  | integer number => exact ofJson_toJson_integer number
  | float number =>
    rw [toJson, norm]
    split <;> rfl
  | sequence items ih =>
    rw [ofJson_toJson_sequence, norm, normItems_eq_map, List.map_congr_left ih]
  | mapping map ih =>
    obtain ⟨entries⟩ := map
    have hentries : ∀ entry ∈ entries, (entry.1, ofJson entry.2.toJson) = (entry.1, entry.2.norm) :=
      fun entry hentry => congrArg (Prod.mk entry.1) (ih entry hentry)
    rw [ofJson_toJson_mapping, norm, normEntries_eq_map, List.map_congr_left hentries]
  | _ => rfl

/-! ## Nesting

The reader counts the containers that it is in.  A value may have one more of them inside one
another than there are steps down in it, because an empty one counts as well. -/

mutual

/-- How many containers stand inside one another at most, the empty ones included. -/
def nesting : Value → Nat
  | sequence items => nestingOfItems items + 1
  | mapping ⟨entries⟩ => nestingOfEntries entries + 1
  | _ => 0

/-- How many containers stand inside one another in one of the items at most. -/
def nestingOfItems : List Value → Nat
  | [] => 0
  | item :: items => max item.nesting (nestingOfItems items)

/-- How many containers stand inside one another in the value of one of the entries at most. -/
def nestingOfEntries : List (String × Value) → Nat
  | [] => 0
  | (_, value) :: entries => max value.nesting (nestingOfEntries entries)

end

/-! ## Parts that are read back -/

/-- In front of any text in which a part may end, the text of a value starts a part, and it is read
as the tree of the value unless the value nests too deep. -/
structure ReadsBack (value : Value) : Prop where
  opens : ∀ {tail}, Delimited tail → Opens (value.write tail)
  read : ∀ {tail}, Delimited tail → ∀ depth,
    ComesTo (value.nesting ≤ depth) (taken (tree depth (value.write tail))) (value.toJson, tail)

lemma readsBack_of_readsScalar {value : Value} (hnesting : value.nesting = 0)
    (h : ∀ {tail}, Delimited tail → ReadsScalar (value.write tail) value.toJson tail) :
    value.ReadsBack where
  opens htail := (h htail).opens
  read htail depth := .of_ok (hnesting ▸ Nat.zero_le depth) (taken_tree_scalar (h htail) depth)

lemma delimited_writeItems (items : List Value) (tail : List Char) :
    Delimited (writeItems items tail) := by
  cases items <;> simp [writeItems, Delimited]

lemma delimited_writeEntries (entries : List (String × Value)) (tail : List Char) :
    Delimited (writeEntries entries tail) := by
  rcases entries with _ | ⟨⟨key, value⟩, entries⟩ <;> simp [writeEntries, Delimited]

section Loops

variable {depth : Nat} {tail : List Char}

/-- An item that is read back goes in front of the items that are read after it, whether it is the
first or stands after a comma. -/
lemma comesTo_items_cons {item : Value} {items : List Value} (hitem : item.ReadsBack)
    (hitems : ComesTo (nestingOfItems items ≤ depth)
      (taken (Json.items (tree depth) false (writeItems items tail))) (toJsonItems items, tail))
    {first : Bool} {text : List Char} {hlength}
    (hnext : nextItem first text = .ok (.part (item.write (writeItems items tail)) hlength)) :
    ComesTo (nestingOfItems (item :: items) ≤ depth)
      (taken (Json.items (tree depth) first text)) (toJsonItems (item :: items), tail) := by
  have hread := hitem.read (delimited_writeItems items tail) depth
  rw [taken_items_part hnext]
  exact (hread.bind (hitems.map (Prod.map (item.toJson :: ·) id))).congr Nat.max_le

/-- Items that are read back are read one after the other. -/
lemma comesTo_items {items : List Value} (h : ∀ item ∈ items, item.ReadsBack) :
    ComesTo (nestingOfItems items ≤ depth)
      (taken (Json.items (tree depth) false (writeItems items tail)))
      (toJsonItems items, tail) := by
  induction items with
  | nil => exact .of_ok (Nat.zero_le depth) (taken_items_closed _ _ tail)
  | cons item items ih =>
    obtain ⟨hitem, hrest⟩ := List.forall_mem_cons.1 h
    have hopens := hitem.opens (delimited_writeItems items tail)
    exact comesTo_items_cons hitem (ih hrest) (nextItem_next hopens)

/-- A member under a new key whose value is read back goes behind what has been gathered. -/
lemma comesTo_members_cons {gathered : Map Json} {key : String} {value : Value}
    {entries : List (String × Value)} (hkey : key ∉ gathered.keys) (hvalue : value.ReadsBack)
    {result : Map Json × List Char}
    (hentries : ComesTo (nestingOfEntries entries ≤ depth)
      (taken (members (treeMember (tree depth)) ⟨gathered.entries ++ [(key, value.toJson)]⟩ false
        (writeEntries entries tail))) result)
    {first : Bool} {text : List Char} {hlength}
    (hnext : nextMember first text = .ok (.part
      (writeChars key.toList (':' :: value.write (writeEntries entries tail))) hlength)) :
    ComesTo (nestingOfEntries ((key, value) :: entries) ≤ depth)
      (taken (members (treeMember (tree depth)) gathered first text)) result := by
  have hread := hvalue.read (delimited_writeEntries entries tail) depth
  rw [taken_members_part hnext (taken_stringText key _), taken_treeMember]
  refine ((hread.map _).bind ?_).congr Nat.max_le
  rw [Map.insert_of_notMem hkey]
  exact hentries

/-- Members under new keys whose values are read back are gathered in their order. -/
lemma comesTo_members {entries : List (String × Value)}
    (h : ∀ entry ∈ entries, entry.2.ReadsBack) (gathered : Map Json)
    (hkeys : (gathered.keys ++ entries.map Prod.fst).Nodup) :
    ComesTo (nestingOfEntries entries ≤ depth)
      (taken (members (treeMember (tree depth)) gathered false (writeEntries entries tail)))
      (⟨gathered.entries ++ toJsonEntries entries⟩, tail) := by
  induction entries generalizing gathered with
  | nil =>
    rw [toJsonEntries, List.append_nil]
    exact .of_ok (Nat.zero_le depth) (taken_members_closed _ gathered _ tail)
  | cons entry entries ih =>
    obtain ⟨key, value⟩ := entry
    obtain ⟨hvalue, hrest⟩ := List.forall_mem_cons.1 h
    have hnew : key ∉ gathered.keys := fun hmem =>
      List.disjoint_of_nodup_append hkeys hmem List.mem_cons_self
    -- What has been gathered grows, and so do the keys that those to come must be distinct from.
    have hmore := ih hrest ⟨gathered.entries ++ [(key, value.toJson)]⟩
      (by simpa [Map.keys] using hkeys)
    rw [List.append_assoc] at hmore
    exact comesTo_members_cons hnew hvalue hmore (nextMember_next _)

end Loops

/-! ## Containers -/

lemma ReadsBack.sequence {items : List Value} (h : ∀ item ∈ items, item.ReadsBack) :
    (sequence items).ReadsBack where
  opens _ := by
    cases items <;> exact ⟨'[', _, rfl, rfl, by decide⟩
  read {tail} _ depth := by
    cases items with
    | nil => exact comesTo_array fun _ => .of_ok (Nat.zero_le _) (taken_items_closed _ true tail)
    | cons item items =>
      obtain ⟨hitem, hrest⟩ := List.forall_mem_cons.1 h
      have hopens := hitem.opens (delimited_writeItems items tail)
      exact comesTo_array fun _ =>
        comesTo_items_cons hitem (comesTo_items hrest) (nextItem_first hopens)

lemma ReadsBack.mapping {map : Map Value} (hkeys : map.keys.Nodup)
    (h : ∀ entry ∈ map.entries, entry.2.ReadsBack) : (mapping map).ReadsBack where
  opens _ := by
    obtain ⟨_ | ⟨⟨key, value⟩, entries⟩⟩ := map <;> exact ⟨'{', _, rfl, rfl, by decide⟩
  read {tail} _ depth := by
    obtain ⟨_ | ⟨⟨key, value⟩, entries⟩⟩ := map
    · exact comesTo_object fun _ =>
        .of_ok (Nat.zero_le _) (taken_members_closed _ Map.empty true tail)
    · obtain ⟨hvalue, hrest⟩ := List.forall_mem_cons.1 h
      exact comesTo_object fun _ => comesTo_members_cons List.not_mem_nil hvalue
        (comesTo_members hrest ⟨[(key, value.toJson)]⟩ hkeys) (nextMember_first _)

/-! ## All values -/

/-- A value is no float. -/
def NotFloat : Value → Prop
  | float _ => False
  | _ => True

/-- Every value without floats is read back from its text. -/
lemma readsBack {value : Value} (hvalue : value.WellFormed)
    (hfloats : value.Everywhere NotFloat) : value.ReadsBack := by
  induction value with
  | string text => exact readsBack_of_readsScalar rfl fun _ => readsScalar_string text _
  | integer number => exact readsBack_of_readsScalar rfl (readsScalar_integer number)
  | float number => exact hfloats.here.elim
  | boolean truth => exact readsBack_of_readsScalar rfl fun _ => readsScalar_boolean truth _
  | null => exact readsBack_of_readsScalar rfl fun _ => readsScalar_null _
  | sequence items ih =>
    refine .sequence fun item hitem => ?_
    obtain ⟨index, hpart⟩ := exists_hasPart hitem
    exact ih item hitem (hpart.wellFormed hvalue) (hfloats.part hpart)
  | mapping map ih =>
    refine .mapping hvalue.1 fun entry hentry => ?_
    have hpart : (mapping map).HasPart (.key entry.1) entry.2 := .entry hentry
    exact ih entry hentry (hpart.wellFormed hvalue) (hfloats.part hpart)
  | timestamp stamp => exact readsBack_of_readsScalar rfl fun _ => readsScalar_string stamp.text _

/-- **Rendering.** A value without floats comes back from its text in its normal form when no more
containers nest in it than the reader follows, and is refused for its depth otherwise. -/
theorem parseJson_text {value : Value} (hvalue : value.WellFormed)
    (hfloats : value.Everywhere NotFloat) :
    (value.nesting ≤ 127 → parseJson value.text = .ok value.norm) ∧
      (128 ≤ value.nesting → ∃ error, parseJson value.text = .error error ∧
        error.cause = .tooDeep) := by
  have hend : Delimited [] := by
    rintro c ⟨⟩
  -- The reader of the whole text follows as many containers as its limit says.
  have hread : ComesTo (value.nesting ≤ 127) (whole (tree depthLimit) value.text.toList)
      value.toJson := by
    rw [text, String.toList_ofList]
    exact comesTo_whole ((readsBack hvalue hfloats).read hend depthLimit)
  rw [parseJson, parse, parseWith]
  constructor
  · intro hfits
    rw [hread.1 hfits, ← ofJson_toJson_eq_norm]
    rfl
  · intro hdeep
    obtain ⟨fault, hfault, hcause⟩ := hread.2 (by omega)
    rw [hfault]
    exact ⟨.ofFault value.text fault, rfl, hcause⟩

/-- The ends of the integers under a key that is hard to write, and when they were noted. -/
def extremes : Value :=
  .mapping ⟨[("\x00\t\"\\é😀", .sequence [.integer Int64.minValue, .integer Int64.maxValue]),
    ("", .mapping ⟨[]⟩), ("at", .sequence [.timestamp Validator.leapDay, .sequence []])]⟩

/-- A null in so many boxes. -/
def boxed : Nat → Value
  | 0 => null
  | boxes + 1 => sequence [boxed boxes]

theorem parseJson_text_extremes :
    parseJson extremes.text = .ok (.mapping ⟨[("\x00\t\"\\é😀",
        .sequence [.integer Int64.minValue, .integer Int64.maxValue]), ("", .mapping ⟨[]⟩),
      ("at", .sequence [.string "2024-02-29T23:59:59.250Z", .sequence []])]⟩) ∧
    ∃ error, parseJson (boxed 128).text = .error error ∧ error.cause = .tooDeep := by
  have hvalue : extremes.WellFormed := by
    simp [extremes, WellFormed, WellFormedEntries, WellFormedItems]
  have hfloats : extremes.Everywhere NotFloat := by
    simp [extremes, Everywhere, EverywhereInEntries, EverywhereInItems, NotFloat]
  have hboxed : ∀ boxes, (boxed boxes).WellFormed ∧ (boxed boxes).Everywhere NotFloat ∧
      (boxed boxes).nesting = boxes := by
    intro boxes
    induction boxes with
    | zero => exact ⟨trivial, trivial, rfl⟩
    | succ boxes ih =>
      obtain ⟨hwell, hplain, hnesting⟩ := ih
      refine ⟨⟨hwell, trivial⟩, ⟨trivial, hplain, trivial⟩, ?_⟩
      rw [boxed, nesting, nestingOfItems, nestingOfItems, hnesting, Nat.max_zero]
  obtain ⟨hwell, hplain, hnesting⟩ := hboxed 128
  exact ⟨(parseJson_text hvalue hfloats).1 (by decide),
    (parseJson_text hwell hplain).2 (Nat.le_of_eq hnesting.symm)⟩

end Conform.Value
