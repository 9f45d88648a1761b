import Conform.Proofs.Rendering

/-!
# Values and their JSON trees

A value has a text, and it has a tree, which has a text as well.  The two texts are the same
(`Value.text_toJson`).  The writers of values and of trees go through containers side by side, and
they agree on scalars because the floats that have no place in a tree are those that have no digits
(`Decimal.Binary.ofFloat?_eq_none_iff`).

A value that goes out to a tree and comes back is in its normal form; the values that JSON has are
the ones that are in it already (`Value.norm_eq_self_iff`).  A tree that comes in as a value and
goes out again is the same tree exactly when values hold its numbers (`Json.toJson_ofJson_iff`).
-/

namespace Conform

/-- A function leaves a list alone when it leaves its items alone. -/
lemma map_eq_self_iff {α : Type} {f : α → α} {items : List α} :
    items.map f = items ↔ ∀ item ∈ items, f item = item := by
  have hmap := List.map_eq_map_iff (f := f) (g := id) (l := items)
  rwa [List.map_id] at hmap

/-! ## Numbers -/

namespace Decimal

open Float.Model Float.Model.UnpackedFloat

/-- The exponent of a float is what stands between its sign and its 52 lower bits. -/
lemma toNat_unpackExponent (bits : BitVec Format.binary64.numBits) :
    (unpackExponent bits).toNat = bits.toNat / 2 ^ 52 % 2 ^ 11 := by
  rw [unpackExponent, BitVec.toNat_cast, BitVec.extractLsb_toNat, Nat.shiftRight_eq_div_pow]
  rfl

/-- The floats that are no finite numbers have the last exponent. -/
lemma isFinite_eq_false_iff (f : Float) :
    f.isFinite = false ↔
      @unpackExponent Format.binary64 f.toModel.toBits.toBitVec = -1#11 := by
  show f.toModel.unpack.isFinite = false ↔ _
  rw [Float.Model.unpack, unpack_eq]
  constructor
  · intro hfinite
    by_contra hother
    rw [(below_ofComponents _ hother).isFinite] at hfinite
    cases hfinite
  · intro hlast
    rw [ofComponents, if_pos hlast]
    split <;> rfl

/-- **The floats without digits** are those that are no finite numbers. -/
theorem Binary.ofFloat?_eq_none_iff (f : Float) : ofFloat? f = none ↔ f.isFinite = false := by
  have hpower : f.toBits.toNat / Nat.pow 2 52 % Nat.pow 2 11 =
      (@unpackExponent Format.binary64 f.toModel.toBits.toBitVec).toNat :=
    (toNat_unpackExponent f.toModel.toBits.toBitVec).symm
  have hlast : (-1#11).toNat = Nat.pow 2 11 - 1 := rfl
  rw [isFinite_eq_false_iff, ← BitVec.toNat_inj, hlast, ofFloat?]
  dsimp only
  rw [hpower]
  split
  · rename_i hsame
    exact iff_of_true rfl hsame
  · rename_i hother
    refine iff_of_false ?_ hother
    split <;> exact Option.some_ne_none _

end Decimal

/-- The integers that have a word are those between the least and the greatest one. -/
lemma Word.exists_ofInt?_iff (number : Int) :
    (∃ word, ofInt? number = some word) ↔ -2 ^ 63 ≤ number ∧ number < 2 ^ 63 := by
  simp only [ofInt?_eq_some_iff]
  constructor
  · rintro ⟨word, rfl⟩
    exact ⟨word.le_toInt, word.toInt_lt⟩
  · rintro ⟨hlow, hhigh⟩
    exact ⟨Int64.ofInt number, Int64.toInt_ofInt_of_le hlow hhigh⟩

/-! ## Two ways to the text -/

namespace Value

lemma writeFloat_of_not_finite {number : Float} (h : number.isFinite = false)
    (tail : List Char) : Json.writeFloat number tail = Json.writeNull tail := by
  rw [Json.writeFloat, Decimal.Layout.float?, (Decimal.Binary.ofFloat?_eq_none_iff number).2 h]
  rfl

/-- Further items that are written as their trees are, one by one, are so all together. -/
lemma writeItems_toJsonItems {items : List Value}
    (h : ∀ item ∈ items, ∀ tail, item.toJson.write tail = item.write tail) (tail : List Char) :
    Json.writeItems (toJsonItems items) tail = writeItems items tail := by
  induction items with
  | nil => rfl
  | cons item items ih =>
    obtain ⟨hitem, hrest⟩ := List.forall_mem_cons.1 h
    rw [toJsonItems, Json.writeItems, writeItems, ih hrest, hitem]

/-- Further entries whose values are written as their trees are are so all together. -/
lemma writeMembers_toJsonEntries {entries : List (String × Value)}
    (h : ∀ entry ∈ entries, ∀ tail, entry.2.toJson.write tail = entry.2.write tail)
    (tail : List Char) :
    Json.writeMembers (toJsonEntries entries) tail = writeEntries entries tail := by
  induction entries with
  | nil => rfl
  | cons entry entries ih =>
    obtain ⟨key, value⟩ := entry
    obtain ⟨hvalue, hrest⟩ := List.forall_mem_cons.1 h
    rw [toJsonEntries, Json.writeMembers, writeEntries, ih hrest, hvalue]

/-- In front of any text, a tree is written as the value it is the tree of. -/
lemma write_toJson (value : Value) (tail : List Char) :
    value.toJson.write tail = value.write tail := by
  induction value generalizing tail with
  | float number =>
    rw [toJson, write]
    split
    · rw [Json.write]
    · rename_i hinfinite
      rw [Json.write, writeFloat_of_not_finite (Bool.eq_false_iff.2 hinfinite)]
  | sequence items ih =>
    cases items with
    | nil => rfl
    | cons item items =>
      obtain ⟨hitem, hrest⟩ := List.forall_mem_cons.1 ih
      rw [toJson, toJsonItems, Json.write, write, writeItems_toJsonItems hrest, hitem]
  | mapping map ih =>
    obtain ⟨_ | ⟨⟨key, value⟩, entries⟩⟩ := map
    · rfl
    · obtain ⟨hvalue, hrest⟩ := List.forall_mem_cons.1 ih
      rw [toJson, toJsonEntries, Json.write, write, writeMembers_toJsonEntries hrest, hvalue]
  | _ => rfl

/-- **The text of a value is the text of its tree.** -/
theorem text_toJson (value : Value) : value.toJson.text = value.text := by
  rw [text, Json.text, write_toJson]

/-! ## Out and back -/

/-- **Normal values.** The values that JSON has are those that are their own normal form. -/
theorem norm_eq_self_iff (value : Value) : value.norm = value ↔ value.Everywhere Exportable := by
  induction value with
  | float number =>
    show (if number.isFinite then float number else null) = _ ↔ number.isFinite = true
    split
    · rename_i hfinite
      exact iff_of_true rfl hfinite
    · rename_i hinfinite
      exact iff_of_false Value.noConfusion hinfinite
  | sequence items ih =>
    rw [norm, normItems_eq_map, sequence.injEq, map_eq_self_iff, Everywhere, everywhereInItems_iff]
    simp only [Exportable, true_and]
    exact forall₂_congr ih
  | mapping map ih =>
    obtain ⟨entries⟩ := map
    rw [norm, normEntries_eq_map, mapping.injEq, Map.mk.injEq, map_eq_self_iff, Everywhere,
      everywhereInEntries_iff]
    simp only [Exportable, true_and, Prod.ext_iff]
    exact forall₂_congr ih
  | timestamp stamp => exact iff_of_false Value.noConfusion id
  | _ => exact iff_of_true rfl trivial

/-- Nothing in a normal form is left to be replaced. -/
lemma everywhere_exportable_norm (value : Value) : value.norm.Everywhere Exportable := by
  induction value with
  | float number =>
    rw [norm]
    split
    · rename_i hfinite
      exact hfinite
    · trivial
  | sequence items ih =>
    rw [norm, normItems_eq_map]
    exact ⟨trivial, (everywhereInItems_iff _ _).2 (List.forall_mem_map.2 ih)⟩
  | mapping map ih =>
    obtain ⟨entries⟩ := map
    rw [norm, normEntries_eq_map]
    exact ⟨trivial, (everywhereInEntries_iff _ _).2 (List.forall_mem_map.2 ih)⟩
  | _ => trivial

end Value

/-! ## In and out again -/

namespace Json

/-- To prove a statement of every tree, prove it of scalars, and of arrays and objects from what
holds of their parts. -/
@[elab_as_elim, induction_eliminator]
lemma induction {motive : Json → Prop} (null : motive .null)
    (boolean : ∀ truth, motive (.boolean truth)) (integer : ∀ number, motive (.integer number))
    (float : ∀ number, motive (.float number)) (string : ∀ text, motive (.string text))
    (array : ∀ items, (∀ item ∈ items, motive item) → motive (.array items))
    (object : ∀ members : Map Json, (∀ member ∈ members.entries, motive member.2) →
      motive (.object members)) : ∀ json, motive json :=
  -- As for values, one motive for each type that the recursor goes through.
  @Json.rec motive (fun items => ∀ item ∈ items, motive item)
    (fun members => ∀ member ∈ members.entries, motive member.2)
    (fun members => ∀ member ∈ members, motive member.2)
    (fun member => motive member.2)
    null boolean integer float string array object
    (fun _ h => by cases h)
    (fun _ _ ihHead ihTail => List.forall_mem_cons.2 ⟨ihHead, ihTail⟩)
    (fun _ ih => ih)
    (fun _ h => by cases h)
    (fun _ _ ihHead ihTail => List.forall_mem_cons.2 ⟨ihHead, ihTail⟩)
    (fun _ _ ih => ih)

mutual

/-- Values hold all the numbers of a tree: integers of 64 bits and finite floats. -/
def Importable : Json → Prop
  | integer number => -2 ^ 63 ≤ number ∧ number < 2 ^ 63
  | float number => number.isFinite = true
  | array items => ImportableItems items
  | object ⟨members⟩ => ImportableMembers members
  | _ => True

/-- Values hold all the numbers of items. -/
def ImportableItems : List Json → Prop
  | [] => True
  | item :: items => item.Importable ∧ ImportableItems items

/-- Values hold all the numbers under keys. -/
def ImportableMembers : List (String × Json) → Prop
  | [] => True
  | (_, json) :: members => json.Importable ∧ ImportableMembers members

end

lemma importableItems_iff (items : List Json) :
    ImportableItems items ↔ ∀ item ∈ items, item.Importable := by
  induction items with
  | nil => simp [ImportableItems]
  | cons item items ih => simp [ImportableItems, ih]

lemma importableMembers_iff (members : List (String × Json)) :
    ImportableMembers members ↔ ∀ member ∈ members, member.2.Importable := by
  induction members with
  | nil => simp [ImportableMembers]
  | cons member members ih => simp [ImportableMembers, ih]

/-! A tree comes in and goes out again part by part. -/

lemma toJson_ofJson_array (items : List Json) :
    (Value.ofJson (array items)).toJson =
      array (items.map fun item => (Value.ofJson item).toJson) := by
  rw [Value.ofJson, Value.toJson]
  congr 1
  induction items with
  | nil => rfl
  | cons item items ih => rw [Value.ofJsonItems, Value.toJsonItems, ih, List.map_cons]

lemma toJson_ofJson_object (members : List (String × Json)) :
    (Value.ofJson (object ⟨members⟩)).toJson =
      object ⟨members.map fun member => (member.1, (Value.ofJson member.2).toJson)⟩ := by
  rw [Value.ofJson, Value.toJson]
  congr 2
  induction members with
  | nil => rfl
  | cons member members ih =>
    obtain ⟨key, json⟩ := member
    rw [Value.ofJsonMembers, Value.toJsonEntries, ih, List.map_cons]

/-- An integer that has no word goes out as the float that it came in as. -/
lemma toJson_ofJson_integer (number : Int) :
    (Value.ofJson (integer number)).toJson = integer number ↔
      -2 ^ 63 ≤ number ∧ number < 2 ^ 63 := by
  rw [← Word.exists_ofInt?_iff, Value.ofJson, Value.ofInteger]
  cases hword : Word.ofInt? number with
  | none =>
    dsimp only
    rw [Value.toJson]
    refine iff_of_false ?_ (by simp)
    split <;> exact Json.noConfusion
  | some word =>
    refine iff_of_true ?_ ⟨word, rfl⟩
    show (Value.integer word).toJson = _
    rw [Value.toJson, Word.ofInt?_eq_some_iff.1 hword]

/-- **Trees that values hold** come in and go out again as they are, and no others. -/
theorem toJson_ofJson_iff (json : Json) :
    (Value.ofJson json).toJson = json ↔ json.Importable := by
  induction json with
  | integer number => exact toJson_ofJson_integer number
  | float number =>
    show (if number.isFinite then float number else null) = _ ↔ number.isFinite = true
    split
    · rename_i hfinite
      exact iff_of_true rfl hfinite
    · rename_i hinfinite
      exact iff_of_false Json.noConfusion hinfinite
  | array items ih =>
    rw [toJson_ofJson_array, array.injEq, map_eq_self_iff, Importable, importableItems_iff]
    exact forall₂_congr ih
  | object members ih =>
    obtain ⟨members⟩ := members
    rw [toJson_ofJson_object, object.injEq, Map.mk.injEq, map_eq_self_iff, Importable,
      importableMembers_iff]
    simp only [Prod.ext_iff, true_and]
    exact forall₂_congr ih
  | _ => exact iff_of_true rfl trivial

end Json

/-- **Round trips.** A value that goes out to JSON comes back in its normal form, which comes back
as it is, so nothing is lost when the value is one that JSON has.  A tree that comes in goes out
again as it is when values hold its numbers. -/
theorem Value.round_trips :
    (∀ value : Value, ofJson value.toJson = value.norm ∧
      ofJson value.norm.toJson = value.norm ∧
      (ofJson value.toJson = value ↔ value.Everywhere Exportable)) ∧
    ∀ json : Json, (ofJson json).toJson = json ↔ json.Importable := by
  refine ⟨fun value => ⟨ofJson_toJson_eq_norm value, ?again, ?same⟩, Json.toJson_ofJson_iff⟩
  case again => exact ofJson_toJson value.everywhere_exportable_norm
  case same => rw [ofJson_toJson_eq_norm, norm_eq_self_iff]

end Conform
