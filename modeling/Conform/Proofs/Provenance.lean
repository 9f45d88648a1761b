import Conform.Proofs.Location
import Conform.Proofs.Records

/-!
# Where accepted values come from

Nothing in an accepted value is made up, moved or doubled.  Every part of it stands where a part of
the raw value stood, and is that part, or what a kind has read from it or widened it to, or a
container whose parts come in turn from the parts at the same places (`Value.Derives`).

This holds of every tree that the constructors build.  When a name of a record comes twice, both
fields read the one entry under the name, and whichever result is written last derives from it; so
it is enough to know of every entry that a run gathers where it comes from
(`Field.exists_of_mem_run`), and that building the mapping brings in no other entry.
-/

namespace Conform

open Run

/-! ## Derived values -/

/-- A value comes part by part from a raw one. -/
inductive Value.Derives : Value → Value → Prop where
  | same (value : Value) : Derives value value
  | widened (number : Int64) : Derives (.integer number) (.float (widen number))
  | integer {text : String} {number : Int64} :
    parseInteger text = some number → Derives (.string text) (.integer number)
  | float {text : String} {number : Float} :
    parseFloat text = some number → Derives (.string text) (.float number)
  | boolean {text : String} {truth : Bool} :
    parseBoolean text = some truth → Derives (.string text) (.boolean truth)
  | timestamp {text : String} {stamp : Timestamp} :
    parseTimestamp text = some stamp → Derives (.string text) (.timestamp stamp)
  /-- Item by item, in the same order. -/
  | sequence {items results : List Value} :
    List.Forall₂ Derives items results → Derives (.sequence items) (.sequence results)
  /-- Key by key, under keys of the raw mapping and each of them at most once. -/
  | mapping {input output : Map Value} : output.keys.Nodup →
    (∀ key ∈ output.keys, key ∈ input.keys) →
    (∀ key value result, input.get? key = some value → output.get? key = some result →
      Derives value result) →
    Derives (.mapping input) (.mapping output)

/-- A kind derives what it makes of a value. -/
lemma Kind.Coerces.derives {kind : Kind} {raw value : Value} (h : kind.Coerces raw value) :
    raw.Derives value := by
  cases h with
  | same => exact .same raw
  | widened number => exact .widened number
  | integer hparse => exact .integer hparse
  | float hparse => exact .float hparse
  | boolean hparse => exact .boolean hparse
  | datetime hparse => exact .timestamp hparse

/-- Mappings derive from one another when every value does from one under the same key. -/
lemma Value.Derives.of_get? {input output : Map Value} (hkeys : output.keys.Nodup)
    (h : ∀ key result, output.get? key = some result →
      ∃ value, input.get? key = some value ∧ Derives value result) :
    Derives (.mapping input) (.mapping output) := by
  refine .mapping hkeys ?_ ?_
  · intro key hkey
    have hpresent := (output.contains_iff_mem_keys key).2 hkey
    obtain ⟨result, hresult⟩ := Option.isSome_iff_exists.1 hpresent
    obtain ⟨value, hvalue, -⟩ := h key result hresult
    exact (input.contains_iff_mem_keys key).1 (Option.isSome_iff_exists.2 ⟨value, hvalue⟩)
  · intro key value result hvalue hresult
    obtain ⟨found, hfound, hderives⟩ := h key result hresult
    obtain rfl : value = found := Option.some.inj (hvalue.symm.trans hfound)
    exact hderives

/-! ## All validators -/

/-- An entry that fields come to is what one of them makes of the value under its name. -/
theorem Field.exists_of_mem_run {fields : List Field} {budget : Nat} {input : Map Value}
    {results : List (String × Value)} (h : (Field.run fields budget input).outcome = .ok results)
    {entry : String × Value} (hentry : entry ∈ results) :
    ∃ field ∈ fields, ∃ value, entry.1 = field.name ∧ input.get? field.name = some value ∧
      Yields field.validator.run budget value entry.2 := by
  induction fields generalizing results with
  | nil =>
    obtain rfl : [] = results := Except.ok.inj h
    cases hentry
  | cons field fields ih =>
    obtain ⟨value, first, others, hget, hfirst, hothers, rfl⟩ | ⟨-, -, hothers⟩ :=
      run_cons_eq_ok.1 h
    · obtain rfl | hrest := List.mem_cons.1 hentry
      · exact List.exists_mem_cons_of fields ⟨value, rfl, hget, hfirst⟩
      · exact List.exists_mem_cons_of_exists (ih hothers hrest)
    · exact List.exists_mem_cons_of_exists (ih hothers hentry)

namespace Validator

lemma derives_of_run {validator : Validator} {budget : Nat} {raw value : Value}
    (hraw : raw.WellFormed) (h : (validator.run budget raw).outcome = .ok value) :
    raw.Derives value := by
  induction validator generalizing budget raw value with
  | primitive kind => exact (Kind.coerce_eq_ok.1 (run_primitive_eq_ok.1 h)).derives
  | record fields extra ihField ihExtra =>
    obtain ⟨input, declared, kept, rfl, hdeclared, hkept, rfl⟩ := run_record_eq_ok.1 h
    refine .of_get? (Map.nodup_keys_ofList (declared ++ kept)) fun key result hresult => ?_
    have hentry : (key, result) ∈ declared ++ kept :=
      Map.mem_of_mem_ofList (Map.mem_of_lookup hresult)
    -- Whichever of the gathered entries was written last, it comes from the value under its key.
    obtain hread | hextra := List.mem_append.1 hentry
    · obtain ⟨field, hfield, value, heq, hvalue, left, -, hrun⟩ :=
        Field.exists_of_mem_run hdeclared hread
      obtain rfl : key = field.name := heq
      have hpart : (Value.mapping input).HasPart (.key field.name) value :=
        .entry (Map.mem_of_lookup hvalue)
      exact ⟨value, hvalue, ihField field hfield (hpart.wellFormed hraw) hrun⟩
    · obtain ⟨-, validator, value, rfl, hmem, left, -, hrun⟩ :=
        Extra.exists_of_mem_kept hkept hextra
      have hpart : (Value.mapping input).HasPart (.key key) value := .entry hmem
      have hvalue : input.get? key = some value := hpart.part?_eq hraw
      exact ⟨value, hvalue, ihExtra validator rfl (hpart.wellFormed hraw) hrun⟩
  | subtype base constraints ih => exact ih hraw (run_subtype_eq_ok.1 h).1
  | array element ih =>
    obtain ⟨items, results, rfl, hitems, rfl⟩ := run_array_eq_ok.1 h
    refine .sequence (forall₂_imp_of_mem hitems fun item hitem result hyields => ?_)
    obtain ⟨index, hpart⟩ := Value.exists_hasPart hitem
    obtain ⟨left, -, hrun⟩ := hyields
    exact ih (hpart.wellFormed hraw) hrun
  | choice alternatives ih =>
    obtain ⟨first, hfirst, hrun⟩ := (run_choice_eq_ok.1 h).exists_mem
    exact ih first hfirst hraw hrun

/-- **Provenance.** An accepted value derives from the raw one. -/
theorem derives_of_validateWith {validator : Validator} {config : Config} {root : String}
    {raw value : Value} (hraw : raw.WellFormed)
    (h : validator.validateWith config root raw = .ok value) : raw.Derives value :=
  derives_of_run hraw (validateWith_eq_ok.1 h)

/-- A count that is declared twice, first as text, beside lists of numbers. -/
def recounted : Validator :=
  record [⟨"count", primitive .string, false⟩, ⟨"count", primitive .integer, false⟩]
    (.typed (array (choice [choice [], primitive .float])))

theorem derives_of_validateWith_recounted :
    recounted.validateWith ⟨2, .summary⟩ ""
        (.mapping ⟨[("sizes", .sequence [.integer 3]), ("count", .string "01")]⟩) =
      .ok (.mapping ⟨[("count", .integer 1), ("sizes", .sequence [.float (Value.widen 3)])]⟩) ∧
    Value.Derives (.mapping ⟨[("sizes", .sequence [.integer 3]), ("count", .string "01")]⟩)
      (.mapping ⟨[("count", .integer 1), ("sizes", .sequence [.float (Value.widen 3)])]⟩) := by
  have hraw : Value.WellFormed
      (.mapping ⟨[("sizes", .sequence [.integer 3]), ("count", .string "01")]⟩) := by
    simp [Value.WellFormed, Value.WellFormedEntries, Value.WellFormedItems]
  have haccepts : recounted.validateWith ⟨2, .summary⟩ ""
      (.mapping ⟨[("sizes", .sequence [.integer 3]), ("count", .string "01")]⟩) =
    .ok (.mapping ⟨[("count", .integer 1), ("sizes", .sequence [.float (Value.widen 3)])]⟩) := rfl
  exact ⟨haccepts, derives_of_validateWith hraw haccepts⟩

end Validator

end Conform
