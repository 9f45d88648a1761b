import Conform.Predicate
import Conform.Proofs.Coercion
import Conform.Proofs.Records
import Conform.Proofs.Trees

/-!
# Accepted values conform

What a validator promises of the values that it lets through, said of a value alone: no run, no
budget and no raw value takes part in it.  `Validator.conforms_of_validateWith` is the promise kept.
It needs the names of every record to be distinct, because a repeated name leaves the value of its
last field, which the first one need not accept.
-/

namespace Conform

mutual

/-- A value is such as a validator asks for. -/
def Validator.Conforms : Validator → Value → Prop
  | .primitive kind, value => kind.Describes value
  | .record fields extra, value =>
    ∃ map, value = .mapping map ∧ Field.AllConform fields map ∧
      extra.Conforms (fields.map Field.name) map
  | .subtype base constraints, value =>
    base.Conforms value ∧ ∀ constraint ∈ constraints, constraint.holds value = true
  | .array element, value =>
    ∃ items, value = .sequence items ∧ ∀ item ∈ items, element.Conforms item
  | .choice alternatives, value => Validator.AnyConforms alternatives value

/-- Every required field is present, and every present one has a value that conforms. -/
def Field.AllConform : List Field → Map Value → Prop
  | [], _ => True
  | ⟨name, validator, optional⟩ :: fields, map =>
    (match map.get? name with
      | some value => validator.Conforms value
      | none => optional = true) ∧ Field.AllConform fields map

/-- No key is undeclared, or every value under an undeclared key conforms. -/
def Extra.Conforms : Extra → List String → Map Value → Prop
  | .closed, names, map => ∀ entry ∈ map.entries, entry.1 ∈ names
  | .ignored, names, map => ∀ entry ∈ map.entries, entry.1 ∈ names
  | .typed validator, names, map =>
    ∀ entry ∈ map.entries, entry.1 ∉ names → validator.Conforms entry.2

/-- A value conforms to one of some validators. -/
def Validator.AnyConforms : List Validator → Value → Prop
  | [], _ => False
  | validator :: others, value => validator.Conforms value ∨ Validator.AnyConforms others value

end

lemma Field.allConform_iff (fields : List Field) (map : Map Value) :
    Field.AllConform fields map ↔ ∀ field ∈ fields,
      match map.get? field.name with
      | some value => field.validator.Conforms value
      | none => field.optional = true := by
  induction fields with
  | nil => simp [Field.AllConform]
  | cons field fields ih =>
    obtain ⟨name, validator, optional⟩ := field
    simp [Field.AllConform, ih]

lemma Validator.anyConforms_iff (alternatives : List Validator) (value : Value) :
    Validator.AnyConforms alternatives value ↔ ∃ first ∈ alternatives, first.Conforms value := by
  induction alternatives with
  | nil => simp [Validator.AnyConforms]
  | cons first others ih => simp [Validator.AnyConforms, ih]

/-! ## All validators -/

/-- Each entry of an accepted mapping is that of a field, or the extras have a validator to which it
conforms. -/
lemma Extra.conforms_of_run {fields : List Field} {extra : Extra} {budget : Nat}
    {input : Map Value} {declared kept : List (String × Value)}
    (hdeclared : (Field.run fields budget input).outcome = .ok declared)
    (hkept : (extra.run budget (Field.undeclared fields input)).outcome = .ok kept)
    (hsound : ∀ validator, extra = .typed validator → ∀ left value result,
      (validator.run left value).outcome = .ok result → validator.Conforms result) :
    extra.Conforms (fields.map Field.name) (.ofList (declared ++ kept)) := by
  have hcases : ∀ entry ∈ (Map.ofList (declared ++ kept)).entries,
      entry.1 ∈ fields.map Field.name ∨
        ∃ validator, extra = .typed validator ∧ validator.Conforms entry.2 := by
    intro entry hentry
    obtain hfield | hextra := List.mem_append.1 (Map.mem_of_mem_ofList hentry)
    · exact .inl ((Field.mem_names_of_run hdeclared).subset (List.mem_map_of_mem hfield))
    · obtain ⟨-, validator, value, heq, -, left, -, hrun⟩ := exists_of_mem_kept hkept hextra
      exact .inr ⟨validator, heq, hsound validator heq left value entry.2 hrun⟩
  cases extra with
  | closed =>
    intro entry hentry
    exact (hcases entry hentry).resolve_right (by rintro ⟨_, heq, -⟩; cases heq)
  | ignored =>
    intro entry hentry
    exact (hcases entry hentry).resolve_right (by rintro ⟨_, heq, -⟩; cases heq)
  | typed validator =>
    intro entry hentry hundeclared
    obtain ⟨_, heq, hconforms⟩ := (hcases entry hentry).resolve_left hundeclared
    cases heq
    exact hconforms

lemma Validator.conforms_of_run {validator : Validator}
    (hfields : validator.Everywhere HasDistinctFields) {budget : Nat} {raw value : Value}
    (h : (validator.run budget raw).outcome = .ok value) : validator.Conforms value := by
  induction validator generalizing budget raw value with
  | primitive kind => exact (Kind.coerce_eq_ok.1 (run_primitive_eq_ok.1 h)).describes
  | record fields extra ihField ihExtra =>
    obtain ⟨input, declared, kept, rfl, hdeclared, hkept, rfl⟩ := run_record_eq_ok.1 h
    refine ⟨_, rfl, (Field.allConform_iff _ _).2 ?_, ?_⟩
    · intro field hfield
      rw [Field.get?_result hfields.here hdeclared hkept hfield]
      obtain ⟨_, result, -, ⟨left, -, hrun⟩, hlookup⟩ | ⟨-, hoptional, hlookup⟩ :=
        Field.lookup_of_run hfields.here hdeclared hfield
      · rw [hlookup]
        exact ihField field hfield (hfields.field hfield) hrun
      · rw [hlookup]
        exact hoptional
    · apply Extra.conforms_of_run hdeclared hkept
      rintro validator rfl left value result hrun
      exact ihExtra validator rfl hfields.extra hrun
  | subtype base constraints ih =>
    obtain ⟨hbase, hall⟩ := run_subtype_eq_ok.1 h
    exact ⟨ih hfields.base hbase, hall⟩
  | array element ih =>
    obtain ⟨items, results, rfl, hitems, rfl⟩ := run_array_eq_ok.1 h
    have hconform : ∀ result ∈ results, element.Conforms result := by
      intro result hresult
      obtain ⟨item, -, left, -, hrun⟩ := Run.exists_left_of_forall₂ hitems hresult
      exact ih hfields.element hrun
    exact ⟨results, rfl, hconform⟩
  | choice alternatives ih =>
    obtain ⟨first, hfirst, hrun⟩ := (run_choice_eq_ok.1 h).exists_mem
    have hconforms : first.Conforms value := ih first hfirst (hfields.alternative hfirst) hrun
    exact (anyConforms_iff alternatives value).2 ⟨first, hfirst, hconforms⟩

/-- **Soundness.** What a validator accepts conforms to it. -/
theorem Validator.conforms_of_validateWith {validator : Validator}
    (hfields : validator.Everywhere HasDistinctFields) {config : Config} {root : String}
    {raw value : Value} (h : validator.validateWith config root raw = .ok value) :
    validator.Conforms value :=
  conforms_of_run hfields (validateWith_eq_ok.1 h)

/-- A service listens on a port that is not reserved, and may have names. -/
def Validator.service : Validator :=
  let unreserved := Predicate.constraint "reserved" (.integer .gt 1023)
  record
    [⟨"port", subtype (primitive .integer) [unreserved], false⟩,
      ⟨"names", array (primitive .string), true⟩]
    .ignored

theorem Validator.conforms_of_validateWith_service :
    service.validateWith ⟨2, .summary⟩ ""
        (.mapping ⟨[("names", .sequence [.string "a"]), ("port", .string "8080"), ("id", .null)]⟩) =
      .ok (.mapping ⟨[("port", .integer 8080), ("names", .sequence [.string "a"])]⟩) ∧
    service.Conforms
      (.mapping ⟨[("port", .integer 8080), ("names", .sequence [.string "a"])]⟩) := by
  have hfields : service.Everywhere HasDistinctFields := by
    simp [service, Everywhere, Field.Everywhere, Extra.Everywhere, HasDistinctFields]
  have haccepts : service.validateWith ⟨2, .summary⟩ ""
      (.mapping ⟨[("names", .sequence [.string "a"]), ("port", .string "8080"), ("id", .null)]⟩) =
    .ok (.mapping ⟨[("port", .integer 8080), ("names", .sequence [.string "a"])]⟩) := rfl
  exact ⟨haccepts, conforms_of_validateWith hfields haccepts⟩

end Conform
