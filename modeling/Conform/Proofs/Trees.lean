import Conform.Validation
import Mathlib.Tactic.Lemma

/-!
# Validators as trees

A validator is a tree whose nodes hold lists of smaller validators, so plain induction has no
hypotheses for them.  `Validator.induction` has: in each case one may assume the statement for every
validator directly below.  Conditions that a whole tree must meet are one rule that holds at every
node (`Validator.Everywhere`).
-/

namespace Conform

/-! ## Induction -/

/-- To prove a statement of every validator, prove it of each shape from what holds of the
validators directly below. -/
@[elab_as_elim, induction_eliminator]
theorem Validator.induction {motive : Validator → Prop}
    (primitive : ∀ kind, motive (.primitive kind))
    (record : ∀ fields extra, (∀ field ∈ fields, motive field.validator) →
      (∀ validator, extra = .typed validator → motive validator) → motive (.record fields extra))
    (subtype : ∀ base constraints, motive base → motive (.subtype base constraints))
    (array : ∀ element, motive element → motive (.array element))
    (choice : ∀ alternatives, (∀ first ∈ alternatives, motive first) →
      motive (.choice alternatives)) :
    ∀ validator, motive validator :=
  -- The recursor asks for one motive for each type it goes through: validators, fields, extras,
  -- lists of fields and lists of validators.
  @Validator.rec motive (fun field => motive field.validator)
    (fun extra => ∀ validator, extra = .typed validator → motive validator)
    (fun fields => ∀ field ∈ fields, motive field.validator)
    (fun alternatives => ∀ first ∈ alternatives, motive first)
    primitive record subtype array choice
    (fun _ _ _ ih => ih)
    (fun _ h => by cases h)
    (fun _ h => by cases h)
    (fun _ ih _ h => by cases h; exact ih)
    (fun _ h => by cases h)
    (fun _ _ ihHead ihTail => List.forall_mem_cons.2 ⟨ihHead, ihTail⟩)
    (fun _ h => by cases h)
    (fun _ _ ihHead ihTail => List.forall_mem_cons.2 ⟨ihHead, ihTail⟩)

/-! ## Rules for every node -/

mutual

/-- A rule holds of a validator and of every validator inside it. -/
def Validator.Everywhere (rule : Validator → Prop) : Validator → Prop
  | .primitive kind => rule (.primitive kind)
  | .record fields extra =>
    rule (.record fields extra) ∧ Field.Everywhere rule fields ∧ extra.Everywhere rule
  | .subtype base constraints => rule (.subtype base constraints) ∧ base.Everywhere rule
  | .array element => rule (.array element) ∧ element.Everywhere rule
  | .choice alternatives =>
    rule (.choice alternatives) ∧ Validator.AllEverywhere rule alternatives

/-- A rule holds everywhere in the validators of fields. -/
def Field.Everywhere (rule : Validator → Prop) : List Field → Prop
  | [] => True
  | ⟨_, validator, _⟩ :: fields => validator.Everywhere rule ∧ Field.Everywhere rule fields

/-- A rule holds everywhere in the validator of extras, if there is one. -/
def Extra.Everywhere (rule : Validator → Prop) : Extra → Prop
  | .closed => True
  | .ignored => True
  | .typed validator => validator.Everywhere rule

/-- A rule holds everywhere in all of some validators. -/
def Validator.AllEverywhere (rule : Validator → Prop) : List Validator → Prop
  | [] => True
  | validator :: others => validator.Everywhere rule ∧ Validator.AllEverywhere rule others

end

lemma Field.everywhere_iff (rule : Validator → Prop) (fields : List Field) :
    Field.Everywhere rule fields ↔ ∀ field ∈ fields, field.validator.Everywhere rule := by
  induction fields with
  | nil => simp [Field.Everywhere]
  | cons field fields ih =>
    obtain ⟨name, validator, optional⟩ := field
    simp [Field.Everywhere, ih]

lemma Validator.allEverywhere_iff (rule : Validator → Prop) (validators : List Validator) :
    Validator.AllEverywhere rule validators ↔
      ∀ validator ∈ validators, validator.Everywhere rule := by
  induction validators with
  | nil => simp [Validator.AllEverywhere]
  | cons validator others ih => simp [Validator.AllEverywhere, ih]

namespace Validator

/-- The fields of a record have distinct names. -/
def HasDistinctFields : Validator → Prop
  | record fields _ => (fields.map Field.name).Nodup
  | _ => True

/-- The alternatives of a choice are scalar kinds. -/
def ChoosesScalars : Validator → Prop
  | choice alternatives => ∀ first ∈ alternatives, ∃ kind, first = primitive kind
  | _ => True

/-- Records that drop repeated names have distinct ones. -/
lemma hasDistinctFields_schema (fields : List Field) (extra : Extra) :
    (schema fields extra).HasDistinctFields := by
  show ((Field.firsts fields).map Field.name).Nodup
  induction fields with
  | nil => exact List.nodup_nil
  | cons field fields ih =>
    rw [Field.firsts, List.map_cons, List.nodup_cons]
    constructor
    · intro hmem
      obtain ⟨other, hother, heq⟩ := List.mem_map.1 hmem
      have hne := (List.mem_filter.1 hother).2
      simp [heq] at hne
    · exact ih.sublist (List.filter_sublist.map Field.name)

/-- Names of which none is repeated are distinct, and new. -/
lemma nodup_of_repeatsAfter_eq_nil {seen : List String} {fields : List Field}
    (h : Field.repeatsAfter seen fields = []) :
    (fields.map Field.name).Nodup ∧ ∀ field ∈ fields, field.name ∉ seen := by
  induction fields generalizing seen with
  | nil => simp
  | cons field fields ih =>
    rw [Field.repeatsAfter] at h
    by_cases hseen : field.name ∈ seen
    · rw [if_pos hseen] at h
      cases h
    · rw [if_neg hseen] at h
      obtain ⟨hnames, hfresh⟩ := ih h
      rw [List.map_cons, List.nodup_cons]
      refine ⟨⟨?_, hnames⟩, List.forall_mem_cons.2 ⟨hseen, ?_⟩⟩
      · intro hmem
        obtain ⟨other, hother, heq⟩ := List.mem_map.1 hmem
        exact hfresh other hother (List.mem_cons.2 (.inl heq))
      · intro other hother hmem
        exact hfresh other hother (List.mem_cons_of_mem field.name hmem)

section Everywhere

variable {rule : Validator → Prop}

lemma Everywhere.here {validator : Validator} (h : validator.Everywhere rule) :
    rule validator := by
  cases validator with
  | primitive kind => exact h
  | record fields extra => exact h.1
  | subtype base constraints => exact h.1
  | array element => exact h.1
  | choice alternatives => exact h.1

lemma Everywhere.field {fields : List Field} {extra : Extra}
    (h : (record fields extra).Everywhere rule) {field : Field} (hfield : field ∈ fields) :
    field.validator.Everywhere rule :=
  (Field.everywhere_iff rule fields).1 h.2.1 field hfield

lemma Everywhere.extra {fields : List Field} {validator : Validator}
    (h : (record fields (.typed validator)).Everywhere rule) : validator.Everywhere rule :=
  h.2.2

lemma Everywhere.base {base : Validator} {constraints : List Constraint}
    (h : (subtype base constraints).Everywhere rule) : base.Everywhere rule :=
  h.2

lemma Everywhere.element {element : Validator} (h : (array element).Everywhere rule) :
    element.Everywhere rule :=
  h.2

lemma Everywhere.alternative {alternatives : List Validator}
    (h : (choice alternatives).Everywhere rule) {first : Validator}
    (hfirst : first ∈ alternatives) :
    first.Everywhere rule :=
  (allEverywhere_iff rule alternatives).1 h.2 first hfirst

end Everywhere

end Validator

end Conform
