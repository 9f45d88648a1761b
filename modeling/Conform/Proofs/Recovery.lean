import Conform.Proofs.Coercion
import Conform.Proofs.Parts
import Conform.Proofs.Records
import Conform.Proofs.Trees

/-!
# Results that are recovered from a form of them

What a validator made of a value may come back to it in another form: unchanged, or the way it
looks after a journey through a format that lacks some of its sorts.  The validator recovers its
result from the form when its scalar kinds do (`Recovery.recovers`).  Two conditions are needed.
The names of a record must be distinct, because a repeated name leaves what its last field made of
the value, and the first one meets that the second time.  The alternatives of a choice must be
scalar kinds, because another alternative may refuse a value and then make something else of what a
later one has made of it.
-/

namespace Conform

open Run

/-- The scalar kinds recover what they made of raw values from a form of it.  The form of a
container is the container of the forms of its parts. -/
structure Recovery (form : Value → Value) (Raw : Value → Prop) : Prop where
  sequence (items : List Value) : form (.sequence items) = .sequence (items.map form)
  mapping (entries : List (String × Value)) :
    form (.mapping ⟨entries⟩) = .mapping ⟨entries.map fun entry => (entry.1, form entry.2)⟩
  part {raw part : Value} {segment : Segment} : Raw raw → raw.HasPart segment part → Raw part
  coerce {kind : Kind} {raw value : Value} :
    Raw raw → kind.Coerces raw value → kind.coerce (form value) = .ok value
  /-- A kind that refused the raw value makes nothing else of the form than the result. -/
  refused {kind other : Kind} {raw value taken : Value} {misfit : Misfit} :
    Raw raw → kind.Coerces raw value → other.coerce raw = .error misfit →
      other.Coerces (form value) taken → taken = value

variable {form : Value → Value} {Raw : Value → Prop}

namespace Validator

/-- With the same budget a validator comes to its result again from the form of it. -/
def Recovers (form : Value → Value) (Raw : Value → Prop) (validator : Validator) : Prop :=
  ∀ (budget : Nat) (raw value : Value), Raw raw → (validator.run budget raw).outcome = .ok value →
    (validator.run budget (form value)).outcome = .ok value

lemma Recovers.yields {validator : Validator} (h : validator.Recovers form Raw) {budget : Nat}
    {raw value : Value} (hraw : Raw raw) (hyields : Yields validator.run budget raw value) :
    Yields validator.run budget (form value) value := by
  obtain ⟨left, rfl, hrun⟩ := hyields
  exact ⟨left, rfl, h left raw value hraw hrun⟩

/-! ## Choices -/

lemma refuses_primitive_iff {kind : Kind} {budget : Nat} {raw : Value} :
    (primitive kind).Refuses budget raw ↔ ∃ misfit, kind.coerce raw = .error misfit := by
  rw [Refuses, outcome_run_primitive]
  constructor
  · rintro ⟨failure, hfails, -⟩
    obtain ⟨misfit, hrefused, -⟩ := Kind.run_eq_error.1 hfails
    exact ⟨misfit, hrefused⟩
  · rintro ⟨misfit, hrefused⟩
    exact ⟨_, Kind.run_eq_error.2 ⟨misfit, hrefused, rfl⟩, misfit.isDepth_fault kind⟩

/-- Every alternative before the chosen one refuses the form of the result or recovers it. -/
lemma Chooses.recovered (h : Recovery form Raw) {alternatives : List Validator}
    (hscalars : ∀ first ∈ alternatives, ∃ kind, first = primitive kind) {budget : Nat}
    {raw value : Value} (hraw : Raw raw) (hchosen : Chooses budget raw value alternatives) :
    Chooses budget (form value) value alternatives := by
  induction hchosen with
  | @here first others hfirst =>
    obtain ⟨kind, rfl⟩ := hscalars first (by simp)
    rw [run_primitive_eq_ok] at hfirst
    exact .here (run_primitive_eq_ok.2 (h.coerce hraw (Kind.coerce_eq_ok.1 hfirst)))
  | @later first others hrefuses hothers ih =>
    have hrest : ∀ other ∈ others, ∃ kind, other = primitive kind := by
      intro other hother
      exact hscalars other (List.mem_cons_of_mem first hother)
    obtain ⟨kind, rfl⟩ := hscalars first (by simp)
    obtain ⟨misfit, hrefused⟩ := refuses_primitive_iff.1 hrefuses
    obtain ⟨chosen, hchosen, hrun⟩ := hothers.exists_mem
    obtain ⟨other, rfl⟩ := hrest chosen hchosen
    have hcoerces : other.Coerces raw value := Kind.coerce_eq_ok.1 (run_primitive_eq_ok.1 hrun)
    cases htakes : kind.coerce (form value) with
    | ok taken =>
      have hsame : taken = value := h.refused hraw hcoerces hrefused (Kind.coerce_eq_ok.1 htakes)
      rw [hsame] at htakes
      exact .here (run_primitive_eq_ok.2 htakes)
    | error again => exact .later (refuses_primitive_iff.2 ⟨again, htakes⟩) (ih hrest)

end Validator

/-! ## Records -/

/-- Fields come to the same entries on a mapping in which their names read the forms of these. -/
lemma Field.run_recovered {fields : List Field} (hnames : (fields.map Field.name).Nodup)
    (hrecovers : ∀ field ∈ fields, field.validator.Recovers form Raw) {budget : Nat}
    {input output : Map Value} (hraw : ∀ entry ∈ input.entries, Raw entry.2)
    {declared : List (String × Value)} (h : (Field.run fields budget input).outcome = .ok declared)
    (hget : ∀ field ∈ fields,
      output.get? field.name = (Map.lookup field.name declared).map form) :
    (Field.run fields budget output).outcome = .ok declared := by
  induction fields generalizing declared with
  | nil => exact h
  | cons head fields ih =>
    rw [List.map_cons, List.nodup_cons] at hnames
    obtain ⟨hfresh, hnames⟩ := hnames
    obtain ⟨hhead, htail⟩ := List.forall_mem_cons.1 hrecovers
    obtain ⟨hgetHead, hgetTail⟩ := List.forall_mem_cons.1 hget
    obtain ⟨value, first, others, hvalue, hfirst, hothers, rfl⟩ | ⟨-, hoptional, hothers⟩ :=
      run_cons_eq_ok.1 h
    · refine run_cons_eq_ok.2 (.inl ⟨form first, first, others, ?_, ?_, ?_, rfl⟩)
      · rw [hgetHead]
        simp [Map.lookup]
      · exact hhead.yields (hraw _ (Map.mem_of_lookup hvalue)) hfirst
      · apply ih hnames htail hothers
        intro field hfield
        have hne : head.name ≠ field.name := by
          intro heq
          rw [heq] at hfresh
          exact hfresh (List.mem_map_of_mem hfield)
        rw [hgetTail field hfield]
        simp [Map.lookup, hne]
    · have habsent : head.name ∉ declared.map Prod.fst := by
        intro hmem
        exact hfresh ((mem_names_of_run hothers).subset hmem)
      refine run_cons_eq_ok.2 (.inr ⟨?_, hoptional, ?_⟩)
      · rw [hgetHead, Map.lookup_eq_none habsent, Option.map_none]
      · exact ih hnames htail hothers hgetTail

/-- Extras that are kept once are kept again, as the mapping has them. -/
lemma Extra.run_recovered {extra : Extra}
    (hrecovers : ∀ validator, extra = .typed validator → validator.Recovers form Raw)
    {fields : List Field} {budget : Nat} {input : Map Value}
    (hraw : ∀ entry ∈ input.entries, Raw entry.2) {kept : List (String × Value)}
    (h : (extra.run budget (Field.undeclared fields input)).outcome = .ok kept) :
    (extra.run budget
      ((Map.ofList kept).entries.map fun entry => (entry.1, form entry.2))).outcome =
        .ok (Map.ofList kept).entries := by
  rw [Extra.run_eq_ok]
  cases extra with
  | closed =>
    obtain ⟨-, rfl⟩ := Extra.run_eq_ok.1 h
    exact ⟨rfl, rfl⟩
  | ignored =>
    obtain rfl : kept = [] := Extra.run_eq_ok.1 h
    rfl
  | typed validator =>
    refine List.forall₂_map_left_iff.2 (List.forall₂_same.2 ?_)
    intro entry hentry
    obtain ⟨-, _, value, heq, hvalue, hyields⟩ :=
      exists_of_mem_kept h (Map.mem_of_mem_ofList hentry)
    cases heq
    exact ⟨rfl, (hrecovers validator rfl).yields (hraw _ hvalue) hyields⟩

lemma Field.undeclared_map (fields : List Field) (f : Value → Value)
    (entries : List (String × Value)) :
    Field.undeclared fields ⟨entries.map fun entry => (entry.1, f entry.2)⟩ =
      (Field.undeclared fields ⟨entries⟩).map fun entry => (entry.1, f entry.2) := by
  rw [Field.undeclared, Field.undeclared, List.filter_map]
  rfl

/-! ## All validators -/

namespace Validator

/-- A record recovers its result when its fields and extras do. -/
lemma recovers_record (h : Recovery form Raw) {fields : List Field} {extra : Extra}
    (hnames : (fields.map Field.name).Nodup)
    (hfields : ∀ field ∈ fields, field.validator.Recovers form Raw)
    (hextra : ∀ validator, extra = .typed validator → validator.Recovers form Raw) :
    (record fields extra).Recovers form Raw := by
  intro budget raw value hraw hrun
  obtain ⟨input, declared, kept, rfl, hdeclared, hkept, rfl⟩ := run_record_eq_ok.1 hrun
  have hparts : ∀ entry ∈ input.entries, Raw entry.2 := fun entry hentry =>
    h.part hraw (.entry hentry)
  have hentries := Field.entries_result hnames hdeclared hkept
  set output : Map Value := .ofList (declared ++ kept) with houtput
  let returned : Map Value := ⟨output.entries.map fun entry => (entry.1, form entry.2)⟩
  have hagain : (Field.run fields budget returned).outcome = .ok declared := by
    apply Field.run_recovered hnames hfields hparts hdeclared
    intro field hfield
    rw [← Field.get?_result hnames hdeclared hkept hfield]
    exact Map.lookup_map form field.name output.entries
  have hextras : (extra.run budget (Field.undeclared fields returned)).outcome =
      .ok (Map.ofList kept).entries := by
    have hundeclared := Field.undeclared_result hnames hdeclared hkept
    rw [Field.undeclared_map, hundeclared]
    exact Extra.run_recovered hextra hparts hkept
  have hsame : output = .ofList (declared ++ (Map.ofList kept).entries) := by
    rw [← hentries]
    exact (Map.ofList_of_nodup (Map.nodup_keys_ofList (declared ++ kept))).symm
  rw [show output = ⟨output.entries⟩ from rfl, h.mapping]
  exact run_record_eq_ok.2 ⟨returned, declared, _, rfl, hagain, hextras, congrArg _ hsame⟩

end Validator

/-- **Recovery.** A validator recovers from the form of a result what its scalar kinds do. -/
theorem Recovery.recovers (h : Recovery form Raw) {validator : Validator}
    (hfields : validator.Everywhere Validator.HasDistinctFields)
    (hchoices : validator.Everywhere Validator.ChoosesScalars) :
    validator.Recovers form Raw := by
  induction validator with
  | primitive kind =>
    intro budget raw value hraw hrun
    rw [Validator.run_primitive_eq_ok] at hrun ⊢
    exact h.coerce hraw (Kind.coerce_eq_ok.1 hrun)
  | record fields extra ihFields ihExtra =>
    apply Validator.recovers_record h hfields.here
    · intro field hfield
      exact ihFields field hfield (hfields.field hfield) (hchoices.field hfield)
    · rintro validator rfl
      exact ihExtra validator rfl hfields.extra hchoices.extra
  | subtype base constraints ih =>
    intro budget raw value hraw hrun
    obtain ⟨hbase, hall⟩ := Validator.run_subtype_eq_ok.1 hrun
    have hagain := ih hfields.base hchoices.base budget raw value hraw hbase
    exact Validator.run_subtype_eq_ok.2 ⟨hagain, hall⟩
  | array element ih =>
    intro budget raw value hraw hrun
    obtain ⟨items, results, rfl, hitems, rfl⟩ := Validator.run_array_eq_ok.1 hrun
    have hagain : List.Forall₂ (Yields element.run budget) (results.map form) results := by
      refine List.forall₂_map_left_iff.2 (List.forall₂_same.2 ?_)
      intro result hresult
      obtain ⟨item, hitem, hyields⟩ := exists_left_of_forall₂ hitems hresult
      obtain ⟨index, hpart⟩ := Value.exists_hasPart hitem
      exact (ih hfields.element hchoices.element).yields (h.part hraw hpart) hyields
    rw [h.sequence]
    exact Validator.run_array_eq_ok.2 ⟨_, results, rfl, hagain, rfl⟩
  | choice alternatives =>
    intro budget raw value hraw hrun
    rw [Validator.run_choice_eq_ok] at hrun ⊢
    exact hrun.recovered h hchoices.here hraw

end Conform
