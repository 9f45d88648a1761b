import Conform.Predicate
import Conform.Proofs.Depth
import Conform.Proofs.Idempotence

/-!
# What was accepted, put to its validator again

A value that a validator came to need not be accepted by the same validator once more
(`Validator.not_accepted_again`).  The cause is always a choice.  An alternative that refused the
raw value may take over what a later one made of it, and two things may come of that: it makes
something else of the value, which a constraint around the choice does not let pass; or it goes
further down into the value than the limit allows, and running out of depth ends a choice.

`Validator.accepted_again` says that nothing else can happen.  What was accepted has the right tags,
lacks no required field and has no key too many, so a run on it can fail only for a constraint, for
a choice all of whose alternatives have failed so, or for depth.  A constraint can be the reason
only where it does not carry over from what its base made of a value to what the base makes of that
(`Validator.KeepsConstraints`); depth can be the reason only when the limit lies below the heights
of the value and of the validator.
-/

namespace Conform

open Run

namespace Validator

/-- If the constraints of a subtype hold of what its base made of a value, they hold of what the
base makes of the result. -/
def KeepsConstraints : Validator → Prop
  | subtype base constraints => ∀ (budget : Nat) (raw value again : Value),
    (base.run budget raw).outcome = .ok value → (base.run budget value).outcome = .ok again →
      (∀ constraint ∈ constraints, constraint.holds value = true) →
        ∀ constraint ∈ constraints, constraint.holds again = true
  | _ => True

/-- A base that leaves its results as they are leaves them to the same verdicts. -/
lemma Settles.keepsConstraints {base : Validator} (h : base.Settles)
    (constraints : List Constraint) : (subtype base constraints).KeepsConstraints := by
  intro budget raw value again hfirst hsecond hholds
  have hsame : again = value := by
    rw [h budget raw value hfirst] at hsecond
    exact (Except.ok.inj hsecond).symm
  rw [hsame]
  exact hholds

/-! ## Faults of a second run -/

/-- A fault that a validator may find in what it has accepted. -/
def Lapses (validator : Validator) (fault : Fault) : Prop :=
  fault.isDepth = true ∨
    ((fault.kind = .constraint ∨ fault.kind = .unionExhausted) ∧
      ¬validator.Everywhere KeepsConstraints)

lemma Lapses.of_part {whole part : Validator} {fault : Fault} (h : part.Lapses fault)
    (hpart : whole.Everywhere KeepsConstraints → part.Everywhere KeepsConstraints) :
    whole.Lapses fault := by
  refine h.imp_right ?_
  rintro ⟨hkind, hbroken⟩
  exact ⟨hkind, fun hwhole => hbroken (hpart hwhole)⟩

/-- Whatever a validator finds in what it has accepted is one of the faults that it may find. -/
def OnlyLapses (validator : Validator) : Prop :=
  ∀ (budget : Nat) (raw value : Value) (failure : Failure),
    (validator.run budget raw).outcome = .ok value →
      (validator.run budget value).outcome = .error failure → validator.Lapses failure.fault

/-- What a part has come to is put to its validator one step down again. -/
lemma OnlyLapses.of_descend {validator : Validator} (h : validator.OnlyLapses)
    {segment : Segment} {budget : Nat} {part result : Value} {failure : Failure}
    (hyields : Yields validator.run budget part result)
    (hfails : (descend segment budget fun left => validator.run left result).outcome =
      .error failure) : validator.Lapses failure.fault := by
  obtain ⟨left, rfl, hrun⟩ := hyields
  obtain ⟨hzero, -⟩ | ⟨rest, inner, hrest, hinner, rfl⟩ := descend_eq_error.1 hfails
  · cases hzero
  · obtain rfl := Nat.succ.inj hrest
    exact h left part result inner hrun hinner

section Record

variable {fields : List Field} {extra : Extra} {budget : Nat} {input : Map Value}
  {declared kept : List (String × Value)} (hnames : (fields.map Field.name).Nodup)
  (hdeclared : (Field.run fields budget input).outcome = .ok declared)
  (hkept : (extra.run budget (Field.undeclared fields input)).outcome = .ok kept)

include hnames hdeclared hkept

/-- On its result a record lapses where a field does: none that is required is absent. -/
lemma lapses_of_fields_again (hfields : ∀ field ∈ fields, field.validator.OnlyLapses)
    {failure : Failure}
    (h : (Field.run fields budget (.ofList (declared ++ kept))).outcome = .error failure) :
    (record fields extra).Lapses failure.fault := by
  obtain ⟨field, hfield, hcase⟩ := Field.exists_of_run_error h
  have hget := Field.get?_result hnames hdeclared hkept hfield
  have hfirst := Field.lookup_of_run hnames hdeclared hfield
  rcases hcase with ⟨value, hvalue, hfails⟩ | ⟨habsent, hrequired, -⟩
  · obtain ⟨part, result, -, hyields, hlookup⟩ | ⟨-, -, hlookup⟩ := hfirst
    · have hsame : result = value := by
        rw [hget, hlookup] at hvalue
        exact Option.some.inj hvalue
      rw [← hsame] at hfails
      exact ((hfields field hfield).of_descend hyields hfails).of_part fun h => h.field hfield
    · rw [hget, hlookup] at hvalue
      cases hvalue
  · obtain ⟨part, result, -, -, hlookup⟩ | ⟨-, hoptional, -⟩ := hfirst
    · rw [hget, hlookup] at habsent
      cases habsent
    · rw [hoptional] at hrequired
      cases hrequired

/-- On its result a record lapses where an extra does: none is there that is not typed. -/
lemma lapses_of_extra_again
    (hextra : ∀ validator, extra = .typed validator → validator.OnlyLapses) {failure : Failure}
    (h : (extra.run budget (Field.undeclared fields (.ofList (declared ++ kept)))).outcome =
      .error failure) : (record fields extra).Lapses failure.fault := by
  rw [Field.undeclared_result hnames hdeclared hkept] at h
  obtain ⟨rfl, hundeclared, -⟩ | ⟨validator, rfl, entry, hentry, hfails⟩ :=
    Extra.exists_of_run_error h
  · obtain ⟨-, rfl⟩ := Extra.run_eq_ok.1 hkept
    exact absurd rfl hundeclared
  · obtain ⟨-, _, part, heq, -, hyields⟩ :=
      Extra.exists_of_mem_kept hkept (Map.mem_of_mem_ofList hentry)
    cases heq
    exact ((hextra validator rfl).of_descend hyields hfails).of_part fun h => h.extra

end Record

/-- The alternative that was chosen does not refuse its result, unless it lapses. -/
lemma lapses_of_choice_again {alternatives : List Validator}
    (halternatives : ∀ first ∈ alternatives, first.OnlyLapses) {budget : Nat} {raw value : Value}
    (hchosen : Chooses budget raw value alternatives) {failure : Failure}
    (h : (firstOf alternatives [] budget value).outcome = .error failure) :
    (choice alternatives).Lapses failure.fault := by
  obtain ⟨-, -, -, hdepth⟩ | ⟨refusals, rfl, hrefusals, rfl⟩ := exists_of_firstOf_error h
  · exact .inl hdepth
  · obtain ⟨first, hfirst, hrun⟩ := hchosen.exists_mem
    obtain ⟨⟨_, refusal⟩, hmem, rfl⟩ := List.mem_map.1 hfirst
    obtain ⟨hagain, hshallow⟩ := hrefusals _ hmem
    obtain hdepth | ⟨-, hbroken⟩ := halternatives _ hfirst budget raw value refusal hrun hagain
    · rw [hshallow] at hdepth
      cases hdepth
    · exact .inr ⟨.inr rfl, fun hwhole => hbroken (hwhole.alternative hfirst)⟩

/-! ## All validators -/

lemma onlyLapses {validator : Validator} (hfields : validator.Everywhere HasDistinctFields) :
    validator.OnlyLapses := by
  induction validator with
  | primitive kind =>
    intro budget raw value failure hrun hagain
    rw [run_primitive_eq_ok] at hrun
    rw [run_primitive_eq_ok.2 (Kind.coerce_idempotent hrun)] at hagain
    cases hagain
  | record fields extra ihFields ihExtra =>
    intro budget raw value failure hrun hagain
    obtain ⟨input, declared, kept, rfl, hdeclared, hkept, rfl⟩ := run_record_eq_ok.1 hrun
    rw [outcome_run_record, bind_eq_error] at hagain
    obtain hagain | ⟨declared', -, hrest⟩ := hagain
    · apply lapses_of_fields_again hfields.here hdeclared hkept _ hagain
      intro field hfield
      exact ihFields field hfield (hfields.field hfield)
    · obtain hagain | ⟨kept', -, hpure⟩ := bind_eq_error.1 hrest
      · apply lapses_of_extra_again hfields.here hdeclared hkept _ hagain
        rintro validator rfl
        exact ihExtra validator rfl hfields.extra
      · cases hpure
  | subtype base constraints ih =>
    intro budget raw value failure hrun hagain
    obtain ⟨hbase, hholds⟩ := run_subtype_eq_ok.1 hrun
    rw [outcome_run_subtype, bind_eq_error] at hagain
    obtain hagain | ⟨again, hagain, hgate⟩ := hagain
    · exact (ih hfields.base budget raw value failure hbase hagain).of_part fun h => h.base
    · obtain ⟨broken, hbroken, hfails, rfl⟩ := Constraint.exists_of_gate_error hgate
      refine .inr ⟨.inl rfl, fun hkeeps => ?_⟩
      have hstill := hkeeps.here budget raw value again hbase hagain hholds broken hbroken
      rw [hfails] at hstill
      cases hstill
  | array element ih =>
    intro budget raw value failure hrun hagain
    obtain ⟨items, results, rfl, hitems, rfl⟩ := run_array_eq_ok.1 hrun
    rw [outcome_run_array, bind_eq_error] at hagain
    obtain hagain | ⟨_, -, hpure⟩ := hagain
    · obtain ⟨index, result, hresult, hfails⟩ := exists_of_items_error hagain
      obtain ⟨item, -, hyields⟩ := exists_left_of_forall₂ hitems (List.mem_of_getElem? hresult)
      exact ((ih hfields.element).of_descend hyields hfails).of_part fun h => h.element
    · cases hpure
  | choice alternatives ih =>
    intro budget raw value failure hrun hagain
    apply lapses_of_choice_again _ (run_choice_eq_ok.1 hrun) hagain
    intro first hfirst
    exact ih first hfirst (hfields.alternative hfirst)

/-- **Acceptance.** What a validator accepted it accepts again, unless it fails for depth, with a
limit that is too low for the value and for the validator, or for a constraint that does not carry
over to what its base makes of its own result. -/
theorem accepted_again {validator : Validator} (hfields : validator.Everywhere HasDistinctFields)
    {config : Config} {root : String} {raw value : Value}
    (h : validator.validateWith config root raw = .ok value) :
    (∃ again, validator.validateWith config root value = .ok again) ∨
      ∃ error, validator.validateWith config root value = .error error ∧
        ((error.kind = .depthExceeded ∧ config.maxDepth < value.height ∧
            config.maxDepth < validator.height) ∨
          ((error.kind = .constraint ∨ error.kind = .unionExhausted) ∧
            ¬validator.Everywhere KeepsConstraints)) := by
  cases hagain : validator.validateWith config root value with
  | ok again => exact .inl ⟨again, rfl⟩
  | error error =>
    refine .inr ⟨error, rfl, ?_⟩
    obtain ⟨failure, houtcome, rfl⟩ := validateWith_eq_error.1 hagain
    rw [Failure.kind_report]
    obtain hdepth | hbroken :=
      onlyLapses hfields config.maxDepth raw value failure (validateWith_eq_ok.1 h) houtcome
    · have hlimit : config.maxDepth < min validator.height value.height := by
        by_contra hle
        exact (run_bounded validator value).within _ (not_lt.1 hle) ⟨failure, houtcome, hdepth⟩
      exact .inl ⟨failure.fault.isDepth_iff.1 hdepth, by omega, by omega⟩
    · exact .inr hbroken

/-- A tally is an amount alone, as a float, or an amount with what it is of, as an integer; and the
amount must be an integer. -/
def tally : Validator :=
  subtype
    (choice [schema [⟨"amount", primitive .float, false⟩] .closed,
      schema [⟨"amount", primitive .integer, false⟩] .ignored])
    [Predicate.constraint "not whole" (.get "amount" (.typeName "integer"))]

/-- A table has rows of cells and perhaps a number, or rows of any sort. -/
def table : Validator :=
  choice [schema [⟨"number", primitive .integer, true⟩,
      ⟨"rows", array (array (primitive .any)), false⟩] .closed,
    schema [⟨"rows", primitive .any, false⟩] .ignored]

/-- What was accepted may be refused: for a constraint, or for depth. -/
theorem not_accepted_again :
    tally.Everywhere HasDistinctFields ∧ table.Everywhere HasDistinctFields ∧
    tally.validateWith {} ""
        (.mapping ⟨[("amount", .integer 7), ("of", .string "apples")]⟩) =
      .ok (.mapping ⟨[("amount", .integer 7)]⟩) ∧
    tally.validateWith {} "" (.mapping ⟨[("amount", .integer 7)]⟩) =
      .error (.constraint "" "not whole") ∧
    table.validateWith ⟨2, .detailed⟩ ""
        (.mapping ⟨[("number", .string "one"), ("rows", .sequence [.sequence [.null]])]⟩) =
      .ok (.mapping ⟨[("rows", .sequence [.sequence [.null]])]⟩) ∧
    table.validateWith ⟨2, .detailed⟩ ""
        (.mapping ⟨[("rows", .sequence [.sequence [.null]])]⟩) =
      .error (.depthExceeded ".rows[0][0]" 2) := by
  refine ⟨?_, ?_, rfl, rfl, rfl, rfl⟩
  · simp [tally, schema, Field.firsts, Everywhere, Field.Everywhere, Extra.Everywhere,
      AllEverywhere, HasDistinctFields]
  · simp [table, schema, Field.firsts, Everywhere, Field.Everywhere, Extra.Everywhere,
      AllEverywhere, HasDistinctFields]

/-- A reading has an amount that is not negative: as a float when it has nothing else, and as an
integer when it has more, which is left out. -/
def reading : Validator :=
  choice [schema [⟨"amount", primitive .float, false⟩] .closed,
    schema [⟨"amount", subtype (primitive .integer)
      [Predicate.constraint "negative" (.integer .ge 0)], false⟩] .ignored]

/-- The second time a reading is closed and its amount becomes a float. -/
theorem accepted_again_reading :
    reading.validateWith ⟨1, .summary⟩ ""
        (.mapping ⟨[("amount", .string "7"), ("unit", .string "m")]⟩) =
      .ok (.mapping ⟨[("amount", .integer 7)]⟩) ∧
    ∃ again, reading.validateWith ⟨1, .summary⟩ "" (.mapping ⟨[("amount", .integer 7)]⟩) =
      .ok again := by
  have hfields : reading.Everywhere HasDistinctFields := by
    simp [reading, schema, Field.firsts, Everywhere, Field.Everywhere, Extra.Everywhere,
      AllEverywhere, HasDistinctFields]
  have hkeeps : reading.Everywhere KeepsConstraints := by
    have hinteger : (primitive .integer).Settles := settles trivial trivial
    have hamount := hinteger.keepsConstraints [Predicate.constraint "negative" (.integer .ge 0)]
    rw [KeepsConstraints] at hamount
    simpa [reading, schema, Field.firsts, Everywhere, Field.Everywhere, Extra.Everywhere,
      AllEverywhere, KeepsConstraints] using hamount
  have hfirst : reading.validateWith ⟨1, .summary⟩ ""
      (.mapping ⟨[("amount", .string "7"), ("unit", .string "m")]⟩) =
    .ok (.mapping ⟨[("amount", .integer 7)]⟩) := rfl
  refine ⟨hfirst, ?_⟩
  obtain hagain | ⟨_, -, ⟨-, hlow, -⟩ | ⟨-, hbroken⟩⟩ := accepted_again hfields hfirst
  · exact hagain
  · exact absurd hlow (by decide)
  · exact absurd hkeeps hbroken

end Validator

end Conform
