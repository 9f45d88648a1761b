import Conform.Proofs.Stepwise

/-!
# What extras decide

A record deals with its fields first and with its extras afterwards, and what it does with the
fields does not depend on what it will do with the extras.  So records with the same fields fail
alike for as long as they are at their fields, and come to the same entries there; from then on
`ignored` has nothing more to do, `closed` refuses whatever there is, and `typed` adds to the
entries what it makes of each extra.  `Validator.validateWith_policies` puts the three side by side.

The fields of a record read a mapping under their own names only (`Field.run_congr`), so no key that
they do not declare has a say in what they come to.
-/

namespace Conform

open Run

/-! ## Declared entries -/

/-- A mapping without the entries that no field declares. -/
def Field.restrict (fields : List Field) (input : Map Value) : Map Value :=
  ⟨input.entries.filter fun entry => (fields.map Field.name).contains entry.1⟩

lemma Field.get?_restrict {fields : List Field} {key : String} (h : key ∈ fields.map Field.name)
    (input : Map Value) : (Field.restrict fields input).get? key = input.get? key := by
  have hchosen : (fields.map Field.name).contains key = true := List.contains_iff_mem.2 h
  rw [Map.get?, restrict, Map.lookup_filter fun name => (fields.map Field.name).contains name,
    if_pos hchosen, Map.get?]

lemma Field.undeclared_restrict (fields : List Field) (input : Map Value) :
    Field.undeclared fields (Field.restrict fields input) = [] := by
  rw [List.eq_nil_iff_forall_not_mem]
  intro entry hentry
  obtain ⟨hdeclared, hundeclared⟩ := mem_undeclared.1 hentry
  exact hundeclared (List.contains_iff_mem.1 (List.mem_filter.1 hdeclared).2)

lemma Field.keys_undeclared (fields : List Field) (input : Map Value) :
    (Field.undeclared fields input).map Prod.fst =
      input.keys.filter (fun key => key ∉ fields.map Field.name) := by
  rw [Field.undeclared, Map.keys, List.filter_map]
  refine congrArg (List.map Prod.fst) (List.filter_congr fun entry _ => ?_)
  rw [List.contains_eq_mem, ← decide_not]
  rfl

/-- Fields read no more of a mapping than what stands under their names. -/
theorem Field.run_congr {fields : List Field} {input other : Map Value}
    (h : ∀ key ∈ fields.map Field.name, other.get? key = input.get? key) (budget : Nat) :
    Field.run fields budget other = Field.run fields budget input := by
  induction fields with
  | nil => rfl
  | cons field fields ih =>
    obtain ⟨hfield, hfields⟩ := List.forall_mem_cons.1 h
    obtain ⟨name, validator, optional⟩ := field
    rw [Field.run, Field.run, ih hfields]
    rw [show other.get? name = input.get? name from hfield]

/-! ## Fields, then extras -/

/-- Where there are no extras, every policy is content. -/
lemma Extra.run_nil (extra : Extra) (budget : Nat) : (extra.run budget []).outcome = .ok [] := by
  cases extra <;> rfl

namespace Validator

section Policies

variable (fields : List Field) {input : Map Value} (config : Config) (root : String)

/-- A part is accepted if there is a step left to go down to it and it is accepted there. -/
lemma validatePart_eq_ok {validator : Validator} {segment : Segment} {part result : Value} :
    validator.validatePart config root segment part = .ok result ↔
      Yields validator.run config.maxDepth part result := by
  rw [← result_descend, result_eq_ok, descend_eq_ok]
  rfl

lemma validateWith_ignored (input : Map Value) :
    (record fields .ignored).validateWith config root (.mapping input) =
      ((Field.run fields config.maxDepth input).result config root).map
        fun declared => .mapping (.ofList declared) := by
  have hkept : (Extra.ignored.run config.maxDepth (Field.undeclared fields input)).result config
      root = .ok [] := result_eq_ok.2 (Extra.run_eq_ok.2 rfl)
  rw [validateWith_record_bind, hkept]
  cases (Field.run fields config.maxDepth input).result config root with
  | error error => rfl
  | ok declared =>
    show Except.ok (Value.mapping (.ofList (declared ++ []))) = _
    rw [List.append_nil]
    rfl

/-- Without extras all policies come to the same. -/
lemma validateWith_of_undeclared_eq_nil (h : Field.undeclared fields input = [])
    (extra : Extra) :
    (record fields extra).validateWith config root (.mapping input) =
      (record fields .ignored).validateWith config root (.mapping input) := by
  have hkept (extra : Extra) : (extra.run config.maxDepth []).result config root = .ok [] :=
    result_eq_ok.2 (extra.run_nil config.maxDepth)
  rw [validateWith_record_bind, validateWith_record_bind, h, hkept, hkept]

/-- A failure of the fields is one under every policy. -/
lemma validateWith_error_of_ignored {error : ValidationError}
    (h : (record fields .ignored).validateWith config root (.mapping input) = .error error)
    (extra : Extra) :
    (record fields extra).validateWith config root (.mapping input) = .error error := by
  rw [validateWith_ignored] at h
  rw [validateWith_record_bind]
  cases hfields : (Field.run fields config.maxDepth input).result config root with
  | error fault =>
    rw [hfields] at h
    cases h
    rfl
  | ok declared =>
    rw [hfields] at h
    cases h

lemma undeclared_eq_nil_of_closed {value : Value}
    (h : (record fields .closed).validateWith config root (.mapping input) = .ok value) :
    Field.undeclared fields input = [] := by
  obtain ⟨_, declared, kept, heq, -, hkept, -⟩ := run_record_eq_ok.1 (validateWith_eq_ok.1 h)
  cases heq
  exact (Extra.run_eq_ok.1 hkept).1

/-- Under the policy that leaves extras out, a record comes to the same for all mappings that read
the same under the names of its fields. -/
lemma validateWith_ignored_congr {other : Map Value}
    (h : ∀ key ∈ fields.map Field.name, other.get? key = input.get? key) :
    (record fields .ignored).validateWith config root (.mapping other) =
      (record fields .ignored).validateWith config root (.mapping input) := by
  rw [validateWith_ignored, validateWith_ignored, Field.run_congr h]

/-- Leaving extras out is refusing them in the mapping without them. -/
lemma validateWith_closed_restrict (input : Map Value) :
    (record fields .closed).validateWith config root (.mapping (Field.restrict fields input)) =
      (record fields .ignored).validateWith config root (.mapping input) := by
  rw [validateWith_of_undeclared_eq_nil fields config root (Field.undeclared_restrict fields input)]
  exact validateWith_ignored_congr fields config root fun key hkey =>
    Field.get?_restrict hkey input

end Policies

/-! ## Extras that are kept -/

/-- What keeps the extras adds to what leaves them out, one entry for each of them. -/
lemma exists_declared_of_ignored {fields : List Field} (hnames : (fields.map Field.name).Nodup)
    {input : Map Value} (hinput : input.keys.Nodup) {config : Config} {root : String}
    {value : Value}
    (h : (record fields .ignored).validateWith config root (.mapping input) = .ok value) :
    ∃ declared, value = .mapping ⟨declared⟩ ∧
      (declared.map Prod.fst).Sublist (fields.map Field.name) ∧
      ∀ validator result,
        (record fields (.typed validator)).validateWith config root (.mapping input) =
            .ok result ↔
          ∃ kept, result = .mapping ⟨declared ++ kept⟩ ∧
            List.Forall₂ (fun entry pair => pair.1 = entry.1 ∧
                validator.validatePart config root (.key entry.1) entry.2 = .ok pair.2)
              (Field.undeclared fields input) kept := by
  obtain ⟨_, declared, none, heq, hdeclared, hnone, rfl⟩ :=
    run_record_eq_ok.1 (validateWith_eq_ok.1 h)
  cases heq
  obtain rfl : none = [] := Extra.run_eq_ok.1 hnone
  have hvalue := Field.ofList_result hnames hdeclared hnone hinput
  rw [List.append_nil] at hvalue
  rw [List.append_nil, hvalue]
  refine ⟨declared, rfl, Field.mem_names_of_run hdeclared, fun validator result => ?_⟩
  rw [validateWith_eq_ok, run_record_eq_ok]
  simp only [validatePart_eq_ok]
  constructor
  · rintro ⟨_, others, kept, heq, hothers, hkept, rfl⟩
    cases heq
    obtain rfl : others = declared := Except.ok.inj (hothers.symm.trans hdeclared)
    refine ⟨kept, ?_, Extra.run_eq_ok.1 hkept⟩
    rw [Field.ofList_result hnames hdeclared hkept hinput]
  · rintro ⟨kept, rfl, hall⟩
    have hkept : ((Extra.typed validator).run config.maxDepth
        (Field.undeclared fields input)).outcome = .ok kept := Extra.run_eq_ok.2 hall
    refine ⟨input, declared, kept, rfl, hdeclared, hkept, ?_⟩
    rw [Field.ofList_result hnames hdeclared hkept hinput]

/-- **The policies agree.**  A record that fails when extras are left out fails in the same way
under every policy.  Leaving extras out is the same as refusing them in a mapping that has none, so
that they have no say at all.  What is accepted when extras are refused comes to the same under
every policy; and what is accepted when they are left out is accepted when they are kept just if
all of them are, and then they stand behind the entries of the fields, in the order of the input
and under keys of their own.  The extras are the entries of the input whose keys no field declares,
in the order of the input. -/
theorem validateWith_policies {fields : List Field} (hnames : (fields.map Field.name).Nodup)
    {input : Map Value} (hinput : input.keys.Nodup) (config : Config) (root : String) :
    let outcome (extra : Extra) := (record fields extra).validateWith config root (.mapping input)
    (∀ error, outcome .ignored = .error error → ∀ extra, outcome extra = .error error) ∧
    (outcome .ignored =
        (record fields .closed).validateWith config root (.mapping (Field.restrict fields input)) ∧
      ∀ other : Map Value, (∀ key ∈ fields.map Field.name, other.get? key = input.get? key) →
        (record fields .ignored).validateWith config root (.mapping other) = outcome .ignored) ∧
    (∀ value, outcome .closed = .ok value → ∀ extra, outcome extra = .ok value) ∧
    (∀ value, outcome .ignored = .ok value → ∀ validator,
      ((∃ result, outcome (.typed validator) = .ok result) ↔
        ∀ entry ∈ Field.undeclared fields input, ∃ result,
          validator.validatePart config root (.key entry.1) entry.2 = .ok result) ∧
      ∀ result, outcome (.typed validator) = .ok result →
        ∃ declared kept, value = .mapping ⟨declared⟩ ∧ result = .mapping ⟨declared ++ kept⟩ ∧
          List.Forall₂ (fun entry pair => pair.1 = entry.1 ∧
              validator.validatePart config root (.key entry.1) entry.2 = .ok pair.2)
            (Field.undeclared fields input) kept ∧
          kept.map Prod.fst = input.keys.filter (fun key => key ∉ fields.map Field.name) ∧
          ∀ key ∈ kept.map Prod.fst, key ∉ declared.map Prod.fst) ∧
    (Field.undeclared fields input).Sublist input.entries ∧
      ∀ entry, entry ∈ Field.undeclared fields input ↔
        entry ∈ input.entries ∧ entry.1 ∉ fields.map Field.name := by
  intro outcome
  refine ⟨?failed, ⟨(validateWith_closed_restrict fields config root input).symm, ?unseen⟩,
    ?closed, ?typed, List.filter_sublist, fun _ => Field.mem_undeclared⟩
  case failed =>
    intro error herror extra
    exact validateWith_error_of_ignored fields config root herror extra
  case unseen =>
    intro other hother
    exact validateWith_ignored_congr fields config root hother
  case closed =>
    intro value hvalue extra
    have hnone := undeclared_eq_nil_of_closed fields config root hvalue
    have hsame := validateWith_of_undeclared_eq_nil fields config root hnone
    exact (hsame extra).trans ((hsame .closed).symm.trans hvalue)
  case typed =>
    intro value hvalue validator
    obtain ⟨declared, rfl, hsub, htyped⟩ := exists_declared_of_ignored hnames hinput hvalue
    constructor
    · constructor
      · rintro ⟨result, hresult⟩ entry hentry
        obtain ⟨kept, -, hkept⟩ := (htyped validator result).1 hresult
        obtain ⟨pair, -, -, hpair⟩ := exists_left_of_forall₂ hkept.flip hentry
        exact ⟨pair.2, hpair⟩
      · intro hall
        have hpairs : ∀ entry ∈ Field.undeclared fields input, ∃ pair : String × Value,
            pair.1 = entry.1 ∧
              validator.validatePart config root (.key entry.1) entry.2 = .ok pair.2 := by
          intro entry hentry
          obtain ⟨result, hresult⟩ := hall entry hentry
          exact ⟨(entry.1, result), rfl, hresult⟩
        obtain ⟨kept, hkept⟩ := exists_forall₂_of_forall hpairs
        exact ⟨_, (htyped validator _).2 ⟨kept, rfl, hkept⟩⟩
    · intro result hresult
      obtain ⟨kept, rfl, hkept⟩ := (htyped validator result).1 hresult
      have hkeys : kept.map Prod.fst =
          input.keys.filter (fun key => key ∉ fields.map Field.name) := by
        rw [Map.map_fst_eq_of_forall₂ hkept, Field.keys_undeclared]
      refine ⟨declared, kept, rfl, rfl, hkept, hkeys, ?_⟩
      intro key hkey hmem
      rw [hkeys] at hkey
      have hfresh := of_decide_eq_true (List.mem_filter.1 hkey).2
      exact hfresh (hsub.subset hmem)

theorem validateWith_policies_parcels :
    let input : Map Value := ⟨[("weight", .string "12"), ("number", .string "7")]⟩
    let typed := record parcels (.typed (primitive .integer))
    (parcels.map Field.name).Nodup ∧ input.keys.Nodup ∧
    (record parcels .ignored).validateWith ⟨1, .summary⟩ "$" (.mapping input) =
      (record parcels .closed).validateWith ⟨1, .summary⟩ "$"
        (.mapping ⟨[("number", .string "7")]⟩) ∧
    ∃ result, typed.validateWith ⟨1, .summary⟩ "$" (.mapping input) = .ok result ∧
      ∃ declared kept, Value.mapping ⟨[("number", .integer 7)]⟩ = .mapping ⟨declared⟩ ∧
        result = .mapping ⟨declared ++ kept⟩ ∧ kept.map Prod.fst = ["weight"] := by
  intro input typed
  have hnames : (parcels.map Field.name).Nodup := by decide
  have hinput : input.keys.Nodup := by decide
  have hignored : (record parcels .ignored).validateWith ⟨1, .summary⟩ "$" (.mapping input) =
    .ok (.mapping ⟨[("number", .integer 7)]⟩) := rfl
  obtain ⟨-, ⟨hclosed, -⟩, -, htyped, -⟩ :=
    validateWith_policies hnames hinput ⟨1, .summary⟩ "$"
  obtain ⟨haccepts, hkeeps⟩ := htyped _ hignored (primitive .integer)
  have hweight : ∀ entry ∈ Field.undeclared parcels input, ∃ result,
      (primitive .integer).validatePart ⟨1, .summary⟩ "$" (.key entry.1) entry.2 =
        .ok result := by
    intro entry hentry
    obtain rfl : entry = ("weight", .string "12") := List.mem_singleton.1 hentry
    exact ⟨.integer 12, rfl⟩
  obtain ⟨result, hresult⟩ := haccepts.2 hweight
  obtain ⟨declared, kept, hvalue, heq, -, hkeys, -⟩ := hkeeps result hresult
  exact ⟨hnames, hinput, hclosed, result, hresult, declared, kept, hvalue, heq, hkeys⟩

end Validator

end Conform
