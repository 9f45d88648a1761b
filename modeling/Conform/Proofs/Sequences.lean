import Conform.Proofs.Steps
import Conform.Proofs.Stepwise

/-!
# Arrays item by item

What an array makes of a sequence is told by what its element validator makes of each item on its
own, one step down and with one step less to go.  Items are visited in order.  For as long as they
are accepted, the results are gathered and the visit goes on (`Run.items_append`); the first one
that fails ends it, and nothing behind that item is looked at (`Run.items_of_error`).  From this
`Validator.validateWith_array` says exactly what an array comes to and which constraints it tests
on the way.
-/

namespace Conform

/-! ## Items in order -/

/-- Either all members of a list come to results, or there is a first one that fails. -/
lemma exists_results_or_first_error {α β ε : Type} (visit : α → Except ε β) (items : List α) :
    (∃ results, List.Forall₂ (fun item result => visit item = .ok result) items results) ∨
      ∃ front item back results error, items = front ++ item :: back ∧
        List.Forall₂ (fun item result => visit item = .ok result) front results ∧
        visit item = .error error := by
  induction items with
  | nil => exact .inl ⟨[], .nil⟩
  | cons item items ih =>
    cases hitem : visit item with
    | error error => exact .inr ⟨[], item, items, [], error, rfl, .nil, hitem⟩
    | ok result =>
      obtain ⟨results, hresults⟩ | ⟨front, next, back, results, error, rfl, hfront, hnext⟩ := ih
      · exact .inl ⟨result :: results, .cons hitem hresults⟩
      · exact .inr ⟨item :: front, next, back, result :: results, error, rfl, .cons hitem hfront,
          hnext⟩

/-- What is related one by one is related at every index. -/
lemma exists_getElem?_of_forall₂ {α β : Type} {related : α → β → Prop} {lefts : List α}
    {rights : List β} (h : List.Forall₂ related lefts rights) {index : Nat} {left : α}
    (hleft : lefts[index]? = some left) :
    ∃ right, rights[index]? = some right ∧ related left right := by
  induction h generalizing index with
  | nil => cases hleft
  | cons hhead _ ih =>
    cases index with
    | zero =>
      cases hleft
      exact ⟨_, rfl, hhead⟩
    | succ index => exact ih hleft

namespace Run

variable {visit : Nat → Value → Run Value} {left : Nat}

/-- An item that is accepted is passed, with its tests, and its result is put in front. -/
lemma items_of_ok {item result : Value} (h : (visit left item).outcome = .ok result)
    (start : Nat) (back : List Value) :
    let whole := Run.items visit (left + 1) start (item :: back)
    let rest := Run.items visit (left + 1) (start + 1) back
    whole.outcome = rest.outcome.map (result :: ·) ∧
      whole.evaluations = (visit left item).evaluations ++ rest.evaluations := by
  have hfirst : (descend (.index start) (left + 1) fun left => visit left item).outcome =
    .ok result := descend_eq_ok.2 ⟨left, rfl, h⟩
  constructor
  · rw [Run.items, bind_outcome, hfirst]
    show Run.outcome (_ >>= _) = _
    rw [bind_outcome]
    cases (Run.items visit (left + 1) (start + 1) back).outcome <;> rfl
  · rw [Run.items, evaluations_bind_of_ok hfirst, evaluations_bind_pure]
    exact congrArg (· ++ _) (evaluations_below _ _)

/-- All items in front are passed. -/
theorem items_append {front results : List Value}
    (h : List.Forall₂ (fun item result => (visit left item).outcome = .ok result) front results)
    (start : Nat) (back : List Value) :
    let whole := Run.items visit (left + 1) start (front ++ back)
    let rest := Run.items visit (left + 1) (start + front.length) back
    whole.outcome = rest.outcome.map (results ++ ·) ∧
      whole.evaluations = front.flatMap (fun item => (visit left item).evaluations) ++
        rest.evaluations := by
  induction h generalizing start with
  | nil =>
    refine ⟨?_, rfl⟩
    show _ = Except.map id _
    rw [Except.map_id, id]
    rfl
  | @cons item result front results hitem _ ih =>
    obtain ⟨hfirst, htests⟩ := items_of_ok hitem start (front ++ back)
    obtain ⟨hrest, hmore⟩ := ih (start + 1)
    rw [Nat.add_right_comm, Nat.add_assoc] at hrest hmore
    constructor
    · rw [List.cons_append, hfirst, hrest, List.length_cons]
      cases (Run.items visit (left + 1) (start + (front.length + 1)) back).outcome <;> rfl
    · rw [List.cons_append, htests, hmore, List.flatMap_cons, List.append_assoc]
      rfl

/-- At an item that is not accepted the visit ends. -/
theorem items_of_error {item : Value} {failure : Failure}
    (h : (visit left item).outcome = .error failure) (start : Nat) (back : List Value) :
    let whole := Run.items visit (left + 1) start (item :: back)
    whole.outcome = .error (failure.under (.index start)) ∧
      whole.evaluations = (visit left item).evaluations := by
  have hfirst : (descend (.index start) (left + 1) fun left => visit left item).outcome =
    .error (failure.under (.index start)) := descend_eq_error.2 (.inr ⟨left, failure, rfl, h, rfl⟩)
  refine ⟨bind_eq_error.2 (.inl hfirst), ?_⟩
  exact (evaluations_bind_of_error hfirst _).trans (evaluations_below _ _)

end Run

open Run

namespace Validator

/-! ## Arrays -/

section Arrays

variable (element : Validator) (limit : Nat)

lemma evaluations_run_array (items : List Value) :
    ((array element).run (limit + 1) (.sequence items)).evaluations =
      (Run.items element.run (limit + 1) 0 items).evaluations := by
  simp only [Validator.run]
  rw [evaluations_bind_of_ok (note_outcome _)]
  exact evaluations_bind_pure _ Value.sequence

variable {element limit} {items results : List Value}

/-- An array accepts a sequence of which it accepts all items, and tests every one of them. -/
lemma run_array_of_forall₂
    (h : List.Forall₂ (fun item result => (element.run limit item).outcome = .ok result) items
      results) :
    ((array element).run (limit + 1) (.sequence items)).outcome = .ok (.sequence results) ∧
      ((array element).run (limit + 1) (.sequence items)).evaluations =
        items.flatMap fun item => (element.run limit item).evaluations := by
  obtain ⟨houtcome, htests⟩ := items_append h 0 []
  rw [List.append_nil] at houtcome htests
  constructor
  · rw [outcome_run_array, bind_outcome, houtcome]
    show Except.ok (Value.sequence (results ++ [])) = _
    rw [List.append_nil]
  · rw [evaluations_run_array, htests]
    exact List.append_nil _

/-- An array fails as the first item that it does not accept, and tests none behind it. -/
lemma run_array_of_error {front : List Value} {item : Value} {failure : Failure}
    (hfront : List.Forall₂ (fun item result => (element.run limit item).outcome = .ok result) front
      results)
    (hitem : (element.run limit item).outcome = .error failure) (back : List Value) :
    ((array element).run (limit + 1) (.sequence (front ++ item :: back))).outcome =
        .error (failure.under (.index front.length)) ∧
      ((array element).run (limit + 1) (.sequence (front ++ item :: back))).evaluations =
        (front ++ [item]).flatMap fun item => (element.run limit item).evaluations := by
  obtain ⟨houtcome, htests⟩ := items_append hfront 0 (item :: back)
  obtain ⟨hfails, hlast⟩ := items_of_error hitem (0 + front.length) back
  rw [hfails, Nat.zero_add] at houtcome
  constructor
  · rw [outcome_run_array, bind_outcome, houtcome]
    rfl
  · rw [evaluations_run_array, htests, hlast, List.flatMap_append, List.flatMap_singleton]

end Arrays

/-- **An array, item by item.**  With a step left to go down, it accepts a sequence if its element
validator accepts every item on its own, with one step less to go, and comes to their results in
order.  Otherwise it fails as the first item that is not accepted, and tests no constraint behind
it.  Without a step left it accepts the empty sequence alone. -/
theorem validateWith_array (element : Validator) (reporting : UnionErrors) (root : String)
    (items : List Value) :
    (∀ limit,
      let outcome := (array element).validateWith ⟨limit + 1, reporting⟩ root (.sequence items)
      let tests := ((array element).run (limit + 1) (.sequence items)).evaluations
      let part (index : Nat) (item : Value) :=
        element.validateWith ⟨limit, reporting⟩ (root ++ ("[" ++ toString index ++ "]")) item
      let testsOf (item : Value) := (element.run limit item).evaluations
      ((∃ value, outcome = .ok value) ↔
        ∀ index item, items[index]? = some item → ∃ result, part index item = .ok result) ∧
      (∀ value, outcome = .ok value → tests = items.flatMap testsOf ∧
        ∃ results, value = .sequence results ∧ results.length = items.length ∧
          ∀ index item, items[index]? = some item →
            ∃ result, results[index]? = some result ∧ part index item = .ok result) ∧
      ∀ error, outcome = .error error →
        ∃ index item fault, items[index]? = some item ∧ part index item = .error fault ∧
          error = fault.underLimit (limit + 1) ∧
          (∀ sooner < index, ∀ other, items[sooner]? = some other →
            ∃ result, part sooner other = .ok result) ∧
          tests = (items.take (index + 1)).flatMap testsOf) ∧
    (items = [] →
      (array element).validateWith ⟨0, reporting⟩ root (.sequence items) = .ok (.sequence [])) ∧
    (items ≠ [] →
      (array element).validateWith ⟨0, reporting⟩ root (.sequence items) =
        .error (.depthExceeded (root ++ "[0]") 0) ∧
      ((array element).run 0 (.sequence items)).evaluations = []) := by
  refine ⟨fun limit => ?_, ?empty, ?nonempty⟩
  case empty =>
    rintro rfl
    rfl
  case nonempty =>
    intro hitems
    obtain ⟨item, items, rfl⟩ := List.exists_cons_of_ne_nil hitems
    exact ⟨rfl, rfl⟩
  intro outcome tests part testsOf
  have hpart (index : Nat) (item result : Value) :
      part index item = .ok result ↔ (element.run limit item).outcome = .ok result :=
    validateWith_eq_ok
  -- An item is run with the same budget on its own as in the array, so either way of the visit to
  -- end is told of the parts as it is told of the array.
  obtain ⟨results, hall⟩ | ⟨front, item, back, results, failure, rfl, hfront, hitem⟩ :=
    exists_results_or_first_error (fun item => (element.run limit item).outcome) items
  · obtain ⟨hrun, htests⟩ := run_array_of_forall₂ hall
    have houtcome : outcome = .ok (.sequence results) := validateWith_eq_ok.2 hrun
    have hparts (index : Nat) (item : Value) (h : items[index]? = some item) :
        ∃ result, results[index]? = some result ∧ part index item = .ok result := by
      obtain ⟨result, hresult, hok⟩ := exists_getElem?_of_forall₂ hall h
      exact ⟨result, hresult, (hpart index item result).2 hok⟩
    refine ⟨⟨fun _ index item h => ?_, fun _ => ⟨_, houtcome⟩⟩, ?_, ?_⟩
    · obtain ⟨result, -, hresult⟩ := hparts index item h
      exact ⟨result, hresult⟩
    · intro value hvalue
      obtain rfl := Except.ok.inj (houtcome.symm.trans hvalue)
      exact ⟨htests, results, rfl, hall.length_eq.symm, hparts⟩
    · intro error herror
      rw [houtcome] at herror
      cases herror
  · obtain ⟨hrun, htests⟩ := run_array_of_error hfront hitem back
    have hreporting : (Config.mk (limit + 1) reporting).unionErrors =
      (Config.mk limit reporting).unionErrors := rfl
    have hplace : (front ++ item :: back)[front.length]? = some item := by simp
    have hfault : part front.length item = .error _ :=
      validateWith_eq_error.2 ⟨failure, hitem, rfl⟩
    have houtcome : outcome = .error _ := validateWith_eq_error.2 ⟨_, hrun, rfl⟩
    refine ⟨⟨?_, ?_⟩, ?_, ?_⟩
    · rintro ⟨value, hvalue⟩
      rw [houtcome] at hvalue
      cases hvalue
    · intro hparts
      obtain ⟨result, hresult⟩ := hparts front.length item hplace
      rw [hfault] at hresult
      cases hresult
    · intro value hvalue
      rw [houtcome] at hvalue
      cases hvalue
    · intro error herror
      refine ⟨front.length, item, _, hplace, hfault, ?_, ?_, ?_⟩
      · rw [houtcome] at herror
        rw [← Except.error.inj herror, Failure.report_under]
        exact (fails_of_run hitem).report_underLimit hreporting _
      · intro sooner hsooner other hother
        rw [List.getElem?_append_left hsooner] at hother
        obtain ⟨result, -, hresult⟩ := exists_getElem?_of_forall₂ hfront hother
        exact ⟨result, (hpart sooner other result).2 hresult⟩
      · rw [List.take_length_add_append]
        exact htests

/-- The first item that fails is the one reported, whatever stands behind it. -/
example : (array (primitive .integer)).validateWith ⟨1, .summary⟩ "$"
    (.sequence [.string "1", .string "x", .null]) = .error (.coercion "$[1]" "x" "integer") := rfl

end Validator

end Conform
