import Conform.Predicate
import Conform.Proofs.Walk
import Mathlib.Logic.Relation

/-!
# Laws of validators

Trees that differ may say the same.  Constraints upon constraints are all of them in turn, no
constraints constrain nothing, and a choice among the alternatives of a choice is one choice
(`Validator.Law`).  A tree may be rewritten by these laws at any place in it and any number of
times, in either direction: the runs evaluate the same constraints and come to the same
(`Validator.validateWith_rewritten`).  Only the reasons that a refused choice gives tell the trees
apart, because they number and name its alternatives.

When a choice gives no reasons, a walk through it is made of the walks through its alternatives
alone, and `Walk.orElse` joins them.  The laws of choices are those of this operation, and trees
that say the same are trees with the same walks, so that one may stand for the other anywhere.
-/

namespace Conform

/-! ## Walks joined -/

namespace Walk

variable {α β γ : Type}

lemma bind_pure (walk : Walk α) : walk >>= Pure.pure = walk := by
  obtain ⟨evaluations, outcome⟩ := walk
  cases outcome with
  | ok value => exact congrArg (Walk.mk · (.ok value)) (List.append_nil evaluations)
  | error error => rfl

lemma bind_assoc (walk : Walk α) (next : α → Walk β) (last : β → Walk γ) :
    walk >>= next >>= last = walk >>= fun value => next value >>= last := by
  obtain ⟨evaluations, outcome⟩ := walk
  cases outcome with
  | error error => rfl
  | ok value =>
    show Walk.bind ⟨evaluations ++ (next value).evaluations, (next value).outcome⟩ last =
      ⟨evaluations ++ (Walk.bind (next value) last).evaluations,
        (Walk.bind (next value) last).outcome⟩
    cases houtcome : (next value).outcome with
    | ok result => simp only [Walk.bind, houtcome, List.append_assoc]
    | error error => simp only [Walk.bind, houtcome]

/-- A walk and, if it fails, another one in its stead.  Out of depth there is no other. -/
def orElse (walk other : Walk α) : Walk α :=
  match walk.outcome with
  | .ok _ => walk
  | .error error =>
    if error.kind = .depthExceeded then walk
    else ⟨walk.evaluations ++ other.evaluations, other.outcome⟩

lemma orElse_of_ok {walk : Walk α} {value : α} (h : walk.outcome = .ok value)
    (other : Walk α) : walk.orElse other = walk := by
  rw [orElse, h]

lemma orElse_of_depth {walk : Walk α} {error : ValidationError}
    (h : walk.outcome = .error error) (hdepth : error.kind = .depthExceeded) (other : Walk α) :
    walk.orElse other = walk := by
  simp only [orElse, h, hdepth, if_true]

lemma orElse_of_shallow {walk : Walk α} {error : ValidationError}
    (h : walk.outcome = .error error) (hshallow : error.kind ≠ .depthExceeded)
    (other : Walk α) :
    walk.orElse other = ⟨walk.evaluations ++ other.evaluations, other.outcome⟩ := by
  simp only [orElse, h, hshallow, if_false]

lemma orElse_assoc (walk other last : Walk α) :
    (walk.orElse other).orElse last = walk.orElse (other.orElse last) := by
  cases houtcome : walk.outcome with
  | ok value => rw [orElse_of_ok houtcome, orElse_of_ok houtcome, orElse_of_ok houtcome]
  | error error =>
    by_cases hdepth : error.kind = .depthExceeded
    · rw [orElse_of_depth houtcome hdepth, orElse_of_depth houtcome hdepth,
        orElse_of_depth houtcome hdepth]
    · rw [orElse_of_shallow houtcome hdepth, orElse_of_shallow houtcome hdepth]
      -- What is left to do depends on the outcome of the other walk, which is the joined one.
      cases hother : other.outcome with
      | ok value => simp only [orElse, hother]
      | error fault =>
        by_cases hfault : fault.kind = .depthExceeded
        · simp only [orElse, hother, hfault, if_true]
        · simp only [orElse, hother, hfault, if_false, List.append_assoc]

/-- Walks in turn until one does not fail, and the last one at the end. -/
def firstOf (walks : List (Walk α)) (last : Walk α) : Walk α := walks.foldr orElse last

lemma firstOf_append (front back : List (Walk α)) (last : Walk α) :
    firstOf (front ++ back) last = firstOf front (firstOf back last) :=
  List.foldr_append

lemma firstOf_orElse (walks : List (Walk α)) (last other : Walk α) :
    (firstOf walks last).orElse other = firstOf walks (last.orElse other) := by
  induction walks with
  | nil => rfl
  | cons walk walks ih =>
    show (walk.orElse (firstOf walks last)).orElse other = walk.orElse _
    rw [orElse_assoc, ih]
    rfl

end Walk

/-! ## Choices without reasons -/

/-- Settings under which a choice gives no reasons. -/
def Config.brief (limit : Nat) : Config := ⟨limit, .summary⟩

namespace Validator

/-- Without reasons a choice walks through its alternatives in turn and then fails. -/
lemma walkFirst_brief (limit : Nat) (alternatives : List Validator)
    (refused : List (Shape × ValidationError)) (place : Place) (raw : Value) :
    walkFirst (.brief limit) alternatives refused place raw =
      Walk.firstOf (alternatives.map fun first => walk (.brief limit) first place raw)
        (Walk.fail (.unionExhausted place.text none)) := by
  induction alternatives generalizing refused with
  | nil => rfl
  | cons first others ih =>
    show _ = (walk (.brief limit) first place raw).orElse (Walk.firstOf _ _)
    rw [walkFirst]
    cases houtcome : (walk (.brief limit) first place raw).outcome with
    | ok value => rw [Walk.orElse_of_ok houtcome]
    | error error =>
      by_cases hdepth : error.kind = .depthExceeded
      · rw [Walk.orElse_of_depth houtcome hdepth]
        exact if_pos hdepth
      · rw [Walk.orElse_of_shallow houtcome hdepth, ← ih (refused ++ [(first.shape, error)])]
        exact if_neg hdepth

/-! ## Laws -/

/-- Trees that say the same, at the root. -/
inductive Law : Validator → Validator → Prop where
  /-- Constraints upon constraints are all of them in turn. -/
  | nested (base : Validator) (first second : List Constraint) :
    Law (subtype (subtype base first) second) (subtype base (first ++ second))
  /-- No constraints constrain nothing. -/
  | unconstrained (base : Validator) : Law (subtype base []) base
  /-- A choice may spread out the alternatives of a choice among its own. -/
  | spread (front inner back : List Validator) :
    Law (choice (front ++ choice inner :: back)) (choice (front ++ inner ++ back))

/-- A tree becomes another one by a law at one place in it. -/
inductive Rewritten : Validator → Validator → Prop where
  | law {validator other : Validator} : Law validator other → Rewritten validator other
  | field {validator other : Validator} (front back : List Field) (name : String)
    (optional : Bool) (extra : Extra) : Rewritten validator other →
    Rewritten (record (front ++ ⟨name, validator, optional⟩ :: back) extra)
      (record (front ++ ⟨name, other, optional⟩ :: back) extra)
  | extra {validator other : Validator} (fields : List Field) : Rewritten validator other →
    Rewritten (record fields (.typed validator)) (record fields (.typed other))
  | base {validator other : Validator} (constraints : List Constraint) :
    Rewritten validator other →
    Rewritten (subtype validator constraints) (subtype other constraints)
  | element {validator other : Validator} : Rewritten validator other →
    Rewritten (array validator) (array other)
  | alternative {validator other : Validator} (front back : List Validator) :
    Rewritten validator other →
    Rewritten (choice (front ++ validator :: back)) (choice (front ++ other :: back))

/-! ## Trees with the same walks -/

end Validator

lemma Constraint.walk_append (first second : List Constraint) (place : Place) (value : Value) :
    Constraint.walk (first ++ second) place value =
      Constraint.walk first place value >>= Constraint.walk second place := by
  induction first generalizing value with
  | nil => rfl
  | cons constraint first ih =>
    have hcons (constraints : List Constraint) :
        Constraint.walk (constraint :: constraints) place value =
          Constraint.walk [constraint] place value >>= Constraint.walk constraints place := by
      cases hholds : constraint.holds value with
      | true =>
        simp only [Constraint.walk, Constraint.test, hholds, if_true]
        rfl
      | false =>
        simp only [Constraint.walk, Constraint.test, hholds]
        rfl
    rw [List.cons_append, hcons, hcons first, Walk.bind_assoc]
    exact congrArg _ (funext ih)

namespace Validator

lemma Law.walk_eq {validator other : Validator} (h : Law validator other) (limit : Nat)
    (place : Place) (raw : Value) :
    walk (.brief limit) validator place raw = walk (.brief limit) other place raw := by
  cases h with
  | nested base first second =>
    rw [walk, walk, walk, Walk.bind_assoc]
    exact congrArg _ (funext fun value => (Constraint.walk_append first second place value).symm)
  | unconstrained base =>
    rw [walk]
    exact Walk.bind_pure (walk (.brief limit) other place raw)
  | spread front inner back =>
    have hinner : walk (.brief limit) (choice inner) place raw =
        Walk.firstOf (inner.map fun first => walk (.brief limit) first place raw)
          (Walk.fail (.unionExhausted place.text none)) := by
      rw [walk, walkFirst_brief]
    rw [walk, walk, walkFirst_brief, walkFirst_brief, List.map_append, List.map_cons, hinner,
      List.append_assoc, List.map_append, List.map_append, Walk.firstOf_append,
      Walk.firstOf_append, Walk.firstOf_append]
    -- A choice that has no alternative left goes on with those behind it.
    exact congrArg _ (Walk.firstOf_orElse _ _ _)

end Validator

lemma Field.walk_congr {config : Config} {validator other : Validator}
    (h : Validator.walk config validator = Validator.walk config other) (front back : List Field)
    (name : String) (optional : Bool) (place : Place) (input : Map Value) :
    Field.walk config (front ++ ⟨name, validator, optional⟩ :: back) place input =
      Field.walk config (front ++ ⟨name, other, optional⟩ :: back) place input := by
  induction front with
  | nil => rw [List.nil_append, List.nil_append, Field.walk, Field.walk, h]
  | cons field front ih =>
    obtain ⟨key, inner, absent⟩ := field
    rw [List.cons_append, List.cons_append, Field.walk, Field.walk, ih]

namespace Validator

/-- **One rewriting.** Where a part walks the same, the whole does. -/
theorem Rewritten.walk_eq {validator other : Validator} (h : Rewritten validator other)
    (limit : Nat) : walk (.brief limit) validator = walk (.brief limit) other := by
  induction h with
  | law hlaw => exact funext fun place => funext fun raw => hlaw.walk_eq limit place raw
  | @field validator other front back name optional extra _ ih =>
    funext place raw
    have hnames : (front ++ ⟨name, validator, optional⟩ :: back).map Field.name =
        (front ++ ⟨name, other, optional⟩ :: back).map Field.name := by simp
    cases raw with
    | mapping input =>
      rw [walk, walk, Field.walk_congr ih, Field.undeclared, hnames]
      rfl
    | _ => rfl
  | extra fields _ ih =>
    funext place raw
    cases raw with
    | mapping input => simp only [walk, Extra.walk, ih]
    | _ => rfl
  | base constraints _ ih =>
    funext place raw
    rw [walk, walk, ih]
  | element _ ih =>
    funext place raw
    cases raw with
    | sequence items => simp only [walk, ih]
    | _ => rfl
  | alternative front back _ ih =>
    funext place raw
    rw [walk, walk, walkFirst_brief, walkFirst_brief, List.map_append, List.map_append,
      List.map_cons, List.map_cons, ih]

/-- Any number of rewritings, back and forth. -/
lemma walk_eq_of_rewritten {validator other : Validator}
    (h : Relation.EqvGen Rewritten validator other) (limit : Nat) :
    walk (.brief limit) validator = walk (.brief limit) other := by
  induction h with
  | rel _ _ hrewritten => exact hrewritten.walk_eq limit
  | refl _ => rfl
  | symm _ _ _ ih => exact ih.symm
  | trans _ _ _ _ _ ihFirst ihSecond => exact ihFirst.trans ihSecond

/-! ## What a caller gets -/

/-- Runs that are reported alike without reasons come to the same value, or to failures of the same
kind at the same place, with reasons as well. -/
lemma validateWith_alike {validator other : Validator} {limit : Nat} {root : String}
    {raw : Value} (h : validator.validateWith (.brief limit) root raw =
      other.validateWith (.brief limit) root raw) (reporting : UnionErrors) :
    (∃ value, validator.validateWith ⟨limit, reporting⟩ root raw = .ok value ∧
      other.validateWith ⟨limit, reporting⟩ root raw = .ok value) ∨
    ∃ error fault, validator.validateWith ⟨limit, reporting⟩ root raw = .error error ∧
      other.validateWith ⟨limit, reporting⟩ root raw = .error fault ∧
      error.kind = fault.kind ∧ error.path = fault.path := by
  cases hbrief : validator.validateWith (.brief limit) root raw with
  | ok value =>
    have hrun := validateWith_eq_ok.1 hbrief
    have hother := validateWith_eq_ok.1 (h.symm.trans hbrief)
    exact .inl ⟨value, validateWith_eq_ok.2 hrun, validateWith_eq_ok.2 hother⟩
  | error error =>
    obtain ⟨failure, hrun, rfl⟩ := validateWith_eq_error.1 hbrief
    obtain ⟨fault, hother, hreport⟩ := validateWith_eq_error.1 (h.symm.trans hbrief)
    refine .inr ⟨_, _, validateWith_eq_error.2 ⟨failure, hrun, rfl⟩,
      validateWith_eq_error.2 ⟨fault, hother, rfl⟩, ?_, ?_⟩
    · have hkind := congrArg ValidationError.kind hreport
      simpa only [Failure.kind_report] using hkind
    · have hpath := congrArg ValidationError.path hreport
      simpa only [Failure.path_report] using hpath

/-- **Rewriting keeps the meaning.**  Trees that come from one another by the laws test the same
constraints on the same values in the same order, and come to the same, in every word as long as
choices give no reasons; if they do, it is still the same value, or the same kind of error at the
same place. -/
theorem validateWith_rewritten {validator other : Validator}
    (h : Relation.EqvGen Rewritten validator other) (limit : Nat) (root : String) (raw : Value) :
    validator.validateWith ⟨limit, .summary⟩ root raw =
      other.validateWith ⟨limit, .summary⟩ root raw ∧
    (validator.run limit raw).evaluations = (other.run limit raw).evaluations ∧
    ((∃ value, validator.validateWith ⟨limit, .detailed⟩ root raw = .ok value ∧
        other.validateWith ⟨limit, .detailed⟩ root raw = .ok value) ∨
      ∃ error fault, validator.validateWith ⟨limit, .detailed⟩ root raw = .error error ∧
        other.validateWith ⟨limit, .detailed⟩ root raw = .error fault ∧
        error.kind = fault.kind ∧ error.path = fault.path) := by
  have hwalks : walk (.brief limit) validator (.start root) raw =
      walk (.brief limit) other (.start root) raw := by rw [walk_eq_of_rewritten h]
  rw [walk_start, walk_start, Walk.mk.injEq] at hwalks
  obtain ⟨hevaluations, houtcome⟩ := hwalks
  exact ⟨houtcome, hevaluations, validateWith_alike houtcome .detailed⟩

end Validator

/-- A number that is greater than zero. -/
def Constraint.positive : Constraint := Predicate.constraint "not positive" (.integer .gt 0)

/-- A number that two divides. -/
def Constraint.even : Constraint := Predicate.constraint "odd" (.remainder 2 0)

namespace Validator

/-- A positive and even size with remarks that are numbers or nothing, as a program may build it. -/
def layered : Validator :=
  record [⟨"size", subtype (subtype (primitive .integer) [.positive]) [.even], false⟩]
    (.typed (choice [subtype (primitive .integer) [], choice [primitive .null, choice []]]))

/-- A positive and even size with remarks that are numbers or nothing, as one may write it. -/
def flattened : Validator :=
  record [⟨"size", subtype (primitive .integer) [.positive, .even], false⟩]
    (.typed (choice [primitive .integer, primitive .null]))

lemma rewritten_layered : Relation.EqvGen Rewritten layered flattened := by
  have hsize (extra : Extra) := Rewritten.field [] [] "size" false extra
    (.law (.nested (primitive .integer) [.positive] [.even]))
  have hremark (others : List Validator) := Rewritten.alternative [] others
    (.law (.unconstrained (primitive .integer)))
  have hchoice := Rewritten.law (.spread [primitive .integer] [primitive .null, choice []] [])
  have hnone := Rewritten.law (.spread [primitive .integer, primitive .null] [] [])
  exact .trans _ _ _ (.rel _ _ (hsize _)) <| .trans _ _ _ (.rel _ _ (.extra _ (hremark _))) <|
    .trans _ _ _ (.rel _ _ (.extra _ hchoice)) (.rel _ _ (.extra _ hnone))

theorem validateWith_rewritten_layered :
    let raw : Value := .mapping ⟨[("size", .string "4"), ("remark", .string "large")]⟩
    Relation.EqvGen Rewritten layered flattened ∧
    layered.validateWith ⟨1, .summary⟩ "$" raw =
      .error ⟨"$.remark", "no union variant matched", .unionExhausted⟩ ∧
    flattened.validateWith ⟨1, .summary⟩ "$" raw =
      .error ⟨"$.remark", "no union variant matched", .unionExhausted⟩ ∧
    (layered.run 1 raw).evaluations = (flattened.run 1 raw).evaluations := by
  intro raw
  obtain ⟨hsame, hevaluations, -⟩ := validateWith_rewritten rewritten_layered 1 "$" raw
  have hlayered : layered.validateWith ⟨1, .summary⟩ "$" raw =
    .error ⟨"$.remark", "no union variant matched", .unionExhausted⟩ := rfl
  exact ⟨rewritten_layered, hlayered, hsame.symm.trans hlayered, hevaluations⟩

/-- With reasons the trees differ in what they say, if not in what they come to. -/
example :
    (choice [subtype (primitive .null) []]).validateWith {} "$" (.integer 1) = .error
      ⟨"$", "no union variant matched (variant 0 (subtype): expected null, got integer)",
        .unionExhausted⟩ ∧
    (choice [primitive .null]).validateWith {} "$" (.integer 1) = .error
      ⟨"$", "no union variant matched (variant 0 (null): expected null, got integer)",
        .unionExhausted⟩ := ⟨rfl, rfl⟩

end Validator

end Conform
