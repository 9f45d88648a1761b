import Conform.Predicate
import Conform.Proofs.Coercion
import Conform.Proofs.Depth
import Conform.Proofs.Equality
import Conform.Proofs.Records

/-!
# The order of keys and of fields

A run goes through the fields of a record in the order of their declaration, and through its extras
in the order of their keys; it stops at the first fault.  So the order decides which fault is found,
and how far the run goes before.  It does not decide whether one is found:
`Validator.validateWith_rearranged`.

Acceptance is followed in one direction at a time.  `Validator.Follows` says that a validator
accepts a copy of whatever another one accepts, with an equal result.  Where alternatives are tried
in turn both directions are needed at once, because an alternative must also refuse what its
counterpart refuses; and it must refuse it without running out of depth, which would end the choice
and hide the alternatives behind.  That is why the limit has to reach the height of the value.
-/

namespace Conform

open Run

/-! ## Rearranged validators -/

mutual

/-- The fields of any of the records in a validator are put into another order. -/
inductive Validator.Rearranged : Validator → Validator → Prop where
  | primitive (kind : Kind) : Validator.Rearranged (.primitive kind) (.primitive kind)
  | record {fields middle others : List Field} {extra other : Extra} :
    List.Forall₂ Field.Rearranged fields middle → middle.Perm others →
      Extra.Rearranged extra other →
      Validator.Rearranged (.record fields extra) (.record others other)
  | subtype {base other : Validator} (constraints : List Constraint) :
    Validator.Rearranged base other →
      Validator.Rearranged (.subtype base constraints) (.subtype other constraints)
  | array {element other : Validator} :
    Validator.Rearranged element other → Validator.Rearranged (.array element) (.array other)
  | choice {alternatives others : List Validator} :
    List.Forall₂ Validator.Rearranged alternatives others →
      Validator.Rearranged (.choice alternatives) (.choice others)

/-- A field keeps its name, and stays optional or required. -/
inductive Field.Rearranged : Field → Field → Prop where
  | mk (name : String) (optional : Bool) {validator other : Validator} :
    Validator.Rearranged validator other →
      Field.Rearranged ⟨name, validator, optional⟩ ⟨name, other, optional⟩

/-- The validator of extras is rearranged, if there is one. -/
inductive Extra.Rearranged : Extra → Extra → Prop where
  | closed : Extra.Rearranged .closed .closed
  | ignored : Extra.Rearranged .ignored .ignored
  | typed {validator other : Validator} :
    Validator.Rearranged validator other → Extra.Rearranged (.typed validator) (.typed other)

end

/-- To leave all fields where they are is one of the orders. -/
lemma Validator.Rearranged.refl (validator : Validator) : validator.Rearranged validator := by
  induction validator with
  | primitive kind => exact .primitive kind
  | record fields extra ihFields ihExtra =>
    have hfields : List.Forall₂ Field.Rearranged fields fields := by
      rw [List.forall₂_same]
      rintro ⟨name, validator, optional⟩ hfield
      exact .mk name optional (ihFields _ hfield)
    have hextra : extra.Rearranged extra := by
      cases extra with
      | closed => exact .closed
      | ignored => exact .ignored
      | typed validator => exact .typed (ihExtra validator rfl)
    exact .record hfields (.refl fields) hextra
  | subtype base constraints ih => exact .subtype constraints ih
  | array element ih => exact .array ih
  | choice alternatives ih => exact .choice (List.forall₂_same.2 ih)

/-- A constraint gives the same answer on values that are equal. -/
def Constraint.RespectsEquality (constraint : Constraint) : Prop :=
  ∀ a b : Value, a.Alike b → constraint.holds a = constraint.holds b

/-- The constraints of a subtype give the same answers on values that are equal. -/
def Validator.RespectsEquality : Validator → Prop
  | subtype _ constraints => ∀ constraint ∈ constraints, constraint.RespectsEquality
  | _ => True

/-! ## Scalars -/

/-- What a kind takes it takes in a copy, too. -/
lemma Kind.Coerces.exists_alike {kind : Kind} {raw copy value : Value}
    (h : kind.Coerces raw value) (halike : raw.Alike copy) :
    ∃ again, kind.Coerces copy again ∧ value.Alike again := by
  cases h with
  | same hsame =>
    refine ⟨copy, .same ?_, halike⟩
    intro tag htag
    rw [← halike.tag_eq]
    exact hsame tag htag
  | widened number =>
    obtain rfl := Value.eq_of_beq halike.equal nofun nofun nofun
    have hself := Value.float_beq_self (isFinite_widen number)
    exact ⟨_, .widened number, trivial, trivial, hself⟩
  | @integer text number hparse =>
    obtain rfl := Value.eq_of_beq halike.equal nofun nofun nofun
    exact ⟨_, .integer hparse, trivial, trivial, beq_self_eq_true number⟩
  | float hparse =>
    obtain rfl := Value.eq_of_beq halike.equal nofun nofun nofun
    have hself := Value.float_beq_self (isFinite_of_parseFloat hparse)
    exact ⟨_, .float hparse, trivial, trivial, hself⟩
  | @boolean text truth hparse =>
    obtain rfl := Value.eq_of_beq halike.equal nofun nofun nofun
    exact ⟨_, .boolean hparse, trivial, trivial, beq_self_eq_true truth⟩
  | @datetime text stamp hparse =>
    obtain rfl := Value.eq_of_beq halike.equal nofun nofun nofun
    exact ⟨_, .datetime hparse, trivial, trivial, beq_self_eq_true stamp⟩

namespace Validator

/-- What a validator accepts, another one accepts in a copy, with an equal result. -/
def Follows (validator other : Validator) : Prop :=
  ∀ (budget : Nat) (raw copy value : Value), raw.Alike copy → raw.height ≤ budget →
    (validator.run budget raw).outcome = .ok value →
      ∃ again, (other.run budget copy).outcome = .ok again ∧ value.Alike again

lemma Follows.yields {validator other : Validator} (h : validator.Follows other) {budget : Nat}
    {part copy result : Value} (halike : part.Alike copy) (hheight : part.height < budget)
    (hyields : Yields validator.run budget part result) :
    ∃ again, Yields other.run budget copy again ∧ result.Alike again := by
  obtain ⟨left, rfl, hrun⟩ := hyields
  obtain ⟨again, hagain, hresult⟩ := h left part copy result halike (by omega) hrun
  exact ⟨again, ⟨left, rfl, hagain⟩, hresult⟩

lemma Follows.primitive (kind : Kind) : (primitive kind).Follows (primitive kind) := by
  intro budget raw copy value halike _ hrun
  rw [run_primitive_eq_ok, Kind.coerce_eq_ok] at hrun
  obtain ⟨again, hagain, hresult⟩ := hrun.exists_alike halike
  exact ⟨again, run_primitive_eq_ok.2 (Kind.coerce_eq_ok.2 hagain), hresult⟩

/-! ## Subtypes, arrays and choices -/

lemma Follows.subtype {base other : Validator} {constraints : List Constraint}
    (h : base.Follows other)
    (hrespects : ∀ constraint ∈ constraints, constraint.RespectsEquality) :
    (subtype base constraints).Follows (subtype other constraints) := by
  intro budget raw copy value halike hheight hrun
  obtain ⟨hbase, hholds⟩ := run_subtype_eq_ok.1 hrun
  obtain ⟨again, hagain, hresult⟩ := h budget raw copy value halike hheight hbase
  refine ⟨again, run_subtype_eq_ok.2 ⟨hagain, ?_⟩, hresult⟩
  intro constraint hconstraint
  rw [← hrespects constraint hconstraint value again hresult]
  exact hholds constraint hconstraint

lemma Follows.items {element other : Validator} (h : element.Follows other) {budget : Nat}
    {items copies results : List Value} (hcopies : List.Forall₂ Value.Alike items copies)
    (hheight : ∀ item ∈ items, item.height < budget)
    (hresults : List.Forall₂ (Yields element.run budget) items results) :
    ∃ again, List.Forall₂ (Yields other.run budget) copies again ∧
      List.Forall₂ Value.Alike results again := by
  induction hresults generalizing copies with
  | nil =>
    cases hcopies
    exact ⟨[], .nil, .nil⟩
  | cons hfirst _ ih =>
    obtain _ | ⟨hcopy, hcopies⟩ := hcopies
    obtain ⟨hlow, hheights⟩ := List.forall_mem_cons.1 hheight
    obtain ⟨first, hyields, hsame⟩ := h.yields hcopy hlow hfirst
    obtain ⟨others, hothers, hrest⟩ := ih hcopies hheights
    exact ⟨first :: others, .cons hyields hothers, .cons hsame hrest⟩

lemma Follows.array {element other : Validator} (h : element.Follows other) :
    (array element).Follows (array other) := by
  intro budget raw copy value halike hheight hrun
  obtain ⟨items, results, rfl, hresults, rfl⟩ := run_array_eq_ok.1 hrun
  obtain ⟨copies, rfl, hcopies⟩ := halike.exists_sequence
  have hlow : ∀ item ∈ items, item.height < budget := by
    intro item hitem
    obtain ⟨index, hpart⟩ := Value.exists_hasPart hitem
    have hbelow := hpart.height_lt
    omega
  obtain ⟨again, hyields, hsame⟩ := h.items hcopies hlow hresults
  exact ⟨_, run_array_eq_ok.2 ⟨copies, again, rfl, hyields, rfl⟩, Value.alike_sequence_iff.2 hsame⟩

/-- A validator refuses what its counterpart refuses, if the budget reaches the height. -/
lemma Follows.refuses {validator other : Validator} (h : other.Follows validator) {budget : Nat}
    {raw copy : Value} (halike : raw.Alike copy) (hheight : raw.height ≤ budget)
    (hrefuses : validator.Refuses budget raw) : other.Refuses budget copy := by
  have hcopy : copy.height ≤ budget := by
    rw [← halike.height_eq]
    exact hheight
  cases houtcome : (other.run budget copy).outcome with
  | ok value =>
    obtain ⟨again, hagain, -⟩ := h budget copy raw value halike.symm hcopy houtcome
    obtain ⟨failure, hfails, -⟩ := hrefuses
    rw [hagain] at hfails
    cases hfails
  | error failure =>
    refine ⟨failure, houtcome, ?_⟩
    have hshallow := (run_bounded other copy).within budget (by omega)
    rw [← Bool.not_eq_true]
    exact fun hdepth => hshallow ⟨failure, houtcome, hdepth⟩

/-- Both directions are needed: what comes before the chosen alternative must refuse the copy. -/
lemma Follows.choice {alternatives others : List Validator}
    (h : List.Forall₂ (fun first other => first.Follows other ∧ other.Follows first)
      alternatives others) : (choice alternatives).Follows (choice others) := by
  intro budget raw copy value halike hheight hrun
  rw [run_choice_eq_ok] at hrun
  suffices ∃ again, Chooses budget copy again others ∧ value.Alike again by
    obtain ⟨again, hagain, hresult⟩ := this
    exact ⟨again, run_choice_eq_ok.2 hagain, hresult⟩
  induction h with
  | nil => cases hrun
  | cons hfirst _ ih =>
    obtain hhere | ⟨hrefuses, hlater⟩ := hrun
    · obtain ⟨again, hagain, hresult⟩ := hfirst.1 budget raw copy value halike hheight hhere
      exact ⟨again, .here hagain, hresult⟩
    · obtain ⟨again, hagain, hresult⟩ := ih hlater
      exact ⟨again, .later (hfirst.2.refuses halike hheight hrefuses) hagain, hresult⟩

end Validator

/-! ## Records -/

/-- A field of the same name, required or optional alike, whose validator follows. -/
structure Field.Follows (field other : Field) : Prop where
  name : field.name = other.name
  optional : field.optional = other.optional
  validator : field.validator.Follows other.validator

/-- Fields of the same names leave the same keys undeclared. -/
lemma Field.rel_undeclared {fields others : List Field}
    (hnames : ∀ name, name ∈ others.map Field.name ↔ name ∈ fields.map Field.name)
    {input output : Map Value}
    (hget : ∀ key, Option.Rel Value.Alike (input.get? key) (output.get? key)) (key : String) :
    Option.Rel Value.Alike (Map.lookup key (Field.undeclared fields input))
      (Map.lookup key (Field.undeclared others output)) := by
  rw [lookup_undeclared, lookup_undeclared]
  by_cases hkey : key ∈ fields.map Field.name
  · have hother : key ∈ others.map Field.name := (hnames key).2 hkey
    rw [if_pos hkey, if_pos hother]
    exact .none
  · have hother : key ∉ others.map Field.name := fun hmem => hkey ((hnames key).1 hmem)
    rw [if_neg hkey, if_neg hother]
    exact hget key

/-- Entries that are accepted are accepted in a copy, in the order of the copy. -/
lemma Validator.Follows.entries {validator other : Validator} (h : validator.Follows other)
    {budget : Nat} {entries copies results : List (String × Value)}
    (hcopies : (copies.map Prod.fst).Nodup)
    (halike : ∀ key, Option.Rel Value.Alike (Map.lookup key entries) (Map.lookup key copies))
    (hheight : ∀ entry ∈ entries, entry.2.height < budget)
    (hresults : List.Forall₂
      (fun entry result => result.1 = entry.1 ∧ Yields validator.run budget entry.2 result.2)
      entries results) :
    ∃ again, List.Forall₂
        (fun entry result => result.1 = entry.1 ∧ Yields other.run budget entry.2 result.2)
        copies again ∧
      ∀ key, Option.Rel Value.Alike (Map.lookup key results) (Map.lookup key again) := by
  have hfirst := Map.rel_lookup hresults
  have hyields : ∀ entry ∈ copies, ∃ result : String × Value,
      result.1 = entry.1 ∧ Yields other.run budget entry.2 result.2 := by
    rintro ⟨key, copy⟩ hmem
    obtain ⟨value, hvalue, hsame⟩ :=
      exists_left_of_rel (halike key) (Map.lookup_of_mem hcopies hmem)
    obtain ⟨result, -, hresult⟩ := exists_right_of_rel (hfirst key) hvalue
    have hlow := hheight (key, value) (Map.mem_of_lookup hvalue)
    obtain ⟨again, hagain, -⟩ := h.yields hsame hlow hresult
    exact ⟨(key, again), rfl, hagain⟩
  obtain ⟨again, hagain⟩ := exists_forall₂_of_forall hyields
  have hsecond := Map.rel_lookup hagain
  refine ⟨again, hagain, fun key => ?_⟩
  cases hvalue : Map.lookup key entries with
  | none =>
    have hnone := (eq_none_iff_of_rel (halike key)).1 hvalue
    rw [(eq_none_iff_of_rel (hfirst key)).1 hvalue, (eq_none_iff_of_rel (hsecond key)).1 hnone]
    exact .none
  | some value =>
    obtain ⟨copy, hcopy, hsame⟩ := exists_right_of_rel (halike key) hvalue
    obtain ⟨result, hresult, hmade⟩ := exists_right_of_rel (hfirst key) hvalue
    obtain ⟨last, hlast, hremade⟩ := exists_right_of_rel (hsecond key) hcopy
    have hlow := hheight (key, value) (Map.mem_of_lookup hvalue)
    obtain ⟨found, hfound, hequal⟩ := h.yields hsame hlow hmade
    obtain rfl := hfound.unique hremade
    rw [hresult, hlast]
    exact .some hequal

/-- The validators of extras follow, if there are any. -/
inductive Extra.Follows : Extra → Extra → Prop where
  | closed : Extra.Follows .closed .closed
  | ignored : Extra.Follows .ignored .ignored
  | typed {validator other : Validator} :
    validator.Follows other → Extra.Follows (.typed validator) (.typed other)

/-- Extras that are kept are kept in a copy, in the order of the copy. -/
lemma Extra.Follows.run {extra other : Extra} (h : extra.Follows other) {budget : Nat}
    {entries copies kept : List (String × Value)} (hcopies : (copies.map Prod.fst).Nodup)
    (halike : ∀ key, Option.Rel Value.Alike (Map.lookup key entries) (Map.lookup key copies))
    (hheight : ∀ entry ∈ entries, entry.2.height < budget)
    (hrun : (extra.run budget entries).outcome = .ok kept) :
    ∃ again, (other.run budget copies).outcome = .ok again ∧
      ∀ key, Option.Rel Value.Alike (Map.lookup key kept) (Map.lookup key again) := by
  cases h with
  | closed =>
    obtain ⟨rfl, rfl⟩ := Extra.run_eq_ok.1 hrun
    have hnone : copies = [] := by
      rw [List.eq_nil_iff_forall_not_mem]
      rintro ⟨key, copy⟩ hmem
      obtain ⟨_, habsent, -⟩ := exists_left_of_rel (halike key) (Map.lookup_of_mem hcopies hmem)
      cases habsent
    exact ⟨[], Extra.run_eq_ok.2 ⟨hnone, rfl⟩, fun _ => .none⟩
  | ignored =>
    obtain rfl : kept = [] := Extra.run_eq_ok.1 hrun
    exact ⟨[], Extra.run_eq_ok.2 rfl, fun _ => .none⟩
  | @typed validator other hfollows =>
    obtain ⟨again, hagain, hsame⟩ :=
      hfollows.entries hcopies halike hheight (Extra.run_eq_ok.1 hrun)
    exact ⟨again, Extra.run_eq_ok.2 hagain, hsame⟩

namespace Validator

section Record

variable {fields others : List Field} (hfields : (fields.map Field.name).Nodup)
  (hfollows : ∀ other ∈ others, ∃ field ∈ fields, field.Follows other)
  {budget : Nat} {input output : Map Value}
  (hget : ∀ key, Option.Rel Value.Alike (input.get? key) (output.get? key))
  (hheight : ∀ entry ∈ input.entries, entry.2.height < budget)
  {declared : List (String × Value)}
  (hdeclared : (Field.run fields budget input).outcome = .ok declared)

include hfields hfollows hget hheight hdeclared

/-- A field in another place finds what its counterpart has found, and makes the same of it. -/
lemma Follows.field {other : Field} (hother : other ∈ others) :
    (∃ copy result again, output.get? other.name = some copy ∧
      Yields other.validator.run budget copy again ∧
      Map.lookup other.name declared = some result ∧ result.Alike again) ∨
    (output.get? other.name = none ∧ other.optional = true ∧
      Map.lookup other.name declared = none) := by
  obtain ⟨field, hfield, hmoved⟩ := hfollows other hother
  rw [← hmoved.name, ← hmoved.optional]
  obtain ⟨value, result, hvalue, hyields, hlookup⟩ | ⟨habsent, hmay, hlookup⟩ :=
    Field.lookup_of_run hfields hdeclared hfield
  · obtain ⟨copy, hcopy, hsame⟩ := exists_right_of_rel (hget field.name) hvalue
    have hlow := hheight _ (Map.mem_of_lookup hvalue)
    obtain ⟨again, hagain, hresult⟩ := hmoved.validator.yields hsame hlow hyields
    exact .inl ⟨copy, result, again, hcopy, hagain, hlookup, hresult⟩
  · exact .inr ⟨(eq_none_iff_of_rel (hget field.name)).1 habsent, hmay, hlookup⟩

/-- So all of them come to entries, which read equal under every name. -/
lemma Follows.exists_fields (hothers : (others.map Field.name).Nodup) :
    ∃ again, (Field.run others budget output).outcome = .ok again ∧
      ∀ other ∈ others, Option.Rel Value.Alike (Map.lookup other.name declared)
        (Map.lookup other.name again) := by
  have hfield (other : Field) (hother : other ∈ others) :=
    Follows.field hfields hfollows hget hheight hdeclared hother
  have hruns : ∃ again, (Field.run others budget output).outcome = .ok again := by
    apply Field.exists_run_eq_ok
    intro other hother
    obtain ⟨copy, -, again, hcopy, hyields, -, -⟩ | ⟨habsent, hoptional, -⟩ := hfield other hother
    · exact .inl ⟨copy, again, hcopy, hyields⟩
    · exact .inr ⟨habsent, hoptional⟩
  obtain ⟨again, hagain⟩ := hruns
  refine ⟨again, hagain, fun other hother => ?_⟩
  have hreads := Field.lookup_of_run hothers hagain hother
  obtain ⟨copy, result, found, hcopy, hyields, hlookup, hsame⟩ | ⟨habsent, -, hlookup⟩ :=
    hfield other hother
  · obtain ⟨copy', last, hcopy', hlast, hread⟩ | ⟨habsent, -, -⟩ := hreads
    · rw [hcopy] at hcopy'
      obtain rfl := Option.some.inj hcopy'
      obtain rfl := hyields.unique hlast
      rw [hlookup, hread]
      exact .some hsame
    · rw [hcopy] at habsent
      cases habsent
  · obtain ⟨copy, -, hcopy, -, -⟩ | ⟨-, -, hread⟩ := hreads
    · rw [habsent] at hcopy
      cases hcopy
    · rw [hlookup, hread]
      exact .none

end Record

/-- A record with its fields in another order accepts the entries in another order. -/
lemma Follows.record {fields others : List Field} {extra other : Extra}
    (hfields : (fields.map Field.name).Nodup) (hothers : (others.map Field.name).Nodup)
    (hnames : ∀ name, name ∈ others.map Field.name ↔ name ∈ fields.map Field.name)
    (hfollows : ∀ other ∈ others, ∃ field ∈ fields, field.Follows other)
    (hextra : extra.Follows other) : (record fields extra).Follows (record others other) := by
  intro budget raw copy value halike hheight hrun
  obtain ⟨input, declared, kept, rfl, hdeclared, hkept, rfl⟩ := run_record_eq_ok.1 hrun
  obtain ⟨output, rfl, hinput, houtput, hget⟩ := halike.exists_mapping
  have hlow : ∀ entry ∈ input.entries, entry.2.height < budget := by
    intro entry hentry
    have hbelow := (Value.HasPart.entry hentry).height_lt
    omega
  obtain ⟨declared', hdeclared', hsame⟩ :=
    Follows.exists_fields hfields hfollows hget hlow hdeclared hothers
  have hrest : ∀ entry ∈ Field.undeclared fields input, entry.2.height < budget := by
    intro entry hentry
    exact hlow entry (Field.mem_undeclared.1 hentry).1
  obtain ⟨kept', hkept', hextras⟩ := hextra.run (Field.nodup_undeclared others houtput)
    (Field.rel_undeclared hnames hget) hrest hkept
  refine ⟨_, run_record_eq_ok.2 ⟨output, declared', kept', rfl, hdeclared', hkept', rfl⟩,
    Value.alike_mapping_iff.2 ⟨Map.nodup_keys_ofList _, Map.nodup_keys_ofList _, fun key => ?_⟩⟩
  by_cases hkey : key ∈ fields.map Field.name
  · obtain ⟨found, hfound, rfl⟩ := List.mem_map.1 ((hnames key).2 hkey)
    obtain ⟨field, hfield, hmoved⟩ := hfollows found hfound
    rw [Field.get?_result hothers hdeclared' hkept' hfound, ← hmoved.name,
      Field.get?_result hfields hdeclared hkept hfield, hmoved.name]
    exact hsame found hfound
  · have hother : key ∉ others.map Field.name := fun hmem => hkey ((hnames key).1 hmem)
    rw [Field.get?_result_of_undeclared hfields hdeclared hkept hinput hkey,
      Field.get?_result_of_undeclared hothers hdeclared' hkept' houtput hother]
    exact hextras key

/-- Records follow each other when their fields do, up to the order. -/
lemma follows_of_perm {fields middle others : List Field} {extra other : Extra}
    (hfields : (fields.map Field.name).Nodup)
    (hpairs : List.Forall₂ (fun field moved => field.Follows moved ∧ moved.Follows field)
      fields middle)
    (hperm : middle.Perm others) (hextras : extra.Follows other ∧ other.Follows extra) :
    (record fields extra).Follows (record others other) ∧
      (record others other).Follows (record fields extra) := by
  have hkept : middle.map Field.name = fields.map Field.name := by
    rw [← List.forall₂_eq_eq_eq, List.forall₂_map_left_iff, List.forall₂_map_right_iff]
    exact hpairs.flip.imp fun moved field hpair => hpair.2.name
  have hnames : (others.map Field.name).Perm (fields.map Field.name) :=
    hkept ▸ (hperm.map Field.name).symm
  have hothers : (others.map Field.name).Nodup := hnames.nodup_iff.2 hfields
  constructor
  · refine .record hfields hothers (fun _ => hnames.mem_iff) ?_ hextras.1
    intro moved hmoved
    obtain ⟨field, hfield, hforth, -⟩ := exists_left_of_forall₂ hpairs (hperm.mem_iff.2 hmoved)
    exact ⟨field, hfield, hforth⟩
  · refine .record hothers hfields (fun _ => hnames.mem_iff.symm) ?_ hextras.2
    intro field hfield
    obtain ⟨moved, hmoved, -, hback⟩ := exists_left_of_forall₂ hpairs.flip hfield
    exact ⟨moved, hperm.mem_iff.1 hmoved, hback⟩

/-! ## All validators -/

/-- A validator and any rearrangement of it follow each other. -/
lemma Rearranged.follows {validator other : Validator} (h : validator.Rearranged other)
    (hfields : validator.Everywhere HasDistinctFields)
    (hrespects : validator.Everywhere RespectsEquality) :
    validator.Follows other ∧ other.Follows validator := by
  -- The relation holds lists of itself, so induction is on the validator and not on the relation.
  induction validator generalizing other with
  | primitive kind =>
    cases h
    exact ⟨.primitive kind, .primitive kind⟩
  | record fields extra ihFields ihExtra =>
    cases h with
    | @record _ middle others _ other hmiddle hperm hextra =>
      have hpairs : List.Forall₂ (fun field moved => field.Follows moved ∧ moved.Follows field)
          fields middle := by
        apply forall₂_imp_of_mem hmiddle
        rintro field hfield moved ⟨name, optional, hvalidator⟩
        obtain ⟨hforth, hback⟩ :=
          ihFields _ hfield hvalidator (hfields.field hfield) (hrespects.field hfield)
        exact ⟨⟨rfl, rfl, hforth⟩, ⟨rfl, rfl, hback⟩⟩
      have hextras : extra.Follows other ∧ other.Follows extra := by
        cases hextra with
        | closed => exact ⟨.closed, .closed⟩
        | ignored => exact ⟨.ignored, .ignored⟩
        | typed hvalidator =>
          obtain ⟨hforth, hback⟩ := ihExtra _ rfl hvalidator hfields.extra hrespects.extra
          exact ⟨.typed hforth, .typed hback⟩
      exact follows_of_perm hfields.here hpairs hperm hextras
  | subtype base constraints ih =>
    cases h with
    | subtype _ hbase =>
      obtain ⟨hforth, hback⟩ := ih hbase hfields.base hrespects.base
      exact ⟨hforth.subtype hrespects.here, hback.subtype hrespects.here⟩
  | array element ih =>
    cases h with
    | array helement =>
      obtain ⟨hforth, hback⟩ := ih helement hfields.element hrespects.element
      exact ⟨hforth.array, hback.array⟩
  | choice alternatives ih =>
    cases h with
    | @choice _ others hothers =>
      have hboth : List.Forall₂ (fun first other => first.Follows other ∧ other.Follows first)
          alternatives others := by
        apply forall₂_imp_of_mem hothers
        intro first hfirst other hother
        exact ih first hfirst hother (hfields.alternative hfirst) (hrespects.alternative hfirst)
      exact ⟨.choice hboth, .choice (hboth.flip.imp fun _ _ => And.symm)⟩

/-- **Order does not matter.**  A rearranged validator on an equal value comes to an equal result,
or both fail. -/
theorem validateWith_rearranged {validator other : Validator} (h : validator.Rearranged other)
    (hfields : validator.Everywhere HasDistinctFields)
    (hrespects : validator.Everywhere RespectsEquality) {raw copy : Value}
    (hraw : raw.WellFormed) (hcopy : copy.WellFormed) (hequal : (raw == copy) = true)
    {config : Config} (hheight : raw.height ≤ config.maxDepth) (root place : String) :
    (∃ value again, validator.validateWith config root raw = .ok value ∧
      other.validateWith config place copy = .ok again ∧ (value == again) = true) ∨
    (∃ error fault, validator.validateWith config root raw = .error error ∧
      other.validateWith config place copy = .error fault) := by
  have halike : raw.Alike copy := ⟨hraw, hcopy, hequal⟩
  obtain ⟨hforth, hback⟩ := h.follows hfields hrespects
  cases hfirst : validator.validateWith config root raw with
  | ok value =>
    obtain ⟨again, hagain, hsame⟩ :=
      hforth _ raw copy value halike hheight (validateWith_eq_ok.1 hfirst)
    exact .inl ⟨value, again, rfl, validateWith_eq_ok.2 hagain, hsame.equal⟩
  | error error =>
    cases hsecond : other.validateWith config place copy with
    | ok again =>
      rw [halike.height_eq] at hheight
      obtain ⟨value, hvalue, -⟩ :=
        hback _ copy raw again halike.symm hheight (validateWith_eq_ok.1 hsecond)
      rw [validateWith_eq_ok.2 hvalue] at hfirst
      cases hfirst
    | error fault => exact .inr ⟨error, fault, rfl, rfl⟩

end Validator

/-- A test of integers gives the same answer on values that are equal. -/
lemma Predicate.respectsEquality_integer (message : String) (comparison : Comparison)
    (bound : Int) : (constraint message (.integer comparison bound)).RespectsEquality := by
  intro a b halike
  have hsame : a.integer? = b.integer? := by
    cases a with
    | integer number =>
      obtain rfl := Value.eq_of_beq halike.equal nofun nofun nofun
      rfl
    | _ => cases b <;> first | rfl | cases halike.tag_eq
  show a.integer?.any _ = b.integer?.any _
  rw [hsame]

/-- A side is not negative. -/
def Validator.side : Validator :=
  subtype (primitive .integer) [Predicate.constraint "negative" (.integer .ge 0)]

/-- A parcel has an address, a size and a weight, and may have marks and notes. -/
def Validator.parcel : Validator :=
  record [⟨"to", primitive .string, false⟩,
      ⟨"size", record [⟨"width", side, false⟩, ⟨"depth", side, false⟩] .closed, false⟩,
      ⟨"weight", primitive .float, false⟩]
    (.typed (choice [primitive .boolean, primitive .string]))

/-- The fields of a parcel in another order. -/
def Validator.parcelRearranged : Validator :=
  record [⟨"weight", primitive .float, false⟩,
      ⟨"size", record [⟨"depth", side, false⟩, ⟨"width", side, false⟩] .closed, false⟩,
      ⟨"to", primitive .string, false⟩]
    (.typed (choice [primitive .boolean, primitive .string]))

lemma Validator.rearranged_parcel : parcel.Rearranged parcelRearranged := by
  have hsize : (record [⟨"width", side, false⟩, ⟨"depth", side, false⟩] .closed).Rearranged
      (record [⟨"depth", side, false⟩, ⟨"width", side, false⟩] .closed) :=
    .record (.cons (.mk _ _ (.refl side)) (.cons (.mk _ _ (.refl side)) .nil)) (.swap _ _ _) .closed
  exact .record (.cons (.mk _ _ (.refl _)) (.cons (.mk _ _ hsize) (.cons (.mk _ _ (.refl _)) .nil)))
    (List.reverse_perm _).symm (.typed (.refl _))

/-- A parcel whose weight is not known yet. -/
def Value.parcel : Value :=
  .mapping ⟨[("fragile", .string "true"), ("to", .string "Rome"), ("weight", .float 0),
    ("size", .mapping ⟨[("width", .string "2"), ("depth", .integer 3)]⟩)]⟩

/-- The same parcel, with its keys in another order and the other zero. -/
def Value.parcelReordered : Value :=
  .mapping ⟨[("size", .mapping ⟨[("depth", .integer 3), ("width", .string "2")]⟩),
    ("weight", .float (-0)), ("to", .string "Rome"), ("fragile", .string "true")]⟩

theorem Validator.validateWith_rearranged_parcel :
    (Value.parcel == Value.parcelReordered) = true ∧
    ∃ value again, parcel.validateWith ⟨2, .summary⟩ "$" .parcel = .ok value ∧
      parcelRearranged.validateWith ⟨2, .summary⟩ "parcel" .parcelReordered = .ok again ∧
      (value == again) = true := by
  have hfields : parcel.Everywhere HasDistinctFields := by
    simp [parcel, side, Everywhere, Field.Everywhere, Extra.Everywhere, AllEverywhere,
      HasDistinctFields]
  have hrespects : parcel.Everywhere RespectsEquality := by
    have hside := Predicate.respectsEquality_integer "negative" .ge 0
    simpa [parcel, side, Everywhere, Field.Everywhere, Extra.Everywhere, AllEverywhere,
      RespectsEquality] using hside
  have hraw : Value.parcel.WellFormed := by
    simp [Value.parcel, Value.WellFormed, Value.WellFormedEntries]
  have hcopy : Value.parcelReordered.WellFormed := by
    simp [Value.parcelReordered, Value.WellFormed, Value.WellFormedEntries]
  have hequal : (Value.parcel == Value.parcelReordered) = true := rfl
  have hheight : Value.parcel.height ≤ (⟨2, .summary⟩ : Config).maxDepth := by decide
  have haccepts : ∃ value, parcel.validateWith ⟨2, .summary⟩ "$" .parcel = .ok value := ⟨_, rfl⟩
  obtain hboth | ⟨error, fault, hfails, -⟩ := validateWith_rearranged rearranged_parcel hfields
    hrespects hraw hcopy hequal hheight "$" "parcel"
  · exact ⟨hequal, hboth⟩
  · obtain ⟨value, hvalue⟩ := haccepts
    rw [hvalue] at hfails
    cases hfails

end Conform
