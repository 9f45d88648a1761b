import Conform.Proofs.Trees
import Conform.Report
import Mathlib.Data.List.Induction
import Mathlib.Data.List.Nodup

/-!
# The declarations of a record

A record is declared by a list of fields, in which a name may come more than once.  Of the two ways
to build it one keeps the first field of each name and warns of every other field, and the other
refuses the list at the first field whose name has come before (`Validator.schema_laws`).  On a list
without repetitions the two build the same record.

Which fields are first of their name is said by place: `Field.preceded` pairs every field with all
that stand before it.  The loops are compared with it field by field, each behind what comes first.
-/

namespace Conform

namespace Field

/-- Each field with the fields before it. -/
def preceded (fields : List Field) : List (Field × List Field) :=
  fields.zipIdx.map fun entry => (entry.1, fields.take entry.2)

/-- The fields whose names no field before them has. -/
def fresh (fields : List Field) : List Field :=
  ((preceded fields).filter fun entry => entry.1.name ∉ entry.2.map name).map Prod.fst

/-- The fields whose names a field before them has. -/
def repeated (fields : List Field) : List Field :=
  ((preceded fields).filter fun entry => entry.1.name ∈ entry.2.map name).map Prod.fst

/-- The fields of a list with the fields before them, when the list continues another one. -/
def precededFrom (before fields : List Field) : List (Field × List Field) :=
  (fields.zipIdx before.length).map fun entry => (entry.1, (before ++ fields).take entry.2)

lemma preceded_eq (fields : List Field) : preceded fields = precededFrom [] fields := rfl

lemma precededFrom_cons (before : List Field) (field : Field) (fields : List Field) :
    precededFrom before (field :: fields) =
      (field, before) :: precededFrom (before ++ [field]) fields := by
  have htake : (before ++ field :: fields).take before.length = before := List.take_left
  have hjoin : before ++ field :: fields = before ++ [field] ++ fields := by simp
  rw [precededFrom, List.zipIdx_cons, List.map_cons, htake, hjoin, precededFrom,
    List.length_append]
  rfl

lemma precededFrom_append (before front back : List Field) :
    precededFrom before (front ++ back) =
      precededFrom before front ++ precededFrom (before ++ front) back := by
  induction front generalizing before with
  | nil =>
    rw [List.append_nil]
    rfl
  | cons field front ih =>
    rw [List.cons_append, precededFrom_cons, ih, precededFrom_cons, List.append_assoc]
    rfl

/-! ## The fields that are kept -/

/-- Behind other fields, those are kept whose names are new. -/
lemma filter_firsts (before fields : List Field) :
    (firsts fields).filter (fun field => field.name ∉ before.map name) =
      ((precededFrom before fields).filter fun entry =>
        entry.1.name ∉ entry.2.map name).map Prod.fst := by
  induction fields generalizing before with
  | nil => rfl
  | cons field fields ih =>
    -- A later field passes here when it has neither this name nor one from before.
    have hlater : ((firsts fields).filter fun other => other.name ≠ field.name).filter
        (fun other => other.name ∉ before.map name) =
          (firsts fields).filter fun other => other.name ∉ (before ++ [field]).map name := by
      rw [List.filter_filter]
      apply List.filter_congr
      intro other _
      rw [Bool.eq_iff_iff]
      simp [not_or]
    rw [firsts, precededFrom_cons, List.filter_cons, List.filter_cons, hlater, ih]
    split
    · rfl
    · rfl

lemma firsts_eq_fresh (fields : List Field) : firsts fields = fresh fields := by
  have hall : (firsts fields).filter (fun field => field.name ∉ ([] : List Field).map name) =
      firsts fields := List.filter_eq_self.2 (by simp)
  rw [← hall, filter_firsts]
  rfl

lemma mem_names_firsts {fields : List Field} {wanted : String} :
    wanted ∈ (firsts fields).map name ↔ wanted ∈ fields.map name := by
  induction fields with
  | nil => rfl
  | cons field fields ih =>
    rw [firsts, List.map_cons, List.map_cons, List.mem_cons, List.mem_cons, ← ih]
    by_cases hsame : wanted = field.name
    · exact iff_of_true (.inl hsame) (.inl hsame)
    · rw [or_iff_right hsame, or_iff_right hsame, List.mem_map, List.mem_map]
      constructor
      · rintro ⟨other, hother, rfl⟩
        exact ⟨other, (List.mem_filter.1 hother).1, rfl⟩
      · rintro ⟨other, hother, rfl⟩
        exact ⟨other, List.mem_filter.2 ⟨hother, decide_eq_true hsame⟩, rfl⟩

lemma nodup_names_firsts (fields : List Field) : ((firsts fields).map name).Nodup :=
  Validator.hasDistinctFields_schema fields .closed

/-- Nothing is left out where nothing is repeated. -/
lemma firsts_of_nodup {fields : List Field} (h : (fields.map name).Nodup) :
    firsts fields = fields := by
  induction fields with
  | nil => rfl
  | cons field fields ih =>
    rw [List.map_cons, List.nodup_cons] at h
    rw [firsts, ih h.2, List.filter_eq_self.2]
    intro other hother
    exact decide_eq_true fun hsame => h.1 (hsame ▸ List.mem_map_of_mem hother)

/-! ## The fields that are left out -/

/-- Behind other fields, those are repeated whose names have come before. -/
lemma repeatsAfter_eq (before fields : List Field) {seen : List String}
    (hseen : ∀ wanted, wanted ∈ seen ↔ wanted ∈ before.map name) :
    repeatsAfter seen fields = (((precededFrom before fields).filter fun entry =>
      entry.1.name ∈ entry.2.map name).map Prod.fst).map name := by
  induction fields generalizing before seen with
  | nil => rfl
  | cons field fields ih =>
    have hnext (wanted : String) :
        wanted ∈ field.name :: seen ↔ wanted ∈ (before ++ [field]).map name := by
      rw [List.map_append, List.mem_append, ← hseen, List.mem_cons, or_comm]
      exact or_congr_right List.mem_singleton.symm
    rw [repeatsAfter, precededFrom_cons, List.filter_cons]
    by_cases hcame : field.name ∈ seen
    · have hsame (wanted : String) : wanted ∈ seen ↔ wanted ∈ (before ++ [field]).map name := by
        rw [← hnext, List.mem_cons]
        exact ⟨.inr, fun h => h.elim (fun heq => heq ▸ hcame) id⟩
      rw [if_pos hcame, if_pos (decide_eq_true ((hseen _).1 hcame)), ih _ hsame]
      rfl
    · have hnew : field.name ∉ before.map name := fun h => hcame ((hseen _).2 h)
      rw [if_neg hcame, if_neg (by simpa using hnew), ih _ hnext]

lemma repeats_eq_repeated (fields : List Field) :
    repeats fields = (repeated fields).map name :=
  repeatsAfter_eq [] fields fun _ => Iff.rfl

lemma repeatsAfter_eq_nil {seen : List String} {fields : List Field}
    (hnodup : (fields.map name).Nodup) (hnew : ∀ field ∈ fields, field.name ∉ seen) :
    repeatsAfter seen fields = [] := by
  induction fields generalizing seen with
  | nil => rfl
  | cons field fields ih =>
    rw [List.map_cons, List.nodup_cons] at hnodup
    rw [List.forall_mem_cons] at hnew
    rw [repeatsAfter, if_neg hnew.1]
    apply ih hnodup.2
    intro other hother hmem
    rcases List.mem_cons.1 hmem with hsame | hseen
    · exact hnodup.1 (hsame ▸ List.mem_map_of_mem hother)
    · exact hnew.2 other hother hseen

lemma repeats_eq_nil_iff {fields : List Field} :
    repeats fields = [] ↔ (fields.map name).Nodup :=
  ⟨fun h => (Validator.nodup_of_repeatsAfter_eq_nil h).1,
    fun h => repeatsAfter_eq_nil h fun _ _ => List.not_mem_nil⟩

/-- A list with a repetition falls apart at the first one. -/
lemma exists_first_repeated {fields : List Field} (h : ¬ (fields.map name).Nodup) :
    ∃ before field after, fields = before ++ field :: after ∧ (before.map name).Nodup ∧
      field.name ∈ before.map name := by
  induction fields using List.reverseRecOn with
  | nil => exact absurd List.nodup_nil h
  | append_singleton fields field ih =>
    by_cases hnodup : (fields.map name).Nodup
    · by_cases hcame : field.name ∈ fields.map name
      · exact ⟨fields, field, [], rfl, hnodup, hcame⟩
      · rw [List.map_append, List.nodup_append] at h
        refine absurd ⟨hnodup, List.nodup_singleton _, ?_⟩ h
        rintro wanted hwanted _ hlast rfl
        exact hcame (List.mem_singleton.1 hlast ▸ hwanted)
    · obtain ⟨before, first, after, rfl, hbefore, hcame⟩ := ih hnodup
      exact ⟨before, first, after ++ [field], by simp, hbefore, hcame⟩

/-- Behind distinct fields comes the first repetition, if the next name is among theirs. -/
lemma repeats_append {before : List Field} {field : Field} (hnodup : (before.map name).Nodup)
    (hcame : field.name ∈ before.map name) (after : List Field) :
    ∃ others, repeats (before ++ field :: after) = field.name :: others := by
  have hnone : repeated before = [] := by
    rw [← List.map_eq_nil_iff (f := name), ← repeats_eq_repeated, repeats_eq_nil_iff]
    exact hnodup
  have hsplit : preceded (before ++ field :: after) =
      preceded before ++ (field, before) :: precededFrom (before ++ [field]) after := by
    rw [preceded_eq, precededFrom_append, List.nil_append, precededFrom_cons, ← preceded_eq]
  rw [repeats_eq_repeated, repeated, hsplit, List.filter_append, List.map_append, ← repeated,
    hnone, List.nil_append, List.filter_cons, if_pos (decide_eq_true hcame)]
  exact ⟨_, rfl⟩

end Field

open Conform.Field

namespace Validator

lemma trySchema_eq_ok_iff {fields : List Field} {extra : Extra} {validator : Validator} :
    trySchema fields extra = .ok validator ↔
      (fields.map Field.name).Nodup ∧ validator = schema fields extra := by
  rw [← repeats_eq_nil_iff, trySchema]
  cases hrepeats : repeats fields with
  | nil =>
    rw [schema, firsts_of_nodup (repeats_eq_nil_iff.1 hrepeats), Except.ok.injEq, eq_comm]
    exact (and_iff_right rfl).symm
  | cons wanted others =>
    refine iff_of_false ?_ ?_
    · intro h
      cases h
    · rintro ⟨h, -⟩
      cases h

lemma trySchema_eq_error_iff {fields : List Field} {extra : Extra} {fault : Misconfiguration} :
    trySchema fields extra = .error fault ↔
      ∃ before field after, fields = before ++ field :: after ∧
        (before.map Field.name).Nodup ∧ field.name ∈ before.map Field.name ∧
        fault = .duplicateField field.name := by
  constructor
  · intro h
    have hrepeated : ¬ (fields.map Field.name).Nodup := by
      intro hnodup
      rw [trySchema_eq_ok_iff.2 ⟨hnodup, rfl⟩] at h
      cases h
    obtain ⟨before, field, after, rfl, hnodup, hcame⟩ := exists_first_repeated hrepeated
    obtain ⟨others, hrepeats⟩ := repeats_append hnodup hcame after
    rw [trySchema, hrepeats] at h
    exact ⟨before, field, after, rfl, hnodup, hcame, (Except.error.inj h).symm⟩
  · rintro ⟨before, field, after, rfl, hnodup, hcame, rfl⟩
    obtain ⟨others, hrepeats⟩ := repeats_append hnodup hcame after
    rw [trySchema, hrepeats]

/-- **Declaring a record.**  The lenient way keeps the first field of each name and warns of the
others; the strict way comes to the same record or names the first repetition. -/
theorem schema_laws (fields : List Field) (extra : Extra) :
    -- What is kept, and what is warned of.
    schema fields extra = record (fresh fields) extra ∧
    ((fresh fields).map Field.name).Nodup ∧
    (∀ name, name ∈ (fresh fields).map Field.name ↔ name ∈ fields.map Field.name) ∧
    Field.log fields = (repeated fields).map (fun field =>
      ⟨.warn, "Duplicate schema field '" ++ field.name ++ "' ignored"⟩) ∧
    -- The strict way, and what the lenient one does where it succeeds.
    (∀ validator, trySchema fields extra = .ok validator ↔
      (fields.map Field.name).Nodup ∧ validator = schema fields extra) ∧
    (Field.log fields = [] ↔ (fields.map Field.name).Nodup) ∧
    (∀ fault, trySchema fields extra = .error fault ↔
      ∃ before field after, fields = before ++ field :: after ∧
        (before.map Field.name).Nodup ∧ field.name ∈ before.map Field.name ∧
        fault = .duplicateField field.name) ∧
    -- The fields that are kept are kept again, without a warning.
    schema (fresh fields) extra = schema fields extra ∧ Field.log (fresh fields) = [] := by
  have hnodup := nodup_names_firsts fields
  have hlog (fields : List Field) : Field.log fields = [] ↔ (fields.map Field.name).Nodup := by
    rw [Field.log, List.map_eq_nil_iff, repeats_eq_nil_iff]
  rw [← firsts_eq_fresh]
  refine ⟨rfl, hnodup, fun name => mem_names_firsts, ?warnings, fun validator =>
    trySchema_eq_ok_iff, hlog fields, fun fault => trySchema_eq_error_iff, ?again,
    (hlog _).2 hnodup⟩
  case warnings =>
    rw [Field.log, repeats_eq_repeated, List.map_map]
    rfl
  case again =>
    rw [schema, firsts_of_nodup hnodup, schema]

/-- The warnings stand in the order of the fields that are left out, not name by name. -/
example : (Field.log [⟨"id", primitive .integer, false⟩, ⟨"note", primitive .string, true⟩,
      ⟨"id", primitive .string, false⟩, ⟨"note", primitive .any, true⟩,
      ⟨"id", primitive .any, true⟩]).map LogRecord.text =
    ["Duplicate schema field 'id' ignored", "Duplicate schema field 'note' ignored",
      "Duplicate schema field 'id' ignored"] := by decide

end Validator

end Conform
