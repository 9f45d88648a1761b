import Conform.Proofs.Outcome

/-!
# The mapping that a record comes to

The entries of the fields come first and keep the order of the fields; what is kept of the extras
stands behind them, under names that no field has.  So a declared name reads what its field came to,
and the undeclared entries of the result are the extras alone.
-/

namespace Conform

open Run

/-! ## Undeclared entries -/

/-- Entries that are related one by one, under the same keys, read related values. -/
lemma Map.rel_lookup {α β : Type} {related : α → β → Prop} {entries : List (String × α)}
    {results : List (String × β)}
    (h : List.Forall₂ (fun entry result => result.1 = entry.1 ∧ related entry.2 result.2)
      entries results) (key : String) :
    Option.Rel related (lookup key entries) (lookup key results) := by
  induction h with
  | nil => exact .none
  | @cons entry result _ _ hfirst _ ih =>
    obtain ⟨name, value⟩ := entry
    obtain ⟨name', value'⟩ := result
    obtain ⟨rfl, hvalues⟩ := hfirst
    by_cases hname : name' = key
    · simpa only [lookup, hname, if_true] using .some hvalues
    · simpa only [lookup, hname, if_false] using ih

lemma Field.lookup_undeclared (fields : List Field) (input : Map Value) (key : String) :
    Map.lookup key (Field.undeclared fields input) =
      if key ∈ fields.map Field.name then none else input.get? key := by
  rw [Field.undeclared, Map.lookup_filter fun name => !(fields.map Field.name).contains name]
  by_cases h : key ∈ fields.map Field.name <;> simp [h, Map.get?]

lemma Field.nodup_undeclared (fields : List Field) {input : Map Value}
    (h : input.keys.Nodup) : ((Field.undeclared fields input).map Prod.fst).Nodup :=
  h.sublist (List.filter_sublist.map Prod.fst)

/-- Entries that are related one by one to entries under the same keys have the same keys. -/
lemma Map.map_fst_eq_of_forall₂ {α β : Type} {related : String × α → String × β → Prop}
    {entries : List (String × α)} {results : List (String × β)}
    (h : List.Forall₂ (fun entry result => result.1 = entry.1 ∧ related entry result)
      entries results) : results.map Prod.fst = entries.map Prod.fst := by
  induction h with
  | nil => rfl
  | cons hfirst _ ih => rw [List.map_cons, List.map_cons, hfirst.1, ih]

/-- Every extra that is kept keeps its key. -/
lemma Extra.mem_names_of_run {extra : Extra} {budget : Nat}
    {entries kept : List (String × Value)} (h : (extra.run budget entries).outcome = .ok kept) :
    (kept.map Prod.fst).Sublist (entries.map Prod.fst) := by
  rw [Extra.run_eq_ok] at h
  cases extra with
  | closed => simp [h.2]
  | ignored => simp [show kept = [] from h]
  | typed validator =>
    rw [Map.map_fst_eq_of_forall₂ h]

/-! ## Results -/

section Record

variable {fields : List Field} {extra : Extra} {budget : Nat} {input : Map Value}
  {declared kept : List (String × Value)}

/-- An extra that is kept comes from an entry whose key no field declares. -/
lemma Extra.exists_of_mem_kept
    (h : (extra.run budget (Field.undeclared fields input)).outcome = .ok kept)
    {entry : String × Value} (hentry : entry ∈ kept) :
    entry.1 ∉ fields.map Field.name ∧ ∃ validator value, extra = .typed validator ∧
      (entry.1, value) ∈ input.entries ∧ Yields validator.run budget value entry.2 := by
  rw [Extra.run_eq_ok] at h
  cases extra with
  | closed => simp [h.2] at hentry
  | ignored => simp [show kept = [] from h] at hentry
  | typed validator =>
    obtain ⟨⟨key, value⟩, hraw, hkey, hyields⟩ := exists_left_of_forall₂ h hentry
    obtain ⟨hmem, hundeclared⟩ := Field.mem_undeclared.1 hraw
    rw [hkey]
    exact ⟨hundeclared, validator, value, rfl, hmem, hyields⟩

variable (hnames : (fields.map Field.name).Nodup)
  (hdeclared : (Field.run fields budget input).outcome = .ok declared)
  (hkept : (extra.run budget (Field.undeclared fields input)).outcome = .ok kept)

include hnames hdeclared hkept

lemma Field.entries_result :
    (Map.ofList (declared ++ kept)).entries = declared ++ (Map.ofList kept).entries := by
  have hsub := Field.mem_names_of_run hdeclared
  apply Map.entries_ofList_append (hnames.sublist hsub)
  intro pair hpair hmem
  exact (Extra.exists_of_mem_kept hkept hpair).1 (hsub.subset hmem)

/-- A declared name reads what its field came to. -/
lemma Field.get?_result {field : Field} (hfield : field ∈ fields) :
    (Map.ofList (declared ++ kept)).get? field.name = Map.lookup field.name declared := by
  have hnone : Map.lookup field.name (Map.ofList kept).entries = none := by
    apply Map.lookup_eq_none
    intro hmem
    obtain ⟨entry, hentry, heq⟩ := List.mem_map.1 hmem
    apply (Extra.exists_of_mem_kept hkept (Map.mem_of_mem_ofList hentry)).1
    rw [heq]
    exact List.mem_map_of_mem hfield
  rw [Map.get?, Field.entries_result hnames hdeclared hkept, Map.lookup_append, hnone,
    Option.or_none]

/-- An undeclared key reads what is kept under it. -/
lemma Field.get?_result_of_undeclared (hinput : input.keys.Nodup) {key : String}
    (hkey : key ∉ fields.map Field.name) :
    (Map.ofList (declared ++ kept)).get? key = Map.lookup key kept := by
  have hnone : Map.lookup key declared = none := by
    apply Map.lookup_eq_none
    intro hmem
    exact hkey ((Field.mem_names_of_run hdeclared).subset hmem)
  have hnodup : (kept.map Prod.fst).Nodup :=
    (Field.nodup_undeclared fields hinput).sublist (Extra.mem_names_of_run hkept)
  rw [Map.get?, Field.entries_result hnames hdeclared hkept, Map.lookup_append, hnone,
    Option.none_or, Map.ofList_of_nodup hnodup]

/-- Over a mapping with distinct keys the entries of the result are the ones that were gathered. -/
lemma Field.ofList_result (hinput : input.keys.Nodup) :
    Map.ofList (declared ++ kept) = ⟨declared ++ kept⟩ := by
  have hnodup : (kept.map Prod.fst).Nodup :=
    (Field.nodup_undeclared fields hinput).sublist (Extra.mem_names_of_run hkept)
  have hentries := Field.entries_result hnames hdeclared hkept
  rw [Map.ofList_of_nodup hnodup] at hentries
  exact congrArg Map.mk hentries

/-- The undeclared entries of the result are the extras that were kept. -/
lemma Field.undeclared_result :
    Field.undeclared fields (Map.ofList (declared ++ kept)) = (Map.ofList kept).entries := by
  have hsub := Field.mem_names_of_run hdeclared
  rw [Field.undeclared, Field.entries_result hnames hdeclared hkept, List.filter_append,
    List.filter_eq_nil_iff.2, List.nil_append, List.filter_eq_self]
  · intro entry hentry
    simpa using (Extra.exists_of_mem_kept hkept (Map.mem_of_mem_ofList hentry)).1
  · intro entry hentry
    have hname := hsub.subset (List.mem_map_of_mem hentry)
    simpa using hname

end Record

end Conform
