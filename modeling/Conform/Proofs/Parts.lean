import Conform.Validation
import Mathlib.Order.Lattice

/-!
# Parts and heights

A run goes from a value to one of its parts, and from a validator to the one that is put to this
part, both by the same step.  `Value.HasPart` and `Validator.Visits` are the two sides of it.

The height of a value is the largest number of steps down that it can serve; the height of a
validator is the largest number that it can ask for.  Every step down makes both smaller.
-/

namespace Conform

/-! ## Steps down -/

/-- One step down in a value stands a part of it. -/
inductive Value.HasPart : Value → Segment → Value → Prop where
  | entry {map : Map Value} {key : String} {part : Value} :
    (key, part) ∈ map.entries → HasPart (.mapping map) (.key key) part
  | item {items : List Value} {index : Nat} {part : Value} :
    items[index]? = some part → HasPart (.sequence items) (.index index) part

lemma Value.exists_hasPart {items : List Value} {item : Value} (h : item ∈ items) :
    ∃ index, HasPart (.sequence items) (.index index) item := by
  obtain ⟨index, hindex⟩ := List.mem_iff_getElem?.1 h
  exact ⟨index, .item hindex⟩

/-- One step down a validator goes on with another one. -/
inductive Validator.Visits : Validator → Segment → Validator → Prop where
  | field {fields : List Field} {extra : Extra} {field : Field} :
    field ∈ fields → Visits (record fields extra) (.key field.name) field.validator
  | extra {fields : List Field} {validator : Validator} {key : String} :
    key ∉ fields.map Field.name → Visits (record fields (.typed validator)) (.key key) validator
  | element {element : Validator} (index : Nat) : Visits (array element) (.index index) element

/-! ## Heights

Scalars and empty containers have height zero, other containers one more than the highest of their
parts.  A validator has the height of the values that it can go all the way through: arrays and
records that have a validator for a part add a step to the highest of them, the other shapes add
none. -/

mutual

/-- How many steps down there are in a value at most. -/
def Value.height : Value → Nat
  | .sequence items => Value.heightOfItems items
  | .mapping ⟨entries⟩ => Value.heightOfEntries entries
  | _ => 0

/-- How many steps down there are from a sequence with these items. -/
def Value.heightOfItems : List Value → Nat
  | [] => 0
  | item :: items => max (item.height + 1) (Value.heightOfItems items)

/-- How many steps down there are from a mapping with these entries. -/
def Value.heightOfEntries : List (String × Value) → Nat
  | [] => 0
  | (_, value) :: entries => max (value.height + 1) (Value.heightOfEntries entries)

end

mutual

/-- How many steps down a validator can ask for. -/
def Validator.height : Validator → Nat
  | .primitive _ => 0
  | .record fields extra => max (Field.height fields) extra.height
  | .subtype base _ => base.height
  | .array element => element.height + 1
  | .choice alternatives => Validator.heightOfAlternatives alternatives

/-- How many steps down the fields of a record can ask for. -/
def Field.height : List Field → Nat
  | [] => 0
  | ⟨_, validator, _⟩ :: fields => max (validator.height + 1) (Field.height fields)

/-- How many steps down the extras of a record can ask for. -/
def Extra.height : Extra → Nat
  | .closed => 0
  | .ignored => 0
  | .typed validator => validator.height + 1

/-- How many steps down some alternatives can ask for. -/
def Validator.heightOfAlternatives : List Validator → Nat
  | [] => 0
  | validator :: others => max validator.height (Validator.heightOfAlternatives others)

end

lemma Value.HasPart.height_lt {raw part : Value} {segment : Segment}
    (h : raw.HasPart segment part) : part.height < raw.height := by
  cases h with
  | @entry map key part hentry =>
    obtain ⟨entries⟩ := map
    show part.height < heightOfEntries entries
    induction entries with
    | nil => cases hentry
    | cons first others ih =>
      rw [heightOfEntries]
      obtain rfl | hothers := List.mem_cons.1 hentry
      · show part.height < max (part.height + 1) _
        omega
      · have := ih hothers
        omega
  | @item items index part hitem =>
    have hmem : part ∈ items := List.mem_of_getElem? hitem
    show part.height < heightOfItems items
    induction items generalizing index with
    | nil => cases hmem
    | cons first others ih =>
      rw [heightOfItems]
      obtain rfl | hothers := List.mem_cons.1 hmem
      · omega
      · obtain ⟨index, hindex⟩ := List.mem_iff_getElem?.1 hothers
        have := ih hindex hothers
        omega

/-- A value is no higher than its parts make it. -/
lemma Value.height_le {raw : Value} {bound : Nat}
    (h : ∀ segment part, raw.HasPart segment part → part.height < bound) : raw.height ≤ bound := by
  cases raw with
  | sequence items =>
    have hitems : ∀ item ∈ items, item.height < bound := by
      intro item hitem
      obtain ⟨index, hpart⟩ := exists_hasPart hitem
      exact h (.index index) item hpart
    show heightOfItems items ≤ bound
    clear h
    induction items with
    | nil => exact Nat.zero_le bound
    | cons item items ih =>
      rw [List.forall_mem_cons] at hitems
      exact Nat.max_le.2 ⟨hitems.1, ih hitems.2⟩
  | mapping map =>
    obtain ⟨entries⟩ := map
    have hentries : ∀ entry ∈ entries, entry.2.height < bound := fun entry hentry =>
      h (.key entry.1) entry.2 (.entry hentry)
    show heightOfEntries entries ≤ bound
    clear h
    induction entries with
    | nil => exact Nat.zero_le bound
    | cons entry entries ih =>
      rw [List.forall_mem_cons] at hentries
      exact Nat.max_le.2 ⟨hentries.1, ih hentries.2⟩
  | _ => exact Nat.zero_le bound

lemma Validator.Visits.height_lt {validator inner : Validator} {segment : Segment}
    (h : validator.Visits segment inner) : inner.height < validator.height := by
  cases h with
  | @field fields extra field hfield =>
    have hfields : field.validator.height < Field.height fields := by
      induction fields with
      | nil => cases hfield
      | cons first others ih =>
        obtain ⟨name, validator, optional⟩ := first
        rw [Field.height]
        obtain rfl | hothers := List.mem_cons.1 hfield
        · show validator.height < max (validator.height + 1) _
          omega
        · have := ih hothers
          omega
    rw [height]
    omega
  | extra =>
    rw [height, Extra.height]
    omega
  | element =>
    rw [height]
    omega

lemma Validator.height_alternative_le {first : Validator} {alternatives : List Validator}
    (h : first ∈ alternatives) : first.height ≤ (choice alternatives).height := by
  show first.height ≤ heightOfAlternatives alternatives
  induction alternatives with
  | nil => cases h
  | cons validator others ih =>
    rw [heightOfAlternatives]
    obtain rfl | hothers := List.mem_cons.1 h
    · omega
    · have := ih hothers
      omega

end Conform
