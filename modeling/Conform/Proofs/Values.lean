import Conform.Proofs.Parts

/-!
# Values as trees

A value is a tree whose containers hold lists of smaller values.  `Value.induction` lets one assume
a statement of all parts of a container when it is to be shown of the container.  A condition that
is met at every depth of a value is one rule that holds everywhere in it (`Value.Everywhere`).
-/

namespace Conform.Value

/-! ## Induction -/

/-- To prove a statement of every value, prove it of scalars, and of containers from what holds of
their parts. -/
@[elab_as_elim, induction_eliminator]
theorem induction {motive : Value → Prop} (string : ∀ text, motive (.string text))
    (integer : ∀ number, motive (.integer number)) (float : ∀ number, motive (.float number))
    (boolean : ∀ truth, motive (.boolean truth)) (null : motive .null)
    (sequence : ∀ items, (∀ item ∈ items, motive item) → motive (.sequence items))
    (mapping : ∀ map : Map Value, (∀ entry ∈ map.entries, motive entry.2) → motive (.mapping map))
    (timestamp : ∀ stamp, motive (.timestamp stamp)) : ∀ value, motive value :=
  -- The recursor asks for one motive for each type it goes through: values, mappings, lists of
  -- values, lists of entries and entries.
  @Value.rec motive (fun items => ∀ item ∈ items, motive item)
    (fun map => ∀ entry ∈ map.entries, motive entry.2)
    (fun entries => ∀ entry ∈ entries, motive entry.2)
    (fun entry => motive entry.2)
    string integer float boolean null sequence mapping timestamp
    (fun _ h => by cases h)
    (fun _ _ ihHead ihTail => List.forall_mem_cons.2 ⟨ihHead, ihTail⟩)
    (fun _ ih => ih)
    (fun _ h => by cases h)
    (fun _ _ ihHead ihTail => List.forall_mem_cons.2 ⟨ihHead, ihTail⟩)
    (fun _ _ ih => ih)

/-! ## Rules for every part -/

mutual

/-- A rule holds of a value and of every value inside it. -/
def Everywhere (rule : Value → Prop) : Value → Prop
  | sequence items => rule (sequence items) ∧ EverywhereInItems rule items
  | mapping ⟨entries⟩ => rule (mapping ⟨entries⟩) ∧ EverywhereInEntries rule entries
  | value => rule value

/-- A rule holds everywhere in all items. -/
def EverywhereInItems (rule : Value → Prop) : List Value → Prop
  | [] => True
  | item :: items => item.Everywhere rule ∧ EverywhereInItems rule items

/-- A rule holds everywhere in the values of all entries. -/
def EverywhereInEntries (rule : Value → Prop) : List (String × Value) → Prop
  | [] => True
  | (_, value) :: entries => value.Everywhere rule ∧ EverywhereInEntries rule entries

end

lemma everywhereInItems_iff (rule : Value → Prop) (items : List Value) :
    EverywhereInItems rule items ↔ ∀ item ∈ items, item.Everywhere rule := by
  induction items with
  | nil => simp [EverywhereInItems]
  | cons item items ih => simp [EverywhereInItems, ih]

lemma everywhereInEntries_iff (rule : Value → Prop) (entries : List (String × Value)) :
    EverywhereInEntries rule entries ↔ ∀ entry ∈ entries, entry.2.Everywhere rule := by
  induction entries with
  | nil => simp [EverywhereInEntries]
  | cons entry entries ih => simp [EverywhereInEntries, ih]

section Everywhere

variable {rule : Value → Prop}

lemma Everywhere.here {value : Value} (h : value.Everywhere rule) : rule value := by
  cases value with
  | sequence items => exact h.1
  | mapping map => exact h.1
  | _ => exact h

lemma Everywhere.part {raw part : Value} {segment : Segment} (h : raw.Everywhere rule)
    (hpart : raw.HasPart segment part) : part.Everywhere rule := by
  cases hpart with
  | @entry map key part hentry =>
    exact (everywhereInEntries_iff rule map.entries).1 h.2 (key, part) hentry
  | @item items index part hitem =>
    exact (everywhereInItems_iff rule items).1 h.2 part (List.mem_of_getElem? hitem)

end Everywhere

end Conform.Value
