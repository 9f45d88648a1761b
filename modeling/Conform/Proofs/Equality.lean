import Conform.Proofs.Decimal.Finite
import Conform.Proofs.Location
import Conform.Proofs.Values

/-!
# Equal values

Equality of values is keyed (`Value.beq`): what stands under each key counts, and the order of the
keys does not.  The two zeros are equal too.  So equal values need not be the same, and what holds
of one has to be carried over to the other.

`Value.Alike` is equality between values that have distinct keys at every level; without that it
would not even be symmetric, because an entry whose key has come before is never read.  It goes
down to the parts (`Value.Alike.exists_part`) and comes up from them (`Value.alike_sequence_iff`,
`Value.alike_mapping_iff`).
-/

namespace Conform

/-! ## Optional values that are related -/

section Related

variable {α β : Type} {related : α → β → Prop} {left : Option α} {right : Option β}

lemma exists_right_of_rel (h : Option.Rel related left right) {a : α} (ha : left = some a) :
    ∃ b, right = some b ∧ related a b := by
  cases h with
  | none => cases ha
  | some hab =>
    obtain rfl := Option.some.inj ha
    exact ⟨_, rfl, hab⟩

lemma exists_left_of_rel (h : Option.Rel related left right) {b : β} (hb : right = some b) :
    ∃ a, left = some a ∧ related a b := by
  cases h with
  | none => cases hb
  | some hab =>
    obtain rfl := Option.some.inj hb
    exact ⟨_, rfl, hab⟩

lemma rel_flip (h : Option.Rel related left right) : Option.Rel (flip related) right left := by
  cases h with
  | none => exact .none
  | some hab => exact .some hab

lemma rel_imp {other : α → β → Prop} (h : Option.Rel related left right)
    (himp : ∀ a b, left = some a → right = some b → related a b → other a b) :
    Option.Rel other left right := by
  cases h with
  | none => exact .none
  | some hab => exact .some (himp _ _ rfl rfl hab)

lemma eq_none_iff_of_rel (h : Option.Rel related left right) : left = none ↔ right = none := by
  cases h <;> simp

end Related

namespace Value

/-! ## Numbers -/

section Numbers

open Float.Model

variable {u v : UnpackedFloat}

lemma compare_self (h : u ≠ .notANumber) : u.compare u = some .eq := by
  cases u with
  | notANumber => exact absurd rfl h
  | infinity s => cases s <;> rfl
  | zero s => rfl
  | finite s m e hm =>
    have hsame : (compare e e).then (compare m m) = .eq :=
      Ordering.then_eq_eq.2 ⟨Std.compare_self, Std.compare_self⟩
    cases s with
    | positive => exact congrArg some hsame
    | negative => exact congrArg (fun order => some order.swap) hsame

lemma eq_of_then_eq {m n : Nat} {e f : Int} (h : (compare e f).then (compare m n) = .eq) :
    m = n ∧ e = f := by
  obtain ⟨hexponent, hmantissa⟩ := Ordering.then_eq_eq.1 h
  exact ⟨Std.compare_eq_iff_eq.1 hmantissa, Std.compare_eq_iff_eq.1 hexponent⟩

/-- Numbers are equal when they are the same one, and zeros whatever their signs. -/
lemma compare_eq_iff :
    u.compare v = some .eq ↔ (u = v ∧ u ≠ .notANumber) ∨ ∃ s t, u = .zero s ∧ v = .zero t := by
  constructor
  · -- Only numbers of one kind and one sign can be equal, and then their digits decide.
    intro h
    cases u with
    | notANumber => cases h
    | infinity s =>
      cases v with
      | infinity t =>
        obtain rfl : s = t := by cases s <;> cases t <;> first | rfl | cases h
        exact .inl ⟨rfl, nofun⟩
      | _ => cases s <;> cases h
    | zero s =>
      cases v with
      | zero t => exact .inr ⟨s, t, rfl, rfl⟩
      | notANumber => cases h
      | infinity t | finite t => cases t <;> cases h
    | finite s =>
      cases v with
      | notANumber => cases h
      | zero t => cases s <;> cases h
      | infinity t => cases s <;> cases t <;> cases h
      | finite t =>
        cases s with
        | positive =>
          cases t with
          | negative => cases h
          | positive =>
            obtain ⟨rfl, rfl⟩ := eq_of_then_eq (Option.some.inj h)
            exact .inl ⟨rfl, nofun⟩
        | negative =>
          cases t with
          | positive => cases h
          | negative =>
            obtain ⟨rfl, rfl⟩ := eq_of_then_eq (Ordering.swap_inj.1 (Option.some.inj h))
            exact .inl ⟨rfl, nofun⟩
  · rintro (⟨rfl, hnumber⟩ | ⟨s, t, rfl, rfl⟩)
    · exact compare_self hnumber
    · rfl

end Numbers

lemma float_beq_iff {a b : Float} :
    (a == b) = true ↔ a.toModel.unpack.compare b.toModel.unpack = some .eq := by
  show (a.toModel.unpack.compare b.toModel.unpack == some .eq) = true ↔ _
  exact beq_iff_eq

lemma float_beq_symm {a b : Float} (h : (a == b) = true) : (b == a) = true := by
  rw [float_beq_iff, compare_eq_iff] at h ⊢
  obtain ⟨hsame, hnumber⟩ | ⟨s, t, ha, hb⟩ := h
  · rw [← hsame]
    exact .inl ⟨rfl, hnumber⟩
  · exact .inr ⟨t, s, hb, ha⟩

lemma float_beq_self {number : Float} (h : number.isFinite = true) :
    (number == number) = true := by
  refine float_beq_iff.2 (compare_self fun hnan => ?_)
  have hfinite : number.toModel.unpack.isFinite = true := h
  rw [hnan] at hfinite
  cases hfinite

/-! ## Containers -/

lemma tag_eq_of_beq {a b : Value} (h : (a == b) = true) : a.tag = b.tag := by
  cases a <;> cases b <;> first | rfl | cases h

/-- Only floats and containers can be equal to others than themselves. -/
lemma eq_of_beq {a b : Value} (h : (a == b) = true) (hfloat : a.tag ≠ .float)
    (harray : a.tag ≠ .array) (hobject : a.tag ≠ .object) : a = b := by
  cases a with
  | float => exact absurd rfl hfloat
  | sequence => exact absurd rfl harray
  | mapping => exact absurd rfl hobject
  | string x =>
    cases b with
    | string y => exact congrArg string (beq_iff_eq.1 (show (x == y) = true from h))
    | _ => cases tag_eq_of_beq h
  | integer x =>
    cases b with
    | integer y => exact congrArg integer (beq_iff_eq.1 (show (x == y) = true from h))
    | _ => cases tag_eq_of_beq h
  | boolean x =>
    cases b with
    | boolean y => exact congrArg boolean (beq_iff_eq.1 (show (x == y) = true from h))
    | _ => cases tag_eq_of_beq h
  | timestamp x =>
    cases b with
    | timestamp y => exact congrArg timestamp (beq_iff_eq.1 (show (x == y) = true from h))
    | _ => cases tag_eq_of_beq h
  | null =>
    cases b with
    | null => rfl
    | _ => cases tag_eq_of_beq h

lemma beq_sequence_iff {as bs : List Value} :
    (sequence as == sequence bs) = true ↔ List.Forall₂ (fun a b => (a == b) = true) as bs := by
  show beqItems as bs = true ↔ _
  induction as generalizing bs with
  | nil => cases bs <;> simp [beqItems]
  | cons a as ih =>
    cases bs with
    | nil => simp [beqItems]
    | cons b bs =>
      rw [beqItems, Bool.and_eq_true, ih, List.forall₂_cons]
      rfl

lemma beqEntries_iff {as bs : List (String × Value)} :
    beqEntries as bs = true ↔
      ∀ entry ∈ as, ∃ b, Map.lookup entry.1 bs = some b ∧ (entry.2 == b) = true := by
  induction as with
  | nil => simp [beqEntries]
  | cons entry as ih =>
    obtain ⟨key, a⟩ := entry
    rw [beqEntries, Bool.and_eq_true, ih, List.forall_mem_cons]
    cases Map.lookup key bs with
    | none => simp
    | some b => simp [BEq.beq]

/-- Equality compares the numbers of entries and then looks every key of the left up on the
right. -/
lemma beq_mapping_iff_lookup {as bs : Map Value} :
    (mapping as == mapping bs) = true ↔ as.keys.length = bs.keys.length ∧
      ∀ entry ∈ as.entries, ∃ b, bs.get? entry.1 = some b ∧ (entry.2 == b) = true := by
  rw [Map.keys, Map.keys, List.length_map, List.length_map]
  exact Bool.and_eq_true_iff.trans (and_congr beq_iff_eq beqEntries_iff)

/-- **Mappings are equal when every key reads equal values.**  Equality only looks from left to
right, but as many distinct keys on both sides leave no key on the right alone. -/
theorem beq_mapping_iff {as bs : Map Value} (has : as.keys.Nodup) (hbs : bs.keys.Nodup) :
    (mapping as == mapping bs) = true ↔
      ∀ key, Option.Rel (fun a b => (a == b) = true) (as.get? key) (bs.get? key) := by
  rw [beq_mapping_iff_lookup]
  constructor
  · rintro ⟨hlength, hentries⟩ key
    have hkeys : as.keys.Perm bs.keys := by
      apply (has.subperm ?_).perm_of_length_le hlength.ge
      intro name hname
      obtain ⟨entry, hentry, rfl⟩ := List.mem_map.1 hname
      obtain ⟨b, hb, -⟩ := hentries entry hentry
      exact List.mem_map.2 ⟨(entry.1, b), Map.mem_of_lookup hb, rfl⟩
    cases hget : as.get? key with
    | some a =>
      obtain ⟨b, hb, hab⟩ := hentries (key, a) (Map.mem_of_lookup hget)
      rw [show bs.get? key = some b from hb]
      exact .some hab
    | none =>
      have habsent : key ∉ bs.keys := by
        rw [← hkeys.mem_iff, ← Map.contains_iff_mem_keys, Map.contains, hget]
        simp
      rw [show bs.get? key = none from Map.lookup_eq_none habsent]
      exact .none
  · intro hget
    have hsame : ∀ key, key ∈ as.keys ↔ key ∈ bs.keys := by
      intro key
      rw [← Map.contains_iff_mem_keys, ← Map.contains_iff_mem_keys, Map.contains, Map.contains]
      rw [Option.isSome_iff_ne_none, Option.isSome_iff_ne_none, Ne, eq_none_iff_of_rel (hget key)]
    refine ⟨((List.perm_ext_iff_of_nodup has hbs).2 hsame).length_eq, ?_⟩
    rintro ⟨key, a⟩ hentry
    exact exists_right_of_rel (hget key) (Map.lookup_of_mem has hentry)

/-! ## Alike values -/

/-- Values with distinct keys at every level that are equal. -/
structure Alike (a b : Value) : Prop where
  left : a.WellFormed
  right : b.WellFormed
  equal : (a == b) = true

theorem alike_sequence_iff {as bs : List Value} :
    (sequence as).Alike (sequence bs) ↔ List.Forall₂ Alike as bs := by
  constructor
  · rintro ⟨has, hbs, hequal⟩
    rw [WellFormed, wellFormedItems_iff] at has hbs
    rw [beq_sequence_iff] at hequal
    induction hequal with
    | nil => exact .nil
    | cons hhead _ ih =>
      rw [List.forall_mem_cons] at has hbs
      exact .cons ⟨has.1, hbs.1, hhead⟩ (ih has.2 hbs.2)
  · intro h
    have has : ∀ a ∈ as, a.WellFormed := by
      intro a ha
      obtain ⟨b, -, hab⟩ := Run.exists_left_of_forall₂ h.flip ha
      exact hab.left
    have hbs : ∀ b ∈ bs, b.WellFormed := by
      intro b hb
      obtain ⟨a, -, hab⟩ := Run.exists_left_of_forall₂ h hb
      exact hab.right
    exact ⟨(wellFormedItems_iff as).2 has, (wellFormedItems_iff bs).2 hbs,
      beq_sequence_iff.2 (h.imp fun _ _ hab => hab.equal)⟩

lemma wellFormed_mapping_iff {map : Map Value} :
    (mapping map).WellFormed ↔
      map.keys.Nodup ∧ ∀ key value, map.get? key = some value → value.WellFormed := by
  obtain ⟨entries⟩ := map
  rw [WellFormed, wellFormedEntries_iff]
  refine and_congr_right fun hnodup => ⟨?_, ?_⟩
  · intro h key value hget
    exact h (key, value) (Map.mem_of_lookup hget)
  · rintro h ⟨key, value⟩ hentry
    exact h key value (Map.lookup_of_mem hnodup hentry)

theorem alike_mapping_iff {as bs : Map Value} :
    (mapping as).Alike (mapping bs) ↔
      as.keys.Nodup ∧ bs.keys.Nodup ∧ ∀ key, Option.Rel Alike (as.get? key) (bs.get? key) := by
  constructor
  · rintro ⟨has, hbs, hequal⟩
    rw [wellFormed_mapping_iff] at has hbs
    rw [beq_mapping_iff has.1 hbs.1] at hequal
    refine ⟨has.1, hbs.1, fun key => ?_⟩
    apply rel_imp (hequal key)
    intro a b ha hb hab
    exact ⟨has.2 key a ha, hbs.2 key b hb, hab⟩
  · rintro ⟨has, hbs, hget⟩
    refine ⟨wellFormed_mapping_iff.2 ⟨has, ?_⟩, wellFormed_mapping_iff.2 ⟨hbs, ?_⟩,
      (beq_mapping_iff has hbs).2 ?_⟩
    · intro key a ha
      obtain ⟨b, -, hab⟩ := exists_right_of_rel (hget key) ha
      exact hab.left
    · intro key b hb
      obtain ⟨a, -, hab⟩ := exists_left_of_rel (hget key) hb
      exact hab.right
    · intro key
      apply rel_imp (hget key)
      intro a b _ _ hab
      exact hab.equal

namespace Alike

variable {a b : Value}

lemma tag_eq (h : a.Alike b) : a.tag = b.tag := tag_eq_of_beq h.equal

lemma exists_sequence {items : List Value} (h : (sequence items).Alike b) :
    ∃ others, b = sequence others ∧ List.Forall₂ Alike items others := by
  cases b with
  | sequence others => exact ⟨others, rfl, alike_sequence_iff.1 h⟩
  | _ => cases h.tag_eq

lemma exists_mapping {map : Map Value} (h : (mapping map).Alike b) :
    ∃ other, b = mapping other ∧ map.keys.Nodup ∧ other.keys.Nodup ∧
      ∀ key, Option.Rel Alike (map.get? key) (other.get? key) := by
  cases b with
  | mapping other => exact ⟨other, rfl, alike_mapping_iff.1 h⟩
  | _ => cases h.tag_eq

lemma symm (h : a.Alike b) : b.Alike a := by
  induction a generalizing b with
  | sequence as ih =>
    obtain ⟨bs, rfl, hitems⟩ := h.exists_sequence
    have hflipped : List.Forall₂ (flip Alike) as bs :=
      Run.forall₂_imp_of_mem hitems fun a ha b hab => ih a ha hab
    exact alike_sequence_iff.2 hflipped.flip
  | mapping as ih =>
    obtain ⟨bs, rfl, has, hbs, hget⟩ := h.exists_mapping
    refine alike_mapping_iff.2 ⟨hbs, has, fun key => rel_flip (rel_imp (hget key) ?_)⟩
    intro a b ha _ hab
    exact ih (key, a) (Map.mem_of_lookup ha) hab
  | float number =>
    cases b with
    | float other => exact ⟨h.right, h.left, float_beq_symm h.equal⟩
    | _ => cases h.tag_eq
  | _ =>
    obtain rfl := eq_of_beq h.equal nofun nofun nofun
    exact h

/-- At the same place, alike values have alike parts. -/
theorem exists_part (h : a.Alike b) {segment : Segment} {part : Value}
    (hpart : a.HasPart segment part) : ∃ copy, b.HasPart segment copy ∧ part.Alike copy := by
  cases hpart with
  | @entry as key part hentry =>
    obtain ⟨bs, rfl, has, -, hget⟩ := h.exists_mapping
    obtain ⟨copy, hcopy, halike⟩ := exists_right_of_rel (hget key) (Map.lookup_of_mem has hentry)
    exact ⟨copy, .entry (Map.mem_of_lookup hcopy), halike⟩
  | @item as index part hitem =>
    obtain ⟨bs, rfl, hitems⟩ := h.exists_sequence
    obtain ⟨hlength, hget⟩ := List.forall₂_iff_get.1 hitems
    obtain ⟨hindex, rfl⟩ := List.getElem?_eq_some_iff.1 hitem
    have hother : index < bs.length := by omega
    exact ⟨bs[index], .item (List.getElem?_eq_getElem hother), hget index hindex hother⟩

lemma height_le (h : a.Alike b) : a.height ≤ b.height := by
  induction hn : a.height using Nat.strong_induction_on generalizing a b with
  | _ n ih =>
    rw [← hn]
    apply Value.height_le
    intro segment part hpart
    obtain ⟨copy, hcopy, halike⟩ := h.exists_part hpart
    have hlow := hpart.height_lt
    have hcopies := ih part.height (by omega) halike rfl
    have hhigh := hcopy.height_lt
    omega

lemma height_eq (h : a.Alike b) : a.height = b.height :=
  Nat.le_antisymm h.height_le h.symm.height_le

end Alike

end Value

end Conform
