import Conform.Proofs.Equality

/-!
# The laws of equality

Keyed equality of values is symmetric and transitive, and the only values that are not equal to
themselves are those that hold a NaN somewhere (`Value.beq_laws`).  It looks up the keys of the left
on the right and never the other way round; that this is symmetric all the same rests on the keys
being distinct, and so does reflexivity.  Transitivity does not need it.

An equal mapping is one with the same keys and equal values under them, so the entries of a mapping
without NaN make up an equal mapping in whatever order they are put together again.
-/

namespace Conform.Value

/-! ## Numbers -/

lemma float_beq_trans {a b c : Float} (hab : (a == b) = true) (hbc : (b == c) = true) :
    (a == c) = true := by
  rw [float_beq_iff, compare_eq_iff] at hab hbc ⊢
  rcases hab with ⟨hsame, -⟩ | ⟨s, t, ha, hb⟩
  · rw [hsame]
    exact hbc
  · -- A number that equals a zero is a zero, and those are all equal.
    rcases hbc with ⟨hsame, -⟩ | ⟨-, u, -, hc⟩
    · exact .inr ⟨s, t, ha, hsame ▸ hb⟩
    · exact .inr ⟨s, u, ha, hc⟩

lemma float_beq_self_iff {number : Float} :
    (number == number) = true ↔ number.isNaN = false := by
  have hnan : number.isNaN = number.toModel.unpack.isNaN := rfl
  rw [float_beq_iff, compare_eq_iff, hnan]
  cases number.toModel.unpack with
  | notANumber =>
    constructor
    · rintro (⟨-, hnumber⟩ | ⟨s, t, hzero, -⟩)
      · exact absurd rfl hnumber
      · cases hzero
    · intro hnumber
      cases hnumber
  | _ => exact iff_of_true (.inl ⟨rfl, nofun⟩) rfl

/-- The value is no float that is not a number. -/
def Comparable : Value → Prop
  | float number => number.isNaN = false
  | _ => True

/-! ## Transitivity -/

lemma exists_sequence_of_beq {as : List Value} {b : Value} (h : (sequence as == b) = true) :
    ∃ bs, b = sequence bs ∧ List.Forall₂ (fun a b => (a == b) = true) as bs := by
  cases b with
  | sequence bs => exact ⟨bs, rfl, beq_sequence_iff.1 h⟩
  | _ => cases tag_eq_of_beq h

lemma exists_mapping_of_beq {as : Map Value} {b : Value} (h : (mapping as == b) = true) :
    ∃ bs, b = mapping bs ∧ as.keys.length = bs.keys.length ∧
      ∀ entry ∈ as.entries, ∃ b, bs.get? entry.1 = some b ∧ (entry.2 == b) = true := by
  cases b with
  | mapping bs => exact ⟨bs, rfl, beq_mapping_iff_lookup.1 h⟩
  | _ => cases tag_eq_of_beq h

/-- Equality of items goes on to a third list when it does for each item of the first. -/
lemma forall₂_beq_trans {as bs cs : List Value}
    (h : ∀ a ∈ as, ∀ b c : Value, (a == b) = true → (b == c) = true → (a == c) = true)
    (habs : List.Forall₂ (fun a b => (a == b) = true) as bs)
    (hbcs : List.Forall₂ (fun b c => (b == c) = true) bs cs) :
    List.Forall₂ (fun a c => (a == c) = true) as cs := by
  induction habs generalizing cs with
  | nil =>
    cases hbcs
    exact .nil
  | cons hhead _ ih =>
    rw [List.forall_mem_cons] at h
    obtain ⟨c, cs, hhead', htail', rfl⟩ := List.forall₂_cons_left_iff.1 hbcs
    exact .cons (h.1 _ _ hhead hhead') (ih h.2 htail')

lemma beq_trans {a b c : Value} (hab : (a == b) = true) (hbc : (b == c) = true) :
    (a == c) = true := by
  induction a generalizing b c with
  | float x =>
    cases b with
    | float y =>
      cases c with
      | float z => exact float_beq_trans (a := x) (b := y) (c := z) hab hbc
      | _ => cases tag_eq_of_beq hbc
    | _ => cases tag_eq_of_beq hab
  | sequence as ih =>
    obtain ⟨bs, rfl, habs⟩ := exists_sequence_of_beq hab
    obtain ⟨cs, rfl, hbcs⟩ := exists_sequence_of_beq hbc
    exact beq_sequence_iff.2 (forall₂_beq_trans (fun a ha _ _ => ih a ha) habs hbcs)
  | mapping as ih =>
    obtain ⟨bs, rfl, hsize, habs⟩ := exists_mapping_of_beq hab
    obtain ⟨cs, rfl, hsize', hbcs⟩ := exists_mapping_of_beq hbc
    rw [beq_mapping_iff_lookup]
    refine ⟨hsize.trans hsize', ?_⟩
    intro entry hentry
    obtain ⟨b, hb, hentryb⟩ := habs entry hentry
    obtain ⟨c, hc, hbc⟩ := hbcs (entry.1, b) (Map.mem_of_lookup hb)
    exact ⟨c, hc, ih entry hentry hentryb hbc⟩
  | _ =>
    obtain rfl := eq_of_beq hab nofun nofun nofun
    exact hbc

/-! ## Reflexivity -/

/-- **A value equals itself unless a NaN stands in it.** -/
theorem beq_self_iff {a : Value} (h : a.WellFormed) :
    (a == a) = true ↔ a.Everywhere Comparable := by
  induction a with
  | float number => exact float_beq_self_iff
  | sequence items ih =>
    rw [WellFormed, wellFormedItems_iff] at h
    rw [beq_sequence_iff, List.forall₂_same, Everywhere, everywhereInItems_iff]
    rw [and_iff_right (show Comparable (sequence items) from trivial)]
    exact forall₂_congr fun item hitem => ih item hitem (h item hitem)
  | mapping map ih =>
    have hnodup := (wellFormed_mapping_iff.1 h).1
    have hself : (mapping map == mapping map) = true ↔
        ∀ entry ∈ map.entries, (entry.2 == entry.2) = true := by
      rw [beq_mapping_iff_lookup, and_iff_right rfl]
      refine forall₂_congr fun entry hentry => ?_
      rw [show map.get? entry.1 = some entry.2 from Map.lookup_of_mem hnodup hentry]
      simp
    rw [WellFormed, wellFormedEntries_iff] at h
    rw [hself, Everywhere, everywhereInEntries_iff]
    rw [and_iff_right (show Comparable (mapping map) from trivial)]
    exact forall₂_congr fun entry hentry => ih entry hentry (h.2 entry hentry)
  | string text => exact iff_of_true (beq_self_eq_true text) trivial
  | integer number => exact iff_of_true (beq_self_eq_true number) trivial
  | boolean truth => exact iff_of_true (beq_self_eq_true truth) trivial
  | timestamp stamp => exact iff_of_true (beq_self_eq_true stamp) trivial
  | null => exact iff_of_true rfl trivial

/-! ## Mappings -/

/-- Two mappings are equal when they have the same keys, with equal values under each. -/
lemma beq_mapping_iff_keys {as bs : Map Value} (has : as.keys.Nodup) (hbs : bs.keys.Nodup) :
    (mapping as == mapping bs) = true ↔ (∀ key, key ∈ as.keys ↔ key ∈ bs.keys) ∧
      ∀ key a b, as.get? key = some a → bs.get? key = some b → (a == b) = true := by
  have hsome (map : Map Value) (key : String) : key ∈ map.keys ↔ map.get? key ≠ none := by
    rw [← Map.contains_iff_mem_keys, Map.contains, Option.isSome_iff_ne_none]
  rw [beq_mapping_iff has hbs]
  constructor
  · intro h
    refine ⟨fun key => ?_, fun key a b ha hb => ?_⟩
    · rw [hsome, hsome, Ne, eq_none_iff_of_rel (h key)]
    · obtain ⟨b', hb', hab⟩ := exists_right_of_rel (h key) ha
      obtain rfl := Option.some.inj (hb.symm.trans hb')
      exact hab
  · rintro ⟨hkeys, hvalues⟩ key
    have hkey : as.get? key = none ↔ bs.get? key = none := by
      rw [← not_iff_not, ← Ne, ← Ne, ← hsome, ← hsome]
      exact hkeys key
    cases ha : as.get? key with
    | none =>
      rw [hkey.1 ha]
      exact .none
    | some a =>
      obtain ⟨b, hb⟩ : ∃ b, bs.get? key = some b := by
        rw [← Option.ne_none_iff_exists', Ne, ← hkey, ha]
        exact Option.some_ne_none a
      rw [hb]
      exact .some (hvalues key a b ha hb)

/-- Entries put together again in another order make up an equal mapping, unless there is a NaN
among them. -/
lemma beq_ofList_of_perm {map : Map Value} {entries : List (String × Value)}
    (h : (mapping map).WellFormed) (hnumbers : (mapping map).Everywhere Comparable)
    (hperm : entries.Perm map.entries) : (mapping map == mapping (.ofList entries)) = true := by
  have hself := (beq_self_iff h).2 hnumbers
  have hnodup := (wellFormed_mapping_iff.1 h).1
  have hkeys : (entries.map Prod.fst).Nodup := (hperm.map Prod.fst).nodup_iff.2 hnodup
  have hsame (key : String) : (Map.mk entries).get? key = map.get? key :=
    Map.lookup_perm hnodup hperm.symm key
  rw [beq_mapping_iff hnodup hnodup] at hself
  rw [Map.ofList_of_nodup hkeys, beq_mapping_iff hnodup hkeys]
  intro key
  rw [hsame]
  exact hself key

/-- **The laws of equality.**  Values have distinct keys at every level where the laws need it. -/
theorem beq_laws :
    (∀ a b : Value, a.WellFormed → b.WellFormed → (a == b) = true → (b == a) = true) ∧
    (∀ a b c : Value, (a == b) = true → (b == c) = true → (a == c) = true) ∧
    (∀ a : Value, a.WellFormed → ((a == a) = true ↔ a.Everywhere Comparable)) ∧
    (∀ as bs : Map Value, (mapping as).WellFormed → (mapping bs).WellFormed →
      ((mapping as == mapping bs) = true ↔ (∀ key, key ∈ as.keys ↔ key ∈ bs.keys) ∧
        ∀ key a b, as.get? key = some a → bs.get? key = some b → (a == b) = true)) ∧
    (∀ (map : Map Value) (entries : List (String × Value)), (mapping map).WellFormed →
      (mapping map).Everywhere Comparable → entries.Perm map.entries →
      (mapping map == mapping (.ofList entries)) = true) ∧
    (∀ a b : Value, a.tag ≠ b.tag → (a == b) = false) ∧
    ∀ s t : Timestamp, (timestamp s == timestamp t) = true ↔
      s.wall = t.wall ∧ s.offset = t.offset := by
  refine ⟨?symmetric, fun a b c => beq_trans, fun a => beq_self_iff, ?keyed,
    fun map entries => beq_ofList_of_perm, ?tagged, ?timestamps⟩
  case symmetric =>
    intro a b ha hb hab
    exact (Alike.symm ⟨ha, hb, hab⟩).equal
  case keyed =>
    intro as bs has hbs
    exact beq_mapping_iff_keys (wellFormed_mapping_iff.1 has).1 (wellFormed_mapping_iff.1 hbs).1
  case tagged =>
    intro a b htags
    rw [Bool.eq_false_iff]
    exact fun hab => htags (tag_eq_of_beq hab)
  case timestamps =>
    rintro ⟨wall, offset⟩ ⟨otherWall, otherOffset⟩
    rw [← Timestamp.mk.injEq]
    exact beq_iff_eq (a := (⟨wall, offset⟩ : Timestamp))

/-- A box with a label, its sides and the readings of a scale. -/
def box : Map Value :=
  ⟨[("label", .string "tea"), ("sides", .mapping ⟨[("width", .integer 2), ("depth", .float 0)]⟩),
    ("readings", .sequence [.float (-0), .null])]⟩

/-- The same box, with its keys in another order and the other zeros. -/
def boxReordered : Map Value :=
  ⟨[("readings", .sequence [.float 0, .null]), ("label", .string "tea"),
    ("sides", .mapping ⟨[("depth", .float (-0)), ("width", .integer 2)]⟩)]⟩

/-- A reading that failed. -/
def failedReading : Value := .sequence [.float (0 / 0)]

theorem beq_laws_box :
    (mapping box == mapping boxReordered) = true ∧ (mapping boxReordered == mapping box) = true ∧
    (mapping box == mapping box) = true ∧ (∀ key, key ∈ box.keys ↔ key ∈ boxReordered.keys) ∧
    (mapping box == mapping (.ofList box.entries.reverse)) = true ∧
    (failedReading == failedReading) = false ∧ (mapping box == failedReading) = false := by
  obtain ⟨hsymm, htrans, hself, hkeyed, hperm, htags, -⟩ := beq_laws
  have hbox : (mapping box).WellFormed := by
    simp [box, WellFormed, WellFormedEntries, WellFormedItems]
  have hreordered : (mapping boxReordered).WellFormed := by
    simp [boxReordered, WellFormed, WellFormedEntries, WellFormedItems]
  have hequal : (mapping box == mapping boxReordered) = true := rfl
  have hback := hsymm _ _ hbox hreordered hequal
  have hsame := htrans _ _ _ hequal hback
  have hfailed : failedReading.WellFormed := by
    simp [failedReading, WellFormed, WellFormedItems]
  have hnan : ¬ failedReading.Everywhere Comparable := by
    rintro ⟨-, hitem, -⟩
    cases hitem
  exact ⟨hequal, hback, hsame, ((hkeyed _ _ hbox hreordered).1 hequal).1,
    hperm _ _ hbox ((hself _ hbox).1 hsame) (List.reverse_perm _),
    Bool.eq_false_iff.2 fun h => hnan ((hself _ hfailed).1 h), htags _ _ (by decide)⟩

end Conform.Value
