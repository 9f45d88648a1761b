import Conform.Proofs.Idempotence
import Conform.Proofs.Timestamps
import Conform.Proofs.Values
import Conform.Value.Json

/-!
# Results that go out as JSON and come back

JSON has no timestamps, and no floats that are not finite numbers.  A value without either comes
back from JSON as it went out (`Value.ofJson_toJson`).  What a validator makes of such a value may
hold timestamps, where a kind has read them from strings, and they come back as strings: not the
ones that were read, but the ones that the timestamps are written with.  The validator recovers its
result all the same (`Validator.validateWith_ofJson_toJson`), because the kind of timestamps reads
back what is written (`Timestamp.parse?_text`), and no other kind that refuses one text of a
timestamp takes another: no text of a timestamp spells out a number or a truth.
-/

namespace Conform

/-! ## Values that JSON has -/

/-- JSON has a value, as far as the value itself goes. -/
def Value.Exportable : Value → Prop
  | float number => number.isFinite = true
  | timestamp _ => False
  | _ => True

namespace Value

/-! A container goes out and comes back part by part. -/

lemma ofJson_toJson_sequence (items : List Value) :
    ofJson (sequence items).toJson = sequence (items.map fun item => ofJson item.toJson) := by
  rw [toJson, ofJson]
  congr 1
  induction items with
  | nil => rfl
  | cons item items ih => rw [toJsonItems, ofJsonItems, ih, List.map_cons]

lemma ofJson_toJson_mapping (entries : List (String × Value)) :
    ofJson (mapping ⟨entries⟩).toJson =
      mapping ⟨entries.map fun entry => (entry.1, ofJson entry.2.toJson)⟩ := by
  rw [toJson, ofJson]
  congr 2
  induction entries with
  | nil => rfl
  | cons entry entries ih =>
    obtain ⟨key, value⟩ := entry
    rw [toJsonEntries, ofJsonMembers, ih, List.map_cons]

lemma ofJson_toJson_integer (number : Int64) :
    ofJson (integer number).toJson = integer number := by
  rw [toJson, ofJson, ofInteger, Word.ofInt?_toInt]

lemma ofJson_toJson_float {number : Float} (h : number.isFinite = true) :
    ofJson (float number).toJson = float number := by
  rw [toJson, if_pos h, ofJson]

/-- **A value that JSON has comes back as it is.** -/
theorem ofJson_toJson {value : Value} (h : value.Everywhere Exportable) :
    ofJson value.toJson = value := by
  induction value with
  | integer number => exact ofJson_toJson_integer number
  | float number => exact ofJson_toJson_float h.here
  | sequence items ih =>
    have hitems : ∀ item ∈ items, ofJson item.toJson = id item := by
      intro item hitem
      obtain ⟨index, hpart⟩ := exists_hasPart hitem
      exact ih item hitem (h.part hpart)
    rw [ofJson_toJson_sequence, List.map_congr_left hitems, List.map_id]
  | mapping map ih =>
    obtain ⟨entries⟩ := map
    have hentries : ∀ entry ∈ entries, (entry.1, ofJson entry.2.toJson) = id entry := by
      rintro ⟨key, value⟩ hentry
      have hvalue : ofJson value.toJson = value := ih (key, value) hentry (h.part (.entry hentry))
      rw [hvalue, id]
    rw [ofJson_toJson_mapping, List.map_congr_left hentries, List.map_id]
  | timestamp stamp => exact h.here.elim
  | _ => rfl

end Value

/-! ## Scalars -/

namespace Kind

/-- What a kind made of a value that JSON has comes back as it is, unless it is a timestamp that the
kind has read. -/
theorem Coerces.ofJson_toJson {kind : Kind} {raw value : Value} (h : kind.Coerces raw value)
    (hraw : raw.Everywhere Value.Exportable) :
    Value.ofJson value.toJson = value ∨
      ∃ text stamp, kind = .datetime ∧ raw = .string text ∧ parseTimestamp text = some stamp ∧
        value = .timestamp stamp := by
  cases h with
  | same => exact .inl (Value.ofJson_toJson hraw)
  | widened number => exact .inl (Value.ofJson_toJson_float (isFinite_widen number))
  | integer => exact .inl (Value.ofJson_toJson_integer _)
  | float hparse => exact .inl (Value.ofJson_toJson_float (isFinite_of_parseFloat hparse))
  | boolean => exact .inl rfl
  | datetime hparse => exact .inr ⟨_, _, rfl, rfl, hparse, rfl⟩

/-- The text that a timestamp is written with is a string for strings, a timestamp for timestamps
and nothing for any other kind. -/
lemma Coerces.eq_of_text {kind : Kind} {stamp : Timestamp} {taken : Value}
    (h : kind.Coerces (.string stamp.text) taken) :
    kind.Describes (.string stamp.text) ∨ kind = .datetime := by
  cases h with
  | same hsame => exact .inl hsame
  | integer hparse =>
    rw [parseInteger, Timestamp.text, String.toList_ofList, Timestamp.integer?_chars] at hparse
    cases hparse
  | float hparse =>
    rw [parseFloat, Timestamp.text, String.toList_ofList, Timestamp.literal_chars] at hparse
    cases hparse
  | boolean hparse =>
    rw [parseBoolean, if_neg (Timestamp.text_ne (by decide)),
      if_neg (Timestamp.text_ne (by decide))] at hparse
    cases hparse
  | datetime => exact .inr rfl

end Kind

/-- The kinds recover what they made of values that JSON has from what comes back of it. -/
lemma recovery_json :
    Recovery (fun value => Value.ofJson value.toJson) (Value.Everywhere Value.Exportable) where
  sequence := Value.ofJson_toJson_sequence
  mapping := Value.ofJson_toJson_mapping
  part hraw hpart := hraw.part hpart
  coerce {kind raw value} hraw h := by
    obtain hsame | ⟨text, stamp, rfl, rfl, hparse, rfl⟩ := h.ofJson_toJson hraw
    · rw [hsame]
      exact Kind.coerce_of_describes h.describes
    · have hreadable : stamp.Readable := Timestamp.readable_of_ofChars? hparse
      exact Kind.coerce_eq_ok.2 (.datetime (Timestamp.parse?_text hreadable))
  refused {kind other raw value taken misfit} hraw h hrefused htakes := by
    obtain hsame | ⟨text, stamp, rfl, rfl, hparse, rfl⟩ := h.ofJson_toJson hraw
    · rw [hsame] at htakes
      exact h.eq_of_refused hrefused htakes
    · -- A kind of strings would have taken the text that was read, and so would that of timestamps.
      obtain hstring | rfl := htakes.eq_of_text
      · have htext : other.coerce (.string text) = .ok (.string text) :=
          Kind.coerce_of_describes hstring
        rw [hrefused] at htext
        cases htext
      · rw [Kind.coerce_eq_ok.2 (.datetime hparse)] at hrefused
        cases hrefused

/-! ## All validators -/

namespace Validator

/-- **Exchange.** A validator recovers its result from what comes back of it from JSON. -/
theorem validateWith_ofJson_toJson {validator : Validator}
    (hfields : validator.Everywhere HasDistinctFields)
    (hchoices : validator.Everywhere ChoosesScalars) {config : Config} {root : String}
    {raw value : Value} (hraw : raw.Everywhere Value.Exportable)
    (h : validator.validateWith config root raw = .ok value) :
    validator.validateWith config root (Value.ofJson value.toJson) = .ok value := by
  have hrun := validateWith_eq_ok.1 h
  exact validateWith_eq_ok.2 (recovery_json.recovers hfields hchoices _ raw value hraw hrun)

/-- Something happened at a time, which may also be counted, in some places. -/
def happening : Validator :=
  record [⟨"at", choice [primitive .integer, primitive .float, primitive .boolean,
      primitive .datetime], false⟩]
    (.typed (array (primitive .float)))

/-- The end of a leap day. -/
def leapDay : Timestamp where
  wall :=
    ⟨⟨2024, 2, 29, by decide, by decide, by decide⟩,
      ⟨23, 59, 59, 250000000, by decide, by decide, by decide, by decide⟩⟩
  offset := some .utc

/-- What happened at the end of a leap day, as it was written down. -/
def happeningRaw : Value :=
  .mapping ⟨[("place", .sequence [.integer 51]), ("at", .string "2024-02-29 23:59:59.25Z")]⟩

/-- What happened at the end of a leap day, as it was read. -/
def happeningRead : Value :=
  .mapping ⟨[("at", .timestamp leapDay), ("place", .sequence [.float (Value.widen 51)])]⟩

theorem validateWith_ofJson_toJson_happening :
    happening.validateWith {} "" happeningRaw = .ok happeningRead ∧
    happening.validateWith {} "" (Value.ofJson happeningRead.toJson) = .ok happeningRead := by
  have hfields : happening.Everywhere HasDistinctFields := by
    simp [happening, Everywhere, Field.Everywhere, Extra.Everywhere, AllEverywhere,
      HasDistinctFields]
  have hchoices : happening.Everywhere ChoosesScalars := by
    simp [happening, Everywhere, Field.Everywhere, Extra.Everywhere, AllEverywhere, ChoosesScalars]
  have hraw : happeningRaw.Everywhere Value.Exportable := by
    simp [happeningRaw, Value.Everywhere, Value.EverywhereInEntries, Value.EverywhereInItems,
      Value.Exportable]
  have hread : happening.validateWith {} "" happeningRaw = .ok happeningRead := rfl
  exact ⟨hread, validateWith_ofJson_toJson hfields hchoices hraw hread⟩

end Validator

end Conform
