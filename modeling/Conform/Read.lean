/-!
# Taking something off the front

A reader takes something off the front of a list and answers what is left, with the proof that it
is shorter; every loop over a text ends because of that proof.  The list holds characters, or
tokens, or whatever a format is read from.
-/

namespace Conform

/-- What follows the first element of a list is shorter than the list. -/
theorem tail_shorter {σ : Type} (first : σ) (rest : List σ) :
    rest.length < (first :: rest).length := Nat.lt_succ_self _

/-- Dropping elements after the first leaves less than the list. -/
theorem drop_shorter {σ : Type} (count : Nat) (first : σ) (rest : List σ) :
    (rest.drop count).length < (first :: rest).length := by
  rw [List.length_drop]
  exact Nat.lt_succ_of_le (Nat.sub_le rest.length count)

/-- A list is no longer than itself. -/
theorem self_noLonger {σ : Type} (text : List σ) : text.length ≤ text.length := Nat.le_refl _

/-- Something read off the front of a list. -/
structure Read {σ : Type} (α : Type) (text : List σ) where
  value : α
  rest : List σ
  shorter : rest.length < text.length

namespace Read

variable {σ α β : Type} {text middle : List σ}

/-- Reads the same off a longer list that ends in this one. -/
def within (read : Read α middle) (h : middle.length ≤ text.length) : Read α text :=
  ⟨read.value, read.rest, Nat.lt_of_lt_of_le read.shorter h⟩

/-- The same reading with another value. -/
def map (f : α → β) (read : Read α text) : Read β text := ⟨f read.value, read.rest, read.shorter⟩

/-- Reads the same with one more element before it. -/
def after (read : Read α middle) (first : σ) : Read α (first :: middle) :=
  ⟨read.value, read.rest, Nat.lt_succ_of_lt read.shorter⟩

end Read

theorem length_dropWhile_le {σ : Type} (p : σ → Bool) (text : List σ) :
    (text.dropWhile p).length ≤ text.length :=
  (List.dropWhile_sublist p).length_le

end Conform
