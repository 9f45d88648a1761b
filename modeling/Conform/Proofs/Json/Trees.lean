import Conform.Proofs.Json.Scalars

/-!
# JSON trees read part by part

What the reader of trees does where a text starts with a scalar, a bracket or a brace, and what its
loops do where a part starts or the closing mark stands, each as one equation on what is taken off
the text.

A tree that nests too deep is refused where it goes too deep, and with it every tree around it.
`ComesTo` says both at once: what a text is read as when it does not go too deep, and that it is
refused for this reason when it does.  It passes through the operations that readers are built of.
-/

namespace Conform.Json

variable {α β σ : Type}

/-! ## Refusals for depth -/

/-- An outcome is the given result when something fits, and otherwise the fault of depth. -/
def ComesTo (fits : Prop) (outcome : Except Fault α) (result : α) : Prop :=
  (fits → outcome = .ok result) ∧
    (¬ fits → ∃ fault, outcome = .error fault ∧ fault.cause = .tooDeep)

namespace ComesTo

variable {fits other : Prop} {outcome : Except Fault α} {result : α}

lemma of_ok (hfits : fits) (h : outcome = .ok result) : ComesTo fits outcome result :=
  ⟨fun _ => h, fun hnot => absurd hfits hnot⟩

lemma congr (h : ComesTo fits outcome result) (hiff : other ↔ fits) :
    ComesTo other outcome result := by
  rw [ComesTo, hiff]
  exact h

lemma map (h : ComesTo fits outcome result) (f : α → β) :
    ComesTo fits (outcome.map f) (f result) := by
  constructor
  · intro hfits
    rw [h.1 hfits]
    rfl
  · intro hnot
    obtain ⟨fault, houtcome, hcause⟩ := h.2 hnot
    exact ⟨fault, by rw [houtcome]; rfl, hcause⟩

lemma bind (h : ComesTo fits outcome result) {next : α → Except Fault β} {last : β}
    (hnext : ComesTo other (next result) last) :
    ComesTo (fits ∧ other) (outcome >>= next) last := by
  by_cases hfits : fits
  · rw [h.1 hfits]
    exact hnext.congr (and_iff_right hfits)
  · refine ⟨fun hboth => absurd hboth.1 hfits, fun _ => ?_⟩
    obtain ⟨fault, houtcome, hcause⟩ := h.2 hfits
    exact ⟨fault, by rw [houtcome]; rfl, hcause⟩

end ComesTo

/-! ## Where a tree starts -/

lemma skipSpace_cons {c : Char} (h : isSpace c = false) (rest : List Char) :
    skipSpace (c :: rest) = c :: rest := by
  rw [skipSpace, List.dropWhile_cons, h]
  rfl

/-- A text starts where a tree may: with no white space and no closing bracket. -/
def Opens (text : List Char) : Prop :=
  ∃ first rest, text = first :: rest ∧ isSpace first = false ∧ first ≠ ']'

lemma StartsScalar.mark_ne {first : Char} (h : StartsScalar first) :
    isSpace first = false ∧ first ≠ ']' ∧ first ≠ '[' ∧ first ≠ '{' := by
  obtain rfl | rfl | rfl | rfl | rfl | hdigit := h
  any_goals decide
  have hne {other : Char} (hother : other.isDigit = false) : first ≠ other := by
    rintro rfl
    rw [hdigit] at hother
    cases hother
  have hspace : isSpace first = false := by
    simp [isSpace, @hne ' ' rfl, @hne '\t' rfl, @hne '\n' rfl, @hne '\r' rfl]
  exact ⟨hspace, hne rfl, hne rfl, hne rfl⟩

lemma ReadsScalar.opens {text tail : List Char} {json : Json} (h : ReadsScalar text json tail) :
    Opens text := by
  obtain ⟨first, rest, rfl, hfirst, -⟩ := h
  obtain ⟨hspace, hclose, -⟩ := hfirst.mark_ne
  exact ⟨first, rest, rfl, hspace, hclose⟩

lemma taken_tree_scalar {text tail : List Char} {json : Json} (h : ReadsScalar text json tail)
    (depth : Nat) : taken (tree depth text) = .ok (json, tail) := by
  obtain ⟨first, rest, rfl, hfirst, hread⟩ := h
  obtain ⟨hspace, -, hbracket, hbrace⟩ := hfirst.mark_ne
  rw [tree]
  split
  · rename_i hskip
    rw [skipSpace_cons hspace] at hskip
    cases hskip
  · rename_i c more hskip
    obtain ⟨rfl, rfl⟩ := List.cons.inj ((skipSpace_cons hspace rest).symm.trans hskip)
    rw [if_neg hbracket, if_neg hbrace, taken_within]
    exact hread

lemma taken_tree_array (depth : Nat) (rest : List Char) :
    taken (tree (depth + 1) ('[' :: rest)) =
      (taken (items (tree depth) true rest)).map (Prod.map .array id) := by
  have hread : tree (depth + 1) ('[' :: rest) = (items (tree depth) true rest).map fun read =>
    (read.map .array).within (le_of_skipSpace rfl) := rfl
  rw [hread]
  cases items (tree depth) true rest <;> rfl

lemma taken_tree_object (depth : Nat) (rest : List Char) :
    taken (tree (depth + 1) ('{' :: rest)) =
      (taken (members (treeMember (tree depth)) .empty true rest)).map (Prod.map .object id) := by
  have hread : tree (depth + 1) ('{' :: rest) =
    (members (treeMember (tree depth)) .empty true rest).map fun read =>
      (read.map .object).within (le_of_skipSpace rfl) := rfl
  rw [hread]
  cases members (treeMember (tree depth)) .empty true rest <;> rfl

section Containers

variable {depth nested : Nat} {rest tail : List Char}

/-- No container is read where none may stand. -/
lemma comesTo_tree_zero {first : Char} (h : first = '[' ∨ first = '{') {result : Json × List Char} :
    ComesTo (nested + 1 ≤ 0) (taken (tree 0 (first :: rest))) result := by
  refine ⟨fun hfits => absurd hfits (Nat.not_succ_le_zero nested), fun _ => ?_⟩
  have hrefused : taken (tree 0 (first :: rest)) = .error (faultOn .tooDeep (first :: rest)) := by
    obtain rfl | rfl := h <;> rfl
  exact ⟨_, hrefused, rfl⟩

/-- An array is read when what stands in it is read one level deeper. -/
lemma comesTo_array {parts : List Json}
    (h : ∀ depth, ComesTo (nested ≤ depth) (taken (items (tree depth) true rest))
      (parts, tail)) :
    ComesTo (nested + 1 ≤ depth) (taken (tree depth ('[' :: rest))) (.array parts, tail) := by
  cases depth with
  | zero => exact comesTo_tree_zero (.inl rfl)
  | succ depth =>
    rw [taken_tree_array]
    exact ((h depth).map (Prod.map Json.array id)).congr Nat.succ_le_succ_iff

/-- An object is read when what stands in it is read one level deeper. -/
lemma comesTo_object {parts : Map Json}
    (h : ∀ depth, ComesTo (nested ≤ depth)
      (taken (members (treeMember (tree depth)) .empty true rest)) (parts, tail)) :
    ComesTo (nested + 1 ≤ depth) (taken (tree depth ('{' :: rest))) (.object parts, tail) := by
  cases depth with
  | zero => exact comesTo_tree_zero (.inr rfl)
  | succ depth =>
    rw [taken_tree_object]
    exact ((h depth).map (Prod.map Json.object id)).congr Nat.succ_le_succ_iff

end Containers

/-! ## Loops -/

lemma taken_items_closed (item : Reader α) (first : Bool) (rest : List Char) :
    taken (items item first (']' :: rest)) = .ok ([], rest) := by
  rw [items]
  rfl

lemma taken_items_part {item : Reader α} {first : Bool} {text rest : List Char}
    {h : rest.length ≤ text.length} (hnext : nextItem first text = .ok (.part rest h)) :
    taken (items item first text) = taken (item rest) >>= fun one =>
      (taken (items item false one.2)).map (Prod.map (one.1 :: ·) id) := by
  rw [items, hnext]
  dsimp only
  cases item rest with
  | error fault => rfl
  | ok one =>
    show _ = Except.map _ (taken (items item false one.rest))
    dsimp only
    cases items item false one.rest <;> rfl

lemma nextItem_first {text : List Char} (h : Opens text) :
    nextItem true text = .ok (.part text (self_noLonger text)) := by
  obtain ⟨c, rest, rfl, hspace, hclose⟩ := h
  rw [nextItem]
  split
  · rename_i hskip
    rw [skipSpace_cons hspace] at hskip
    cases hskip
  · rename_i d more hskip
    obtain ⟨rfl, rfl⟩ := List.cons.inj ((skipSpace_cons hspace rest).symm.trans hskip)
    rw [if_neg hclose, if_pos rfl]

lemma nextItem_next {text : List Char} (h : Opens text) :
    nextItem false (',' :: text) = .ok (.part text (Nat.le_succ _)) := by
  obtain ⟨c, rest, rfl, hspace, hclose⟩ := h
  rw [nextItem]
  split
  · rename_i hskip
    cases hskip
  · rename_i d more hskip
    obtain ⟨rfl, rfl⟩ := List.cons.inj hskip
    rw [if_neg (by decide), if_neg Bool.false_ne_true, if_pos rfl]
    split
    · rename_i heq
      rw [skipSpace_cons hspace] at heq
      cases heq
    · rename_i heq
      rw [skipSpace_cons hspace] at heq
      exact absurd (List.cons.inj heq).1 hclose
    · rfl

lemma taken_members_closed (step : σ → String → Reader σ) (gathered : σ) (first : Bool)
    (rest : List Char) :
    taken (members step gathered first ('}' :: rest)) = .ok (gathered, rest) := by
  rw [members]
  rfl

lemma taken_members_part {step : σ → String → Reader σ} {gathered : σ} {first : Bool}
    {text rest more : List Char} {h : rest.length ≤ text.length} {key : String}
    (hnext : nextMember first text = .ok (.part rest h))
    (hkey : taken (stringText rest) = .ok (key, more)) :
    taken (members step gathered first text) = taken (step gathered key more) >>= fun one =>
      taken (members step one.1 false one.2) := by
  obtain ⟨read, hread, rfl, rfl⟩ := taken_eq_ok.1 hkey
  rw [members, hnext]
  dsimp only
  rw [hread]
  dsimp only
  cases step gathered read.value read.rest with
  | error fault => rfl
  | ok one =>
    show _ = taken (members step one.value false one.rest)
    dsimp only
    cases members step one.value false one.rest <;> rfl

lemma nextMember_first (rest : List Char) :
    nextMember true ('"' :: rest) = .ok (.part rest (Nat.le_succ _)) := rfl

lemma nextMember_next (rest : List Char) :
    nextMember false (',' :: '"' :: rest) =
      .ok (.part rest (Nat.le_succ_of_le (Nat.le_succ _))) := rfl

/-- A member is written behind the colon after its key. -/
lemma taken_treeMember (value : Reader Json) (gathered : Map Json) (key : String)
    (rest : List Char) :
    taken (treeMember value gathered key (':' :: rest)) =
      (taken (value rest)).map fun one => (gathered.insert key one.1, one.2) := by
  have hread : treeMember value gathered key (':' :: rest) = (value rest).bind fun one =>
    .ok ⟨gathered.insert key one.value, one.rest, Nat.lt_succ_of_lt one.shorter⟩ := rfl
  rw [hread]
  cases value rest <;> rfl

/-! ## Whole texts -/

/-- What leaves nothing of a text is read of the whole text. -/
lemma comesTo_whole {fits : Prop} {reader : Reader α} {text : List Char} {value : α}
    (h : ComesTo fits (taken (reader text)) (value, [])) :
    ComesTo fits (whole reader text) value := by
  constructor
  · intro hfits
    obtain ⟨read, hread, rfl, hrest⟩ := taken_eq_ok.1 (h.1 hfits)
    have hfinished : finished read.rest = .ok () := by
      rw [hrest]
      rfl
    rw [whole, hread]
    show (finished read.rest >>= fun _ => pure read.value) = _
    rw [hfinished]
    rfl
  · intro hnot
    obtain ⟨fault, hfault, hcause⟩ := h.2 hnot
    refine ⟨fault, ?_, hcause⟩
    rw [whole, taken_eq_error.1 hfault]
    rfl

end Conform.Json
