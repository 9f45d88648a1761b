/-!
# Places in a value

A place is reached from the root by steps: into a mapping by a key, into a sequence by an index.
Its text is the text of the root, which callers choose, followed by the steps, as in
`$.people[1].age`.
-/

namespace Conform

/-- A step from a container to one of its parts. -/
inductive Segment where
  | key (name : String)
  | index (position : Nat)
deriving DecidableEq, Repr

/-- A key is written after a point and an index between brackets. -/
def Segment.text : Segment → String
  | key name => "." ++ name
  | index position => "[" ++ toString position ++ "]"

theorem Segment.length_text_pos (segment : Segment) : 0 < segment.text.length := by
  cases segment with
  | key name =>
    rw [text, String.length_append]
    exact Nat.add_pos_left (by decide) name.length
  | index position =>
    rw [text, String.length_append]
    exact Nat.add_pos_right _ (by decide)

/-- The steps from one place to another. -/
abbrev Path := List Segment

namespace Path

/-- The text of the place that lies these steps below a root. -/
def textFrom (root : String) (path : Path) : String :=
  path.foldl (fun text segment => text ++ segment.text) root

theorem textFrom_append (root : String) (path more : Path) :
    (path ++ more).textFrom root = more.textFrom (path.textFrom root) :=
  List.foldl_append

theorem textFrom_eq_append (root : String) (path : Path) :
    path.textFrom root = root ++ path.textFrom "" := by
  induction path generalizing root with
  | nil => exact (String.append_empty).symm
  | cons segment path ih =>
    show textFrom (root ++ segment.text) path = root ++ textFrom ("" ++ segment.text) path
    rw [ih, ih ("" ++ segment.text), String.empty_append, String.append_assoc]

/-- No step has an empty text, so only the root itself reads as it does. -/
theorem textFrom_eq_self_iff {root : String} {path : Path} :
    path.textFrom root = root ↔ path = [] := by
  constructor
  · intro h
    cases path with
    | nil => rfl
    | cons segment path =>
      have hsegment := segment.length_text_pos
      have hlength := congrArg String.length h
      rw [textFrom, List.foldl_cons, ← textFrom, textFrom_eq_append, String.length_append,
        String.length_append] at hlength
      omega
  · rintro rfl
    rfl

end Path

end Conform
