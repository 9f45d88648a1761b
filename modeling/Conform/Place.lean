import Conform.Report

/-!
# Walking down by hand

A place below a named root, for callers that go through a value themselves and want the same paths
and the same limit as a validation has.
-/

namespace Conform

/-- A place some steps below a root. -/
structure Place where
  root : String
  path : Path

namespace Place

/-- The place of a root. -/
def start (root : String) : Place := ⟨root, []⟩

/-- The text of a place. -/
def text (place : Place) : String := place.path.textFrom place.root

/-- How many steps a place lies below its root. -/
def depth (place : Place) : Nat := place.path.length

/-- The place one step further down, whether or not the limit allows to go there. -/
def below (place : Place) (segment : Segment) : Place := ⟨place.root, place.path ++ [segment]⟩

@[simp] theorem depth_below (place : Place) (segment : Segment) :
    (place.below segment).depth = place.depth + 1 := by
  simp [depth, below]

@[simp] theorem text_below (place : Place) (segment : Segment) :
    (place.below segment).text = place.text ++ segment.text := by
  rw [text, text, below, Path.textFrom_append]
  rfl

/-- Goes one step down, if the limit allows it. -/
def enter (config : Config) (place : Place) (segment : Segment) : Except ValidationError Place :=
  if place.depth < config.maxDepth then .ok (place.below segment)
  else .error (.depthExceeded (place.below segment).text config.maxDepth)

end Place

end Conform
