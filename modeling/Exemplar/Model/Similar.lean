import Exemplar.Model

/-!
# Types that look alike

Two types look alike when the same kinds were seen for both, and for each kind
the same fields with the same marks; where the fields lead does not matter.
`similarTypes` lists every pair of types that look alike.  The types are sorted
into groups first, in the order of `typeNames`, so the pairs of one group stand
together.
-/

namespace Exemplar

/-- Whether two lists have the same members. -/
def sameMembers {α : Type} [BEq α] (left right : List α) : Bool :=
  left.all right.contains && right.all left.contains

/-- Whether two types have the same kinds with the same fields and marks. -/
def alike (left right : OrderedMap Kind Shape) : Bool :=
  left.sameBy (fun a b => sameMembers a.signature b.signature) right

/-- Put a name into the first group whose first member looks like it, or into a new group. -/
def placeInGroup (similar : Name → Name → Bool) (name : Name) : List (List Name) → List (List Name)
  | [] => [[name]]
  | group :: rest =>
      if group.head?.any (similar · name) then (group ++ [name]) :: rest
      else group :: placeInGroup similar name rest

/-- Each member of a list paired with every later one. -/
def orderedPairs {α : Type} : List α → List (α × α)
  | [] => []
  | first :: rest => rest.map (first, ·) ++ orderedPairs rest

namespace Model

/-- Whether two types of a model look alike. -/
def similar (model : Model) (left right : Name) : Bool :=
  alike (model.kinds left) (model.kinds right)

/-- The types that look alike, group by group. -/
def similarGroups (model : Model) : List (List Name) :=
  model.typeNames.foldl (fun groups name => placeInGroup model.similar name groups) []

/-- The pairs of types that look alike. -/
def similarTypes (model : Model) : List (Name × Name) :=
  model.similarGroups.flatMap orderedPairs

end Model

end Exemplar
