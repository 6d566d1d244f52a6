import Exemplar.Model

/-!
# References between types

The declaration of a type mentions other named types, and positions without a
name are spelled out in place.  `references` lists the named types that a key
leads to through positions without a name.  It searches the model from the key,
keeping the keys it has met and those without a name that are still to be looked
at; the fuel is the number of fields in the model and one more, and no search
takes more steps than that, since every key is looked at once.
-/

namespace Exemplar.Model

/-- The keys to which the fields at a key lead, in order. -/
def children (model : Model) (key : Keypath) : List Keypath :=
  (model.kinds key).values.flatMap fun shape => shape.values.map FieldRef.key

/-- The keys to which any field of the model leads. -/
def mentioned (model : Model) : List Keypath :=
  model.shapes.values.flatMap fun kinds =>
    kinds.values.flatMap fun shape => shape.values.map FieldRef.key

/-- The state of a search for references. -/
structure Search where
  /-- The named types found, in the order in which they were met. -/
  found : List Name
  /-- Keys without a name that are still to be looked at, the latest first. -/
  pending : List Keypath
  /-- All keys met. -/
  seen : List Keypath

/-- Meet a key: a new one is found if it is a name, and otherwise looked at later. -/
def meet (model : Model) (search : Search) (key : Keypath) : Search :=
  if search.seen.contains key then search
  else if model.isNamed key then
    { search with found := search.found ++ [key], seen := key :: search.seen }
  else
    { search with pending := key :: search.pending, seen := key :: search.seen }

/-- Look at pending keys, the latest first, until none is left. -/
def explore (model : Model) : Nat → Search → Search
  | 0, search => search
  | fuel + 1, search =>
      match search.pending with
      | [] => search
      | key :: rest =>
          explore model fuel ((model.children key).foldl model.meet { search with pending := rest })

/-- The named types that a key leads to through positions without a name. -/
def references (model : Model) (key : Keypath) : List Name :=
  (model.explore (model.mentioned.length + 1) ⟨[], [key], [key]⟩).found

end Exemplar.Model
