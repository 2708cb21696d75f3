import ClassTables.Class.Basic
import ClassTables.Hierarchy.Error
/-!
# The inheritance forest in preorder

Parents are names, so a list of class declarations is a graph in which every class points to at
most one other.  Where it is a forest, `order` lists it in preorder, roots and siblings in
declaration order, and gives every class its lineage on the way down.  Where it is not, some class
hangs below a cycle, and `order` names a class on that cycle.
-/

namespace ClassTables

/-- The classes that name `parent` as their parent, in declaration order. -/
def childrenOf (defs : List ClassDef) (parent : String) : List ClassDef :=
  defs.filter (·.parentName == some parent)

/-- The classes that name no parent, in declaration order. -/
def rootsOf (defs : List ClassDef) : List ClassDef := defs.filter (·.parentName.isNone)

/-- The parent of a class, by its name. -/
def parentIn? (defs : List ClassDef) (d : ClassDef) : Option ClassDef :=
  d.parentName.bind fun p => defs.find? (·.name == p)

/-- The class `d` below the lineage `above`, and `depth` generations of its descendants. -/
def descend (defs : List ClassDef) : Nat → List ClassDef → ClassDef → List Class
  | 0, above, d => [⟨d, above⟩]
  | depth + 1, above, d =>
    ⟨d, above⟩ :: (childrenOf defs d.name).flatMap (descend defs depth (d :: above))

/-- The forest below the roots.  No branch is longer than the number of classes. -/
def preorder (defs : List ClassDef) : List Class :=
  (rootsOf defs).flatMap (descend defs defs.length [])

/-- The first class to come up twice on the way up from `d`; `seen` have come up before. -/
def firstRepeated (defs : List ClassDef) : Nat → List String → ClassDef → ClassDef
  | 0, _, d => d
  | steps + 1, seen, d =>
    if d.name ∈ seen then d
    else
      match parentIn? defs d with
      | some p => firstRepeated defs steps (d.name :: seen) p
      | none => d

/-- All classes with their lineages, parents before children, or a class on a cycle. -/
def order (defs : List ClassDef) : Except BuildError (List Class) :=
  let placed := preorder defs
  match defs.find? (fun d => !placed.any (·.name == d.name)) with
  | some lost => .error (.cyclicInheritance (firstRepeated defs defs.length [] lost).name)
  | none => .ok placed

end ClassTables
