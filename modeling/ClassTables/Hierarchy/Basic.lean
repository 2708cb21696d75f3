import ClassTables.Class.Basic
/-!
# Hierarchies

All parcels and classes of one run of the compiler.  What relates them is read off the lineages:
the classes of a parcel, and the parcels that it inherits from.
-/

namespace ClassTables

structure Hierarchy where
  /-- In declaration order. -/
  parcels : List Parcel
  /-- The names of the classes, in declaration order. -/
  declared : List String
  /-- Parents before children. -/
  classes : List Class
deriving DecidableEq, Repr

namespace Hierarchy

variable (h : Hierarchy)

def parcel? (name : String) : Option Parcel := h.parcels.find? (·.name == name)

def class? (name : String) : Option Class := h.classes.find? (·.name == name)

/-- The classes of a parcel, parents before children. -/
def classesOf (p : Parcel) : List Class := h.classes.filter (·.parcel.name == p.name)

/-- The parcels that must be running before `p` starts. -/
def prereqsOf (p : Parcel) : List Parcel := p.prereqs.filterMap h.parcel?

/-- The other parcels that hold a parent of a class of `p`, each once, in the order in which the
classes name them. -/
def inheritedParcels (p : Parcel) : List Parcel :=
  ((((h.classesOf p).filterMap Class.parent?).map (·.parcel)).filter (·.name != p.name)).eraseDups

end Hierarchy

end ClassTables
