import ClassTables.Hierarchy.Build
/-!
# Sample declarations

```text
Clownfish (Cfish)   Obj
Animal ──prereq──►  Animal : Obj, Dog : Animal, Cat : Animal
Zoo ────prereq──►   Zookeeper : Obj, Registry (inert)
Kennel ─prereq──►   Puppy : Dog, Husky : Dog, Sled : Husky
```

`animalZoo` has the first three parcels.  `Zoo` needs `Animal` only as a prerequisite: none of its
classes derives from a class of `Animal`.  `kennel` adds the fourth, whose classes have parents in
another parcel.
-/

namespace ClassTables

/-- Adds the parcel of the object system and its root class. -/
def Declarations.addCore (d : Declarations) : Declarations :=
  (d.addParcel { name := "Clownfish", nickname := some "Cfish" }).addClass
    { name := "Clownfish::Obj"
      parcel := "Clownfish"
      functions :=
        [{ name := "get_class", returns := "cfish_Class*", params := [⟨"self", "cfish_Obj*"⟩] }]
      methods :=
        [{ name := "Destroy" },
         { name := "Equals", returns := "bool", params := [⟨"other", "cfish_Obj*"⟩] },
         { name := "To_String", returns := "cfish_String*" }] }

/-- Three parcels: the object system, animals and a zoo. -/
def animalZoo : Declarations :=
  let core := Declarations.addCore {}
  { parcels := core.parcels ++
      [{ name := "Animal", prereqs := ["Clownfish"] },
       { name := "Zoo", prereqs := ["Animal", "Clownfish"] }]
    classes := core.classes ++
      [{ name := "Animal"
         parcel := "Animal"
         parent := some "Clownfish::Obj"
         members := [⟨"name", "cfish_String*"⟩]
         functions :=
           [{ name := "init", returns := "animal_Animal*",
              params := [⟨"self", "animal_Animal*"⟩, ⟨"name", "cfish_String*"⟩] }]
         methods :=
           [{ name := "Speak", returns := "cfish_String*", isAbstract := true },
            { name := "Get_Name", returns := "cfish_String*", isFinal := true },
            { name := "Destroy" }] },
       { name := "Animal::Dog"
         parcel := "Animal"
         parent := some "Animal"
         members := [⟨"breed", "cfish_String*"⟩]
         functions :=
           [{ name := "new", returns := "animal_Dog*", params := [⟨"name", "cfish_String*"⟩] }]
         methods :=
           [{ name := "Speak", returns := "cfish_String*" },
            { name := "Fetch", returns := "bool",
              params := [⟨"ball", "cfish_Obj*"⟩, ⟨"tries", "int32_t"⟩] }] },
       { name := "Animal::Cat"
         parcel := "Animal"
         parent := some "Animal"
         isFinal := true
         members := [⟨"lives", "int32_t"⟩]
         methods := [{ name := "Speak", returns := "cfish_String*" }] },
       { name := "Zoo::Zookeeper"
         parcel := "Zoo"
         parent := some "Clownfish::Obj"
         members := [⟨"badge", "int32_t"⟩]
         methods := [{ name := "Feed", params := [⟨"animal", "animal_Animal*"⟩] }] },
       { name := "Zoo::Registry"
         parcel := "Zoo"
         inert := true
         inertVars := [⟨"count", "int32_t"⟩]
         functions :=
           [{ name := "reset" }, { name := "size", returns := "int32_t", isInline := true }] }] }

/-- The zoo and a parcel whose classes extend a class of another one. -/
def kennel : Declarations :=
  { parcels := animalZoo.parcels ++ [{ name := "Kennel", prereqs := ["Animal"] }]
    classes := animalZoo.classes ++
      [{ name := "Kennel::Puppy", parcel := "Kennel", parent := some "Animal::Dog" },
       { name := "Kennel::Husky"
         parcel := "Kennel"
         parent := some "Animal::Dog"
         members := [⟨"pulls", "int32_t"⟩]
         methods := [{ name := "Pull", isFinal := true }] },
       { name := "Kennel::Sled"
         parcel := "Kennel"
         parent := some "Kennel::Husky"
         members := [⟨"dogs", "uint8_t"⟩] }] }

end ClassTables
