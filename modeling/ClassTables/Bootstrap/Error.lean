import ClassTables.Registry.Error
/-!
# Why a parcel cannot be started
-/

namespace ClassTables

inductive BootstrapError where
  /-- A parcel inherits, through others, from itself. -/
  | cyclicInheritance (parcel : String)
  | unknownParcel (parcel : String)
  | duplicateParcel (parcel : String)
  /-- A class of the parcel cannot be loaded. -/
  | classes (cause : RegisterError)
deriving DecidableEq, Repr

def BootstrapError.message : BootstrapError → String
  | cyclicInheritance p =>
    "cycle in class inheritance between parcels detected at " ++ Text.name p
  | unknownParcel p => "unknown parcel " ++ Text.name p
  | duplicateParcel p => "parcel " ++ Text.name p ++ " is registered more than once"
  | classes e => e.message

end ClassTables
