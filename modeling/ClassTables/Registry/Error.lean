import ClassTables.Text.Name
/-!
# Why a class cannot be loaded or a call not be resolved
-/

namespace ClassTables

/-- A class specification that does not fit the classes loaded before it. -/
inductive RegisterError where
  | duplicateClass (name : String)
  | parentNotBootstrapped (cls parent : String)
  /-- A method is listed as inherited or overridden that the parent does not have. -/
  | missingParentMethod (cls method : String)
  /-- A method of the parent is neither listed as inherited nor as overridden. -/
  | unlistedMethod (cls method : String)
  | duplicateMethod (cls method : String)
deriving DecidableEq, Repr

/-- A call that reaches no implementation. -/
inductive DispatchError where
  | unknownClass (name : String)
  | unknownMethod (cls method : String)
  | abstractMethodCall (cls method : String)
deriving DecidableEq, Repr

open Text

def RegisterError.message : RegisterError → String
  | duplicateClass c => "class " ++ name c ++ " is registered more than once"
  | parentNotBootstrapped c p =>
    "class " ++ name c ++ " needs parent " ++ name p ++ ", which is not bootstrapped"
  | missingParentMethod c m =>
    "class " ++ name c ++ " lists " ++ name m ++ ", which its parent does not have"
  | unlistedMethod c m => "class " ++ name c ++ " does not list inherited method " ++ name m
  | duplicateMethod c m =>
    "class " ++ name c ++ " declares novel method " ++ name m ++
      " more than once or over an ancestor's"

def DispatchError.message : DispatchError → String
  | unknownClass c => "unknown class " ++ name c
  | unknownMethod c m => "class " ++ name c ++ " has no method " ++ name m
  | abstractMethodCall c m => "abstract method " ++ name m ++ " called on class " ++ name c

end ClassTables
