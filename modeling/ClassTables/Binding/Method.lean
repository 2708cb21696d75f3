import ClassTables.Class.Basic
import ClassTables.Fragment.Basic
/-!
# Bindings of a method

A method is bound for a class that calls it, the *invoker*.  Dispatch symbols, offsets and type
names are made from the invoker; implementing functions and callbacks for host languages from the
class that declares the method.
-/

namespace ClassTables

/-- A method in the table of a class. -/
structure MethodBinding where
  method : Method
  invoker : Class
deriving DecidableEq, Repr

namespace MethodBinding

variable (b : MethodBinding)

def kind : MethodKind := b.invoker.kindOf b.method

/-- The function that fills the slot. -/
def impFunc : String := b.method.impFunc

def returns : String := b.method.returns.spelling

/-- The parameters, the object typed as an instance of the invoker. -/
def invokerParams : String :=
  match b.method.params with
  | [] => Params.toC []
  | self :: rest => Params.toC (⟨self.name, .pointerTo b.invoker.fullStructSym⟩ :: rest)

def offsetSym : String := b.method.fullOffsetSym b.invoker.toClassHead

def typedefSym : String := b.method.fullTypedef b.invoker.toClassHead

def methodSym : String := b.method.fullMethodSym b.invoker.toClassHead

/-! ## The header -/

/-- The type of pointers to the method's functions. -/
def typedefDec : FnPointer :=
  { returns := b.returns, name := b.typedefSym, params := b.invokerParams }

def offsetDec : VarDecl :=
  { type := "size_t", name := b.offsetSym, specifiers := "extern " ++ b.invoker.visible }

/-- Whether calls may go straight to the implementing function: nothing can take its place, and it
is known inside the invoker's parcel. -/
def isDirect : Bool :=
  b.method.isFinal && b.method.declarer.parcel.name == b.invoker.parcel.name

/-- The type that the implementing function expects of the object. -/
def declaredSelf : String :=
  match b.method.params with
  | [] => "void*"
  | self :: _ => self.type.spelling

/-- A macro that calls the implementing function.  The cast applies to the first argument. -/
def directCall : Define :=
  let names := Params.nameList b.method.params
  { name := b.methodSym ++ "(" ++ names ++ ")"
    value := some (b.impFunc ++ "((" ++ b.declaredSelf ++ ")" ++ names ++ ")") }

/-- The head of the function that looks the method up in the class table. -/
def dispatchHead : FnHead :=
  { returns := b.returns, name := b.methodSym, params := b.invokerParams,
    specifiers := "static CFISH_INLINE" }

def dispatchBody : List Stmt :=
  let callee := "method(" ++ Params.nameList b.method.params ++ ");"
  [.line ("const " ++ b.typedefSym ++ " method = (" ++ b.typedefSym ++
      ")cfish_obj_method(self, " ++ b.offsetSym ++ ");"),
   .line (if b.method.returns.isVoid then callee else "return " ++ callee)]

/-- The offset of the method and the way to call it. -/
def methodDef : Fragment :=
  [.var b.offsetDec,
   if b.isDirect then .define b.directCall else .fnDef b.dispatchHead b.dispatchBody]

/-- The implementing function.  Those of final methods are called from elsewhere too. -/
def impDeclaration : FnHead :=
  { returns := b.returns, name := b.impFunc, params := Params.toC b.method.params,
    specifiers := if b.method.isFinal then b.method.declarer.visible else "" }

/-- The callback of a host language, where there is none. -/
def overrideNull : Define := ⟨b.method.overrideSym, some "NULL"⟩

def overrideDec : FnHead :=
  { returns := b.returns, name := b.method.overrideSym, params := Params.toC b.method.params }

/-! ## The data -/

def abstractHead : FnHead :=
  { returns := b.returns, name := b.impFunc, params := Params.toC b.method.params }

/-- Reports a call of an abstract method and does not return. -/
def abstractBody : List Stmt :=
  b.method.params.tail.map (fun p => .line ("CFISH_UNUSED_VAR(" ++ p.name ++ ");")) ++
    .line ("cfish_Err_abstract_method_call((cfish_Obj*)self, " ++ b.method.declarer.fullClassVar ++
      ", \"" ++ b.method.name ++ "\");") ::
    (if b.method.returns.isVoid then []
     else [.line ("CFISH_UNREACHABLE_RETURN(" ++ b.returns ++ ");")])

/-- The function in the slot of an abstract method. -/
def abstractMethodDef : Item := .fnDef b.abstractHead b.abstractBody

def offsetRef : String := "&" ++ b.offsetSym

/-- The offset of the same method in the parent's table. -/
def parentOffsetRef : String :=
  match b.invoker.parent? with
  | some p => "&" ++ b.method.fullOffsetSym p.toClassHead
  | none => "NULL"

def funcRef : String := "(cfish_method_t)" ++ b.impFunc

/-- The callback that a host language may set, unless the method is final. -/
def callbackRef : String :=
  if b.method.isFinal then "NULL" else "(cfish_method_t)" ++ b.method.overrideSym

def novelSpec : Initializer :=
  .ofFields [(b.offsetRef, "offset"), ("\"" ++ b.method.name ++ "\"", "name"), (b.funcRef, "func"),
    (b.callbackRef, "callback_func")]

def overriddenSpec : Initializer :=
  .ofFields [(b.offsetRef, "offset"), (b.parentOffsetRef, "parent_offset"), (b.funcRef, "func")]

def inheritedSpec : Initializer :=
  .ofFields [(b.offsetRef, "offset"), (b.parentOffsetRef, "parent_offset")]

end MethodBinding

namespace Class

/-- The bindings of all methods, in slot order. -/
def bindings (c : Class) : List MethodBinding := c.methods.map (⟨·, c⟩)

/-- The bindings of the methods that the class declares, in declaration order. -/
def freshBindings (c : Class) : List MethodBinding := c.freshMethods.map (⟨·, c⟩)

/-- The bindings of the methods that a host language may override. -/
def overridable (c : Class) : List MethodBinding :=
  c.freshBindings.filter fun b => b.method.isNovel && !b.method.isFinal

end Class

end ClassTables
