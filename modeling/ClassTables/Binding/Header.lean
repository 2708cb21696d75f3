import ClassTables.Binding.Ivars
import ClassTables.Binding.Method
/-!
# The header of a class

What users of a class include: the layout of its instances behind the privacy symbol, functions,
method types, the functions that dispatch, callbacks for host languages, and names without prefix.
An inert class has variables, functions and short names only.
-/

namespace ClassTables

/-- A comment and what it announces. -/
def titled (comment : String) (body : Fragment) : Fragment :=
  [.comment comment, .blank] ++ body ++ [.blank]

namespace Class

variable (c : Class)

/-! ## Instances -/

/-- The function from an object to its block of members. -/
def ivarsAccessor : Item :=
  .fnDef
    { returns := c.fullIvarsStruct ++ "*", name := c.fullIvarsFunc,
      params := c.fullStructSym ++ " *self", specifiers := "static CFISH_INLINE" }
    [.line ("char *ptr = (char*)self + " ++ c.fullIvarsOffset ++ ";"),
     .ret (some ("(" ++ c.fullIvarsStruct ++ "*)ptr"))]

/-- The offset of the block, its type, the way to it and the short names of these. -/
def ivarsSection : Fragment :=
  [.var { type := "size_t", name := c.fullIvarsOffset, specifiers := "extern" },
   .typedefStruct c.structTag c.fullIvarsStruct,
   c.ivarsAccessor,
   .cond ⟨.ifDefined, c.shortNamesMacro, true, false⟩
     [.defineAs c.shortIvarsStruct c.fullIvarsStruct, .defineAs c.shortIvarsFunc c.fullIvarsFunc]]

/-- The struct of the block, unless it is empty. -/
def structSection : Fragment :=
  if c.structFields.isEmpty then []
  else [.blank, .structDef { name := c.structTag, fields := c.structFields }]

/-- The struct layout, seen only where the privacy symbol is defined. -/
def layoutSection : Item :=
  .cond ⟨.ifDefined, c.privacySymbol, false, true⟩ (c.ivarsSection ++ c.structSection)

/-! ## Declarations -/

def parentInclude : Fragment :=
  match c.parent? with
  | some p => [.includeOwn p.header]
  | none => []

def inertVarDecs : Fragment :=
  c.inertVars.map fun v =>
    .var { type := v.type.spelling, name := c.fullSym v.name, specifiers := "extern " ++ c.visible }

/-- A function of the class: inline, or visible to other parcels. -/
def functionDec (f : Function) : FnHead :=
  { returns := f.returns.spelling, name := c.fullSym f.name, params := Params.toC f.params,
    specifiers := if f.isInline then "static CFISH_INLINE" else c.visible }

/-- Functions, and the functions that implement methods. -/
def subDeclarations : Fragment :=
  c.functions.flatMap (fun f => [.fnDecl (c.functionDec f), .blank]) ++
    c.freshBindings.flatMap (fun b => [.fnDecl b.impDeclaration, .blank])

def typedefDecs : Fragment := c.bindings.flatMap fun b => [.fnPointer b.typedefDec, .blank]

def methodDefs : Fragment := c.bindings.flatMap fun b => b.methodDef ++ [.blank]

/-- Callbacks for host languages, or nothing in their place. -/
def overrideDecs : Item :=
  .condElse ⟨.ifDefined, "CFISH_NO_DYNAMIC_OVERRIDES", false, false⟩
    (c.overridable.map fun b => .define b.overrideNull)
    (c.overridable.map fun b => .fnDecl b.overrideDec)

/-! ## Short names -/

/-- Macros from a name without prefix to the symbol it stands for. -/
def aliases : List (String × String) :=
  let instanceNames :=
    [(c.structSym, c.fullStructSym), (c.shortClassVar, c.fullClassVar)]
  let functionNames := c.functions.map fun f => (c.shortSym f.name, c.fullSym f.name)
  let varNames := c.inertVars.map fun v => (c.shortSym v.name, c.fullSym v.name)
  let h := c.toClassHead
  let impNames := c.freshMethods.map fun m => (m.shortImpFunc h, m.impFuncIn h)
  let methodNames := c.methods.flatMap fun m =>
    [(m.shortMethodSym h, m.fullMethodSym h), (m.shortTypedef h, m.fullTypedef h)]
  if c.inert then functionNames ++ varNames
  else instanceNames ++ functionNames ++ varNames ++ impNames ++ methodNames

def shortNames : Item :=
  .cond ⟨.ifDefined, c.shortNamesMacro, true, true⟩ (c.aliases.map fun a => .defineAs a.1 a.2)

def shortNamesSection : Fragment :=
  titled "Define \"short names\" for this class's symbols." [c.shortNames]

/-! ## The whole -/

def inertHeader : Fragment :=
  titled "Declare this class's inert variables." c.inertVarDecs ++
    titled "Declare this class's inert functions." c.subDeclarations ++
    c.shortNamesSection

def dynamicHeader : Fragment :=
  titled "Include the header for this class's parent." c.parentInclude ++
    titled "Define the struct layout for instances of this class." [c.layoutSection] ++
    titled "Declare this class's inert variables." c.inertVarDecs ++
    titled ("Declare both this class's inert functions and the C functions which\n" ++
      "implement this class's dynamic methods.") c.subDeclarations ++
    titled ("Define typedefs for each dynamic method, allowing us to cast generic\n" ++
      "pointers to the appropriate function pointer type more cleanly.") c.typedefDecs ++
    titled "Define the inline functions which implement this class's virtual methods."
      c.methodDefs ++
    titled "Declare callbacks for wrapping host overrides." [c.overrideDecs] ++
    c.shortNamesSection

/-- The declarations of the class. -/
def headerFragment : Fragment := if c.inert then c.inertHeader else c.dynamicHeader

/-- Callbacks for host languages, defined away. -/
def callbackDecs : Fragment :=
  if c.inert then [] else c.overridable.map fun b => .define b.overrideNull

end Class

end ClassTables
