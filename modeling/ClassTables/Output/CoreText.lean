/-!
# The definitions of the object system

The core parcel's header carries the types and functions that every other generated file relies on:
access to method pointers through the class of an object, and the structs from which classes are
loaded.
-/

namespace ClassTables

/-- The definitions, line by line. -/
def coreLines : List String :=
  ["#define CFISH_UNUSED_VAR(var) ((void)var)",
   "#define CFISH_UNREACHABLE_RETURN(type) return (type)0",
   "",
   "/* Generic method pointer.",
   " */",
   "typedef void",
   "(*cfish_method_t)(const void *vself);",
   "",
   "/* Access the function pointer for a given method from the class.",
   " */",
   "#define CFISH_METHOD_PTR(_class, _full_meth) \\",
   "     ((_full_meth ## _t)cfish_method(_class, _full_meth ## _OFFSET))",
   "",
   "static CFISH_INLINE cfish_method_t",
   "cfish_method(const void *klass, size_t offset) \x7b",
   "    union \x7b char *cptr; cfish_method_t *fptr; \x7d ptr;",
   "    ptr.cptr = (char*)klass + offset;",
   "    return ptr.fptr[0];",
   "\x7d",
   "",
   "typedef struct cfish_Dummy \x7b",
   "    CFISH_OBJ_HEAD",
   "    void *klass;",
   "\x7d cfish_Dummy;",
   "",
   "/* Access the function pointer for a given method from the object.",
   " */",
   "static CFISH_INLINE cfish_method_t",
   "cfish_obj_method(const void *object, size_t offset) \x7b",
   "    cfish_Dummy *dummy = (cfish_Dummy*)object;",
   "    return cfish_method(dummy->klass, offset);",
   "\x7d",
   "",
   "/* Access the function pointer for the given method in the superclass.",
   " */",
   "#define CFISH_SUPER_METHOD_PTR(_class, _full_meth) \\",
   "     ((_full_meth ## _t)cfish_super_method(_class, \\",
   "                                           _full_meth ## _OFFSET))",
   "",
   "extern CFISH_VISIBLE size_t cfish_Class_offset_of_parent;",
   "static CFISH_INLINE cfish_method_t",
   "cfish_super_method(const void *klass, size_t offset) \x7b",
   "    char *class_as_char = (char*)klass;",
   "    cfish_Class **parent_ptr",
   "        = (cfish_Class**)(class_as_char + cfish_Class_offset_of_parent);",
   "    return cfish_method(*parent_ptr, offset);",
   "\x7d",
   "",
   "/* Structs for Class initialization.",
   " */",
   "",
   "typedef struct cfish_NovelMethSpec \x7b",
   "    size_t         *offset;",
   "    const char     *name;",
   "    cfish_method_t  func;",
   "    cfish_method_t  callback_func;",
   "\x7d cfish_NovelMethSpec;",
   "",
   "typedef struct cfish_OverriddenMethSpec \x7b",
   "    size_t         *offset;",
   "    size_t         *parent_offset;",
   "    cfish_method_t  func;",
   "\x7d cfish_OverriddenMethSpec;",
   "",
   "typedef struct cfish_InheritedMethSpec \x7b",
   "    size_t *offset;",
   "    size_t *parent_offset;",
   "\x7d cfish_InheritedMethSpec;",
   "",
   "typedef struct cfish_ClassSpec \x7b",
   "    cfish_Class **klass;",
   "    cfish_Class **parent;",
   "    const char   *name;",
   "    size_t        ivars_size;",
   "    size_t       *ivars_offset_ptr;",
   "    uint32_t      num_novel_meths;",
   "    uint32_t      num_overridden_meths;",
   "    uint32_t      num_inherited_meths;",
   "    const cfish_NovelMethSpec      *novel_meth_specs;",
   "    const cfish_OverriddenMethSpec *overridden_meth_specs;",
   "    const cfish_InheritedMethSpec  *inherited_meth_specs;",
   "\x7d cfish_ClassSpec;",
   "",
   "#ifdef CFISH_USE_SHORT_NAMES",
   "  #define METHOD_PTR               CFISH_METHOD_PTR",
   "  #define SUPER_METHOD_PTR         CFISH_SUPER_METHOD_PTR",
   "#endif"]

/-- The definitions as one text. -/
def coreText : String := "\n".intercalate coreLines

end ClassTables
