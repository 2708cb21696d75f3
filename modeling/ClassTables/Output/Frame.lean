import ClassTables.Fragment.Printer
import ClassTables.Text.Blank
import ClassTables.Text.Cut
/-!
# The frame of a generated file

Every file may start and end with a comment of the user's choice.  A header has an include guard and
C++ linkage besides:

```text
/* top */

#ifndef GUARD
#define GUARD 1
  …
#endif /* GUARD */

/* bottom */
```
-/

namespace ClassTables

/-- The texts at the top and at the bottom of every file; empty text is left out. -/
structure Frame where
  top : String := ""
  bottom : String := ""
deriving DecidableEq, Repr

/-! ## Comments -/

/-- What stands between comment marks, when the text starts and ends with them. -/
def commentBody? : List Char → Option (List Char)
  | '/' :: '*' :: rest =>
    match rest.reverse with
    | '/' :: '*' :: inner => some inner.reverse
    | _ => none
  | _ => none

/-- Whether the text is one comment from its first character to its last. -/
def isOneComment (cs : List Char) : Bool :=
  match commentBody? cs with
  | some inner => !Text.hasPair '*' '/' inner
  | none => false

/-- The item that shows a text as a comment.  Text that is one comment already, blanks around it
apart, is shown as it is. -/
def commentItem (text : String) : Item :=
  if isOneComment (Text.trim text).toList then .raw (Text.trim text) else .comment text

namespace Frame

variable (f : Frame)

/-- What goes before the body. -/
def before : Fragment := if f.top.isEmpty then [] else [commentItem f.top, .blank]

/-- What goes after the body. -/
def after : Fragment := if f.bottom.isEmpty then [] else [.blank, commentItem f.bottom]

def wrap (body : Fragment) : Fragment := f.before ++ body ++ f.after

end Frame

/-! ## Headers -/

/-- A line that only a C++ compiler sees. -/
def plusPlusOnly (line : String) : Item := .cond ⟨.ifDefined, "__cplusplus", false, false⟩ [.raw line]

/-- The body of a header between its guard and the end of it. -/
def guardItem (guard : String) (body : Fragment) : Item :=
  .cond ⟨.ifUndefined, guard, false, true⟩
    ([.defineAs guard "1", .blank, plusPlusOnly "extern \"C\" \x7b", .blank] ++ body ++
      [.blank, plusPlusOnly "\x7d", .blank])

/-- A header file. -/
def Frame.guarded (f : Frame) (guard : String) (body : Fragment) : Fragment :=
  f.wrap [guardItem guard body]

end ClassTables
