/-!
# Names in messages
-/

namespace ClassTables.Text

/-- A name between backquotes. -/
def name (s : String) : String := "\x60" ++ s ++ "\x60"

end ClassTables.Text
