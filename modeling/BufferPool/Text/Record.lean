/-!
A record as text: its name and, between braces, its fields in order.
-/

namespace BufferPool.Text

/-- With `more`, two dots stand for fields that are not shown. -/
def record (name : String) (fields : List (String × String)) (more : Bool) : String :=
  let shown := fields.map fun field => field.1 ++ ": " ++ field.2
  name ++ " \x7b " ++ ", ".intercalate (if more then shown ++ [".."] else shown) ++ " \x7d"

def decimal (n : Nat) : String := n.repr

def flag (b : Bool) : String := if b then "true" else "false"

end BufferPool.Text
