import Evidence.Text.Quoted
import Evidence.Text.Separated

namespace Evidence.Text

def listed (items : List String) : String := "[" ++ join "," items ++ "]"

def fielded (fields : List (String × String)) : String :=
  "\x7b" ++ join "," (fields.map fun p => quote p.1 ++ ":" ++ p.2) ++ "\x7d"

end Evidence.Text
