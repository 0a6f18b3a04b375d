import ProcessCensus.Text.Duration
import ProcessCensus.Text.Quoted

/-!
Descriptions of values for people who look for a mistake: the name of a type, and its fields between
braces.
-/

namespace ProcessCensus.Text

/-- A value that may be missing. -/
def describeOption {α : Type} (describe : α → String) : Option α → String
  | some value => "Some(" ++ describe value ++ ")"
  | none => "None"

/-- A truth value. -/
def describeBool (value : Bool) : String :=
  if value then "true" else "false"

/-- Fields with their values, separated by commas. -/
def describeFields (fields : List (String × String)) : String :=
  ", ".intercalate (fields.map fun (name, value) => name ++ ": " ++ value)

/-- A structure with all of its fields. -/
def describeStructure (name : String) (fields : List (String × String)) : String :=
  name ++ " \x7b " ++ describeFields fields ++ " \x7d"

/-- A structure of which some fields are not shown. -/
def describePartly (name : String) (fields : List (String × String)) : String :=
  name ++ " \x7b " ++ describeFields fields ++ ", .. \x7d"

end ProcessCensus.Text
