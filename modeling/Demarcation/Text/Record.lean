/-
The one-line text of a structured value: a name and its fields between braces, a name and one
argument between parentheses, a list between brackets.
-/

namespace Demarcation.Text

/-- Items between brackets. -/
def listing (items : List String) : String := "[" ++ ", ".intercalate items ++ "]"

/-- A name applied to one argument. -/
def tagged (name argument : String) : String := name ++ "(" ++ argument ++ ")"

/-- A name with named fields; the name alone when there are none. -/
def record (name : String) (fields : List (String × String)) : String :=
  if fields.isEmpty then name
  else name ++ " \x7b " ++ ", ".intercalate (fields.map fun (f, v) => f ++ ": " ++ v) ++ " \x7d"

/-- Keys and values between braces. -/
def mapping (entries : List (String × String)) : String :=
  "\x7b" ++ ", ".intercalate (entries.map fun (k, v) => k ++ ": " ++ v) ++ "\x7d"

/-- A text that may be missing. -/
def optional : Option String → String
  | none => "None"
  | some s => tagged "Some" s

/-- A truth value. -/
def truth : Bool → String
  | true => "true"
  | false => "false"

end Demarcation.Text
