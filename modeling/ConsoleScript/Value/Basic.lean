import ConsoleScript.Decimal.Shortest

/-!
# Values and their types

Values carry their type at run time. Two of the types have no values of their own: `void` stands for
what a function without a result returns, and `object` for a parameter that takes any value.
-/

namespace ConsoleScript

inductive ValueType where
  | void
  | null
  | int
  | float
  | bool
  | string
  | object
deriving DecidableEq

namespace ValueType

def name : ValueType → String
  | void => "void"
  | null => "null"
  | int => "int"
  | float => "float"
  | bool => "bool"
  | string => "string"
  | object => "object"

/-- The type that a program can name this way. The types `null` and `object` have no such name. -/
def ofName? (name : String) : Option ValueType :=
  [void, int, float, bool, string].find? (·.name = name)

/-- Whether values of one type are turned into another where they are stored. -/
def castsTo : ValueType → ValueType → Bool
  | int, float => true
  | int, bool => true
  | _, _ => false

def nameList (types : List ValueType) : String :=
  ", ".intercalate (types.map name)

end ValueType

inductive Value where
  | null
  | int (n : Int64)
  | float (x : Float)
  | bool (b : Bool)
  | string (s : String)

namespace Value

def type : Value → ValueType
  | null => .null
  | int _ => .int
  | float _ => .float
  | bool _ => .bool
  | string _ => .string

def isNull : Value → Bool
  | null => true
  | _ => false

def display : Value → String
  | null => "null"
  | int n => toString n.toInt
  | float x => Decimal.text x
  | bool b => if b then "true" else "false"
  | string s => s

def printed : Option Value → String
  | none | some null => "NULL"
  | some value => value.display

end Value

end ConsoleScript
