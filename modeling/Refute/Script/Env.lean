import Refute.Value

namespace Refute.Script

abbrev Env := List (String × Value)

namespace Env

/-- Sets a variable where it stands, or adds it at the end. -/
def set (env : Env) (name : String) (v : Value) : Env :=
  if env.any (·.1 == name) then env.map fun b => if b.1 == name then (name, v) else b
  else env ++ [(name, v)]

/-- Later bindings hide earlier ones. -/
def bind (env : Env) (names : List String) (values : List Value) : Env :=
  names.zip values ++ env

/-- What functions call their arguments. -/
def argumentNames : List String :=
  ["a", "b", "c", "d", "e", "f", "g", "h"]

def withArguments (env : Env) (values : List Value) : Env :=
  env.bind argumentNames values

end Env

end Refute.Script
