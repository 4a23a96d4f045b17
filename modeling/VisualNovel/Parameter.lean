import VisualNovel.Value.Basic

/-!
This module contains the parameters that actions declare, and the check of a tag's values against them.
-/

namespace VisualNovel

/--
The kind of value that a parameter takes.
-/
inductive ParameterKind where
  | string
  | number
  | boolean
  | array
  | object
  | any
  deriving DecidableEq, Repr

namespace ParameterKind

def name : ParameterKind → String
  | .string => "string"
  | .number => "number"
  | .boolean => "boolean"
  | .array => "array"
  | .object => "object"
  | .any => "any"

def accepts : ParameterKind → Value → Bool
  | .any, _ => true
  | .string, .string _ => true
  | .number, .number _ => true
  | .boolean, .bool _ => true
  | .array, .array _ => true
  | .object, .object _ => true
  | _, _ => false

end ParameterKind

/--
Whether a parameter may be left out, and with which value it is then filled in.
-/
inductive Presence where
  | required
  | optional (default : Option Value)
  deriving Repr

structure Parameter where
  name : String
  kind : ParameterKind
  presence : Presence
  deriving Repr

inductive ParameterError where
  | missing (name : String)
  | mismatch (name : String) (expected : ParameterKind) (found : Value)
  deriving Repr

def ParameterError.message : ParameterError → String
  | .missing name => "missing required parameter '" ++ name ++ "'"
  | .mismatch name expected found =>
    "parameter '" ++ name ++ "' must be a " ++ expected.name ++ ", got " ++ found.kind

namespace Parameter

def isRequired (p : Parameter) : Bool :=
  match p.presence with
  | .required => true
  | .optional _ => false

/--
Checks one parameter, and fills in its default if it has been left out.
-/
def check (p : Parameter) (values : Fields) : Except ParameterError Fields :=
  match Fields.find? p.name values, p.presence with
  | some value, _ =>
    if p.kind.accepts value then .ok values else .error (.mismatch p.name p.kind value)
  | none, .required => .error (.missing p.name)
  | none, .optional none => .ok values
  | none, .optional (some default) => .ok (Fields.insert p.name default values)

/--
Checks the parameters in the order of their declaration. Values that nobody declared pass through.
-/
def validate : List Parameter → Fields → Except ParameterError Fields
  | [], values => .ok values
  | p :: ps, values => do validate ps (← p.check values)

end Parameter
end VisualNovel
