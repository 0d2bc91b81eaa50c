import Mathlib.Tactic.Common

/-!
# RDKShell: the JSON that the wrappers read

A parameter of a request is a `Core::JSON::Variant`, of any shape.  The wrappers ask what it is and
read it as an object, an array or a plain value; what Thunder makes of a value that is something else
is up to it.

* `Variant`        the questions, over any type of values;
* `JsonValue`      values as trees, for examples.
-/

namespace RDKShell

/-- `Core::JSON::Variant`, and `VariantContainer` and `ArrayType<Variant>` read from it -/
structure Variant (Value : Type) where
  /-- `Content() == type::OBJECT` -/
  isObject : Value → Bool
  /-- what the object has under the label, if `HasLabel` finds it -/
  label : Value → String → Option Value
  array : Value → List Value
  string : Value → String
  number : Value → Int64
  boolean : Value → Bool

variable {Value : Type}

/-- `HasLabel(label) ? value[label].Array() : JsonArray()` -/
def Variant.arrayAt (V : Variant Value) (object : Value) (label : String) : List Value :=
  match V.label object label with
  | some value => V.array value
  | none => []

inductive JsonValue where
  | null
  | boolean (b : Bool)
  | number (n : Int64)
  | string (text : String)
  | array (values : List JsonValue)
  | object (labels : List (String × JsonValue))

/-- what is not of the kind that is read is empty -/
def jsonVariant : Variant JsonValue where
  isObject
    | .object _ => true
    | _ => false
  label value label :=
    match value with
    | .object labels => (labels.find? fun entry => entry.1 == label).map Prod.snd
    | _ => none
  array
    | .array values => values
    | _ => []
  string
    | .string text => text
    | _ => ""
  number
    | .number n => n
    | _ => 0
  boolean
    | .boolean b => b
    | _ => false

end RDKShell
