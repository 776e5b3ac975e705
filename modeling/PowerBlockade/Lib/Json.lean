import Mathlib.Data.List.Basic

/-!
# JSON values

Trees as the decoders of both programs see them: a number whose literal is not an integer keeps its
text, and an object keeps the order of its members.
-/

namespace PowerBlockade.Lib

inductive Json where
  | null
  | bool (b : Bool)
  | integer (n : Int)
  | decimal (literal : String)
  | string (s : String)
  | array (items : List Json)
  | object (members : List (String × Json))

namespace Json

abbrev Members := List (String × Json)

def asBool : Json → Option Bool
  | bool b => some b
  | _ => none

def asInteger : Json → Option Int
  | integer n => some n
  | _ => none

def asString : Json → Option String
  | string s => some s
  | _ => none

def required {α : Type*} (members : Members) (name : String) (read : Json → Option α) : Option α :=
  (members.lookup name).bind read

def defaulted {α : Type*} (members : Members) (name : String) (default : α) (read : Json → Option α) :
    Option α :=
  match members.lookup name with
  | none => some default
  | some value => read value

def nullable {α : Type*} (read : Json → Option α) : Json → Option (Option α)
  | null => some none
  | value => (read value).map some

end Json

end PowerBlockade.Lib
