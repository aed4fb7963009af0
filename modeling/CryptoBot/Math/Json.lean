/-
# JSON documents

A document is a tree.  It is read through queries that fail: a field of something
that is not an object, the elements of something that is not an array.  A number is
kept as its token, and what the token is worth is a question for a number reader.

A loop over a value that has no elements does not run zero times.  It runs once, on
an element that carries the failure, so `elements` answers with one failed element.
-/

import Mathlib.Algebra.Order.Ring.Rat
import Mathlib.Data.UInt

namespace CryptoBot.Math

inductive Json
  | null
  | boolean (value : Bool)
  | number (token : String)
  | string (value : String)
  | array (values : List Json)
  | object (fields : List (String × Json))

namespace Json

/-- The first field of the name. -/
def find (key : String) : Json → Option Json
  | object fields => fields.lookup key
  | _ => none

def getString : Json → Option String
  | string value => some value
  | _ => none

def getArray : Json → Option (List Json)
  | array values => some values
  | _ => none

def getNumber : Json → Option String
  | number token => some token
  | _ => none

def getBool : Json → Option Bool
  | boolean value => some value
  | _ => none

end Json

/-- A number of a document by its type. -/
inductive JsonNumber
  | signedInteger (value : ℤ)
  | unsignedInteger (value : UInt64)
  | floatingPoint (value : ℚ)
  | bigInteger
  deriving DecidableEq, Repr

/-- What numbers are worth: those that stand alone, by their tokens, and those that
stand inside a string. -/
structure NumberReader where
  getUint64 : String → Option UInt64
  getNumber : String → Option JsonNumber
  getDoubleInString : String → Option ℚ

namespace Json

variable (reader : NumberReader)

def getUint64 (value : Json) : Option UInt64 := value.getNumber.bind reader.getUint64

def getDoubleInString (value : Json) : Option ℚ := value.getString.bind reader.getDoubleInString

/-- What a loop over a queried value runs over. -/
def elements (value : Option Json) : List (Option Json) :=
  match value.bind getArray with
  | some values => values.map some
  | none => [none]

theorem find_nil (key : String) : (object []).find key = none := rfl

theorem find_cons_self (key : String) (value : Json) (fields : List (String × Json)) :
    (object ((key, value) :: fields)).find key = some value := by
  simp only [find, List.lookup_cons_self]

theorem find_cons_of_ne {key name : String} (h : key ≠ name) (value : Json)
    (fields : List (String × Json)) :
    (object ((name, value) :: fields)).find key = (object fields).find key := by
  simp only [find, List.lookup_cons, beq_false_of_ne h]

theorem elements_of_array {value : Option Json} {values : List Json}
    (h : value.bind getArray = some values) : elements value = values.map some := by
  simp only [elements, h]

theorem elements_of_none {value : Option Json} (h : value.bind getArray = none) :
    elements value = [none] := by
  simp only [elements, h]

theorem isSome_getArray_iff {value : Json} :
    value.getArray.isSome ↔ ∃ values, value = array values := by
  cases value <;> simp [getArray]

end Json

end CryptoBot.Math
