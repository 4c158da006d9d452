import Mathlib.Data.List.DropRight
import SewaConnect.Values.Double

/-! Dynamically typed stored values: what a document database or a property
list gives back. Reading is by key and cast. A cast of a boxed number succeeds
for every numeric type that represents it exactly, a boolean being the number
zero or one; all other casts need the exact kind. Then the cutting of a text
that is read from a form. -/

namespace SewaConnect.Values

inductive Value where
  | null
  | bool (b : Bool)
  | integer (n : ℤ)
  | double (d : Double)
  | string (s : String)
  | bytes (b : List UInt8)
  | timestamp (seconds nanoseconds : ℤ)
  | geoPoint (latitude longitude : Double)
  | reference (path : String)
  | array (elements : List Value)
  | map (fields : List (String × Value))

/-- A dictionary from strings to values. -/
abbrev Fields := List (String × Value)

/-- The subscript `fields[key]`. -/
def Fields.get (fields : Fields) (key : String) : Option Value := fields.lookup key

@[simp] theorem Fields.get_nil (key : String) : Fields.get [] key = none := rfl

@[simp] theorem Fields.get_cons (k : String) (v : Value) (fields : Fields) (key : String) :
    Fields.get ((k, v) :: fields) key = if key = k then some v else fields.get key := by
  unfold Fields.get
  by_cases h : key = k
  · simp [h]
  · have hb : (key == k) = false := beq_false_of_ne h
    simp [List.lookup_cons, h, hb]

namespace Value

/-- `as? String` -/
def asString : Value → Option String
  | .string s => some s
  | _ => none

/-- `as? Int` -/
def asInt : Value → Option ℤ
  | .bool b => some b.toNat
  | .integer n => some n
  | .double d => d.exactInt
  | _ => none

/-- `as? Double` -/
def asDouble : Value → Option Double
  | .bool b => Double.ofExactInt b.toNat
  | .integer n => Double.ofExactInt n
  | .double d => some d
  | _ => none

/-- `as? [String: Any]` -/
def asMap : Value → Option Fields
  | .map fields => some fields
  | _ => none

@[simp] theorem asString_string (s : String) : (string s).asString = some s := rfl
@[simp] theorem asInt_integer (n : ℤ) : (integer n).asInt = some n := rfl
@[simp] theorem asDouble_double (d : Double) : (double d).asDouble = some d := rfl
@[simp] theorem asMap_map (fields : Fields) : (map fields).asMap = some fields := rfl

mutual

/-- The texts a value holds, at any depth. -/
def texts : Value → List String
  | .string s => [s]
  | .array elements => textsOfElements elements
  | .map fields => textsOfFields fields
  | _ => []

def textsOfElements : List Value → List String
  | [] => []
  | v :: elements => texts v ++ textsOfElements elements

def textsOfFields : List (String × Value) → List String
  | [] => []
  | (_, v) :: fields => texts v ++ textsOfFields fields

end

end Value

/-- A type with integer raw values, each read back as the case it came from. -/
class RawRepresentable (α : Type*) where
  rawValue : α → ℤ
  ofRawValue : ℤ → Option α
  ofRawValue_rawValue : ∀ x, ofRawValue (rawValue x) = some x

export RawRepresentable (rawValue ofRawValue)

attribute [simp] RawRepresentable.ofRawValue_rawValue

/-! ### Texts -/

/-- What `java.lang.String.trim` cuts: the space and the control characters before it. -/
def isCut (c : Char) : Bool := c.toNat ≤ 0x20

def trim (s : String) : String := String.ofList ((s.toList.dropWhile isCut).rdropWhile isCut)

example : trim "  a b\n" = "a b" := by decide

end SewaConnect.Values
