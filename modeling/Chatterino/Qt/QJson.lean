import Chatterino.Qt.QString

/-! # JSON values

The values of Qt's JSON classes over a type of numbers. Every key that is used is a literal of the
source.
-/

namespace Chatterino

inductive QJsonValue (F : Type) where
  | undefined
  | null
  | bool (value : Bool)
  | double (value : F)
  | string (value : QString)
  | array (items : List (QJsonValue F))
  | object (members : List (String × QJsonValue F))

abbrev QJsonObject (F : Type) := List (String × QJsonValue F)

variable {F : Type}

namespace QJsonValue

def isUndefined : QJsonValue F → Bool
  | undefined => true
  | _ => false

def isString : QJsonValue F → Bool
  | string _ => true
  | _ => false

def equals (text : QString) : QJsonValue F → Bool
  | string value => value = text
  | _ => false

def toBool (default : Bool) : QJsonValue F → Bool
  | bool value => value
  | _ => default

def toDouble (default : F) : QJsonValue F → F
  | double value => value
  | _ => default

def toString : QJsonValue F → QString
  | string value => value
  | _ => []

def toArray : QJsonValue F → List (QJsonValue F)
  | array items => items
  | _ => []

def toObject : QJsonValue F → QJsonObject F
  | object members => members
  | _ => []

end QJsonValue

namespace QJsonObject

def insert (key : String) (value : QJsonValue F) (object : QJsonObject F) : QJsonObject F :=
  (key, value) :: object.filter fun entry => entry.1 ≠ key

def value (key : String) (object : QJsonObject F) : QJsonValue F :=
  ((object.find? fun entry => entry.1 = key).map Prod.snd).getD .undefined

def contains (key : String) (object : QJsonObject F) : Bool := object.any fun entry => entry.1 = key

@[simp]
theorem value_nil (key : String) : value key ([] : QJsonObject F) = .undefined := rfl

@[simp]
theorem contains_nil (key : String) : contains key ([] : QJsonObject F) = false := rfl

@[simp]
theorem value_insert (key key' : String) (inserted : QJsonValue F) (object : QJsonObject F) :
    value key' (insert key inserted object) = if key' = key then inserted else value key' object := by
  unfold value insert
  rw [List.find?_cons, List.find?_filter]
  split_ifs with hKey
  · simp [hKey]
  · have hRest (entry : String × QJsonValue F) :
        decide (decide (entry.1 ≠ key) = true ∧ decide (entry.1 = key') = true) = decide (entry.1 = key') := by
      by_cases hEntry : entry.1 = key'
      · simp [hEntry, hKey]
      · simp [hEntry]
    simp only [hRest, decide_eq_false (Ne.symm hKey)]

@[simp]
theorem contains_insert (key key' : String) (inserted : QJsonValue F) (object : QJsonObject F) :
    contains key' (insert key inserted object) = (decide (key = key') || contains key' object) := by
  unfold contains insert
  rw [List.any_cons, List.any_filter]
  by_cases hKey : key = key'
  · simp [hKey]
  · congr 2
    funext entry
    by_cases hEntry : entry.1 = key'
    · simp [hEntry, Ne.symm hKey]
    · simp [hEntry]

end QJsonObject

end Chatterino
