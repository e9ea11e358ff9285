/-
JSON values.

Integers keep their exact value, and object members their order and their
repetitions.  A value is taken apart by the functions at the end, each of which
accepts exactly one form of JSON.
-/

namespace LogCorpus

/-- A JSON value.  A string with an unpaired surrogate escape has no text.  A
number that is not written as an integer, minus zero among them, is kept as it
was written. -/
inductive Json where
  | null
  | bool (value : Bool)
  | integer (value : Int)
  | decimal (lexeme : String)
  | string (text : Option String)
  | array (items : List Json)
  | object (members : List (Option String × Json))
deriving Repr

namespace Json

/-- The JSON string of a text. -/
def text (text : String) : Json :=
  .string (some text)

/-- The JSON number of a natural number. -/
def natural (number : Nat) : Json :=
  .integer number

/-- An object with these members. -/
def ofMembers (members : List (String × Json)) : Json :=
  .object (members.map fun (key, value) => (some key, value))

/-- The text of a string. -/
def text? : Json → Option String
  | .string text => text
  | _ => none

@[simp]
theorem text?_text (value : String) : (text value).text? = some value := rfl

/-- The value of an integer below a bound. -/
def naturalBelow? (bound : Nat) : Json → Option Nat
  | .integer value =>
      if 0 ≤ value ∧ value < bound then some value.toNat else none
  | _ => none

/-- The items of an array, each of them read by the same function. -/
def list? (item? : Json → Option α) : Json → Option (List α)
  | .array items => items.mapM item?
  | _ => none

/-- The name of a constant: a string, or an object that has the name as its
only key with the value `null`. -/
def name? : Json → Option String
  | .string text => text
  | .object [(key, .null)] => key
  | _ => none

@[simp]
theorem name?_text (value : String) : (text value).name? = some value := rfl

/-- The only value among the members with one of these keys. -/
def onlyMember? (keys : List String) (members : List (Option String × Json)) :
    Option Json :=
  match members.filter fun member => member.1.any keys.contains with
  | [(_, value)] => some value
  | _ => none

/-- The fields of a record, in the order of their names.  A record is an array
of exactly its fields or an object with every field under exactly one of its
names; other keys of an object are passed over. -/
def fields? (names : List (List String)) : Json → Option (List Json)
  | .array items => if items.length = names.length then some items else none
  | .object members =>
      if members.any fun member => member.1.isNone then none
      else names.mapM fun keys => onlyMember? keys members
  | _ => none

end Json

end LogCorpus
