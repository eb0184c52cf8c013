import LayeredLedger.Binary64.Basic

/-!
# Configuration values

Configuration comes from several sources. Each is read into values of one type; a later source
overrides single keys of tables, and takes the place of anything else.

* `ConfigValue`, `ConfigValue.entry?`, `putEntry`;
* `ConfigValue.merge`: setting a value over another, tables being merged;
* `ConfigValue.asBool?`, `ConfigValue.asNat?`, `ConfigValue.asText?`: values of the types that
  settings have, other types being converted where that makes sense.
-/

namespace LayeredLedger

/-- A value of a configuration. -/
inductive ConfigValue where
  | text (value : String)
  | integer (value : Int)
  | real (value : Binary64)
  | boolean (value : Bool)
  /-- What no setting can be: a date, a time, or a gap in an array. -/
  | other
  | array (items : List ConfigValue)
  | table (entries : List (String × ConfigValue))

def putEntry {α : Type} (key : String) (value : α) : List (String × α) → List (String × α)
  | [] => [(key, value)]
  | (k, v) :: rest => if k = key then (key, value) :: rest else (k, v) :: putEntry key value rest

namespace ConfigValue

def emptyTable : ConfigValue := .table []

/-- The entries of a table. Anything else has none. -/
def entries : ConfigValue → List (String × ConfigValue)
  | table entries => entries
  | _ => []

/-- The items of an array. Anything else has none. -/
def items : ConfigValue → List ConfigValue
  | array items => items
  | _ => []

/-- The value under a key of a table. -/
def entry? (root : ConfigValue) (key : String) : Option ConfigValue := root.entries.lookup key

/-! ## Setting values -/

mutual

/-- Sets a value over another one. A table is merged into it, which makes it a table if it is
anything else. -/
def merge (target : ConfigValue) : ConfigValue → ConfigValue
  | table incoming => table (mergeEntries target.entries incoming)
  | value => value

/-- Sets the keys of a table one after the other. -/
def mergeEntries (target : List (String × ConfigValue)) :
    List (String × ConfigValue) → List (String × ConfigValue)
  | [] => target
  | (key, value) :: rest =>
    mergeEntries (putEntry key (merge ((target.lookup key).getD other) value) target) rest

end

/-! ## Values of settings -/

/-- A truth value in words. -/
def boolOfWord? (word : String) : Option Bool :=
  let lower := String.ofList (word.toList.map Char.toLower)
  if lower ∈ ["true", "on", "yes"] then some true
  else if lower ∈ ["false", "off", "no"] then some false
  else none

/-- A number in decimal digits, with a plus sign or without. -/
def natOfDigits? (digits : String) : Option Nat :=
  Text.ofDecimalDigits? (Text.dropPlus digits.toList)

/-- The value as a truth value. -/
def asBool? : ConfigValue → Option Bool
  | boolean b => some b
  | integer n => some (n ≠ 0)
  | real x => some !x.isZero
  | text "1" => some true
  | text "0" => some false
  | text word => boolOfWord? word
  | _ => none

/-- The value as a number that is not negative. -/
def asNat? : ConfigValue → Option Nat
  | integer n => if 0 ≤ n then some n.toNat else none
  | real x => x.round?
  | boolean b => some b.toNat
  | text word =>
    match boolOfWord? word with
    | some b => some b.toNat
    | none => natOfDigits? word
  | _ => none

/-- The value as a text. -/
def asText? : ConfigValue → Option String
  | text value => some value
  | integer n => some (toString n)
  | real x => some x.toText
  | boolean b => some (toString b)
  | _ => none

end ConfigValue

end LayeredLedger
