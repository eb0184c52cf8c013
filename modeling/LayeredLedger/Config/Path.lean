import LayeredLedger.Config.Value
import LayeredLedger.Power

/-!
# Paths into a configuration

A key of a source can be a path: names with points between them, each perhaps followed by indices
between brackets. An index counts from the start of an array, or from its end when it is
negative. Setting a value at the end of a path makes the tables and arrays on the way.

* `PathStep`, `keyPath`: the path that a key stands for;
* `changeItem`: the item at an index, for which an array grows at either end;
* `ConfigValue.set`, `ConfigValue.overlay`: setting values at the end of paths.
-/

namespace LayeredLedger

/-- A step of a path. -/
inductive PathStep where
  | key (name : String)
  | item (index : Int)

/-! ## Keys as paths -/

/-- A character of a name in a path. -/
def isStepChar (c : Char) : Bool := c.isAlphanum || c == '_' || c == '-'

/-- A space between the parts of an index. -/
def isIndexSpace (c : Char) : Bool := c == ' ' || c == '\t'

def indexBound : Int := 2 ^ 63

/-- The index between brackets, of which the first is left out. -/
def readIndex (s : List Char) : Option PathStep := do
  if s.getLast? ≠ some ']' then none
  let inner := s.dropLast.dropWhile isIndexSpace
  let (minus, digits) := Text.takeMinus (inner.reverse.dropWhile isIndexSpace).reverse
  let n ← Text.ofDecimalDigits? digits
  let index : Int := if minus then -n else n
  if -indexBound ≤ index ∧ index < indexBound then some (.item index) else none

def readStep (s : List Char) : Option (List PathStep) := do
  let name := s.takeWhile isStepChar
  match name, (s.dropWhile isStepChar).splitOn '[' with
  | _ :: _, [] :: indices => return .key (String.ofList name) :: (← indices.mapM readIndex)
  | _, _ => none

/-- The path that a key stands for. A key that does not have the form of a path is one step by
itself. -/
def keyPath (key : String) : List PathStep :=
  match (key.toList.splitOn '.').mapM readStep with
  | some steps => steps.flatten
  | none => [.key key]

/-! ## Setting values -/

/-- Changes the item at an index of an array. Gaps are put at its end, or at its start if a
negative index asks for it, until there is one. -/
def changeItem (index : Int) (change : ConfigValue → ConfigValue) (items : List ConfigValue) :
    List ConfigValue :=
  let place := if 0 ≤ index then index else items.length + index
  let before := List.replicate (-place).toNat ConfigValue.other
  let after := List.replicate (place + 1 - items.length).toNat ConfigValue.other
  (before ++ items ++ after).modify place.toNat change

namespace ConfigValue

/-- Changes the value at the end of a path. What is on the way becomes a table or an array if it
is not. -/
def change (f : ConfigValue → ConfigValue) : List PathStep → ConfigValue → ConfigValue
  | [], value => f value
  | .key name :: path, value =>
    table (putEntry name (change f path ((value.entry? name).getD other)) value.entries)
  | .item index :: path, value => array (changeItem index (change f path) value.items)

/-- Sets a value at the end of a path. -/
def set (root : ConfigValue) (path : List PathStep) (value : ConfigValue) : ConfigValue :=
  change (fun target => target.merge value) path root

/-- Sets the keys of a source, which may be paths. -/
def overlay (root source : ConfigValue) : ConfigValue :=
  source.entries.foldl (fun root (key, value) => root.set (keyPath key) value) root

end ConfigValue

end LayeredLedger
