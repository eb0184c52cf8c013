import LayeredLedger.Tag.Basic

/-!
# Tags on the wire

Tags travel as one text: the tags with commas between them, a comma or a backslash inside a tag
written after a backslash. Reading never fails: a backslash gives the character after it as it
is, one at the very end is dropped, and the items go through `Tags.add`.

* `escapeChars`, `Tags.wireChars`, `Tags.toWire`: writing;
* `wireItems`, `Tags.ofWire`: reading.
-/

namespace LayeredLedger

/-- Writes a backslash before every comma and backslash. -/
def escapeChars (s : List Char) : List Char :=
  s.flatMap fun c => if c = ',' ∨ c = '\\' then ['\\', c] else [c]

/-- Puts a character in front of the first item. -/
def consFirst (c : Char) : List (List Char) → List (List Char)
  | [] => [[c]]
  | item :: items => (c :: item) :: items

/-- Cuts a text at the commas that no backslash escapes, and takes the escapes away. -/
def wireItems : List Char → List (List Char)
  | [] => [[]]
  | ['\\'] => [[]]
  | '\\' :: c :: rest => consFirst c (wireItems rest)
  | ',' :: rest => [] :: wireItems rest
  | c :: rest => consFirst c (wireItems rest)

namespace Tags

/-- The written form of tags, as characters. -/
def wireChars (s : Tags) : List Char :=
  [','].intercalate (s.toList.map fun t => escapeChars t.toList)

def toWire (s : Tags) : String := String.ofList s.wireChars

instance : ToString Tags := ⟨toWire⟩

def ofWire (s : String) : Tags := ofList ((wireItems s.toList).map String.ofList)

end Tags

end LayeredLedger
