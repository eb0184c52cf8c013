import LayeredLedger.Json.Number

/-!
# Texts of JSON

A reader of JSON that keeps no more of a number than a whole number and how many of its digits
stand after the point cannot tell `1e2` from `100`. Here the numbers of a text are written anew
for it: those that are exact stay as they are, and the others get places after the point, the
power of ten being shifted.

* `JsonNumber.marked?`, `JsonNumber.ofMarked`: the form of a number, and the way back;
* `markNumbers?`: the text with its numbers in this form.
-/

namespace LayeredLedger

/-- What is taken from the power of ten of a number that is not exact. -/
def powerShift : Int := 2000

namespace JsonNumber

/-- The form of a number. A number that is too large has none. -/
def marked? (n : JsonNumber) : Option String :=
  let sign := if n.minus then "-" else ""
  if n.isExact then some (sign ++ toString n.digits)
  else
    match n.value with
    | .infinite _ => none
    | _ => some (sign ++ toString n.digits ++ "e-" ++ toString (max 1 (powerShift - n.exponent)))

/-- The number of which a form has these digits, so many of them after the point. -/
def ofMarked (digits : Int) (places : Nat) : JsonNumber :=
  if places = 0 then ⟨digits < 0, digits.natAbs, 0, true⟩
  else ⟨digits < 0, digits.natAbs, powerShift - places, false⟩

end JsonNumber

/-- The largest depth of arrays and objects in a text. -/
def maxJsonDepth : Nat := 127

/-- How deep the text is after a character, unless that is too deep. -/
def jsonDepth? (depth : Nat) (c : Char) : Option Nat :=
  if c = '[' ∨ c = '\x7b' then if depth < maxJsonDepth then some (depth + 1) else none
  else if c = ']' ∨ c = '\x7d' then some (depth - 1)
  else some depth

/-- The form of a number, of which the last character comes first. Without characters there is
none. -/
def markToken? (token : List Char) : Option (List Char) :=
  if token.isEmpty then some []
  else (JsonNumber.read? token.reverse).bind fun n => n.marked?.map String.toList

/-- Writes the rest of a text anew. `token` is what is read of a number, and `output` what has
been written, both with the last character first. -/
def markRest? (depth : Nat) (quoted : Bool) (token output : List Char) :
    List Char → Option (List Char)
  | [] => some output.reverse
  | '\\' :: c :: rest => markRest? depth quoted token (c :: '\\' :: output) rest
  | c :: rest => do
    if quoted then markRest? depth (c != '"') [] (c :: output) rest
    else if c.isDigit || c == '-' || (!token.isEmpty && c ∈ ['+', '.', 'e', 'E']) then
      markRest? depth false (c :: token) output rest
    else
      let number ← markToken? token
      let depth ← jsonDepth? depth c
      markRest? depth (c == '"') [] (c :: (number.reverse ++ output)) rest

/-- The text with its numbers in the form that shows their parts. A line end ends the last of
them. -/
def markNumbers? (text : String) : Option String :=
  (markRest? 0 false [] [] (text.toList ++ ['\n'])).map String.ofList

end LayeredLedger
