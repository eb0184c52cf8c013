import LayeredLedger.Text.Hidden

/-!
# Quoted text

The form in which messages show a text between double quotes. A quote and a backslash are
written after a backslash, the four common controls by a letter or digit, every other hidden
character by its code point in hexadecimal, and every other character as it is.

* `quoteChar`: the written form of one character;
* `quoted`: the written form of a text.
-/

namespace LayeredLedger.Text

/-- The lower-case hexadecimal digits of a number, without leading zeros. -/
def hexDigits (n : Nat) : List Char := Nat.toDigits 16 n

/-- The written form of one character between double quotes. -/
def quoteChar (c : Char) : List Char :=
  match c with
  | '"' => ['\\', '"']
  | '\\' => ['\\', '\\']
  | '\n' => ['\\', 'n']
  | '\r' => ['\\', 'r']
  | '\t' => ['\\', 't']
  | '\x00' => ['\\', '0']
  | c =>
    if isHidden c then ['\\', 'u', '\x7b'] ++ hexDigits c.toNat ++ ['\x7d'] else [c]

/-- The written form of a text: its characters between double quotes. -/
def quoted (s : String) : String :=
  String.ofList (['"'] ++ s.toList.flatMap quoteChar ++ ['"'])

end LayeredLedger.Text
