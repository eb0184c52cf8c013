/-!
# Byte order marks

A file of text may start with a mark that tells the order of its bytes and is no part of the text.

* `dropByteOrderMark`.
-/

namespace LayeredLedger.Text

/-- The text without a byte order mark in front. -/
def dropByteOrderMark : List Char → List Char
  | '\uFEFF' :: rest => rest
  | s => s

end LayeredLedger.Text
