import LayeredLedger.Power
import LayeredLedger.Text.Digits

/-!
# Identities

Accounts and journals are known by a number of 128 bits. It is written as 32 hexadecimal digits
in groups of 8, 4, 4, 4 and 12, and read in that form, without the hyphens, between braces or
after `urn:uuid:`.

* `Uuid`, `Uuid.toText`, `Uuid.parse?`;
* `AccountId`, `JournalId`: one type of identity for each kind of thing.
-/

namespace LayeredLedger

/-- A number of 128 bits. -/
structure Uuid where
  value : Nat
  value_lt : value < 2 ^ 128
deriving DecidableEq

namespace Uuid

/-- The identity made of the lowest 128 bits of a number. -/
def ofNat (n : Nat) : Uuid := ⟨n % 2 ^ 128, Nat.mod_lt _ (by decide)⟩

def nil : Uuid := ofNat 0

instance : Inhabited Uuid := ⟨nil⟩

def groupSizes : List Nat := [8, 4, 4, 4, 12]

/-- The 32 digits, most significant first. -/
def digits (u : Uuid) : List Char :=
  let d := Nat.toDigits 16 u.value
  List.replicate (32 - d.length) '0' ++ d

/-- Cuts a list into groups of the given sizes. -/
def cut {α : Type} : List Nat → List α → List (List α)
  | [], _ => []
  | n :: sizes, l => l.take n :: cut sizes (l.drop n)

/-- The hyphenated form, in lower case. -/
def toText (u : Uuid) : String :=
  String.ofList (['-'].intercalate (cut groupSizes u.digits))

instance : ToString Uuid := ⟨toText⟩

def ofDigits? (s : List Char) : Option Uuid := do
  let values ← s.mapM Text.hexValue?
  if values.length = 32 then some (ofNat (Text.positional 16 values)) else none

def ofHyphenated? (s : List Char) : Option Uuid :=
  let groups := s.splitOn '-'
  if groups.map List.length = groupSizes then ofDigits? groups.flatten else none

/-- The characters before an identity in the form of a resource name. -/
def resourceMark : List Char := "urn:uuid:".toList

/-- Reads an identity in any of its forms. -/
def parse? (s : String) : Option Uuid :=
  let cs := s.toList
  match cs.length with
  | 32 => ofDigits? cs
  | 36 => ofHyphenated? cs
  | 38 =>
    if cs.head? = some '\x7b' ∧ cs.getLast? = some '\x7d' then
      ofHyphenated? (cs.drop 1).dropLast
    else none
  | 45 =>
    if (cs.take 9).map Char.toLower = resourceMark then ofHyphenated? (cs.drop 9) else none
  | _ => none

end Uuid

/-- The identity of an account. -/
structure AccountId where
  uuid : Uuid
deriving DecidableEq

/-- The identity of a journal. -/
structure JournalId where
  uuid : Uuid
deriving DecidableEq

end LayeredLedger
