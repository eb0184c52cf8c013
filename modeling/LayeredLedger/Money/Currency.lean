import LayeredLedger.Text.Blank
import LayeredLedger.Text.Quoted

/-!
# Currency codes

A currency is named by three capital letters. A code is read from any text that holds three
letters, in either case and between blanks.

* `CurrencyCode`, `CurrencyCode.parse?`;
* `invalidCurrencyMessage`: what is said of a text that names no currency;
* **`CurrencyCode.parse?_text`**: every code is read back from its own text.
-/

namespace LayeredLedger

/-- Three capital letters. -/
def IsCurrencyCode (s : List Char) : Prop := s.length = 3 ∧ ∀ c ∈ s, c.isUpper

instance (s : List Char) : Decidable (IsCurrencyCode s) :=
  @instDecidableAnd _ _ _ (List.decidableBAll _ s)

/-- The code of a currency. -/
structure CurrencyCode where
  /-- The three letters. -/
  text : String
  isCode : IsCurrencyCode text.toList
deriving DecidableEq

namespace CurrencyCode

instance : ToString CurrencyCode := ⟨text⟩

/-- Reads a code: blanks around it are dropped and letters made capital. -/
def parse? (s : String) : Option CurrencyCode :=
  let letters := (Text.trimChars s.toList).map Char.toUpper
  if h : IsCurrencyCode letters then
    some ⟨String.ofList letters, by rwa [String.toList_ofList]⟩
  else none

/-- The capital letters are a range of code points. -/
theorem isUpper_iff_toNat {c : Char} : c.isUpper ↔ 65 ≤ c.toNat ∧ c.toNat ≤ 90 := by
  change decide ('A'.val ≤ c.val ∧ c.val ≤ 'Z'.val) = true ↔ _
  rw [decide_eq_true_eq, UInt32.le_iff_toNat_le, UInt32.le_iff_toNat_le]
  rfl

theorem not_isBlank_of_isUpper {c : Char} (h : c.isUpper) : Text.isBlank c = false := by
  have h65 := isUpper_iff_toNat.1 h
  simp only [Text.isBlank, Bool.or_eq_false_iff, Bool.and_eq_false_iff, beq_eq_false_iff_ne,
    decide_eq_false_iff_not]
  omega

theorem toUpper_of_isUpper {c : Char} (h : c.isUpper) : c.toUpper = c := by
  have h65 := isUpper_iff_toNat.1 h
  refine dif_neg fun ⟨h97, _⟩ => ?_
  have : 97 ≤ c.toNat := UInt32.le_iff_toNat_le.1 h97
  omega

/-- Every code is read back from its own text. -/
theorem parse?_text (c : CurrencyCode) : parse? c.text = some c := by
  obtain ⟨s, hs⟩ := c
  have hup : ∀ x ∈ s.toList, x.isUpper = true := hs.2
  have htrim : Text.trimChars s.toList = s.toList :=
    Text.trimChars_eq_self
      (fun x hx => not_isBlank_of_isUpper (hup x (List.mem_of_mem_head? hx)))
      (fun x hx => not_isBlank_of_isUpper (hup x (List.mem_of_mem_getLast? hx)))
  have hmap : s.toList.map Char.toUpper = s.toList := by
    conv => rhs; rw [← List.map_id s.toList]
    exact List.map_congr_left fun x hx => toUpper_of_isUpper (hup x hx)
  simp only [parse?, htrim, hmap, hs, dite_true, String.ofList_toList]

theorem ext_text {a b : CurrencyCode} (h : a.text = b.text) : a = b := by
  cases a
  cases b
  cases h
  rfl

end CurrencyCode

/-- The message about a text that names no currency. -/
def invalidCurrencyMessage (s : String) : String := "Invalid currency code: " ++ Text.quoted s

end LayeredLedger
