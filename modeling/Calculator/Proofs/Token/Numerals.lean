import Calculator.Numeral.RoundTrip
import Calculator.Proofs.Token.Scanning

/-!
# Numerals are read

What the scanner lets through as a number is read as one: the forms of
`IsNumeral` are among those that `Numeral.read?` knows, and none of them is a
word or begins with a sign.
-/

namespace Calculator

open Numeral

/-- A numeral is a decimal. -/
theorem IsNumeral.exists_decimal {text : List Char} (h : IsNumeral text) :
    ∃ d, readDecimal? text = some d := by
  cases h with
  | digits hne hds => exact ⟨_, readDecimal?_digits hne hds⟩
  | decimal hne hw hf => exact ⟨_, readDecimal?_point (.inr hne) hw hf⟩

/-- A numeral begins with a digit or with its point. -/
theorem IsNumeral.exists_head {text : List Char} (h : IsNumeral text) :
    ∃ c rest, text = c :: rest ∧ isNumberPart c = true := by
  cases h with
  | @digits ds hne hds =>
    obtain ⟨c, rest, rfl⟩ := List.exists_cons_of_ne_nil hne
    exact ⟨c, rest, rfl, isNumberPart_of_isDigit (hds c List.mem_cons_self)⟩
  | @decimal whole fraction hne hw hf =>
    cases whole with
    | nil => exact ⟨'.', fraction, rfl, rfl⟩
    | cons c rest => exact ⟨c, _, rfl, isNumberPart_of_isDigit (hw c List.mem_cons_self)⟩

theorem toLower_ne_of_isNumberPart {c d : Char} (hc : isNumberPart c = true)
    (hd : isNumberPart d = false) : c.toLower ≠ d := by
  by_cases hpoint : c = '.'
  · rintro rfl
    rw [hpoint] at hd
    cases hd
  · have hdigit : d.isDigit = false := (Bool.or_eq_false_iff.mp hd).1
    exact toLower_ne_of_isDigit (isDigit_of_isNumberPart hc hpoint) hdigit

/-- A numeral is read. -/
theorem IsNumeral.exists_read {text : List Char} (h : IsNumeral text) :
    ∃ value, read? (String.ofList text) = some value := by
  obtain ⟨d, hd⟩ := h.exists_decimal
  obtain ⟨c, rest, rfl, hc⟩ := h.exists_head
  have hi : c.toLower ≠ 'i' := toLower_ne_of_isNumberPart hc rfl
  have hn : c.toLower ≠ 'n' := toLower_ne_of_isNumberPart hc rfl
  have hsign : splitSign (c :: rest) = (.plus, c :: rest) := by
    have hplus : c ≠ '+' := by
      rintro rfl
      cases hc
    have hminus : c ≠ '-' := by
      rintro rfl
      cases hc
    simp [splitSign, hplus, hminus]
  rw [read?_ofList hi hn hsign, hd]
  exact ⟨_, rfl⟩

/-- The numbers of a source that is scanned are read. -/
theorem exists_read_of_scan {dialect : Dialect} {source : String} {ts : List Token} {t : Token}
    (h : scan dialect source = .ok ts) (ht : t ∈ ts) (hk : t.kind = .number) :
    ∃ value, read? t.text = some value := by
  obtain ⟨hacceptable, rfl⟩ := acceptable_of_scan h
  obtain ⟨pre, run, post, hrun, htext⟩ := maximalRun_of_mem_cut ht hk
  rw [htext]
  exact (hacceptable.numerals pre run post hrun).exists_read

end Calculator
