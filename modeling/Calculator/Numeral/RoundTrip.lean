import Mathlib
import Calculator.Numeral.Bits
import Calculator.Numeral.Read
import Calculator.Numeral.Rounding
import Calculator.Numeral.Write

/-!
# Numbers that are written are read back

Writing a double and reading its text gives the double again (`read?_write`),
infinities, both zeros and the double that is no number included.

The proof has three steps.  The decimal that is chosen for a magnitude rounds to
it (`magnitude_shortest`), because the search reads a candidate back before it
takes it and ends on the value itself.  The text of a decimal is read as a
decimal of the same value (`readDecimal?_positional`).  And a sign and a word
before or instead of the digits are recognised for what they are.
-/

namespace Calculator.Numeral

/-! ## The chosen decimal -/

private theorem ten_pow_pos (n : Nat) : 0 < Nat.pow 10 n := Nat.pow_pos (by decide)

private theorem magnitude_zero (e : Int) : (Decimal.mk 0 e).magnitude = 0 := by
  unfold Decimal.magnitude
  rw [if_pos rfl]

/-- A positive whole decimal whose exponent is not too large rounds as a
quotient by one. -/
private theorem magnitude_ofNat {digits e : Nat} (hd : digits ≠ 0) (he : e ≤ 308) :
    (Decimal.mk digits (.ofNat e)).magnitude =
      nearest (digits * Nat.pow 10 e * Decimal.unitsInOne) 1 := by
  have hsmall : ¬ (308 : Int) < .ofNat e := by
    simp only [Int.ofNat_eq_natCast]
    omega
  have hlarge : ¬ (.ofNat e : Int) + (digits.log2 + 1) < -400 := by
    simp only [Int.ofNat_eq_natCast]
    omega
  unfold Decimal.magnitude
  dsimp only
  rw [if_neg hd, if_neg hsmall, if_neg hlarge]

/-- A positive whole decimal that rounds to a finite magnitude has an exponent
of at most 308. -/
private theorem le_of_magnitude_lt {digits e : Nat} (hd : digits ≠ 0)
    (h : (Decimal.mk digits (.ofNat e)).magnitude < infinity) : e ≤ 308 := by
  refine Nat.le_of_not_lt fun he => ?_
  have hbig : (308 : Int) < .ofNat e := by
    simp only [Int.ofNat_eq_natCast]
    omega
  unfold Decimal.magnitude at h
  dsimp only at h
  rw [if_neg hd, if_pos hbig] at h
  exact Nat.lt_irrefl _ h

private theorem two_pow_le_five_pow (n : Nat) : 2 ^ n ≤ Nat.pow 5 n :=
  Nat.pow_le_pow_left (by decide) n

private theorem five_pow_mul_two_pow (n : Nat) : Nat.pow 5 n * 1 <<< n = Nat.pow 10 n := by
  rw [Nat.one_shiftLeft, Nat.pow_eq, Nat.pow_eq, ← Nat.mul_pow]

/-- A finite magnitude's exact decimal expansion rounds to it. -/
private theorem magnitude_exact {k : Nat} (hpos : 0 < k) (hk : k < infinity) :
    (Decimal.mk (units k * Nat.pow 5 unitExponent) (-unitExponent)).magnitude = k := by
  have hdigits : 2 ^ unitExponent ≤ units k * Nat.pow 5 unitExponent :=
    Nat.le_trans (two_pow_le_five_pow _) (Nat.le_mul_of_pos_left _ (units_pos hpos))
  have hne : units k * Nat.pow 5 unitExponent ≠ 0 :=
    Nat.pos_iff_ne_zero.1 (Nat.lt_of_lt_of_le (Nat.two_pow_pos _) hdigits)
  have hlog : unitExponent ≤ (units k * Nat.pow 5 unitExponent).log2 :=
    (Nat.le_log2 hne).2 hdigits
  have hsmall : ¬ (308 : Int) < -unitExponent := by decide
  have hlarge : ¬ (-unitExponent : Int) + ((units k * Nat.pow 5 unitExponent).log2 + 1) < -400 := by
    omega
  have hnum : units k * Nat.pow 5 unitExponent * Decimal.unitsInOne =
      units k * Nat.pow 10 unitExponent := by
    rw [Decimal.unitsInOne, Nat.mul_assoc, five_pow_mul_two_pow]
  obtain ⟨e, he⟩ : ∃ e, unitExponent = e + 1 := ⟨1073, rfl⟩
  have hneg : (-unitExponent : Int) = Int.negSucc e := by
    rw [he]
    rfl
  unfold Decimal.magnitude
  dsimp only
  rw [if_neg hne, if_neg hsmall, if_neg hlarge, hneg]
  dsimp only
  rw [hnum, ← he]
  exact nearest_units hk (ten_pow_pos _)

private theorem magnitude_pointOn? {k : Nat} {e : Int} {d : Decimal}
    (h : pointOn? k e = some d) : d.magnitude = k := by
  simp only [pointOn?] at h
  split at h
  · rename_i hd
    rwa [← Option.some.inj h]
  · split at h
    · rename_i hd
      rwa [← Option.some.inj h]
    · simp at h

private theorem magnitude_shortestFrom {k : Nat} (hpos : 0 < k) (hk : k < infinity)
    (steps : Nat) : (shortestFrom k steps).magnitude = k := by
  induction steps with
  | zero => exact magnitude_exact hpos hk
  | succ steps ih =>
    rw [shortestFrom]
    split
    · rename_i hd
      exact magnitude_pointOn? hd
    · exact ih

/-- The decimal that is chosen for a magnitude rounds to it. -/
theorem magnitude_shortest {k : Nat} (hpos : 0 < k) (hk : k < infinity) :
    (shortest k).magnitude = k :=
  magnitude_shortestFrom hpos hk _

/-! ## The text of a decimal -/

private theorem all_isDigit_toDigits (n : Nat) : ∀ c ∈ Nat.toDigits 10 n, c.isDigit = true :=
  fun _ hc => Nat.isDigit_of_mem_toDigits (by decide) (by decide) hc

private theorem isDigit_of_mem_replicate {n : Nat} {c : Char} (h : c ∈ List.replicate n '0') :
    c.isDigit = true := by
  rw [(List.mem_replicate.1 h).2]
  rfl

private theorem takeWhile_isDigit {digits : List Char} (h : ∀ c ∈ digits, c.isDigit = true) :
    digits.takeWhile Char.isDigit = digits := by
  rw [← List.append_nil digits, List.takeWhile_append_of_pos h, List.takeWhile_nil]

private theorem dropWhile_isDigit {digits : List Char} (h : ∀ c ∈ digits, c.isDigit = true) :
    digits.dropWhile Char.isDigit = [] := by
  rw [← List.append_nil digits, List.dropWhile_append_of_pos h, List.dropWhile_nil]

/-- Digits alone are read as a whole number. -/
theorem readDecimal?_digits {digits : List Char} (hne : digits ≠ [])
    (h : ∀ c ∈ digits, c.isDigit = true) : readDecimal? digits = some ⟨ofDigits digits, 0⟩ := by
  have htake := takeWhile_isDigit h
  have hdrop := dropWhile_isDigit h
  simp [readDecimal?, htake, hdrop, splitFraction, readExponent?, hne]

/-- Digits around a point are read as one number, scaled by the places behind
the point. -/
theorem readDecimal?_point {whole fraction : List Char} (hne : whole ≠ [] ∨ fraction ≠ [])
    (hw : ∀ c ∈ whole, c.isDigit = true) (hf : ∀ c ∈ fraction, c.isDigit = true) :
    readDecimal? (whole ++ '.' :: fraction) =
      some ⟨ofDigits (whole ++ fraction), -fraction.length⟩ := by
  have htake : (whole ++ '.' :: fraction).takeWhile Char.isDigit = whole := by
    rw [List.takeWhile_append_of_pos hw]
    simp
  have hdrop : (whole ++ '.' :: fraction).dropWhile Char.isDigit = '.' :: fraction := by
    rw [List.dropWhile_append_of_pos hw]
    simp
  have htake' := takeWhile_isDigit hf
  have hdrop' := dropWhile_isDigit hf
  have hempty : ¬ (whole.isEmpty && fraction.isEmpty) = true := by
    simpa [List.isEmpty_iff, Decidable.imp_iff_not_or] using hne
  simp [readDecimal?, htake, hdrop, splitFraction, readExponent?, htake', hdrop', hempty]

/-- A number that is written with a point has digits on both sides of it, and
together they are the number's digits. -/
private theorem withPoint_parts (digits e : Nat) :
    ∃ whole fraction : List Char, whole ≠ [] ∧ (∀ c ∈ whole, c.isDigit = true) ∧
      (∀ c ∈ fraction, c.isDigit = true) ∧ ofDigits (whole ++ fraction) = digits ∧
      fraction.length = e + 1 ∧
      Decimal.withPoint (Nat.toDigits 10 digits) (e + 1) = whole ++ '.' :: fraction := by
  have hall : ∀ c ∈ List.replicate (e + 1 + 1 - (Nat.toDigits 10 digits).length) '0'
      ++ Nat.toDigits 10 digits, c.isDigit = true := by
    intro c hc
    rcases List.mem_append.1 hc with hc | hc
    · exact isDigit_of_mem_replicate hc
    · exact all_isDigit_toDigits _ c hc
  have hvalue : ofDigits (List.replicate (e + 1 + 1 - (Nat.toDigits 10 digits).length) '0'
      ++ Nat.toDigits 10 digits) = digits := by
    simp [ofDigits, Nat.ofDigitChars_append]
  have hlength : e + 1 < (List.replicate (e + 1 + 1 - (Nat.toDigits 10 digits).length) '0'
      ++ Nat.toDigits 10 digits).length := by
    rw [List.length_append, List.length_replicate]
    omega
  rw [Decimal.withPoint]
  generalize List.replicate (e + 1 + 1 - (Nat.toDigits 10 digits).length) '0'
    ++ Nat.toDigits 10 digits = filled at hall hvalue hlength
  refine ⟨filled.take (filled.length - (e + 1)), filled.drop (filled.length - (e + 1)), ?_,
    fun c hc => hall c (List.mem_of_mem_take hc), fun c hc => hall c (List.mem_of_mem_drop hc),
    ?_, ?_, rfl⟩
  · intro hc
    have hzero := congrArg List.length hc
    rw [List.length_take, List.length_nil] at hzero
    omega
  · rw [List.take_append_drop, hvalue]
  · rw [List.length_drop]
    omega

/-- The text of a decimal is read as a decimal that rounds to the same
magnitude, if that is finite. -/
theorem readDecimal?_positional {d : Decimal} (h : d.magnitude < infinity) :
    ∃ d', readDecimal? d.positional = some d' ∧ d'.magnitude = d.magnitude := by
  obtain ⟨digits, exponent⟩ := d
  match exponent with
  | .ofNat e =>
    refine ⟨⟨digits * Nat.pow 10 e, 0⟩, ?_, ?_⟩
    · rw [Decimal.positional, readDecimal?_digits]
      · simp [ofDigits, Nat.ofDigitChars_append, Nat.mul_comm]
      · simp [Nat.toDigits_ne_nil]
      · intro c hc
        rcases List.mem_append.1 hc with hc | hc
        · exact all_isDigit_toDigits _ c hc
        · exact isDigit_of_mem_replicate hc
    · rcases Nat.eq_zero_or_pos digits with rfl | hpos
      · rw [Nat.zero_mul, magnitude_zero, magnitude_zero]
      · have hd : digits ≠ 0 := Nat.pos_iff_ne_zero.1 hpos
        have hmul : digits * Nat.pow 10 e ≠ 0 :=
          Nat.pos_iff_ne_zero.1 (Nat.mul_pos hpos (ten_pow_pos e))
        have he : e ≤ 308 := le_of_magnitude_lt hd h
        rw [magnitude_ofNat hd he]
        refine (magnitude_ofNat hmul (Nat.zero_le 308)).trans ?_
        rw [show Nat.pow 10 0 = 1 from rfl, Nat.mul_one]
  | .negSucc e =>
    obtain ⟨whole, fraction, hne, hw, hf, hvalue, hlength, htext⟩ := withPoint_parts digits e
    refine ⟨⟨digits, .negSucc e⟩, ?_, rfl⟩
    simp only [Decimal.positional, htext]
    rw [readDecimal?_point (.inl hne) hw hf, hvalue, hlength]
    rfl

/-! ## Signs and words -/

/-- The text of a decimal starts with a digit. -/
private theorem headDigit_positional (d : Decimal) :
    ∃ c rest, c.isDigit = true ∧ d.positional = c :: rest := by
  obtain ⟨digits, exponent⟩ := d
  have hall := all_isDigit_toDigits digits
  match exponent with
  | .ofNat e =>
    match hd : Nat.toDigits 10 digits with
    | [] => exact absurd hd Nat.toDigits_ne_nil
    | c :: rest =>
      refine ⟨c, rest ++ List.replicate e '0', hall c (by simp [hd]), ?_⟩
      simp [Decimal.positional, hd]
  | .negSucc e =>
    obtain ⟨whole, fraction, hne, hw, -, -, -, htext⟩ := withPoint_parts digits e
    match whole with
    | [] => exact absurd rfl hne
    | c :: rest => exact ⟨c, rest ++ '.' :: fraction, hw c (by simp), htext⟩

theorem ne_of_isDigit {c d : Char} (hc : c.isDigit = true) (hd : d.isDigit = false) :
    c ≠ d := by
  rintro rfl
  rw [hc] at hd
  exact Bool.noConfusion hd

private theorem toLower_of_isDigit {c : Char} (h : c.isDigit = true) : c.toLower = c := by
  have hbounds : 48 ≤ c.val ∧ c.val ≤ 57 := by simpa [Char.isDigit] using h
  rw [Char.toLower, dif_neg]
  intro hupper
  have hlow : (65 : UInt32) ≤ c.val := hupper.1
  exact absurd (UInt32.le_trans hlow hbounds.2) (by decide)

theorem toLower_ne_of_isDigit {c d : Char} (hc : c.isDigit = true) (hd : d.isDigit = false) :
    c.toLower ≠ d := by
  rw [toLower_of_isDigit hc]
  exact ne_of_isDigit hc hd

/-- A text and a word that start with different letters differ. -/
private theorem ofList_toLower_ne {c i : Char} (hc : c.toLower ≠ i) (rest word : List Char) :
    String.ofList ((c :: rest).map Char.toLower) ≠ String.ofList (i :: word) := by
  intro h
  have hlist := String.ofList_injective h
  rw [List.map_cons] at hlist
  exact hc (List.cons.inj hlist).1

/-- A text whose part behind the sign is no word is read as a decimal. -/
theorem read?_ofList {text : List Char} {sign : Sign} {c : Char} {rest : List Char}
    (hi : c.toLower ≠ 'i') (hn : c.toLower ≠ 'n') (hs : splitSign text = (sign, c :: rest)) :
    read? (String.ofList text) =
      (readDecimal? (c :: rest)).map fun d => toFloat sign d.magnitude := by
  simp only [read?, String.toList_ofList, hs]
  rw [if_neg, if_neg]
  · exact ofList_toLower_ne hn rest ['a', 'n']
  · simp only [Bool.or_eq_true, decide_eq_true_eq, not_or]
    exact ⟨ofList_toLower_ne hi rest ['n', 'f'],
      ofList_toLower_ne hi rest ['n', 'f', 'i', 'n', 'i', 't', 'y']⟩

/-- A positive finite magnitude is read back, with either sign. -/
private theorem read?_positional {k : Nat} (hpos : 0 < k) (hk : k < infinity) (sign : Sign)
    {text : List Char} (hs : splitSign text = (sign, (shortest k).positional)) :
    read? (String.ofList text) = some (toFloat sign k) := by
  have hmagnitude := magnitude_shortest hpos hk
  obtain ⟨d, hread, hd⟩ := readDecimal?_positional (d := shortest k) (by rw [hmagnitude]; exact hk)
  obtain ⟨c, rest, hc, htext⟩ := headDigit_positional (shortest k)
  rw [htext] at hs hread
  have hi := toLower_ne_of_isDigit (d := 'i') hc rfl
  have hn := toLower_ne_of_isDigit (d := 'n') hc rfl
  rw [read?_ofList hi hn hs, hread, Option.map_some, hd, hmagnitude]

/-- The text of a magnitude is read back, with either sign. -/
private theorem read?_writeMagnitude {k : Nat} (hk : k ≤ infinity) (sign : Sign) {text : List Char}
    (hs : splitSign text = (sign, writeMagnitude k)) :
    read? (String.ofList text) = some (toFloat sign k) := by
  rw [writeMagnitude] at hs
  split at hs
  · rename_i hinf
    subst hinf
    simp only [read?, String.toList_ofList, hs]
    rfl
  · rename_i hfinite
    split at hs
    · rename_i hzero
      subst hzero
      rw [read?_ofList (by decide) (by decide) hs]
      rfl
    · rename_i hne
      exact read?_positional (by omega) (by omega) sign hs

/-- The text of a magnitude has no sign. -/
private theorem splitSign_writeMagnitude (k : Nat) :
    splitSign (writeMagnitude k) = (.plus, writeMagnitude k) := by
  rw [writeMagnitude]
  split
  · rfl
  · split
    · rfl
    · obtain ⟨c, rest, hc, htext⟩ := headDigit_positional (shortest k)
      rw [htext]
      have hplus := ne_of_isDigit (d := '+') hc rfl
      have hminus := ne_of_isDigit (d := '-') hc rfl
      simp [splitSign, hplus, hminus]

/-- A double that is written is read back. -/
theorem read?_write (x : Float) : read? (write x) = some x := by
  rw [write]
  split
  · rename_i h
    rw [eq_notANumber_of_ofFloat? h]
    rfl
  · rename_i k h
    obtain ⟨hx, hk⟩ := toFloat_of_ofFloat? h
    rw [read?_writeMagnitude hk .plus (splitSign_writeMagnitude k), hx]
  · rename_i k h
    obtain ⟨hx, hk⟩ := toFloat_of_ofFloat? h
    rw [read?_writeMagnitude hk .minus rfl, hx]

end Calculator.Numeral
