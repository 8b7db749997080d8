import Calculator.Text.Quoted
import Mathlib.Data.List.Basic

/-!
# Texts that tell where they end

A description is put together from parts without their lengths.  It can be read
all the same when each part tells where it ends.

A way to write values is `SelfDelimiting` when what is written tells the value
and its own end, whatever comes next, and it is `EndedBy` a character when it
does so before that character.

* Digits are ended by every character that is no digit (`endedBy_toDigits`).
* What stands for a character between quotes is self-delimiting
  (`selfDelimiting_escape`): it is the character itself, or a backslash and what
  the character is known by.
* A quoted text is self-delimiting (`selfDelimiting_quoted`), since nothing in it
  begins with the quote that ends it.  So no text can pass itself off as what
  stands around it.
-/

namespace Calculator.Text

section

variable {α : Type} {write : α → List Char} {stop : Char} {xs ys rest rest' : List Char}

/-- What is written tells the value, and where it ends. -/
def SelfDelimiting (write : α → List Char) : Prop :=
  ∀ ⦃a b : α⦄ ⦃rest rest' : List Char⦄,
    write a ++ rest = write b ++ rest' → a = b ∧ rest = rest'

/-- What is written tells the value, and where it ends, if `stop` comes next. -/
def EndedBy (stop : Char) (write : α → List Char) : Prop :=
  ∀ ⦃a b : α⦄ ⦃rest rest' : List Char⦄,
    write a ++ stop :: rest = write b ++ stop :: rest' → a = b ∧ rest = rest'

theorem SelfDelimiting.injective (h : SelfDelimiting write) : Function.Injective write := by
  intro a b hab
  have happend : write a ++ [] = write b ++ [] := by rw [hab]
  exact (h happend).1

/-- The first `stop` of a text tells what is before it and what is after it. -/
theorem append_stop_inj (hxs : stop ∉ xs) (hys : stop ∉ ys)
    (h : xs ++ stop :: rest = ys ++ stop :: rest') : xs = ys ∧ rest = rest' := by
  induction xs generalizing ys with
  | nil =>
    cases ys with
    | nil => simpa using h
    | cons y ys =>
      rw [List.mem_cons, not_or] at hys
      exact absurd (List.cons.inj h).1 hys.1
  | cons x xs ih =>
    rw [List.mem_cons, not_or] at hxs
    cases ys with
    | nil => exact absurd (List.cons.inj h).1.symm hxs.1
    | cons y ys =>
      rw [List.mem_cons, not_or] at hys
      obtain ⟨rfl, htail⟩ := List.cons.inj h
      obtain ⟨rfl, hrest⟩ := ih hxs.2 hys.2 htail
      exact ⟨rfl, hrest⟩

/-- A character that is never written ends what is. -/
theorem endedBy_of_notMem (hinj : Function.Injective write) (hstop : ∀ a, stop ∉ write a) :
    EndedBy stop write := by
  intro a b rest rest' h
  obtain ⟨hab, hrest⟩ := append_stop_inj (hstop a) (hstop b) h
  exact ⟨hinj hab, hrest⟩

/-- Values written one after the other are ended by a character that none of
them begins with. -/
theorem SelfDelimiting.endedBy_flatMap (h : SelfDelimiting write)
    (hstop : ∀ a, ∃ c rest, write a = c :: rest ∧ c ≠ stop) :
    EndedBy stop fun values : List α => values.flatMap write := by
  intro as bs rest rest' heq
  induction as generalizing bs with
  | nil =>
    cases bs with
    | nil => exact ⟨rfl, by simpa using heq⟩
    | cons b bs =>
      obtain ⟨c, tail, hb, hc⟩ := hstop b
      simp [hb, hc.symm] at heq
  | cons a as ih =>
    cases bs with
    | nil =>
      obtain ⟨c, tail, ha, hc⟩ := hstop a
      simp [ha, hc] at heq
    | cons b bs =>
      simp only [List.flatMap_cons, List.append_assoc] at heq
      obtain ⟨rfl, htail⟩ := h heq
      obtain ⟨rfl, hrest⟩ := ih htail
      exact ⟨rfl, hrest⟩

end

/-! ## Digits -/

section

variable {base m n : Nat} {stop : Char}

theorem digitChar_inj (hm : m < 16) (hn : n < 16) (h : Nat.digitChar m = Nat.digitChar n) :
    m = n := by
  have hall : ∀ m < 16, ∀ n < 16, Nat.digitChar m = Nat.digitChar n → m = n := by decide
  exact hall m hm n hn h

theorem toDigits_injective (hbase : 1 < base) (hlast : base ≤ 16) :
    Function.Injective (Nat.toDigits base) := by
  -- `Nat.ofDigitChars` is no inverse here: it reads digits below ten only, and
  -- code points have letters among theirs.
  intro m
  induction m using Nat.strongRecOn with
  | ind m ih =>
    intro n h
    have hmod (k : Nat) : k % base < 16 := Nat.lt_of_lt_of_le (Nat.mod_lt k (by omega)) hlast
    rw [Nat.toDigits_eq_if hbase, Nat.toDigits_eq_if hbase (n := n)] at h
    split at h
    · rename_i hm
      split at h
      · rename_i hn
        exact digitChar_inj (by omega) (by omega) (List.singleton_inj.mp h)
      · have hlength := congrArg List.length h
        simp [Nat.toDigits_ne_nil] at hlength
    · rename_i hm
      split at h
      · have hlength := congrArg List.length h
        simp [Nat.toDigits_ne_nil] at hlength
      · obtain ⟨hinit, hdigit⟩ := List.append_inj' h rfl
        have hdiv : m / base = n / base :=
          ih (m / base) (Nat.div_lt_self (by omega) hbase) hinit
        have hrem : m % base = n % base :=
          digitChar_inj (hmod m) (hmod n) (List.singleton_inj.mp hdigit)
        rw [← Nat.div_add_mod m base, ← Nat.div_add_mod n base, hdiv, hrem]

theorem notMem_toDigits (hbase : 1 < base) (hstop : ∀ d, Nat.digitChar d ≠ stop) (n : Nat) :
    stop ∉ Nat.toDigits base n := by
  induction n using Nat.strongRecOn with
  | ind n ih =>
    rw [Nat.toDigits_eq_if hbase]
    split
    · rw [List.mem_singleton]
      exact (hstop n).symm
    · rw [List.mem_append, List.mem_singleton, not_or]
      exact ⟨ih (n / base) (Nat.div_lt_self (by omega) hbase), (hstop (n % base)).symm⟩

/-- A number ends where no digit follows. -/
theorem endedBy_toDigits (hbase : 1 < base) (hlast : base ≤ 16)
    (hstop : ∀ d, Nat.digitChar d ≠ stop) : EndedBy stop (Nat.toDigits base) :=
  endedBy_of_notMem (toDigits_injective hbase hlast) (notMem_toDigits hbase hstop)

end

/-! ## Quoted texts -/

/-- The character that a backslash and a letter stand for. -/
def unescape : Char → Char
  | '0' => '\x00'
  | 't' => '\t'
  | 'n' => '\n'
  | 'r' => '\r'
  | c => c

/-- What may stand for a character between quotes. -/
inductive Escaped (quote : Quote) (c : Char) : List Char → Prop
  /-- The character itself, if it cannot be taken for something else. -/
  | plain (hbackslash : c ≠ '\\') (hquote : c ≠ quote.mark) : Escaped quote c [c]
  /-- A backslash and a letter. -/
  | short {letter : Char} (hletter : letter ≠ 'u') (hc : unescape letter = c) :
      Escaped quote c ['\\', letter]
  /-- The code point. -/
  | code : Escaped quote c (codePoint c)

section

variable {quote : Quote} {c d : Char} {rest rest' : List Char}

theorem Quote.mark_ne_backslash (quote : Quote) : quote.mark ≠ '\\' := by
  cases quote <;> decide

theorem escaped (quote : Quote) (c : Char) : Escaped quote c (escape quote c) := by
  unfold escape
  split_ifs with hnul htab hnewline hreturn hquote hshown
  · exact .short (by decide) hnul.symm
  · exact .short (by decide) htab.symm
  · exact .short (by decide) hnewline.symm
  · exact .short (by decide) hreturn.symm
  · rw [Bool.or_eq_true, decide_eq_true_eq, decide_eq_true_eq] at hquote
    rcases hquote with rfl | rfl
    · exact .short (by decide) rfl
    · cases quote <;> exact .short (by decide) rfl
  · rw [Bool.or_eq_true, decide_eq_true_eq, decide_eq_true_eq, not_or] at hquote
    exact .plain hquote.1 hquote.2
  · exact .code

/-- Nothing that stands for a character begins with the quote. -/
theorem exists_head_escape (quote : Quote) (c : Char) :
    ∃ d rest, escape quote c = d :: rest ∧ d ≠ quote.mark := by
  have hescaped := escaped quote c
  generalize escape quote c = text at hescaped
  cases hescaped with
  | plain hbackslash hquote => exact ⟨c, [], rfl, hquote⟩
  | short hletter hc => exact ⟨'\\', _, rfl, quote.mark_ne_backslash.symm⟩
  | code => exact ⟨'\\', _, rfl, quote.mark_ne_backslash.symm⟩

theorem selfDelimiting_codePoint : SelfDelimiting codePoint := by
  intro c d rest rest' h
  have hdigits : Nat.toDigits 16 c.toNat ++ '\x7d' :: rest =
      Nat.toDigits 16 d.toNat ++ '\x7d' :: rest' := by simpa [codePoint] using h
  have hstop (d : Nat) : Nat.digitChar d ≠ '\x7d' := Nat.digitChar_ne _ rfl
  obtain ⟨hcode, hrest⟩ := endedBy_toDigits (by decide) (by decide) hstop hdigits
  exact ⟨Char.toNat_inj.mp hcode, hrest⟩

/-- What stands for a character tells the character.  A backslash tells that more
comes, and the letter after it whether that is a code point. -/
theorem selfDelimiting_escape (quote : Quote) : SelfDelimiting (escape quote) := by
  intro c d rest rest' h
  have hc := escaped quote c
  have hd := escaped quote d
  generalize escape quote c = text at h hc
  generalize escape quote d = text' at h hd
  cases hc with
  | plain hbackslash _ =>
    cases hd with
    | plain _ _ => simpa using h
    | short _ _ => exact absurd (List.cons.inj h).1 hbackslash
    | code => exact absurd (List.cons.inj h).1 hbackslash
  | short hletter hc =>
    cases hd with
    | plain hbackslash _ => exact absurd (List.cons.inj h).1.symm hbackslash
    | short _ hd =>
      obtain ⟨rfl, hrest⟩ := List.cons.inj (List.cons.inj h).2
      exact ⟨hc.symm.trans hd, hrest⟩
    | code => exact absurd (List.cons.inj (List.cons.inj h).2).1 hletter
  | code =>
    cases hd with
    | plain hbackslash _ => exact absurd (List.cons.inj h).1.symm hbackslash
    | short hletter _ => exact absurd (List.cons.inj (List.cons.inj h).2).1.symm hletter
    | code => exact selfDelimiting_codePoint h

/-- A quoted text tells the text, whatever comes next. -/
theorem selfDelimiting_quoted : SelfDelimiting fun text => (quoted text).toList := by
  intro s t rest rest' h
  have hbody : s.toList.flatMap (escape .double) ++ Quote.double.mark :: rest =
      t.toList.flatMap (escape .double) ++ Quote.double.mark :: rest' := by
    simpa [quoted, enclose] using h
  obtain ⟨htext, hrest⟩ := (selfDelimiting_escape .double).endedBy_flatMap
    (exists_head_escape .double) hbody
  exact ⟨String.toList_injective htext, hrest⟩

end

end Calculator.Text
