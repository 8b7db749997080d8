import Calculator.Expr.Listing
import Calculator.Proofs.Text.Delimited

/-!
# What a description tells

The description of an expression shows all of it.  It is a text without
lengths, and the texts of the tokens, which may hold anything, stand in it.  Two
expressions are the same all the same when their descriptions are
(`describe_inj`).

Every part of a description tells where it ends.  A label begins with a letter of
its own (`selfDelimiting_label`), a token ends at the comma after its span
(`endedBy_describe`), and the kind of a node shows in the first letter of its
operands.  So a whole description can be told from what comes after it
(`selfDelimiting_describe`), which is what carries the induction: the
description of the left operand is followed by that of the right one.
-/

namespace Calculator

open Text (SelfDelimiting EndedBy selfDelimiting_quoted endedBy_toDigits)

/-! ## Tokens -/

/-- The kind whose label begins with a letter. -/
def Kind.ofInitial : Char → Kind
  | 'N' => number
  | 'V' => name
  | 'P' => operator .add
  | 'M' => operator .sub
  | 'T' => operator .mul
  | 'D' => operator .div
  | 'L' => opening
  | _ => closing

theorem Kind.ofInitial_label (k : Kind) :
    ∃ c rest, k.label.toList = c :: rest ∧ ofInitial c = k := by
  match k with
  | number | name | opening | closing => exact ⟨_, _, rfl, rfl⟩
  | operator op => cases op <;> exact ⟨_, _, rfl, rfl⟩

theorem selfDelimiting_label : SelfDelimiting fun k : Kind => k.label.toList := by
  intro k k' rest rest' h
  obtain ⟨c, tail, hk, hc⟩ := k.ofInitial_label
  obtain ⟨c', tail', hk', hc'⟩ := k'.ofInitial_label
  have hinitial : c = c' := by
    simp only [hk, hk', List.cons_append] at h
    exact (List.cons.inj h).1
  obtain rfl : k = k' := by rw [← hc, ← hc', hinitial]
  exact ⟨rfl, List.append_cancel_left h⟩

theorem endedBy_text : EndedBy ',' fun s : Span => s.text.toList := by
  intro s s' rest rest' h
  have hnumbers : Nat.toDigits 10 s.start ++ '.' :: '.' :: (Nat.toDigits 10 s.stop ++ ',' :: rest) =
      Nat.toDigits 10 s'.start ++ '.' :: '.' :: (Nat.toDigits 10 s'.stop ++ ',' :: rest') := by
    simpa [Span.text, Nat.toString_eq_ofList_toDigits] using h
  obtain ⟨hstart, htail⟩ := endedBy_toDigits (by decide) (by decide)
    (fun _ => Nat.digitChar_ne _ rfl) hnumbers
  obtain ⟨hstop, hrest⟩ := endedBy_toDigits (by decide) (by decide)
    (fun _ => Nat.digitChar_ne _ rfl) (List.cons.inj htail).2
  obtain ⟨start, stop⟩ := s
  obtain rfl : start = s'.start := hstart
  obtain rfl : stop = s'.stop := hstop
  exact ⟨rfl, hrest⟩

/-- The description of a token ends at the next comma after its text. -/
theorem endedBy_describe : EndedBy ',' fun t : Token => t.describe.toList := by
  intro t t' rest rest' h
  have hparts :
      t.kind.label.toList ++ '(' :: ((Text.quoted t.text).toList ++
          ')' :: ' ' :: '@' :: ' ' :: (t.span.text.toList ++ ',' :: rest)) =
        t'.kind.label.toList ++ '(' :: ((Text.quoted t'.text).toList ++
          ')' :: ' ' :: '@' :: ' ' :: (t'.span.text.toList ++ ',' :: rest')) := by
    simpa [Token.describe] using h
  obtain ⟨hkind, hparts⟩ := selfDelimiting_label hparts
  obtain ⟨htext, hparts⟩ := selfDelimiting_quoted (List.cons.inj hparts).2
  have hspans : t.span.text.toList ++ ',' :: rest = t'.span.text.toList ++ ',' :: rest' := by
    simpa using hparts
  obtain ⟨hspan, hrest⟩ := endedBy_text hspans
  obtain ⟨kind, text, span⟩ := t
  obtain rfl : kind = t'.kind := hkind
  obtain rfl : text = t'.text := htext
  obtain rfl : span = t'.span := hspan
  exact ⟨rfl, hrest⟩

namespace Expr

/-! ## Expressions -/

theorem selfDelimiting_describeMark :
    SelfDelimiting fun closed => (describeMark closed).toList := by
  intro closed closed' rest rest' h
  cases closed <;> cases closed' <;> simp_all [describeMark]

/-- What a description says after the token: the operands and the mark. -/
def describeBody : Expr → String
  | leaf _ closed => "None, computable: " ++ describeMark closed ++ " \x7d"
  | join _ left right closed =>
    "Some(Operands \x7b left: " ++ left.describe ++ ", right: " ++ right.describe
      ++ " \x7d), computable: " ++ describeMark closed ++ " \x7d"

theorem describeBody_leaf (t : Token) (closed : Bool) :
    (leaf t closed).describeBody = "None, computable: " ++ describeMark closed ++ " \x7d" := rfl

theorem describeBody_join (t : Token) (left right : Expr) (closed : Bool) :
    (join t left right closed).describeBody =
      "Some(Operands \x7b left: " ++ left.describe ++ ", right: " ++ right.describe
        ++ " \x7d), computable: " ++ describeMark closed ++ " \x7d" := rfl

theorem toList_describe (e : Expr) :
    e.describe.toList = "Node \x7b token: ".toList ++ (e.token.describe.toList ++
      ',' :: (" operands: ".toList ++ e.describeBody.toList)) := by
  have hcomma : ',' :: " operands: ".toList = ", operands: ".toList := by simp
  rw [← List.cons_append, hcomma]
  cases e with
  | leaf t closed =>
    have hleaf : ", operands: None, computable: " = ", operands: " ++ "None, computable: " := rfl
    simp only [describe_leaf, describeBody_leaf, hleaf, token, String.toList_append,
      List.append_assoc]
  | join t left right closed =>
    have hjoin : ", operands: Some(Operands \x7b left: " =
        ", operands: " ++ "Some(Operands \x7b left: " := rfl
    simp only [describe_join, describeBody_join, hjoin, token, String.toList_append,
      List.append_assoc]

section

variable {e e' : Expr} {rest rest' : List Char}

/-- Two descriptions that begin alike are those of nodes with the same token. -/
theorem token_of_describe (h : e.describe.toList ++ rest = e'.describe.toList ++ rest') :
    e.token = e'.token ∧ e.describeBody.toList ++ rest = e'.describeBody.toList ++ rest' := by
  simp only [toList_describe, List.append_assoc, List.cons_append] at h
  obtain ⟨htoken, hbody⟩ := endedBy_describe (List.append_cancel_left h)
  exact ⟨htoken, List.append_cancel_left hbody⟩

/-- The description of an expression tells the expression, whatever comes
next. -/
theorem selfDelimiting_describe : SelfDelimiting fun e : Expr => e.describe.toList := by
  -- The other expression stays general: the hypotheses are used at its operands,
  -- with what comes after each of them.
  intro e
  induction e with
  | leaf t closed =>
    intro e' rest rest' h
    obtain ⟨htoken, hbody⟩ := token_of_describe h
    cases e' with
    | leaf t' closed' =>
      obtain rfl : t = t' := htoken
      simp only [describeBody_leaf, String.toList_append, List.append_assoc] at hbody
      obtain ⟨rfl, hend⟩ := selfDelimiting_describeMark (List.append_cancel_left hbody)
      exact ⟨rfl, List.append_cancel_left hend⟩
    | join t' left' right' closed' =>
      simp [describeBody_leaf, describeBody_join] at hbody
  | join t left right closed ihl ihr =>
    intro e' rest rest' h
    obtain ⟨htoken, hbody⟩ := token_of_describe h
    cases e' with
    | leaf t' closed' =>
      simp [describeBody_leaf, describeBody_join] at hbody
    | join t' left' right' closed' =>
      obtain rfl : t = t' := htoken
      simp only [describeBody_join, String.toList_append, List.append_assoc] at hbody
      obtain ⟨rfl, hright⟩ := ihl (List.append_cancel_left hbody)
      obtain ⟨rfl, hmark⟩ := ihr (List.append_cancel_left hright)
      obtain ⟨rfl, hend⟩ := selfDelimiting_describeMark (List.append_cancel_left hmark)
      exact ⟨rfl, List.append_cancel_left hend⟩

end

/-- Two expressions have the same description when they are the same, with their
shapes, tokens, spans and marks, and only then. -/
theorem describe_inj (e e' : Expr) : e.describe = e'.describe ↔ e = e' := by
  constructor
  · intro h
    exact selfDelimiting_describe.injective (congrArg String.toList h)
  · rintro rfl
    rfl

end Expr

end Calculator
