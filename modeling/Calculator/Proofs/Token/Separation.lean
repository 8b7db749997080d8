import Calculator.Proofs.Token.Scanning

/-!
# Scanning on both sides of a separator

A blank, an operator or a bracket ends whatever run stands before it, and the
scanner has nothing pending after it.  So a source with a separator in it is
scanned as its two sides are, each by itself: `scan_append_separator`.

What the right side gives is moved by the bytes before it (`Token.moved`,
`ScanError.moved`).  Offsets that are past `Span.maxOffset` are lowered to it, by
whichever way they got there (`Span.moved_ofOffsets`), so this holds for sources
of any length.

The proof runs two scanners side by side.  `Scanner.after` is a scanner that has
read more before, and it does at every step what the other one does
(`read_after`, `readAll_after`, `endRun_after`).
-/

namespace Calculator

open String (utf8Len)

/-! ## Places further on -/

/-- The same place in a source with `n` more bytes before it. -/
def Span.moved (n : Nat) (s : Span) : Span := .ofOffsets (s.start + n) (s.stop + n)

/-- The same token with `n` more bytes before it. -/
def Token.moved (n : Nat) (t : Token) : Token := { t with span := t.span.moved n }

/-- The same error with `n` more bytes before it. -/
def ScanError.moved (n : Nat) (e : ScanError) : ScanError := { e with span := e.span.moved n }

/-- A place that is lowered to the greatest offset before it is moved is where it
would be if it were lowered after. -/
theorem Span.moved_ofOffsets (n start stop : Nat) :
    (Span.ofOffsets start stop).moved n = .ofOffsets (start + n) (stop + n) := by
  have hlowered (m : Nat) : min (min m 4294967295 + n) 4294967295 = min (m + n) 4294967295 := by
    omega
  simp only [moved, ofOffsets_eq, hlowered]

/-- The kind of token that a separator is. -/
def separatorKind? : Char → Option Kind
  | '+' => some (.operator .add)
  | '-' => some (.operator .sub)
  | '*' => some (.operator .mul)
  | '/' => some (.operator .div)
  | '(' => some .opening
  | ')' => some .closing
  | _ => none

/-- The token that a separator is at an offset; a blank is none. -/
def separatorToken? (offset : Nat) (c : Char) : Option Token :=
  (separatorKind? c).map fun kind => ⟨kind, String.singleton c, .ofOffsets offset (offset + 1)⟩

/-! ## A scanner that has read more before -/

/-- The same run with `n` more bytes before it. -/
def OpenRun.after (n : Nat) (p : OpenRun) : OpenRun := { p with start := p.start + n }

/-- The same scanner after `n` more bytes, with the tokens of these. -/
def Scanner.after (n : Nat) (before : Array Token) (s : Scanner) : Scanner :=
  ⟨s.offset + n, s.pending.map (·.after n), before ++ s.tokens.map (Token.moved n)⟩

/-- What a scanner does after `n` more bytes. -/
def resultAfter (n : Nat) (before : Array Token) :
    Except ScanError Scanner → Except ScanError Scanner
  | .ok s => .ok (s.after n before)
  | .error e => .error (e.moved n)

section

variable {dialect : Dialect} {n : Nat} {before : Array Token} {s : Scanner} {c : Char}

theorem OpenRun.token_after (n : Nat) (p : OpenRun) (stop : Nat) :
    (p.after n).token (stop + n) =
      match p.token stop with
      | .ok t => .ok (t.moved n)
      | .error e => .error (e.moved n) := by
  unfold OpenRun.token OpenRun.after
  cases p.run.kind p.text <;> simp [Token.moved, ScanError.moved, Span.moved_ofOffsets]

namespace Scanner

theorem spanOf_after (n : Nat) (before : Array Token) (s : Scanner) (c : Char) :
    (s.after n before).spanOf c = (s.spanOf c).moved n := by
  rw [spanOf, spanOf, Span.moved_ofOffsets, after, Nat.add_right_comm]

theorem endRun_after (n : Nat) (before : Array Token) (s : Scanner) :
    (s.after n before).endRun = resultAfter n before s.endRun := by
  obtain ⟨offset, pending, tokens⟩ := s
  cases pending with
  | none => rfl
  | some p =>
    simp only [endRun, after, Option.map_some, OpenRun.token_after]
    cases p.token offset <;> simp [resultAfter, after]

theorem resultAfter_map {f g : Scanner → Scanner}
    (h : ∀ s : Scanner, (f s).after n before = g (s.after n before))
    (result : Except ScanError Scanner) :
    (resultAfter n before result).map g = resultAfter n before (result.map f) := by
  cases result with
  | error e => rfl
  | ok s => exact congrArg Except.ok (h s).symm

theorem begin_after (n : Nat) (before : Array Token) (s : Scanner) (part : Part) (c : Char) :
    (s.begin part c).after n before = (s.after n before).begin part c := by
  simp [begin, after, OpenRun.after, Nat.add_right_comm]

theorem readPart_after (n : Nat) (before : Array Token) (s : Scanner) (part : Part) (c : Char) :
    (s.after n before).readPart part c = resultAfter n before (s.readPart part c) := by
  have hend := endRun_after n before s
  have hbegin : (resultAfter n before s.endRun).map (·.begin part c) =
      resultAfter n before (s.endRun.map (·.begin part c)) :=
    resultAfter_map (fun s => begin_after n before s part c) s.endRun
  have hspan := spanOf_after n before s c
  obtain ⟨offset, pending, tokens⟩ := s
  cases pending with
  | none => exact congrArg Except.ok (begin_after n before _ part c).symm
  | some p =>
    simp only [readPart, after, Option.map_some, OpenRun.after]
    split
    · simp [resultAfter, after, OpenRun.after, Nat.add_right_comm]
    · rw [← hbegin, ← hend]
      rfl
    · rw [resultAfter, ScanError.moved, ← hspan]
      rfl

theorem readMark_after (n : Nat) (before : Array Token) (s : Scanner) (kind : Kind) (c : Char) :
    (s.after n before).readMark kind c = resultAfter n before (s.readMark kind c) := by
  rw [readMark, endRun_after, readMark]
  refine resultAfter_map (fun s => ?_) _
  rw [spanOf_after]
  simp [after, Token.moved, Nat.add_right_comm]

theorem readBlank_after (n : Nat) (before : Array Token) (s : Scanner) (c : Char) :
    (s.after n before).readBlank c = resultAfter n before (s.readBlank c) := by
  rw [readBlank, endRun_after, readBlank]
  refine resultAfter_map (fun s => ?_) _
  simp [after, Nat.add_right_comm]

/-- One character is read alike, whatever has been read before. -/
theorem read_after (n : Nat) (before : Array Token) (dialect : Dialect) (s : Scanner) (c : Char) :
    (s.after n before).read dialect c = resultAfter n before (s.read dialect c) := by
  unfold read
  split
  · rw [spanOf_after]
    rfl
  · exact readPart_after n before s _ c
  · exact readMark_after n before s _ c
  · exact readBlank_after n before s c

/-- And so are any number of characters. -/
theorem readAll_after (n : Nat) (before : Array Token) (dialect : Dialect) (s : Scanner)
    (cs : List Char) :
    (s.after n before).readAll dialect cs = resultAfter n before (s.readAll dialect cs) := by
  induction cs generalizing s with
  | nil => rfl
  | cons c cs ih =>
    rw [readAll, readAll, List.foldlM_cons, List.foldlM_cons, read_after]
    cases s.read dialect c with
    | error e => rfl
    | ok s' => exact ih s'

/-- And so is a source to its end. -/
theorem readAll_endRun_after (n : Nat) (before : Array Token) (dialect : Dialect) (s : Scanner)
    (cs : List Char) :
    ((s.after n before).readAll dialect cs >>= endRun) =
      resultAfter n before (s.readAll dialect cs >>= endRun) := by
  rw [readAll_after]
  cases s.readAll dialect cs with
  | error e => rfl
  | ok s' => exact endRun_after n before s'

end Scanner

/-! ## Past a separator -/

theorem separatorKind?_eq (hc : c ∈ separators) : separatorKind? c = kindOfPiece? [c] := by
  have hall : (separators.all fun d => separatorKind? d = kindOfPiece? [d]) = true := by decide
  exact of_decide_eq_true (List.all_eq_true.mp hall c hc)

theorem utf8Size_of_mem_separators (hc : c ∈ separators) : c.utf8Size = 1 := by
  have hall : (separators.all fun d => d.utf8Size == 1) = true := by decide
  exact beq_iff_eq.mp (List.all_eq_true.mp hall c hc)

/-- A separator ends the run before it and is a token, or none. -/
theorem Scanner.read_separator (hc : c ∈ separators) (dialect : Dialect) (s : Scanner) :
    s.read dialect c = s.endRun.map fun s =>
      ⟨s.offset + 1, none, s.tokens ++ (separatorToken? s.offset c).toArray⟩ := by
  have hclass := classified dialect c
  have hsize := utf8Size_of_mem_separators hc
  unfold Scanner.read
  generalize dialect.classOf? c = result at hclass
  cases hclass with
  | part hpart _ =>
    have hsort := Run.sort_begin hpart
    rw [eq_false_of_mem_separators hc] at hsort
    cases hsort
  | mark _ hkind => simp [readMark, separatorToken?, separatorKind?_eq hc, hkind, hsize, spanOf]
  | blank _ hkind => simp [readBlank, separatorToken?, separatorKind?_eq hc, hkind, hsize]
  | strange hstrange => exact absurd (.inr (.inl hc)) hstrange

/-- After a separator the scanner is a new one, but for what has been read
before. -/
theorem Scanned.read_separator {done : List Char} (h : Scanned done s) (hc : c ∈ separators)
    (dialect : Dialect) :
    s.read dialect c = s.endRun.map fun s' =>
      Scanner.after (utf8Len done + 1)
        (s'.tokens ++ (separatorToken? (utf8Len done) c).toArray) {} := by
  rw [Scanner.read_separator hc]
  have hended := h.ended
  generalize s.endRun = result at hended
  cases hended with
  | error hbad => rfl
  | ok htokens hgood =>
    simp [Except.map, Scanner.after]

/-- What is read past a separator is read as by a new scanner. -/
theorem Scanner.readAll_append_separator (hc : c ∈ separators) (dialect : Dialect)
    (cs ds : List Char) :
    (readAll dialect {} (cs ++ c :: ds) >>= endRun) =
      (readAll dialect {} cs >>= endRun) >>= fun s =>
        resultAfter (utf8Len cs + 1) (s.tokens ++ (separatorToken? (utf8Len cs) c).toArray)
          (readAll dialect {} ds >>= endRun) := by
  have hsplit : readAll dialect {} (cs ++ c :: ds) =
      readAll dialect {} cs >>= fun s => s.read dialect c >>= fun s => s.readAll dialect ds := by
    simp [readAll]
  rw [hsplit]
  -- The left side fails on the way, or at its end, or not at all; the end of it
  -- is reached at the separator on the one hand and by `endRun` on the other.
  cases hcs : readAll dialect {} cs with
  | error e => rfl
  | ok s =>
    show ((s.read dialect c >>= fun s => s.readAll dialect ds) >>= endRun) = s.endRun >>= _
    rw [(scanned_of_readAll hcs).1.read_separator hc dialect]
    cases s.endRun with
    | error e => rfl
    | ok s' => exact readAll_endRun_after _ _ dialect {} ds

theorem scan_eq_map (dialect : Dialect) (source : String) :
    scan dialect source =
      (Scanner.readAll dialect {} source.toList >>= Scanner.endRun).map (·.tokens.toList) := by
  unfold scan
  cases Scanner.readAll dialect {} source.toList with
  | error e => rfl
  | ok s =>
    show (s.endRun >>= fun s => pure s.tokens.toList) = s.endRun.map fun s => s.tokens.toList
    cases s.endRun <;> rfl

/-- A source with a separator in it is scanned as its two sides are.  An error of
the left side comes first; the tokens and the error of the right side are moved
by the bytes before it. -/
theorem scan_append_separator (dialect : Dialect) (a b : String) {c : Char} (hc : c ∈ separators) :
    scan dialect (a ++ String.singleton c ++ b) =
      match scan dialect a with
      | .error e => .error e
      | .ok ts =>
        match scan dialect b with
        | .error e => .error (e.moved (a.utf8ByteSize + 1))
        | .ok us => .ok (ts ++ (separatorToken? a.utf8ByteSize c).toList
            ++ us.map (Token.moved (a.utf8ByteSize + 1))) := by
  have hsource : (a ++ String.singleton c ++ b).toList = a.toList ++ c :: b.toList := by simp
  have hbytes : utf8Len a.toList = a.utf8ByteSize := by
    rw [← String.utf8ByteSize_ofList, String.ofList_toList]
  rw [scan_eq_map, hsource, Scanner.readAll_append_separator hc, hbytes, scan_eq_map dialect a,
    scan_eq_map dialect b]
  cases Scanner.readAll dialect {} a.toList >>= Scanner.endRun with
  | error e => rfl
  | ok s =>
    cases Scanner.readAll dialect {} b.toList >>= Scanner.endRun with
    | error e => rfl
    | ok u =>
      show Except.ok (Scanner.after _ _ u).tokens.toList = _
      simp [Scanner.after, Except.map]

/-- A number and a name, a product's sign, and then a bracket or a fault. -/
theorem scan_append_separator_product :
    '*' ∈ separators ∧
      scan .symbolic "2x" = .ok [⟨.number, "2", ⟨0, 1⟩⟩, ⟨.name, "x", ⟨1, 2⟩⟩] ∧
      scan .symbolic "(.5" = .ok [⟨.opening, "(", ⟨0, 1⟩⟩, ⟨.number, ".5", ⟨1, 3⟩⟩] ∧
      scan .symbolic "2x*(.5" = .ok [⟨.number, "2", ⟨0, 1⟩⟩, ⟨.name, "x", ⟨1, 2⟩⟩,
        ⟨.operator .mul, "*", ⟨2, 3⟩⟩, ⟨.opening, "(", ⟨3, 4⟩⟩, ⟨.number, ".5", ⟨4, 6⟩⟩] ∧
      scan .symbolic "1.é" = .error ⟨.strangeChar 'é', ⟨2, 4⟩⟩ ∧
      scan .symbolic "2x*1.é" = .error ⟨.strangeChar 'é', ⟨5, 7⟩⟩ := by
  have hc : '*' ∈ separators := by decide
  have hleft : scan .symbolic "2x" = .ok [⟨.number, "2", ⟨0, 1⟩⟩, ⟨.name, "x", ⟨1, 2⟩⟩] := by decide
  have hright : scan .symbolic "(.5" = .ok [⟨.opening, "(", ⟨0, 1⟩⟩, ⟨.number, ".5", ⟨1, 3⟩⟩] := by
    decide
  have hfault : scan .symbolic "1.é" = .error ⟨.strangeChar 'é', ⟨2, 4⟩⟩ := by decide
  have hok := scan_append_separator .symbolic "2x" "(.5" hc
  have herror := scan_append_separator .symbolic "2x" "1.é" hc
  rw [hleft, hright] at hok
  rw [hleft, hfault] at herror
  exact ⟨hc, hleft, hright, hok, hfault, herror⟩

end

end Calculator
