import Calculator.Proofs.Expr.Marks
import Calculator.Proofs.Formula.Conservation

/-!
# Substitution as rebuilding

A substitution changes the leaves of an expression where they are, and then sets
the marks of the joins anew.  `Expr.rebuild` makes an expression of the same shape
from nothing instead, with the tokens of the leaves changed one by one and those
of the joins as they were.  Of an expression that was made with `ofToken` and
`ofOperands` both make the same (`Built.substitute_eq_rebuild`).

There are two results for a formula after any number of stages.

* `Formula.rebuilt_substitute` says what a further substitution gives: the
  rebuilt expression, of the same depth, with the same joins and the same names.
* `Formula.substitutionsCompose` says how substitutions go together.  Rebuilding
  twice is rebuilding once (`rebuild_rebuild`), and a token that has been resolved
  by one substitution is left alone by the next (`Token.resolve_resolve`), so two
  substitutions come to that with the numbers of both, where the first goes
  before the second (`Bindings.orElse`).
-/

namespace Calculator

/-! ## Rebuilding -/

namespace Expr

/-- The expression that is made anew over the same shape, of the changed tokens
of the leaves and the tokens of the joins. -/
def rebuild (f : Token → Token) : Expr → Expr
  | leaf token _ => ofToken (f token)
  | join token left right _ => ofOperands token (left.rebuild f) (right.rebuild f)

section

variable {e : Expr} {f : Token → Token}

theorem rebuild_ofToken (f : Token → Token) (t : Token) :
    (ofToken t).rebuild f = ofToken (f t) := rfl

theorem rebuild_ofOperands (f : Token → Token) (t : Token) (left right : Expr) :
    (ofOperands t left right).rebuild f =
      ofOperands t (left.rebuild f) (right.rebuild f) := rfl

theorem built_rebuild (f : Token → Token) (e : Expr) : (e.rebuild f).Built := by
  induction e with
  | leaf t closed => exact .ofToken (f t)
  | join t left right closed ihl ihr => exact .ofOperands t ihl ihr

theorem leaves_rebuild (f : Token → Token) (e : Expr) :
    (e.rebuild f).leaves = e.leaves.map f := by
  induction e with
  | leaf t closed => rfl
  | join t left right closed ihl ihr =>
    rw [rebuild, leaves_ofOperands, ihl, ihr, leaves, List.map_append]

theorem joints_rebuild (f : Token → Token) (e : Expr) : (e.rebuild f).joints = e.joints := by
  induction e with
  | leaf t closed => rfl
  | join t left right closed ihl ihr => rw [rebuild, joints_ofOperands, ihl, ihr, joints]

theorem depth_rebuild (f : Token → Token) (e : Expr) : (e.rebuild f).depth = e.depth := by
  induction e with
  | leaf t closed => rfl
  | join t left right closed ihl ihr =>
    show 1 + max (left.rebuild f).depth (right.rebuild f).depth = 1 + max left.depth right.depth
    rw [ihl, ihr]

theorem rebuild_rebuild (f g : Token → Token) (e : Expr) :
    (e.rebuild f).rebuild g = e.rebuild fun t => g (f t) := by
  induction e with
  | leaf t closed => rfl
  | join t left right closed ihl ihr =>
    rw [rebuild, rebuild_ofOperands, ihl, ihr, rebuild]

/-- What was built of the same tokens is the same. -/
theorem Built.rebuild_eq_self (h : e.Built) (hf : ∀ t ∈ e.leaves, f t = t) :
    e.rebuild f = e := by
  induction h with
  | ofToken t =>
    rw [rebuild_ofToken, hf t List.mem_cons_self]
  | ofOperands t _ _ ihl ihr =>
    rw [rebuild_ofOperands, ihl fun u hu => hf u (List.mem_append_left _ hu),
      ihr fun u hu => hf u (List.mem_append_right _ hu)]

/-- The two passes of a substitution come to rebuilding.  The marks of the leaves
that the passes leave alone are those of a new leaf already. -/
theorem Built.substitute_eq_rebuild (h : e.Built) (bindings : Bindings) :
    e.substitute bindings = e.rebuild (Token.resolve bindings) := by
  induction h with
  | ofToken t => exact substitute_ofToken bindings t
  | ofOperands t _ _ ihl ihr =>
    rw [rebuild_ofOperands, ← ihl, ← ihr]
    exact substitute_join bindings t _ _ _

end

end Expr

namespace Formula

/-- The formula `g` is `f` with its expression rebuilt, where the leaves whose
names are bound have become numbers. -/
structure Rebuilt (bindings : Bindings) (f g : Formula) : Prop where
  root : g.root = f.root.rebuild (Token.resolve bindings)
  built : g.root.Built
  /-- The leaves are resolved where they stand. -/
  leaves : g.root.leaves = f.root.leaves.map (Token.resolve bindings)
  /-- A name with a number becomes the number, written out, in the place of the
  name. -/
  resolved : ∀ t ∈ f.root.leaves, t.kind = .name → ∀ value, bindings[t.text]? = some value →
    t.resolve bindings = ⟨.number, Numeral.write value, t.span⟩
  /-- Leaves that are not names, and names without a number, stay. -/
  kept : ∀ t ∈ f.root.leaves, (t.kind = .name → t.text ∉ bindings) → t.resolve bindings = t
  /-- The joins keep their tokens, whatever these are. -/
  joints : g.root.joints = f.root.joints
  depth : g.root.depth = f.root.depth
  names : g.names = f.names

theorem Rebuilt.of_built {f : Formula} (h : f.root.Built) (bindings : Bindings) :
    Rebuilt bindings f (f.substitute bindings) := by
  have hroot : (f.substitute bindings).root = f.root.rebuild (Token.resolve bindings) :=
    h.substitute_eq_rebuild bindings
  constructor
  · exact hroot
  · rw [hroot]
    exact Expr.built_rebuild _ f.root
  · rw [hroot, Expr.leaves_rebuild]
  · exact fun t _ hk value hb => Token.resolve_bound hk hb
  · intro t _ ht
    exact Token.resolve_unbound fun hk => Std.ExtTreeMap.getElem?_eq_none (ht hk)
  · rw [hroot, Expr.joints_rebuild]
  · rw [hroot, Expr.depth_rebuild]
  · rfl

/-- After any stages, a substitution gives the expression that is made anew over
the same shape with the tokens of the bound names replaced, and nothing else
changes. -/
theorem rebuilt_substitute {f : Formula} (h : f.root.Built) (stages : List Bindings)
    (bindings : Bindings) :
    Rebuilt bindings (f.substituteAll stages) ((f.substituteAll stages).substitute bindings) :=
  .of_built (built_substituteAll h stages) bindings

/-- A join and an operator that are called `x` stay when `x` gets its number. -/
theorem rebuilt_substitute_illKinded :
    let x : Token := .detached .name "x"
    let plus : Token := .detached (.operator .add) "x"
    let f : Formula := ⟨.ofOperands x (.ofToken x) (.ofToken plus), ∅⟩
    let stages : List Bindings := [{("y", 2)}]
    let bindings : Bindings := {("x", 1)}
    let g := f.substituteAll stages
    f.root.Built ∧ Rebuilt bindings g (g.substitute bindings) ∧
      (g.substitute bindings).root =
        .ofOperands x (.ofToken (.detached .number (Numeral.write 1))) (.ofToken plus) := by
  intro x plus f stages bindings g
  have hbuilt : f.root.Built := .ofOperands _ (.ofToken x) (.ofToken plus)
  have hrebuilt := rebuilt_substitute hbuilt stages bindings
  have hstage : g.root = f.root := by
    refine (hbuilt.substitute_eq_rebuild {("y", 2)}).trans (hbuilt.rebuild_eq_self ?_)
    intro t ht
    refine Token.resolve_unbound fun _ => ?_
    have htext : t.text = "x" := by
      rcases List.mem_pair.mp ht with rfl | rfl <;> rfl
    simp [htext]
  refine ⟨hbuilt, hrebuilt, ?_⟩
  rw [hrebuilt.root, hstage]
  have hx : x.resolve bindings = .detached .number (Numeral.write 1) :=
    Token.resolve_bound rfl (by simp [bindings, x, Token.detached])
  have hplus : plus.resolve bindings = plus := Token.resolve_unbound fun hk => by cases hk
  rw [Expr.rebuild_ofOperands, Expr.rebuild_ofToken, Expr.rebuild_ofToken, hx, hplus]

end Formula

/-! ## Numbers from several substitutions -/

namespace Bindings

/-- The numbers of both, where those of the first go before those of the
second. -/
def orElse (first second : Bindings) : Bindings := second ∪ first

/-- The numbers of several stages, where those of an earlier stage go before
those of a later one. -/
def ofStages (stages : List Bindings) : Bindings := stages.foldr orElse ∅

/-- No name has two numbers. -/
def Consistent (first second : Bindings) : Prop :=
  ∀ (name : String) (x y : Float), first[name]? = some x → second[name]? = some y → x = y

section

variable {first second : Bindings}

theorem getElem?_orElse (first second : Bindings) (name : String) :
    (first.orElse second)[name]? = (first[name]? <|> second[name]?) := by
  rw [orElse, Std.ExtTreeMap.getElem?_union]
  cases first[name]? <;> rfl

theorem getElem?_ofStages (stages : List Bindings) (name : String) :
    (ofStages stages)[name]? = firstNumber? stages name := by
  induction stages with
  | nil => rfl
  | cons bindings stages ih =>
    show (bindings.orElse (ofStages stages))[name]? = _
    rw [getElem?_orElse, ih]
    cases hb : bindings[name]? <;> simp [firstNumber?, hb]

theorem orElse_self (bindings : Bindings) : bindings.orElse bindings = bindings := by
  apply Std.ExtTreeMap.ext_getElem?
  intro name
  rw [getElem?_orElse]
  cases bindings[name]? <;> rfl

theorem Consistent.orElse_comm (h : first.Consistent second) :
    first.orElse second = second.orElse first := by
  apply Std.ExtTreeMap.ext_getElem?
  intro name
  rw [getElem?_orElse, getElem?_orElse]
  cases hfirst : first[name]? with
  | none => cases second[name]? <;> rfl
  | some x =>
    cases hsecond : second[name]? with
    | none => rfl
    | some y => exact congrArg some (h name x y hfirst hsecond)

end

end Bindings

/-- A token that has been resolved is a name no longer, and is not resolved
again. -/
theorem Token.resolve_resolve (first second : Bindings) (t : Token) :
    (t.resolve first).resolve second = t.resolve (first.orElse second) := by
  have hlookup := Bindings.getElem?_orElse first second t.text
  rcases t.bound_or_unbound first with ⟨value, hk, hb⟩ | h
  · have hboth : (first.orElse second)[t.text]? = some value := by
      rw [hlookup, hb]
      rfl
    rw [resolve_bound hk hb, resolve_bound hk hboth]
    exact resolve_unbound nofun
  · rw [resolve_unbound h]
    by_cases hk : t.kind = .name
    · rw [h hk] at hlookup
      rw [resolve, resolve, hlookup]
      rfl
    · rw [resolve, resolve, if_neg hk, if_neg hk]

/-- Two substitutions come to one. -/
theorem Expr.Built.substitute_substitute {e : Expr} (h : e.Built) (first second : Bindings) :
    (e.substitute first).substitute second = e.substitute (first.orElse second) := by
  rw [(h.substitute first).substitute_eq_rebuild, h.substitute_eq_rebuild,
    h.substitute_eq_rebuild, Expr.rebuild_rebuild]
  congr 1
  funext t
  exact Token.resolve_resolve first second t

namespace Formula

/-- How substitutions in a formula go together. -/
structure SubstitutionsCompose (f : Formula) : Prop where
  /-- Two come to one, in which the first goes before the second. -/
  compose : ∀ first second : Bindings,
    (f.substitute first).substitute second = f.substitute (first.orElse second)
  /-- Any stages come to one, in which the first that binds a name decides. -/
  stages : ∀ stages : List Bindings, f.substituteAll stages = f.substitute (.ofStages stages)
  /-- A second time changes nothing. -/
  repeated : ∀ bindings : Bindings,
    (f.substitute bindings).substitute bindings = f.substitute bindings
  /-- The order does not matter when no name has two numbers. -/
  commute : ∀ first second : Bindings, first.Consistent second →
    (f.substitute first).substitute second = (f.substitute second).substitute first
  /-- When no name is left, nothing changes. -/
  settled : (∀ t ∈ f.root.leaves, t.kind ≠ .name) → ∀ bindings, f.substitute bindings = f

section

variable {f : Formula}

theorem substitute_orElse (h : f.root.Built) (first second : Bindings) :
    (f.substitute first).substitute second = f.substitute (first.orElse second) :=
  congrArg (Formula.mk · f.names) (h.substitute_substitute first second)

/-- A substitution that resolves no leaf changes nothing. -/
theorem substitute_eq_self (h : f.root.Built) {bindings : Bindings}
    (hkept : ∀ t ∈ f.root.leaves, t.kind = .name → bindings[t.text]? = none) :
    f.substitute bindings = f := by
  have hroot : f.root.substitute bindings = f.root := by
    rw [h.substitute_eq_rebuild]
    exact h.rebuild_eq_self fun t ht => Token.resolve_unbound (hkept t ht)
  exact congrArg (Formula.mk · f.names) hroot

theorem substituteAll_eq_substitute (h : f.root.Built) (stages : List Bindings) :
    f.substituteAll stages = f.substitute (.ofStages stages) := by
  induction stages generalizing f with
  | nil => exact (substitute_eq_self h fun _ _ _ => rfl).symm
  | cons bindings stages ih =>
    have hbuilt : (f.substitute bindings).root.Built := h.substitute bindings
    rw [substituteAll_cons, ih hbuilt, substitute_orElse h]
    rfl

theorem SubstitutionsCompose.of_built (h : f.root.Built) : SubstitutionsCompose f where
  compose := substitute_orElse h
  stages := substituteAll_eq_substitute h
  repeated bindings := by rw [substitute_orElse h, Bindings.orElse_self]
  commute first second hcons := by
    rw [substitute_orElse h, substitute_orElse h, hcons.orElse_comm]
  settled hnone bindings := substitute_eq_self h fun t ht hk => absurd hk (hnone t ht)

/-- In a formula after any stages, substitutions come to one in which an earlier
number of a name goes before a later one. -/
theorem substitutionsCompose (h : f.root.Built) (stages : List Bindings) :
    SubstitutionsCompose (f.substituteAll stages) :=
  .of_built (built_substituteAll h stages)

end

/-- The second number of `x` comes too late, and that of `y` does not. -/
theorem substitutionsCompose_overlapping :
    let x : Token := .detached .name "x"
    let y : Token := .detached .name "y"
    let z : Token := .detached .name "z"
    let plus : Token := .detached (.operator .add) "+"
    let f : Formula :=
      ⟨.ofOperands plus (.ofOperands plus (.ofToken x) (.ofToken y)) (.ofToken z), ∅⟩
    let stage : Bindings := {("z", 3)}
    let first : Bindings := {("x", 1)}
    let second : Bindings := .orElse {("x", 9)} {("y", 2)}
    let number (value : Float) : Expr := .ofToken (.detached .number (Numeral.write value))
    f.root.Built ∧ SubstitutionsCompose (f.substituteAll [stage]) ∧
      (((f.substituteAll [stage]).substitute first).substitute second).root =
        .ofOperands plus (.ofOperands plus (number 1) (number 2)) (number 3) := by
  intro x y z plus f stage first second number
  have hbuilt : f.root.Built := .ofOperands _ (.ofOperands _ (.ofToken x) (.ofToken y)) (.ofToken z)
  refine ⟨hbuilt, substitutionsCompose hbuilt [stage], ?_⟩
  have hlookup (name : String) : (Bindings.ofStages [stage, first, second])[name]? =
      firstNumber? [stage, first, second] name := Bindings.getElem?_ofStages _ name
  have hx : x.resolve (.ofStages [stage, first, second]) = .detached .number (Numeral.write 1) := by
    refine Token.resolve_bound rfl ((hlookup "x").trans ?_)
    simp [firstNumber?, stage, first]
  have hy : y.resolve (.ofStages [stage, first, second]) = .detached .number (Numeral.write 2) := by
    refine Token.resolve_bound rfl ((hlookup "y").trans ?_)
    simp [firstNumber?, stage, first, second, Bindings.getElem?_orElse]
  have hz : z.resolve (.ofStages [stage, first, second]) = .detached .number (Numeral.write 3) := by
    refine Token.resolve_bound rfl ((hlookup "z").trans ?_)
    simp [firstNumber?, stage]
  show (f.substituteAll [stage, first, second]).root = _
  rw [substituteAll_eq_substitute hbuilt]
  refine (hbuilt.substitute_eq_rebuild _).trans ?_
  simp only [f, number, Expr.rebuild_ofOperands, Expr.rebuild_ofToken, hx, hy, hz]

end Formula

end Calculator
