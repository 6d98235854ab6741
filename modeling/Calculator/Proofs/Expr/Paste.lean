import Calculator.Calculation
import Calculator.Proofs.Expr.Print
import Calculator.Proofs.Token.Boundary
import Calculator.Proofs.Yard.Operand

/-! Results pasted back.

Where a group in parentheses stands in a text, the numeral of its value can stand too, with a
blank on either side. The text falls apart at the parentheses, and at the blanks, into
the same pieces around the operand (`tokenize_group`, `tokenize_spaced`); group and numeral are
signed phrases of one value; and the value of a tree is made of the values of its operands. -/
namespace Calculator
open Binary64 Literal Text

/-! ### The texts -/

theorem tokenize_group {l e r : String} {tokens : List Token}
    (h : tokenize (l ++ "(" ++ e ++ ")" ++ r) = .ok tokens) :
    ∃ ls es rs, tokenize l = .ok ls ∧ tokenize e = .ok es ∧ tokenize r = .ok rs ∧
      tokens = ls ++ ((.openParen :: es ++ [.closeParen]) ++ rs) := by
  simp only [tokenize_eq_ok_iff] at h ⊢
  have htext : (l ++ "(" ++ e ++ ")" ++ r).toList = l.toList ++ '(' :: (e.toList ++ ')' :: r.toList) := by
    simp
  rw [htext] at h
  obtain ⟨ls, group, hl, hgroup, rfl⟩ := (Token.scan_append_eq_iff standsAlone_openParen).1 h
  obtain ⟨inside, hinside, rfl⟩ := (Token.Scans.openParen _).scan_eq_iff.1 hgroup
  obtain ⟨es, closed, he, hclosed, rfl⟩ :=
    (Token.scan_append_eq_iff standsAlone_closeParen).1 hinside
  obtain ⟨rs, hr, rfl⟩ := (Token.Scans.closeParen _).scan_eq_iff.1 hclosed
  exact ⟨ls, es, rs, hl, he, hr, by simp⟩

theorem tokenize_spaced {l r : String} {ls rs : List Token} {v : Float} (hv : IsFinite v)
    (hl : tokenize l = .ok ls) (hr : tokenize r = .ok rs) :
    tokenize (l ++ " " ++ Numeral.canonical v ++ " " ++ r) =
      .ok (ls ++ ((Expr.numeral v).tokens ++ rs)) := by
  rw [tokenize_eq_ok_iff] at hl hr ⊢
  have htext : (l ++ " " ++ Numeral.canonical v ++ " " ++ r).toList =
      l.toList ++ ' ' :: ((Numeral.canonical v).toList ++ ' ' :: r.toList) := by
    simp
  have hblank : Token.scan (' ' :: r.toList) = (rs, []) :=
    (Token.Scans.blank rfl _).scan_eq_iff.2 ⟨rs, hr, rfl⟩
  have hnumeral := (Expr.scans_numeral hv (ends_blank rfl r.toList)).scan_eq_iff.2 ⟨rs, hblank, rfl⟩
  rw [htext, Token.scan_append_eq_iff standsAlone_space]
  exact ⟨ls, _, hl, (Token.Scans.blank rfl _).scan_eq_iff.2 ⟨_, hnumeral, rfl⟩, rfl⟩

/-! ### The operands -/

/-- The value of a tree is made of the values of its operands. -/
theorem Expr.isCongruence_value (arithmetic : Arithmetic) :
    IsCongruence fun e e' => e.value arithmetic = e'.value arithmetic where
  constant _ := rfl
  unary op _ _ h := by rw [value, value, h]
  binary op _ _ _ _ hl hr := by rw [value, value, hl, hr]

theorem Expr.derives_numeral (v : Float) : Derives .signed (numeral v).tokens (numeral v) := by
  unfold numeral
  split
  · exact .sign .minus (.ofAtom (.number _))
  · split <;> exact .ofAtom (.number _)

theorem calculateWith_eq_ok_iff (arithmetic : Arithmetic) (text : String) (v : Float) :
    calculateWith arithmetic text = .ok v ↔
      ∃ tokens e, tokenize text = .ok tokens ∧ Expr.ofTokens tokens = .ok e ∧
        e.value arithmetic = .ok v := by
  rw [calculateWith, Expr.ofText]
  cases htokens : tokenize text with
  | error error => simp [Except.mapError, bind, Except.bind]
  | ok tokens =>
    cases he : Expr.ofTokens tokens with
    | error error => simp [Except.mapError, bind, Except.bind, he]
    | ok e =>
      cases hv : e.value arithmetic <;>
        simp [Except.mapError, bind, Except.bind, he, hv, Expr.evaluateWith_eq]

/-- **A result can be pasted back.** If a group is worth a finite double other than the negative
zero, its numeral between blanks can stand in its place, and the whole is worth the same, in any
arithmetic where minus is the opposite. -/
theorem calculate_paste (arithmetic : Arithmetic) (hnegates : arithmetic.Negates) (l e r : String)
    (v w : Float) (hfinite : v.isFinite = true) (hzero : v ≠ -0.0)
    (he : calculateWith arithmetic e = .ok v)
    (hw : calculateWith arithmetic (l ++ "(" ++ e ++ ")" ++ r) = .ok w) :
    calculateWith arithmetic (l ++ " " ++ Numeral.canonical v ++ " " ++ r) = .ok w := by
  have hfinite := isFinite_iff.1 hfinite
  obtain ⟨tokens, whole, htokens, hwhole, hvalue⟩ := (calculateWith_eq_ok_iff _ _ _).1 hw
  obtain ⟨ls, es, rs, hl, hes, hr, rfl⟩ := tokenize_group htokens
  obtain ⟨_, x, htokens', hx, hxvalue⟩ := (calculateWith_eq_ok_iff _ _ _).1 he
  cases hes.symm.trans htokens'
  have hgroup : Derives .signed (.openParen :: es ++ [.closeParen]) x :=
    .ofAtom (.group (derives_of_ofTokens hx))
  obtain ⟨frames, hbefore⟩ := run_of_ofTokens_openParen hwhole
  have hsame : x.value arithmetic = (Expr.numeral v).value arithmetic := by
    rw [hxvalue, Expr.value_numeral hnegates hfinite hzero]
  obtain ⟨whole', hwhole', hvalue'⟩ := (alike_ofTokens_operand (Expr.isCongruence_value arithmetic)
    (fun _ => rfl) hbefore hgroup (Expr.derives_numeral v) hsame rs).exists_ok hwhole
  rw [calculateWith_eq_ok_iff]
  exact ⟨_, whole', tokenize_spaced hfinite hl hr, hwhole', hvalue' ▸ hvalue⟩

/-- A negative result as the base of a power. -/
theorem calculate_paste_base :
    Arithmetic.ieee.Negates ∧ (-3 : Float).isFinite = true ∧ (-3 : Float) ≠ -0.0 ∧
      calculate "1-4" = .ok (-3) ∧
      calculate ("2*" ++ "(" ++ "1-4" ++ ")" ++ "^2") = .ok 18 ∧
      calculate "2* -3 ^2" = .ok 18 := by
  have hfinite : (-3 : Float).isFinite = true := by decide
  have hzero : (-3 : Float) ≠ -0.0 := by decide
  have he : calculate "1-4" = .ok (-3) := by decide +kernel
  have hw : calculate ("2*" ++ "(" ++ "1-4" ++ ")" ++ "^2") = .ok 18 := by decide +kernel
  have htext : "2*" ++ " " ++ Numeral.canonical (-3) ++ " " ++ "^2" = "2* -3 ^2" := by
    decide +kernel
  have hnegates := Arithmetic.negates_ieee
  have hpasted := calculate_paste .ieee hnegates "2*" "1-4" "^2" (-3) 18 hfinite hzero he hw
  exact ⟨hnegates, hfinite, hzero, he, hw, htext ▸ hpasted⟩

end Calculator
