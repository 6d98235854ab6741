import Calculator.Proofs.Binary64.Value
import Calculator.Proofs.Decimal.Value
import Calculator.Proofs.Token.Munch

/-! Literals are rounded correctly.

A literal denotes a rational number (`Literal.value`), and that of the decimal made from it is
the same. So what it is read as is the double nearest to that number, for digits and exponents
of any length, and depends on the number alone, not on how it is spelled
(`tokenize_literal_roundsTo`). -/
namespace Calculator
open Binary64

namespace Literal

/-- The number that a literal denotes: the digits before the point, the fraction of those after
it, and the power of ten. -/
def value (l : Literal) : ℚ :=
  (Nat.ofDigitChars 10 l.whole 0 + Nat.ofDigitChars 10 l.fraction 0 / 10 ^ l.fraction.length) *
    10 ^ l.exponent

theorem value_nonneg (l : Literal) : 0 ≤ l.value := by
  rw [value]
  positivity

theorem value_toDecimal (l : Literal) : l.toDecimal.value = l.value := by
  have hdigits : Nat.ofDigitChars 10 (l.whole ++ l.fraction) 0 =
      10 ^ l.fraction.length * Nat.ofDigitChars 10 l.whole 0 + Nat.ofDigitChars 10 l.fraction 0 := by
    rw [Nat.ofDigitChars_append, Nat.ofDigitChars_eq_ofDigitChars_zero]
  rw [Decimal.value, toDecimal, value, hdigits, zpow_sub₀ (by norm_num), zpow_natCast]
  push_cast
  field_simp

theorem isNearest_rank (l : Literal) : IsNearest l.toDecimal.rank (l.value * unitsPerOne) := by
  rw [← value_toDecimal]
  exact l.toDecimal.isNearest_rank

theorem roundsTo_toFloat (l : Literal) : RoundsTo l.value l.toDecimal.toFloat :=
  l.isNearest_rank.roundsTo l.value_nonneg

end Literal

/-- The text of one token. -/
theorem tokenize_lexeme {text : String} {token : Token} (h : Lexeme text.toList token) :
    tokenize text = .ok [token] := by
  obtain ⟨token', rest, hread, hlength, heq⟩ := h.read? []
  have hrest : rest = [] := List.length_eq_zero_iff.1 (Nat.le_zero.1 hlength)
  rw [← h.skipBlanks_append, List.append_nil, heq rfl, hrest] at hread
  rw [tokenize_eq_ok_iff, Token.scan_of_some hread, Token.scan_of_none rfl]
  rfl

theorem tokenize_literal {text : String} {l : Literal} (h : Literal.IsText text.toList l) :
    tokenize text = .ok [.number l.toDecimal.toFloat] :=
  tokenize_lexeme (.number h)

/-- **A literal is read as the double that its number rounds to.** The double is zero up to half
the smallest one above zero, has no sign and is a number. Every text that denotes the same
number is read alike. -/
theorem tokenize_literal_roundsTo (text : String) (l : Literal) (h : Literal.IsText text.toList l) :
    ∃ x, tokenize text = .ok [.number x] ∧ RoundsTo l.value x ∧
      (x = 0 ↔ l.value ≤ 2 ^ (-1075 : ℤ)) ∧ 0 ≤ x ∧ x ≠ -0.0 ∧ x.isNaN = false ∧
      ∀ text' l', Literal.IsText text'.toList l' → l'.value = l.value →
        tokenize text' = .ok [.number x] := by
  obtain ⟨hle, hne, hnan⟩ := unsigned_ofRank l.toDecimal.rank_le
  refine ⟨l.toDecimal.toFloat, tokenize_literal h, l.roundsTo_toFloat, ?_, hle, hne, hnan,
    fun text' l' h' heq => ?_⟩
  · rw [Decimal.toFloat, ofRank_eq_zero_iff l.toDecimal.rank_le,
      l.isNearest_rank.eq_zero_iff l.value_nonneg]
  · obtain ⟨hle', hne', -⟩ := unsigned_ofRank l'.toDecimal.rank_le
    have hrounds := l'.roundsTo_toFloat
    rw [heq] at hrounds
    rw [tokenize_literal h', hrounds.unique l.roundsTo_toFloat ⟨hle', hne'⟩ ⟨hle, hne⟩]

/-- Halfway between two doubles, the even one, and again with zeros, a point and an exponent. -/
theorem tokenize_literal_roundsTo_tie :
    Literal.IsText "9007199254740993".toList ⟨"9007199254740993".toList, [], 0⟩ ∧
      Literal.IsText ".90071992547409930E+016".toList ⟨[], "90071992547409930".toList, 16⟩ ∧
      Literal.value ⟨[], "90071992547409930".toList, 16⟩ =
        Literal.value ⟨"9007199254740993".toList, [], 0⟩ ∧
      RoundsTo (Literal.value ⟨"9007199254740993".toList, [], 0⟩) 9007199254740992 ∧
      tokenize ".90071992547409930E+016" = .ok [.number 9007199254740992] := by
  have htext : Literal.IsText "9007199254740993".toList ⟨"9007199254740993".toList, [], 0⟩ :=
    ⟨_, [], (List.append_nil _).symm, .whole (by decide) (by decide), .none⟩
  have htext' : Literal.IsText ".90071992547409930E+016".toList
      ⟨[], "90071992547409930".toList, 16⟩ :=
    ⟨'.' :: "90071992547409930".toList, 'E' :: (['+'] ++ "016".toList), by decide,
      .fraction (by decide) (by decide), .complete (.inr rfl) .plus (by decide) (by decide)⟩
  have hvalue : Literal.value ⟨[], "90071992547409930".toList, 16⟩ =
      Literal.value ⟨"9007199254740993".toList, [], 0⟩ := by decide +kernel
  obtain ⟨x, hread, hrounds, -, -, -, -, hsame⟩ :=
    tokenize_literal_roundsTo "9007199254740993" _ htext
  have hx : tokenize "9007199254740993" = .ok [.number 9007199254740992] := by decide +kernel
  obtain rfl : x = 9007199254740992 := by simpa using hread.symm.trans hx
  exact ⟨htext, htext', hvalue, hrounds, hsame _ _ htext' hvalue⟩

end Calculator
