import Calculator.Text.Quoted

/-! Quoted texts.

All characters of a quoted text are printable, whatever it quotes (`arePrintable_quote`), so it
holds no line feed. Every character is escaped by itself: a line feed at the end of a text only
adds its escape in front of the closing mark (`exists_quote_lineFeed`). -/
namespace Calculator.Text

def ArePrintable (cs : List Char) : Prop := ∀ c ∈ cs, isPrintable c = true

theorem arePrintable_nil : ArePrintable [] := fun _ h => by contradiction

theorem arePrintable_cons {c : Char} {cs : List Char} :
    ArePrintable (c :: cs) ↔ isPrintable c = true ∧ ArePrintable cs :=
  List.forall_mem_cons

theorem arePrintable_append {cs ds : List Char} :
    ArePrintable (cs ++ ds) ↔ ArePrintable cs ∧ ArePrintable ds :=
  List.forall_mem_append

theorem arePrintable_concat {a b : String} (ha : ArePrintable a.toList) (hb : ArePrintable b.toList) :
    ArePrintable (a ++ b).toList := by
  rw [String.toList_append]
  exact arePrintable_append.2 ⟨ha, hb⟩

theorem arePrintable_of_ascii {cs : List Char}
    (h : cs.all (fun c => 0x20 ≤ c.toNat && c.toNat < 0x7f) = true) : ArePrintable cs := by
  simp only [List.all_eq_true, Bool.and_eq_true, decide_eq_true_eq] at h
  exact fun c hc => isPrintable_of_ascii (h c hc).1 (h c hc).2

theorem isPrintable_of_isDigit {c : Char} (h : c.isDigit = true) : isPrintable c = true := by
  have hrange : 48 ≤ c.toNat ∧ c.toNat ≤ 57 := by
    simpa [Char.isDigit, UInt32.le_iff_toNat_le] using h
  exact isPrintable_of_ascii (by omega) (by omega)

theorem arePrintable_toString (n : Nat) : ArePrintable (toString n).toList := by
  intro c hc
  have hdigit : c ∈ Nat.toDigits 10 n := by rwa [← Nat.toList_repr]
  exact isPrintable_of_isDigit (Nat.isDigit_of_mem_toDigits (by decide) (by decide) hdigit)

theorem ArePrintable.not_mem_lineFeed {cs : List Char} (h : ArePrintable cs) : '\n' ∉ cs := by
  intro hmem
  have hnot : isPrintable '\n' = false := by decide
  rw [h '\n' hmem] at hnot
  contradiction

/-! ### Escapes -/

theorem exists_of_mem_toDigits {base : Nat} (hbase : 1 < base) (n : Nat) :
    ∀ c ∈ Nat.toDigits base n, ∃ d < base, c = d.digitChar := by
  induction n using Nat.strongRecOn with
  | ind n ih =>
    rw [Nat.toDigits_eq_if hbase]
    split
    · next hlt =>
      intro c hc
      exact ⟨n, hlt, List.mem_singleton.1 hc⟩
    · next hge =>
      have hless : n / base < n := Nat.div_lt_self (by omega) hbase
      intro c hc
      rcases List.mem_append.1 hc with hc | hc
      · exact ih _ hless c hc
      · exact ⟨n % base, Nat.mod_lt n (by omega), List.mem_singleton.1 hc⟩

theorem arePrintable_hexDigits (width n : Nat) : ArePrintable (hexDigits width n) := by
  have hdigit : ∀ d < 16, isPrintable d.digitChar = true := by decide +kernel
  intro c hc
  rcases List.mem_append.1 hc with hc | hc
  · rw [List.eq_of_mem_replicate hc]
    exact hdigit 0 (by decide)
  · obtain ⟨d, hd, rfl⟩ := exists_of_mem_toDigits (by decide) n c hc
    exact hdigit d hd

theorem isPrintable_quotationMark (text : List Char) : isPrintable (quotationMark text) = true := by
  unfold quotationMark
  split <;> decide +kernel

theorem arePrintable_escape {mark : Char} (hmark : isPrintable mark = true) (c : Char) :
    ArePrintable (escape mark c) := by
  have hbackslash : isPrintable backslash = true := by decide +kernel
  have hex {letter : Char} (hletter : isPrintable letter = true) (width : Nat) :
      ArePrintable (backslash :: letter :: hexDigits width c.toNat) :=
    arePrintable_cons.2 ⟨hbackslash, arePrintable_cons.2 ⟨hletter, arePrintable_hexDigits width _⟩⟩
  unfold escape
  split
  · next h =>
    have hc : isPrintable c = true := by
      rcases h with rfl | rfl
      · exact hmark
      · exact hbackslash
    exact arePrintable_cons.2 ⟨hbackslash, arePrintable_cons.2 ⟨hc, arePrintable_nil⟩⟩
  split
  · exact arePrintable_of_ascii (by decide)
  split
  · exact arePrintable_of_ascii (by decide)
  split
  · exact arePrintable_of_ascii (by decide)
  split
  · next hc => exact arePrintable_cons.2 ⟨hc, arePrintable_nil⟩
  split
  · exact hex (by decide +kernel) 2
  split
  · exact hex (by decide +kernel) 4
  · exact hex (by decide +kernel) 8

theorem arePrintable_quote (text : List Char) : ArePrintable (quote text) := by
  have hmark := isPrintable_quotationMark text
  refine arePrintable_append.2 ⟨arePrintable_cons.2 ⟨hmark, ?_⟩, ?_⟩
  · intro c hc
    obtain ⟨d, -, hd⟩ := List.mem_flatMap.1 hc
    exact arePrintable_escape hmark d c hd
  · exact arePrintable_cons.2 ⟨hmark, arePrintable_nil⟩

/-- A line feed more is its escape more, at the end of what is quoted. -/
theorem exists_quote_lineFeed (text : List Char) :
    ∃ before mark, quote text = before ++ [mark] ∧
      quote (text ++ ['\n']) = before ++ [backslash, 'n'] ++ [mark] := by
  have hmark : quotationMark (text ++ ['\n']) = quotationMark text := by
    have happ : apostrophe ≠ '\n' ∧ doubleQuote ≠ '\n' := by decide
    simp [quotationMark, happ.1, happ.2]
  have hescape : escape (quotationMark text) '\n' = [backslash, 'n'] := by
    have hne : ¬ ('\n' = quotationMark text ∨ '\n' = backslash) := by
      unfold quotationMark
      split <;> decide
    rw [escape, if_neg hne, if_pos rfl]
  refine ⟨quotationMark text :: text.flatMap (escape (quotationMark text)), quotationMark text,
    rfl, ?_⟩
  simp [quote, hmark, hescape]

end Calculator.Text
