import SExprLang.Proofs.Decimal.Numeral
import SExprLang.Proofs.Evaluation.Effect
import SExprLang.Proofs.RoundTrip

/-!
# Numbers read back from their plain notation

The plain notation of a double is a word (`isWord_display`) that is read as the double, sign and all (`read?_display`);
what is not a number is read as `nan`, without its sign and payload. So the text of a number compiles to that number
(`compile_numeral`), and a string with that text is converted to it.
-/

namespace SExprLang

open Lexical

theorem Lexical.isWord_of_all {text : List Char} (hne : text ≠ [])
    (h : text.all (fun c => decide (LexicalClass.of c = .other)) = true) : IsWord text :=
  ⟨hne, fun c hc => of_decide_eq_true (List.all_eq_true.1 h c hc)⟩

/-! ## Notations of a magnitude -/

/-- The text is a word without a sign that is read as the magnitude. -/
structure Double.Denotes (text : List Char) (magnitude : Double) : Prop where
  isWord : IsWord text
  unsigned : Decimal.splitSign text = (false, text)
  read : (word? text).or (Decimal.read? text) = some magnitude

/-- A digit is a letter of words and no sign, and no special word begins with it. -/
theorem Decimal.lexical_of_isDigit {c : Char} (h : c.isDigit = true) :
    LexicalClass.of c = .other ∧ c ≠ '-' ∧ c ≠ '+' ∧ c.toLower ≠ 'i' ∧ c.toLower ≠ 'n' := by
  have hall : ∀ i < 10, LexicalClass.of (Nat.digitChar i) = .other ∧ Nat.digitChar i ≠ '-' ∧ Nat.digitChar i ≠ '+' ∧
      (Nat.digitChar i).toLower ≠ 'i' ∧ (Nat.digitChar i).toLower ≠ 'n' := by decide
  obtain ⟨i, hi, rfl⟩ := exists_digitChar_of_isDigit h
  exact hall i hi

/-- Digits denote what they are read as. -/
theorem Decimal.Written.denotes {text digits : List Char} {exponent : Int} {magnitude : Double}
    (h : Written text digits exponent) (hread : Decimal.read? text = some magnitude) : Double.Denotes text magnitude := by
  obtain ⟨c, rest, rfl, hc⟩ := h.exists_head
  obtain ⟨_, hminus, hplus, hi, hn⟩ := lexical_of_isDigit hc
  refine ⟨⟨List.cons_ne_nil c rest, fun d hd => ?_⟩, ?_, ?_⟩
  · rcases h.mem hd with hdigit | rfl
    · exact (lexical_of_isDigit hdigit).1
    · decide
  · unfold splitSign
    split <;> simp_all
  · have hword : Double.word? (c :: rest) = none := by simp [Double.word?, hi, hn]
    rw [hword, hread]
    rfl

namespace Double

theorem denotes_inf : Denotes "inf".toList infinity :=
  ⟨isWord_of_all (by decide) (by decide), by decide, by decide⟩

/-- The notation of a finite magnitude denotes it. -/
theorem denotes_layout {rank : Nat} (hlt : rank < infinityRank) :
    Denotes ((Decimal.shortest rank).layout .plain) ⟨false, rank, Nat.lt_trans hlt infinityRank_lt⟩ := by
  rcases Nat.eq_zero_or_pos rank with rfl | hpos
  · exact (Decimal.Written.whole (List.cons_ne_nil '0' []) (List.forall_mem_singleton.2 rfl)).denotes rfl
  · obtain ⟨digits, exponent, hwritten, -⟩ := (Decimal.shortest rank).exists_written_positional
    exact hwritten.denotes (Decimal.read?_layout hpos hlt)

/-! ## Notations of a double -/

variable {d : Double}

/-- What is a number is written as its magnitude, with a sign before it if it is negative. -/
theorem exists_display_eq (h : d.isNaN = false) : ∃ text, Denotes text ⟨false, d.rank, d.rank_lt⟩ ∧
    d.display = String.ofList (if d.negative then '-' :: text else text) := by
  obtain ⟨negative, rank, hrank⟩ := d
  have hle : rank ≤ infinityRank := by simpa [isNaN] using h
  unfold display write
  rw [h]
  rcases Nat.eq_or_lt_of_le hle with rfl | hlt
  · exact ⟨_, denotes_inf, by simp [isInfinite]⟩
  · exact ⟨_, denotes_layout hlt, by simp [isInfinite, hlt.ne]⟩

theorem display_of_isNaN (h : d.isNaN = true) : d.display = "NaN" := by
  simp [display, write, h]

/-- The plain notation is a word. -/
theorem isWord_display (d : Double) : IsWord d.display.toList := by
  cases h : d.isNaN with
  | true =>
    rw [display_of_isNaN h]
    exact isWord_of_all (by decide) (by decide)
  | false =>
    obtain ⟨text, htext, hdisplay⟩ := exists_display_eq h
    rw [hdisplay, String.toList_ofList]
    split
    · exact ⟨List.cons_ne_nil _ _, List.forall_mem_cons.2 ⟨by decide, htext.isWord.2⟩⟩
    · exact htext.isWord

/-- **The plain notation of a number is read as that number.** -/
theorem read?_display (h : d.isNaN = false) : read? d.display = some d := by
  obtain ⟨text, htext, hdisplay⟩ := exists_display_eq h
  obtain ⟨negative, rank, hrank⟩ := d
  rw [hdisplay, read?, String.toList_ofList, readChars?]
  cases negative with
  | false => simp [htext.unsigned, htext.read]
  | true => simp [Decimal.splitSign, htext.read, neg]

theorem read?_display_of_isNaN (h : d.isNaN = true) : read? d.display = some nan := by
  rw [display_of_isNaN h]
  decide

end Double

/-! ## Programs of a number alone -/

/-- A numeral that is a word compiles to its number. -/
theorem compile_numeral {text : String} {value : Double} (hword : IsWord text.toList)
    (hread : Double.read? text = some value) : compile text = .ok (.number value text ⟨1, 1⟩) := by
  have hlexeme : Lexeme text.toList (.number value) := .number hword (by rwa [String.ofList_toList])
  have hscan : Token.scan text = .ok [⟨.number value, text, ⟨1, 1⟩⟩] := by
    rw [Token.scan, Scan.scanChars_eq_run, Scan.start, ← List.append_nil text.toList,
      Scan.run_lexeme (k := []) hlexeme fun _ => trivial, String.ofList_toList]
    rfl
  exact compile_eq_ok_iff.2 ⟨_, hscan, .atom rfl .nil⟩

/-- **Numbers read back exactly.** The text of a number, as a program, is the number at the start of the text and evaluates
to it, and as a string it is converted to it. The number that is read has the same bits, unless it was not a number, and
then what is read is none either. -/
theorem display_reads_back (d : Double) : ∃ value : Double,
    (d.isNaN = false → value.bits = d.bits) ∧ (d.isNaN = true → value.isNaN = true) ∧
    compile (Value.number d).display = .ok (.number value (Value.number d).display ⟨1, 1⟩) ∧
    (∀ depth machine, (evaluate (depth + 1) (.number value (Value.number d).display ⟨1, 1⟩)).start machine =
      some (.ok (.number value), machine)) ∧
    (∀ (evaluate : Expression → Eval Value) (source : Expression) (machine after : Machine),
      (evaluate source).start machine = some (.ok (.string (Value.number d).display), after) →
        (Eval.numberArg evaluate (some source)).start machine = some (.ok value, after)) := by
  obtain ⟨value, hread, hnumber, hnan⟩ : ∃ value, Double.read? d.display = some value ∧
      (d.isNaN = false → value.bits = d.bits) ∧ (d.isNaN = true → value.isNaN = true) := by
    cases h : d.isNaN with
    | false => exact ⟨d, Double.read?_display h, fun _ => rfl, nofun⟩
    | true => exact ⟨.nan, Double.read?_display_of_isNaN h, nofun, fun _ => rfl⟩
  refine ⟨value, hnumber, hnan, compile_numeral d.isWord_display hread, fun _ _ => rfl, ?_⟩
  intro evaluate source machine after heval
  have hconvert : Eval.asNumber source (.string (Value.number d).display) = .ok value := by
    simp [Eval.asNumber, Value.display, hread]
  rw [Eval.numberArg, Eval.present, pure_bind, Eval.start_bind, heval]
  simp [hconvert]

end SExprLang
