import ImageGate.Number.Decimal
import ImageGate.Proofs.Text.Endings

/-! Numerals. A whole number is read back from its digits, so its text determines it, and the text
of any number is made of digits, a sign, a point and the letters of the words for what is not a
finite number: never a mark that a query or a path is cut at. -/
namespace ImageGate.Number
open ImageGate.Text
set_option autoImplicit false

/-! ## Runs -/

theorem not_mem_run {p : Char → Bool} {x : Char} (hx : p x = false) {run : List Char}
    (hrun : isRunOf p run = true) : x ∉ run := by
  intro hmem
  rw [isRunOf, Bool.and_eq_true, List.all_eq_true] at hrun
  have hp := hrun.2 x hmem
  rw [hx] at hp
  cases hp

/-- A run begins with one of its kind. -/
theorem head?_run_append_ne {p : Char → Bool} {x : Char} (hx : p x = false) {run : List Char}
    (hrun : isRunOf p run = true) (rest : List Char) : (run ++ rest).head? ≠ some x := by
  have hmem := not_mem_run hx hrun
  cases run with
  | nil => cases hrun
  | cons c run =>
    intro h
    rw [List.cons_append, List.head?_cons, Option.some.injEq] at h
    rw [h] at hmem
    exact hmem List.mem_cons_self

/-! ## Whole numbers -/

theorem isPlainDigit_of_mem_toDigits {n : Nat} {c : Char} (h : c ∈ Nat.toDigits 10 n) :
    isPlainDigit c = true := by
  have hd := Nat.isDigit_of_mem_toDigits (by decide) (by decide) h
  simpa [isPlainDigit, Char.isDigit, UInt32.le_iff_toNat_le] using hd

theorem isRunOf_toDigits (n : Nat) : isRunOf isPlainDigit (Nat.toDigits 10 n) = true := by
  rw [isRunOf, Bool.and_eq_true, List.all_eq_true]
  refine ⟨?_, fun c hc => isPlainDigit_of_mem_toDigits hc⟩
  simp [Nat.toDigits_ne_nil]

theorem ofDigits_eq_ofDigitChars (cs : List Char) : ofDigits cs = Nat.ofDigitChars 10 cs 0 := by
  rw [ofDigits, Nat.ofDigitChars_eq_foldl]
  simp only [digitValue, Nat.mul_comm]

theorem ofDigits_toDigits (n : Nat) : ofDigits (Nat.toDigits 10 n) = n := by
  rw [ofDigits_eq_ofDigitChars, Nat.ofDigitChars_ten_toDigits]

theorem readDigits?_eq_some_iff {cs : List Char} {n : Nat} :
    readDigits? cs = some n ↔ isRunOf isPlainDigit cs = true ∧ ofDigits cs = n := by
  simp [readDigits?]

theorem natText_injective {m n : Nat} (h : natText m = natText n) : m = n := by
  have hd : Nat.toDigits 10 m = Nat.toDigits 10 n := by
    simpa [natText] using congrArg String.toList h
  calc
    m = ofDigits (Nat.toDigits 10 m) := (ofDigits_toDigits m).symm
    _ = ofDigits (Nat.toDigits 10 n) := by rw [hd]
    _ = n := ofDigits_toDigits n

theorem readNat?_toDigits {bound n : Nat} (h : n < bound) :
    readNat? bound (Nat.toDigits 10 n) = some n := by
  have hdigits : readDigits? (Nat.toDigits 10 n) = some n :=
    readDigits?_eq_some_iff.2 ⟨isRunOf_toDigits n, ofDigits_toDigits n⟩
  have hplus : '+' ∉ Nat.toDigits 10 n := not_mem_run (by decide) (isRunOf_toDigits n)
  unfold readNat?
  split
  · next rest hcs => exact absurd (by rw [hcs]; exact List.mem_cons_self) hplus
  · rw [hdigits]
    exact Option.filter_some_pos (decide_eq_true h)

/-! ## The characters of a numeral -/

/-- Digits, sign and point, and the letters of `NaN` and `inf`. -/
def isNumeralChar (c : Char) : Bool :=
  isPlainDigit c || ['-', '.', 'N', 'a', 'i', 'n', 'f'].contains c

theorem isNumeralChar_of_mem_toDigits {n : Nat} {c : Char} (h : c ∈ Nat.toDigits 10 n) :
    isNumeralChar c = true := by
  rw [isNumeralChar, isPlainDigit_of_mem_toDigits h, Bool.true_or]

theorem isNumeralChar_of_mem_natText {n : Nat} {c : Char} (h : c ∈ (natText n).toList) :
    isNumeralChar c = true := by
  rw [natText, String.toList_ofList] at h
  exact isNumeralChar_of_mem_toDigits h

theorem isNumeralChar_of_mem_intText {i : Int} {c : Char} (h : c ∈ (intText i).toList) :
    isNumeralChar c = true := by
  cases i with
  | ofNat n => exact isNumeralChar_of_mem_natText h
  | negSucc n =>
    rw [intText, String.toList_append, List.mem_append] at h
    rcases h with h | h
    · rw [List.mem_singleton.1 h]
      decide
    · exact isNumeralChar_of_mem_natText h

theorem isNumeralChar_of_mem_signText {negative : Bool} {c : Char} (h : c ∈ signText negative) :
    isNumeralChar c = true := by
  cases negative with
  | false => cases h
  | true =>
    rw [List.mem_singleton.1 h]
    decide

theorem mem_positional {n : Nat} {place : Int} {c : Char} (h : c ∈ positional n place) :
    isPlainDigit c = true ∨ c = '.' := by
  have hzero : ∀ k, c ∈ List.replicate k '0' → isPlainDigit c = true := by
    intro k hk
    rw [(List.mem_replicate.1 hk).2]
    decide
  unfold positional at h
  split at h
  · rcases List.mem_append.1 h with h | h
    · exact .inl (isPlainDigit_of_mem_toDigits h)
    · exact .inl (hzero _ h)
  · have hpadded : ∀ k, c ∈ List.replicate k '0' ++ Nat.toDigits 10 n → isPlainDigit c = true := by
      intro k hk
      rcases List.mem_append.1 hk with hk | hk
      · exact hzero k hk
      · exact isPlainDigit_of_mem_toDigits hk
    rcases List.mem_append.1 h with h | h
    · exact .inl (hpadded _ (List.mem_of_mem_take h))
    · rcases List.mem_cons.1 h with rfl | h
      · exact .inr rfl
      · exact .inl (hpadded _ (List.mem_of_mem_drop h))

theorem positional_ne_nil (n : Nat) (place : Int) : positional n place ≠ [] := by
  unfold positional
  split <;> simp [Nat.toDigits_ne_nil]

theorem isNumeralChar_of_mem_positional {n : Nat} {place : Int} {c : Char}
    (h : c ∈ positional n place) : isNumeralChar c = true := by
  rcases mem_positional h with h | rfl
  · rw [isNumeralChar, h, Bool.true_or]
  · decide

namespace Binary
variable {F : Format}

theorem isNumeralChar_of_mem_text {x : Binary F} {c : Char} (h : c ∈ (text x).toList) :
    isNumeralChar c = true := by
  have hnan : "NaN".toList.all isNumeralChar = true := by decide
  have hinf : "inf".toList.all isNumeralChar = true := by decide
  cases x with
  | nan =>
    rw [text] at h
    exact List.all_eq_true.1 hnan c h
  | infinite negative =>
    rw [text, String.toList_ofList, List.mem_append] at h
    rcases h with h | h
    · exact isNumeralChar_of_mem_signText h
    · exact List.all_eq_true.1 hinf c h
  | finite negative units holds =>
    rw [text] at h
    split at h
    · rw [String.toList_ofList, List.mem_append] at h
      rcases h with h | h
      · exact isNumeralChar_of_mem_signText h
      · rw [List.mem_singleton.1 h]
        decide
    · rw [String.toList_ofList, List.mem_append] at h
      rcases h with h | h
      · exact isNumeralChar_of_mem_signText h
      · exact isNumeralChar_of_mem_positional h

theorem isNumeralChar_of_mem_pointedText {x : Binary F} {c : Char}
    (h : c ∈ (pointedText x).toList) : isNumeralChar c = true := by
  have hpoint : ".0".toList.all isNumeralChar = true := by decide
  cases x with
  | nan => exact isNumeralChar_of_mem_text (show c ∈ (text (.nan : Binary F)).toList from h)
  | infinite negative =>
    exact isNumeralChar_of_mem_text (show c ∈ (text (.infinite negative : Binary F)).toList from h)
  | finite negative units holds =>
    rw [pointedText] at h
    split at h
    · rw [String.toList_ofList, List.mem_append, List.mem_append] at h
      rcases h with (h | h) | h
      · exact isNumeralChar_of_mem_signText h
      · exact isNumeralChar_of_mem_toDigits h
      · exact List.all_eq_true.1 hpoint c h
    · exact isNumeralChar_of_mem_text h

end Binary

/-! ## What reads as a finite number -/

/-- Digits, signs, the point and the mark of an exponent. -/
def isDecimalChar (c : Char) : Bool := isPlainDigit c || ['+', '-', '.', 'e', 'E'].contains c

theorem isDecimalChar_of_isPlainDigit {c : Char} (h : isPlainDigit c = true) :
    isDecimalChar c = true := by
  rw [isDecimalChar, h, Bool.true_or]

theorem mem_of_mem_takeSign {cs : List Char} {c : Char} (h : c ∈ cs) :
    isDecimalChar c = true ∨ c ∈ (takeSign cs).2 := by
  unfold takeSign
  split
  · exact (List.mem_cons.1 h).imp_left fun he => by rw [he]; decide
  · exact (List.mem_cons.1 h).imp_left fun he => by rw [he]; decide
  · exact .inr h

theorem isDecimalChar_of_readExponent? {cs : List Char} {e : Int} (h : readExponent? cs = some e)
    {c : Char} (hc : c ∈ cs) : isDecimalChar c = true := by
  obtain ⟨i, hi, -⟩ := Option.map_eq_some_iff.1 h
  obtain ⟨n, hn, -⟩ := Option.bind_eq_some_iff.1 hi
  have hrun := (readDigits?_eq_some_iff.1 hn).1
  rw [isRunOf, Bool.and_eq_true, List.all_eq_true] at hrun
  rcases mem_of_mem_takeSign hc with hsign | hdigit
  · exact hsign
  · exact isDecimalChar_of_isPlainDigit (hrun.2 c hdigit)

theorem isDecimalChar_of_readPlain? {negative : Bool} {cs : List Char} {d : Decimal}
    (h : readPlain? negative cs = some d) {c : Char} (hc : c ∈ cs) : isDecimalChar c = true := by
  have hwhole : ∀ c ∈ cs.takeWhile isPlainDigit, isPlainDigit c = true :=
    List.all_eq_true.1 List.all_takeWhile
  rw [← List.takeWhile_append_dropWhile (p := isPlainDigit) (l := cs), List.mem_append] at hc
  rcases hc with hc | hc
  · exact isDecimalChar_of_isPlainDigit (hwhole c hc)
  · unfold readPlain? at h
    simp only at h
    split at h
    · next hnil =>
      rw [hnil] at hc
      cases hc
    · next fraction hpoint =>
      rw [hpoint] at hc
      split at h
      · next hfraction =>
        rw [Bool.and_eq_true, List.all_eq_true] at hfraction
        rcases List.mem_cons.1 hc with rfl | hc
        · decide
        · exact isDecimalChar_of_isPlainDigit (hfraction.1 c hc)
      · cases h
    · cases h

theorem isDecimalChar_of_readUnsigned? {negative : Bool} {cs : List Char} {d : Decimal}
    (h : readUnsigned? negative cs = some d) {c : Char} (hc : c ∈ cs) : isDecimalChar c = true := by
  let isMark := fun c : Char => c == 'e' || c == 'E'
  unfold readUnsigned? at h
  simp only at h
  split at h
  · exact isDecimalChar_of_readPlain? h hc
  · next mark exponent hmark =>
    rw [Option.bind_eq_bind, Option.bind_eq_some_iff] at h
    obtain ⟨plain, hplain, h⟩ := h
    rw [Option.bind_eq_bind, Option.bind_eq_some_iff] at h
    obtain ⟨e, he, -⟩ := h
    rw [← List.takeWhile_append_dropWhile (p := fun c => !isMark c) (l := cs), List.mem_append,
      hmark] at hc
    rcases hc with hc | hc
    · exact isDecimalChar_of_readPlain? hplain hc
    · rcases List.mem_cons.1 hc with rfl | hc
      · have hfirst := List.head?_dropWhile_not (fun c => !isMark c) cs
        rw [hmark] at hfirst
        simp only [isMark, List.head?_cons, Bool.not_eq_false', Bool.or_eq_true, beq_iff_eq] at hfirst
        rcases hfirst with rfl | rfl <;> decide
      · exact isDecimalChar_of_readExponent? he hc

/-- A number in digits holds nothing but them, signs, a point and the mark of an exponent. -/
theorem Binary.isDecimalChar_of_read? {F : Format} {cs : List Char} {x : Binary F}
    (h : read? F cs = some x) (hfinite : x.isFinite = true) {c : Char} (hc : c ∈ cs) :
    isDecimalChar c = true := by
  unfold read? at h
  simp only at h
  split at h
  · rw [Option.some.injEq] at h
    rw [← h] at hfinite
    cases hfinite
  · split at h
    · rw [Option.some.injEq] at h
      rw [← h] at hfinite
      cases hfinite
    · obtain ⟨d, hd, -⟩ := Option.map_eq_some_iff.1 h
      rcases mem_of_mem_takeSign hc with hsign | hbody
      · exact hsign
      · exact isDecimalChar_of_readUnsigned? hd hbody

/-! ## The end of a numeral -/

/-- A digit, the point, or the end of `NaN` or `inf`. -/
def isNumeralEnd (c : Char) : Bool := isPlainDigit c || ['.', 'N', 'f'].contains c

theorem isNumeralEnd_of_isPlainDigit (c : Char) (h : isPlainDigit c = true) :
    isNumeralEnd c = true := by
  rw [isNumeralEnd, h, Bool.true_or]

theorem endsIn_toDigits (n : Nat) : EndsIn isPlainDigit (Nat.toDigits 10 n) :=
  .of_forall_mem Nat.toDigits_ne_nil fun _ => isPlainDigit_of_mem_toDigits

theorem endsIn_intText (i : Int) : EndsIn isPlainDigit (intText i).toList := by
  cases i with
  | ofNat n =>
    rw [intText, natText, String.toList_ofList]
    exact endsIn_toDigits n
  | negSucc n =>
    rw [intText, String.toList_append, natText, String.toList_ofList (l := Nat.toDigits 10 _)]
    exact (endsIn_toDigits (n + 1)).append _

theorem endsIn_positional (n : Nat) (place : Int) : EndsIn isNumeralEnd (positional n place) := by
  refine .of_forall_mem (positional_ne_nil n place) fun c hc => ?_
  rcases mem_positional hc with h | rfl
  · exact isNumeralEnd_of_isPlainDigit c h
  · decide

namespace Binary
variable {F : Format}

theorem endsIn_text (x : Binary F) : EndsIn isNumeralEnd (text x).toList := by
  cases x with
  | nan =>
    rw [text]
    decide
  | infinite negative =>
    rw [text, String.toList_ofList]
    exact .append (by decide) _
  | finite negative units holds =>
    rw [text]
    split
    · rw [String.toList_ofList]
      exact .append (by decide) _
    · rw [String.toList_ofList]
      exact (endsIn_positional _ _).append _

theorem endsIn_pointedText (x : Binary F) : EndsIn isNumeralEnd (pointedText x).toList := by
  cases x with
  | nan => exact endsIn_text (.nan : Binary F)
  | infinite negative => exact endsIn_text (.infinite negative : Binary F)
  | finite negative units holds =>
    rw [pointedText]
    split
    · rw [String.toList_ofList]
      exact .append (by decide) _
    · exact endsIn_text _

end Binary

end ImageGate.Number
