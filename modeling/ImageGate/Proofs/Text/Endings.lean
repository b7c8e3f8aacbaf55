import ImageGate.Proofs.Text.PercentCoding
import ImageGate.Text.Blank

/-! How a text ends. Decoding leaves a last byte alone that is no hexadecimal digit, because no
triplet ends in it, and the encoding of a text ends in that byte itself or in the last digit of its
triplet. So the end of an encoded text is known from the end of the text. -/
namespace ImageGate.Text
set_option autoImplicit false

/-! ## The last character -/

/-- There is a last character, and it passes `p`. -/
def EndsIn (p : Char → Bool) (cs : List Char) : Prop := ∃ c, cs.getLast? = some c ∧ p c = true

namespace EndsIn
variable {p q : Char → Bool} {cs : List Char}

theorem append (h : EndsIn p cs) (front : List Char) : EndsIn p (front ++ cs) := by
  obtain ⟨c, hc, hp⟩ := h
  exact ⟨c, by rw [List.getLast?_append, hc]; rfl, hp⟩

theorem mono (hpq : ∀ c, p c = true → q c = true) (h : EndsIn p cs) : EndsIn q cs := by
  obtain ⟨c, hc, hp⟩ := h
  exact ⟨c, hc, hpq c hp⟩

theorem of_forall_mem (hne : cs ≠ []) (h : ∀ c ∈ cs, p c = true) : EndsIn p cs := by
  have hlast := List.getLast?_eq_some_getLast hne
  exact ⟨cs.getLast hne, hlast, h _ (List.mem_of_getLast? hlast)⟩

/-- A character that passes `p` is no end of a text that `p` refuses. -/
theorem ne_of_not {ds : List Char} (h : EndsIn p cs) (hd : EndsIn (fun c => !p c) ds) :
    cs ≠ ds := by
  rintro rfl
  obtain ⟨c, hc, hp⟩ := h
  obtain ⟨d, hd, hn⟩ := hd
  rw [hc, Option.some.injEq] at hd
  subst hd
  simp only [hp] at hn
  cases hn

end EndsIn

instance (p : Char → Bool) (cs : List Char) : Decidable (EndsIn p cs) :=
  decidable_of_iff (cs.getLast?.any p = true) (by simp [EndsIn, Option.any_eq_true])

/-! ## Blanks at the ends -/

/-- What is left of a text without the blanks around it. -/
structure IsTrimmed (cs core : List Char) : Prop where
  cut : ∃ before after, cs = before ++ (core ++ after) ∧ (∀ c ∈ before, isBlank c = true) ∧
    ∀ c ∈ after, isBlank c = true
  first : ∀ c ∈ core.head?, isBlank c = false
  last : ∀ c ∈ core.getLast?, isBlank c = false

theorem isTrimmed_trimChars (cs : List Char) : IsTrimmed cs (trimChars cs) := by
  let before := cs.takeWhile isBlank
  let rest := trimLeft cs
  let after := (rest.reverse.takeWhile isBlank).reverse
  have hleft : cs = before ++ rest := List.takeWhile_append_dropWhile.symm
  have hright : rest = trimChars cs ++ after := by
    rw [trimChars, trimRight, ← List.reverse_append, List.takeWhile_append_dropWhile,
      List.reverse_reverse]
  constructor
  · refine ⟨before, after, by rw [← hright]; exact hleft, ?_, fun c hc => ?_⟩
    · exact List.all_eq_true.1 List.all_takeWhile
    · exact List.all_eq_true.1 List.all_takeWhile c (List.mem_reverse.1 hc)
  · intro c hc
    have hstop := List.head?_dropWhile_not isBlank cs
    have hhead : (cs.dropWhile isBlank).head? = some c := by
      change rest.head? = some c
      rw [hright, List.head?_append, Option.mem_def.1 hc, Option.some_or]
    rw [hhead] at hstop
    simpa using hstop
  · intro c hc
    rw [trimChars, trimRight, List.getLast?_reverse, Option.mem_def] at hc
    have hstop := List.head?_dropWhile_not isBlank rest.reverse
    rw [hc] at hstop
    simpa using hstop

theorem dropWhile_isBlank_of_head {cs : List Char} (h : ∀ c ∈ cs.head?, isBlank c = false) :
    cs.dropWhile isBlank = cs := by
  cases cs with
  | nil => rfl
  | cons c cs => exact trimLeft_of_head (h c rfl)

/-- Nothing else is left of it. -/
theorem IsTrimmed.trimChars_eq {cs core : List Char} (h : IsTrimmed cs core) : trimChars cs = core := by
  obtain ⟨⟨before, after, rfl, hbefore, hafter⟩, hfirst, hlast⟩ := h
  have hleft : trimLeft (before ++ (core ++ after)) = (core ++ after).dropWhile isBlank :=
    List.dropWhile_append_of_pos hbefore
  rw [trimChars, hleft, trimRight]
  cases core with
  | nil =>
    have hnone : (after ++ []).dropWhile isBlank = [] := List.dropWhile_append_of_pos hafter
    rw [List.append_nil] at hnone
    rw [List.nil_append, hnone]
    rfl
  | cons c core =>
    have hfront : (c :: core ++ after).dropWhile isBlank = c :: core ++ after :=
      dropWhile_isBlank_of_head hfirst
    have hback : (c :: core).reverse.dropWhile isBlank = (c :: core).reverse :=
      dropWhile_isBlank_of_head (by rwa [List.head?_reverse])
    rw [hfront, List.reverse_append,
      List.dropWhile_append_of_pos fun d hd => hafter d (List.mem_reverse.1 hd), hback,
      List.reverse_reverse]

theorem isTrimmed_iff {s t : String} : IsTrimmed s.toList t.toList ↔ trim s = t := by
  rw [trim, ← String.toList_inj, String.toList_ofList]
  constructor
  · exact IsTrimmed.trimChars_eq
  · intro h
    rw [← h]
    exact isTrimmed_trimChars _

/-- Trimming takes blanks off both ends. -/
theorem exists_trimChars (cs : List Char) :
    ∃ before after, cs = before ++ (trimChars cs ++ after) ∧ ∀ c ∈ after, isBlank c = true := by
  obtain ⟨before, after, hcut, -, hafter⟩ := (isTrimmed_trimChars cs).cut
  exact ⟨before, after, hcut, hafter⟩

/-! ## The last byte -/

namespace Utf8

theorem getLast?_bytes {s : String} {c : Char} (h : s.toList.getLast? = some c) :
    (bytes s).getLast? = (String.utf8EncodeChar c).getLast? := by
  obtain ⟨front, hfront⟩ := List.getLast?_eq_some_iff.1 h
  have hbytes : bytes s = bytes (String.ofList front) ++ String.utf8EncodeChar c := by
    rw [← String.ofList_toList (s := s), hfront, bytes_ofList, bytes_ofList, List.flatMap_append,
      List.flatMap_singleton]
  have hne : (String.utf8EncodeChar c).getLast? ≠ none :=
    mt List.getLast?_eq_none_iff.1 String.utf8EncodeChar_ne_nil
  obtain ⟨b, hb⟩ := Option.ne_none_iff_exists'.1 hne
  rw [hbytes, List.getLast?_append, hb]
  rfl

theorem getLast?_bytes_of_ascii {s : String} {c : Char} (h : s.toList.getLast? = some c)
    (hc : c.toNat < 0x80) : (bytes s).getLast? = some (UInt8.ofNat c.toNat) := by
  rw [getLast?_bytes h, utf8EncodeChar_of_ascii hc]
  rfl

theorem exists_getLast?_bytes_of_high {s : String} {c : Char} (h : s.toList.getLast? = some c)
    (hc : 0x80 ≤ c.toNat) : ∃ b, (bytes s).getLast? = some b ∧ 0x80 ≤ b.toNat := by
  obtain ⟨b, hb⟩ := Option.ne_none_iff_exists'.1
    (mt List.getLast?_eq_none_iff.1 (String.utf8EncodeChar_ne_nil (c := c)))
  refine ⟨b, by rw [getLast?_bytes h, hb], ?_⟩
  exact high_of_mem_utf8EncodeChar hc (List.mem_of_getLast? hb)

theorem exists_bytes_of_concat {s : String} {bs : List UInt8} {b : UInt8} (hb : b.toNat < 0x80)
    (h : bytes s = bs ++ [b]) : ∃ t, bytes t = bs := by
  rcases List.eq_nil_or_concat s.toList with hs | ⟨front, c, hs⟩
  · have hempty : bytes s = [] := by rw [← String.ofList_toList (s := s), hs, bytes_ofList]; rfl
    rw [hempty] at h
    exact absurd h.symm (by simp)
  · have hlast : s.toList.getLast? = some c := by rw [hs, List.concat_eq_append, List.getLast?_concat]
    by_cases hc : c.toNat < 0x80
    · refine ⟨String.ofList front, ?_⟩
      rw [← String.ofList_toList (s := s), hs, List.concat_eq_append, bytes_ofList,
        List.flatMap_append, List.flatMap_singleton, utf8EncodeChar_of_ascii hc] at h
      rw [bytes_ofList]
      exact List.append_inj_left' h rfl
    · obtain ⟨d, hd, hhigh⟩ := exists_getLast?_bytes_of_high hlast (Nat.le_of_not_lt hc)
      rw [h, List.getLast?_concat, Option.some.injEq] at hd
      rw [← hd] at hhigh
      omega

/-- What stands in front of ASCII characters in the bytes of a text is a text itself. -/
theorem exists_bytes_of_append {cs : List Char} (hcs : ∀ c ∈ cs, c.toNat < 0x80) {s : String}
    {bs : List UInt8} (h : bytes s = bs ++ bytes (String.ofList cs)) : ∃ t, bytes t = bs := by
  induction cs generalizing bs with
  | nil => exact ⟨s, by rw [h, bytes_ofList, List.flatMap_nil, List.append_nil]⟩
  | cons c cs ih =>
    have hc : c.toNat < 0x80 := hcs c List.mem_cons_self
    have hb : (UInt8.ofNat c.toNat).toNat < 0x80 := by
      rw [UInt8.toNat_ofNat']
      omega
    rw [bytes_ofList, List.flatMap_cons, utf8EncodeChar_of_ascii hc, ← List.append_assoc,
      ← bytes_ofList] at h
    obtain ⟨t, ht⟩ := ih (fun d hd => hcs d (List.mem_cons_of_mem c hd)) h
    exact exists_bytes_of_concat hb ht

end Utf8

namespace Percent
open Utf8

theorem pairValue?_of_low {high low : UInt8} (h : hexValue? low = none) :
    pairValue? high low = none := by
  cases hh : hexValue? high <;> simp [pairValue?, hh, h]

theorem pairValue?_of_high {high : UInt8} (h : hexValue? high = none) (low : UInt8) :
    pairValue? high low = none := by
  rw [pairValue?, h]
  rfl

/-- A byte that is no hexadecimal digit stands in no triplet that begins in front of it. -/
theorem decode_append_cons {b : UInt8} (hb : hexValue? b = none) (bs rest : List UInt8) :
    decode (bs ++ b :: rest) = decode bs ++ decode (b :: rest) := by
  have hfirst : ∀ a, decode (a :: b :: rest) = a :: decode (b :: rest) := by
    intro a
    rcases decode_cons a (b :: rest) with hd | ⟨high, low, tail, v, heq, -, hv, -⟩
    · exact hd
    · rw [← (List.cons.inj heq).1, pairValue?_of_high hb] at hv
      cases hv
  fun_induction decode bs with
  | case1 => rfl
  | case2 a => exact hfirst a
  | case3 a c =>
    show decode (a :: c :: b :: rest) = a :: c :: decode (b :: rest)
    rcases decode_cons a (c :: b :: rest) with hd | ⟨high, low, tail, v, heq, -, hv, -⟩
    · rw [hd, hfirst]
    · rw [← (List.cons.inj (List.cons.inj heq).2).1, pairValue?_of_low hb] at hv
      cases hv
  | case4 high low bs v hv ih =>
    rw [List.cons_append, List.cons_append, List.cons_append, decode_triplet hv, ih,
      List.cons_append]
  | case5 high low bs hv ih =>
    simp only [List.cons_append] at ih ⊢
    rw [decode, if_pos rfl, hv]
    exact congrArg _ ih
  | case6 a high low bs ha ih =>
    simp only [List.cons_append] at ih ⊢
    rw [decode_cons_of_ne ha, ih]

theorem decode_append_singleton {b : UInt8} (hb : hexValue? b = none) (bs : List UInt8) :
    decode (bs ++ [b]) = decode bs ++ [b] := decode_append_cons hb bs []

/-- ASCII characters without a triplet stay as they are behind any text, if the first of them is no
hexadecimal digit. -/
theorem decodeText_append {c : Char} {cs : List Char} (hascii : ∀ d ∈ c :: cs, d.toNat < 0x80)
    (hhex : hexValue? (UInt8.ofNat c.toNat) = none) (hpercent : '%' ∉ c :: cs) (s : String) :
    decodeText (s ++ String.ofList (c :: cs)) = decodeText s ++ String.ofList (c :: cs) := by
  let tail := String.ofList (c :: cs)
  have htail : bytes tail = UInt8.ofNat c.toNat :: bytes (String.ofList cs) := by
    rw [bytes_ofList, List.flatMap_cons, utf8EncodeChar_of_ascii (hascii c List.mem_cons_self),
      ← bytes_ofList]
    rfl
  have hkept : decode (bytes tail) = bytes tail := by
    have hmem : percent ∉ bytes tail :=
      not_mem_bytes (c := '%') (by decide) (by rw [String.toList_ofList]; exact hpercent)
    simpa [decode] using decode_append_of_not_mem hmem []
  have hdecode : decode (bytes (s ++ tail)) = decode (bytes s) ++ bytes tail := by
    rw [bytes_append, htail, decode_append_cons hhex, ← htail, hkept]
  show (decodeText? (s ++ tail)).getD (s ++ tail) = (decodeText? s).getD s ++ tail
  cases hs : decodeText? s with
  | some t =>
    have hbytes : bytes t = decode (bytes s) := text?_eq_some_iff.1 hs
    rw [decodeText?, hdecode, ← hbytes, ← bytes_append, text?_bytes]
    rfl
  | none =>
    have hnone : decodeText? (s ++ tail) = none := by
      cases hu : decodeText? (s ++ tail) with
      | none => rfl
      | some u =>
        have hbytes : bytes u = decode (bytes (s ++ tail)) := text?_eq_some_iff.1 hu
        rw [hdecode] at hbytes
        obtain ⟨t, ht⟩ := exists_bytes_of_append hascii hbytes
        rw [decodeText?, ← ht, text?_bytes] at hs
        cases hs
    rw [hnone]
    rfl

theorem decodeText_description (stem : String) :
    decodeText (stem ++ ".dzi") = decodeText stem ++ ".dzi" :=
  decodeText_append (c := '.') (by simp) (by decide) (by decide) stem

theorem getLast?_bytes_decodeText {s : String} {b : UInt8} (hb : hexValue? b = none)
    (h : (bytes s).getLast? = some b) : (bytes (decodeText s)).getLast? = some b := by
  unfold decodeText
  cases hd : decodeText? s with
  | none => exact h
  | some t =>
    obtain ⟨front, hfront⟩ := List.getLast?_eq_some_iff.1 h
    have hbytes : bytes t = decode (bytes s) := text?_eq_some_iff.1 hd
    rw [Option.getD_some, hbytes, hfront, decode_append_singleton hb, List.getLast?_concat]

/-- The end of a text that is decoded and then encoded. -/
theorem endsIn_encode_decodeText {keep : UInt8 → Bool} {p : Char → Bool} {s : String} {b : UInt8}
    (hb : hexValue? b = none) (h : (bytes s).getLast? = some b)
    (hp : EndsIn p (encodeByte keep b)) : EndsIn p (encode keep (decodeText s)).toList := by
  obtain ⟨front, hfront⟩ := List.getLast?_eq_some_iff.1 (getLast?_bytes_decodeText hb h)
  rw [encode, String.toList_ofList, hfront, List.flatMap_append, List.flatMap_singleton]
  exact hp.append _

/-- A byte that is not kept ends in a digit of its triplet. -/
theorem endsIn_encodeByte_of_not {keep : UInt8 → Bool} {p : Char → Bool} {b : UInt8}
    (hkeep : keep b = false) (hp : ∀ n < 16, p (hexDigit n) = true) :
    EndsIn p (encodeByte keep b) := by
  have hb : b.toNat % 16 < 16 := Nat.mod_lt _ (by decide)
  rw [encodeByte, hkeep]
  exact ⟨hexDigit (b.toNat % 16), rfl, hp _ hb⟩

theorem hexValue?_of_high {b : UInt8} (h : 0x80 ≤ b.toNat) : hexValue? b = none := by
  have hdigit : ∀ low high : UInt8, high.toNat < 0x80 → ¬ (decide (low ≤ b) && decide (b ≤ high)) := by
    intro low high hhigh hb
    simp only [Bool.and_eq_true, decide_eq_true_eq, UInt8.le_iff_toNat_le] at hb
    omega
  rw [hexValue?, if_neg (hdigit _ _ (by decide)), if_neg (hdigit _ _ (by decide)),
    if_neg (hdigit _ _ (by decide))]

end Percent

end ImageGate.Text
