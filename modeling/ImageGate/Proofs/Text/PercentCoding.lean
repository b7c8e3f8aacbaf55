import ImageGate.Text.Percent
import Mathlib.Data.Bool.AllAny

/-! Percent coding. Whatever set of characters is kept, as long as it is ASCII without the percent
sign, decoding an encoded text once gives the text; an encoded text holds kept characters and
triplets only; and decoding changes a sequence of bytes exactly when a triplet stands in it. -/
namespace ImageGate.Text
set_option autoImplicit false

/-! ## Bytes of a text -/

namespace Utf8

theorem bytes_ofList (cs : List Char) :
    bytes (String.ofList cs) = cs.flatMap String.utf8EncodeChar := by
  simp [bytes, List.utf8Encode]

theorem utf8EncodeChar_of_ascii {c : Char} (h : c.toNat < 0x80) :
    String.utf8EncodeChar c = [UInt8.ofNat c.toNat] := by
  have hn : c.val.toNat ≤ 0x7f := Nat.le_of_lt_succ h
  simp only [String.utf8EncodeChar]
  rw [if_pos hn]
  rfl

theorem toNat_ofNat_toNat (b : UInt8) : (Char.ofNat b.toNat).toNat = b.toNat := by
  have hb : b.toNat < 256 := b.toNat_lt
  have hv : b.toNat.isValidChar := Or.inl (by omega)
  rw [Char.ofNat, dif_pos hv]
  rfl

theorem high_of_mem_utf8EncodeChar {c : Char} (h : 0x80 ≤ c.toNat) {b : UInt8}
    (hb : b ∈ String.utf8EncodeChar c) : 0x80 ≤ b.toNat := by
  have hv : c.val.toNat = c.toNat := rfl
  have hn : ¬ c.val.toNat ≤ 0x7f := by omega
  simp only [String.utf8EncodeChar] at hb
  rw [if_neg hn] at hb
  split at hb
  · simp only [List.mem_cons, List.not_mem_nil, or_false] at hb
    rcases hb with rfl | rfl <;> simp only [UInt8.toNat_ofNat'] <;> omega
  · split at hb
    · simp only [List.mem_cons, List.not_mem_nil, or_false] at hb
      rcases hb with rfl | rfl | rfl <;> simp only [UInt8.toNat_ofNat'] <;> omega
    · simp only [List.mem_cons, List.not_mem_nil, or_false] at hb
      rcases hb with rfl | rfl | rfl | rfl <;> simp only [UInt8.toNat_ofNat'] <;> omega

/-- An ASCII byte stands in a text only for its own character. -/
theorem mem_toList_of_mem_bytes {s : String} {b : UInt8} (hb : b.toNat < 0x80)
    (h : b ∈ bytes s) : Char.ofNat b.toNat ∈ s.toList := by
  rw [← String.ofList_toList (s := s), bytes_ofList] at h
  obtain ⟨c, hc, hbc⟩ := List.mem_flatMap.1 h
  by_cases ha : c.toNat < 0x80
  · rw [utf8EncodeChar_of_ascii ha, List.mem_singleton] at hbc
    have hn : b.toNat = c.toNat := by
      rw [hbc, UInt8.toNat_ofNat']
      omega
    rw [hn, Char.ofNat_toNat]
    exact hc
  · have hge := high_of_mem_utf8EncodeChar (Nat.le_of_not_lt ha) hbc
    omega

theorem bytes_append (s t : String) : bytes (s ++ t) = bytes s ++ bytes t := by
  rw [bytes, String.toByteArray_append, ByteArray.data_append, Array.toList_append]
  rfl

theorem not_mem_bytes {s : String} {c : Char} (hc : c.toNat < 0x80) (h : c ∉ s.toList) :
    UInt8.ofNat c.toNat ∉ bytes s := by
  intro hmem
  have hn : (UInt8.ofNat c.toNat).toNat = c.toNat := by
    rw [UInt8.toNat_ofNat']
    omega
  have hchar := mem_toList_of_mem_bytes (by omega) hmem
  rw [hn, Char.ofNat_toNat] at hchar
  exact h hchar

end Utf8

namespace Percent
open Utf8

/-! ## Sets that encoding can keep -/

/-- Encoding with such a kept set can be undone. -/
structure IsKeepable (keep : UInt8 → Bool) : Prop where
  percent_not : keep percent = false
  ascii : ∀ b : UInt8, keep b = true → b.toNat < 0x80

theorem isSegmentByte_ascii (b : UInt8) (h : isSegmentByte b = true) : b.toNat < 0x80 := by
  simp only [isSegmentByte, isUnreserved, isAlphanumeric, isOneOf, Bool.or_eq_true,
    Bool.and_eq_true, decide_eq_true_eq, UInt8.le_iff_toNat_le] at h
  simp at h
  omega

theorem isKeepable_isSegmentByte : IsKeepable isSegmentByte := ⟨by decide, isSegmentByte_ascii⟩

theorem isKeepable_isUnreserved : IsKeepable isUnreserved :=
  ⟨by decide, fun b h => isSegmentByte_ascii b (by rw [isSegmentByte, h, Bool.true_or])⟩

theorem isKeepable_isFolderPathByte : IsKeepable isFolderPathByte := by
  refine ⟨by decide, fun b h => ?_⟩
  rw [isFolderPathByte, Bool.or_eq_true, Bool.and_eq_true, beq_iff_eq] at h
  rcases h with h | rfl
  · exact isSegmentByte_ascii b h.1
  · decide

/-! ## Decoding byte by byte -/

/-- Decoding hands on the first byte or reads the triplet that it begins. -/
theorem decode_cons (b : UInt8) (rest : List UInt8) :
    decode (b :: rest) = b :: decode rest ∨
      ∃ high low tail v, rest = high :: low :: tail ∧ b = percent ∧
        pairValue? high low = some v ∧ decode (b :: rest) = v :: decode tail := by
  match rest with
  | [] => exact .inl rfl
  | [c] => exact .inl rfl
  | c :: d :: tail =>
    rw [decode]
    by_cases hb : b = percent
    · rw [if_pos hb]
      cases hv : pairValue? c d with
      | none => exact .inl rfl
      | some v => exact .inr ⟨c, d, tail, v, rfl, hb, hv, rfl⟩
    · exact .inl (if_neg hb)

theorem decode_cons_of_ne {b : UInt8} (h : b ≠ percent) (rest : List UInt8) :
    decode (b :: rest) = b :: decode rest := by
  rcases decode_cons b rest with hd | ⟨_, _, _, _, _, hb, _, _⟩
  · exact hd
  · exact absurd hb h

theorem decode_triplet {high low v : UInt8} (h : pairValue? high low = some v)
    (rest : List UInt8) : decode (percent :: high :: low :: rest) = v :: decode rest := by
  rw [decode, if_pos rfl, h]

theorem decode_append_of_not_mem {bs : List UInt8} (h : percent ∉ bs) (rest : List UInt8) :
    decode (bs ++ rest) = bs ++ decode rest := by
  induction bs with
  | nil => rfl
  | cons b bs ih =>
    rw [List.mem_cons, not_or] at h
    rw [List.cons_append, decode_cons_of_ne (Ne.symm h.1), ih h.2]
    rfl

/-! ## Decoding what was encoded -/

theorem hexDigit_ascii {n : Nat} (h : n < 16) : (hexDigit n).toNat < 0x80 :=
  (by decide : ∀ n < 16, (hexDigit n).toNat < 0x80) n h

theorem hexValue?_hexDigit {n : Nat} (h : n < 16) :
    hexValue? (UInt8.ofNat (hexDigit n).toNat) = some (UInt8.ofNat n) :=
  (by decide : ∀ n < 16, hexValue? (UInt8.ofNat (hexDigit n).toNat) = some (UInt8.ofNat n)) n h

theorem pairValue?_hexDigit (b : UInt8) :
    pairValue? (UInt8.ofNat (hexDigit (b.toNat / 16)).toNat)
      (UInt8.ofNat (hexDigit (b.toNat % 16)).toNat) = some b := by
  have hb : b.toNat < 256 := b.toNat_lt
  have hn : b.toNat / 16 * 16 + b.toNat % 16 = b.toNat := by omega
  rw [pairValue?, hexValue?_hexDigit (by omega), hexValue?_hexDigit (by omega)]
  refine congrArg some (UInt8.toNat_inj.1 ?_)
  simp
  omega

theorem decode_encodeByte {keep : UInt8 → Bool} (h : IsKeepable keep) (b : UInt8)
    (rest : List UInt8) :
    decode ((encodeByte keep b).flatMap String.utf8EncodeChar ++ rest) = b :: decode rest := by
  have hb : b.toNat < 256 := b.toNat_lt
  unfold encodeByte
  split
  · next hk =>
    have ha : (Char.ofNat b.toNat).toNat < 0x80 := by
      rw [toNat_ofNat_toNat]
      exact h.ascii b hk
    have hne : b ≠ percent := fun he => by simp [he, h.percent_not] at hk
    rw [List.flatMap_singleton, utf8EncodeChar_of_ascii ha, toNat_ofNat_toNat, UInt8.ofNat_toNat]
    exact decode_cons_of_ne hne rest
  · rw [List.flatMap_cons, List.flatMap_cons, List.flatMap_singleton,
      utf8EncodeChar_of_ascii (hexDigit_ascii (by omega)),
      utf8EncodeChar_of_ascii (hexDigit_ascii (by omega))]
    exact decode_triplet (pairValue?_hexDigit b) rest

theorem decode_flatMap_encodeByte {keep : UInt8 → Bool} (h : IsKeepable keep) (bs rest : List UInt8) :
    decode ((bs.flatMap (encodeByte keep)).flatMap String.utf8EncodeChar ++ rest)
      = bs ++ decode rest := by
  induction bs with
  | nil => rfl
  | cons b bs ih =>
    rw [List.flatMap_cons, List.flatMap_append, List.append_assoc, decode_encodeByte h, ih]
    rfl

theorem decodeText?_encode {keep : UInt8 → Bool} (h : IsKeepable keep) (s : String) :
    decodeText? (encode keep s) = some s := by
  have hdecoded := decode_flatMap_encodeByte h (bytes s) []
  rw [List.append_nil, decode, List.append_nil] at hdecoded
  rw [decodeText?, encode, bytes_ofList, hdecoded, text?_bytes]

theorem encode_append (keep : UInt8 → Bool) (s t : String) :
    encode keep (s ++ t) = encode keep s ++ encode keep t := by
  rw [encode, bytes_append, List.flatMap_append, String.ofList_append]
  rfl

/-! ## The characters of an encoded text -/

theorem mem_encode {keep : UInt8 → Bool} {s : String} {c : Char} (h : c ∈ (encode keep s).toList) :
    (∃ b, keep b = true ∧ c = Char.ofNat b.toNat) ∨ c = '%' ∨ ∃ n < 16, c = hexDigit n := by
  rw [encode, String.toList_ofList] at h
  obtain ⟨b, -, hb⟩ := List.mem_flatMap.1 h
  have hn : b.toNat < 256 := b.toNat_lt
  unfold encodeByte at hb
  split at hb
  · next hk => exact .inl ⟨b, hk, List.mem_singleton.1 hb⟩
  · simp only [List.mem_cons, List.not_mem_nil, or_false] at hb
    rcases hb with hb | hb | hb
    · exact .inr (.inl hb)
    · exact .inr (.inr ⟨_, by omega, hb⟩)
    · exact .inr (.inr ⟨_, by omega, hb⟩)

theorem not_mem_encode {keep : UInt8 → Bool} {c : Char}
    (hk : keep (UInt8.ofNat c.toNat) = false) (hp : c ≠ '%') (hx : ∀ n < 16, c ≠ hexDigit n)
    (s : String) : c ∉ (encode keep s).toList := by
  intro h
  rcases mem_encode h with ⟨b, hb, rfl⟩ | h | ⟨n, hn, h⟩
  · rw [toNat_ofNat_toNat, UInt8.ofNat_toNat, hb] at hk
    cases hk
  · exact hp h
  · exact hx n hn h

/-! ## The form of an encoded text -/

def upperHexDigits : List Char := "0123456789ABCDEF".toList

/-- Kept characters and triplets in upper case, and nothing else. -/
inductive IsEncoded (kept : Char → Bool) : List Char → Prop
  | nil : IsEncoded kept []
  | kept {c : Char} {rest : List Char} (hc : kept c = true) (h : IsEncoded kept rest) :
      IsEncoded kept (c :: rest)
  | triplet {high low : Char} {rest : List Char} (hhigh : high ∈ upperHexDigits)
      (hlow : low ∈ upperHexDigits) (h : IsEncoded kept rest) :
      IsEncoded kept ('%' :: high :: low :: rest)

theorem hexDigit_mem : ∀ n < 16, hexDigit n ∈ upperHexDigits := by decide

theorem isEncoded_encode {keep : UInt8 → Bool} {kept : Char → Bool}
    (hkept : ∀ b, keep b = true → kept (Char.ofNat b.toNat) = true) (s : String) :
    IsEncoded kept (encode keep s).toList := by
  rw [encode, String.toList_ofList]
  induction bytes s with
  | nil => exact .nil
  | cons b bs ih =>
    have hb : b.toNat < 256 := b.toNat_lt
    rw [List.flatMap_cons, encodeByte]
    by_cases hk : keep b = true
    · rw [if_pos hk]
      exact .kept (hkept b hk) ih
    · rw [if_neg hk]
      exact .triplet (hexDigit_mem _ (by omega)) (hexDigit_mem _ (by omega)) ih

theorem IsEncoded.mem {kept : Char → Bool} {cs : List Char} (h : IsEncoded kept cs) {c : Char}
    (hc : c ∈ cs) : kept c = true ∨ c ∈ '%' :: upperHexDigits := by
  induction h with
  | nil => cases hc
  | kept hkept _ ih =>
    rcases List.mem_cons.1 hc with rfl | hc
    · exact .inl hkept
    · exact ih hc
  | triplet hhigh hlow _ ih =>
    simp only [List.mem_cons] at hc
    rcases hc with rfl | rfl | rfl | hc
    · exact .inr List.mem_cons_self
    · exact .inr (List.mem_cons_of_mem _ hhigh)
    · exact .inr (List.mem_cons_of_mem _ hlow)
    · exact ih hc

/-! ## What decoding changes -/

/-- A percent sign and two hexadecimal digits stand somewhere in the bytes. -/
inductive HasTriplet : List UInt8 → Prop
  | here {high low v : UInt8} {rest : List UInt8} (h : pairValue? high low = some v) :
      HasTriplet (percent :: high :: low :: rest)
  | later {b : UInt8} {rest : List UInt8} (h : HasTriplet rest) : HasTriplet (b :: rest)

theorem HasTriplet.percent_mem {bs : List UInt8} (h : HasTriplet bs) : percent ∈ bs := by
  induction h with
  | here => exact List.mem_cons_self
  | later _ ih => exact List.mem_cons_of_mem _ ih

theorem length_decode_le (bs : List UInt8) : (decode bs).length ≤ bs.length := by
  fun_induction decode bs with
  | case1 | case2 | case3 => exact Nat.le_refl _
  | case4 high low rest v hv ih =>
    simp only [List.length_cons]
    omega
  | case5 high low rest hv ih | case6 b high low rest hb ih =>
    simp only [List.length_cons] at ih ⊢
    omega

theorem length_decode_lt {bs : List UInt8} (h : HasTriplet bs) :
    (decode bs).length < bs.length := by
  induction h with
  | @here high low v rest hv =>
    have hle := length_decode_le rest
    rw [decode_triplet hv]
    simp only [List.length_cons]
    omega
  | @later b rest _ ih =>
    rcases decode_cons b rest with hd | ⟨_, _, tail, _, rfl, -, -, hd⟩
    · rw [hd]
      simp only [List.length_cons]
      omega
    · have hle := length_decode_le tail
      rw [hd]
      simp only [List.length_cons]
      omega

theorem decode_of_not_hasTriplet {bs : List UInt8} (h : ¬ HasTriplet bs) : decode bs = bs := by
  induction bs with
  | nil => rfl
  | cons b rest ih =>
    rcases decode_cons b rest with hd | ⟨_, _, _, _, rfl, rfl, hv, -⟩
    · rw [hd, ih fun ht => h (.later ht)]
    · exact absurd (.here hv) h

theorem decodeText?_of_percent_not_mem {s : String} (h : '%' ∉ s.toList) :
    decodeText? s = some s := by
  have ht : ¬ HasTriplet (bytes s) := fun ht =>
    h (mem_toList_of_mem_bytes (b := percent) (by decide) ht.percent_mem)
  rw [decodeText?, decode_of_not_hasTriplet ht, text?_bytes]

theorem decodeText_of_percent_not_mem {s : String} (h : '%' ∉ s.toList) : decodeText s = s := by
  rw [decodeText, decodeText?_of_percent_not_mem h, Option.getD_some]

theorem decode_eq_self_iff {bs : List UInt8} : decode bs = bs ↔ ¬ HasTriplet bs := by
  refine ⟨fun hd ht => ?_, decode_of_not_hasTriplet⟩
  have hlt := length_decode_lt ht
  rw [hd] at hlt
  exact Nat.lt_irrefl _ hlt

/-- A text stands for another one if it holds a triplet and its decoded bytes are a text. -/
theorem decodeText_eq_self_iff {s : String} :
    decodeText s = s ↔ ¬ (HasTriplet (bytes s) ∧ (decodeText? s).isSome) := by
  unfold decodeText
  cases hd : decodeText? s with
  | none => simp
  | some t =>
    have hb : bytes t = decode (bytes s) := text?_eq_some_iff.1 hd
    have ht : t = s ↔ decode (bytes s) = bytes s := by
      rw [← hb]
      refine ⟨congrArg bytes, fun he => ?_⟩
      exact Option.some.inj (by rw [← text?_bytes t, he, text?_bytes])
    simp [ht, decode_eq_self_iff]

end Percent

end ImageGate.Text
