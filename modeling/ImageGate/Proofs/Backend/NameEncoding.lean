import ImageGate.Backend.Address
import ImageGate.Proofs.Text.PercentCoding

/-! Names in addresses are decoded once and encoded once. Decoding once is stated here without its
function, triplet by triplet, and so is the form of an encoded name. Whatever a name holds, its encoding
has that form, decodes to what decoding the name once gives, and is its own encoding: a name that another
layer has encoded already is not encoded twice. -/
namespace ImageGate
open Text
set_option autoImplicit false

/-! ## Decoding once -/

namespace Text.Percent
open Utf8

/-- A hexadecimal digit in either case, and its value. -/
def IsHexDigit (b : UInt8) (n : Nat) : Prop :=
  "0123456789ABCDEF".toList[n]? = some (Char.ofNat b.toNat) ∨
    "0123456789abcdef".toList[n]? = some (Char.ofNat b.toNat)

instance (b : UInt8) (n : Nat) : Decidable (IsHexDigit b n) := inferInstanceAs (Decidable (_ ∨ _))

/-- Two hexadecimal digits and the byte that they write. -/
def IsPair (high low v : UInt8) : Prop :=
  ∃ m n, IsHexDigit high m ∧ IsHexDigit low n ∧ v.toNat = 16 * m + n

/-- Every triplet gives its byte, and a byte that begins none stays. -/
inductive Decodes : List UInt8 → List UInt8 → Prop
  | nil : Decodes [] []
  | triplet {high low v : UInt8} {rest out : List UInt8} (hpair : IsPair high low v)
      (h : Decodes rest out) : Decodes (percent :: high :: low :: rest) (v :: out)
  | other {b : UInt8} {rest out : List UInt8}
      (hother : ∀ high low tail v, b :: rest = percent :: high :: low :: tail → ¬ IsPair high low v)
      (h : Decodes rest out) : Decodes (b :: rest) (b :: out)

theorem hexValue?_table : ∀ n < 256,
    (∀ v ∈ hexValue? (UInt8.ofNat n), v.toNat < 16 ∧ IsHexDigit (UInt8.ofNat n) v.toNat) ∧
      ∀ m < 16, IsHexDigit (UInt8.ofNat n) m → hexValue? (UInt8.ofNat n) = some (UInt8.ofNat m) := by
  decide +kernel

theorem isHexDigit_of_hexValue? {b v : UInt8} (h : hexValue? b = some v) :
    v.toNat < 16 ∧ IsHexDigit b v.toNat := by
  have htable := (hexValue?_table b.toNat b.toNat_lt).1
  rw [UInt8.ofNat_toNat] at htable
  exact htable v h

theorem IsHexDigit.lt {b : UInt8} {n : Nat} (h : IsHexDigit b n) : n < 16 := by
  rcases h with h | h
  · exact (List.getElem?_eq_some_iff.1 h).1
  · exact (List.getElem?_eq_some_iff.1 h).1

theorem IsHexDigit.hexValue?_eq {b : UInt8} {n : Nat} (h : IsHexDigit b n) :
    hexValue? b = some (UInt8.ofNat n) := by
  have htable := (hexValue?_table b.toNat b.toNat_lt).2
  rw [UInt8.ofNat_toNat] at htable
  exact htable n h.lt h

theorem toNat_pair {m n : UInt8} (hm : m.toNat < 16) (hn : n.toNat < 16) :
    (m * 16 + n).toNat = 16 * m.toNat + n.toNat := by
  have h16 : (16 : UInt8).toNat = 16 := rfl
  rw [UInt8.toNat_add, UInt8.toNat_mul, h16]
  omega

theorem pairValue?_eq_some_iff {high low v : UInt8} :
    pairValue? high low = some v ↔ IsPair high low v := by
  constructor
  · intro h
    obtain ⟨m, hm, h⟩ := Option.bind_eq_some_iff.1 h
    obtain ⟨n, hn, h⟩ := Option.bind_eq_some_iff.1 h
    obtain ⟨hm16, hhigh⟩ := isHexDigit_of_hexValue? hm
    obtain ⟨hn16, hlow⟩ := isHexDigit_of_hexValue? hn
    have hv : m * 16 + n = v := Option.some.inj h
    exact ⟨m.toNat, n.toNat, hhigh, hlow, by rw [← hv, toNat_pair hm16 hn16]⟩
  · rintro ⟨m, n, hhigh, hlow, hv⟩
    have hm := hhigh.lt
    have hn := hlow.lt
    have hm16 : (UInt8.ofNat m).toNat = m := by
      rw [UInt8.toNat_ofNat']
      omega
    have hn16 : (UInt8.ofNat n).toNat = n := by
      rw [UInt8.toNat_ofNat']
      omega
    rw [pairValue?, hhigh.hexValue?_eq, hlow.hexValue?_eq]
    refine congrArg some (UInt8.toNat_inj.1 ?_)
    rw [toNat_pair (by omega) (by omega), hm16, hn16, hv]

/-- The relation says what the function computes. -/
theorem decodes_iff {bs out : List UInt8} : Decodes bs out ↔ decode bs = out := by
  constructor
  · intro h
    induction h with
    | nil => rfl
    | triplet hpair _ ih => rw [decode_triplet (pairValue?_eq_some_iff.2 hpair), ih]
    | @other b rest out hother _ ih =>
      rcases decode_cons b rest with hd | ⟨high, low, tail, v, rfl, rfl, hv, -⟩
      · rw [hd, ih]
      · exact absurd (pairValue?_eq_some_iff.1 hv) (hother _ _ _ _ rfl)
  · rintro rfl
    fun_induction decode bs with
    | case1 => exact .nil
    | case2 a => exact .other (by simp) .nil
    | case3 a b =>
      exact .other (by simp) (.other (by simp) .nil)
    | case4 high low rest v hv ih => exact .triplet (pairValue?_eq_some_iff.1 hv) ih
    | case5 high low rest hv ih =>
      refine .other ?_ ih
      rintro _ _ _ v ⟨⟩ hpair
      rw [pairValue?_eq_some_iff.2 hpair] at hv
      cases hv
    | case6 b high low rest hb ih =>
      refine .other ?_ ih
      rintro _ _ _ _ ⟨⟩
      exact absurd rfl hb

/-- The text decoded once: itself, where its decoded bytes are no text. -/
def IsDecodedOnce (s t : String) : Prop :=
  Decodes (bytes s) (bytes t) ∨ (∀ u, ¬ Decodes (bytes s) (bytes u)) ∧ t = s

theorem isDecodedOnce_decodeText (s : String) : IsDecodedOnce s (decodeText s) := by
  unfold decodeText
  cases h : decodeText? s with
  | some t =>
    have hbytes : bytes t = decode (bytes s) := text?_eq_some_iff.1 h
    exact .inl (decodes_iff.2 hbytes.symm)
  | none =>
    refine .inr ⟨fun u hu => ?_, rfl⟩
    rw [decodeText?, decodes_iff.1 hu, text?_bytes] at h
    cases h

end Text.Percent

/-! ## Encoding once -/

/-- What is written for a name holds kept characters and triplets only, and never one of some marks; it
stands for the name decoded once; and written again it stays as it is. -/
structure WritesOnce (write : String → String) (kept : Char → Bool) (marks : List Char) : Prop where
  form : ∀ s, Percent.IsEncoded kept (write s).toList
  ascii : ∀ s, ∀ c ∈ (write s).toList, c.toNat < 0x80
  free : ∀ s, ∀ mark ∈ marks, mark ∉ (write s).toList
  decoded : ∀ s, Percent.IsDecodedOnce s (Percent.decodeText s) ∧
    Percent.Decodes (Utf8.bytes (write s)) (Utf8.bytes (Percent.decodeText s))
  again : ∀ s, write (write s) = write s

theorem writesOnce_encode {keep : UInt8 → Bool} {kept : Char → Bool} {marks : List Char}
    (hkeep : Percent.IsKeepable keep)
    (hkept : ∀ b, keep b = true → kept (Char.ofNat b.toNat) = true)
    (hmarks : ∀ mark ∈ marks, kept mark = false ∧ mark ∉ '%' :: Percent.upperHexDigits) :
    WritesOnce (fun s => Percent.encode keep (Percent.decodeText s)) kept marks where
  form s := Percent.isEncoded_encode hkept _
  ascii s c hc := by
    have hencoded : Percent.IsEncoded (fun c => decide (c.toNat < 0x80))
        (Percent.encode keep (Percent.decodeText s)).toList :=
      Percent.isEncoded_encode (fun b hb => by
        rw [Utf8.toNat_ofNat_toNat, decide_eq_true_eq]
        exact hkeep.ascii b hb) _
    have htriplet : ∀ m ∈ '%' :: Percent.upperHexDigits, m.toNat < 0x80 :=
      List.all_iff_forall_prop.1 (by decide)
    rcases hencoded.mem hc with hc | hc
    · exact of_decide_eq_true hc
    · exact htriplet c hc
  free s mark hmark hmem := by
    obtain ⟨hnot, htriplet⟩ := hmarks mark hmark
    rcases (Percent.isEncoded_encode hkept _).mem hmem with hmem | hmem
    · exact Bool.false_ne_true (hnot.symm.trans hmem)
    · exact htriplet hmem
  decoded s := by
    refine ⟨Percent.isDecodedOnce_decodeText s, Percent.decodes_iff.2 ?_⟩
    exact (Utf8.text?_eq_some_iff.1 (Percent.decodeText?_encode hkeep _)).symm
  again s := by
    -- Decoding the first encoding gives back what was encoded, so the same is encoded twice.
    have hback : Percent.decodeText (Percent.encode keep (Percent.decodeText s))
        = Percent.decodeText s := by
      rw [Percent.decodeText, Percent.decodeText?_encode hkeep, Option.getD_some]
    rw [hback]

/-! ## Names in addresses -/

/-- Letters, digits and four marks. -/
def isUnreservedChar (c : Char) : Bool := c.isAlphanum || "-._~".toList.contains c

/-- The unreserved characters, the slash, and the marks of a path but for the ampersand. -/
def isFolderPathChar (c : Char) : Bool :=
  isUnreservedChar c || "!$'()*+,;=:@/".toList.contains c

theorem kept_table : ∀ n < 256,
    (Percent.isUnreserved (UInt8.ofNat n) = true → isUnreservedChar (Char.ofNat n) = true) ∧
      (Percent.isFolderPathByte (UInt8.ofNat n) = true → isFolderPathChar (Char.ofNat n) = true) := by
  decide +kernel

theorem isUnreservedChar_of_byte (b : UInt8) (h : Percent.isUnreserved b = true) :
    isUnreservedChar (Char.ofNat b.toNat) = true :=
  (kept_table b.toNat b.toNat_lt).1 (by rwa [UInt8.ofNat_toNat])

theorem isFolderPathChar_of_byte (b : UInt8) (h : Percent.isFolderPathByte b = true) :
    isFolderPathChar (Char.ofNat b.toNat) = true :=
  (kept_table b.toNat b.toNat_lt).2 (by rwa [UInt8.ofNat_toNat])

/-- Both writings of a name encode it once, whatever it holds. The one for a whole name inside a segment or
a parameter leaves no slash. -/
theorem writesOnce_names :
    WritesOnce encodeComponent isUnreservedChar "/?#& \\".toList ∧
      WritesOnce encodeImagePath isFolderPathChar "?#& \\".toList :=
  ⟨writesOnce_encode Percent.isKeepable_isUnreserved isUnreservedChar_of_byte
      (List.all_iff_forall_prop.1 (by decide)),
    writesOnce_encode Percent.isKeepable_isFolderPathByte isFolderPathChar_of_byte
      (List.all_iff_forall_prop.1 (by decide))⟩

end ImageGate
