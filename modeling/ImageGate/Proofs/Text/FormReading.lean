import ImageGate.Proofs.Text.Cutting
import ImageGate.Proofs.Text.Endings
import ImageGate.Text.Form

/-! Reading queries. Pairs come one after the other, each cut at its own first equals sign, and what an
encoded part stands for is read whatever follows it. A plus sign is the one character that percent
decoding alone leaves as it is and a form turns into a space. -/
namespace ImageGate.Text
set_option autoImplicit false

/-! ## Bytes of a text -/

namespace Utf8

theorem bytes_eq_nil_iff {s : String} : bytes s = [] ↔ s = "" := by
  constructor
  · intro h
    apply Option.some.inj
    rw [← text?_bytes s, h]
    rfl
  · rintro rfl
    rfl

end Utf8

/-! ## What a part stands for -/

namespace Percent
open Utf8

/-- The bytes decode to the text, whatever follows them. -/
def Writes (written : List UInt8) (meant : String) : Prop :=
  ∀ rest, decode (written ++ rest) = bytes meant ++ decode rest

namespace Writes
variable {a b : List UInt8} {s t : String}

theorem append (ha : Writes a s) (hb : Writes b t) : Writes (a ++ b) (s ++ t) := by
  intro rest
  rw [List.append_assoc, ha, hb, bytes_append, List.append_assoc]

theorem decode_eq (h : Writes a s) : decode a = bytes s := by
  have hnil := h []
  rw [List.append_nil, decode, List.append_nil] at hnil
  exact hnil

theorem decodeText?_eq {w : String} (h : Writes (bytes w) s) : decodeText? w = some s := by
  rw [decodeText?, h.decode_eq, text?_bytes]

end Writes

theorem writes_encode {keep : UInt8 → Bool} (h : IsKeepable keep) (s : String) :
    Writes (bytes (encode keep s)) s := by
  intro rest
  rw [encode, bytes_ofList, decode_flatMap_encodeByte h]

theorem writes_of_percent_not_mem {s : String} (h : '%' ∉ s.toList) : Writes (bytes s) s :=
  decode_append_of_not_mem (not_mem_bytes (c := '%') (by decide) h)

/-- The bytes that encode a byte are ASCII, and a mark that is no hexadecimal digit is among them only
as itself. -/
theorem not_mem_flatMap_encodeByte {keep : UInt8 → Bool} (h : IsKeepable keep) {b mark : UInt8}
    (hne : b ≠ mark) (hpercent : mark ≠ percent)
    (hhex : ∀ n < 16, UInt8.ofNat (hexDigit n).toNat ≠ mark) :
    mark ∉ (encodeByte keep b).flatMap String.utf8EncodeChar := by
  have hb : b.toNat < 256 := b.toNat_lt
  unfold encodeByte
  split
  · next hkeep =>
    have hascii : (Char.ofNat b.toNat).toNat < 0x80 := by
      rw [toNat_ofNat_toNat]
      exact h.ascii b hkeep
    rw [List.flatMap_singleton, utf8EncodeChar_of_ascii hascii, toNat_ofNat_toNat, UInt8.ofNat_toNat,
      List.mem_singleton]
    exact Ne.symm hne
  · have hhigh : b.toNat / 16 < 16 := by omega
    have hlow : b.toNat % 16 < 16 := by omega
    rw [List.flatMap_cons, List.flatMap_cons, List.flatMap_singleton,
      utf8EncodeChar_of_ascii (c := '%') (by decide), utf8EncodeChar_of_ascii (hexDigit_ascii hhigh),
      utf8EncodeChar_of_ascii (hexDigit_ascii hlow)]
    simp only [List.singleton_append, List.mem_cons, List.not_mem_nil, or_false, not_or]
    exact ⟨hpercent, Ne.symm (hhex _ hhigh), Ne.symm (hhex _ hlow)⟩

end Percent

/-! ## Plus signs -/

namespace Form
open Utf8 Percent

/-- A space in place of a plus sign. -/
def spacedByte (b : UInt8) : UInt8 := if b = 0x2b then 0x20 else b

def spacedChar (c : Char) : Char := if c = '+' then ' ' else c

/-- The text with a space in place of every plus sign. -/
def spaced (s : String) : String := String.ofList (s.toList.map spacedChar)

theorem spaced_append (s t : String) : spaced (s ++ t) = spaced s ++ spaced t := by
  rw [spaced, String.toList_append, List.map_append, String.ofList_append]
  rfl

theorem map_spacedByte_of_not_mem {bs : List UInt8} (h : (0x2b : UInt8) ∉ bs) :
    bs.map spacedByte = bs := by
  refine (List.map_congr_left fun b hb => ?_).trans (List.map_id bs)
  apply if_neg
  rintro rfl
  exact h hb

theorem map_spacedByte_bytes {s : String} (h : '+' ∉ s.toList) :
    (bytes s).map spacedByte = bytes s :=
  map_spacedByte_of_not_mem (not_mem_bytes (c := '+') (by decide) h)

theorem spaced_eq_self_iff {s : String} : spaced s = s ↔ '+' ∉ s.toList := by
  rw [spaced, ← String.toList_inj, String.toList_ofList]
  constructor
  · intro h hmem
    have hplus : '+' ∈ s.toList.map spacedChar := by
      rw [h]
      exact hmem
    obtain ⟨c, -, hc⟩ := List.mem_map.1 hplus
    unfold spacedChar at hc
    split at hc
    · exact absurd hc (by decide)
    · next hne => exact hne hc
  · intro h
    refine (List.map_congr_left fun c hc => ?_).trans (List.map_id _)
    apply if_neg
    rintro rfl
    exact h hc

theorem map_spacedByte_utf8EncodeChar (c : Char) :
    (String.utf8EncodeChar c).map spacedByte = String.utf8EncodeChar (spacedChar c) := by
  by_cases hc : c = '+'
  · subst hc
    decide
  · rw [spacedChar, if_neg hc]
    apply map_spacedByte_of_not_mem
    intro hmem
    have hascii : c.toNat < 0x80 := by
      apply Nat.lt_of_not_le
      intro hlarge
      have hhigh := high_of_mem_utf8EncodeChar hlarge hmem
      exact absurd hhigh (by decide)
    rw [utf8EncodeChar_of_ascii hascii, List.mem_singleton] at hmem
    have hn := congrArg UInt8.toNat hmem
    rw [UInt8.toNat_ofNat', Nat.mod_eq_of_lt (by omega)] at hn
    apply hc
    rw [← Char.ofNat_toNat c, ← hn]
    rfl

theorem map_spacedByte_bytes_eq (s : String) : (bytes s).map spacedByte = bytes (spaced s) := by
  have hbytes : bytes s = s.toList.flatMap String.utf8EncodeChar := by
    rw [← bytes_ofList, String.ofList_toList]
  rw [hbytes, spaced, bytes_ofList, List.map_flatMap, List.flatMap_map]
  simp only [map_spacedByte_utf8EncodeChar]

/-- Where an encoding keeps plus signs, a form reads each of them as a space. -/
theorem writes_map_encode {keep : UInt8 → Bool} (h : IsKeepable keep) (hplus : keep 0x2b = true)
    (s : String) : Writes ((bytes (encode keep s)).map spacedByte) (spaced s) := by
  have hbytes : ∀ bs rest : List UInt8,
      decode (((bs.flatMap (encodeByte keep)).flatMap String.utf8EncodeChar).map spacedByte ++ rest)
        = bs.map spacedByte ++ decode rest := by
    intro bs rest
    induction bs with
    | nil => rfl
    | cons b bs ih =>
      rw [List.flatMap_cons, List.flatMap_append, List.map_append, List.append_assoc, List.map_cons,
        List.cons_append, ← ih]
      -- A plus sign is kept and then replaced; no other byte is encoded with one.
      by_cases hb : b = 0x2b
      · subst hb
        rw [encodeByte, hplus]
        exact decode_cons_of_ne (by decide) _
      · have hnone : (0x2b : UInt8) ∉ (encodeByte keep b).flatMap String.utf8EncodeChar :=
          not_mem_flatMap_encodeByte h hb (by decide) (by decide)
        rw [map_spacedByte_of_not_mem hnone, decode_encodeByte h, spacedByte, if_neg hb]
  intro rest
  rw [encode, bytes_ofList, hbytes, map_spacedByte_bytes_eq]

/-! ## Pairs -/

theorem plain_of_writes {bs : List UInt8} {s : String} (h : Writes (bs.map spacedByte) s) :
    plain bs = s := by
  show textLossy (decode (bs.map spacedByte)) = s
  rw [h.decode_eq, textLossy_bytes]

theorem pairs_append (a b : String) : pairs (a ++ "&" ++ b) = pairs a ++ pairs b := by
  have hmark : bytes "&" = [0x26] := by decide +kernel
  rw [pairs, bytes_append, bytes_append, hmark, List.append_assoc, List.singleton_append,
    pieces_append_cons, List.filter_append, List.map_append]
  rfl

theorem pairs_of_not_mem {s : String} (h : '&' ∉ s.toList) (hne : s ≠ "") :
    pairs s = [pair (bytes s)] := by
  have hbytes : (0x26 : UInt8) ∉ bytes s := not_mem_bytes (c := '&') (by decide) h
  have hnil : bytes s ≠ [] := mt bytes_eq_nil_iff.1 hne
  rw [pairs, pieces_of_not_mem hbytes, List.filter_cons_of_pos (by simpa using hnil)]
  rfl

theorem pair_valued {name : String} (h : '=' ∉ name.toList) (value : String) :
    pair (bytes (name ++ "=" ++ value)) = (plain (bytes name), plain (bytes value)) := by
  have hmark : bytes "=" = [0x3d] := by decide +kernel
  have hbytes : (0x3d : UInt8) ∉ bytes name := not_mem_bytes (c := '=') (by decide) h
  rw [pair, bytes_append, bytes_append, hmark, List.append_assoc, List.singleton_append,
    cutFirst_append_cons hbytes]

theorem pair_bare {name : String} (h : '=' ∉ name.toList) :
    pair (bytes name) = (plain (bytes name), "") := by
  have hbytes : (0x3d : UInt8) ∉ bytes name := not_mem_bytes (c := '=') (by decide) h
  rw [pair, cutFirst_of_not_mem hbytes]

end Form

end ImageGate.Text
