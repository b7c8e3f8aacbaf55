import ImageGate.Proofs.Text.PercentCoding
import ImageGate.Proofs.Url.Resolution

/-! Encoded paths. Encoding goes character by character, so an encoded path has the encoded segments
of the path, and where points are kept, an encoded segment is one of dots only if the segment is: the
encoding of a point is never written. -/
namespace ImageGate
open Text Utf8
set_option autoImplicit false

namespace Text.Percent

/-! ## Character by character -/

def encodeChar (keep : UInt8 → Bool) (c : Char) : List Char :=
  (String.utf8EncodeChar c).flatMap (encodeByte keep)

theorem toList_encode (keep : UInt8 → Bool) (s : String) :
    (encode keep s).toList = s.toList.flatMap (encodeChar keep) := by
  have hbytes : bytes s = s.toList.flatMap String.utf8EncodeChar := by
    rw [← bytes_ofList, String.ofList_toList]
  rw [encode, String.toList_ofList, hbytes, List.flatMap_assoc]
  rfl

theorem encodeChar_of_kept {keep : UInt8 → Bool} {c : Char} (hc : c.toNat < 0x80)
    (hk : keep (UInt8.ofNat c.toNat) = true) : encodeChar keep c = [c] := by
  have hn : c.toNat % 256 = c.toNat := Nat.mod_eq_of_lt (by omega)
  rw [encodeChar, utf8EncodeChar_of_ascii hc, List.flatMap_singleton, encodeByte, if_pos hk,
    UInt8.toNat_ofNat', hn, Char.ofNat_toNat]

/-- The first byte of a character decides how its encoding begins. -/
theorem exists_encodeChar (keep : UInt8 → Bool) (c : Char) :
    ∃ b rest, b ∈ String.utf8EncodeChar c ∧ encodeChar keep c = encodeByte keep b ++ rest := by
  obtain ⟨b, bs, h⟩ := List.exists_cons_of_ne_nil (String.utf8EncodeChar_ne_nil (c := c))
  exact ⟨b, _, by rw [h]; exact List.mem_cons_self, by rw [encodeChar, h, List.flatMap_cons]⟩

theorem encodeChar_ne_nil (keep : UInt8 → Bool) (c : Char) : encodeChar keep c ≠ [] := by
  obtain ⟨b, rest, -, h⟩ := exists_encodeChar keep c
  rw [h, encodeByte]
  split <;> exact List.cons_ne_nil _ _

theorem flatMap_encodeChar_eq_nil {keep : UInt8 → Bool} {cs : List Char} :
    cs.flatMap (encodeChar keep) = [] ↔ cs = [] := by
  cases cs with
  | nil => simp
  | cons c cs => simp [encodeChar_ne_nil]

/-- An ASCII byte belongs to its own character only. -/
theorem eq_of_mem_utf8EncodeChar {c d : Char} (hd : d.toNat < 0x80)
    (h : UInt8.ofNat d.toNat ∈ String.utf8EncodeChar c) : c = d := by
  have hn : d.toNat % 256 = d.toNat := Nat.mod_eq_of_lt (by omega)
  by_cases hc : c.toNat < 0x80
  · rw [utf8EncodeChar_of_ascii hc, List.mem_singleton] at h
    have hnat := congrArg UInt8.toNat h
    have hm : c.toNat % 256 = c.toNat := Nat.mod_eq_of_lt (by omega)
    rw [UInt8.toNat_ofNat', UInt8.toNat_ofNat', hn, hm] at hnat
    rw [← Char.ofNat_toNat c, ← hnat, Char.ofNat_toNat]
  · have hhigh := high_of_mem_utf8EncodeChar (Nat.le_of_not_lt hc) h
    rw [UInt8.toNat_ofNat', hn] at hhigh
    omega

/-- A mark that is neither a hexadecimal digit nor the percent sign stands in the encoding of itself
only. -/
theorem not_mem_encodeChar {keep : UInt8 → Bool} {c d : Char} (hd : d.toNat < 0x80) (hne : c ≠ d)
    (hp : d ≠ '%') (hx : ∀ n < 16, d ≠ hexDigit n) : d ∉ encodeChar keep c := by
  intro h
  obtain ⟨b, hb, hmem⟩ := List.mem_flatMap.1 h
  have hlt : b.toNat < 256 := b.toNat_lt
  unfold encodeByte at hmem
  split at hmem
  · have hd' : d = Char.ofNat b.toNat := List.mem_singleton.1 hmem
    have hbyte : UInt8.ofNat d.toNat = b := by
      rw [hd', toNat_ofNat_toNat, UInt8.ofNat_toNat]
    exact hne (eq_of_mem_utf8EncodeChar hd (by rwa [hbyte]))
  · simp only [List.mem_cons, List.not_mem_nil, or_false] at hmem
    rcases hmem with hmem | hmem | hmem
    · exact hp hmem
    · exact hx _ (by omega) hmem
    · exact hx _ (by omega) hmem

end Text.Percent

namespace Url
open Percent

/-! ## Segments -/

theorem pieces_encode {keep : UInt8 → Bool} (hslash : keep 0x2f = true) (s : String) :
    pieces '/' (encode keep s).toList
      = (pieces '/' s.toList).map fun p => p.flatMap (encodeChar keep) := by
  rw [toList_encode]
  refine pieces_flatMap (encodeChar_of_kept (by decide) hslash) (fun c hc => ?_) _
  exact not_mem_encodeChar (by decide) hc (by decide) (by decide)

theorem afterDot?_cons_of_ne {c : Char} (hdot : c ≠ '.') (hpercent : c ≠ '%') (rest : List Char) :
    afterDot? (c :: rest) = none := by
  unfold afterDot?
  split
  · next h =>
    cases h
    exact absurd rfl hdot
  · next h =>
    cases h
    exact absurd rfl hpercent
  · rfl

theorem mem_of_afterDot? {cs rest : List Char} (h : afterDot? cs = some rest) {c : Char}
    (hc : c ∈ cs) : c ∈ ['.', '%', '2', 'e', 'E'] ∨ c ∈ rest := by
  unfold afterDot? at h
  split at h
  · cases h
    exact (List.mem_cons.1 hc).imp_left fun he => by rw [he]; decide
  · next e behind =>
    split at h
    · next he =>
      cases h
      simp only [Bool.or_eq_true, beq_iff_eq] at he
      simp only [List.mem_cons] at hc
      rcases hc with rfl | rfl | rfl | hc
      · exact .inl (by decide)
      · exact .inl (by decide)
      · exact .inl (by rcases he with rfl | rfl <;> decide)
      · exact .inr hc
    · cases h
  · cases h

/-- Nothing but points and their encodings stands in a step up. -/
theorem isDoubleDot_of_mem {cs : List Char} {c : Char} (hc : c ∈ cs)
    (hother : c ∉ ['.', '%', '2', 'e', 'E']) : isDoubleDot cs = false := by
  rw [Bool.eq_false_iff, isDoubleDot, ne_eq, beq_iff_eq, Option.bind_eq_some_iff]
  rintro ⟨rest, hfirst, hsecond⟩
  have hrest : c ∈ rest := (mem_of_afterDot? hfirst hc).resolve_left hother
  exact (mem_of_afterDot? hsecond hrest).elim hother List.not_mem_nil

theorem isDoubleDot_of_not_mem {cs : List Char} (hpoint : '.' ∉ cs) (hpercent : '%' ∉ cs) :
    isDoubleDot cs = false := by
  cases cs with
  | nil => rfl
  | cons c rest =>
    rw [List.mem_cons, not_or] at hpoint hpercent
    rw [isDoubleDot, afterDot?_cons_of_ne (Ne.symm hpoint.1) (Ne.symm hpercent.1)]
    rfl

theorem afterDot?_triplet {n : Nat} (hn : n < 256) (hpoint : n ≠ 0x2e) (rest : List Char) :
    afterDot? ('%' :: hexDigit (n / 16) :: hexDigit (n % 16) :: rest) = none := by
  have htable : ∀ n < 256, n ≠ 0x2e → hexDigit (n / 16) = '2' →
      (hexDigit (n % 16) == 'e' || hexDigit (n % 16) == 'E') = false := by decide +kernel
  unfold afterDot?
  split
  · next h => cases h
  · next h =>
    simp only [List.cons.injEq] at h
    obtain ⟨-, hhigh, hlow, -⟩ := h
    rw [← hlow, htable n hn hpoint hhigh]
    rfl
  · rfl

/-- Encoding writes no triplet for a point that is kept. -/
theorem afterDot?_flatMap {keep : UInt8 → Bool} (hpoint : keep 0x2e = true)
    (hpercent : keep percent = false) (cs : List Char) :
    afterDot? (cs.flatMap (encodeChar keep))
      = (afterPrefix? ['.'] cs).map fun rest => rest.flatMap (encodeChar keep) := by
  cases cs with
  | nil => rfl
  | cons c rest =>
    by_cases hc : c = '.'
    · rw [hc, List.flatMap_cons, encodeChar_of_kept (by decide) hpoint]
      rfl
    · have hnone : (afterPrefix? ['.'] (c :: rest)) = none := by
        rw [afterPrefix?, if_neg (Ne.symm hc)]
      obtain ⟨b, tail, hb, hencoded⟩ := exists_encodeChar keep c
      have hbpoint : b ≠ 0x2e := fun h =>
        hc (eq_of_mem_utf8EncodeChar (d := '.') (by decide) (by rw [h] at hb; exact hb))
      rw [hnone, List.flatMap_cons, hencoded, Option.map_none]
      unfold encodeByte
      split
      · next hk =>
        have hbpercent : b ≠ percent := fun h => by rw [h, hpercent] at hk; cases hk
        refine afterDot?_cons_of_ne (fun h => hbpoint ?_) (fun h => hbpercent ?_) _
        · have hn := congrArg Char.toNat h
          rw [toNat_ofNat_toNat] at hn
          exact UInt8.toNat_inj.1 hn
        · have hn := congrArg Char.toNat h
          rw [toNat_ofNat_toNat] at hn
          exact UInt8.toNat_inj.1 hn
      · exact afterDot?_triplet b.toNat_lt (fun h => hbpoint (UInt8.toNat_inj.1 h)) _

variable {keep : UInt8 → Bool}

theorem isSingleDot_flatMap (hpoint : keep 0x2e = true) (hpercent : keep percent = false)
    (cs : List Char) : isSingleDot (cs.flatMap (encodeChar keep)) = (cs == ['.']) := by
  rw [isSingleDot, afterDot?_flatMap hpoint hpercent, Bool.eq_iff_iff, beq_iff_eq, beq_iff_eq,
    Option.map_eq_some_iff]
  simp only [afterPrefix?_eq_some, flatMap_encodeChar_eq_nil]
  simp

theorem isDoubleDot_flatMap (hpoint : keep 0x2e = true) (hpercent : keep percent = false)
    (cs : List Char) : isDoubleDot (cs.flatMap (encodeChar keep)) = (cs == ['.', '.']) := by
  rw [isDoubleDot, afterDot?_flatMap hpoint hpercent, Bool.eq_iff_iff, beq_iff_eq, beq_iff_eq]
  cases hcs : afterPrefix? ['.'] cs with
  | none =>
    refine iff_of_false nofun fun h => ?_
    rw [h] at hcs
    cases hcs
  | some rest =>
    rw [afterPrefix?_eq_some] at hcs
    rw [Option.map_some, Option.bind_some, afterDot?_flatMap hpoint hpercent,
      Option.map_eq_some_iff]
    simp only [afterPrefix?_eq_some, flatMap_encodeChar_eq_nil]
    simp [hcs]

/-- A walk through the segments of an encoded path is one through the folders of the path. -/
theorem climbsFrom_encode (hpoint : keep 0x2e = true) (hpercent : keep percent = false)
    (depth : Nat) (folders : List (List Char)) :
    climbsFrom depth (folders.map fun p => p.flatMap (encodeChar keep))
      = climbs (· == ['.', '.']) (· == ['.']) depth folders := by
  rw [climbsFrom, climbs_map]
  simp only [isDoubleDot_flatMap hpoint hpercent, isSingleDot_flatMap hpoint hpercent]

end Url

end ImageGate
