import ImageGate.Proofs.Number.Numerals
import ImageGate.Proofs.Text.PercentCoding
import ImageGate.Text.Json

/-! Reading JSON back. An object of texts and numbers reads as the members that it was written from:
a quoted text is read to its closing quote whatever it holds, since what could be taken for a quote
or an escape is escaped itself. -/
namespace ImageGate.Text.Json
open Utf8 Number
set_option autoImplicit false

/-! ## Quoted texts -/

theorem stringBytes?_cons {b : UInt8} (hquote : b ≠ 0x22) (hescape : b ≠ 0x5c)
    (hcontrol : ¬ b < 0x20) (rest : Bytes) :
    stringBytes? (b :: rest) = (stringBytes? rest).map fun (content, rest) => (b :: content, rest) := by
  rw [stringBytes?]
  · rw [if_neg hcontrol]
  all_goals simp_all

theorem stringBytes?_append {bs : Bytes} (h : ∀ b ∈ bs, b ≠ 0x22 ∧ b ≠ 0x5c ∧ ¬ b < 0x20)
    (rest : Bytes) :
    stringBytes? (bs ++ rest) = (stringBytes? rest).map fun (content, rest) => (bs ++ content, rest) := by
  induction bs with
  | nil => simp
  | cons b bs ih =>
    rw [List.forall_mem_cons] at h
    obtain ⟨⟨hquote, hescape, hcontrol⟩, hrest⟩ := h
    rw [List.cons_append, stringBytes?_cons hquote hescape hcontrol, ih hrest, Option.map_map]
    rfl

theorem stringBytes?_letter {e b : UInt8} (h : escaped? e = some b) (rest : Bytes) :
    stringBytes? (0x5c :: e :: rest)
      = (stringBytes? rest).map fun (content, rest) => (b :: content, rest) := by
  have hne : e ≠ 0x75 := by
    rintro rfl
    cases h
  rw [stringBytes?]
  · rw [h]
    cases stringBytes? rest <;> rfl
  all_goals simp_all

theorem stringBytes?_point {a b c d : UInt8} {n : Nat} (h : hex4? a b c d = some n) (hn : n < 0xd800)
    (rest : Bytes) :
    stringBytes? (0x5c :: 0x75 :: a :: b :: c :: d :: rest)
      = (stringBytes? rest).map fun (content, rest) =>
          (bytes (String.singleton (Char.ofNat n)) ++ content, rest) := by
  have hlow : isLowSurrogate n = false := by
    rw [isLowSurrogate, Bool.and_eq_false_iff, decide_eq_false_iff_not]
    omega
  have hhigh : isHighSurrogate n = false := by
    rw [isHighSurrogate, Bool.and_eq_false_iff, decide_eq_false_iff_not]
    omega
  rw [stringBytes?, h]
  simp only [Option.bind_eq_bind, Option.bind_some, hlow, hhigh, Bool.false_eq_true, if_false]
  cases stringBytes? rest <;> rfl

theorem bytes_singleton (c : Char) : bytes (String.singleton c) = String.utf8EncodeChar c := by
  have hsingle : String.singleton c = String.ofList [c] := rfl
  rw [hsingle, bytes_ofList, List.flatMap_singleton]

theorem stringBytes?_control {c : Char} (h : c.toNat < 0x20) (rest : Bytes) :
    stringBytes? (['\\', 'u', '0', '0', hexLower (c.toNat / 16), hexLower (c.toNat % 16)].flatMap
        String.utf8EncodeChar ++ rest)
      = (stringBytes? rest).map fun (content, rest) =>
          (String.utf8EncodeChar c ++ content, rest) := by
  have hdigits : ∀ n < 0x20, ∃ high low, hex4? 0x30 0x30 high low = some n ∧
      ['\\', 'u', '0', '0', hexLower (n / 16), hexLower (n % 16)].flatMap String.utf8EncodeChar
        = [0x5c, 0x75, 0x30, 0x30, high, low] := by
    intro n hn
    refine ⟨UInt8.ofNat (hexLower (n / 16)).toNat, UInt8.ofNat (hexLower (n % 16)).toNat, ?_⟩
    revert n
    decide
  obtain ⟨high, low, hpoint, hbytes⟩ := hdigits c.toNat h
  rw [hbytes]
  have hread := stringBytes?_point hpoint (by omega) rest
  rw [bytes_singleton, Char.ofNat_toNat] at hread
  exact hread

theorem plain_of_mem_utf8EncodeChar {c : Char} (hquote : c ≠ '"') (hescape : c ≠ '\\')
    (hcontrol : ¬ c.toNat < 0x20) {b : UInt8} (hb : b ∈ String.utf8EncodeChar c) :
    b ≠ 0x22 ∧ b ≠ 0x5c ∧ ¬ b < 0x20 := by
  by_cases hascii : c.toNat < 0x80
  · rw [utf8EncodeChar_of_ascii hascii, List.mem_singleton] at hb
    have hn : b.toNat = c.toNat := by
      rw [hb, UInt8.toNat_ofNat']
      omega
    refine ⟨?_, ?_, ?_⟩
    · rintro rfl
      exact hquote (Char.toNat_inj.1 hn.symm)
    · rintro rfl
      exact hescape (Char.toNat_inj.1 hn.symm)
    · rw [UInt8.lt_iff_toNat_lt, hn]
      exact hcontrol
  -- No byte of a character beyond ASCII is taken for a mark.
  · have hhigh := high_of_mem_utf8EncodeChar (Nat.le_of_not_lt hascii) hb
    refine ⟨?_, ?_, ?_⟩
    · rintro rfl
      exact absurd hhigh (by decide)
    · rintro rfl
      exact absurd hhigh (by decide)
    · rw [UInt8.lt_iff_toNat_lt]
      exact Nat.not_lt.2 (Nat.le_trans (by decide) hhigh)

theorem stringBytes?_escapeChar (c : Char) (rest : Bytes) :
    stringBytes? ((escapeChar c).flatMap String.utf8EncodeChar ++ rest)
      = (stringBytes? rest).map fun (content, rest) => (String.utf8EncodeChar c ++ content, rest) := by
  unfold escapeChar
  split
  case h_1 | h_2 | h_3 | h_4 | h_5 | h_6 | h_7 => exact stringBytes?_letter rfl rest
  · next hquote hescape _ _ _ _ _ =>
    split
    · next hcontrol => exact stringBytes?_control hcontrol rest
    · next hcontrol =>
      rw [List.flatMap_singleton]
      exact stringBytes?_append
        (fun b hb => plain_of_mem_utf8EncodeChar hquote hescape hcontrol hb) rest

theorem stringBytes?_flatMap_escapeChar (cs : List Char) (rest : Bytes) :
    stringBytes? ((cs.flatMap escapeChar).flatMap String.utf8EncodeChar ++ 0x22 :: rest)
      = some (cs.flatMap String.utf8EncodeChar, rest) := by
  induction cs with
  | nil => rfl
  | cons c cs ih =>
    rw [List.flatMap_cons, List.flatMap_append, List.append_assoc, stringBytes?_escapeChar, ih]
    rfl

theorem expect?_cons {b : UInt8} (h : isSpace b = false) (rest : Bytes) :
    expect? b (b :: rest) = some rest := by
  rw [expect?, skipSpace, List.dropWhile_cons_of_neg (by simp [h])]
  exact if_pos rfl

theorem bytes_quote (s : String) :
    bytes (quote s) = 0x22 :: ((s.toList.flatMap escapeChar).flatMap String.utf8EncodeChar ++ [0x22]) := by
  rw [quote, bytes_ofList, List.cons_append, List.flatMap_cons, List.flatMap_append]
  rfl

theorem string?_quote (s : String) (rest : Bytes) :
    string? (bytes (quote s) ++ rest) = some (s, rest) := by
  have hcontent : s.toList.flatMap String.utf8EncodeChar = bytes s := by
    rw [← bytes_ofList, String.ofList_toList]
  rw [bytes_quote, List.cons_append, List.append_assoc, string?, expect?_cons rfl]
  simp [stringBytes?_flatMap_escapeChar, hcontent]

/-! ## Objects of texts and numbers -/

inductive Scalar where
  | text (s : String)
  | number (n : Nat)
  deriving DecidableEq, Repr

def Scalar.json : Scalar → String
  | .text s => quote s
  | .number n => natText n

/-- The digits are those that the number is written with, so that none is left out or added. -/
def number? (bs : Bytes) : Option (Nat × Bytes) :=
  let digits := bs.takeWhile isDigit
  let n := ofDigits (digits.map fun b => Char.ofNat b.toNat)
  if digits = bytes (natText n) then some (n, bs.dropWhile isDigit) else none

def scalar? (bs : Bytes) : Option (Scalar × Bytes) :=
  match skipSpace bs with
  | 0x22 :: rest => (string? (0x22 :: rest)).map fun (s, rest) => (.text s, rest)
  | bs => (number? bs).map fun (n, rest) => (.number n, rest)

def member? (bs : Bytes) : Option ((String × Scalar) × Bytes) := do
  let (name, rest) ← string? bs
  let (value, rest) ← scalar? (← expect? 0x3a rest)
  return ((name, value), rest)

/-- The members of an object, from behind its opening brace to its closing one. -/
def members? : Nat → Bytes → Option (List (String × Scalar) × Bytes)
  | 0, _ => none
  | count + 1, bs => do
    let (member, rest) ← member? bs
    match skipSpace rest with
    | 0x7d :: rest => return ([member], rest)
    | 0x2c :: rest =>
      let (more, rest) ← members? count rest
      return (member :: more, rest)
    | _ => none

/-- The members of an object that is all there is. -/
def object? (bs : Bytes) : Option (List (String × Scalar)) := do
  let rest ← expect? 0x7b bs
  let (members, rest) ← members? rest.length rest
  if skipSpace rest = [] then some members else none

/-! ## Reading what was written -/

theorem toNat_of_isPlainDigit {c : Char} (h : isPlainDigit c = true) :
    0x30 ≤ c.toNat ∧ c.toNat ≤ 0x39 := by
  rw [isPlainDigit, Bool.and_eq_true, decide_eq_true_eq, decide_eq_true_eq] at h
  exact h

theorem bytes_natText (n : Nat) :
    bytes (natText n) = (Nat.toDigits 10 n).map fun c => UInt8.ofNat c.toNat := by
  have hascii : ∀ c ∈ Nat.toDigits 10 n, String.utf8EncodeChar c = [UInt8.ofNat c.toNat] := by
    intro c hc
    have hdigit := toNat_of_isPlainDigit (isPlainDigit_of_mem_toDigits hc)
    exact utf8EncodeChar_of_ascii (by omega)
  rw [natText, bytes_ofList, List.map_eq_flatMap, List.flatMap_def, List.flatMap_def,
    List.map_congr_left hascii]

theorem isDigit_of_mem_natText {n : Nat} {b : UInt8} (h : b ∈ bytes (natText n)) :
    isDigit b = true := by
  rw [bytes_natText, List.mem_map] at h
  obtain ⟨c, hc, rfl⟩ := h
  have hdigit := toNat_of_isPlainDigit (isPlainDigit_of_mem_toDigits hc)
  rw [isDigit, Bool.and_eq_true, decide_eq_true_eq, decide_eq_true_eq, UInt8.le_iff_toNat_le,
    UInt8.le_iff_toNat_le, UInt8.toNat_ofNat', Nat.mod_eq_of_lt (by omega)]
  exact hdigit

theorem ofDigits_bytes_natText (n : Nat) :
    ofDigits ((bytes (natText n)).map fun b => Char.ofNat b.toNat) = n := by
  have hchars : ∀ c ∈ Nat.toDigits 10 n, Char.ofNat (UInt8.ofNat c.toNat).toNat = c := by
    intro c hc
    have hdigit := toNat_of_isPlainDigit (isPlainDigit_of_mem_toDigits hc)
    rw [UInt8.toNat_ofNat', Nat.mod_eq_of_lt (by omega), Char.ofNat_toNat]
  have hback : (Nat.toDigits 10 n).map (fun c => Char.ofNat (UInt8.ofNat c.toNat).toNat)
      = Nat.toDigits 10 n := (List.map_congr_left (g := id) hchars).trans (List.map_id _)
  rw [bytes_natText, List.map_map]
  exact (congrArg ofDigits hback).trans (ofDigits_toDigits n)

theorem number?_natText (n : Nat) {rest : Bytes} (h : ∀ b ∈ rest.head?, isDigit b = false) :
    number? (bytes (natText n) ++ rest) = some (n, rest) := by
  have hall : ∀ b ∈ bytes (natText n), isDigit b = true := fun _ hb => isDigit_of_mem_natText hb
  have htake : rest.takeWhile isDigit = [] ∧ rest.dropWhile isDigit = rest := by
    cases rest with
    | nil => exact ⟨rfl, rfl⟩
    | cons b rest => simp [h b rfl]
  simp only [number?, List.takeWhile_append_of_pos hall, List.dropWhile_append_of_pos hall, htake,
    List.append_nil, ofDigits_bytes_natText, if_true]

theorem skipSpace_of_head? {bs : Bytes} (h : ∀ b ∈ bs.head?, isSpace b = false) :
    skipSpace bs = bs := by
  cases bs with
  | nil => rfl
  | cons b bs => exact List.dropWhile_cons_of_neg (by simp [h b rfl])

theorem head?_natText (n : Nat) (rest : Bytes) :
    ∃ b, (bytes (natText n) ++ rest).head? = some b ∧ isDigit b = true := by
  cases hbytes : bytes (natText n) with
  | nil =>
    rw [bytes_natText, List.map_eq_nil_iff] at hbytes
    have hrun := isRunOf_toDigits n
    rw [hbytes] at hrun
    cases hrun
  | cons b bs =>
    have hb : b ∈ bytes (natText n) := by rw [hbytes]; exact List.mem_cons_self
    exact ⟨b, rfl, isDigit_of_mem_natText hb⟩

theorem scalar?_json (value : Scalar) {rest : Bytes} (h : ∀ b ∈ rest.head?, isDigit b = false) :
    scalar? (bytes value.json ++ rest) = some (value, rest) := by
  cases value with
  | text s =>
    have hread := string?_quote s rest
    rw [bytes_quote, List.cons_append] at hread
    rw [Scalar.json, bytes_quote, List.cons_append, scalar?, skipSpace_of_head? (by simp; decide)]
    simp only [hread, Option.map_some]
  | number n =>
    obtain ⟨b, hhead, hdigit⟩ := head?_natText n rest
    have hspace : isSpace b = false := by
      rw [Bool.eq_false_iff]
      intro hspace
      simp only [isSpace, Bool.or_eq_true, beq_iff_eq] at hspace
      rcases hspace with ((rfl | rfl) | rfl) | rfl <;> cases hdigit
    have hquote : b ≠ 0x22 := by
      rintro rfl
      cases hdigit
    rw [Scalar.json, scalar?, skipSpace_of_head? (by simp [hhead, hspace])]
    split
    · next heq =>
      rw [heq] at hhead
      exact absurd (Option.some.inj hhead).symm hquote
    · rw [number?_natText n h, Option.map_some]

theorem member?_json (name : String) (value : Scalar) {rest : Bytes}
    (h : ∀ b ∈ rest.head?, isDigit b = false) :
    member? (bytes (quote name ++ ":" ++ value.json) ++ rest) = some ((name, value), rest) := by
  have hcolon : bytes ":" = [0x3a] := rfl
  rw [bytes_append, bytes_append, hcolon, List.append_assoc, List.append_assoc, member?,
    string?_quote, List.singleton_append]
  simp only [Option.bind_eq_bind, Option.bind_some, expect?_cons (b := 0x3a) rfl, scalar?_json value h]
  rfl

def memberJson (member : String × Scalar) : String := quote member.1 ++ ":" ++ member.2.json

theorem bytes_memberJson_cons_cons (member next : String × Scalar)
    (others : List (String × Scalar)) :
    bytes (",".intercalate ((member :: next :: others).map memberJson))
      = bytes (memberJson member)
        ++ 0x2c :: bytes (",".intercalate ((next :: others).map memberJson)) := by
  have hcomma : bytes "," = [0x2c] := rfl
  rw [List.map_cons, List.map_cons, String.intercalate_cons_cons, bytes_append, bytes_append, hcomma,
    List.append_assoc]
  rfl

theorem length_le_bytes_intercalate (members : List (String × Scalar)) :
    members.length ≤ (bytes (",".intercalate (members.map memberJson))).length + 1 := by
  match members with
  | [] => exact Nat.zero_le _
  | [member] => exact Nat.succ_le_succ (Nat.zero_le _)
  | member :: next :: others =>
    have hothers := length_le_bytes_intercalate (next :: others)
    rw [bytes_memberJson_cons_cons, List.length_append]
    simp only [List.length_cons] at hothers ⊢
    omega

theorem members?_json {members : List (String × Scalar)} (hne : members ≠ []) {count : Nat}
    (hcount : members.length ≤ count) (rest : Bytes) :
    members? count (bytes (",".intercalate (members.map memberJson)) ++ 0x7d :: rest)
      = some (members, rest) := by
  induction members generalizing count with
  | nil => exact absurd rfl hne
  | cons member more ih =>
    cases count with
    | zero => cases hcount
    | succ count =>
      cases more with
      | nil =>
        rw [List.map_singleton, String.intercalate_singleton, memberJson, members?,
          member?_json _ _ (by simp; decide)]
        rfl
      | cons next others =>
        have hmore := ih (List.cons_ne_nil _ _) (Nat.le_of_succ_le_succ hcount)
        have hspace : ∀ bs : Bytes, skipSpace (0x2c :: bs) = 0x2c :: bs := fun _ => rfl
        rw [bytes_memberJson_cons_cons, List.append_assoc, memberJson, members?,
          member?_json _ _ (by simp; decide)]
        simp only [Option.bind_eq_bind, Option.bind_some, List.cons_append, hspace, hmore]
        rfl

theorem object_eq (members : List (String × Scalar)) :
    object (members.map fun member => (member.1, member.2.json))
      = "\x7b" ++ ",".intercalate (members.map memberJson) ++ "\x7d" := by
  rw [object, List.map_map]
  rfl

/-- An object reads as the members it was written from. -/
theorem object?_object {members : List (String × Scalar)} (hne : members ≠ []) :
    object? (bytes (object (members.map fun member => (member.1, member.2.json)))) = some members := by
  have hopen : bytes "\x7b" = [0x7b] := rfl
  have hclose : bytes "\x7d" = [0x7d] := rfl
  have hlength : members.length
      ≤ (bytes (",".intercalate (members.map memberJson)) ++ [0x7d]).length := by
    simpa using length_le_bytes_intercalate members
  have hmembers := members?_json hne hlength []
  rw [object_eq, bytes_append, bytes_append, hopen, hclose, List.append_assoc,
    List.singleton_append, object?, expect?_cons (by decide)]
  simp only [Option.bind_eq_bind, Option.bind_some, hmembers]
  rfl

end ImageGate.Text.Json
