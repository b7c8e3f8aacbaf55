/-! Bytes and texts. A text has one sequence of UTF-8 bytes; a sequence of bytes is a text, or else
it can be repaired: every longest run that begins like a character and does not end like one
becomes a replacement character. -/
namespace ImageGate.Text.Utf8
set_option autoImplicit false

def bytes (s : String) : List UInt8 := s.toByteArray.data.toList

/-- The text with these bytes, if there is one. -/
def text? (bs : List UInt8) : Option String := String.fromUTF8? ⟨bs.toArray⟩

/-! ## Repair -/

/-- A character under way: how many more bytes it needs, between which bounds the next one lies, and
the code point collected so far. -/
structure Pending where
  more : Nat
  lower : UInt8
  upper : UInt8
  point : Nat

/-- What a byte says at the start of a character. -/
inductive Start where
  | whole (c : Char)
  | open (p : Pending)
  | stray

def replacement : Char := '\uFFFD'

/-- The bounds on the second byte keep out overlong forms, surrogates and code points past the
last one. -/
def start (b : UInt8) : Start :=
  if b < 0x80 then .whole (Char.ofNat b.toNat)
  else if 0xc2 ≤ b && b ≤ 0xdf then .open ⟨1, 0x80, 0xbf, b.toNat - 0xc0⟩
  else if b == 0xe0 then .open ⟨2, 0xa0, 0xbf, 0⟩
  else if b == 0xed then .open ⟨2, 0x80, 0x9f, 0xd⟩
  else if 0xe1 ≤ b && b ≤ 0xef then .open ⟨2, 0x80, 0xbf, b.toNat - 0xe0⟩
  else if b == 0xf0 then .open ⟨3, 0x90, 0xbf, 0⟩
  else if 0xf1 ≤ b && b ≤ 0xf3 then .open ⟨3, 0x80, 0xbf, b.toNat - 0xf0⟩
  else if b == 0xf4 then .open ⟨3, 0x80, 0x8f, 4⟩
  else .stray

def repairFrom : Option Pending → List UInt8 → List Char
  | none, [] => []
  | some _, [] => [replacement]
  | none, b :: bs => begin b bs
  | some p, b :: bs =>
    if p.lower ≤ b && b ≤ p.upper then
      let point := p.point * 64 + (b.toNat - 0x80)
      if p.more ≤ 1 then Char.ofNat point :: repairFrom none bs
      else repairFrom (some ⟨p.more - 1, 0x80, 0xbf, point⟩) bs
    else replacement :: begin b bs
where
  /-- Takes the first byte of a character. -/
  begin (b : UInt8) (bs : List UInt8) : List Char :=
    match start b with
    | .whole c => c :: repairFrom none bs
    | .open p => repairFrom (some p) bs
    | .stray => replacement :: repairFrom none bs

/-- Never fails: bytes that are no text are repaired. -/
def textLossy (bs : List UInt8) : String := (text? bs).getD (String.ofList (repairFrom none bs))

/-! ## Texts are their bytes -/

theorem text?_eq_some_iff {bs : List UInt8} {s : String} : text? bs = some s ↔ bytes s = bs := by
  simp only [text?, bytes, String.fromUTF8?]
  constructor
  · intro h
    split at h
    · cases h; simp [String.fromUTF8]
    · simp at h
  · rintro rfl
    have h : (⟨s.toByteArray.data.toList.toArray⟩ : ByteArray) = s.toByteArray := by simp
    rw [dif_pos (by rw [h]; exact s.isValidUTF8)]
    simp [String.fromUTF8]

@[simp] theorem text?_bytes (s : String) : text? (bytes s) = some s := text?_eq_some_iff.2 rfl

@[simp] theorem textLossy_bytes (s : String) : textLossy (bytes s) = s := by simp [textLossy]

end ImageGate.Text.Utf8
