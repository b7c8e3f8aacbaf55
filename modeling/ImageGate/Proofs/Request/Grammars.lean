import ImageGate.Proofs.Number.Comparison
import ImageGate.Proofs.Request.RuleOrder

/-! The grammars of texts in requests: regions, sizes and rotations of IIIF, and the coordinates of
DeepZoom tiles. They are stated as patterns, over any idea of what a digit is. The checks take the
digits of every script, and they compare a rotation only after rounding it. So they accept exactly the
patterns over decimal digits, and the rotations up to half a spacing above 360; with the digits from 0 to
9 and the exact bound they agree for a text exactly if it holds no other digit and is not between the two
bounds. -/
namespace ImageGate
open Text Number
set_option autoImplicit false

/-! ## Patterns -/

inductive Pattern where
  | char (c : Char)
  | text (s : String)
  | digits
  | either (p q : Pattern)
  | both (p q : Pattern)

namespace Pattern

/-- The texts of a pattern, where this is a digit. -/
def Matches (digit : Char → Bool) : Pattern → List Char → Prop
  | char c, cs => cs = [c]
  | text s, cs => cs = s.toList
  | digits, cs => isRunOf digit cs = true
  | either p q, cs => p.Matches digit cs ∨ q.Matches digit cs
  | both p q, cs => ∃ a b, cs = a ++ b ∧ p.Matches digit a ∧ q.Matches digit b

/-- The characters that stand for themselves. -/
def letters : Pattern → List Char
  | char c => [c]
  | text s => s.toList
  | digits => []
  | either p q | both p q => p.letters ++ q.letters

variable {digit other : Char → Bool} {p q : Pattern} {cs : List Char}

theorem Matches.mem (h : p.Matches digit cs) {c : Char} (hc : c ∈ cs) :
    digit c = true ∨ c ∈ p.letters := by
  induction p generalizing cs with
  | char | text =>
    rw [h] at hc
    exact .inr hc
  | digits =>
    have hrun : isRunOf digit cs = true := h
    rw [isRunOf, Bool.and_eq_true, List.all_eq_true] at hrun
    exact .inl (hrun.2 c hc)
  | either p q ihp ihq =>
    rcases h with h | h
    · exact (ihp h hc).imp_right (List.mem_append_left _)
    · exact (ihq h hc).imp_right (List.mem_append_right _)
  | both p q ihp ihq =>
    obtain ⟨a, b, rfl, ha, hb⟩ := h
    rcases List.mem_append.1 hc with hc | hc
    · exact (ihp ha hc).imp_right (List.mem_append_left _)
    · exact (ihq hb hc).imp_right (List.mem_append_right _)

theorem Matches.not_mem (h : p.Matches digit cs) {c : Char} (hdigit : digit c = false)
    (hletters : c ∉ p.letters) : c ∉ cs := by
  intro hc
  rcases h.mem hc with hc | hc
  · exact Bool.false_ne_true (hdigit.symm.trans hc)
  · exact hletters hc

/-- A text stays in the pattern while its digits stay digits. -/
theorem Matches.mono (h : p.Matches digit cs) (hdigits : ∀ c ∈ cs, digit c = true → other c = true) :
    p.Matches other cs := by
  induction p generalizing cs with
  | char | text => exact h
  | digits =>
    have hrun : isRunOf digit cs = true := h
    rw [isRunOf, Bool.and_eq_true, List.all_eq_true] at hrun
    show isRunOf other cs = true
    rw [isRunOf, hrun.1, Bool.true_and, List.all_eq_true]
    exact fun c hc => hdigits c hc (hrun.2 c hc)
  | either p q ihp ihq => exact h.imp (ihp · hdigits) (ihq · hdigits)
  | both p q ihp ihq =>
    obtain ⟨a, b, rfl, ha, hb⟩ := h
    exact ⟨a, b, rfl, ihp ha fun c hc => hdigits c (List.mem_append_left _ hc),
      ihq hb fun c hc => hdigits c (List.mem_append_right _ hc)⟩

/-- Every digit in the text is one from 0 to 9. -/
def PlainDigits (cs : List Char) : Prop := ∀ c ∈ cs, isDecimalDigit c = true → isPlainDigit c = true

/-- The stricter reading of a pattern, where none of its letters is a digit. -/
theorem matches_isPlainDigit_iff (hletters : ∀ c ∈ p.letters, isDecimalDigit c = false) :
    p.Matches isPlainDigit cs ↔ p.Matches isDecimalDigit cs ∧ PlainDigits cs := by
  refine ⟨fun h => ⟨?_, fun c hc hdigit => ?_⟩, fun ⟨h, hplain⟩ => h.mono hplain⟩
  · exact h.mono fun c _ => isDecimalDigit_of_isPlainDigit
  · rcases h.mem hc with hplain | hletter
    · exact hplain
    · exact absurd (hletters c hletter) (by rw [hdigit]; exact Bool.noConfusion)

/-! ## Documented patterns -/

/-- One behind the mark, one in front of it. -/
def separated (mark : Char) (p q : Pattern) : Pattern := both p (both (char mark) q)

/-- A whole number, or one with digits behind a point. -/
def decimal : Pattern := either digits (separated '.' digits digits)

/-- Four of a kind between commas. -/
def quadruple (p : Pattern) : Pattern :=
  separated ',' p (separated ',' p (separated ',' p p))

def region : Pattern :=
  either (text "full") (either (text "square")
    (either (both (text "pct:") (quadruple decimal)) (quadruple digits)))

def nothing : Pattern := text ""

/-- A width, a height, or both around the comma. -/
def extent : Pattern :=
  either (separated ',' digits nothing)
    (either (separated ',' nothing digits) (separated ',' digits digits))

/-- Width and height of a box to fit into. -/
def box : Pattern := both (char '!') (separated ',' digits digits)

def plainSize : Pattern :=
  either (text "max") (either (both (text "pct:") decimal) (either box extent))

def size : Pattern := either (both (char '^') plainSize) plainSize

def tile : Pattern := separated '_' digits digits

end Pattern

/-! ## What the checks accept -/

namespace Pattern
variable {p q : Pattern} {cs : List Char} {mark : Char} {digit : Char → Bool}

theorem matches_text_both_iff {s : String} : (both (text s) p).Matches digit cs ↔
    ∃ rest, afterPrefix? s.toList cs = some rest ∧ p.Matches digit rest := by
  simp only [afterPrefix?_eq_some]
  constructor
  · rintro ⟨_, rest, rfl, rfl, h⟩
    exact ⟨rest, rfl, h⟩
  · rintro ⟨rest, rfl, h⟩
    exact ⟨_, rest, rfl, rfl, h⟩

theorem matches_char_both_iff :
    (both (char mark) p).Matches digit cs ↔ ∃ rest, cs = mark :: rest ∧ p.Matches digit rest := by
  constructor
  · rintro ⟨_, rest, rfl, rfl, h⟩
    exact ⟨rest, rfl, h⟩
  · rintro ⟨rest, rfl, h⟩
    exact ⟨[mark], rest, rfl, rfl, h⟩

theorem matches_separated_iff : (separated mark p q).Matches digit cs ↔
    ∃ a b, cs = a ++ mark :: b ∧ p.Matches digit a ∧ q.Matches digit b := by
  constructor
  · rintro ⟨a, _, rfl, ha, _, b, rfl, rfl, hb⟩
    exact ⟨a, b, rfl, ha, hb⟩
  · rintro ⟨a, b, rfl, ha, hb⟩
    exact ⟨a, _, rfl, ha, [mark], b, rfl, rfl, hb⟩

/-- The first mark is the one that separates, where none can be in front of it. -/
theorem matches_separated_iff_cutFirst (hmark : digit mark = false) (hletters : mark ∉ p.letters) :
    (separated mark p q).Matches digit cs ↔
      ∃ a b, cutFirst mark cs = some (a, b) ∧ p.Matches digit a ∧ q.Matches digit b := by
  rw [matches_separated_iff]
  constructor
  · rintro ⟨a, b, rfl, ha, hb⟩
    exact ⟨a, b, cutFirst_append_cons (ha.not_mem hmark hletters) b, ha, hb⟩
  · rintro ⟨a, b, hcut, ha, hb⟩
    exact ⟨a, b, (cutFirst_eq_some hcut).1, ha, hb⟩

end Pattern

theorem DeepZoom.isTileCoordinate_iff {tile : String} :
    isTileCoordinate tile = true ↔ Pattern.tile.Matches isDecimalDigit tile.toList := by
  rw [Pattern.tile, Pattern.matches_separated_iff_cutFirst (by decide) (by decide), isTileCoordinate]
  cases cutFirst '_' tile.toList with
  | none => simp
  | some parts =>
    obtain ⟨column, row⟩ := parts
    simp [Pattern.Matches]

namespace Iiif

theorem isDecimalText_iff {cs : List Char} :
    isDecimalText cs = true ↔ Pattern.decimal.Matches isDecimalDigit cs := by
  have hdecimal : Pattern.decimal.Matches isDecimalDigit cs ↔ isRunOf isDecimalDigit cs = true ∨
      (Pattern.separated '.' .digits .digits).Matches isDecimalDigit cs := Iff.rfl
  rw [hdecimal, Pattern.matches_separated_iff_cutFirst (by decide) (by decide), isDecimalText]
  cases hcut : cutFirst '.' cs with
  | none => simp
  | some parts =>
    -- A point in the text keeps it from being a single run.
    have hnot : isRunOf isDecimalDigit cs ≠ true := by
      intro hrun
      refine not_mem_run (by decide) hrun (x := '.') ?_
      rw [(cutFirst_eq_some hcut).1]
      simp
    obtain ⟨whole, fraction⟩ := parts
    simp [Pattern.Matches, hnot]

theorem isQuadruple_iff {p : List Char → Bool} {kind : Pattern} {cs : List Char}
    (hp : ∀ cs, p cs = true ↔ kind.Matches isDecimalDigit cs) (hletters : ',' ∉ kind.letters) :
    isQuadruple p cs = true ↔ (Pattern.quadruple kind).Matches isDecimalDigit cs := by
  have hfree : ∀ {a}, kind.Matches isDecimalDigit a → ',' ∉ a := fun ha =>
    ha.not_mem (by decide) hletters
  simp only [Pattern.quadruple, Pattern.matches_separated_iff, isQuadruple, Bool.and_eq_true,
    beq_iff_eq, List.all_eq_true]
  constructor
  · rintro ⟨hlength, hall⟩
    obtain ⟨a, b, c, d, hparts⟩ := List.length_eq_four.1 hlength
    have hjoin := flatMap_pieces ',' cs
    rw [hparts] at hall hjoin
    have hcs : cs = a ++ ',' :: (b ++ ',' :: (c ++ ',' :: d)) := by
      simpa [eq_comm] using hjoin
    simp only [List.forall_mem_cons, hp] at hall
    obtain ⟨ha, hb, hc, hd, -⟩ := hall
    exact ⟨a, _, hcs, ha, b, _, rfl, hb, c, d, rfl, hc, hd⟩
  · rintro ⟨a, _, rfl, ha, b, _, rfl, hb, c, d, rfl, hc, hd⟩
    rw [pieces_append_cons, pieces_append_cons, pieces_append_cons, pieces_of_not_mem (hfree ha),
      pieces_of_not_mem (hfree hb), pieces_of_not_mem (hfree hc), pieces_of_not_mem (hfree hd)]
    simp [hp, ha, hb, hc, hd]

theorem isRegion_iff {region : String} :
    isRegion region = true ↔ Pattern.region.Matches isDecimalDigit region.toList := by
  have hregion : Pattern.region.Matches isDecimalDigit region.toList ↔
      region.toList = "full".toList ∨ region.toList = "square".toList ∨
        (Pattern.both (.text "pct:") (.quadruple .decimal)).Matches isDecimalDigit region.toList ∨
        (Pattern.quadruple .digits).Matches isDecimalDigit region.toList := Iff.rfl
  rw [hregion, Pattern.matches_text_both_iff, String.toList_inj, String.toList_inj]
  rw [isRegion, Bool.or_eq_true, Bool.or_eq_true, beq_iff_eq, beq_iff_eq, or_assoc]
  refine or_congr_right (or_congr_right ?_)
  cases hpct : afterPrefix? "pct:".toList region.toList with
  | some rest =>
    -- The letter in front is in none of the four runs.
    have hnot : ¬ (Pattern.quadruple .digits).Matches isDecimalDigit region.toList := by
      intro h
      refine h.not_mem (c := 'p') (by decide) (by decide) ?_
      rw [afterPrefix?_eq_some.1 hpct]
      exact List.mem_cons_self
    rw [or_iff_left hnot]
    simp [isQuadruple_iff (fun _ => isDecimalText_iff) (by decide)]
  | none =>
    have hdigits : ∀ cs, isRunOf isDecimalDigit cs = true ↔ Pattern.digits.Matches isDecimalDigit cs :=
      fun _ => Iff.rfl
    simp [isQuadruple_iff hdigits (by decide)]

theorem isBox_iff {cs : List Char} :
    isBox cs = true ↔ (Pattern.separated ',' .digits .digits).Matches isDecimalDigit cs := by
  rw [Pattern.matches_separated_iff_cutFirst (by decide) (by decide), isBox]
  cases cutFirst ',' cs with
  | none => simp
  | some parts =>
    obtain ⟨width, height⟩ := parts
    simp [Pattern.Matches]

theorem isExtent_iff {cs : List Char} :
    isExtent cs = true ↔ Pattern.extent.Matches isDecimalDigit cs := by
  have hextent : Pattern.extent.Matches isDecimalDigit cs ↔
      (Pattern.separated ',' .digits .nothing).Matches isDecimalDigit cs ∨
        (Pattern.separated ',' .nothing .digits).Matches isDecimalDigit cs ∨
          (Pattern.separated ',' .digits .digits).Matches isDecimalDigit cs := Iff.rfl
  rw [hextent, Pattern.matches_separated_iff_cutFirst (by decide) (by decide),
    Pattern.matches_separated_iff_cutFirst (by decide) (by decide),
    Pattern.matches_separated_iff_cutFirst (by decide) (by decide), isExtent]
  cases cutFirst ',' cs with
  | none => simp
  | some parts =>
    obtain ⟨width, height⟩ := parts
    simp only [Option.some.injEq, Prod.mk.injEq, and_assoc, exists_and_left, exists_eq_left',
      Pattern.nothing, Pattern.Matches, Bool.or_eq_true, Bool.and_eq_true, List.isEmpty_iff,
      String.toList_empty]
    tauto

theorem isPlainSize_iff {cs : List Char} :
    isPlainSize cs = true ↔ Pattern.plainSize.Matches isDecimalDigit cs := by
  have hsize : Pattern.plainSize.Matches isDecimalDigit cs ↔ cs = "max".toList ∨
      (Pattern.both (.text "pct:") .decimal).Matches isDecimalDigit cs ∨
        Pattern.box.Matches isDecimalDigit cs ∨ Pattern.extent.Matches isDecimalDigit cs := Iff.rfl
  unfold isPlainSize
  rw [hsize, Pattern.matches_text_both_iff, Bool.or_eq_true, beq_iff_eq]
  refine or_congr_right ?_
  cases hpct : afterPrefix? "pct:".toList cs with
  | some rest =>
    have hletter : 'p' ∈ cs := by
      rw [afterPrefix?_eq_some.1 hpct]
      exact List.mem_cons_self
    have hbox : ¬ Pattern.box.Matches isDecimalDigit cs := fun h =>
      h.not_mem (by decide) (by decide) hletter
    have hextent : ¬ Pattern.extent.Matches isDecimalDigit cs := fun h =>
      h.not_mem (by decide) (by decide) hletter
    simp [hbox, hextent, isDecimalText_iff]
  | none =>
    rw [Pattern.box, Pattern.matches_char_both_iff]
    dsimp only
    split
    · next rest =>
      have hextent : ¬ Pattern.extent.Matches isDecimalDigit ('!' :: rest) := fun h =>
        h.not_mem (by decide) (by decide) List.mem_cons_self
      simp [hextent, isBox_iff]
    · next hother =>
      have hbox : ¬ ∃ rest, cs = '!' :: rest ∧
          (Pattern.separated ',' .digits .digits).Matches isDecimalDigit rest :=
        fun ⟨rest, hmark, _⟩ => hother rest hmark
      simp [hbox, isExtent_iff]

theorem isSize_iff {size : String} :
    isSize size = true ↔ Pattern.size.Matches isDecimalDigit size.toList := by
  have hsize : Pattern.size.Matches isDecimalDigit size.toList ↔
      (Pattern.both (.char '^') .plainSize).Matches isDecimalDigit size.toList ∨
        Pattern.plainSize.Matches isDecimalDigit size.toList := Iff.rfl
  rw [hsize, Pattern.matches_char_both_iff, isSize]
  split
  · next rest hcaret =>
    have hnot : ¬ Pattern.plainSize.Matches isDecimalDigit size.toList := by
      intro h
      refine h.not_mem (c := '^') (by decide) (by decide) ?_
      rw [hcaret]
      exact List.mem_cons_self
    rw [or_iff_left hnot, hcaret, isPlainSize_iff]
    simp
  · next hother =>
    rw [isPlainSize_iff, or_iff_right]
    rintro ⟨rest, hcaret, -⟩
    exact hother rest hcaret

/-! ## Rotations -/

/-- The degrees that a text writes, with an exclamation mark in front or without. -/
inductive WritesRotation : List Char → ℚ → Prop
  | plain {degrees : List Char} {v : ℚ} (h : WritesDecimal degrees v) : WritesRotation degrees v
  | flipped {degrees : List Char} {v : ℚ} (h : WritesDecimal degrees v) :
      WritesRotation ('!' :: degrees) v

theorem matches_decimal_iff_writes {cs : List Char} :
    Pattern.decimal.Matches isPlainDigit cs ↔ ∃ v, WritesDecimal cs v := by
  have hdecimal : Pattern.decimal.Matches isPlainDigit cs ↔ isRunOf isPlainDigit cs = true ∨
      (Pattern.separated '.' .digits .digits).Matches isPlainDigit cs := Iff.rfl
  rw [hdecimal, Pattern.matches_separated_iff]
  constructor
  · rintro (hrun | ⟨whole, fraction, rfl, hwhole, hfraction⟩)
    · exact ⟨_, .whole hrun⟩
    · exact ⟨_, .pointed hwhole hfraction⟩
  · rintro ⟨_, hrun | ⟨hwhole, hfraction⟩⟩
    · exact .inl hrun
    · exact .inr ⟨_, _, rfl, hwhole, hfraction⟩

/-- Half a spacing of double precision above 360. -/
def rotationLimit : ℚ := 360 + 1 / 2 ^ 45

theorem le_rotationLimit : (360 : ℚ) ≤ rotationLimit := by norm_num [rotationLimit]

theorem holds_360 : Format.double.Holds (360 * 2 ^ Format.double.unit) := by decide +kernel

theorem spacing_360 : Format.double.spacing (360 * 2 ^ Format.double.unit) = 2 ^ 1030 := by
  decide +kernel

theorem exists_le_360_iff {cs : List Char} {v : ℚ} (h : WritesDecimal cs v) :
    ∃ x, Binary.read? Format.double cs = some x ∧
      (Binary.le x (.ofNat 360) = true ↔ v ≤ rotationLimit) := by
  have hlimit : ((360 : Nat) : ℚ)
      + ((Format.double.spacing (360 * 2 ^ Format.double.unit) : Nat) : ℚ) / (2 * 2 ^ Format.double.unit)
      = rotationLimit := by
    have hunit : Format.double.unit = 1074 := rfl
    have hpower : (2 : ℚ) * 2 ^ 1074 = 2 ^ 1030 * 2 ^ 45 := by rw [← pow_succ', ← pow_add]
    have hne : (2 : ℚ) ^ 1030 ≠ 0 := pow_ne_zero _ (by norm_num)
    rw [spacing_360, rotationLimit, hunit, Nat.cast_pow, Nat.cast_ofNat, Nat.cast_ofNat, hpower,
      ← div_div, div_self hne]
  have hbound := h.exists_le_ofNat_iff (F := Format.double) (by decide) (by decide) holds_360
    (by decide +kernel)
  rwa [hlimit] at hbound

/-- What is read as a number holds no digits of other scripts. -/
theorem plainDigits_of_le {cs : List Char} {x : Double}
    (hdecimal : Pattern.decimal.Matches isDecimalDigit cs)
    (hread : Binary.read? Format.double cs = some x) (hle : Binary.le x (.ofNat 360) = true) :
    Pattern.PlainDigits cs := by
  have hsign : takeSign cs = (false, cs) := by
    unfold takeSign
    split
    · exact absurd List.mem_cons_self (hdecimal.not_mem (c := '-') (by decide) (by decide))
    · exact absurd List.mem_cons_self (hdecimal.not_mem (c := '+') (by decide) (by decide))
    · rfl
  unfold Binary.read? at hread
  rw [hsign] at hread
  rw [Binary.ofNat_of_holds holds_360] at hle
  simp only at hread
  split at hread
  · cases hread
    cases hle
  · split at hread
    · cases hread
      cases hle
    · obtain ⟨d, hd, -⟩ := Option.map_eq_some_iff.1 hread
      intro c hc hdigit
      have hmarks : ∀ m ∈ ['+', '-', '.', 'e', 'E'], isDecimalDigit m = false :=
        List.all_iff_forall_prop.1 (by decide)
      have hchar := isDecimalChar_of_readUnsigned? hd hc
      rw [isDecimalChar, Bool.or_eq_true, List.contains_iff_mem] at hchar
      refine hchar.resolve_right fun hmark => ?_
      exact Bool.false_ne_true ((hmarks c hmark).symm.trans hdigit)

/-- Degrees are compared after rounding. -/
theorem isDegrees_iff {cs : List Char} :
    (isDecimalText cs && match Binary.read? Format.double cs with
      | some d => Binary.le d (.ofNat 360)
      | none => false) = true ↔ ∃ v, WritesDecimal cs v ∧ v ≤ rotationLimit := by
  rw [Bool.and_eq_true, isDecimalText_iff]
  constructor
  · rintro ⟨hdecimal, hle⟩
    cases hread : Binary.read? Format.double cs with
    | none =>
      rw [hread] at hle
      cases hle
    | some x =>
      rw [hread] at hle
      have hplain := hdecimal.mono (plainDigits_of_le hdecimal hread hle)
      obtain ⟨v, hv⟩ := matches_decimal_iff_writes.1 hplain
      obtain ⟨y, hy, hbound⟩ := exists_le_360_iff hv
      cases hread.symm.trans hy
      exact ⟨v, hv, hbound.1 hle⟩
  · rintro ⟨v, hv, hle⟩
    obtain ⟨x, hx, hbound⟩ := exists_le_360_iff hv
    have hplain := matches_decimal_iff_writes.2 ⟨v, hv⟩
    rw [hx]
    exact ⟨hplain.mono fun c _ => isDecimalDigit_of_isPlainDigit, hbound.2 hle⟩

theorem ne_flipped_of_writesDecimal {cs rest : List Char} {v : ℚ} (h : WritesDecimal cs v) :
    cs ≠ '!' :: rest := by
  rintro rfl
  have hdecimal := matches_decimal_iff_writes.2 ⟨v, h⟩
  exact hdecimal.not_mem (c := '!') (by decide) (by decide) List.mem_cons_self

theorem WritesRotation.unique {cs : List Char} {v w : ℚ} (hv : WritesRotation cs v)
    (hw : WritesRotation cs w) : v = w := by
  cases hv with
  | plain hv =>
    cases hw with
    | plain hw => exact hv.unique hw
    | flipped => exact absurd rfl (ne_flipped_of_writesDecimal hv)
  | flipped hv =>
    generalize htext : '!' :: _ = text at hw
    cases hw with
    | plain hw => exact absurd htext.symm (ne_flipped_of_writesDecimal hw)
    | flipped hw =>
      cases htext
      exact hv.unique hw

theorem isRotation_iff {rotation : String} : isRotation rotation = true ↔
    ∃ v, WritesRotation rotation.toList v ∧ v ≤ rotationLimit := by
  unfold isRotation
  split
  · next rest hflip =>
    rw [hflip]
    refine isDegrees_iff.trans ⟨fun ⟨v, hv, hle⟩ => ⟨v, .flipped hv, hle⟩, ?_⟩
    rintro ⟨v, hv, hle⟩
    cases hv with
    | plain hv => exact absurd rfl (ne_flipped_of_writesDecimal hv)
    | flipped hv => exact ⟨v, hv, hle⟩
  · next hother =>
    refine isDegrees_iff.trans ⟨fun ⟨v, hv, hle⟩ => ⟨v, .plain hv, hle⟩, ?_⟩
    rintro ⟨v, hv, hle⟩
    generalize rotation.toList = cs at hother hv
    cases hv with
    | plain hv => exact ⟨v, hv, hle⟩
    | flipped => exact absurd rfl (hother _)

end Iiif

/-! ## Image requests -/

namespace Iiif.ImageRequest

/-- The grammars of the protocol, over this idea of a digit and with this bound on the degrees. -/
structure Follows (digit : Char → Bool) (limit : ℚ) (r : ImageRequest) : Prop where
  identifier : ∃ c ∈ r.identifier.toList, isBlank c = false
  region : Pattern.region.Matches digit r.region.toList
  size : Pattern.size.Matches digit r.size.toList
  rotation : ∃ v, WritesRotation r.rotation.toList v ∧ v ≤ limit
  quality : r.quality = "color" ∨ r.quality = "gray" ∨ r.quality = "bitonal" ∨ r.quality = "default"
  format : ∀ f ∈ r.format, f ∈ ["jpg", "tif", "png", "gif", "jp2", "pdf", "webp"]

/-- No digit of another script, and no rotation so close above 360 that it rounds to it. -/
structure IsPlain (r : ImageRequest) : Prop where
  region : Pattern.PlainDigits r.region.toList
  size : Pattern.PlainDigits r.size.toList
  rotation : ∀ v, WritesRotation r.rotation.toList v → v ≤ 360 ∨ rotationLimit < v

theorem check_eq_ok_iff_follows (r : ImageRequest) :
    r.check = .ok () ↔ r.Follows isDecimalDigit rotationLimit := by
  rw [check_eq_ok_iff]
  constructor
  · intro h
    exact {
      identifier := allBlank_eq_false_iff.1 h.identifier
      region := isRegion_iff.1 h.region
      size := isSize_iff.1 h.size
      rotation := isRotation_iff.1 h.rotation
      quality := by simpa [qualities] using h.quality
      format := h.format }
  · intro h
    exact {
      identifier := allBlank_eq_false_iff.2 h.identifier
      region := isRegion_iff.2 h.region
      size := isSize_iff.2 h.size
      rotation := isRotation_iff.2 h.rotation
      quality := by simpa [qualities] using h.quality
      format := h.format }

theorem follows_isPlainDigit_iff {r : ImageRequest} :
    r.Follows isPlainDigit 360 ↔ r.Follows isDecimalDigit rotationLimit ∧ r.IsPlain := by
  have hregion : Pattern.region.Matches isPlainDigit r.region.toList ↔ _ :=
    Pattern.matches_isPlainDigit_iff (List.all_iff_forall_prop.1 (by decide))
  have hsize : Pattern.size.Matches isPlainDigit r.size.toList ↔ _ :=
    Pattern.matches_isPlainDigit_iff (List.all_iff_forall_prop.1 (by decide))
  constructor
  · intro h
    obtain ⟨v, hv, hle⟩ := h.rotation
    have hlax : r.Follows isDecimalDigit rotationLimit := { h with
      region := (hregion.1 h.region).1
      size := (hsize.1 h.size).1
      rotation := ⟨v, hv, hle.trans le_rotationLimit⟩ }
    exact ⟨hlax, (hregion.1 h.region).2, (hsize.1 h.size).2, fun w hw => .inl (hw.unique hv ▸ hle)⟩
  · rintro ⟨h, hplain⟩
    obtain ⟨v, hv, hle⟩ := h.rotation
    exact { h with
      region := hregion.2 ⟨h.region, hplain.region⟩
      size := hsize.2 ⟨h.size, hplain.size⟩
      rotation := ⟨v, hv, (hplain.rotation v hv).resolve_right hle.not_gt⟩ }

end Iiif.ImageRequest

/-! ## Tile requests -/

namespace DeepZoom.TileRequest

/-- The rules of the protocol in the order in which they count. -/
def rules (r : TileRequest) : List Rule :=
  [⟨"imageid", ∃ c ∈ r.image.toList, isBlank c = false⟩,
    ⟨"tiles", Pattern.tile.Matches isDecimalDigit r.tile.toList⟩,
    ⟨"format", ∀ f ∈ r.format, f ∈ ["jpg", "jpeg", "png"]⟩,
    ⟨"CNT", ∀ c ∈ r.contrast, isNegative c = false⟩,
    ⟨"CMP", ∀ name ∈ r.colormap, name ∈ ["GREY", "JET", "COLD", "HOT", "RED", "GREEN", "BLUE"]⟩,
    ⟨"CTW", ∀ t ∈ r.twist, checkTwistText t = .ok ()⟩,
    ⟨"COL", ∀ name ∈ r.colorSpace, name ∈ ["grey", "gray", "binary"]⟩]

theorem reports_check (r : TileRequest) : Reports r.rules r.check := by
  refine .cons (reports_checkIdentifier "imageid" r.image) fun _ => ?_
  refine .cons (.require isTileCoordinate_iff rfl) fun _ => ?_
  refine .cons (.given fun f _ => .require List.contains_iff_mem rfl) fun _ => ?_
  refine .cons (.given fun c _ => .require (by rw [Bool.not_eq_true']) rfl) fun _ => ?_
  refine .cons (.given fun name _ => reports_checkOneOf "CMP" colormaps name) fun _ => ?_
  refine .cons (.given fun t _ => .of_eq_ok_iff Iff.rfl (isAbout_checkTwistText t)) fun _ => ?_
  exact .given fun name _ => reports_checkOneOf "COL" colorSpaces name

/-- The coordinate of the tile is what the check complains about. -/
def RefusesTile (r : TileRequest) : Prop :=
  ∃ violation, r.check = .error violation ∧ violation.field = "tiles"

theorem refusesTile_iff (r : TileRequest) : r.RefusesTile ↔
    allBlank r.image = false ∧ ¬ Pattern.tile.Matches isDecimalDigit r.tile.toList := by
  rw [allBlank_eq_false_iff]
  have hreports : Reports (r.rules.take 1 ++ ⟨"tiles", _⟩ :: r.rules.drop 2) r.check := r.reports_check
  simpa [rules, RefusesTile] using hreports.exists_about_iff (by simp [rules]) (by simp [rules])

end DeepZoom.TileRequest

/-! ## The checks and the grammars -/

/-- The checks go by the grammars over the digits of all scripts, and by the rotations that round to at
most 360. They agree with the grammars over the digits from 0 to 9 and with the exact bound for the
requests that tell no difference, and for no others. -/
theorem Request.check_iff_grammar (r : Iiif.ImageRequest) (t : DeepZoom.TileRequest) :
    ((r.check = .ok () ↔ r.Follows isDecimalDigit Iiif.rotationLimit) ∧
      ((r.check = .ok () ↔ r.Follows isPlainDigit 360) ↔ (r.check = .ok () → r.IsPlain))) ∧
    (t.RefusesTile ↔
      allBlank t.image = false ∧ ¬ Pattern.tile.Matches isDecimalDigit t.tile.toList) ∧
    ((t.RefusesTile ↔
        allBlank t.image = false ∧ ¬ Pattern.tile.Matches isPlainDigit t.tile.toList) ↔
      (allBlank t.image = false → ¬ t.RefusesTile → Pattern.PlainDigits t.tile.toList)) := by
  refine ⟨⟨r.check_eq_ok_iff_follows, ?_⟩, t.refusesTile_iff, ?_⟩
  · rw [Iiif.ImageRequest.follows_isPlainDigit_iff, ← Iiif.ImageRequest.check_eq_ok_iff_follows,
      iff_self_and]
  · rw [Pattern.matches_isPlainDigit_iff (List.all_iff_forall_prop.1 (by decide)), t.refusesTile_iff]
    tauto

/-- A full turn is still allowed, and plain digits are digits to both. -/
theorem Request.check_iff_grammar_full_turn :
    let r : Iiif.ImageRequest := {
      identifier := "a", region := "pct:0,0,12.5,100", size := "^!40,30", rotation := "!360.0"
      quality := "gray", format := some "webp" }
    let t : DeepZoom.TileRequest := { image := "a", layer := 0, tile := "0_12" }
    (r.check = .ok () ∧ r.Follows isPlainDigit 360) ∧
    (¬ t.RefusesTile ∧ Pattern.tile.Matches isPlainDigit t.tile.toList) := by
  intro r t
  obtain ⟨⟨-, hagree⟩, -, htileAgree⟩ := Request.check_iff_grammar r t
  have hcheck : r.check = .ok () := by decide +kernel
  have hplain : r.IsPlain := by
    refine ⟨List.all_iff_forall_prop.1 (by decide), List.all_iff_forall_prop.1 (by decide), ?_⟩
    intro v hv
    have hwhole : isRunOf isPlainDigit ['3', '6', '0'] = true ∧ ofDigits ['3', '6', '0'] = 360 := by decide
    have hfraction : isRunOf isPlainDigit ['0'] = true ∧ ofDigits ['0'] = 0 := by decide
    have htext : r.rotation.toList = '!' :: (['3', '6', '0'] ++ '.' :: ['0']) := by decide
    rw [htext] at hv
    rw [hv.unique (.flipped (.pointed hwhole.1 hfraction.1)), hwhole.2, hfraction.2]
    exact .inl (by norm_num)
  have hok : t.check = .ok () := by decide +kernel
  have haccepted : ¬ t.RefusesTile := by
    rintro ⟨violation, hcheck, -⟩
    cases hok.symm.trans hcheck
  have htile := (htileAgree.2 fun _ _ => List.all_iff_forall_prop.1 (by decide)).not.1 haccepted
  have hnamed : allBlank t.image = false := by decide
  exact ⟨⟨hcheck, (hagree.2 fun _ => hplain).1 hcheck⟩, haccepted, by simpa [hnamed] using htile⟩

/-- Devanagari digits are taken for digits, and a rotation just above 360 for 360. -/
theorem Request.check_ne_grammar_devanagari :
    let r : Iiif.ImageRequest := {
      identifier := "a", region := "०,०,१,१", size := "max", rotation := "0", quality := "default" }
    let turned := { r with region := "full", rotation := "360.00000000000000001" }
    let tile : DeepZoom.TileRequest := { image := "a", layer := 0, tile := "०_०" }
    (r.check = .ok () ∧ ¬ r.Follows isPlainDigit 360) ∧
    (turned.check = .ok () ∧ ¬ turned.Follows isPlainDigit 360) ∧
    (¬ tile.RefusesTile ∧ ¬ Pattern.tile.Matches isPlainDigit tile.tile.toList) := by
  intro r turned tile
  refine ⟨⟨by decide +kernel, fun h => ?_⟩, ⟨by decide +kernel, fun h => ?_⟩, ?_, fun h => ?_⟩
  · exact h.region.not_mem (c := '१') (by decide) (by decide) (by decide)
  · obtain ⟨v, hv, hle⟩ := h.rotation
    let whole := ['3', '6', '0']
    let fraction := List.replicate 16 '0' ++ ['1']
    have hwhole : isRunOf isPlainDigit whole = true ∧ ofDigits whole = 360 := by decide
    have hfraction : isRunOf isPlainDigit fraction = true ∧ ofDigits fraction = 1 := by decide
    have htext : turned.rotation.toList = whole ++ '.' :: fraction := by decide
    rw [htext] at hv
    rw [hv.unique (.plain (.pointed hwhole.1 hfraction.1)), hwhole.2, hfraction.2] at hle
    have hpos : (0 : ℚ) < ((1 : Nat) : ℚ) / 10 ^ fraction.length := by positivity
    push_cast at hle hpos
    exact (lt_add_of_pos_right _ hpos).not_ge hle
  · rintro ⟨violation, hcheck, -⟩
    have hok : tile.check = .ok () := by decide +kernel
    cases hok.symm.trans hcheck
  · exact h.not_mem (c := '०') (by decide) (by decide) (by decide)

end ImageGate
