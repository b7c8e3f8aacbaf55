import ImageGate.Proofs.Number.ExactValue
import ImageGate.Proofs.Request.Accepted
import ImageGate.Fault

/-! The order of rules. A check goes through the rules of its protocol one after the other and reports
the first that is broken: it passes exactly if all of them are kept, and otherwise names the field of
the first broken one, whatever else is wrong. The rules of the Internet Imaging Protocol are stated
here in their own words, numbers by their exact values. -/
namespace ImageGate
open Text Number
set_option autoImplicit false

/-! ## Rules and reports -/

/-- A rule for a request, and the field that is at fault where it is broken. -/
structure Rule where
  field : String
  Kept : Prop

/-- The check says what the first broken one of these rules demands. -/
inductive Reports : List Rule → Check → Prop where
  | kept : Reports [] (.ok ())
  | next {rule : Rule} {rules : List Rule} {check : Check} (hkept : rule.Kept)
      (hrest : Reports rules check) : Reports (rule :: rules) check
  | broken {rule : Rule} {rules : List Rule} {violation : Violation} (hbroken : ¬ rule.Kept)
      (hfield : violation.field = rule.field) : Reports (rule :: rules) (.error violation)

namespace Reports
variable {rules before after : List Rule} {rule : Rule} {check : Check}

theorem eq_ok_iff (h : Reports rules check) : check = .ok () ↔ ∀ rule ∈ rules, rule.Kept := by
  induction h with
  | kept => simp
  | next hkept _ ih => rw [List.forall_mem_cons, ih, and_iff_right hkept]
  | broken hbroken => exact iff_of_false nofun fun hall => hbroken (hall _ List.mem_cons_self)

theorem exists_violation (h : Reports (before ++ rule :: after) check)
    (hbefore : ∀ earlier ∈ before, earlier.Kept) (hbroken : ¬ rule.Kept) :
    ∃ violation, check = .error violation ∧ violation.field = rule.field := by
  induction before with
  | nil =>
    cases h with
    | next hkept => exact absurd hkept hbroken
    | broken _ hfield => exact ⟨_, rfl, hfield⟩
  | cons earlier before ih =>
    obtain ⟨hearlier, hrest⟩ := List.forall_mem_cons.1 hbefore
    cases h with
    | next _ h => exact ih h hrest
    | broken hnot => exact absurd hearlier hnot

/-- A complaint is about the field of one of the rules. -/
theorem field_mem {violation : Violation} (h : Reports rules (.error violation)) :
    violation.field ∈ rules.map Rule.field := by
  generalize hcheck : (.error violation : Check) = check at h
  induction h with
  | kept => cases hcheck
  | next _ _ ih => exact List.mem_cons_of_mem _ (ih hcheck)
  | broken _ hfield =>
    cases hcheck
    rw [hfield]
    exact List.mem_cons_self

/-- Complaints about a field with a single rule. -/
theorem exists_about_iff (h : Reports (before ++ rule :: after) check)
    (hbefore : rule.field ∉ before.map Rule.field) (hafter : rule.field ∉ after.map Rule.field) :
    (∃ violation, check = .error violation ∧ violation.field = rule.field) ↔
      (∀ earlier ∈ before, earlier.Kept) ∧ ¬ rule.Kept := by
  refine ⟨?_, fun ⟨hkept, hbroken⟩ => h.exists_violation hkept hbroken⟩
  rintro ⟨violation, rfl, hfield⟩
  induction before with
  | nil =>
    cases h with
    | next _ hrest => exact absurd (hfield ▸ hrest.field_mem) hafter
    | broken hbroken => exact ⟨nofun, hbroken⟩
  | cons earlier before ih =>
    rw [List.map_cons, List.mem_cons, not_or] at hbefore
    cases h with
    | next hkept hrest =>
      obtain ⟨hall, hbroken⟩ := ih hbefore.2 hrest
      exact ⟨List.forall_mem_cons.2 ⟨hkept, hall⟩, hbroken⟩
    | broken _ hearlier => exact absurd (hfield.symm.trans hearlier) hbefore.1

/-- The later checks run where the earlier rules are kept, so they may rely on them. -/
theorem bind {first : Check} {rest : Unit → Check} (hfirst : Reports before first)
    (hrest : (∀ rule ∈ before, rule.Kept) → Reports after (rest ())) :
    Reports (before ++ after) (first >>= rest) := by
  induction hfirst with
  | kept => exact hrest nofun
  | next hkept _ ih =>
    exact .next hkept (ih fun hall => hrest (List.forall_mem_cons.2 ⟨hkept, hall⟩))
  | broken hbroken hfield => exact .broken hbroken hfield

/-- One more rule in front. -/
theorem cons {first : Check} {rest : Unit → Check} (hfirst : Reports [rule] first)
    (hrest : rule.Kept → Reports rules (rest ())) : Reports (rule :: rules) (first >>= rest) :=
  hfirst.bind fun hkept => hrest (hkept rule List.mem_cons_self)

theorem require {holds : Bool} {violation : Violation} (hholds : holds = true ↔ rule.Kept)
    (hfield : violation.field = rule.field) : Reports [rule] (require holds violation) := by
  cases holds with
  | true => exact .next (hholds.1 rfl) .kept
  | false => exact .broken (fun hkept => Bool.false_ne_true (hholds.2 hkept)) hfield

/-- A check that is a rule of its own. -/
theorem of_eq_ok_iff (hok : check = .ok () ↔ rule.Kept)
    (hfield : ∀ violation, check = .error violation → violation.field = rule.field) :
    Reports [rule] check := by
  cases check with
  | ok u => exact .next (hok.1 rfl) .kept
  | error violation =>
    exact .broken (fun hkept => nomatch hok.2 hkept) (hfield violation rfl)

/-- Rules about a value that is given are kept where none is. -/
theorem given {α : Type} {value : Option α} {Kept : α → Prop} {field : String} {check : α → Check}
    (h : ∀ v ∈ value, Reports [⟨field, Kept v⟩] (check v)) :
    Reports [⟨field, ∀ v ∈ value, Kept v⟩] (checkGiven value check) := by
  cases value with
  | none => exact .next nofun .kept
  | some v =>
    have hsome : (∀ u ∈ some v, Kept u) = Kept v := by simp
    rw [hsome]
    exact h v rfl

end Reports

/-! ## Rules that protocols share -/

theorem exists_not_blank_iff {s : String} :
    (!allBlank s) = true ↔ ∃ c ∈ s.toList, isBlank c = false := by
  rw [Bool.not_eq_true', allBlank, List.all_eq_false]
  simp only [Bool.not_eq_true]

theorem allBlank_eq_false_iff {s : String} :
    allBlank s = false ↔ ∃ c ∈ s.toList, isBlank c = false := by
  rw [← exists_not_blank_iff, Bool.not_eq_true']

theorem reports_checkIdentifier (field value : String) :
    Reports [⟨field, ∃ c ∈ value.toList, isBlank c = false⟩] (checkIdentifier field value) :=
  .require exists_not_blank_iff rfl

theorem reports_checkOneOf (field : String) (allowed : List String) (value : String) :
    Reports [⟨field, value ∈ allowed⟩] (checkOneOf field allowed value) :=
  .require List.contains_iff_mem rfl

theorem holds_zero : Format.single.Holds (0 * 2 ^ Format.single.unit) := by decide +kernel

theorem holds_one : Format.single.Holds (1 * 2 ^ Format.single.unit) := by decide +kernel

theorem value_zero : (Binary.ofNat 0 : Single).value = 0 := by
  rw [Binary.value_ofNat holds_zero, Nat.cast_zero]

theorem value_one : (Binary.ofNat 1 : Single).value = 1 := by
  rw [Binary.value_ofNat holds_one, Nat.cast_one]

theorem isNegative_iff {x : Single} (h : x.isFinite = true) : isNegative x = true ↔ x.value < 0 := by
  rw [isNegative, Binary.lt_iff_value_lt h (Binary.isFinite_ofNat holds_zero), value_zero]

theorem reports_checkContrast {contrast : Option Single}
    (hfinite : ∀ c ∈ contrast, c.isFinite = true) :
    Reports [⟨"CNT", ∀ c ∈ contrast, 0 ≤ c.value⟩] (checkContrast contrast) :=
  .given fun c hc => .require (by
    rw [Bool.not_eq_true', ← Bool.not_eq_true, isNegative_iff (hfinite c hc), not_lt]) rfl

/-! ## Checks about one field -/

/-- Whatever the check reports is about this field. -/
def IsAbout (field : String) (check : Check) : Prop :=
  ∀ violation, check = .error violation → violation.field = field

namespace IsAbout
variable {field : String}

theorem require {holds : Bool} {violation : Violation} (hfield : violation.field = field) :
    IsAbout field (require holds violation) := by
  intro other h
  cases holds with
  | true => cases h
  | false =>
    cases h
    exact hfield

theorem bind {first : Check} {rest : Unit → Check} (hfirst : IsAbout field first)
    (hrest : IsAbout field (rest ())) : IsAbout field (first >>= rest) := by
  cases first with
  | ok u => exact hrest
  | error violation => exact hfirst

theorem forM {α : Type} {values : List α} {check : α → Check}
    (h : ∀ v ∈ values, IsAbout field (check v)) : IsAbout field (values.forM check) := by
  induction values with
  | nil => exact nofun
  | cons v values ih =>
    obtain ⟨hv, hvalues⟩ := List.forall_mem_cons.1 h
    exact .bind hv (ih hvalues)

end IsAbout

/-- Of several requirements the first one that fails is reported. -/
theorem exists_find?_of_forM {α : Type} {values : List α} {holds : α → Bool}
    {broken : α → Violation} {violation : Violation}
    (h : values.forM (fun v => ImageGate.require (holds v) (broken v)) = .error violation) :
    ∃ v, values.find? (fun v => !holds v) = some v ∧ violation = broken v := by
  induction values with
  | nil => cases h
  | cons v values ih =>
    have hstep : (ImageGate.require (holds v) (broken v) >>= fun _ =>
        values.forM fun v => ImageGate.require (holds v) (broken v)) = .error violation := h
    cases hv : holds v with
    | false =>
      rw [hv] at hstep
      cases hstep
      exact ⟨v, List.find?_cons_of_pos (by rw [hv]; rfl), rfl⟩
    | true =>
      rw [hv] at hstep
      rw [List.find?_cons_of_neg (by rw [hv]; nofun)]
      exact ih hstep

/-- Of requirements on named parts the first one that fails is reported under its name. -/
theorem forM_zip_require {names : List String} {name : String} {good rest : List (List Char)}
    {value : List Char} {holds : List Char → Bool} (broken : String → List Char → Violation)
    (hname : names[good.length]? = some name) (hgood : ∀ v ∈ good, holds v = true)
    (hvalue : holds value = false) :
    (names.zip (good ++ value :: rest)).forM
      (fun (name, v) => ImageGate.require (holds v) (broken name v)) = .error (broken name value) := by
  induction good generalizing names with
  | nil =>
    cases names with
    | nil => cases hname
    | cons first names =>
      cases hname
      simp [ImageGate.require, hvalue, bind, Except.bind]
  | cons v good ih =>
    cases names with
    | nil => cases hname
    | cons first names =>
      obtain ⟨hv, hgood⟩ := List.forall_mem_cons.1 hgood
      have hrest := ih hname hgood
      simpa [ImageGate.require, hv, bind, Except.bind] using hrest

/-- The outcome is this complaint. -/
def Complains {α : Type} (outcome : Except Violation α) (complaint : Complaint) : Prop :=
  ∃ violation, outcome = .error violation ∧ Fault.ofViolation violation = .argument complaint

theorem isAbout_checkTwistRows (whole : String) (row : Nat) (rows : List (List Char)) :
    IsAbout "CTW" (checkTwistRows whole row rows) := by
  induction rows generalizing row with
  | nil => exact nofun
  | cons cs rows ih =>
    have hrow : IsAbout "CTW" (checkTwistRow whole row cs) :=
      .bind (.require rfl) (.forM fun _ _ => .require rfl)
    exact .bind hrow (ih (row + 1))

theorem isAbout_checkTwistText (twist : String) : IsAbout "CTW" (checkTwistText twist) := by
  unfold checkTwistText
  split
  · intro violation h
    cases h
    rfl
  · exact isAbout_checkTwistRows twist 1 _

/-! ## Internet Imaging Protocol -/

namespace Iip

/-- The output parameters that are given, the tiles before the export. -/
def Request.outputField (r : Request) : String :=
  ",".intercalate
    ([("JTL", r.jpegTile.isSome), ("PTL", r.pngTile.isSome), ("CVT", r.exportAs.isSome)].filterMap
      fun (name, isGiven) => if isGiven then some name else none)

/-- The first part of a profile that is no number, or else the profile as a whole. -/
def Request.profileField (r : Request) : String :=
  match r.profile.bind fun p => profileParts? p.toList with
  | some parts =>
    (((profileComponents.zip parts).find? fun part => !isProfileNumber part.2).map (·.1)).getD "PFL"
  | none => "PFL"

/-- From zero to one. -/
def IsShare (x : Single) : Prop := 0 ≤ x.value ∧ x.value ≤ 1

/-- The rules of the protocol in the order in which they count. -/
def Request.rules (r : Request) : List Rule :=
  [⟨"FIF", ∃ c ∈ r.image.toList, isBlank c = false⟩,
    ⟨r.outputField, ¬ (r.jpegTile.isSome ∧ r.pngTile.isSome) ∧
      ¬ (r.jpegTile.isSome ∧ r.exportAs.isSome) ∧ ¬ (r.pngTile.isSome ∧ r.exportAs.isSome)⟩,
    ⟨"CVT", ∀ format ∈ r.exportAs, format = "jpeg" ∨ format = "jpg" ∨ format = "png"⟩,
    ⟨"JTL", ∀ index ∈ r.jpegTile, index.length = 2⟩,
    ⟨"PTL", ∀ index ∈ r.pngTile, index.length = 2⟩,
    ⟨"WID", r.width.isSome → r.exportAs.isSome⟩,
    ⟨"HEI", r.height.isSome → r.exportAs.isSome⟩,
    ⟨"RGN", r.region.isSome → r.exportAs.isSome⟩,
    ⟨"RGN", ∀ values ∈ r.region, values.length = 4⟩,
    ⟨"x", ∀ values ∈ r.region, ∀ x ∈ values[0]?, IsShare x⟩,
    ⟨"y", ∀ values ∈ r.region, ∀ y ∈ values[1]?, IsShare y⟩,
    ⟨"w", ∀ values ∈ r.region, ∀ w ∈ values[2]?, IsShare w⟩,
    ⟨"h", ∀ values ∈ r.region, ∀ h ∈ values[3]?, IsShare h⟩,
    ⟨"QLT", ∀ quality ∈ r.quality,
      0 ≤ quality ∧ if r.exportAs = some "png" ∨ r.pngTile.isSome then quality ≤ 9 else quality ≤ 100⟩,
    ⟨"CNT", ∀ c ∈ r.contrast, 0 ≤ c.value⟩,
    ⟨"ROT", ∀ turn ∈ r.rotation, turn ∈ ["0", "90", "180", "270", "!0", "!90", "!180", "!270"]⟩,
    ⟨"CMP", ∀ name ∈ r.colormap, name ∈ ["GREY", "JET", "COLD", "HOT", "RED", "GREEN", "BLUE"]⟩,
    ⟨r.profileField, ∀ p ∈ r.profile, checkProfile p = .ok ()⟩,
    ⟨"CTW", ∀ t ∈ r.twist, checkTwistText t = .ok ()⟩,
    ⟨"COL", ∀ name ∈ r.colorSpace, name ∈ ["grey", "gray", "binary"]⟩]

/-- No number of the request is infinite or none at all. -/
structure Request.IsFinite (r : Request) : Prop where
  region : ∀ values ∈ r.region, ∀ v ∈ values, v.isFinite = true
  contrast : ∀ c ∈ r.contrast, c.isFinite = true
  gamma : ∀ g ∈ r.gamma, g.isFinite = true

theorem isPart_iff {x : Single} (h : x.isFinite = true) : isPart x = true ↔ IsShare x := by
  rw [isPart, Bool.and_eq_true, Binary.le_iff_value_le (Binary.isFinite_ofNat holds_zero) h,
    Binary.le_iff_value_le h (Binary.isFinite_ofNat holds_one), value_zero, value_one, IsShare]

theorem reports_checkRegion (exporting : Bool) {values : List Single}
    (hfinite : ∀ v ∈ values, v.isFinite = true) :
    Reports [⟨"RGN", exporting = true⟩, ⟨"RGN", values.length = 4⟩,
        ⟨"x", ∀ x ∈ values[0]?, IsShare x⟩, ⟨"y", ∀ y ∈ values[1]?, IsShare y⟩,
        ⟨"w", ∀ w ∈ values[2]?, IsShare w⟩, ⟨"h", ∀ h ∈ values[3]?, IsShare h⟩]
      (checkRegion exporting values) := by
  refine .cons (.require Iff.rfl rfl) fun _ => .cons (.require beq_iff_eq rfl) fun hcount => ?_
  obtain ⟨x, y, w, h, rfl⟩ := List.length_eq_four.1 hcount
  have hpart : ∀ v ∈ [x, y, w, h], isPart v = true ↔ ∀ u ∈ some v, IsShare u := fun v hv => by
    rw [isPart_iff (hfinite v hv)]
    simp
  exact .cons (.require (hpart x (by simp)) rfl) fun _ => .cons (.require (hpart y (by simp)) rfl)
    fun _ => .cons (.require (hpart w (by simp)) rfl) fun _ =>
      .cons (.require (hpart h (by simp)) rfl) fun _ => .kept

/-- A region that is not given breaks no rule. -/
theorem Request.reports_region (r : Request) (hfinite : r.IsFinite) :
    Reports [⟨"RGN", r.region.isSome → r.exportAs.isSome⟩,
        ⟨"RGN", ∀ values ∈ r.region, values.length = 4⟩,
        ⟨"x", ∀ values ∈ r.region, ∀ x ∈ values[0]?, IsShare x⟩,
        ⟨"y", ∀ values ∈ r.region, ∀ y ∈ values[1]?, IsShare y⟩,
        ⟨"w", ∀ values ∈ r.region, ∀ w ∈ values[2]?, IsShare w⟩,
        ⟨"h", ∀ values ∈ r.region, ∀ h ∈ values[3]?, IsShare h⟩]
      (checkGiven r.region (checkRegion r.exportAs.isSome)) := by
  cases hregion : r.region with
  | none => exact .next nofun (.next nofun (.next nofun (.next nofun (.next nofun (.next nofun .kept)))))
  | some values =>
    have hvalues : ∀ v ∈ values, v.isFinite = true := hfinite.region values hregion
    simpa [checkGiven] using reports_checkRegion r.exportAs.isSome hvalues

theorem reports_needsExport (field : String) (value : Option Nat) (exporting : Bool) :
    Reports [⟨field, value.isSome → exporting⟩]
      (checkGiven value fun v => require exporting (.needsExport field v)) := by
  cases value with
  | none => exact .next nofun .kept
  | some v => exact .require ⟨fun h _ => h, fun h => h rfl⟩ rfl

theorem reports_checkQuality (output : Output) (quality : Int) :
    Reports [⟨"QLT", 0 ≤ quality ∧ quality ≤ match output with | .png => 9 | .jpeg => 100⟩]
      (checkQuality output quality) := by
  refine .of_eq_ok_iff ?_ ?_
  · cases output <;>
      simp only [checkQuality, check_bind_eq_ok_iff, require_eq_ok_iff, decide_eq_true_eq]
  · have habout : IsAbout "QLT" (checkQuality output quality) :=
      .bind (.require rfl) (by cases output <;> exact .require rfl)
    exact habout

/-- Next to a tile there is no export, so the kind of tile says what is written. -/
theorem Request.output_eq_png_iff (r : Request)
    (halone : ¬ (r.pngTile.isSome = true ∧ r.exportAs.isSome = true)) :
    r.output = .png ↔ r.exportAs = some "png" ∨ r.pngTile.isSome := by
  unfold Request.output
  cases hexport : r.exportAs with
  | none => simp [Option.isSome_iff_ne_none]
  | some format =>
    rw [hexport, Option.isSome_some, and_iff_left rfl] at halone
    simp [halone]

theorem Request.outputField_eq (r : Request) : joined "," r.outputNames = r.outputField := by
  unfold outputNames outputField
  cases r.jpegTile.isSome <;> cases r.pngTile.isSome <;> cases r.exportAs.isSome <;> rfl

theorem Request.length_outputNames_le_iff (r : Request) :
    r.outputNames.length ≤ 1 ↔ ¬ (r.jpegTile.isSome = true ∧ r.pngTile.isSome = true) ∧
      ¬ (r.jpegTile.isSome = true ∧ r.exportAs.isSome = true) ∧
      ¬ (r.pngTile.isSome = true ∧ r.exportAs.isSome = true) := by
  unfold outputNames
  cases r.jpegTile.isSome <;> cases r.pngTile.isSome <;> cases r.exportAs.isSome <;> decide

theorem Request.isAbout_profileField (r : Request) :
    IsAbout r.profileField (checkGiven r.profile checkProfile) := by
  intro violation h
  cases hprofile : r.profile with
  | none =>
    rw [hprofile] at h
    cases h
  | some p =>
    rw [hprofile, checkGiven, checkProfile] at h
    rw [profileField, hprofile, Option.bind_some]
    split at h
    · next hparts =>
      cases h
      rw [hparts]
      rfl
    · next parts hparts =>
      obtain ⟨pair, hpair, rfl⟩ := exists_find?_of_forM h
      simp only [hparts]
      rw [hpair]
      rfl

/-- The check of a request reports the first broken rule. -/
theorem Request.reports_check {r : Request} (hfinite : r.IsFinite) : Reports r.rules r.check := by
  refine .cons (reports_checkIdentifier "FIF" r.image) fun _ => ?_
  refine .cons (.require (decide_eq_true_iff.trans r.length_outputNames_le_iff) r.outputField_eq)
    fun halone => ?_
  refine .cons (.given fun format _ => .require ?_ rfl) fun _ => ?_
  · simp [exportFormats]
  refine .cons (.given fun index _ => .require beq_iff_eq rfl) fun _ => ?_
  refine .cons (.given fun index _ => .require beq_iff_eq rfl) fun _ => ?_
  refine .cons (reports_needsExport "WID" r.width _) fun _ => ?_
  refine .cons (reports_needsExport "HEI" r.height _) fun _ => ?_
  refine .bind (r.reports_region hfinite) fun _ => ?_
  have hpng := r.output_eq_png_iff halone.2.2
  refine .cons (.given fun quality _ => ?_) fun _ => ?_
  · have hquality := reports_checkQuality r.output quality
    cases houtput : r.output with
    | png => simpa [hpng.1 houtput, houtput] using hquality
    | jpeg =>
      have hjpeg := mt hpng.2 (by rw [houtput]; nofun)
      simpa [hjpeg, houtput] using hquality
  refine .cons (reports_checkContrast hfinite.contrast) fun _ => ?_
  refine .cons (.given fun turn _ => reports_checkOneOf "ROT" rotations turn) fun _ => ?_
  refine .cons (.given fun name _ => reports_checkOneOf "CMP" colormaps name) fun _ => ?_
  refine .cons (.of_eq_ok_iff checkGiven_eq_ok_iff r.isAbout_profileField) fun _ => ?_
  refine .cons (.given fun t _ => .of_eq_ok_iff Iff.rfl (isAbout_checkTwistText t)) fun _ => ?_
  exact .given fun name _ => reports_checkOneOf "COL" colorSpaces name

end Iip

/-- A request passes exactly if it keeps every rule of the protocol, and otherwise the complaint is
about the field of the first rule that it breaks. -/
theorem Iip.Request.check_firstBroken {r : Request} (hfinite : r.IsFinite) :
    (r.check = .ok () ↔ ∀ rule ∈ r.rules, rule.Kept) ∧
    ∀ before rule after, r.rules = before ++ rule :: after →
      (∀ earlier ∈ before, earlier.Kept) → ¬ rule.Kept →
      ∃ violation complaint, r.check = .error violation ∧
        Fault.ofViolation violation = .argument complaint ∧ complaint.field = rule.field := by
  have hreports := reports_check hfinite
  refine ⟨hreports.eq_ok_iff, fun before rule after hrules hbefore hbroken => ?_⟩
  rw [hrules] at hreports
  obtain ⟨violation, hcheck, hfield⟩ := hreports.exists_violation hbefore hbroken
  exact ⟨violation, _, hcheck, rfl, hfield⟩

/-- The height of the region is at fault before the quality, which is too high for PNG. -/
theorem Iip.Request.check_firstBroken_region_height :
    let r : Request := {
      image := "a", exportAs := some "png", quality := some 10
      region := some [.ofNat 0, .ofNat 1, .ofNat 1, .ofNat 2] }
    r.IsFinite ∧ ∃ violation complaint, r.check = .error violation ∧
      Fault.ofViolation violation = .argument complaint ∧ complaint.field = "h" := by
  intro r
  have hholds : Format.single.Holds (2 * 2 ^ Format.single.unit) := by decide +kernel
  have htwo : (Binary.ofNat 2 : Single).value = 2 := by
    rw [Binary.value_ofNat hholds, Nat.cast_ofNat]
  have hfinite : r.IsFinite := by
    refine ⟨fun values hvalues => ?_, nofun, nofun⟩
    cases hvalues
    simp only [List.forall_mem_cons, List.not_mem_nil, IsEmpty.forall_iff, implies_true, and_true]
    have hone : (Binary.ofNat 1 : Single).isFinite = true := Binary.isFinite_ofNat holds_one
    exact ⟨Binary.isFinite_ofNat holds_zero, hone, hone, Binary.isFinite_ofNat hholds⟩
  refine ⟨hfinite, (check_firstBroken hfinite).2 (r.rules.take 12) _ (r.rules.drop 13) rfl ?_ ?_⟩
  · have hvisible : isBlank 'a' = false := by decide
    simp [rules, r, IsShare, value_zero, value_one, hvisible]
  · simp [r, IsShare, htwo]

end ImageGate
