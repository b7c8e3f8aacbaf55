import ImageGate.Proofs.Request.ParameterReading

/-! A query means the last values of its parameters. Which value is the last one is said here on the pairs
of the query, and for every typed parameter which texts are of its type. Reading goes through the parts
of the typed values in a fixed order, stops at the first that is not of its type and reports it; where all
are, the request holds the last values and nothing else. So neither the order of the pairs nor unknown
names nor earlier values matter. -/
namespace ImageGate
open Text Number
set_option autoImplicit false

/-! ## Last values -/

/-- Names are the same in either case of their letters. -/
def lastValue? (query : Option String) (name : String) : Option String :=
  ((Form.pairs (query.getD "")).reverse.find? fun pair =>
    lowerAsciiText pair.1 == lowerAsciiText name).map (·.2)

/-- The last value, unless it is blank. -/
def filledValue? (query : Option String) (name : String) : Option String :=
  (lastValue? query name).filter fun value => value.toList.any fun c => !isBlank c

def Iip.parameterNames : List String :=
  ["FIF", "WID", "HEI", "RGN", "QLT", "CNT", "ROT", "GAM", "CMP", "PFL", "CTW", "INV", "COL", "JTL",
    "PTL", "CVT"]

namespace Parameters

theorem case_table : ∀ n < 0x80,
    lowerAscii (upperAscii (Char.ofNat n)) = lowerAscii (Char.ofNat n) ∧
      upperAscii (lowerAscii (Char.ofNat n)) = upperAscii (Char.ofNat n) := by
  decide +kernel

theorem case_of_high {c : Char} (h : ¬ c.toNat < 0x80) : lowerAscii c = c ∧ upperAscii c = c := by
  have hZ : 'Z'.toNat = 0x5a := rfl
  have hz : 'z'.toNat = 0x7a := rfl
  constructor
  · refine if_neg fun hletter => ?_
    rw [Bool.and_eq_true, decide_eq_true_eq, decide_eq_true_eq] at hletter
    omega
  · refine if_neg fun hletter => ?_
    rw [Bool.and_eq_true, decide_eq_true_eq, decide_eq_true_eq] at hletter
    omega

theorem lowerAscii_upperAscii (c : Char) : lowerAscii (upperAscii c) = lowerAscii c := by
  by_cases h : c.toNat < 0x80
  · have htable := (case_table c.toNat h).1
    rwa [Char.ofNat_toNat] at htable
  · rw [(case_of_high h).2]

theorem upperAscii_lowerAscii (c : Char) : upperAscii (lowerAscii c) = upperAscii c := by
  by_cases h : c.toNat < 0x80
  · have htable := (case_table c.toNat h).2
    rwa [Char.ofNat_toNat] at htable
  · rw [(case_of_high h).1]

/-- Comparing in upper case and comparing in lower case are the same. -/
theorem upperName_eq_iff {s name : String} (hname : upperName name = name) :
    upperName s = name ↔ lowerAsciiText s = lowerAsciiText name := by
  constructor
  · rintro rfl
    rw [lowerAsciiText, lowerAsciiText, upperName, String.toList_ofList, List.map_map]
    refine congrArg String.ofList (List.map_congr_left fun c _ => ?_)
    exact (lowerAscii_upperAscii c).symm
  · intro h
    have hlower : s.toList.map lowerAscii = name.toList.map lowerAscii := String.ofList_injective h
    have hupper := congrArg (List.map upperAscii) hlower
    simp only [List.map_map, Function.comp_def, upperAscii_lowerAscii] at hupper
    rw [← hname, upperName, upperName, hupper]

/-- The value that the reader of a query takes is the last one of that name. -/
theorem last?_ofQuery {name : String} (hname : upperName name = name) (query : Option String) :
    (ofQuery query).last? name = lastValue? query name := by
  have hentries : (ofQuery query).entries
      = (Form.pairs (query.getD "")).map fun pair => (upperName pair.1, pair.2) := rfl
  rw [last?, hentries, lastValue?, ← List.map_reverse, List.find?_map, Option.map_map]
  have hsame : ((fun e : String × String => e.1 == name) ∘
      fun pair : String × String => (upperName pair.1, pair.2))
      = fun pair => lowerAsciiText pair.1 == lowerAsciiText name := by
    funext pair
    exact Bool.eq_iff_iff.2 (by simp [upperName_eq_iff hname])
  rw [hsame]
  rfl

theorem text?_ofQuery {name : String} (hname : upperName name = name) (query : Option String) :
    (ofQuery query).text? name = filledValue? query name := by
  rw [text?, last?_ofQuery hname, filledValue?]
  refine congrArg (fun keep => Option.filter keep _) (funext fun value => ?_)
  rw [allBlank, List.not_all_eq_any_not]

end Parameters

/-! ## Types -/

/-- Digits of a number that fits into the bits, with a plus sign in front or without. -/
def WritesNatural (bits : Nat) (cs : List Char) (n : Nat) : Prop :=
  ∃ digits, isRunOf isPlainDigit digits = true ∧ (cs = digits ∨ cs = '+' :: digits) ∧
    n = ofDigits digits ∧ n < 2 ^ bits

/-- Digits with a sign in front or without, of a number that fits into the bits. -/
def WritesInteger (bits : Nat) (cs : List Char) (i : Int) : Prop :=
  (∃ digits, isRunOf isPlainDigit digits = true ∧
    ((cs = digits ∨ cs = '+' :: digits) ∧ i = ofDigits digits ∨
      cs = '-' :: digits ∧ i = -(ofDigits digits : Int))) ∧
    -(2 ^ (bits - 1) : Int) ≤ i ∧ i < 2 ^ (bits - 1)

/-- A number that has a nearest finite value. -/
def WritesFinite (F : Format) (cs : List Char) (x : Binary F) : Prop :=
  Binary.read? F cs = some x ∧ x.isFinite = true

/-- Nothing or a word for the truth value. -/
def WritesFlag (cs : List Char) (isSet : Bool) : Prop :=
  lowerAsciiText (String.ofList cs) ∈ if isSet then ["", "true"] else ["false"]

namespace Parameters

theorem cons_ne_run {sign : Char} (hsign : isPlainDigit sign = false) {rest digits : List Char}
    (hrun : isRunOf isPlainDigit digits = true) : sign :: rest ≠ digits := by
  rintro rfl
  exact not_mem_run hsign hrun List.mem_cons_self

theorem readNat?_eq_some_iff {bits : Nat} {cs : List Char} {n : Nat} :
    readNat? (2 ^ bits) cs = some n ↔ WritesNatural bits cs n := by
  unfold readNat? WritesNatural
  rw [Option.filter_eq_some_iff, readDigits?_eq_some_iff, decide_eq_true_eq]
  constructor
  · rintro ⟨⟨hrun, rfl⟩, hlt⟩
    refine ⟨_, hrun, ?_, rfl, hlt⟩
    split
    · exact .inr rfl
    · exact .inl rfl
  · rintro ⟨digits, hrun, rfl | rfl, rfl, hlt⟩
    · split
      · next rest =>
        have hne : '+' :: rest ≠ '+' :: rest := cons_ne_run (by decide) hrun
        exact absurd rfl hne
      · exact ⟨⟨hrun, rfl⟩, hlt⟩
    · exact ⟨⟨hrun, rfl⟩, hlt⟩

theorem exists_digits_iff {cs : List Char} {P : Int → Prop} :
    (∃ i, (do let n ← readDigits? cs; pure (n : Int)) = some i ∧ P i) ↔
      isRunOf isPlainDigit cs = true ∧ P (ofDigits cs) := by
  cases hrun : isRunOf isPlainDigit cs <;> simp [readDigits?, hrun]

theorem readInt?_eq_some_iff {bits : Nat} {cs : List Char} {i : Int} :
    readInt? bits cs = some i ↔ WritesInteger bits cs i := by
  unfold readInt? WritesInteger
  rw [Option.filter_eq_some_iff, Bool.and_eq_true, decide_eq_true_eq, decide_eq_true_eq]
  refine and_congr_left fun _ => ?_
  split
  · next rest =>
    rw [Option.map_eq_some_iff, exists_digits_iff]
    constructor
    · rintro ⟨hrun, rfl⟩
      exact ⟨rest, hrun, .inr ⟨rfl, rfl⟩⟩
    · rintro ⟨digits, hrun, ⟨hcs | hcs, -⟩ | ⟨hcs, rfl⟩⟩
      · exact absurd hcs (cons_ne_run (by decide) hrun)
      · cases hcs
      · cases hcs
        exact ⟨hrun, rfl⟩
  · next rest =>
    rw [Option.map_eq_some_iff, exists_digits_iff]
    constructor
    · rintro ⟨hrun, rfl⟩
      exact ⟨rest, hrun, .inl ⟨.inr rfl, rfl⟩⟩
    · rintro ⟨digits, hrun, ⟨hcs | hcs, rfl⟩ | ⟨hcs, -⟩⟩
      · exact absurd hcs (cons_ne_run (by decide) hrun)
      · cases hcs
        exact ⟨hrun, rfl⟩
      · cases hcs
  · next hminus hplus =>
    rw [Option.map_eq_some_iff, exists_digits_iff]
    constructor
    · rintro ⟨hrun, rfl⟩
      exact ⟨cs, hrun, .inl ⟨.inl rfl, rfl⟩⟩
    · rintro ⟨digits, hrun, ⟨rfl | hcs, rfl⟩ | ⟨hcs, -⟩⟩
      · exact ⟨hrun, rfl⟩
      · exact absurd hcs (hplus digits)
      · exact absurd hcs (hminus digits)

theorem readFinite?_eq_some_iff {cs : List Char} {x : Single} :
    readFinite? cs = some x ↔ WritesFinite Format.single cs x := by
  rw [readFinite?, Option.filter_eq_some_iff]
  rfl

end Parameters

/-! ## Parts of values -/

/-- A part of a value that is read by itself: the parameter, what is written, and whether that is of the
parameter's type. -/
structure Part where
  field : String
  text : String
  Fits : Prop

/-- Reading goes through the parts, stops at the first that does not fit and reports it. Where all fit,
it gives a value of which this holds. -/
inductive Outcome {α : Type} (Means : α → Prop) : List Part → Parameters.Reading α → Prop where
  | done {value : α} (h : Means value) : Outcome Means [] (.ok value)
  | next {part : Part} {parts : List Part} {reading : Parameters.Reading α} (hfits : part.Fits)
      (hrest : Outcome Means parts reading) : Outcome Means (part :: parts) reading
  | broken {part : Part} {parts : List Part} {violation : Violation} (hbroken : ¬ part.Fits)
      (hfield : violation.field = part.field) (hvalue : violation.value? = some part.text) :
      Outcome Means (part :: parts) (.error violation)

namespace Outcome
open Parameters
variable {α β : Type} {Means : α → Prop} {MeansNext : β → Prop} {parts after : List Part}
  {reading : Reading α}

theorem exists_error_iff (h : Outcome Means parts reading) :
    (∃ violation, reading = .error violation) ↔ ∃ part ∈ parts, ¬ part.Fits := by
  induction h with
  | done => simp
  | next hfits _ ih => simp [ih, hfits]
  | broken hbroken => exact iff_of_true ⟨_, rfl⟩ ⟨_, List.mem_cons_self, hbroken⟩

theorem exists_violation {before : List Part} {part : Part}
    (h : Outcome Means (before ++ part :: after) reading) (hbefore : ∀ earlier ∈ before, earlier.Fits)
    (hbroken : ¬ part.Fits) : ∃ violation, reading = .error violation ∧
      violation.field = part.field ∧ violation.value? = some part.text := by
  induction before with
  | nil =>
    cases h with
    | next hfits => exact absurd hfits hbroken
    | broken _ hfield hvalue => exact ⟨_, rfl, hfield, hvalue⟩
  | cons earlier before ih =>
    obtain ⟨hearlier, hrest⟩ := List.forall_mem_cons.1 hbefore
    cases h with
    | next _ h => exact ih h hrest
    | broken hnot => exact absurd hearlier hnot

theorem means {value : α} (h : Outcome Means parts (.ok value)) : Means value := by
  generalize hreading : Except.ok value = reading at h
  induction h with
  | done h =>
    cases hreading
    exact h
  | next _ _ ih => exact ih hreading
  | broken => cases hreading

theorem bind {rest : α → Reading β} (h : Outcome Means parts reading)
    (hrest : ∀ value, Means value → Outcome MeansNext after (rest value)) :
    Outcome MeansNext (parts ++ after) (reading >>= rest) := by
  induction h with
  | done h => exact hrest _ h
  | next hfits _ ih => exact .next hfits ih
  | broken hbroken hfield hvalue => exact .broken hbroken hfield hvalue

end Outcome

/-! ## Readers -/

/-- What a text means that is read without the blanks around it. -/
def Trimmed {α : Type} (Writes : List Char → α → Prop) (text : String) (value : α) : Prop :=
  Writes (trimChars text.toList) value

/-- What a text means that is a list of texts between commas. -/
def Listed {α : Type} (Writes : List Char → α → Prop) (text : String) (values : List α) : Prop :=
  List.Forall₂ (fun piece => Trimmed Writes (String.ofList piece)) (pieces ',' text.toList) values

def Part.trimmed {α : Type} (Writes : List Char → α → Prop) (name text : String) : List Part :=
  [⟨name, text, ∃ value, Trimmed Writes text value⟩]

def Part.listed {α : Type} (Writes : List Char → α → Prop) (name text : String) : List Part :=
  (pieces ',' text.toList).flatMap fun piece => Part.trimmed Writes name (String.ofList piece)

/-- The parts of a parameter whose blank values count as none. -/
def Part.filled (query : Option String) (name : String)
    (partsOf : String → String → List Part) : List Part :=
  (filledValue? query name).toList.flatMap (partsOf name)

/-- A flag is set by its bare name; without its name it is not set. -/
def MeansFlag (value : Option String) (isSet : Bool) : Prop :=
  match value with
  | none => isSet = false
  | some text => Trimmed WritesFlag text isSet

def Part.flag (name text : String) : Part := ⟨name, trim text, ∃ isSet, Trimmed WritesFlag text isSet⟩

namespace Parameters
variable {α : Type} {name : String} {kind : ValueKind} {read : List Char → Option α}
  {Writes : List Char → α → Prop}

theorem outcome_readAs (hread : ∀ cs value, read cs = some value ↔ Writes cs value) (text : String) :
    Outcome (Trimmed Writes text) (Part.trimmed Writes name text) (readAs name kind read text) := by
  unfold readAs
  cases h : read (trimChars text.toList) with
  | some value =>
    have hwrites : Trimmed Writes text value := (hread _ _).1 h
    exact .next ⟨value, hwrites⟩ (.done hwrites)
  | none =>
    refine .broken ?_ rfl rfl
    rintro ⟨value, hwrites⟩
    cases h.symm.trans ((hread _ _).2 hwrites)

theorem outcome_readList (hread : ∀ cs value, read cs = some value ↔ Writes cs value)
    (text : String) :
    Outcome (Listed Writes text) (Part.listed Writes name text)
      (readList (readAs name kind read) text) := by
  unfold readList Listed Part.listed
  induction pieces ',' text.toList with
  | nil => exact .done .nil
  | cons piece rest ih =>
    rw [List.flatMap_cons, List.map_cons, List.mapM_cons]
    refine (outcome_readAs hread (String.ofList piece)).bind fun value hvalue => ?_
    rw [← List.append_nil (List.flatMap _ rest)]
    exact ih.bind fun values hvalues => .done (.cons hvalue hvalues)

theorem outcome_optional {read : String → Reading α} {Means : String → α → Prop}
    {partsOf : String → List Part} (hname : upperName name = name)
    (hread : ∀ text, Outcome (Means text) (partsOf text) (read text)) (query : Option String) :
    Outcome (Option.Rel Means (filledValue? query name))
      ((filledValue? query name).toList.flatMap partsOf) ((ofQuery query).optional name read) := by
  unfold optional
  rw [text?_ofQuery hname]
  cases filledValue? query name with
  | none => exact .done .none
  | some text =>
    rw [Option.toList_some, List.flatMap_singleton, ← List.append_nil (partsOf text)]
    exact (hread text).bind fun value hvalue => .done (.some hvalue)

variable (hname : upperName name = name) (query : Option String)
include hname

theorem outcome_natural :
    Outcome (Option.Rel (Trimmed (WritesNatural wordBits)) (filledValue? query name))
      (Part.filled query name (Part.trimmed (WritesNatural wordBits)))
      ((ofQuery query).natural name) :=
  outcome_optional hname (outcome_readAs fun _ _ => readNat?_eq_some_iff) query

theorem outcome_integer :
    Outcome (Option.Rel (Trimmed (WritesInteger wordBits)) (filledValue? query name))
      (Part.filled query name (Part.trimmed (WritesInteger wordBits)))
      ((ofQuery query).integer name) :=
  outcome_optional hname (outcome_readAs fun _ _ => readInt?_eq_some_iff) query

theorem outcome_integers :
    Outcome (Option.Rel (Listed (WritesInteger wordBits)) (filledValue? query name))
      (Part.filled query name (Part.listed (WritesInteger wordBits)))
      ((ofQuery query).integers name) :=
  outcome_optional hname (outcome_readList fun _ _ => readInt?_eq_some_iff) query

theorem outcome_number :
    Outcome (Option.Rel (Trimmed (WritesFinite Format.single)) (filledValue? query name))
      (Part.filled query name (Part.trimmed (WritesFinite Format.single)))
      ((ofQuery query).number name) :=
  outcome_optional hname (outcome_readAs fun _ _ => readFinite?_eq_some_iff) query

theorem outcome_numbers :
    Outcome (Option.Rel (Listed (WritesFinite Format.single)) (filledValue? query name))
      (Part.filled query name (Part.listed (WritesFinite Format.single)))
      ((ofQuery query).numbers name) :=
  outcome_optional hname (outcome_readList fun _ _ => readFinite?_eq_some_iff) query

theorem outcome_flag :
    Outcome (MeansFlag (lastValue? query name)) ((lastValue? query name).toList.map (Part.flag name))
      ((ofQuery query).flag name) := by
  unfold flag
  rw [last?_ofQuery hname]
  cases lastValue? query name with
  | none => exact .done rfl
  | some text =>
    have hset : ∀ isSet, lowerAsciiText (trim text) ∈ (if isSet then ["", "true"] else ["false"]) →
        Outcome (MeansFlag (some text)) [Part.flag name text] (.ok isSet) :=
      fun isSet hwrites => .next ⟨isSet, hwrites⟩ (.done hwrites)
    rw [Option.map_some, Option.toList_some, List.map_singleton]
    dsimp only
    split
    · next hword => exact hset true (by simp [hword])
    · next hword => exact hset true (by simp [hword])
    · next hword => exact hset false (by simp [hword])
    · next hbare htrue hfalse =>
      refine .broken ?_ rfl rfl
      rintro ⟨isSet, hwrites⟩
      have hmem : lowerAsciiText (trim text) ∈ if isSet then ["", "true"] else ["false"] := hwrites
      cases isSet with
      | false => exact hfalse (List.mem_singleton.1 hmem)
      | true =>
        rcases List.mem_cons.1 hmem with hword | hword
        · exact hbare hword
        · exact htrue (List.mem_singleton.1 hword)

end Parameters

/-! ## Queries for images -/

/-- The parts that are read for a type, in the order of reading. -/
def Iip.typedParts (query : Option String) : List Part :=
  Part.filled query "WID" (Part.trimmed (WritesNatural 64))
    ++ Part.filled query "HEI" (Part.trimmed (WritesNatural 64))
    ++ Part.filled query "RGN" (Part.listed (WritesFinite Format.single))
    ++ Part.filled query "QLT" (Part.trimmed (WritesInteger 64))
    ++ Part.filled query "CNT" (Part.trimmed (WritesFinite Format.single))
    ++ Part.filled query "GAM" (Part.trimmed (WritesFinite Format.single))
    ++ (lastValue? query "INV").toList.map (Part.flag "INV")
    ++ Part.filled query "JTL" (Part.listed (WritesInteger 64))
    ++ Part.filled query "PTL" (Part.listed (WritesInteger 64))

/-- The request holds the last values of the query: a text as it is written, any other value as its text is
read. -/
structure Iip.Request.HoldsLastValues (r : Iip.Request) (query : Option String) : Prop where
  image : r.image = (filledValue? query "FIF").getD ""
  width : Option.Rel (Trimmed (WritesNatural 64)) (filledValue? query "WID") r.width
  height : Option.Rel (Trimmed (WritesNatural 64)) (filledValue? query "HEI") r.height
  region : Option.Rel (Listed (WritesFinite Format.single)) (filledValue? query "RGN") r.region
  quality : Option.Rel (Trimmed (WritesInteger 64)) (filledValue? query "QLT") r.quality
  contrast : Option.Rel (Trimmed (WritesFinite Format.single)) (filledValue? query "CNT") r.contrast
  rotation : r.rotation = filledValue? query "ROT"
  gamma : Option.Rel (Trimmed (WritesFinite Format.single)) (filledValue? query "GAM") r.gamma
  colormap : r.colormap = filledValue? query "CMP"
  profile : r.profile = filledValue? query "PFL"
  twist : r.twist = filledValue? query "CTW"
  invert : MeansFlag (lastValue? query "INV") r.invert
  colorSpace : r.colorSpace = filledValue? query "COL"
  jpegTile : Option.Rel (Listed (WritesInteger 64)) (filledValue? query "JTL") r.jpegTile
  pngTile : Option.Rel (Listed (WritesInteger 64)) (filledValue? query "PTL") r.pngTile
  exportAs : r.exportAs = filledValue? query "CVT"

open Parameters in
theorem Iip.Request.outcome_ofQuery (query : Option String) :
    Outcome (fun r => r.HoldsLastValues query) (Iip.typedParts query) (Iip.Request.ofQuery query) := by
  unfold Iip.Request.ofQuery Iip.typedParts
  simp only [List.append_assoc]
  refine (outcome_natural (by decide) query).bind fun width hwidth => ?_
  refine (outcome_natural (by decide) query).bind fun height hheight => ?_
  refine (outcome_numbers (by decide) query).bind fun region hregion => ?_
  refine (outcome_integer (by decide) query).bind fun quality hquality => ?_
  refine (outcome_number (by decide) query).bind fun contrast hcontrast => ?_
  refine (outcome_number (by decide) query).bind fun gamma hgamma => ?_
  refine (outcome_flag (by decide) query).bind fun invert hinvert => ?_
  refine (outcome_integers (by decide) query).bind fun jpegTile hjpegTile => ?_
  rw [← List.append_nil (Part.filled query "PTL" _)]
  refine (outcome_integers (by decide) query).bind fun pngTile hpngTile => ?_
  exact .done {
    image := congrArg (fun text => text.getD "") (text?_ofQuery (by decide) query)
    width := hwidth, height := hheight, region := hregion, quality := hquality
    contrast := hcontrast
    rotation := text?_ofQuery (by decide) query
    gamma := hgamma
    colormap := text?_ofQuery (by decide) query
    profile := text?_ofQuery (by decide) query
    twist := text?_ofQuery (by decide) query
    invert := hinvert
    colorSpace := text?_ofQuery (by decide) query
    jpegTile := hjpegTile, pngTile := hpngTile
    exportAs := text?_ofQuery (by decide) query }

open Parameters in
theorem Iip.Request.ofQuery_congr {query other : Option String}
    (h : ∀ name ∈ Iip.parameterNames, lastValue? query name = lastValue? other name) :
    Iip.Request.ofQuery query = Iip.Request.ofQuery other := by
  have hlast : ∀ name ∈ Iip.parameterNames,
      (Parameters.ofQuery query).last? name = (Parameters.ofQuery other).last? name := by
    intro name hmem
    have hname : upperName name = name :=
      (by decide : ∀ name ∈ Iip.parameterNames, upperName name = name) name hmem
    rw [last?_ofQuery hname, last?_ofQuery hname, h name hmem]
  unfold Iip.Request.ofQuery natural integer integers number numbers Parameters.optional text? flag
  simp (disch := decide) only [hlast]

/-- Queries with the same last values are the same request or the same refusal. A query is refused exactly
if some part of a last value is not of its type, and then the first such part is reported. A request that is
read holds the last values. -/
theorem Iip.Request.ofQuery_last_values :
    (∀ query other,
      (∀ name ∈ Iip.parameterNames, lastValue? query name = lastValue? other name) →
        Iip.Request.ofQuery query = Iip.Request.ofQuery other) ∧
    (∀ query, (∃ violation, Iip.Request.ofQuery query = .error violation) ↔
      ∃ part ∈ Iip.typedParts query, ¬ part.Fits) ∧
    (∀ query before part after, Iip.typedParts query = before ++ part :: after →
      (∀ earlier ∈ before, earlier.Fits) → ¬ part.Fits →
        ∃ violation, Iip.Request.ofQuery query = .error violation ∧
          violation.field = part.field ∧ violation.value? = some part.text) ∧
    ∀ query r, Iip.Request.ofQuery query = .ok r → r.HoldsLastValues query := by
  refine ⟨fun query other => Iip.Request.ofQuery_congr, fun query => ?_, ?_, ?_⟩
  · exact (Iip.Request.outcome_ofQuery query).exists_error_iff
  · intro query before part after hparts hbefore hbroken
    have houtcome := Iip.Request.outcome_ofQuery query
    rw [hparts] at houtcome
    exact houtcome.exists_violation hbefore hbroken
  · intro query r hread
    have houtcome := Iip.Request.outcome_ofQuery query
    rw [hread] at houtcome
    exact houtcome.means

/-- Repeated names, letters in either case, escapes and an unknown name change nothing; of two bad values
the one is reported that is read first. -/
theorem Iip.Request.ofQuery_last_values_respelled :
    Iip.Request.ofQuery (some "wid=7&FIF=a%2Fb&x=1&WID=%3220&QLT=5&INV=no&qLt=&inv")
        = Iip.Request.ofQuery (some "Inv=&qlt&wId=220&fif=a/b") ∧
      (∃ violation, Iip.Request.ofQuery (some "JTL=x&INV=+Maybe&HEI=5") = .error violation ∧
        violation.field = "INV" ∧ violation.value? = some "Maybe") := by
  refine ⟨Iip.Request.ofQuery_last_values.1 _ _ (by decide +kernel), ?_⟩
  have hvalues : ["WID", "HEI", "RGN", "QLT", "CNT", "GAM", "JTL", "PTL"].map
      (filledValue? (some "JTL=x&INV=+Maybe&HEI=5"))
        = [none, some "5", none, none, none, none, some "x", none] := by decide +kernel
  have hinv : lastValue? (some "JTL=x&INV=+Maybe&HEI=5") "INV" = some " Maybe" := by decide +kernel
  simp only [List.map_cons, List.map_nil, List.cons.injEq, and_true] at hvalues
  obtain ⟨hwid, hhei, hrgn, hqlt, hcnt, hgam, hjtl, hptl⟩ := hvalues
  refine Iip.Request.ofQuery_last_values.2.2.1 _ (Part.trimmed (WritesNatural 64) "HEI" "5")
    (Part.flag "INV" " Maybe") (Part.listed (WritesInteger 64) "JTL" "x") ?_ ?_ ?_
  · simp only [Iip.typedParts, Part.filled, hwid, hhei, hrgn, hqlt, hcnt, hgam, hjtl, hptl, hinv]
    simp
  · intro part hpart
    rw [Part.trimmed, List.mem_singleton] at hpart
    rw [hpart]
    exact ⟨5, ['5'], by decide, .inl (by decide), by decide, by decide⟩
  · rintro ⟨isSet, hwrites⟩
    revert hwrites
    unfold Trimmed WritesFlag
    revert isSet
    decide +kernel

end ImageGate
