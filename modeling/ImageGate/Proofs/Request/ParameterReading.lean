import ImageGate.Proofs.Backend.AddressReading
import ImageGate.Proofs.Number.ReadingBack
import ImageGate.Proofs.Text.FormReading
import ImageGate.Request.Reading

/-! Parameters from the options of an address, and names of files. Every token is one entry, read by the
rules of a form, and of the entries under a name the last one counts. A value that was written for a
parameter is the one that the reader of its kind gives. -/
namespace ImageGate
open Text Number
set_option autoImplicit false

/-! ## Blanks -/

theorem isBlank_of_isNumeralChar {c : Char} (h : isNumeralChar c = true) : isBlank c = false := by
  rw [isNumeralChar, Bool.or_eq_true] at h
  rcases h with h | h
  · simp only [isPlainDigit, Bool.and_eq_true, decide_eq_true_eq] at h
    have h0 : '0'.toNat = 0x30 := rfl
    have h9 : '9'.toNat = 0x39 := rfl
    simp [isBlank]
    omega
  · have hwords : ['-', '.', 'N', 'a', 'i', 'n', 'f'].all (fun c => !isBlank c) = true := by decide
    have hc := List.all_eq_true.1 hwords c (List.contains_iff_mem.1 h)
    simpa using hc

theorem mem_trimChars {cs : List Char} {c : Char} (hc : c ∈ cs) (h : isBlank c = false) :
    c ∈ trimChars cs := by
  rw [trimChars, trimRight, List.mem_reverse]
  apply mem_dropWhile_of_not _ h
  rw [List.mem_reverse]
  exact mem_dropWhile_of_not hc h

theorem trimChars_of_not_blank {cs : List Char} (h : ∀ c ∈ cs, isBlank c = false) :
    trimChars cs = cs := by
  have hkept : ∀ ds : List Char, (∀ c ∈ ds, isBlank c = false) → ds.dropWhile isBlank = ds := by
    intro ds hds
    cases ds with
    | nil => rfl
    | cons d ds => rw [List.dropWhile_cons, hds d List.mem_cons_self]; rfl
  rw [trimChars, trimLeft, hkept cs h, trimRight, hkept, List.reverse_reverse]
  intro c hc
  exact h c (List.mem_reverse.1 hc)

theorem allBlank_of_mem {s : String} {c : Char} (hc : c ∈ s.toList) (h : isBlank c = false) :
    allBlank s = false := by
  apply Bool.eq_false_iff.2
  intro hall
  rw [allBlank, List.all_eq_true] at hall
  exact Bool.false_ne_true (h.symm.trans (hall c hc))

theorem allBlank_pointedText (x : Single) : allBlank (Binary.pointedText x) = false := by
  obtain ⟨c, hlast, -⟩ := Binary.endsIn_pointedText x
  have hmem := List.mem_of_getLast? hlast
  exact allBlank_of_mem hmem (isBlank_of_isNumeralChar (Binary.isNumeralChar_of_mem_pointedText hmem))

/-! ## Entries -/

namespace Parameters

/-- The entry of a value that is given. -/
def entry (name : String) (value : Option String) : List (String × String) :=
  (value.map (Prod.mk name)).toList

theorem last?_append (a b : List (String × String)) (name : String) :
    last? ⟨a ++ b⟩ name = (last? ⟨b⟩ name).or (last? ⟨a⟩ name) := by
  simp only [last?, List.reverse_append, List.find?_append]
  cases List.find? (fun e => e.1 == name) b.reverse <;> rfl

theorem last?_entry (name other : String) (value : Option String) :
    last? ⟨entry name value⟩ other = if name = other then value else none := by
  cases value with
  | none => simp [entry, last?]
  | some v => by_cases h : name = other <;> simp [entry, last?, h]

/-- What a query tells by one of its tokens. -/
def ofToken (t : Token) : List (String × String) :=
  (Form.pairs t.text).map fun pair => (upperName pair.1, pair.2)

theorem entries_ofQuery_optionText? (tokens : List Token) :
    (ofQuery (optionText? tokens)).entries = tokens.flatMap ofToken := by
  -- The first token has no ampersand in front, so the induction is on its own text of a query.
  have hpairs : ∀ tokens, Form.pairs (queryText "" tokens)
      = tokens.flatMap fun t => Form.pairs t.text := by
    intro tokens
    induction tokens with
    | nil => rfl
    | cons t rest ih =>
      cases rest with
      | nil => simp [queryText]
      | cons u rest =>
        have hsplit : queryText "" (t :: u :: rest) = t.text ++ "&" ++ queryText "" (u :: rest) := by
          simp [queryText, String.append_assoc]
        rw [hsplit, Form.pairs_append, ih]
        rfl
  have hquery : (optionText? tokens).getD "" = queryText "" tokens := by
    cases tokens <;> rfl
  rw [ofQuery, hquery, hpairs, List.map_flatMap]
  rfl

/-- A name in upper case that stands for itself. -/
structure IsName (name : String) : Prop where
  query : IsQueryText name
  plain : Form.plain (Utf8.bytes name) = name
  upper : upperName name = name
  ne : name ≠ ""

instance (name : String) : Decidable (IsName name) :=
  decidable_of_iff (IsQueryText name ∧ Form.plain (Utf8.bytes name) = name ∧ upperName name = name ∧
    name ≠ "") ⟨fun ⟨query, plain, upper, ne⟩ => ⟨query, plain, upper, ne⟩,
      fun h => ⟨h.query, h.plain, h.upper, h.ne⟩⟩

theorem flatMap_ofToken_given {α : Type} {name : String} (hname : IsName name) {f g : α → String}
    (hf : ∀ a, IsQueryText (f a)) (hfg : ∀ a, Form.plain (Utf8.bytes (f a)) = g a)
    (value : Option α) :
    (Token.given name (value.map f)).flatMap ofToken = entry name (value.map g) := by
  cases value with
  | none => rfl
  | some a =>
    have hplain : (Token.valued name (f a)).IsPlain := ⟨hname.query, hf a⟩
    have hmark : '&' ∉ (Token.valued name (f a)).text.toList :=
      Token.not_mem_text hplain (by decide) (by decide)
    have hne : (Token.valued name (f a)).text ≠ "" := by
      intro h
      have hmem : '=' ∈ (Token.valued name (f a)).text.toList := by
        simp [Token.text, String.toList_append]
      rw [h] at hmem
      cases hmem
    have hpair := Form.pair_valued (hname.query.not_mem (c := '=') (by decide)) (f a)
    show ofToken (.valued name (f a)) ++ [] = [(name, g a)]
    rw [List.append_nil, ofToken, Form.pairs_of_not_mem hmark hne, List.map_singleton, Token.text,
      hpair, hname.plain, hfg, hname.upper]

theorem flatMap_ofToken_flag {name : String} (hname : IsName name) (isSet : Bool) :
    (Token.flag name isSet).flatMap ofToken = entry name (if isSet then some "" else none) := by
  cases isSet with
  | false => rfl
  | true =>
    have hmark : '&' ∉ name.toList := hname.query.not_mem (by decide)
    have hpair := Form.pair_bare (hname.query.not_mem (c := '=') (by decide))
    show ofToken (.bare name) ++ [] = [(name, "")]
    rw [List.append_nil, ofToken, Token.text, Form.pairs_of_not_mem hmark hname.ne,
      List.map_singleton, hpair, hname.plain, hname.upper]

/-! ## Readers -/

variable {ps : Parameters} {name : String}

theorem text?_eq {value : Option String} (h : ps.last? name = value)
    (hblank : ∀ v ∈ value, allBlank v = false) : ps.text? name = value := by
  rw [text?, h]
  cases value with
  | none => rfl
  | some v =>
    apply Option.filter_some_pos
    rw [hblank v rfl]
    rfl

theorem number_eq {value : Option Single} (h : ps.last? name = value.map Binary.pointedText)
    (hfinite : ∀ x ∈ value, x.isFinite = true) : ps.number name = .ok value := by
  have htext : ps.text? name = value.map Binary.pointedText := by
    apply text?_eq h
    intro v hv
    obtain ⟨x, -, rfl⟩ := Option.map_eq_some_iff.1 hv
    exact allBlank_pointedText x
  unfold number optional
  rw [htext]
  cases value with
  | none => rfl
  | some x =>
    have htrim : trimChars (Binary.pointedText x).toList = (Binary.pointedText x).toList :=
      trimChars_of_not_blank fun c hc =>
        isBlank_of_isNumeralChar (Binary.isNumeralChar_of_mem_pointedText hc)
    have hread : readFinite? (trimChars (Binary.pointedText x).toList) = some x := by
      rw [htrim, readFinite?, Binary.read?_pointedText (hfinite x rfl)]
      exact Option.filter_some_pos (hfinite x rfl)
    simp only [Option.map_some, readAs, hread]
    rfl

theorem flag_eq {isSet : Bool} (h : ps.last? name = if isSet then some "" else none) :
    ps.flag name = .ok isSet := by
  have htrim : trim "" = "" := rfl
  have hlower : lowerAsciiText "" = "" := rfl
  unfold flag
  rw [h]
  cases isSet with
  | false => rfl
  | true =>
    simp only [if_true, Option.map_some, htrim, hlower]

end Parameters

/-! ## Values -/

theorem plain_of_isQueryText {s meant : String} (h : IsQueryText s)
    (hmeant : Percent.Writes (Utf8.bytes s) meant) : Form.plain (Utf8.bytes s) = meant := by
  apply Form.plain_of_writes
  rw [Form.map_spacedByte_bytes (h.not_mem (by decide))]
  exact hmeant

theorem plain_encodeComponent (s : String) :
    Form.plain (Utf8.bytes (encodeComponent s)) = Percent.decodeText s :=
  plain_of_isQueryText (isQueryText_encodeComponent s)
    (Percent.writes_encode Percent.isKeepable_isUnreserved _)

theorem plain_pointedText (x : Single) :
    Form.plain (Utf8.bytes (Binary.pointedText x)) = Binary.pointedText x := by
  apply plain_of_isQueryText (isQueryText_pointedText x)
  apply Percent.writes_of_percent_not_mem
  intro hmem
  exact absurd (Binary.isNumeralChar_of_mem_pointedText hmem) (by decide)

/-! ## File names -/

/-- The last dot of a file is the one in front of an extension without dots. -/
theorem splitExtension_append {extension : String} (hpoint : '.' ∉ extension.toList)
    (hne : extension ≠ "") (stem : String) :
    splitExtension (stem ++ "." ++ extension) = (stem, some extension) := by
  have hlist : (stem ++ "." ++ extension).toList = stem.toList ++ '.' :: extension.toList := by
    simp [String.toList_append]
  obtain ⟨c, rest, hextension⟩ : ∃ c rest, extension.toList = c :: rest := by
    apply List.exists_cons_of_ne_nil
    rwa [ne_eq, String.toList_eq_nil_iff]
  unfold splitExtension
  rw [hlist, cutLast_append_cons hpoint, hextension]
  show (String.ofList stem.toList, some (String.ofList (c :: rest))) = (stem, some extension)
  rw [← hextension, String.ofList_toList, String.ofList_toList]

end ImageGate
