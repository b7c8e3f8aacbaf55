import ImageGate.Proofs.Backend.BelowBase
import ImageGate.Proofs.Number.PointedForm
import ImageGate.Proofs.Request.PathSplit
import ImageGate.Proofs.Request.RuleOrder

/-! The numbers at an address. Whatever numbers a caller asks for, the server reads them again: each numeral
of the address is a decimal to which the number of the request is the nearest single value. It also has a
point with digits on both sides, which some servers insist on, unless a contrast or a gamma is about
`10 ^ 15` or larger. -/
namespace ImageGate
open Text Number
set_option autoImplicit false

/-! ## Tokens at an address -/

/-- The tokens behind the first such mark. -/
def tokensBehind (mark : Char) (cs : List Char) : List Token :=
  match cs.dropWhile (· != mark) with
  | [] => []
  | _ :: query => readTokens query

theorem tokensBehind_queryText {path mark : String} {c : Char} (hmark : mark.toList = [c])
    (hpath : c ∉ path.toList) {tokens : List Token} (hplain : ∀ t ∈ tokens, t.IsPlain) :
    tokensBehind c (path ++ queryText mark tokens).toList = tokens := by
  have hskip : ∀ d ∈ path.toList, (d != c) = true := fun d hd => by
    rw [bne_iff_ne]
    rintro rfl
    exact hpath hd
  unfold tokensBehind
  rw [String.toList_append, List.dropWhile_append_of_pos hskip]
  cases tokens with
  | nil => rfl
  | cons t rest =>
    have hquery : (queryText mark (t :: rest)).toList
        = c :: ['&'].intercalate ((t :: rest).map fun u => u.text.toList) := by
      rw [toList_queryText, hmark, List.singleton_append]
    rw [hquery, List.dropWhile_cons, bne_self_eq_false, if_neg Bool.false_ne_true]
    exact readTokens_intercalate hplain (List.cons_ne_nil _ _)

namespace DeepZoom

/-- The options behind the image path. -/
def Server.optionsAt? (server : Server) (address : String) : Option (List Token) :=
  match server.addressing with
  | .path => (behind? server.base "/" address).map (tokensBehind '?')
  | .param => (behind? server.base "?DeepZoom=" address).map (tokensBehind '&')

theorem Server.optionsAt?_locate (server : Server) {path : String}
    (hpath : ∀ c, c = '?' ∨ c = '&' → c ∉ path.toList) {tokens : List Token}
    (hplain : ∀ t ∈ tokens, t.IsPlain) :
    server.optionsAt? (server.locate path ++ queryText server.optionMark tokens) = some tokens := by
  unfold optionsAt? locate optionMark
  cases server.addressing with
  | path =>
    simp only
    rw [String.append_assoc, behind?_append, Option.map_some,
      tokensBehind_queryText rfl (hpath _ (.inl rfl)) hplain]
  | param =>
    simp only
    rw [String.append_assoc, behind?_append, Option.map_some,
      tokensBehind_queryText rfl (hpath _ (.inr rfl)) hplain]

theorem TileRequest.optionsAt?_address (r : TileRequest) (server : Server) :
    server.optionsAt? (r.address server) = some r.tokens :=
  server.optionsAt?_locate (fun _ => r.mark_not_mem_path) r.isPlain_tokens

theorem DescriptorRequest.optionsAt?_address (r : DescriptorRequest) (server : Server) :
    server.optionsAt? (r.address server) = some [] := by
  have hplain : ∀ t ∈ ([] : List Token), t.IsPlain := nofun
  have hlocate := server.optionsAt?_locate (fun _ hc => mark_not_mem_encodeImagePath hc r.path) hplain
  rwa [queryText, String.append_empty] at hlocate

end DeepZoom

/-- The tokens that the server of a protocol finds at an address. -/
def Backends.tokensAt? (backends : Backends) (protocol : Protocol) (address : String) :
    Option (List Token) :=
  match protocol with
  | .iip => backends.iip.bind fun base => Iip.tokensAt? base address
  -- There is no query.
  | .iiif => some []
  | .deepZoom => backends.deepZoom.bind fun server => server.optionsAt? address

def Request.tokens : Request → List Token
  | iip r => r.tokens
  | deepZoomTile r => r.tokens
  | iiifImage _ | iiifInfo _ | deepZoomDescriptor _ => []

theorem Backends.tokensAt?_address {request : Request} {backends : Backends} {address : String}
    (haddress : request.address backends = .ok address) :
    backends.tokensAt? request.protocol address = some request.tokens := by
  cases request with
  | iip r =>
    obtain ⟨base, hbase, rfl⟩ := serverFor_eq_ok haddress
    simp only [Request.protocol, tokensAt?, hbase, Option.bind_some, Iip.tokensAt?_address, Request.tokens]
  | iiifImage r => rfl
  | iiifInfo r => rfl
  | deepZoomDescriptor r =>
    obtain ⟨server, hserver, rfl⟩ := serverFor_eq_ok haddress
    simp only [Request.protocol, tokensAt?, hserver, Option.bind_some, r.optionsAt?_address,
      Request.tokens]
  | deepZoomTile r =>
    obtain ⟨server, hserver, rfl⟩ := serverFor_eq_ok haddress
    simp only [Request.protocol, tokensAt?, hserver, Option.bind_some, r.optionsAt?_address,
      Request.tokens]

/-! ## Numerals -/

/-- What stands between the commas of a token of this name. -/
def Token.numerals (name : String) : Token → List (List Char)
  | .valued key text => if key = name then pieces ',' text.toList else []
  | .bare _ => []

/-- The tokens whose values are numbers with a fraction. -/
def numberNames : List String := ["RGN", "CNT", "GAM"]

theorem forall_mem_numberNames {P : String → Prop} :
    (∀ name ∈ numberNames, P name) ↔ P "RGN" ∧ P "CNT" ∧ P "GAM" := by
  simp [numberNames]

/-- The numbers of a request that a token of this name carries. -/
def Request.numbers (request : Request) (name : String) : List Single :=
  match request, name with
  | iip r, "RGN" => r.region.getD []
  | iip r, "CNT" => r.contrast.toList
  | iip r, "GAM" => r.gamma.toList
  | deepZoomTile r, "CNT" => r.contrast.toList
  | deepZoomTile r, "GAM" => r.gamma.toList
  | _, _ => []

theorem flatMap_numerals_given (name key : String) (value : Option String) :
    (Token.given key value).flatMap (Token.numerals name)
      = if key = name then value.toList.flatMap fun text => pieces ',' text.toList else [] := by
  cases value with
  | none => simp [Token.given]
  | some text => simp [Token.given, Token.numerals]

theorem flatMap_numerals_flag (name key : String) (isSet : Bool) :
    (Token.flag key isSet).flatMap (Token.numerals name) = [] := by
  cases isSet <;> rfl

theorem pieces_pointedTexts {values : List Single} (hne : values ≠ []) :
    pieces ',' (pointedTexts values).toList = values.map fun x => x.pointedText.toList := by
  have hcomma : ∀ text ∈ values.map fun x => x.pointedText.toList, ',' ∉ text := by
    rintro text htext hmem
    obtain ⟨x, -, rfl⟩ := List.mem_map.1 htext
    exact absurd (Binary.isNumeralChar_of_mem_pointedText hmem) (by decide)
  have hsep : ",".toList = [','] := rfl
  rw [pointedTexts, joined, String.toList_intercalate, hsep, List.map_map]
  exact pieces_intercalate hcomma (by simpa using hne)

theorem pieces_pointedText (value : Option Single) :
    ((value.map Binary.pointedText).toList.flatMap fun text => pieces ',' text.toList)
      = value.toList.map fun x => x.pointedText.toList := by
  cases value with
  | none => rfl
  | some x =>
    have hpieces := pieces_pointedTexts (List.cons_ne_nil x [])
    simpa [pointedTexts, joined] using hpieces

theorem mem_getD_nil {α : Type} {value : Option (List α)} {a : α} :
    a ∈ value.getD [] ↔ ∃ values ∈ value, a ∈ values := by
  cases value <;> simp

theorem numerals_tokens_iip {r : Iip.Request} (hregion : ∀ values ∈ r.region, values ≠ []) :
    ∀ name ∈ numberNames, r.tokens.flatMap (Token.numerals name)
      = ((Request.iip r).numbers name).map fun x => x.pointedText.toList := by
  have hvalues : (r.region.map pointedTexts).toList.flatMap (fun text => pieces ',' text.toList)
      = (r.region.getD []).map fun x => x.pointedText.toList := by
    cases hgiven : r.region with
    | none => rfl
    | some values => simpa using pieces_pointedTexts (hregion values hgiven)
  simp only [forall_mem_numberNames, Iip.Request.tokens, List.flatMap_append, flatMap_numerals_given,
    flatMap_numerals_flag, Request.numbers]
  refine ⟨?_, ?_, ?_⟩
  · simpa using hvalues
  · simpa using pieces_pointedText r.contrast
  · simpa using pieces_pointedText r.gamma

theorem numerals_tokens_tile (r : DeepZoom.TileRequest) :
    ∀ name ∈ numberNames, r.tokens.flatMap (Token.numerals name)
      = ((Request.deepZoomTile r).numbers name).map fun x => x.pointedText.toList := by
  simp only [forall_mem_numberNames, DeepZoom.TileRequest.tokens, List.flatMap_append,
    flatMap_numerals_given, flatMap_numerals_flag, Request.numbers]
  refine ⟨?_, ?_, ?_⟩
  · simp
  · simpa using pieces_pointedText r.contrast
  · simpa using pieces_pointedText r.gamma

/-! ## Numbers that were read -/

theorem forall_isFinite_of_forall₂ {texts : List (List Char)} {values : List Single}
    (h : List.Forall₂ (fun text => Trimmed (WritesFinite Format.single) (String.ofList text))
      texts values) :
    ∀ x ∈ values, x.isFinite = true := by
  induction h with
  | nil => exact nofun
  | cons hwrites _ ih => exact List.forall_mem_cons.2 ⟨hwrites.2, ih⟩

theorem isFinite_of_trimmed {text : Option String} {value : Option Single}
    (h : Option.Rel (Trimmed (WritesFinite Format.single)) text value) :
    ∀ x ∈ value, x.isFinite = true := by
  cases h with
  | none => exact nofun
  | some hwrites =>
    rintro x ⟨⟩
    exact hwrites.2

theorem isFinite_of_listed {text : Option String} {value : Option (List Single)}
    (h : Option.Rel (Listed (WritesFinite Format.single)) text value) :
    ∀ values ∈ value, ∀ x ∈ values, x.isFinite = true := by
  cases h with
  | none => exact nofun
  | some hwrites =>
    rintro values ⟨⟩
    exact forall_isFinite_of_forall₂ hwrites

theorem Iip.Request.HoldsLastValues.isFinite {r : Iip.Request} {query : Option String}
    (h : r.HoldsLastValues query) :
    ∀ name ∈ numberNames, ∀ x ∈ (Request.iip r).numbers name, x.isFinite = true := by
  refine forall_mem_numberNames.2 ⟨fun x hx => ?_, fun x hx => ?_, fun x hx => ?_⟩
  · obtain ⟨values, hvalues, hx⟩ := mem_getD_nil.1 hx
    exact isFinite_of_listed h.region values hvalues x hx
  · exact isFinite_of_trimmed h.contrast x (Option.mem_toList.1 hx)
  · exact isFinite_of_trimmed h.gamma x (Option.mem_toList.1 hx)

theorem DeepZoom.TileRequest.HoldsLastOptions.isFinite {r : DeepZoom.TileRequest}
    {query : Option String} (h : r.HoldsLastOptions query) :
    ∀ name ∈ numberNames, ∀ x ∈ (Request.deepZoomTile r).numbers name, x.isFinite = true := by
  refine forall_mem_numberNames.2 ⟨nofun, fun x hx => ?_, fun x hx => ?_⟩
  · exact isFinite_of_trimmed h.contrast x (Option.mem_toList.1 hx)
  · exact isFinite_of_trimmed h.gamma x (Option.mem_toList.1 hx)

theorem map_eq_ok {ε α β : Type} {f : α → β} {reading : Except ε α} {b : β}
    (h : f <$> reading = .ok b) : ∃ a, reading = .ok a ∧ f a = b := by
  cases reading with
  | error e => cases h
  | ok a => exact ⟨a, rfl, Except.ok.inj h⟩

theorem DeepZoom.exists_of_requestOfPath {path : String} {query : Option String} {request : Request}
    (h : requestOfPath path query = .ok request) :
    (∃ r, request = .deepZoomDescriptor r) ∨ ∃ r, request = .deepZoomTile r := by
  unfold requestOfPath at h
  simp only at h
  split at h
  · cases h
    exact .inl ⟨_, rfl⟩
  · split at h
    · obtain ⟨r, -, hr⟩ := map_eq_ok h
      exact .inr ⟨r, hr.symm⟩
    · cases h

/-- A number that has no nearest finite value is not read. -/
theorem isFinite_of_read {raw : RawRequest} {request : Request} (hread : raw.read = .ok request) :
    ∀ name ∈ numberNames, ∀ x ∈ request.numbers name, x.isFinite = true := by
  cases raw with
  | iip query =>
    obtain ⟨r, hquery, rfl⟩ := map_eq_ok hread
    have houtcome := Iip.Request.outcome_ofQuery query
    rw [hquery] at houtcome
    exact houtcome.means.isFinite
  | iiifImage =>
    cases hread
    exact fun _ _ => nofun
  | iiifInfo =>
    obtain ⟨r, -, rfl⟩ := map_eq_ok hread
    exact fun _ _ => nofun
  | deepZoom path query =>
    rcases DeepZoom.exists_of_requestOfPath hread with ⟨r, rfl⟩ | ⟨r, rfl⟩
    · exact fun _ _ => nofun
    · obtain ⟨-, layer, file, -, -, -, hoptions⟩ :=
        DeepZoom.exists_parts_of_tile (DeepZoom.isBehindSlashes_dropWhile path) hread
      exact hoptions.isFinite

/-! ## Numbers that were checked -/

theorem Iip.checkRegion_eq_ok_iff {exporting : Bool} {values : List Single} :
    checkRegion exporting values = .ok () ↔
      exporting = true ∧ values.length = 4 ∧ ∀ v ∈ values, isPart v = true := by
  rw [checkRegion, check_bind_eq_ok_iff, check_bind_eq_ok_iff, require_eq_ok_iff, require_eq_ok_iff,
    beq_iff_eq]
  refine and_congr_right fun _ => and_congr_right fun hcount => ?_
  exact forM_zip_require_eq_ok_iff _ isPart _ (by rw [hcount]; decide)

theorem Iip.abs_value_lt_of_isPart {x : Single} (hfinite : x.isFinite = true) (hpart : isPart x = true) :
    |x.value| < Binary.pointLimit := by
  obtain ⟨hnonneg, hle⟩ := (isPart_iff hfinite).1 hpart
  rw [abs_of_nonneg hnonneg]
  exact hle.trans_lt (by exact_mod_cast (by decide : 1 < Binary.pointLimit))

theorem Request.isPart_of_check {request : Request} (hcheck : request.check = .ok ()) :
    ∀ x ∈ request.numbers "RGN", Iip.isPart x = true := by
  cases request with
  | iip r =>
    intro x hx
    obtain ⟨values, hvalues, hx⟩ := mem_getD_nil.1 hx
    have hregion := (Iip.Request.check_eq_ok_iff.1 hcheck).region values hvalues
    exact (Iip.checkRegion_eq_ok_iff.1 hregion).2.2 x hx
  | iiifImage r | iiifInfo r | deepZoomDescriptor r | deepZoomTile r => exact nofun

theorem Request.numerals_tokens {request : Request} (hcheck : request.check = .ok ()) :
    ∀ name ∈ numberNames, request.tokens.flatMap (Token.numerals name)
      = (request.numbers name).map fun x => x.pointedText.toList := by
  cases request with
  | iip r =>
    refine numerals_tokens_iip fun values hvalues hempty => ?_
    have hregion := (Iip.Request.check_eq_ok_iff.1 hcheck).region values hvalues
    rw [hempty, Iip.checkRegion_eq_ok_iff] at hregion
    exact absurd hregion.2.1 (by decide)
  | deepZoomTile r => exact numerals_tokens_tile r
  | iiifImage r | iiifInfo r | deepZoomDescriptor r => exact fun _ _ => rfl

/-! ## Numerals at an address -/

/-- How the numerals of the tokens stand for the numbers of the request. -/
structure CarriesNumbers (request : Request) (tokens : List Token) : Prop where
  /-- In order, each numeral stands for its number. -/
  standsFor : ∀ name ∈ numberNames,
    List.Forall₂ Binary.StandsFor (tokens.flatMap (Token.numerals name)) (request.numbers name)
  /-- There are digits on both sides of a point, exactly if the number is not too large. -/
  pointed : ∀ name ∈ numberNames,
    List.Forall₂ (fun text x => IsPointed text ↔ |x.value| < (Binary.pointLimit : ℚ))
      (tokens.flatMap (Token.numerals name)) (request.numbers name)
  region : ∀ text ∈ tokens.flatMap (Token.numerals "RGN"), IsPointed text
  allPointed :
    (∀ name ∈ numberNames, ∀ text ∈ tokens.flatMap (Token.numerals name), IsPointed text) ↔
      ∀ name ∈ ["CNT", "GAM"], ∀ x ∈ request.numbers name, |x.value| < Binary.pointLimit

theorem Request.carriesNumbers {request : Request} (hcheck : request.check = .ok ())
    (hfinite : ∀ name ∈ numberNames, ∀ x ∈ request.numbers name, x.isFinite = true) :
    CarriesNumbers request request.tokens := by
  have hnumerals := request.numerals_tokens hcheck
  have hpointed : ∀ name ∈ numberNames, ∀ x ∈ request.numbers name,
      IsPointed x.pointedText.toList ↔ |x.value| < Binary.pointLimit := fun name hname x hx =>
    Binary.isPointed_pointedText_iff (hfinite name hname x hx)
  have hsmall : ∀ x ∈ request.numbers "RGN", |x.value| < Binary.pointLimit := fun x hx =>
    Iip.abs_value_lt_of_isPart (hfinite "RGN" (by decide) x hx) (isPart_of_check hcheck x hx)
  have hall : ∀ name ∈ numberNames,
      (∀ text ∈ request.tokens.flatMap (Token.numerals name), IsPointed text) ↔
        ∀ x ∈ request.numbers name, |x.value| < Binary.pointLimit := fun name hname => by
    rw [hnumerals name hname, List.forall_mem_map]
    exact forall₂_congr (hpointed name hname)
  constructor
  · intro name hname
    rw [hnumerals name hname, List.forall₂_map_left_iff, List.forall₂_same]
    exact fun x hx => Binary.standsFor_pointedText (hfinite name hname x hx)
  · intro name hname
    rw [hnumerals name hname, List.forall₂_map_left_iff, List.forall₂_same]
    exact hpointed name hname
  · exact (hall "RGN" (by decide)).2 hsmall
  · rw [forall₂_congr hall, forall_mem_numberNames]
    simp only [List.forall_mem_cons, List.not_mem_nil, IsEmpty.forall_iff, implies_true, and_true]
    exact and_iff_right hsmall

/-- Whatever a caller asks for, as soon as it is read and accepted. -/
theorem Request.numbers_readBack {raw : RawRequest} {request : Request} {backends : Backends}
    {address : String} (hread : raw.read = .ok request) (hcheck : request.check = .ok ())
    (haddress : request.address backends = .ok address) :
    ∃ tokens, backends.tokensAt? request.protocol address = some tokens ∧
      CarriesNumbers request tokens :=
  ⟨request.tokens, Backends.tokensAt?_address haddress,
    request.carriesNumbers hcheck (isFinite_of_read hread)⟩

/-- The smallest number of all, the zero below zero, and numbers that are rounded. -/
theorem Request.numbers_readBack_rounded :
    let raw : RawRequest := .iip (some "FIF=a&CVT=png&RGN=1e-45,-0,1,.3&CNT=1e14&GAM=-16777217")
    let request : Request := .iip {
      image := "a", exportAs := some "png"
      region := some [.ofRatio false 1 (10 ^ 45), .ofUnits true 0, .ofNat 1, .ofRatio false 3 10]
      contrast := some (.ofNat (10 ^ 14)), gamma := some (.ofRatio true 16777217 1) }
    let backends : Backends := { iip := some "http://b.test/iip" }
    let address := "http://b.test/iip?FIF=a"
      ++ "&RGN=0.000000000000000000000000000000000000000000001,-0.0,1.0,0.3"
      ++ "&CNT=100000000376832.0&GAM=-16777216.0&CVT=png"
    raw.read = .ok request ∧ request.check = .ok () ∧ request.address backends = .ok address ∧
      ∃ tokens, backends.tokensAt? request.protocol address = some tokens ∧
        CarriesNumbers request tokens := by
  intro raw request backends address
  have hread : raw.read = .ok request := by decide +kernel
  have hcheck : request.check = .ok () := by decide +kernel
  have haddress : request.address backends = .ok address := by decide +kernel
  exact ⟨hread, hcheck, haddress, numbers_readBack hread hcheck haddress⟩

/-- A large contrast is written without a point. -/
theorem Request.numbers_not_pointed :
    let raw : RawRequest := .iip (some "FIF=a&CNT=1310720000000000")
    let request : Request := .iip { image := "a", contrast := some (.ofNat 1310720000000000) }
    let backends : Backends := { iip := some "http://b.test/iip" }
    let address := "http://b.test/iip?FIF=a&CNT=1310720000000000&CVT=jpeg"
    raw.read = .ok request ∧ request.check = .ok () ∧ request.address backends = .ok address ∧
      ∃ tokens, backends.tokensAt? request.protocol address = some tokens ∧
        ∃ text ∈ tokens.flatMap (Token.numerals "CNT"), ¬ IsPointed text := by
  intro raw request backends address
  have haddress : request.address backends = .ok address := by decide +kernel
  have htext : "1310720000000000".toList ∈ request.tokens.flatMap (Token.numerals "CNT") := by
    decide +kernel
  refine ⟨by decide +kernel, by decide +kernel, haddress, request.tokens,
    Backends.tokensAt?_address haddress, _, htext, fun hpointed => ?_⟩
  exact absurd hpointed.point_mem (by decide)

end ImageGate
