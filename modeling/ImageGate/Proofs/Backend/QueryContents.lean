import ImageGate.Proofs.Backend.AddressReading

/-! What the query of the Internet Imaging Protocol carries. Cut at its ampersands, each token cut
at its first equals sign and every part percent-decoded, the query gives the parameters of the
request in their order and nothing else: no value can split a token, merge two or forge one. -/
namespace ImageGate
open Text Number
set_option autoImplicit false

/-! ## Contents of a query -/

/-- The decoded name and value; a bare token has no value. -/
def Token.decoded? : Token → Option (String × Option String)
  | valued name value => do
    return (← Percent.decodeText? name, some (← Percent.decodeText? value))
  | bare name => do
    return (← Percent.decodeText? name, none)

/-- The decoded tokens between the ampersands, unless a part decodes to no text. -/
def queryContents? (query : String) : Option (List (String × Option String)) :=
  (readTokens query.toList).mapM Token.decoded?

/-- The parameter of a value that is given. -/
def parameter (name : String) (value : Option String) : List (String × Option String) :=
  (value.map fun v => (name, some v)).toList

/-- A named format, decoded, with the short name of JPEG spelled out; JPEG where neither a format
nor a tile is named; none for a tile. -/
def Iip.Request.exportName? (r : Iip.Request) : Option String :=
  match r.exportAs, r.jpegTile, r.pngTile with
  | some format, _, _ => some (if format = "jpg" then "jpeg" else Percent.decodeText format)
  | none, none, none => some "jpeg"
  | none, _, _ => none

/-- The fields that are given, as plain texts, in the order of the query. -/
def Iip.Request.parameters (r : Iip.Request) : List (String × Option String) :=
  parameter "FIF" (some (Percent.decodeText r.image))
    ++ parameter "WID" (r.width.map natText)
    ++ parameter "HEI" (r.height.map natText)
    ++ parameter "RGN" (r.region.map pointedTexts)
    ++ parameter "QLT" (r.quality.map intText)
    ++ parameter "CNT" (r.contrast.map Binary.pointedText)
    ++ parameter "ROT" (r.rotation.map Percent.decodeText)
    ++ parameter "GAM" (r.gamma.map Binary.pointedText)
    ++ parameter "CMP" (r.colormap.map Percent.decodeText)
    ++ parameter "PFL" (r.profile.map Percent.decodeText)
    ++ parameter "CTW" (r.twist.map Percent.decodeText)
    ++ (if r.invert then [("INV", none)] else [])
    ++ parameter "COL" (r.colorSpace.map Percent.decodeText)
    ++ parameter "JTL" (r.jpegTile.map integersText)
    ++ parameter "PTL" (r.pngTile.map integersText)
    ++ parameter "CVT" r.exportName?

/-! ## Values that decoding leaves alone -/

theorem percent_not_mem_natText (n : Nat) : '%' ∉ (natText n).toList := fun h =>
  absurd (isNumeralChar_of_mem_natText h) (by decide)

theorem percent_not_mem_intText (i : Int) : '%' ∉ (intText i).toList := fun h =>
  absurd (isNumeralChar_of_mem_intText h) (by decide)

theorem percent_not_mem_pointedText (x : Single) : '%' ∉ (Binary.pointedText x).toList := fun h =>
  absurd (Binary.isNumeralChar_of_mem_pointedText h) (by decide)

theorem percent_not_mem_joined_map {α : Type} {f : α → String} (hf : ∀ a, '%' ∉ (f a).toList)
    (values : List α) : '%' ∉ (joined "," (values.map f)).toList := by
  intro h
  rw [joined, String.toList_intercalate] at h
  rcases mem_intercalate h with h | ⟨p, hp, h⟩
  · exact absurd h (by decide)
  · rw [List.map_map] at hp
    obtain ⟨a, -, rfl⟩ := List.mem_map.1 hp
    exact hf a h

/-! ## From tokens to parameters -/

theorem mapM_decoded?_append {ts us : List Token} {ps qs : List (String × Option String)}
    (ht : ts.mapM Token.decoded? = some ps) (hu : us.mapM Token.decoded? = some qs) :
    (ts ++ us).mapM Token.decoded? = some (ps ++ qs) := by
  rw [List.mapM_append, ht, hu]
  rfl

theorem mapM_decoded?_given {α : Type} {f g : α → String}
    (hfg : ∀ a, Percent.decodeText? (f a) = some (g a)) {name : String}
    (hname : '%' ∉ name.toList) (value : Option α) :
    (Token.given name (value.map f)).mapM Token.decoded? = some (parameter name (value.map g)) := by
  cases value with
  | none => rfl
  | some a =>
    have hn : Percent.decodeText? name = some name := Percent.decodeText?_of_percent_not_mem hname
    simp [Token.given, Token.decoded?, parameter, hn, hfg a]

theorem mapM_decoded?_flag {name : String} (hname : '%' ∉ name.toList) (isSet : Bool) :
    (Token.flag name isSet).mapM Token.decoded? = some (if isSet then [(name, none)] else []) := by
  cases isSet with
  | false => rfl
  | true =>
    have hn : Percent.decodeText? name = some name := Percent.decodeText?_of_percent_not_mem hname
    simp [Token.flag, Token.decoded?, hn]

theorem Iip.Request.map_decodeText_exportToken? (r : Iip.Request) :
    r.exportToken?.map Percent.decodeText = r.exportName? := by
  have hjpeg : Percent.decodeText "jpeg" = "jpeg" := by decide +kernel
  unfold exportToken? exportName?
  cases r.exportAs with
  | some format => by_cases hf : format = "jpg" <;> simp [hf, hjpeg]
  | none => cases r.jpegTile <;> cases r.pngTile <;> simp [hjpeg]

theorem Iip.Request.mapM_decoded?_tokens (r : Iip.Request) :
    r.tokens.mapM Token.decoded? = some r.parameters := by
  have hplain {α : Type} {f : α → String} (hf : ∀ a, '%' ∉ (f a).toList) (a : α) :
      Percent.decodeText? (f a) = some (f a) := Percent.decodeText?_of_percent_not_mem (hf a)
  rw [tokens, parameters, ← map_decodeText_exportToken?]
  repeat' apply mapM_decoded?_append
  · exact mapM_decoded?_given decodeText?_encodeComponent (by decide) (some r.image)
  · exact mapM_decoded?_given (hplain percent_not_mem_natText) (by decide) r.width
  · exact mapM_decoded?_given (hplain percent_not_mem_natText) (by decide) r.height
  · exact mapM_decoded?_given (hplain (percent_not_mem_joined_map percent_not_mem_pointedText))
      (by decide) r.region
  · exact mapM_decoded?_given (hplain percent_not_mem_intText) (by decide) r.quality
  · exact mapM_decoded?_given (hplain percent_not_mem_pointedText) (by decide) r.contrast
  · exact mapM_decoded?_given decodeText?_encodeComponent (by decide) r.rotation
  · exact mapM_decoded?_given (hplain percent_not_mem_pointedText) (by decide) r.gamma
  · exact mapM_decoded?_given decodeText?_encodeComponent (by decide) r.colormap
  · exact mapM_decoded?_given decodeText?_encodeComponent (by decide) r.profile
  · exact mapM_decoded?_given decodeText?_encodeComponent (by decide) r.twist
  · exact mapM_decoded?_flag (by decide) r.invert
  · exact mapM_decoded?_given decodeText?_encodeComponent (by decide) r.colorSpace
  · exact mapM_decoded?_given (hplain (percent_not_mem_joined_map percent_not_mem_intText))
      (by decide) r.jpegTile
  · exact mapM_decoded?_given (hplain (percent_not_mem_joined_map percent_not_mem_intText))
      (by decide) r.pngTile
  · exact mapM_decoded?_given decodeText?_encodeComponent (by decide) r.exportToken?

/-! ## The query of a request -/

theorem Iip.Request.not_mem_query (r : Iip.Request) {c : Char} (hc : isQueryChar c = false)
    (heq : c ≠ '=') (hamp : c ≠ '&') : c ∉ r.query.toList := by
  rw [query, String.toList_ofList]
  exact not_mem_intercalate_text r.isPlain_tokens hc heq hamp

/-- Whatever the fields hold, the server is asked for these parameters and for no others. -/
theorem Iip.Request.address_carries_parameters (r : Iip.Request) (backends : Backends)
    (base : String) :
    ∃ query, (Request.iip r).address { backends with iip := some base }
        = .ok (withoutEndSlashes base ++ "?" ++ query) ∧
      '?' ∉ query.toList ∧ '#' ∉ query.toList ∧ queryContents? query = some r.parameters := by
  have haddress : (Request.iip r).address { backends with iip := some base }
      = .ok (withoutEndSlashes base ++ "?" ++ r.query) := congrArg Except.ok (r.address_eq base)
  have hcontents : queryContents? r.query = some r.parameters := by
    rw [queryContents?, r.readTokens_query, r.mapM_decoded?_tokens]
  exact ⟨r.query, haddress, r.not_mem_query (by decide) (by decide) (by decide),
    r.not_mem_query (by decide) (by decide) (by decide), hcontents⟩

/-- An export format is decoded like any other text, so it is not carried as it stands: `%41`
arrives as `A`. -/
theorem Iip.Request.exportAs_not_verbatim :
    let r : Iip.Request := { image := "a", exportAs := some "%41" }
    let base := "http://b.test/iip"
    (Request.iip r).address { iip := some base } = .ok (base ++ "?" ++ "FIF=a&CVT=A") ∧
      ∀ query, (Request.iip r).address { iip := some base } = .ok (base ++ "?" ++ query) →
        queryContents? query = some [("FIF", some "a"), ("CVT", some "A")] ∧
          queryContents? query ≠ some [("FIF", some "a"), ("CVT", r.exportAs)] := by
  intro r base
  have haddress : (Request.iip r).address { iip := some base }
      = .ok (base ++ "?" ++ "FIF=a&CVT=A") := congrArg Except.ok (by decide +kernel)
  refine ⟨haddress, fun query hquery => ?_⟩
  have hsame : "FIF=a&CVT=A" = query := by
    rw [haddress, Except.ok.injEq] at hquery
    exact (String.append_right_inj _).1 hquery
  have hcontents : queryContents? "FIF=a&CVT=A" = some [("FIF", some "a"), ("CVT", some "A")] := by
    decide +kernel
  rw [← hsame, hcontents]
  exact ⟨rfl, by decide⟩

end ImageGate
