import ImageGate.Proofs.Backend.AddressReading
import ImageGate.Proofs.Request.Answers
import ImageGate.Proofs.Request.TwistMatrices

/-! Descriptions are fetched without a question to the rights service, so no address of one may be
an address of pixels. The two differ in their last character: a description is asked for by `.json`
or `.dzi`, and whatever an image address ends in, a format, a numeral, a name of a fixed list or a
triplet, is neither `n` nor `i`. This holds whatever bases the servers have, one base for all of
them included. -/
namespace ImageGate
open Text Number
set_option autoImplicit false

/-- The last character of `.json` or of `.dzi`. -/
def isDescriptionEnd (c : Char) : Bool := c == 'n' || c == 'i'

/-- The text ends, and not as a description does. -/
def EndsApart (s : String) : Prop := EndsIn (fun c => !isDescriptionEnd c) s.toList

instance (s : String) : Decidable (EndsApart s) :=
  inferInstanceAs (Decidable (EndsIn (fun c => !isDescriptionEnd c) s.toList))

/-! ## Descriptions -/

theorem Iiif.InfoRequest.endsIn_address {r : Iiif.InfoRequest} (hr : r.extension = "json")
    (base : String) : EndsIn isDescriptionEnd (r.address base).toList := by
  have hjson : EndsIn isDescriptionEnd ("info." ++ encodeSegment "json").toList := by
    decide +kernel
  have haddress : r.address base
      = joined "/" [withoutEndSlashes base, encodeComponent r.identifier] ++ "/"
        ++ ("info." ++ encodeSegment "json") := by
    rw [address, hr]
    simp [joined, String.intercalate_cons_cons, String.append_assoc]
  rw [haddress, String.toList_append]
  exact hjson.append _

theorem DeepZoom.DescriptorRequest.exists_path (r : DescriptorRequest) :
    ∃ stem, r.path = stem ++ ".dzi" := by
  unfold path
  split
  · next h =>
    obtain ⟨stem, hstem⟩ := Option.isSome_iff_exists.1 h
    refine ⟨String.ofList stem, String.toList_injective ?_⟩
    rw [beforeSuffix?_eq_some hstem, String.toList_append, String.toList_ofList, String.toList_ofList]
  · exact ⟨r.image, rfl⟩

theorem DeepZoom.DescriptorRequest.getLast?_path (r : DescriptorRequest) :
    r.path.toList.getLast? = some 'i' := by
  obtain ⟨stem, hstem⟩ := r.exists_path
  rw [hstem, String.toList_append, List.getLast?_append]
  rfl

theorem DeepZoom.Server.exists_locate (server : Server) (path : String) :
    ∃ front, server.locate path = front ++ path := by
  unfold locate
  cases server.addressing with
  | path => exact ⟨_, rfl⟩
  | param => exact ⟨_, rfl⟩

/-- The extension is left alone by decoding and by encoding. -/
theorem DeepZoom.DescriptorRequest.endsIn_address (r : DescriptorRequest) (server : Server) :
    EndsIn isDescriptionEnd (r.address server).toList := by
  have hlast : (Utf8.bytes r.path).getLast? = some (UInt8.ofNat 'i'.toNat) :=
    Utf8.getLast?_bytes_of_ascii r.getLast?_path (by decide)
  have hpath : EndsIn isDescriptionEnd (encodeImagePath r.path).toList :=
    Percent.endsIn_encode_decodeText (by decide) hlast (by decide)
  obtain ⟨front, hfront⟩ := server.exists_locate (encodeImagePath r.path)
  rw [address, hfront, String.toList_append]
  exact hpath.append _

theorem Request.endsIn_description {info : Request} {backends : Backends} {address : String}
    (hcheck : info.check = .ok ()) (hinfo : info.Describes)
    (haddress : info.address backends = .ok address) : EndsIn isDescriptionEnd address.toList := by
  cases hinfo with
  | iiifInfo r =>
    obtain ⟨base, -, rfl⟩ := serverFor_eq_ok haddress
    exact Iiif.InfoRequest.endsIn_address (Iiif.InfoRequest.check_eq_ok_iff.1 hcheck).2 base
  | deepZoomDescriptor r =>
    obtain ⟨server, -, rfl⟩ := serverFor_eq_ok haddress
    exact r.endsIn_address server

/-! ## Values of tokens -/

theorem EndsApart.append {s : String} (h : EndsApart s) (front : String) :
    EndsApart (front ++ s) := by
  rw [EndsApart, String.toList_append]
  exact EndsIn.append h _

theorem Token.endsApart_valued {value : String} (h : EndsApart value) (name : String) :
    EndsApart (Token.valued name value).text := h.append _

theorem isDescriptionEnd_of_isPlainDigit {c : Char} (h : isPlainDigit c = true) :
    (!isDescriptionEnd c) = true := by
  rw [Bool.not_eq_true', isDescriptionEnd, Bool.or_eq_false_iff, beq_eq_false_iff_ne,
    beq_eq_false_iff_ne]
  constructor <;> rintro rfl <;> exact absurd h (by decide)

theorem endsApart_pointedText (x : Single) : EndsApart (Binary.pointedText x) := by
  refine (Binary.endsIn_pointedText x).mono fun c hc => ?_
  rw [isNumeralEnd, Bool.or_eq_true] at hc
  rcases hc with hc | hc
  · exact isDescriptionEnd_of_isPlainDigit hc
  · have hends : ['.', 'N', 'f'].all (fun c => !isDescriptionEnd c) = true := by decide
    exact List.all_eq_true.1 hends c (List.contains_iff_mem.1 hc)

theorem endsApart_integersText {index : List Int} (h : index.length = 2) :
    EndsApart (integersText index) := by
  match index, h with
  | [level, tile], _ =>
    have htile : EndsApart (intText tile) :=
      (endsIn_intText tile).mono fun _ => isDescriptionEnd_of_isPlainDigit
    have htext : integersText [level, tile] = intText level ++ "," ++ intText tile := by
      simp [integersText, joined, String.append_assoc]
    rw [htext]
    exact htile.append _

theorem isDescriptionEnd_hexDigit : ∀ n < 16, (!isDescriptionEnd (Percent.hexDigit n)) = true := by
  decide

/-- Blanks and the closing bracket are neither kept nor part of a triplet. -/
theorem exists_lastByte {s : String} {c : Char} (h : s.toList.getLast? = some c)
    (hc : c = ']' ∨ isBlank c = true) :
    ∃ b, (Utf8.bytes s).getLast? = some b ∧ Percent.hexValue? b = none ∧
      Percent.isUnreserved b = false := by
  by_cases ha : c.toNat < 0x80
  · have htable : ∀ n < 0x80, (Char.ofNat n = ']' ∨ isBlank (Char.ofNat n) = true) →
        Percent.hexValue? (UInt8.ofNat n) = none ∧ Percent.isUnreserved (UInt8.ofNat n) = false := by
      decide +kernel
    exact ⟨_, Utf8.getLast?_bytes_of_ascii h ha, htable c.toNat ha (by rwa [Char.ofNat_toNat])⟩
  · obtain ⟨b, hb, hhigh⟩ := Utf8.exists_getLast?_bytes_of_high h (Nat.le_of_not_lt ha)
    refine ⟨b, hb, Percent.hexValue?_of_high hhigh, Bool.eq_false_iff.2 fun hkept => ?_⟩
    have hlow := Percent.isKeepable_isUnreserved.ascii b hkept
    omega

theorem exists_getLast?_of_checkTwistText {twist : String} (h : checkTwistText twist = .ok ()) :
    ∃ c, twist.toList.getLast? = some c ∧ (c = ']' ∨ isBlank c = true) := by
  obtain ⟨before, after, hsplit, hblank⟩ := exists_trimChars twist.toList
  obtain ⟨inner, rows, hbrackets, -⟩ := checkTwistText_eq_ok_iff.1 h
  have hbracket : (trimChars twist.toList).getLast? = some ']' := by
    rw [hbrackets, ← List.cons_append, List.getLast?_concat]
  cases hlast : after.getLast? with
  | none =>
    refine ⟨']', ?_, .inl rfl⟩
    rw [hsplit, List.getLast?_append, List.getLast?_append, hlast, hbracket]
    rfl
  | some c =>
    refine ⟨c, ?_, .inr (hblank c (List.mem_of_getLast? hlast))⟩
    rw [hsplit, List.getLast?_append, List.getLast?_append, hlast]
    rfl

theorem endsApart_twist {twist : String} (h : checkTwistText twist = .ok ()) :
    EndsApart (encodeComponent twist) := by
  obtain ⟨c, hlast, hc⟩ := exists_getLast?_of_checkTwistText h
  obtain ⟨b, hb, hhex, hkeep⟩ := exists_lastByte hlast hc
  exact Percent.endsIn_encode_decodeText hhex hb
    (Percent.endsIn_encodeByte_of_not hkeep isDescriptionEnd_hexDigit)

/-! ## Queries -/

theorem exists_queryText_concat (mark : String) (front : List Token) (t : Token) :
    ∃ lead, queryText mark (front ++ [t]) = lead ++ t.text := by
  cases front with
  | nil => exact ⟨mark, by simp [queryText]⟩
  | cons u rest =>
    refine ⟨mark ++ u.text ++ String.join (rest.map fun u => "&" ++ u.text) ++ "&", ?_⟩
    simp [queryText, String.append_assoc]

theorem EndsApart.queryText {t : Token} (h : EndsApart t.text) (mark : String)
    (front : List Token) : EndsApart (queryText mark (front ++ [t])) := by
  obtain ⟨lead, hlead⟩ := exists_queryText_concat mark front t
  rw [hlead]
  exact h.append lead

/-! ## Pixels -/

theorem Iip.Request.mem_of_exportToken? {r : Iip.Request} (hr : r.Accepted) {format : String}
    (h : r.exportToken? = some format) : format ∈ ["jpeg", "png"] := by
  unfold exportToken? at h
  cases hexport : r.exportAs with
  | none =>
    simp only [hexport, Option.ite_none_right_eq_some, Option.some.injEq] at h
    rw [← h.2]
    decide
  | some f =>
    have hwritten : ∀ f ∈ exportFormats, (if f = "jpg" then "jpeg" else f) ∈ ["jpeg", "png"] := by
      decide
    simp only [hexport, Option.some.injEq] at h
    rw [← h]
    exact hwritten f (hr.exportAs f hexport)

/-- The last token names the export format, or else the tile. -/
theorem Iip.Request.exists_lastToken {r : Iip.Request} (hr : r.Accepted) :
    ∃ front t, r.tokens = front ++ [t] ∧ EndsApart t.text := by
  have hwritten : ∀ format ∈ ["jpeg", "png"], EndsApart (encodeComponent format) := by
    decide +kernel
  obtain ⟨front, htokens⟩ : ∃ front, r.tokens = front
      ++ (Token.given "JTL" (r.jpegTile.map integersText)
        ++ (Token.given "PTL" (r.pngTile.map integersText)
          ++ Token.given "CVT" (r.exportToken?.map encodeComponent))) :=
    ⟨_, by rw [tokens, List.append_assoc, List.append_assoc]⟩
  cases hformat : r.exportToken? with
  | some format =>
    refine ⟨front ++ (Token.given "JTL" (r.jpegTile.map integersText)
      ++ Token.given "PTL" (r.pngTile.map integersText)), .valued "CVT" (encodeComponent format),
      ?_, Token.endsApart_valued (hwritten format (mem_of_exportToken? hr hformat)) "CVT"⟩
    rw [htokens, hformat]
    simp [Token.given]
  | none =>
    cases hpng : r.pngTile with
    | some index =>
      refine ⟨front ++ Token.given "JTL" (r.jpegTile.map integersText),
        .valued "PTL" (integersText index), ?_,
        Token.endsApart_valued (endsApart_integersText (hr.pngTile index hpng)) "PTL"⟩
      rw [htokens, hformat, hpng]
      simp [Token.given]
    | none =>
      cases hjpeg : r.jpegTile with
      | some index =>
        refine ⟨front, .valued "JTL" (integersText index), ?_,
          Token.endsApart_valued (endsApart_integersText (hr.jpegTile index hjpeg)) "JTL"⟩
        rw [htokens, hformat, hpng, hjpeg]
        simp [Token.given]
      | none =>
        -- Without a tile there is an export.
        cases hexport : r.exportAs <;> simp [exportToken?, hexport, hpng, hjpeg] at hformat

theorem Iip.Request.endsApart_address {r : Iip.Request} (hr : r.Accepted) (base : String) :
    EndsApart (r.address base) := by
  obtain ⟨front, t, htokens, ht⟩ := exists_lastToken hr
  rw [address, htokens]
  exact (ht.queryText "?" front).append _

theorem Iiif.ImageRequest.endsApart_address {r : Iiif.ImageRequest} (hr : r.Accepted)
    (base : String) : EndsApart (r.address base) := by
  have hformats : ∀ f ∈ formats, EndsApart (encodeSegment f) := by decide +kernel
  have haddress : r.address base
      = joined "/" [withoutEndSlashes base, encodeComponent r.identifier, encodeSegment r.region,
          encodeSegment r.size, encodeSegment r.rotation] ++ "/" ++ encodeSegment r.quality ++ "."
        ++ encodeSegment (r.format.getD "jpg") := by
    rw [address]
    simp [joined, String.intercalate_cons_cons, String.append_assoc]
  rw [haddress]
  exact (hformats _ hr.format_mem).append _

theorem DeepZoom.TileRequest.endsApart_token {r : TileRequest} (hr : r.Accepted) {t : Token}
    (ht : t ∈ r.tokens) : EndsApart t.text := by
  have hcolormaps : ∀ name ∈ colormaps, EndsApart (encodeComponent name) := by decide +kernel
  have hcolorSpaces : ∀ name ∈ colorSpaces, EndsApart (encodeComponent name) := by decide +kernel
  simp only [tokens, List.mem_append, Token.mem_given, Token.mem_flag, Option.mem_def,
    Option.map_eq_some_iff, or_assoc] at ht
  rcases ht with ⟨_, ⟨c, -, rfl⟩, rfl⟩ | ⟨_, ⟨g, -, rfl⟩, rfl⟩ | ⟨_, ⟨name, hname, rfl⟩, rfl⟩
    | ⟨_, ⟨twist, htwist, rfl⟩, rfl⟩ | ⟨-, rfl⟩ | ⟨_, ⟨name, hname, rfl⟩, rfl⟩
  · exact Token.endsApart_valued (endsApart_pointedText c) "CNT"
  · exact Token.endsApart_valued (endsApart_pointedText g) "GAM"
  · exact Token.endsApart_valued (hcolormaps name (hr.colormap name hname)) "CMP"
  · exact Token.endsApart_valued (endsApart_twist (hr.twist twist htwist)) "CTW"
  · decide
  · exact Token.endsApart_valued (hcolorSpaces name (hr.colorSpace name hname)) "COL"

theorem DeepZoom.TileRequest.endsApart_path {r : TileRequest} (hr : r.Accepted) :
    EndsApart r.path := by
  have hformats : ∀ f ∈ tileFormats, EndsApart (encodeComponent f) := by decide +kernel
  exact (hformats _ hr.format_mem).append _

theorem DeepZoom.TileRequest.endsApart_address {r : TileRequest} (hr : r.Accepted)
    (server : Server) : EndsApart (r.address server) := by
  rcases List.eq_nil_or_concat r.tokens with htokens | ⟨front, t, htokens⟩
  · obtain ⟨lead, hlead⟩ := server.exists_locate r.path
    have haddress : r.address server = lead ++ r.path := by
      rw [address, htokens, hlead]
      exact String.append_empty
    rw [haddress]
    exact (endsApart_path hr).append lead
  · rw [List.concat_eq_append] at htokens
    have ht : EndsApart t.text := endsApart_token hr (by rw [htokens]; simp)
    rw [address, htokens]
    exact (ht.queryText _ front).append _

theorem Request.endsApart_image {image : Request} {backends : Backends} {address : String}
    (hcheck : image.check = .ok ()) (himage : image.ShowsPixels)
    (haddress : image.address backends = .ok address) : EndsApart address := by
  cases himage with
  | iip r =>
    obtain ⟨base, -, rfl⟩ := serverFor_eq_ok haddress
    exact Iip.Request.endsApart_address (Iip.Request.check_eq_ok_iff.1 hcheck) base
  | iiifImage r =>
    obtain ⟨base, -, rfl⟩ := serverFor_eq_ok haddress
    exact Iiif.ImageRequest.endsApart_address (Iiif.ImageRequest.check_eq_ok_iff.1 hcheck) base
  | deepZoomTile r =>
    obtain ⟨server, -, rfl⟩ := serverFor_eq_ok haddress
    exact DeepZoom.TileRequest.endsApart_address (DeepZoom.TileRequest.check_eq_ok_iff.1 hcheck)
      server

/-! ## Descriptions and pixels -/

theorem Iiif.InfoRequest.exists_path (r : Iiif.InfoRequest) (base : String) :
    ∃ path, r.address base = withoutEndSlashes base ++ "/" ++ path ∧
      (∀ c ∈ ['?', '#', '\\'], c ∉ path.toList) ∧ (pieces '/' path.toList).length = 2 := by
  let segments := [encodeComponent r.identifier, "info." ++ encodeSegment r.extension]
  have hmark : ∀ c ∈ ['?', '#', '\\'], ∀ s ∈ segments, c ∉ s.toList := by
    intro c hc s hs
    simp only [List.mem_cons, List.not_mem_nil, or_false] at hc
    have hinfo : c ∉ "info.".toList := by rcases hc with rfl | rfl | rfl <;> decide
    have hencoded : c ∉ (encodeComponent r.identifier).toList ∧
        c ∉ (encodeSegment r.extension).toList := by
      rcases hc with rfl | rfl | rfl <;>
        exact ⟨Percent.not_mem_encode (by decide) (by decide) (by decide) _,
          Percent.not_mem_encode (by decide) (by decide) (by decide) _⟩
    simp only [segments, List.mem_cons, List.not_mem_nil, or_false] at hs
    rcases hs with rfl | rfl
    · exact hencoded.1
    · rw [String.toList_append, List.mem_append, not_or]
      exact ⟨hinfo, hencoded.2⟩
  have hslash : ∀ s ∈ segments, '/' ∉ s.toList := by
    simp [segments, slash_not_mem_encodeComponent, slash_not_mem_encodeSegment]
  refine ⟨joined "/" segments, ?_, fun c hc hmem => ?_, ?_⟩
  · exact joined_cons (List.cons_ne_nil _ _) _
  · rw [joined, String.toList_intercalate] at hmem
    rcases mem_intercalate hmem with hmem | ⟨p, hp, hmem⟩
    · rw [List.mem_singleton.1 hmem] at hc
      exact absurd hc (by decide)
    · obtain ⟨s, hs, rfl⟩ := List.mem_map.1 hp
      exact hmark c hc s hs hmem
  · rw [pieces_joined hslash (List.cons_ne_nil _ _)]
    rfl

/-- No description is asked for at an address of pixels, and the path of an IIIF description behind
its base has two segments whatever the identifier holds. -/
theorem Backends.descriptions_apart (backends : Backends) :
    (∀ {info image : Request} {a b : String}, info.check = .ok () → info.Describes →
      info.address backends = .ok a → image.check = .ok () → image.ShowsPixels →
        image.address backends = .ok b → a ≠ b) ∧
    ∀ {r : Iiif.InfoRequest} {a : String}, (Request.iiifInfo r).address backends = .ok a →
      ∃ base path, backends.iiif = some base ∧ a = withoutEndSlashes base ++ "/" ++ path ∧
        (∀ c ∈ ['?', '#', '\\'], c ∉ path.toList) ∧ (pieces '/' path.toList).length = 2 := by
  constructor
  · intro info image a b hinfo hdescribes ha himage hshows hb hab
    have hdescription := Request.endsIn_description hinfo hdescribes ha
    have hpixels : EndsApart b := Request.endsApart_image himage hshows hb
    exact hdescription.ne_of_not hpixels (congrArg String.toList hab)
  · intro r a ha
    obtain ⟨base, hbase, rfl⟩ := serverFor_eq_ok ha
    obtain ⟨path, hpath, hmarks, hsegments⟩ := r.exists_path base
    exact ⟨base, path, hbase, hpath, hmarks, hsegments⟩

/-- A descriptor of an image that is named like a tile. -/
theorem Backends.descriptions_apart_named_like_tile :
    let backends : Backends :=
      { iiif := some "http://b.test/", deepZoom := some (.ofBase "http://b.test/" .path) }
    let descriptor : Request := .deepZoomDescriptor { image := "a_files/3/0_1.jpeg" }
    let tile : Request := .deepZoomTile { image := "a", layer := 3, tile := "0_1" }
    let info : Iiif.InfoRequest := { identifier := "a/full/max/0/b.jpg?#", extension := "json" }
    descriptor.check = .ok () ∧ tile.check = .ok () ∧
      descriptor.address backends = .ok "http://b.test/a_files/3/0_1.jpeg.dzi" ∧
      tile.address backends = .ok "http://b.test/a_files/3/0_1.jpeg" ∧
      "http://b.test/a_files/3/0_1.jpeg.dzi" ≠ "http://b.test/a_files/3/0_1.jpeg" ∧
      (Request.iiifInfo info).address backends
        = .ok "http://b.test/a%2Ffull%2Fmax%2F0%2Fb.jpg%3F%23/info.json" ∧
      ∃ base path, backends.iiif = some base ∧
        "http://b.test/a%2Ffull%2Fmax%2F0%2Fb.jpg%3F%23/info.json"
          = withoutEndSlashes base ++ "/" ++ path ∧
        (∀ c ∈ ['?', '#', '\\'], c ∉ path.toList) ∧ (pieces '/' path.toList).length = 2 := by
  intro backends descriptor tile info
  have hdescriptor : descriptor.address backends
      = .ok "http://b.test/a_files/3/0_1.jpeg.dzi" := rfl
  have htile : tile.address backends = .ok "http://b.test/a_files/3/0_1.jpeg" := rfl
  have hinfo : (Request.iiifInfo info).address backends
      = .ok "http://b.test/a%2Ffull%2Fmax%2F0%2Fb.jpg%3F%23/info.json" :=
    congrArg Except.ok (by decide +kernel)
  have hdescriptorCheck : descriptor.check = .ok () := rfl
  have htileCheck : tile.check = .ok () := rfl
  exact ⟨hdescriptorCheck, htileCheck, hdescriptor, htile,
    backends.descriptions_apart.1 hdescriptorCheck (.deepZoomDescriptor _) hdescriptor htileCheck
      (.deepZoomTile _) htile, hinfo,
    backends.descriptions_apart.2 hinfo⟩

end ImageGate
