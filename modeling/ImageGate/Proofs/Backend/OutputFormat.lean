import ImageGate.Delivery
import ImageGate.Proofs.Access.ThumbnailClass
import ImageGate.Proofs.Backend.Descriptions
import ImageGate.Proofs.Request.RuleOrder

/-! One format for a request. What the server writes is read here out of the address alone: in the Internet
Imaging Protocol from the one parameter that chooses an output, elsewhere from the extension behind the
last point. For an accepted request it is the format that the answer is described by, that stands in for
a missing media type, that the download name ends in, and that bounds the quality. -/
namespace ImageGate
open Text Number
set_option autoImplicit false

/-! ## The format that an address asks for -/

/-- The parameter chooses what is written. -/
def Token.isOutput (t : Token) : Bool := ["JTL", "PTL", "CVT"].contains t.name

/-- A tile has the format of its kind, an export the one that is named. -/
def Token.format? : Token → Option String
  | .valued "JTL" _ => some "jpeg"
  | .valued "PTL" _ => some "png"
  | .valued "CVT" format => Percent.decodeText? format
  | _ => none

/-- Only a single choice is one. -/
def Iip.formatAt? (base address : String) : Option String := do
  match (← tokensAt? base address).filter Token.isOutput with
  | [t] => t.format?
  | _ => none

/-- What is written behind the last point. -/
def extension? (cs : List Char) : Option String := do
  let (_, extension) ← cutLast '.' cs
  Percent.decodeText? (String.ofList extension)

/-- The extension of the last segment. -/
def Iiif.formatAt? (base address : String) : Option String := do
  extension? (← (← segmentsAt? base address).getLast?).toList

/-- The extension of the image path. -/
def DeepZoom.Server.formatAt? (server : Server) (address : String) : Option String := do
  extension? (← server.pathAt? address)

/-- The format that the server of a protocol is asked for at an address. -/
def Backends.formatAt? (backends : Backends) (protocol : Protocol) (address : String) :
    Option String :=
  match protocol with
  | .iip => backends.iip.bind fun base => Iip.formatAt? base address
  | .iiif => backends.iiif.bind fun base => Iiif.formatAt? base address
  | .deepZoom => backends.deepZoom.bind fun server => server.formatAt? address

theorem extension?_of_cutLast {cs stem : List Char} {extension format : String}
    (hcut : cutLast '.' cs = some (stem, extension.toList))
    (hdecode : Percent.decodeText? extension = some format) : extension? cs = some format := by
  rw [extension?, hcut, Option.bind_eq_bind, Option.bind_some]
  show Percent.decodeText? (String.ofList extension.toList) = some format
  rw [String.ofList_toList, hdecode]

theorem extension?_append {extension format : String} (hpoint : '.' ∉ extension.toList)
    (hdecode : Percent.decodeText? extension = some format) (stem : List Char) :
    extension? (stem ++ '.' :: extension.toList) = some format :=
  extension?_of_cutLast (cutLast_append_cons hpoint stem) hdecode

/-! ## Internet Imaging Protocol -/

namespace Iip.Request
variable {r : Iip.Request}

theorem filter_isOutput_given (name : String) (value : Option String) :
    (Token.given name value).filter Token.isOutput
      = if ["JTL", "PTL", "CVT"].contains name then Token.given name value else [] := by
  cases value with
  | none => simp [Token.given]
  | some v => simp [Token.given, Token.isOutput, Token.name, List.filter_cons]

theorem filter_isOutput_tokens (r : Iip.Request) :
    r.tokens.filter Token.isOutput = Token.given "JTL" (r.jpegTile.map integersText)
      ++ Token.given "PTL" (r.pngTile.map integersText)
      ++ Token.given "CVT" (r.exportToken?.map encodeComponent) := by
  have hflag : (Token.flag "INV" r.invert).filter Token.isOutput = [] := by
    cases r.invert <;> rfl
  simp [tokens, List.filter_append, filter_isOutput_given, hflag]

theorem exported_table : ∀ format ∈ exportFormats,
    let value := encodeComponent (if format = "jpg" then "jpeg" else format)
    let written := (if format = "png" then Output.png else Output.jpeg).name
    Percent.decodeText? value = some written ∧ (value = "png" ↔ written = "png") := by
  decide +kernel

/-- One parameter chooses the output, and it chooses the one that the request is described by. -/
theorem Accepted.exists_output (hr : r.Accepted) :
    ∃ t, r.tokens.filter Token.isOutput = [t] ∧ t.format? = some r.output.name ∧
      (t.name = "PTL" ∨ t = .valued "CVT" "png" ↔ r.output.name = "png") := by
  obtain ⟨htiles, hjtl, hptl⟩ := r.length_outputNames_le_iff.1 hr.output
  rw [filter_isOutput_tokens]
  -- At most one of the three parameters is given, and an export is written where none is.
  cases hexport : r.exportAs with
  | some format =>
    have hcvt : r.exportAs.isSome = true := by rw [hexport, Option.isSome_some]
    have hnojtl : r.jpegTile = none := Option.not_isSome_iff_eq_none.1 fun h => hjtl ⟨h, hcvt⟩
    have hnoptl : r.pngTile = none := Option.not_isSome_iff_eq_none.1 fun h => hptl ⟨h, hcvt⟩
    have houtput : r.output = if format = "png" then .png else .jpeg := by rw [Iip.Request.output, hexport]
    obtain ⟨hdecode, hpng⟩ := exported_table format (hr.exportAs format hexport)
    refine ⟨.valued "CVT" (encodeComponent (if format = "jpg" then "jpeg" else format)), ?_, ?_, ?_⟩
    · rw [exportToken?, hexport, hnojtl, hnoptl]
      rfl
    · rw [houtput]
      exact hdecode
    · rw [houtput, ← hpng]
      simp [Token.name]
  | none =>
    cases hpng : r.pngTile with
    | some index =>
      have hnojtl : r.jpegTile = none :=
        Option.not_isSome_iff_eq_none.1 fun h => htiles ⟨h, by rw [hpng, Option.isSome_some]⟩
      have houtput : r.output = .png := by rw [Iip.Request.output, hexport, hpng]; rfl
      refine ⟨.valued "PTL" (integersText index), ?_, ?_, ?_⟩
      · rw [exportToken?, hexport, hnojtl, hpng]
        rfl
      · rw [houtput]
        rfl
      · rw [houtput]
        exact iff_of_true (.inl rfl) rfl
    | none =>
      have houtput : r.output = .jpeg := by rw [Iip.Request.output, hexport, hpng]; rfl
      rw [houtput]
      cases hjpg : r.jpegTile with
      | some index =>
        refine ⟨.valued "JTL" (integersText index), ?_, rfl, by simp [Token.name, Output.name]⟩
        rw [exportToken?, hexport, hpng, hjpg]
        rfl
      | none =>
        obtain ⟨hdecode, hvalue⟩ := exported_table "jpeg" (by decide)
        have hother : encodeComponent "jpeg" ≠ "png" := mt hvalue.1 (by decide)
        refine ⟨.valued "CVT" (encodeComponent "jpeg"), ?_, hdecode, ?_⟩
        · rw [exportToken?, hexport, hpng, hjpg]
          rfl
        · simp [Token.name, Output.name, hother]

/-- What the query says about the output. -/
structure AsksOneFormat (r : Iip.Request) (tokens : List Token) : Prop where
  /-- One token chooses it, and chooses PNG where the request is described as PNG. -/
  output : ∃ t, tokens.filter Token.isOutput = [t] ∧
    (t.name = "PTL" ∨ t = .valued "CVT" "png" ↔ (Request.iip r).format = "png")
  quality : ∀ t ∈ tokens, t.name = "QLT" →
    ∃ n, t = .valued "QLT" (natText n) ∧ n ≤ if (Request.iip r).format = "png" then 9 else 100
  /-- A part or a size goes with an export that the caller has named. -/
  exported : ∀ t ∈ tokens, t.name ∈ ["WID", "HEI", "RGN"] →
    ∃ format ∈ r.exportAs, Token.valued "CVT" (if format = "jpg" then "jpeg" else format) ∈ tokens

theorem Accepted.exists_quality (hr : r.Accepted) {quality : Int} (hquality : r.quality = some quality) :
    ∃ n, intText quality = natText n ∧ n ≤ if r.output.name = "png" then 9 else 100 := by
  have hkept := (reports_checkQuality r.output quality).eq_ok_iff.1 (hr.quality quality hquality)
  obtain ⟨hnonneg, hle⟩ := hkept _ List.mem_cons_self
  obtain ⟨n, rfl⟩ := Int.eq_ofNat_of_zero_le hnonneg
  refine ⟨n, rfl, ?_⟩
  cases houtput : r.output <;> simp [houtput, Output.name] at hle ⊢ <;> omega

theorem mem_tokens_quality {text : String} :
    .valued "QLT" text ∈ r.tokens ↔ ∃ q, r.quality = some q ∧ intText q = text := by
  simp [tokens, Token.mem_given, Token.mem_flag]

theorem mem_tokens_region {text : String} :
    .valued "RGN" text ∈ r.tokens ↔ ∃ values, r.region = some values ∧ pointedTexts values = text := by
  simp [tokens, Token.mem_given, Token.mem_flag]

theorem bare_mem_tokens {name : String} : .bare name ∈ r.tokens ↔ r.invert = true ∧ name = "INV" := by
  simp [tokens, Token.mem_given, Token.mem_flag]

theorem Accepted.isSome_exportAs_of_region (hr : r.Accepted) {values : List Single}
    (hregion : r.region = some values) : r.exportAs.isSome = true := by
  have hkept := hr.region values hregion
  rw [checkRegion, check_bind_eq_ok_iff, require_eq_ok_iff] at hkept
  exact hkept.1

theorem Accepted.mem_tokens_exportAs (hr : r.Accepted) {format : String}
    (hexport : r.exportAs = some format) :
    .valued "CVT" (if format = "jpg" then "jpeg" else format) ∈ r.tokens := by
  have hkept : ∀ format ∈ exportFormats, encodeComponent (if format = "jpg" then "jpeg" else format)
      = if format = "jpg" then "jpeg" else format := by decide +kernel
  have hvalue := hkept format (hr.exportAs format hexport)
  simp [tokens, Token.mem_given, Token.mem_flag, exportToken?, hexport, hvalue]

theorem Accepted.asksOneFormat (hr : r.Accepted) : r.AsksOneFormat r.tokens := by
  obtain ⟨t, htokens, -, hpng⟩ := hr.exists_output
  have hexported : r.exportAs.isSome → ∃ format ∈ r.exportAs,
      Token.valued "CVT" (if format = "jpg" then "jpeg" else format) ∈ r.tokens := fun hsome =>
    ⟨_, Option.get_mem hsome, hr.mem_tokens_exportAs (Option.get_mem hsome)⟩
  refine ⟨⟨t, htokens, hpng⟩, fun t ht hname => ?_, fun t ht hname => hexported ?_⟩
  · cases t with
    | bare name =>
      obtain ⟨-, rfl⟩ := bare_mem_tokens.1 ht
      exact absurd hname (by decide)
    | valued name text =>
      cases hname
      obtain ⟨quality, hquality, rfl⟩ := mem_tokens_quality.1 ht
      obtain ⟨n, htext, hle⟩ := hr.exists_quality hquality
      exact ⟨n, by rw [htext], hle⟩
  · cases t with
    | bare name =>
      obtain ⟨-, rfl⟩ := bare_mem_tokens.1 ht
      exact absurd hname (by decide)
    | valued name text =>
      simp only [Token.name, List.mem_cons, List.not_mem_nil, or_false] at hname
      rcases hname with rfl | rfl | rfl
      · obtain ⟨w, hw, -⟩ := mem_tokens_width.1 ht
        exact hr.width (by rw [hw, Option.isSome_some])
      · obtain ⟨h, hh, -⟩ := mem_tokens_height.1 ht
        exact hr.height (by rw [hh, Option.isSome_some])
      · obtain ⟨values, hvalues, -⟩ := mem_tokens_region.1 ht
        exact hr.isSome_exportAs_of_region hvalues

theorem formatAt?_address (hr : r.Accepted) (base : String) :
    Iip.formatAt? base (r.address base) = some (Request.iip r).format := by
  obtain ⟨t, htokens, hformat, -⟩ := hr.exists_output
  simp only [Iip.formatAt?, tokensAt?_address, Option.bind_eq_bind, Option.bind_some, htokens]
  exact hformat

end Iip.Request

/-! ## IIIF -/

theorem Iiif.ImageRequest.Accepted.formatAt?_address {r : Iiif.ImageRequest} (hr : r.Accepted)
    (base : String) :
    Iiif.formatAt? base (r.address base) = some (Request.iiifImage r).format := by
  simp only [Iiif.formatAt?, segmentsAt?_imageAddress, Option.bind_eq_bind, Option.bind_some]
  exact extension?_of_cutLast (cutLast_file hr) (decodeText?_encodeSegment _)

theorem Iiif.InfoRequest.formatAt?_address {r : Iiif.InfoRequest} (hr : r.check = .ok ())
    (base : String) :
    Iiif.formatAt? base (r.address base) = some (Request.iiifInfo r).format := by
  have hextension : r.extension = "json" := (check_eq_ok_iff.1 hr).2
  have hlast : extension? ("info." ++ encodeSegment "json").toList = some "json" := by decide +kernel
  rw [Iiif.formatAt?, segmentsAt?_infoAddress, Request.format, hextension, Option.bind_eq_bind,
    Option.bind_some, List.getLast?_cons_cons, List.getLast?_singleton]
  exact hlast

/-! ## DeepZoom -/

namespace DeepZoom

theorem TileRequest.Accepted.formatAt?_address {r : TileRequest} (hr : r.Accepted)
    (server : Server) :
    server.formatAt? (r.address server) = some (Request.deepZoomTile r).format := by
  have htable : ∀ f ∈ tileFormats, '.' ∉ (encodeComponent f).toList ∧
      Percent.decodeText? (encodeComponent f) = some f := by decide +kernel
  obtain ⟨hpoint, hdecode⟩ := htable _ hr.format_mem
  obtain ⟨stem, hpath⟩ : ∃ stem, r.path.toList
      = stem ++ '.' :: (encodeComponent (r.format.getD "jpeg")).toList := by
    refine ⟨(encodeImagePath r.image ++ "_files/" ++ natText r.layer ++ "/"
      ++ encodeComponent r.tile).toList, ?_⟩
    simp [TileRequest.path, String.toList_append]
  rw [Server.formatAt?, server.pathAt?_tileAddress, Option.bind_eq_bind, Option.bind_some, hpath]
  exact extension?_append hpoint hdecode stem

theorem encodeImagePath_description (stem : String) :
    encodeImagePath (stem ++ ".dzi") = encodeImagePath stem ++ ".dzi" := by
  have hkept : Percent.encode Percent.isFolderPathByte ".dzi" = ".dzi" := by decide +kernel
  rw [encodeImagePath, Percent.decodeText_description, Percent.encode_append, hkept, encodeImagePath]

theorem DescriptorRequest.formatAt?_address (r : DescriptorRequest) (server : Server) :
    server.formatAt? (r.address server) = some (Request.deepZoomDescriptor r).format := by
  obtain ⟨stem, hstem⟩ := r.exists_path
  have hpath : (encodeImagePath r.path).toList = (encodeImagePath stem).toList ++ '.' :: "dzi".toList := by
    rw [hstem, encodeImagePath_description, String.toList_append]
    rfl
  have hlocate := server.pathAt?_locate (mark_not_mem_encodeImagePath (.inl rfl) r.path)
    (mark_not_mem_encodeImagePath (.inr rfl) r.path) []
  rw [queryText, String.append_empty] at hlocate
  rw [Server.formatAt?, address, hlocate, Option.bind_eq_bind, Option.bind_some, hpath]
  have hdecode : Percent.decodeText? "dzi" = some "dzi" := by decide +kernel
  exact extension?_append (by decide) hdecode _

end DeepZoom

/-! ## Any request -/

/-- Whatever says a format of the answer says this one. -/
structure Request.IsWrittenAs (request : Request) (format : String) : Prop where
  described : request.format = format ∧ request.HasFormat format
  /-- Its media type stands in for one that is missing. -/
  mediaType : ∃ type, (format, type) ∈ answerTypes ∧ ∀ image, image.mediaType = none →
    Delivery.ofFetched request image = .image image type request.downloadName
  known : ∀ type, (format, type) ∈ answerTypes →
    ImageGate.mediaType format = type ∧ type ≠ "application/octet-stream"
  downloaded : ∀ name ∈ request.downloadName,
    ∃ stem, cutLast '.' name.toList = some (stem, format.toList)

theorem Backends.formatAt?_address {request : Request} {backends : Backends} {address : String}
    (hcheck : request.check = .ok ()) (haddress : request.address backends = .ok address) :
    backends.formatAt? request.protocol address = some request.format := by
  cases request with
  | iip r =>
    obtain ⟨base, hbase, rfl⟩ := serverFor_eq_ok haddress
    simp only [Request.protocol, Backends.formatAt?, hbase, Option.bind_some]
    exact Iip.Request.formatAt?_address (Iip.Request.check_eq_ok_iff.1 hcheck) base
  | iiifImage r =>
    obtain ⟨base, hbase, rfl⟩ := serverFor_eq_ok haddress
    simp only [Request.protocol, Backends.formatAt?, hbase, Option.bind_some]
    exact (Iiif.ImageRequest.check_eq_ok_iff.1 hcheck).formatAt?_address base
  | iiifInfo r =>
    obtain ⟨base, hbase, rfl⟩ := serverFor_eq_ok haddress
    simp only [Request.protocol, Backends.formatAt?, hbase, Option.bind_some]
    exact Iiif.InfoRequest.formatAt?_address hcheck base
  | deepZoomDescriptor r =>
    obtain ⟨server, hserver, rfl⟩ := serverFor_eq_ok haddress
    simp only [Request.protocol, Backends.formatAt?, hserver, Option.bind_some]
    exact r.formatAt?_address server
  | deepZoomTile r =>
    obtain ⟨server, hserver, rfl⟩ := serverFor_eq_ok haddress
    simp only [Request.protocol, Backends.formatAt?, hserver, Option.bind_some]
    exact (DeepZoom.TileRequest.check_eq_ok_iff.1 hcheck).formatAt?_address server

theorem Request.eq_of_downloadName {request : Request} {name : String}
    (h : request.downloadName = some name) :
    name = Request.baseName request.identifier ++ "." ++ request.format := by
  cases request with
  | iip r | iiifImage r | deepZoomDescriptor r => exact (Option.some.inj h).symm
  | iiifInfo r | deepZoomTile r => cases h

theorem Request.isWrittenAs_format {request : Request} (hcheck : request.check = .ok ()) :
    request.IsWrittenAs request.format := by
  have hpoints : ∀ format ∈ answerTypes.map Prod.fst, '.' ∉ format.toList := by decide
  have hpoint := hpoints _ (request.format_mem hcheck)
  obtain ⟨format, hformat, hmem⟩ := (request.hasMediaType_iff hcheck).2 rfl
  obtain rfl := hformat.format_eq
  refine ⟨⟨rfl, hformat⟩, ⟨_, hmem, fun image hnone => ?_⟩, fun type => mediaType_eq_of_mem,
    fun name hname => ?_⟩
  · rw [Delivery.ofFetched, hnone, Option.getD_none]
  · have hlist : name.toList = (baseName request.identifier).toList ++ '.' :: request.format.toList := by
      rw [eq_of_downloadName hname]
      simp [String.toList_append]
    rw [hlist]
    exact ⟨_, cutLast_append_cons hpoint _⟩

/-- The address of an accepted request asks for one format, and that is the one that the answer is
described by, fetched as and saved as. In the Internet Imaging Protocol the tokens of the query agree on
it. -/
theorem Request.one_format {request : Request} {backends : Backends} {address : String}
    (hcheck : request.check = .ok ()) (haddress : request.address backends = .ok address) :
    (∃ format, backends.formatAt? request.protocol address = some format ∧
      request.IsWrittenAs format) ∧
    ∀ r, request = .iip r → ∃ base tokens, backends.iip = some base ∧
      Iip.tokensAt? base address = some tokens ∧ r.AsksOneFormat tokens := by
  refine ⟨⟨request.format, Backends.formatAt?_address hcheck haddress,
    Request.isWrittenAs_format hcheck⟩, ?_⟩
  rintro r rfl
  obtain ⟨base, hbase, rfl⟩ := serverFor_eq_ok haddress
  exact ⟨base, r.tokens, hbase, Iip.tokensAt?_address r base,
    (Iip.Request.check_eq_ok_iff.1 hcheck).asksOneFormat⟩

/-- A PNG tile of the best allowed quality. -/
theorem Request.one_format_png_tile :
    let request : Request := .iip { image := "a.tif", quality := some 9, pngTile := some [3, 0] }
    let backends : Backends := { iip := some "http://b.test/iip" }
    let address := "http://b.test/iip?FIF=a.tif&QLT=9&PTL=3,0"
    request.check = .ok () ∧ request.address backends = .ok address ∧
      (∃ format, backends.formatAt? request.protocol address = some format ∧
        request.IsWrittenAs format) ∧ request.downloadName = some "a.tif.png" := by
  intro request backends address
  have hcheck : request.check = .ok () := by decide +kernel
  have haddress : request.address backends = .ok address := by decide +kernel
  exact ⟨hcheck, haddress, (Request.one_format hcheck haddress).1, by decide +kernel⟩

end ImageGate
