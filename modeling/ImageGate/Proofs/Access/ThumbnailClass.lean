import ImageGate.Access.Presentation
import ImageGate.Proofs.Backend.AddressReading
import ImageGate.Proofs.Request.Accepted

/-! Thumbnails, seen from the server. The presentation is found out from the request, but what is
delivered is what the address asks for. Here the addresses that ask for a thumbnail are described
by what a server reads in them, and an accepted request is a thumbnail exactly if its address is one
of these. -/
namespace ImageGate
open Text Number
set_option autoImplicit false

/-! ## Addresses of thumbnails -/

/-- The tokens name an image, its whole size within the limits and a format, and no change but a turn
by nothing. -/
def Iip.IsThumbnailQuery (limits : ThumbnailLimits) (tokens : List Token) : Prop :=
  ∃ image width height turn format,
    tokens = [.valued "FIF" image, .valued "WID" (natText width), .valued "HEI" (natText height)]
      ++ turn ++ [.valued "CVT" format] ∧
    (turn = [] ∨ turn = [.valued "ROT" "0"]) ∧
    width ≤ limits.maxWidth ∧ height ≤ limits.maxHeight

/-- A width and a height, both written out in digits, with an optional caret and an optional
exclamation mark in front. -/
def Iiif.WritesSize (size : String) (width height : Nat) : Prop :=
  ∃ caret mark w h : List Char,
    size.toList = caret ++ (mark ++ (w ++ ',' :: h)) ∧
    (caret = [] ∨ caret = ['^']) ∧ (mark = [] ∨ mark = ['!']) ∧
    (isRunOf isPlainDigit w = true ∧ ofDigits w = width) ∧
    (isRunOf isPlainDigit h = true ∧ ofDigits h = height)

/-- The segments ask for the whole image at a size within the limits, as it is. -/
def Iiif.IsThumbnailPath (limits : ThumbnailLimits) : List String → Prop
  | [_, region, size, rotation, file] =>
    Percent.decodeText? region = some "full" ∧ Percent.decodeText? rotation = some "0" ∧
    (∃ quality format, cutLast '.' file.toList = some (quality, format) ∧
      Percent.decodeText? (String.ofList quality) = some "default") ∧
    ∃ plainSize width height, Percent.decodeText? size = some plainSize ∧
      WritesSize plainSize width height ∧ width ≤ limits.maxWidth ∧ height ≤ limits.maxHeight
  | _ => False

/-- What the server of a protocol takes for the address of a thumbnail. DeepZoom has none. -/
def Backends.AsksForThumbnail (backends : Backends) (limits : ThumbnailLimits) (protocol : Protocol)
    (address : String) : Prop :=
  match protocol with
  | .iip => ∃ base tokens, backends.iip = some base ∧ Iip.tokensAt? base address = some tokens ∧
      Iip.IsThumbnailQuery limits tokens
  | .iiif => ∃ base segments, backends.iiif = some base ∧
      Iiif.segmentsAt? base address = some segments ∧ Iiif.IsThumbnailPath limits segments
  | .deepZoom => False

theorem ThumbnailLimits.admits_iff {limits : ThumbnailLimits} {width height : Nat} :
    limits.admits width height = true ↔ width ≤ limits.maxWidth ∧ height ≤ limits.maxHeight := by
  rw [admits, Bool.and_eq_true, decide_eq_true_eq, decide_eq_true_eq]

theorem Request.presentation_eq_thumbnail_iff_size {request : Request} {limits : ThumbnailLimits} :
    request.presentation limits = .thumbnail ↔
      ∃ width height, request.plainSize? = some (width, height) ∧
        width ≤ limits.maxWidth ∧ height ≤ limits.maxHeight := by
  rw [presentation]
  cases hsize : request.plainSize? with
  | none => simp
  | some size =>
    obtain ⟨width, height⟩ := size
    simp only [← ThumbnailLimits.admits_iff]
    by_cases hadmits : limits.admits width height = true
    · exact iff_of_true (if_pos hadmits) ⟨width, height, rfl, hadmits⟩
    · refine iff_of_false (by simp [hadmits]) ?_
      rintro ⟨w, h, hwh, hw⟩
      cases hwh
      exact hadmits hw

/-! ## Internet Imaging Protocol -/

theorem Token.eq_none_of_given {α : Type} {f : α → String} {name : String} {value : Option α}
    {names : List String} (h : ∀ t ∈ Token.given name (value.map f), t.name ∈ names)
    (hname : name ∉ names) : value = none := by
  cases value with
  | none => rfl
  | some v => exact absurd (h _ (List.mem_singleton_self _)) hname

theorem Token.eq_false_of_flag {name : String} {isSet : Bool} {names : List String}
    (h : ∀ t ∈ Token.flag name isSet, t.name ∈ names) (hname : name ∉ names) : isSet = false := by
  cases isSet with
  | false => rfl
  | true => exact absurd (h _ (List.mem_singleton_self _)) hname

namespace Iip.Request

/-- A request that asks for nothing but a size, a turn and a format. -/
def plain (image : String) (width height : Option Nat) (rotation exportAs : Option String) :
    Iip.Request :=
  { image, width, height, rotation, exportAs }

theorem eq_plain_of_names {r : Iip.Request}
    (h : ∀ t ∈ r.tokens, t.name ∈ ["FIF", "WID", "HEI", "ROT", "CVT"]) :
    r = plain r.image r.width r.height r.rotation r.exportAs := by
  simp only [tokens, List.forall_mem_append, and_assoc] at h
  obtain ⟨-, -, -, hregion, hquality, hcontrast, -, hgamma, hcolormap, hprofile, htwist, hinvert,
    hcolorSpace, hjpegTile, hpngTile, -⟩ := h
  have hregion := Token.eq_none_of_given hregion (by decide)
  have hquality := Token.eq_none_of_given hquality (by decide)
  have hcontrast := Token.eq_none_of_given hcontrast (by decide)
  have hgamma := Token.eq_none_of_given hgamma (by decide)
  have hcolormap := Token.eq_none_of_given hcolormap (by decide)
  have hprofile := Token.eq_none_of_given hprofile (by decide)
  have htwist := Token.eq_none_of_given htwist (by decide)
  have hinvert := Token.eq_false_of_flag hinvert (by decide)
  have hcolorSpace := Token.eq_none_of_given hcolorSpace (by decide)
  have hjpegTile := Token.eq_none_of_given hjpegTile (by decide)
  have hpngTile := Token.eq_none_of_given hpngTile (by decide)
  cases r
  simp_all only [plain]

theorem mem_tokens_width {r : Iip.Request} {text : String} :
    .valued "WID" text ∈ r.tokens ↔ ∃ w, r.width = some w ∧ natText w = text := by
  simp [tokens, Token.mem_given, Token.mem_flag]

theorem mem_tokens_height {r : Iip.Request} {text : String} :
    .valued "HEI" text ∈ r.tokens ↔ ∃ h, r.height = some h ∧ natText h = text := by
  simp [tokens, Token.mem_given, Token.mem_flag]

theorem mem_tokens_rotation {r : Iip.Request} {text : String} :
    .valued "ROT" text ∈ r.tokens ↔ ∃ t, r.rotation = some t ∧ encodeComponent t = text := by
  simp [tokens, Token.mem_given, Token.mem_flag]

theorem eq_plain_of_isCustomised {r : Iip.Request} (h : r.isCustomised = false) :
    r = plain r.image r.width r.height r.rotation r.exportAs := by
  simp only [isCustomised, Bool.or_eq_false_iff, Option.isSome_eq_false_iff,
    Option.isNone_iff_eq_none, and_assoc] at h
  cases r
  simp_all only [plain]

theorem tokens_plain (image : String) (width height : Option Nat)
    (rotation exportAs : Option String) :
    ∃ format, (plain image width height rotation exportAs).tokens
      = Token.valued "FIF" (encodeComponent image) :: (Token.given "WID" (width.map natText)
        ++ Token.given "HEI" (height.map natText)
        ++ Token.given "ROT" (rotation.map encodeComponent) ++ [.valued "CVT" format]) := by
  cases exportAs with
  | none => exact ⟨encodeComponent "jpeg", by simp [tokens, plain, exportToken?, Token.given,
      Token.flag]⟩
  | some f => exact ⟨encodeComponent (if f = "jpg" then "jpeg" else f), by
      simp [tokens, plain, exportToken?, Token.given, Token.flag]⟩

theorem plainSize?_plain {image : String} {width height : Option Nat}
    {rotation exportAs : Option String} {w h : Nat} :
    (plain image width height rotation exportAs).plainSize? = some (w, h) ↔
      width = some w ∧ height = some h ∧ (rotation = none ∨ rotation = some "0") := by
  have hcustomised : (plain image width height rotation exportAs).isCustomised
      = rotation.any (· != "0") := by
    simp [isCustomised, plain]
  rw [plainSize?, hcustomised]
  cases rotation with
  | none => cases width <;> cases height <;> simp [plain]
  | some turn =>
    by_cases hturn : turn = "0"
    · cases width <;> cases height <;> simp [plain, hturn]
    · simp [hturn]

/-- No other turn is encoded as the turn by nothing. -/
theorem encodeComponent_rotation {turn : String} (hmem : turn ∈ rotations)
    (h : encodeComponent turn = "0") : turn = "0" :=
  (by decide +kernel : ∀ turn ∈ rotations, encodeComponent turn = "0" → turn = "0") turn hmem h

theorem plainSize?_of_isThumbnailQuery {r : Iip.Request} {limits : ThumbnailLimits}
    (hr : r.Accepted) (hquery : IsThumbnailQuery limits r.tokens) :
    ∃ width height, r.plainSize? = some (width, height) ∧
      width ≤ limits.maxWidth ∧ height ≤ limits.maxHeight := by
  obtain ⟨image, width, height, turn, format, htokens, hturn, hbounds⟩ := hquery
  have hplain : r = plain r.image r.width r.height r.rotation r.exportAs := by
    refine eq_plain_of_names ?_
    rw [htokens]
    rcases hturn with rfl | rfl <;> simp [Token.name]
  have hwidth : r.width = some width := by
    have hmem : .valued "WID" (natText width) ∈ r.tokens := by
      rw [htokens]
      simp
    obtain ⟨w, hw, htext⟩ := mem_tokens_width.1 hmem
    rw [hw, natText_injective htext]
  have hheight : r.height = some height := by
    have hmem : .valued "HEI" (natText height) ∈ r.tokens := by
      rw [htokens]
      simp
    obtain ⟨h, hh, htext⟩ := mem_tokens_height.1 hmem
    rw [hh, natText_injective htext]
  have hrotation : r.rotation = none ∨ r.rotation = some "0" := by
    cases hrot : r.rotation with
    | none => exact .inl rfl
    | some t =>
      have hmem := mem_tokens_rotation.2 ⟨t, hrot, rfl⟩
      rw [htokens] at hmem
      have hzero : encodeComponent t = "0" := by
        rcases hturn with rfl | rfl
        · simp at hmem
        · simpa using hmem
      rw [encodeComponent_rotation (hr.rotation t hrot) hzero]
      exact .inr rfl
  refine ⟨width, height, ?_, hbounds⟩
  rw [hplain, plainSize?_plain]
  exact ⟨hwidth, hheight, hrotation⟩

theorem isThumbnailQuery_of_plainSize? {r : Iip.Request} {limits : ThumbnailLimits}
    {width height : Nat} (hsize : r.plainSize? = some (width, height))
    (hbounds : width ≤ limits.maxWidth ∧ height ≤ limits.maxHeight) :
    IsThumbnailQuery limits r.tokens := by
  have hcustomised : r.isCustomised = false := by
    refine Bool.eq_false_iff.2 fun hc => ?_
    rw [plainSize?, if_pos hc] at hsize
    cases hsize
  have hplain := eq_plain_of_isCustomised hcustomised
  rw [hplain, plainSize?_plain] at hsize
  obtain ⟨hwidth, hheight, hrotation⟩ := hsize
  obtain ⟨format, hformat⟩ := tokens_plain r.image r.width r.height r.rotation r.exportAs
  rw [← hplain, hwidth, hheight] at hformat
  rcases hrotation with hrotation | hrotation
  · rw [hrotation] at hformat
    exact ⟨encodeComponent r.image, width, height, [], format, hformat, .inl rfl, hbounds⟩
  · have hzero : encodeComponent "0" = "0" := by decide +kernel
    simp only [hrotation, Option.map_some, hzero] at hformat
    exact ⟨encodeComponent r.image, width, height, [.valued "ROT" "0"], format, hformat,
      .inr rfl, hbounds⟩

theorem isThumbnailQuery_tokens_iff {r : Iip.Request} {limits : ThumbnailLimits}
    (hr : r.Accepted) :
    IsThumbnailQuery limits r.tokens ↔
      ∃ width height, r.plainSize? = some (width, height) ∧
        width ≤ limits.maxWidth ∧ height ≤ limits.maxHeight := by
  constructor
  · exact plainSize?_of_isThumbnailQuery hr
  · rintro ⟨width, height, hsize, hbounds⟩
    exact isThumbnailQuery_of_plainSize? hsize hbounds

end Iip.Request

/-! ## IIIF -/

theorem exists_lead_append {x : Char} (cs : List Char) :
    ∃ lead, (lead = [] ∨ lead = [x]) ∧ cs = lead ++ (afterPrefix? [x] cs).getD cs := by
  cases h : afterPrefix? [x] cs with
  | none => exact ⟨[], .inl rfl, rfl⟩
  | some rest => exact ⟨[x], .inr rfl, afterPrefix?_eq_some.1 h⟩

theorem afterPrefix?_lead_getD {x : Char} {lead rest : List Char} (hlead : lead = [] ∨ lead = [x])
    (hrest : rest.head? ≠ some x) : (afterPrefix? [x] (lead ++ rest)).getD (lead ++ rest) = rest := by
  rcases hlead with rfl | rfl
  · cases h : afterPrefix? [x] ([] ++ rest) with
    | none => rfl
    | some tail =>
      rw [List.nil_append, afterPrefix?_eq_some] at h
      exact absurd (by rw [h]; rfl) hrest
  · rw [afterPrefix?_append]
    rfl

namespace Iiif

theorem readSize?_eq_some_iff {size : String} {width height : Nat} :
    readSize? size = some (width, height) ↔
      WritesSize size width height ∧ width < 2 ^ 64 ∧ height < 2 ^ 64 := by
  constructor
  · intro h
    obtain ⟨caret, hcaret, hsize⟩ := exists_lead_append (x := '^') size.toList
    obtain ⟨mark, hmark, hrest⟩ := exists_lead_append (x := '!')
      ((afterPrefix? ['^'] size.toList).getD size.toList)
    simp only [readSize?, Option.bind_eq_bind, Option.bind_eq_some_iff, Option.filter_eq_some_iff,
      decide_eq_true_eq] at h
    obtain ⟨⟨w, t⟩, hcut, a, ⟨hw, ha⟩, b, ⟨ht, hb⟩, hab⟩ := h
    cases hab
    obtain ⟨hjoin, -⟩ := cutFirst_eq_some hcut
    rw [hrest, hjoin] at hsize
    exact ⟨⟨caret, mark, w, t, hsize, hcaret, hmark, readDigits?_eq_some_iff.1 hw,
      readDigits?_eq_some_iff.1 ht⟩, ha, hb⟩
  · rintro ⟨⟨caret, mark, w, t, hsize, hcaret, hmark, hw, ht⟩, ha, hb⟩
    have hmarkless := afterPrefix?_lead_getD hmark
      (head?_run_append_ne (by decide : isPlainDigit '!' = false) hw.1 (',' :: t))
    have hhead : (mark ++ (w ++ ',' :: t)).head? ≠ some '^' := by
      rcases hmark with rfl | rfl
      · exact head?_run_append_ne (by decide) hw.1 _
      · simp
    have hcomma : ',' ∉ w := not_mem_run (by decide) hw.1
    rw [readSize?, hsize, afterPrefix?_lead_getD hcaret hhead, hmarkless,
      cutFirst_append_cons hcomma]
    simp only [Option.bind_eq_bind, Option.bind_some, readDigits?_eq_some_iff.2 hw,
      readDigits?_eq_some_iff.2 ht, Option.filter_some, ha, hb, decide_true, if_true, pure]

theorem plainSize?_eq_some_iff {r : ImageRequest} {size : Nat × Nat} :
    r.plainSize? = some size ↔
      (r.region = "full" ∧ r.rotation = "0" ∧ r.quality = "default") ∧
        readSize? r.size = some size := by
  simp [ImageRequest.plainSize?, and_assoc]

theorem decodeText?_encodeSegment (s : String) : Percent.decodeText? (encodeSegment s) = some s :=
  Percent.decodeText?_encode Percent.isKeepable_isSegmentByte s

/-- No format has a point, so the last point of the file is the one in front of it. -/
theorem cutLast_file {r : ImageRequest} (hr : r.Accepted) :
    cutLast '.' (encodeSegment r.quality ++ "." ++ encodeSegment (r.format.getD "jpg")).toList
      = some ((encodeSegment r.quality).toList, (encodeSegment (r.format.getD "jpg")).toList) := by
  have hpoint : ∀ f ∈ formats, '.' ∉ (encodeSegment f).toList := by decide +kernel
  have hfile : (encodeSegment r.quality ++ "." ++ encodeSegment (r.format.getD "jpg")).toList
      = (encodeSegment r.quality).toList ++ '.' :: (encodeSegment (r.format.getD "jpg")).toList := by
    simp
  rw [hfile]
  exact cutLast_append_cons (hpoint _ hr.format_mem) _

theorem isThumbnailPath_address_iff {r : ImageRequest} {limits : ThumbnailLimits}
    (hr : r.Accepted) (hwidth : limits.maxWidth < 2 ^ 64) (hheight : limits.maxHeight < 2 ^ 64) :
    IsThumbnailPath limits [encodeComponent r.identifier, encodeSegment r.region,
        encodeSegment r.size, encodeSegment r.rotation,
        encodeSegment r.quality ++ "." ++ encodeSegment (r.format.getD "jpg")] ↔
      ∃ width height, r.plainSize? = some (width, height) ∧
        width ≤ limits.maxWidth ∧ height ≤ limits.maxHeight := by
  constructor
  · rintro ⟨hregion, hrotation, ⟨quality, format, hcut, hquality⟩, plainSize, width, height, hsize,
      hwrites, hbounds⟩
    rw [cutLast_file hr] at hcut
    cases hcut
    rw [decodeText?_encodeSegment, Option.some.injEq] at hregion hrotation hsize
    rw [String.ofList_toList, decodeText?_encodeSegment, Option.some.injEq] at hquality
    have hread : readSize? r.size = some (width, height) :=
      readSize?_eq_some_iff.2 ⟨hsize ▸ hwrites, by omega, by omega⟩
    exact ⟨width, height, plainSize?_eq_some_iff.2 ⟨⟨hregion, hrotation, hquality⟩, hread⟩, hbounds⟩
  · rintro ⟨width, height, hplain, hbounds⟩
    obtain ⟨⟨hregion, hrotation, hquality⟩, hread⟩ := plainSize?_eq_some_iff.1 hplain
    refine ⟨?_, ?_, ⟨_, _, cutLast_file hr, ?_⟩, r.size, width, height,
      decodeText?_encodeSegment r.size, (readSize?_eq_some_iff.1 hread).1, hbounds⟩
    · rw [decodeText?_encodeSegment, hregion]
    · rw [decodeText?_encodeSegment, hrotation]
    · rw [String.ofList_toList, decodeText?_encodeSegment, hquality]

end Iiif

/-! ## Any request -/

/-- Only one server is known for a protocol, and it reads only one thing. -/
theorem exists_read_iff {α β : Type} {server : Option α} (read : α → Option β) {a : α} {b : β}
    {p : β → Prop} (hserver : server = some a) (hread : read a = some b) :
    (∃ a b, server = some a ∧ read a = some b ∧ p b) ↔ p b := by
  constructor
  · rintro ⟨a', b', ha, hb, h⟩
    rw [hserver, Option.some.injEq] at ha
    rw [← ha, hread, Option.some.injEq] at hb
    rwa [hb]
  · intro h
    exact ⟨a, b, hserver, hread, h⟩

/-- A request is judged by the right to thumbnails exactly if its address asks for one. -/
theorem Request.presentation_eq_thumbnail_iff {request : Request} {backends : Backends}
    {limits : ThumbnailLimits} {address : String} (hcheck : request.check = .ok ())
    (hwidth : limits.maxWidth < 2 ^ 64) (hheight : limits.maxHeight < 2 ^ 64)
    (haddress : request.address backends = .ok address) :
    request.presentation limits = .thumbnail ↔
      backends.AsksForThumbnail limits request.protocol address := by
  rw [presentation_eq_thumbnail_iff_size]
  cases request with
  | iip r =>
    obtain ⟨base, hbase, haddress⟩ := serverFor_eq_ok haddress
    have hr := Iip.Request.check_eq_ok_iff.1 hcheck
    have hread := Iip.tokensAt?_address r base
    rw [haddress] at hread
    simp only [Request.protocol, Backends.AsksForThumbnail,
      exists_read_iff (Iip.tokensAt? · address) hbase hread]
    exact (Iip.Request.isThumbnailQuery_tokens_iff hr).symm
  | iiifImage r =>
    obtain ⟨base, hbase, haddress⟩ := serverFor_eq_ok haddress
    have hr := Iiif.ImageRequest.check_eq_ok_iff.1 hcheck
    have hread := Iiif.segmentsAt?_imageAddress r base
    rw [haddress] at hread
    simp only [Request.protocol, Backends.AsksForThumbnail,
      exists_read_iff (Iiif.segmentsAt? · address) hbase hread]
    exact (Iiif.isThumbnailPath_address_iff hr hwidth hheight).symm
  | iiifInfo r =>
    obtain ⟨base, hbase, haddress⟩ := serverFor_eq_ok haddress
    have hread := Iiif.segmentsAt?_infoAddress r base
    rw [haddress] at hread
    simp only [Request.protocol, Backends.AsksForThumbnail,
      exists_read_iff (Iiif.segmentsAt? · address) hbase hread]
    -- A description has two segments, an image five.
    exact iff_of_false (by simp [plainSize?]) id
  | deepZoomDescriptor r => exact iff_of_false (by simp [plainSize?]) id
  | deepZoomTile r => exact iff_of_false (by simp [plainSize?]) id

/-- A size may be written with any number of zeros in front. -/
theorem Request.asksForThumbnail_padded_size :
    let request : Request := .iiifImage { identifier := "a/b", region := "full", rotation := "0"
                                          size := "^!00000000000000000000600,1"
                                          quality := "default" }
    let backends : Backends := { iiif := some "http://b.test/iiif/" }
    let address := "http://b.test/iiif/a%2Fb/full/%5E!00000000000000000000600,1/0/default.jpg"
    request.check = .ok () ∧ request.address backends = .ok address ∧
      backends.AsksForThumbnail {} .iiif address := by
  intro request backends address
  have hcheck : request.check = .ok () := by
    refine Iiif.ImageRequest.check_eq_ok_iff.2 ?_
    exact {
      identifier := by decide +kernel
      region := by decide +kernel
      size := by decide +kernel
      rotation := by decide +kernel
      quality := by decide
      format := by decide }
  have haddress : request.address backends = .ok address := rfl
  have hthumbnail : request.presentation {} = .thumbnail := by decide +kernel
  exact ⟨hcheck, haddress, (Request.presentation_eq_thumbnail_iff hcheck (by decide) (by decide)
    haddress).1 hthumbnail⟩

end ImageGate
