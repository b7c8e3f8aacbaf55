import ImageGate.Proofs.Request.Accepted

/-! What an answer is. A request asks for pixels or for the geometry of an image; its answer has one
format, and the formats that pass a check have one media type each. These are the words in which access,
addresses and responses are stated, kind by kind of request, beside the functions that tell the kinds
apart. -/
namespace ImageGate
set_option autoImplicit false

/-! ## Pixels and geometry -/

namespace Request
variable {request : Request} {format type : String}

/-- The answer shows pixels of an image. -/
inductive ShowsPixels : Request → Prop where
  | iip (r : Iip.Request) : ShowsPixels (.iip r)
  | iiifImage (r : Iiif.ImageRequest) : ShowsPixels (.iiifImage r)
  | deepZoomTile (r : DeepZoom.TileRequest) : ShowsPixels (.deepZoomTile r)

/-- The answer gives the geometry of an image. -/
inductive Describes : Request → Prop where
  | iiifInfo (r : Iiif.InfoRequest) : Describes (.iiifInfo r)
  | deepZoomDescriptor (r : DeepZoom.DescriptorRequest) : Describes (.deepZoomDescriptor r)

theorem isImage_eq_true_iff : request.isImage = true ↔ request.ShowsPixels := by
  cases request with
  | iip r => exact iff_of_true rfl (.iip r)
  | iiifImage r => exact iff_of_true rfl (.iiifImage r)
  | deepZoomTile r => exact iff_of_true rfl (.deepZoomTile r)
  | iiifInfo r | deepZoomDescriptor r => exact iff_of_false nofun nofun

theorem isImage_eq_false_iff : request.isImage = false ↔ request.Describes := by
  cases request with
  | iip r | iiifImage r | deepZoomTile r => exact iff_of_false nofun nofun
  | iiifInfo r => exact iff_of_true rfl (.iiifInfo r)
  | deepZoomDescriptor r => exact iff_of_true rfl (.deepZoomDescriptor r)

theorem Describes.not_showsPixels (h : request.Describes) : ¬ request.ShowsPixels := by
  cases h <;> nofun

/-! ## Formats -/

/-- The format of the answer. In the Internet Imaging Protocol a named export decides, and then the kind
of tile. -/
inductive HasFormat : Request → String → Prop where
  | exportedPng {r : Iip.Request} (hexport : r.exportAs = some "png") : HasFormat (.iip r) "png"
  | exportedOther {r : Iip.Request} {name : String} (hexport : r.exportAs = some name)
      (hother : name ≠ "png") : HasFormat (.iip r) "jpeg"
  | pngTile {r : Iip.Request} {index : List Int} (hexport : r.exportAs = none)
      (htile : r.pngTile = some index) : HasFormat (.iip r) "png"
  | noPngTile {r : Iip.Request} (hexport : r.exportAs = none) (htile : r.pngTile = none) :
      HasFormat (.iip r) "jpeg"
  | iiifImage (r : Iiif.ImageRequest) : HasFormat (.iiifImage r) (r.format.getD "jpg")
  | iiifInfo (r : Iiif.InfoRequest) : HasFormat (.iiifInfo r) r.extension
  | deepZoomDescriptor (r : DeepZoom.DescriptorRequest) : HasFormat (.deepZoomDescriptor r) "dzi"
  | deepZoomTile (r : DeepZoom.TileRequest) : HasFormat (.deepZoomTile r) (r.format.getD "jpeg")

theorem HasFormat.format_eq (h : request.HasFormat format) : request.format = format := by
  cases h with
  | exportedPng hexport => simp [Request.format, Iip.Request.output, Iip.Output.name, hexport]
  | exportedOther hexport hother =>
    simp [Request.format, Iip.Request.output, Iip.Output.name, hexport, hother]
  | pngTile hexport htile | noPngTile hexport htile =>
    simp [Request.format, Iip.Request.output, Iip.Output.name, hexport, htile]
  | iiifImage | iiifInfo | deepZoomDescriptor | deepZoomTile => rfl

/-- Every request has a format. -/
theorem exists_hasFormat (request : Request) : ∃ format, request.HasFormat format := by
  cases request with
  | iip r =>
    cases hexport : r.exportAs with
    | some name =>
      by_cases hname : name = "png"
      · exact ⟨_, .exportedPng (hname ▸ hexport)⟩
      · exact ⟨_, .exportedOther hexport hname⟩
    | none =>
      cases htile : r.pngTile with
      | some index => exact ⟨_, .pngTile hexport htile⟩
      | none => exact ⟨_, .noPngTile hexport htile⟩
  | iiifImage r => exact ⟨_, .iiifImage r⟩
  | iiifInfo r => exact ⟨_, .iiifInfo r⟩
  | deepZoomDescriptor r => exact ⟨_, .deepZoomDescriptor r⟩
  | deepZoomTile r => exact ⟨_, .deepZoomTile r⟩

theorem hasFormat_iff : request.HasFormat format ↔ request.format = format := by
  refine ⟨HasFormat.format_eq, ?_⟩
  rintro rfl
  obtain ⟨format, h⟩ := request.exists_hasFormat
  exact h.format_eq ▸ h

end Request

/-! ## Media types -/

/-- The formats of answers to requests that pass their checks, each with its media type. -/
def answerTypes : List (String × String) :=
  [("jpeg", "image/jpeg"), ("jpg", "image/jpeg"), ("png", "image/png"), ("tif", "image/tiff"),
    ("gif", "image/gif"), ("jp2", "image/jp2"), ("webp", "image/webp"), ("pdf", "application/pdf"),
    ("json", "application/json"), ("dzi", "application/xml")]

theorem mediaType_eq_of_mem {format type : String} (h : (format, type) ∈ answerTypes) :
    mediaType format = type ∧ type ≠ "application/octet-stream" := by
  have htable : ∀ entry ∈ answerTypes,
      mediaType entry.1 = entry.2 ∧ entry.2 ≠ "application/octet-stream" := by decide +kernel
  simpa only using htable _ h

namespace Request
variable {request : Request} {type : String}

/-- The media type that goes with the format of the answer. -/
def HasMediaType (request : Request) (type : String) : Prop :=
  ∃ format, request.HasFormat format ∧ (format, type) ∈ answerTypes

theorem format_mem (hcheck : request.check = .ok ()) :
    request.format ∈ answerTypes.map Prod.fst := by
  cases request with
  | iip r =>
    show r.output.name ∈ _
    cases r.output <;> decide
  | iiifImage r =>
    have hformats : ∀ f ∈ Iiif.formats, f ∈ answerTypes.map Prod.fst := by decide
    exact hformats _ (Iiif.ImageRequest.check_eq_ok_iff.1 hcheck).format_mem
  | iiifInfo r =>
    show r.extension ∈ _
    rw [(Iiif.InfoRequest.check_eq_ok_iff.1 hcheck).2]
    decide
  | deepZoomDescriptor r =>
    show "dzi" ∈ _
    decide
  | deepZoomTile r =>
    have hformats : ∀ f ∈ DeepZoom.tileFormats, f ∈ answerTypes.map Prod.fst := by decide
    exact hformats _ (DeepZoom.TileRequest.check_eq_ok_iff.1 hcheck).format_mem

theorem hasMediaType_iff (hcheck : request.check = .ok ()) :
    request.HasMediaType type ↔ mediaType request.format = type := by
  constructor
  · rintro ⟨format, hformat, hmem⟩
    rw [hformat.format_eq, (mediaType_eq_of_mem hmem).1]
  · rintro rfl
    obtain ⟨⟨format, type⟩, hmem, hformat⟩ := List.mem_map.1 (format_mem hcheck)
    refine ⟨format, hasFormat_iff.2 hformat.symm, ?_⟩
    rw [← hformat, (mediaType_eq_of_mem hmem).1]
    exact hmem

end Request

end ImageGate
