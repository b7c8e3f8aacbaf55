import ImageGate.Request.Rules
import ImageGate.Proofs.Text.Cutting
import Mathlib.Data.List.Basic

/-! Accepted requests. A check in several steps passes exactly if every step does, so a request that
passes its check keeps every rule of its protocol at once. -/
namespace ImageGate
open Text Number
set_option autoImplicit false

/-! ## Checks -/

theorem require_eq_ok_iff {holds : Bool} {broken : Violation} :
    require holds broken = .ok () ↔ holds = true := by
  cases holds <;> simp [require]

theorem check_bind_eq_ok_iff {ε : Type} {first : Except ε Unit} {rest : Unit → Except ε Unit} :
    (first >>= rest) = .ok () ↔ first = .ok () ∧ rest () = .ok () := by
  cases first with
  | error violation => simp [bind, Except.bind]
  | ok u => simp [bind, Except.bind]

theorem checkGiven_eq_ok_iff {α : Type} {value : Option α} {check : α → Check} :
    checkGiven value check = .ok () ↔ ∀ v ∈ value, check v = .ok () := by
  cases value <;> simp [checkGiven]

theorem forM_eq_ok_iff {α : Type} {values : List α} {check : α → Check} :
    values.forM check = .ok () ↔ ∀ v ∈ values, check v = .ok () := by
  induction values with
  | nil => exact iff_of_true rfl nofun
  | cons v values ih =>
    show (check v >>= fun _ => values.forM check) = .ok () ↔ _
    rw [check_bind_eq_ok_iff, ih, List.forall_mem_cons]

/-- Of a requirement on every one of some named parts. -/
theorem forM_zip_require_eq_ok_iff {α : Type} (names : List String) {values : List α} (holds : α → Bool)
    (broken : String → α → Violation) (hlength : values.length ≤ names.length) :
    (names.zip values).forM (fun (name, v) => require (holds v) (broken name v)) = .ok () ↔
      ∀ v ∈ values, holds v = true := by
  rw [forM_eq_ok_iff, ← List.map_snd_zip hlength, List.forall_mem_map, List.map_snd_zip hlength]
  exact forall₂_congr fun pair _ => require_eq_ok_iff

theorem checkOneOf_eq_ok_iff {field : String} {allowed : List String} {value : String} :
    checkOneOf field allowed value = .ok () ↔ value ∈ allowed := by
  rw [checkOneOf, require_eq_ok_iff, List.contains_iff_mem]

theorem getD_mem {α : Type} {value : Option α} {standard : α} {allowed : List α}
    (h : ∀ v ∈ value, v ∈ allowed) (hstandard : standard ∈ allowed) :
    value.getD standard ∈ allowed := by
  cases value with
  | none => exact hstandard
  | some v => exact h v rfl

/-! ## Internet Imaging Protocol -/

/-- The rules that an Internet Imaging Protocol request keeps. -/
structure Iip.Request.Accepted (r : Iip.Request) : Prop where
  image : allBlank r.image = false
  output : r.outputNames.length ≤ 1
  exportAs : ∀ format ∈ r.exportAs, format ∈ exportFormats
  jpegTile : ∀ index ∈ r.jpegTile, index.length = 2
  pngTile : ∀ index ∈ r.pngTile, index.length = 2
  width : r.width.isSome → r.exportAs.isSome
  height : r.height.isSome → r.exportAs.isSome
  region : ∀ values ∈ r.region, checkRegion r.exportAs.isSome values = .ok ()
  quality : ∀ value ∈ r.quality, checkQuality r.output value = .ok ()
  contrast : ∀ c ∈ r.contrast, isNegative c = false
  rotation : ∀ turn ∈ r.rotation, turn ∈ rotations
  colormap : ∀ name ∈ r.colormap, name ∈ colormaps
  profile : ∀ p ∈ r.profile, checkProfile p = .ok ()
  twist : ∀ t ∈ r.twist, checkTwistText t = .ok ()
  colorSpace : ∀ name ∈ r.colorSpace, name ∈ colorSpaces

theorem Iip.Request.check_eq_ok_iff {r : Iip.Request} : r.check = .ok () ↔ r.Accepted := by
  simp only [check, check_bind_eq_ok_iff, checkIdentifier, checkTileIndex, checkContrast,
    checkColormap, checkTwist, checkColorSpace, checkGiven_eq_ok_iff, checkOneOf_eq_ok_iff,
    require_eq_ok_iff, List.contains_iff_mem, decide_eq_true_eq, beq_iff_eq,
    Bool.not_eq_eq_eq_not, Bool.not_true]
  constructor
  · rintro ⟨image, output, exportAs, jpegTile, pngTile, width, height, region, quality, contrast,
      rotation, colormap, profile, twist, colorSpace⟩
    exact {
      image, output, exportAs, jpegTile, pngTile, region, quality, contrast, rotation, colormap
      profile, twist, colorSpace
      width := fun hw => width _ (Option.get_mem hw)
      height := fun hh => height _ (Option.get_mem hh) }
  · intro h
    exact ⟨h.image, h.output, h.exportAs, h.jpegTile, h.pngTile,
      fun _ hw => h.width (Option.isSome_of_mem hw), fun _ hh => h.height (Option.isSome_of_mem hh),
      h.region, h.quality, h.contrast, h.rotation, h.colormap, h.profile, h.twist, h.colorSpace⟩

/-! ## DeepZoom -/

/-- The rules that a DeepZoom tile request keeps. -/
structure DeepZoom.TileRequest.Accepted (r : DeepZoom.TileRequest) : Prop where
  image : allBlank r.image = false
  tile : isTileCoordinate r.tile = true
  format : ∀ f ∈ r.format, f ∈ tileFormats
  contrast : ∀ c ∈ r.contrast, isNegative c = false
  colormap : ∀ name ∈ r.colormap, name ∈ colormaps
  twist : ∀ t ∈ r.twist, checkTwistText t = .ok ()
  colorSpace : ∀ name ∈ r.colorSpace, name ∈ colorSpaces

theorem DeepZoom.TileRequest.Accepted.format_mem {r : DeepZoom.TileRequest} (h : r.Accepted) :
    r.format.getD "jpeg" ∈ tileFormats := getD_mem h.format (by decide)

theorem DeepZoom.TileRequest.check_eq_ok_iff {r : DeepZoom.TileRequest} :
    r.check = .ok () ↔ r.Accepted := by
  simp only [check, check_bind_eq_ok_iff, checkIdentifier, checkContrast, checkColormap,
    checkTwist, checkColorSpace, checkGiven_eq_ok_iff, checkOneOf_eq_ok_iff, require_eq_ok_iff,
    List.contains_iff_mem, Bool.not_eq_eq_eq_not, Bool.not_true]
  constructor
  · rintro ⟨image, tile, format, contrast, colormap, twist, colorSpace⟩
    exact { image, tile, format, contrast, colormap, twist, colorSpace }
  · intro h
    exact ⟨h.image, h.tile, h.format, h.contrast, h.colormap, h.twist, h.colorSpace⟩

/-! ## IIIF -/

/-- The rules that an IIIF image request keeps. -/
structure Iiif.ImageRequest.Accepted (r : Iiif.ImageRequest) : Prop where
  identifier : allBlank r.identifier = false
  region : isRegion r.region = true
  size : isSize r.size = true
  rotation : isRotation r.rotation = true
  quality : r.quality ∈ qualities
  format : ∀ f ∈ r.format, f ∈ formats

theorem Iiif.ImageRequest.Accepted.format_mem {r : Iiif.ImageRequest} (h : r.Accepted) :
    r.format.getD "jpg" ∈ formats := getD_mem h.format (by decide)

theorem Iiif.ImageRequest.check_eq_ok_iff {r : Iiif.ImageRequest} :
    r.check = .ok () ↔ r.Accepted := by
  simp only [check, check_bind_eq_ok_iff, checkIdentifier, checkGiven_eq_ok_iff,
    require_eq_ok_iff, List.contains_iff_mem, Bool.not_eq_eq_eq_not, Bool.not_true]
  constructor
  · rintro ⟨identifier, region, size, rotation, quality, format⟩
    exact { identifier, region, size, rotation, quality, format }
  · intro h
    exact ⟨h.identifier, h.region, h.size, h.rotation, h.quality, h.format⟩

theorem Iiif.InfoRequest.check_eq_ok_iff {r : Iiif.InfoRequest} :
    r.check = .ok () ↔ allBlank r.identifier = false ∧ r.extension = "json" := by
  simp only [check, check_bind_eq_ok_iff, checkIdentifier, require_eq_ok_iff, beq_iff_eq,
    Bool.not_eq_eq_eq_not, Bool.not_true]

end ImageGate
