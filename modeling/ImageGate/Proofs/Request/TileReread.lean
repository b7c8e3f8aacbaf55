import ImageGate.Proofs.Backend.Addressings
import ImageGate.Proofs.Request.PathSplit
import ImageGate.Proofs.Request.TwistMatrices

/-! Tiles read back from their address. What the path of an accepted tile and its options say below the
base is the tile itself, whatever its image is called: named like other tiles or like a descriptor, in
folders of the same kind, with marks and triplets in its name. -/
namespace ImageGate
open Text Number Parameters
set_option autoImplicit false

/-! ## Accepted values -/

theorem percent_not_mem_of_isNumberText {cs : List Char} (h : IsNumberText cs) : '%' ∉ cs := by
  intro hmem
  obtain ⟨x, hread, hfinite⟩ := h
  have htrimmed : '%' ∈ trimChars cs := mem_trimChars hmem (by decide)
  exact absurd (Binary.isDecimalChar_of_read? hread hfinite htrimmed) (by decide)

/-- A colour twist is brackets, separators, numbers and blanks. -/
theorem twist_of_check {twist : String} (h : checkTwistText twist = .ok ()) :
    '%' ∉ twist.toList ∧ allBlank twist = false := by
  obtain ⟨inner, rows, htrimmed, hjoin, hrows⟩ := checkTwistText_eq_ok_iff.1 h
  rw [IsBracketed] at htrimmed
  constructor
  · intro hmem
    have hpercent : '%' ∈ trimChars twist.toList := mem_trimChars hmem (by decide)
    have hinside : '%' ∈ inner := by simpa [htrimmed] using hpercent
    obtain ⟨row, hrow, hmem⟩ := exists_mem_pieces hinside (by decide : '%' ≠ ';')
    rw [pieces_eq_iff.2 hjoin] at hrow
    obtain ⟨values, hvalues, -, hnumbers⟩ := hrows row hrow
    obtain ⟨value, hvalue, hmem⟩ := exists_mem_pieces hmem (by decide : '%' ≠ ',')
    rw [pieces_eq_iff.2 hvalues] at hvalue
    exact percent_not_mem_of_isNumberText (hnumbers value hvalue) hmem
  · have hbracket : '[' ∈ trimChars twist.toList := by
      rw [htrimmed]
      exact List.mem_cons_self
    obtain ⟨before, after, hsplit, -⟩ := exists_trimChars twist.toList
    have hmem : '[' ∈ twist.toList := by
      rw [hsplit]
      exact List.mem_append_right _ (List.mem_append_left _ hbracket)
    exact allBlank_of_mem hmem (by decide)

namespace DeepZoom

theorem not_mem_of_isTileCoordinate {tile : String} (h : isTileCoordinate tile = true) {c : Char}
    (hdigit : isDecimalDigit c = false) (hmark : c ≠ '_') : c ∉ tile.toList := by
  unfold isTileCoordinate at h
  split at h
  · next column row hcut =>
    rw [Bool.and_eq_true] at h
    have hcolumn := not_mem_run hdigit h.1
    have hrow := not_mem_run hdigit h.2
    rw [(cutFirst_eq_some hcut).1]
    simp [hcolumn, hrow, hmark]
  · cases h

namespace TileRequest

/-! ## The options -/

/-- What the options of a tile say. -/
def parameters (r : TileRequest) : Parameters :=
  ⟨entry "CNT" (r.contrast.map Binary.pointedText) ++ entry "GAM" (r.gamma.map Binary.pointedText)
    ++ entry "CMP" (r.colormap.map Percent.decodeText) ++ entry "CTW" (r.twist.map Percent.decodeText)
    ++ entry "INV" (if r.invert then some "" else none)
    ++ entry "COL" (r.colorSpace.map Percent.decodeText)⟩

theorem ofQuery_options (r : TileRequest) : ofQuery (optionText? r.tokens) = r.parameters := by
  have hentries := entries_ofQuery_optionText? r.tokens
  simp only [tokens, List.flatMap_append] at hentries
  rw [flatMap_ofToken_given (by decide +kernel) isQueryText_pointedText plain_pointedText,
    flatMap_ofToken_given (by decide +kernel) isQueryText_pointedText plain_pointedText,
    flatMap_ofToken_given (by decide +kernel) isQueryText_encodeComponent plain_encodeComponent,
    flatMap_ofToken_given (by decide +kernel) isQueryText_encodeComponent plain_encodeComponent,
    flatMap_ofToken_flag (by decide +kernel),
    flatMap_ofToken_given (by decide +kernel) isQueryText_encodeComponent plain_encodeComponent]
    at hentries
  exact congrArg Parameters.mk hentries

/-- The last value under each name is the one of its field. -/
theorem last?_parameters (r : TileRequest) :
    r.parameters.last? "CNT" = r.contrast.map Binary.pointedText ∧
      r.parameters.last? "GAM" = r.gamma.map Binary.pointedText ∧
      r.parameters.last? "CMP" = r.colormap.map Percent.decodeText ∧
      r.parameters.last? "CTW" = r.twist.map Percent.decodeText ∧
      r.parameters.last? "INV" = (if r.invert then some "" else none) ∧
      r.parameters.last? "COL" = r.colorSpace.map Percent.decodeText := by
  simp [parameters, last?_append, last?_entry]

theorem text?_of_accepted {ps : Parameters} {name : String} {value : Option String}
    (h : ps.last? name = value.map Percent.decodeText)
    (hvalue : ∀ v ∈ value, '%' ∉ v.toList ∧ allBlank v = false) : ps.text? name = value := by
  have hdecoded : value.map Percent.decodeText = value := by
    cases value with
    | none => rfl
    | some v => exact congrArg some (Percent.decodeText_of_percent_not_mem (hvalue v rfl).1)
  rw [hdecoded] at h
  exact text?_eq h fun v hv => (hvalue v hv).2

/-! ## The path -/

variable {r : TileRequest}

theorem format_facts : ∀ f ∈ tileFormats, '%' ∉ f.toList ∧ '/' ∉ f.toList ∧ '.' ∉ f.toList ∧ f ≠ "" ∧
    f ≠ "dzi" := by
  decide

/-- Layer and file behind the separator. -/
theorem Accepted.toList_partName (hr : r.Accepted) :
    r.partName.toList = "_files/".toList ++ (Nat.toDigits 10 r.layer ++
      '/' :: (r.tile ++ "." ++ r.format.getD "jpeg").toList) := by
  have htile : Percent.decodeText r.tile = r.tile :=
    Percent.decodeText_of_percent_not_mem (not_mem_of_isTileCoordinate hr.tile (by decide) (by decide))
  have hformat : Percent.decodeText (r.format.getD "jpeg") = r.format.getD "jpeg" :=
    Percent.decodeText_of_percent_not_mem (format_facts _ hr.format_mem).1
  rw [partName, htile, hformat]
  simp [natText, String.toList_append]

theorem Accepted.slash_not_mem_file (hr : r.Accepted) :
    '/' ∉ (r.tile ++ "." ++ r.format.getD "jpeg").toList := by
  have htile : '/' ∉ r.tile.toList := not_mem_of_isTileCoordinate hr.tile (by decide) (by decide)
  have hformat := (format_facts _ hr.format_mem).2.1
  simp [String.toList_append, htile, hformat]

theorem Accepted.ofParts_eq (hr : r.Accepted) (hlayer : r.layer < 2 ^ 32)
    (hcontrast : ∀ c ∈ r.contrast, c.isFinite = true) (hgamma : ∀ g ∈ r.gamma, g.isFinite = true)
    (image : String) :
    ofParts image (String.ofList (Nat.toDigits 10 r.layer ++
        '/' :: (r.tile ++ "." ++ r.format.getD "jpeg").toList)) (optionText? r.tokens)
      = .ok { r with image, format := some (r.format.getD "jpeg") } := by
  have hslash : '/' ∉ Nat.toDigits 10 r.layer := not_mem_run (by decide) (isRunOf_toDigits r.layer)
  have htrim : trimChars (Nat.toDigits 10 r.layer) = Nat.toDigits 10 r.layer :=
    trimChars_of_not_blank fun c hc => isBlank_of_isNumeralChar (isNumeralChar_of_mem_toDigits hc)
  have hread : readAs "layer" .natural (readNat? (2 ^ 32)) (String.ofList (Nat.toDigits 10 r.layer))
      = .ok r.layer := by
    rw [readAs, String.toList_ofList, htrim, readNat?_toDigits hlayer]
  obtain ⟨-, -, hpoint, hne, -⟩ := format_facts _ hr.format_mem
  have hfile := splitExtension_append hpoint hne r.tile
  obtain ⟨hcnt, hgam, hcmp, hctw, hinv, hcol⟩ := r.last?_parameters
  have hcolormaps : ∀ v ∈ colormaps, '%' ∉ v.toList ∧ allBlank v = false := by decide
  have hcolorSpaces : ∀ v ∈ colorSpaces, '%' ∉ v.toList ∧ allBlank v = false := by decide
  have hcolormap := text?_of_accepted hcmp fun v hv => hcolormaps v (hr.colormap v hv)
  have htwist := text?_of_accepted hctw fun v hv => twist_of_check (hr.twist v hv)
  have hcolorSpace := text?_of_accepted hcol fun v hv => hcolorSpaces v (hr.colorSpace v hv)
  unfold ofParts
  simp only [String.toList_ofList, cutFirst_append_cons hslash, hread, String.ofList_toList, hfile,
    r.ofQuery_options, number_eq hcnt hcontrast, number_eq hgam hgamma, flag_eq hinv, hcolormap,
    htwist, hcolorSpace]
  rfl

end TileRequest

/-! ## Reading an address again -/

/-- What the front end reads out of the path and the query below a base. -/
def rereadAt? (base address : String) : Option (Reading Request) := do
  let parts := cutQuery (← behind? (withoutEndSlashes base) "/" address)
  return requestOfPath (← Percent.decodeText? parts.1) parts.2

/-- The tile with its name decoded once, without slashes in front, and with a named format. -/
def TileRequest.settled (r : TileRequest) : TileRequest :=
  { r with
    image := String.ofList ((Percent.decodeText r.image).toList.dropWhile (· == '/'))
    format := some (r.format.getD "jpeg") }

theorem TileRequest.requestOfPath_eq {r : TileRequest} (hr : r.Accepted) (hlayer : r.layer < 2 ^ 32)
    (hcontrast : ∀ c ∈ r.contrast, c.isFinite = true) (hgamma : ∀ g ∈ r.gamma, g.isFinite = true) :
    requestOfPath (Percent.decodeText r.image ++ r.partName) (optionText? r.tokens)
      = .ok (.deepZoomTile r.settled) := by
  let image := (Percent.decodeText r.image).toList.dropWhile (· == '/')
  let file := (r.tile ++ "." ++ r.format.getD "jpeg").toList
  have hpart := hr.toList_partName
  have hhead : ∀ c ∈ r.partName.toList.head?, (c == '/') = false := by
    intro c hc
    rw [hpart] at hc
    rw [← Option.some.inj hc]
    decide
  have hslashes : IsBehindSlashes (Percent.decodeText r.image ++ r.partName)
      (image ++ ("_files/".toList ++ (Nat.toDigits 10 r.layer ++ '/' :: file))) := by
    have hdrop := isBehindSlashes_dropWhile (Percent.decodeText r.image ++ r.partName)
    rwa [String.toList_append, (span_append hhead _).2, hpart] at hdrop
  have hend : ¬ ".dzi".toList <:+
      image ++ ("_files/".toList ++ (Nat.toDigits 10 r.layer ++ '/' :: file)) := by
    obtain ⟨-, -, hpoint, -, hdescriptor⟩ := format_facts _ hr.format_mem
    have hfront := not_suffix_of_format hpoint hdescriptor
      (image ++ ("_files/".toList ++ (Nat.toDigits 10 r.layer ++ '/' :: r.tile.toList)))
    simpa [file, String.toList_append] using hfront
  have hpath := isTilePath_files hr.slash_not_mem_file image r.layer
  rw [requestOfPath_of_cut hslashes hend hpath.cut, hr.ofParts_eq hlayer hcontrast hgamma]
  rfl

/-- Reading the address of an accepted tile gives the tile again. -/
theorem TileRequest.rereadAt?_address {r : TileRequest} (hcheck : r.check = .ok ())
    (hlayer : r.layer < 2 ^ 32) (hcontrast : ∀ c ∈ r.contrast, c.isFinite = true)
    (hgamma : ∀ g ∈ r.gamma, g.isFinite = true) (backends : Backends) (base : String) :
    ∃ address, (Request.deepZoomTile r).address
        { backends with deepZoom := some (.ofBase base .path) } = .ok address ∧
      rereadAt? base address = some (.ok (.deepZoomTile r.settled)) := by
  have hr := check_eq_ok_iff.1 hcheck
  have hbehind : behind? (withoutEndSlashes base) "/" (r.address (.ofBase base .path))
      = some (r.path ++ queryText "?" r.tokens).toList := by
    have haddress : r.address (.ofBase base .path)
        = withoutEndSlashes base ++ "/" ++ (r.path ++ queryText "?" r.tokens) := by
      rw [← String.append_assoc]
      rfl
    rw [haddress, behind?_append]
  have hquery : cutQuery (r.path ++ queryText "?" r.tokens).toList = (r.path, optionText? r.tokens) :=
    cutQuery_queryText (r.mark_not_mem_path (.inl rfl)) r.tokens
  refine ⟨_, rfl, ?_⟩
  show rereadAt? base (r.address (.ofBase base .path)) = _
  simp only [rereadAt?, hbehind, hquery, r.pathReads.decoded.decodeText?_eq, Option.bind_eq_bind,
    Option.bind_some, requestOfPath_eq hr hlayer hcontrast hgamma]
  rfl

/-- An image named like a descriptor in a folder named like one of tiles, with slashes in front, an
encoded triplet, marks of a query and a plus sign. -/
theorem TileRequest.rereadAt?_nested_name :
    let r : TileRequest :=
      { image := "//a_files/1/b%2525&c+d?.dzi", layer := 3, tile := "0_12"
        contrast := some (.ofRatio false 3 2), twist := some " [1,0,0; 0,-1e0,0 ;.5,0,1] "
        invert := true, colorSpace := some "binary" }
    let base := "http://b.test/dz/"
    let address := "http://b.test/dz///a_files/1/b%2525%26c+d%3F.dzi_files/3/0_12.jpeg?CNT=1.5"
      ++ "&CTW=%20%5B1%2C0%2C0%3B%200%2C-1e0%2C0%20%3B.5%2C0%2C1%5D%20&INV&COL=binary"
    r.check = .ok () ∧ r.layer < 2 ^ 32 ∧ (∀ c ∈ r.contrast, c.isFinite = true) ∧
      (∀ g ∈ r.gamma, g.isFinite = true) ∧
      (Request.deepZoomTile r).address { deepZoom := some (.ofBase base .path) } = .ok address ∧
      rereadAt? base address = some (.ok (.deepZoomTile
        { r with image := "a_files/1/b%25&c+d?.dzi", format := some "jpeg" })) := by
  intro r base address
  have hcheck : r.check = .ok () := by decide +kernel
  have hlayer : r.layer < 2 ^ 32 := by decide
  have hcontrast : ∀ c ∈ r.contrast, c.isFinite = true := by decide +kernel
  have hgamma : ∀ g ∈ r.gamma, g.isFinite = true := nofun
  have haddress : (Request.deepZoomTile r).address { deepZoom := some (.ofBase base .path) }
      = .ok address := congrArg Except.ok (by decide +kernel)
  have hname : String.ofList ((Percent.decodeText r.image).toList.dropWhile (· == '/'))
      = "a_files/1/b%25&c+d?.dzi" := by decide +kernel
  obtain ⟨a, ha, hread⟩ := TileRequest.rereadAt?_address hcheck hlayer hcontrast hgamma {} base
  have hsame : a = address := Except.ok.inj (ha.symm.trans haddress)
  rw [hsame, TileRequest.settled, hname] at hread
  exact ⟨hcheck, hlayer, hcontrast, hgamma, haddress, hread⟩

end DeepZoom

end ImageGate
