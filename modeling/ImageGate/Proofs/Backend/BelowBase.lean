import ImageGate.Proofs.Backend.AddressReading
import ImageGate.Proofs.Request.Accepted
import ImageGate.Proofs.Url.Below

/-! Requests below their base. A server that takes the name of the image as part of its path is asked
below its own base for every name that does not climb above its first folder. Points are never
encoded, so a name that climbs takes the request out of the base. -/
namespace ImageGate
open Text Number Url
set_option autoImplicit false

/-! ## Path and query behind the base -/

/-- The base of the server that takes the name of the image as part of its path. -/
def Backends.HasPathBase (backends : Backends) (base : String) : Protocol → Prop
  | .iip => False
  | .iiif => backends.iiif = some base
  | .deepZoom => backends.deepZoom = some (.ofBase base .path)

namespace Request

def pathBehind : Request → String
  | iip _ => ""
  | iiifImage r => joined "/" [encodeComponent r.identifier, encodeSegment r.region,
      encodeSegment r.size, encodeSegment r.rotation,
      encodeSegment r.quality ++ "." ++ encodeSegment (r.format.getD "jpg")]
  | iiifInfo r => joined "/" [encodeComponent r.identifier, "info." ++ encodeSegment r.extension]
  | deepZoomDescriptor r => encodeImagePath r.path
  | deepZoomTile r => r.path

def queryBehind : Request → String
  | iip _ | iiifImage _ | iiifInfo _ | deepZoomDescriptor _ => ""
  | deepZoomTile r => queryText "?" r.tokens

/-- The decoded segments behind the base that the caller chooses freely. No other segment is one of
two dots. -/
def folders : Request → List (List Char)
  | iip _ => []
  | iiifImage r => [(Percent.decodeText r.identifier).toList]
  | iiifInfo r => [(Percent.decodeText r.identifier).toList]
  | deepZoomDescriptor r => pieces '/' (Percent.decodeText r.path).toList
  -- The last one goes on with the mark of tiles.
  | deepZoomTile r => (pieces '/' (Percent.decodeText r.image).toList).dropLast

/-- Whether the name of the image leads above the folder where it starts. -/
def climbs (request : Request) : Bool :=
  Url.climbs (· == ['.', '.']) (· == ['.']) 0 request.folders

theorem address_eq {request : Request} {backends : Backends} {base : String}
    (h : backends.HasPathBase base request.protocol) :
    request.address backends
      = .ok (withoutEndSlashes base ++ "/" ++ (request.pathBehind ++ request.queryBehind)) := by
  cases request with
  | iip r => cases h
  | iiifImage r =>
    have hbase : backends.iiif = some base := h
    have haddress : r.address base = withoutEndSlashes base ++ "/" ++ (iiifImage r).pathBehind :=
      joined_cons (List.cons_ne_nil _ _) _
    rw [address, hbase, queryBehind, String.append_empty, ← haddress]
    rfl
  | iiifInfo r =>
    have hbase : backends.iiif = some base := h
    have haddress : r.address base = withoutEndSlashes base ++ "/" ++ (iiifInfo r).pathBehind :=
      joined_cons (List.cons_ne_nil _ _) _
    rw [address, hbase, queryBehind, String.append_empty, ← haddress]
    rfl
  | deepZoomDescriptor r =>
    have hserver : backends.deepZoom = some (.ofBase base .path) := h
    rw [address, hserver, queryBehind, String.append_empty]
    rfl
  | deepZoomTile r =>
    have hserver : backends.deepZoom = some (.ofBase base .path) := h
    rw [address, hserver, ← String.append_assoc]
    rfl

end Request

/-! ## Characters -/

theorem isPathText_of_kept {c : Char} (hc : c.toNat < 0x80)
    (h : Percent.isSegmentByte (UInt8.ofNat c.toNat) = true ∨ c = '/') :
    isTrimmed c = false ∧ c ∉ ['?', '#', '\\'] := by
  have htable : ∀ n < 0x80, (Percent.isSegmentByte (UInt8.ofNat n) = true ∨ Char.ofNat n = '/') →
      isTrimmed (Char.ofNat n) = false ∧ Char.ofNat n ∉ ['?', '#', '\\'] := by
    decide +kernel
  have hn := htable c.toNat hc
  rw [Char.ofNat_toNat] at hn
  exact hn h

theorem IsQueryText.isPathText {s : String} (h : IsQueryText s) : IsPathText s := by
  intro c hc
  have hquery := h c hc
  simp only [isQueryChar, Bool.or_eq_true, Bool.and_eq_true, decide_eq_true_eq, beq_iff_eq] at hquery
  rcases hquery with (⟨hascii, hkept⟩ | rfl) | rfl
  · exact isPathText_of_kept hascii (.inl (by rw [Percent.isSegmentByte, hkept, Bool.true_or]))
  · decide
  · decide

theorem isPathText_encode {keep : UInt8 → Bool} (h : Percent.IsKeepable keep)
    (hkeep : ∀ b, keep b = true → Percent.isSegmentByte b = true ∨ b = 0x2f) (s : String) :
    IsPathText (Percent.encode keep s) := by
  intro c hc
  rcases Percent.mem_encode hc with ⟨b, hb, rfl⟩ | rfl | ⟨n, hn, rfl⟩
  · have hascii : (Char.ofNat b.toNat).toNat < 0x80 := by
      rw [Utf8.toNat_ofNat_toNat]
      exact h.ascii b hb
    refine isPathText_of_kept hascii ?_
    rw [Utf8.toNat_ofNat_toNat, UInt8.ofNat_toNat]
    exact (hkeep b hb).imp_right fun he => by rw [he]; rfl
  · decide
  · exact (by decide : ∀ n < 16, isTrimmed (Percent.hexDigit n) = false ∧
      Percent.hexDigit n ∉ ['?', '#', '\\']) n hn

theorem isPathText_encodeSegment (s : String) : IsPathText (encodeSegment s) :=
  isPathText_encode Percent.isKeepable_isSegmentByte (fun _ => .inl) s

theorem isPathText_encodeImagePath (s : String) : IsPathText (encodeImagePath s) := by
  refine isPathText_encode Percent.isKeepable_isFolderPathByte (fun b hb => ?_) _
  rw [Percent.isFolderPathByte, Bool.or_eq_true, Bool.and_eq_true, beq_iff_eq] at hb
  exact hb.imp_left And.left

theorem isPathText_joined {segments : List String} (h : ∀ s ∈ segments, IsPathText s) :
    IsPathText (joined "/" segments) := by
  intro c hc
  rw [joined, String.toList_intercalate] at hc
  rcases mem_intercalate hc with hc | ⟨p, hp, hc⟩
  · rw [List.mem_singleton.1 hc]
    decide
  · obtain ⟨s, hs, rfl⟩ := List.mem_map.1 hp
    exact h s hs c hc

theorem Request.isPathText_pathBehind (request : Request) : IsPathText request.pathBehind := by
  have hcomponent : ∀ s, IsPathText (encodeComponent s) := fun s =>
    (isQueryText_encodeComponent s).isPathText
  have hpoint : IsPathText "." := by decide
  cases request with
  | iip r => exact nofun
  | iiifImage r =>
    have hfile : IsPathText (encodeSegment r.quality ++ "." ++ encodeSegment (r.format.getD "jpg")) :=
      ((isPathText_encodeSegment _).append hpoint).append (isPathText_encodeSegment _)
    refine isPathText_joined ?_
    simp [hcomponent, isPathText_encodeSegment, hfile]
  | iiifInfo r =>
    have hinfo : IsPathText ("info." ++ encodeSegment r.extension) :=
      IsPathText.append (by decide) (isPathText_encodeSegment _)
    refine isPathText_joined ?_
    simp [hcomponent, hinfo]
  | deepZoomDescriptor r => exact isPathText_encodeImagePath r.path
  | deepZoomTile r =>
    have hfiles : IsPathText "_files/" := by decide
    have hslash : IsPathText "/" := by decide
    exact ((((((isPathText_encodeImagePath r.image).append hfiles).append
      (isQueryText_natText r.layer).isPathText).append hslash).append (hcomponent r.tile)).append
        hpoint).append (hcomponent _)

theorem DeepZoom.TileRequest.isPlain_tokens (r : TileRequest) : ∀ t ∈ r.tokens, t.IsPlain := by
  simp only [tokens, List.forall_mem_append, and_assoc]
  refine ⟨?_, ?_, ?_, ?_, ?_, ?_⟩
  · exact isPlain_given isQueryText_pointedText (by decide) r.contrast
  · exact isPlain_given isQueryText_pointedText (by decide) r.gamma
  · exact isPlain_given isQueryText_encodeComponent (by decide) r.colormap
  · exact isPlain_given isQueryText_encodeComponent (by decide) r.twist
  · exact isPlain_flag (by decide) r.invert
  · exact isPlain_given isQueryText_encodeComponent (by decide) r.colorSpace

theorem isQueryPart_queryText {tokens : List Token} (h : ∀ t ∈ tokens, t.IsPlain) :
    IsQueryPart (queryText "?" tokens) := by
  cases tokens with
  | nil => exact ⟨nofun, .inl rfl⟩
  | cons t rest =>
    have hlist := toList_queryText "?" t rest
    refine ⟨fun c hc => Bool.eq_false_iff.2 fun htrimmed => ?_, .inr ⟨_, hlist⟩⟩
    have hsmall : c.toNat < 0x21 := Nat.lt_succ_of_le (of_decide_eq_true htrimmed)
    have htable : ∀ n < 0x21, isQueryChar (Char.ofNat n) = false ∧ Char.ofNat n ≠ '=' ∧
        Char.ofNat n ≠ '&' ∧ Char.ofNat n ≠ '?' := by decide +kernel
    obtain ⟨hquery, heq, hamp, hmark⟩ := htable c.toNat hsmall
    rw [Char.ofNat_toNat] at hquery heq hamp hmark
    rw [hlist, List.mem_append] at hc
    rcases hc with hc | hc
    · exact hmark (List.mem_singleton.1 hc)
    · exact not_mem_intercalate_text h hquery heq hamp hc

theorem Request.isQueryPart_queryBehind (request : Request) : IsQueryPart request.queryBehind := by
  cases request with
  | deepZoomTile r => exact isQueryPart_queryText r.isPlain_tokens
  | _ => exact ⟨nofun, .inl rfl⟩

/-! ## Climbing -/

theorem isDoubleDot_encodeSegment (s : String) :
    isDoubleDot (encodeSegment s).toList = (s.toList == ['.', '.']) := by
  rw [encodeSegment, Percent.toList_encode, isDoubleDot_flatMap (by decide) (by decide)]

/-- A rule that refuses two dots keeps them out of an encoded segment. -/
theorem isDoubleDot_encodeSegment_of {accepts : String → Bool} (hdots : accepts ".." = false)
    {s : String} (h : accepts s = true) : isDoubleDot (encodeSegment s).toList = false := by
  rw [isDoubleDot_encodeSegment, Bool.eq_false_iff, ne_eq, beq_iff_eq]
  intro hs
  have hsame : s = ".." := String.toList_inj.1 hs
  rw [hsame, hdots] at h
  cases h

theorem isDoubleDot_natText (n : Nat) : isDoubleDot (natText n).toList = false := by
  have hdigits : ∀ c, isPlainDigit c = false → c ∉ (natText n).toList := by
    intro c hc hmem
    rw [natText, String.toList_ofList] at hmem
    exact Bool.false_ne_true (hc.symm.trans (isPlainDigit_of_mem_toDigits hmem))
  exact isDoubleDot_of_not_mem (hdigits '.' rfl) (hdigits '%' rfl)

/-- Below a name nothing steps up, so the name alone decides. -/
theorem climbsFrom_joined {name : String} {below : List String}
    (hslash : ∀ s ∈ below, '/' ∉ s.toList) (hdots : ∀ s ∈ below, isDoubleDot s.toList = false) :
    climbsFrom 0 (pieces '/' (joined "/" (encodeComponent name :: below)).toList)
      = Url.climbs (· == ['.', '.']) (· == ['.']) 0 [(Percent.decodeText name).toList] := by
  have hfree : ∀ s ∈ encodeComponent name :: below, '/' ∉ s.toList := by
    simpa [slash_not_mem_encodeComponent] using hslash
  have hbelow : ∀ segment ∈ below.map String.toList, isDoubleDot segment = false := by
    simpa using hdots
  have hname : [(encodeComponent name).toList]
      = [(Percent.decodeText name).toList].map fun p =>
          p.flatMap (Percent.encodeChar Percent.isUnreserved) := by
    rw [encodeComponent, Percent.toList_encode]
    rfl
  rw [pieces_joined hfree (List.cons_ne_nil _ _), List.map_cons, ← List.singleton_append, climbsFrom,
    climbs_append hbelow, ← climbsFrom, hname, climbsFrom_encode (by decide) (by decide)]

theorem climbsFrom_encodeImagePath (s : String) :
    climbsFrom 0 (pieces '/' (encodeImagePath s).toList)
      = Url.climbs (· == ['.', '.']) (· == ['.']) 0 (pieces '/' (Percent.decodeText s).toList) := by
  rw [encodeImagePath, pieces_encode (by decide), climbsFrom_encode (by decide) (by decide)]

/-- The tiles of an image have its folders above them, and no step up in between. -/
theorem DeepZoom.TileRequest.climbsFrom_path {r : TileRequest} (hr : r.Accepted) :
    climbsFrom 0 (pieces '/' r.path.toList)
      = Url.climbs (· == ['.', '.']) (· == ['.']) 0
          (pieces '/' (Percent.decodeText r.image).toList).dropLast := by
  have hformat : ∀ f ∈ tileFormats, 'p' ∈ (encodeComponent f).toList := by decide +kernel
  let file := (encodeComponent r.tile ++ "." ++ encodeComponent (r.format.getD "jpeg")).toList
  have hpath : r.path.toList = ((encodeImagePath r.image).toList ++ "_files".toList)
      ++ '/' :: ((natText r.layer).toList ++ '/' :: file) := by
    simp [path, file, String.toList_append]
  have hfile : '/' ∉ file := by
    simp only [file, String.toList_append, List.mem_append, not_or]
    exact ⟨⟨slash_not_mem_encodeComponent _, by decide⟩, slash_not_mem_encodeComponent _⟩
  have hlayer : '/' ∉ (natText r.layer).toList := (isQueryText_natText r.layer).not_mem (by decide)
  have hmark : '/' ∉ "_files".toList := by decide
  obtain ⟨last, hlast⟩ := exists_pieces_append hmark (encodeImagePath r.image).toList
  have hbelow : ∀ segment ∈ [last ++ "_files".toList, (natText r.layer).toList, file],
      isDoubleDot segment = false := by
    have hletter : 'p' ∈ file := by
      simp only [file, String.toList_append, List.mem_append]
      exact .inr (hformat _ hr.format_mem)
    simp only [List.mem_cons, List.not_mem_nil, or_false]
    rintro segment (rfl | rfl | rfl)
    · exact isDoubleDot_of_mem (c := '_') (by simp) (by decide)
    · exact isDoubleDot_natText r.layer
    · exact isDoubleDot_of_mem hletter (by decide)
  have hfolders : (pieces '/' (encodeImagePath r.image).toList).dropLast
      = (pieces '/' (Percent.decodeText r.image).toList).dropLast.map fun p =>
          p.flatMap (Percent.encodeChar Percent.isFolderPathByte) := by
    rw [encodeImagePath, pieces_encode (by decide), List.map_dropLast]
  rw [hpath, pieces_append_cons, pieces_append_cons, hlast, pieces_of_not_mem hlayer,
    pieces_of_not_mem hfile, List.append_assoc, climbsFrom]
  refine (climbs_append hbelow _ _ _).trans ?_
  rw [hfolders, ← climbsFrom, climbsFrom_encode (by decide) (by decide)]

theorem Request.climbsFrom_pathBehind {request : Request} (hcheck : request.check = .ok ()) :
    climbsFrom 0 (pieces '/' request.pathBehind.toList) = request.climbs := by
  cases request with
  | iip r => rfl
  | iiifImage r =>
    have hr : r.Accepted := Iiif.ImageRequest.check_eq_ok_iff.1 hcheck
    have hfile : ∀ q ∈ Iiif.qualities, ∀ f ∈ Iiif.formats,
        isDoubleDot (encodeSegment q ++ "." ++ encodeSegment f).toList = false := by
      decide +kernel
    refine climbsFrom_joined ?_ ?_
    · simp [slash_not_mem_encodeSegment]
    · simp only [List.mem_cons, List.not_mem_nil, or_false]
      rintro s (rfl | rfl | rfl | rfl)
      · exact isDoubleDot_encodeSegment_of (by decide) hr.region
      · exact isDoubleDot_encodeSegment_of (by decide) hr.size
      · exact isDoubleDot_encodeSegment_of (by decide) hr.rotation
      · exact hfile _ hr.quality _ hr.format_mem
  | iiifInfo r =>
    obtain ⟨-, hextension⟩ := Iiif.InfoRequest.check_eq_ok_iff.1 hcheck
    refine climbsFrom_joined ?_ ?_
    · simp [slash_not_mem_encodeSegment]
    · rw [hextension]
      decide +kernel
  | deepZoomDescriptor r => exact climbsFrom_encodeImagePath r.path
  | deepZoomTile r =>
    exact DeepZoom.TileRequest.climbsFrom_path (DeepZoom.TileRequest.check_eq_ok_iff.1 hcheck)

/-! ## Requests below their base -/

namespace Request

theorem exists_hasPathBase {protocol : Protocol} (h : protocol ≠ .iip) (base : String) :
    ∃ backends : Backends, backends.HasPathBase base protocol := by
  cases protocol with
  | iip => exact absurd rfl h
  | iiif => exact ⟨{ iiif := some base }, rfl⟩
  | deepZoom => exact ⟨{ deepZoom := some (.ofBase base .path) }, rfl⟩

/-- An accepted request stays below every base exactly when its name does not climb. -/
theorem staysBelow_iff {request : Request} (hcheck : request.check = .ok ()) :
    (∀ {backends : Backends} {base : String} {url : Url},
      backends.HasPathBase base request.protocol → IsBase base url →
        ∃ address located, request.address backends = .ok address ∧
          Url.read address = .ok located ∧ located.IsBelow url) ↔ request.climbs = false := by
  constructor
  · intro hbelow
    rw [Bool.eq_false_iff]
    intro hclimbs
    have hprotocol : request.protocol ≠ .iip := by
      cases request with
      | iip r => cases hclimbs
      | _ => exact nofun
    rw [← climbsFrom_pathBehind hcheck] at hclimbs
    obtain ⟨base, url, hbase, hleaves⟩ :=
      exists_isBase_not_isBelow request.isPathText_pathBehind hclimbs
    obtain ⟨backends, hserver⟩ := exists_hasPathBase hprotocol base
    obtain ⟨address, located, haddress, hread, hlocated⟩ := hbelow hserver hbase
    rw [address_eq hserver, Except.ok.injEq] at haddress
    exact hleaves request.isQueryPart_queryBehind (by rw [haddress, hread]) hlocated
  · intro hstays backends base url hserver hbase
    rw [← climbsFrom_pathBehind hcheck] at hstays
    obtain ⟨located, hread, hlocated⟩ := hbase.exists_isBelow request.isPathText_pathBehind
      request.isQueryPart_queryBehind hstays
    exact ⟨_, located, address_eq hserver, hread, hlocated⟩

/-- A tile of an image whose name goes down one folder and up again. -/
theorem staysBelow_one_folder_up :
    let tile : Request := .deepZoomTile { image := "a/../b", layer := 3, tile := "0_1" }
    let backends : Backends := { deepZoom := some (.ofBase "http://b.test/dz/" .path) }
    let url : Url := { scheme := "http", host := some (.domain "b.test"), path := "/dz/" }
    tile.check = .ok () ∧ tile.climbs = false ∧ IsBase "http://b.test/dz/" url ∧
      ∃ address located, tile.address backends = .ok address ∧ Url.read address = .ok located ∧
        located.IsBelow url := by
  intro tile backends url
  have hcheck : tile.check = .ok () := rfl
  have hstays : tile.climbs = false := by decide +kernel
  have hbase : IsBase "http://b.test/dz/" url :=
    { read := rfl, web := by decide, query := by decide, fragment := by decide, last := by decide
      plain := by decide }
  have hserver : backends.HasPathBase "http://b.test/dz/" tile.protocol := rfl
  exact ⟨hcheck, hstays, hbase, (staysBelow_iff hcheck).2 hstays hserver hbase⟩

/-- The description of an image named by two points is asked for outside the base. -/
theorem leavesBase_two_points :
    let info : Request := .iiifInfo { identifier := "..", extension := "json" }
    let backends : Backends := { iiif := some "http://b.test/iiif" }
    let url : Url := { scheme := "http", host := some (.domain "b.test"), path := "/iiif" }
    let located : Url := { scheme := "http", host := some (.domain "b.test"), path := "/info.json" }
    info.check = .ok () ∧ IsBase "http://b.test/iiif" url ∧
      info.address backends = .ok "http://b.test/iiif/../info.json" ∧
      Url.read "http://b.test/iiif/../info.json" = .ok located ∧ ¬ located.IsBelow url := by
  intro info backends url located
  have hbase : IsBase "http://b.test/iiif" url :=
    { read := rfl, web := by decide, query := by decide, fragment := by decide, last := by decide
      plain := by decide }
  have haddress : info.address backends = .ok "http://b.test/iiif/../info.json" :=
    congrArg Except.ok (by decide +kernel)
  refine ⟨rfl, hbase, haddress, rfl, fun hbelow => ?_⟩
  have hpath : url.path.toList = '/' :: "iiif".toList := by decide
  have hfolder : "iiif".toList ∈ pieces '/' located.path.toList :=
    hbelow.mem_pieces hpath (by decide) (by decide)
  exact absurd hfolder (by decide)

end Request

end ImageGate
