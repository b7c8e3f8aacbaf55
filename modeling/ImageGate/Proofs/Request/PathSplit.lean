import ImageGate.Proofs.Backend.AddressReading
import ImageGate.Proofs.Request.LastValues
import ImageGate.Proofs.Request.RuleOrder

/-! Paths of tiles and descriptors. Names of images are free to contain every mark that a path is cut at,
so the end of the path decides: first whether it is a descriptor's, then the last separator, the first
slash behind it and the last point of the file. Put together again the parts are the path, and no other
parts would be found in it; a path that lacks one of them is refused for the first that is missing, before
anything of the query is read. -/
namespace ImageGate
open Text Number
set_option autoImplicit false

/-! ## Files -/

/-- The format stands behind the last point; without one, or with nothing behind it, all is the tile. -/
def IsFile (file : List Char) (tile : String) : Option String → Prop
  | some format => file = tile.toList ++ '.' :: format.toList ∧ '.' ∉ format.toList ∧ format ≠ ""
  | none => file = tile.toList ∧ ('.' ∉ file ∨ file.getLast? = some '.')

theorem splitExtension_eq_iff {file : List Char} {tile : String} {format : Option String} :
    splitExtension (String.ofList file) = (tile, format) ↔ IsFile file tile format := by
  unfold splitExtension
  rw [String.toList_ofList]
  constructor
  · intro h
    split at h
    · next stem c extension hcut =>
      obtain ⟨hjoin, hpoint⟩ := cutLast_eq_some_iff.1 hcut
      cases h
      exact ⟨by simpa using hjoin, by simpa using hpoint, by simp⟩
    · next hother =>
      cases h
      refine ⟨String.toList_ofList.symm, ?_⟩
      rcases hcut : cutLast '.' file with _ | ⟨stem, _ | ⟨c, extension⟩⟩
      · exact .inl (cutLast_eq_none_iff.1 hcut)
      · rw [(cutLast_eq_some_iff.1 hcut).1]
        exact .inr List.getLast?_concat
      · exact absurd hcut (hother stem c extension)
  · intro h
    cases format with
    | some format =>
      obtain ⟨rfl, hpoint, hne⟩ := h
      obtain ⟨c, extension, hformat⟩ := List.exists_cons_of_ne_nil (mt String.toList_eq_nil_iff.1 hne)
      rw [cutLast_append_cons hpoint, hformat]
      show (String.ofList tile.toList, some (String.ofList (c :: extension))) = _
      rw [← hformat, String.ofList_toList, String.ofList_toList]
    | none =>
      obtain ⟨rfl, hpoint | hlast⟩ := h
      · rw [cutLast_eq_none_iff.2 hpoint, String.ofList_toList]
      · obtain ⟨stem, hstem⟩ := List.getLast?_eq_some_iff.1 hlast
        rw [cutLast_eq_some_iff.2 ⟨hstem, List.not_mem_nil⟩, String.ofList_toList]

namespace DeepZoom

/-! ## The options -/

/-- The parts of the query that are read for a type, in the order of reading. -/
def optionParts (query : Option String) : List Part :=
  Part.filled query "CNT" (Part.trimmed (WritesFinite Format.single))
    ++ Part.filled query "GAM" (Part.trimmed (WritesFinite Format.single))
    ++ (lastValue? query "INV").toList.map (Part.flag "INV")

/-- The options of the tile are the last values of the query. -/
structure TileRequest.HoldsLastOptions (r : TileRequest) (query : Option String) : Prop where
  contrast : Option.Rel (Trimmed (WritesFinite Format.single)) (filledValue? query "CNT") r.contrast
  gamma : Option.Rel (Trimmed (WritesFinite Format.single)) (filledValue? query "GAM") r.gamma
  colormap : r.colormap = filledValue? query "CMP"
  twist : r.twist = filledValue? query "CTW"
  invert : MeansFlag (lastValue? query "INV") r.invert
  colorSpace : r.colorSpace = filledValue? query "COL"

/-! ## Parts of a path -/

/-- The path has slashes in front, then this, which begins with none. -/
def IsBehindSlashes (path : String) (cs : List Char) : Prop :=
  (∃ slashes, path.toList = List.replicate slashes '/' ++ cs) ∧ cs.head? ≠ some '/'

/-- Behind the last separator stand the layer and, behind the first slash, the file. -/
structure IsTilePath (cs image layer file : List Char) : Prop where
  cut : IsLastCut "_files/".toList cs image (layer ++ '/' :: file)
  first : '/' ∉ layer

/-- The tile has these parts. -/
structure TileRequest.IsReadFrom (r : TileRequest) (image : List Char) (layer : Nat) (file : List Char)
    (query : Option String) : Prop where
  image : r.image = String.ofList image
  layer : r.layer = layer
  file : IsFile file r.tile r.format
  options : r.HoldsLastOptions query

variable {path : String} {query : Option String} {cs image rest layer file : List Char} {n : Nat}

theorem isBehindSlashes_dropWhile (path : String) :
    IsBehindSlashes path (path.toList.dropWhile fun c => c == '/') := by
  let slashes := path.toList.takeWhile fun c => c == '/'
  have hslashes : slashes = List.replicate slashes.length '/' :=
    List.eq_replicate_of_mem fun c hc => beq_iff_eq.1 (List.all_eq_true.1 List.all_takeWhile c hc)
  refine ⟨⟨slashes.length, ?_⟩, fun hhead => ?_⟩
  · rw [← hslashes, List.takeWhile_append_dropWhile]
  · have hstop := List.head?_dropWhile_not (fun c => c == '/') path.toList
    rw [hhead] at hstop
    cases hstop

theorem IsBehindSlashes.dropWhile_eq (h : IsBehindSlashes path cs) :
    path.toList.dropWhile (fun c => c == '/') = cs := by
  obtain ⟨⟨slashes, hpath⟩, hhead⟩ := h
  have hstop : ∀ c ∈ cs.head?, (c == '/') = false := fun c hc =>
    beq_eq_false_iff_ne.2 fun hslash => hhead (hslash ▸ hc)
  rw [hpath, (span_append hstop _).2, List.dropWhile_replicate]
  rfl

/-- Slashes in front do not matter for the end. -/
theorem IsBehindSlashes.suffix_iff (h : IsBehindSlashes path cs) :
    ".dzi".toList <:+ path.toList ↔ ".dzi".toList <:+ cs := by
  obtain ⟨⟨slashes, hpath⟩, -⟩ := h
  have hsuffix : cs <:+ path.toList := ⟨_, hpath.symm⟩
  refine ⟨fun hend => ?_, fun hend => hend.trans hsuffix⟩
  -- An extension that began among the slashes would begin with one.
  rcases List.suffix_or_suffix_of_suffix hend hsuffix with h | ⟨front, hfront⟩
  · exact h
  · obtain ⟨before, hbefore⟩ := hend
    have hslash : before ++ front = List.replicate slashes '/' := by
      rw [← hfront, ← List.append_assoc, hpath] at hbefore
      exact List.append_cancel_right hbefore
    cases front with
    | nil => exact ⟨[], hfront.symm⟩
    | cons c front =>
      have hmem : c ∈ before ++ c :: front := by simp
      rw [hslash] at hmem
      rw [List.eq_of_mem_replicate hmem] at hfront
      cases hfront

open Parameters in
theorem TileRequest.outcome_ofParts (hfirst : '/' ∉ layer)
    (hlayer : Trimmed (WritesNatural 32) (String.ofList layer) n) :
    Outcome (fun r => r.IsReadFrom image n file query) (optionParts query)
      (ofParts (String.ofList image) (String.ofList (layer ++ '/' :: file)) query) := by
  have hread : readAs "layer" .natural (readNat? (2 ^ 32)) (String.ofList layer) = .ok n := by
    rw [readAs, readNat?_eq_some_iff.2 hlayer]
  unfold ofParts optionParts
  simp only [String.toList_ofList, cutFirst_append_cons hfirst, hread, List.append_assoc]
  refine (outcome_number (by decide) query).bind fun contrast hcontrast => ?_
  refine (outcome_number (by decide) query).bind fun gamma hgamma => ?_
  rw [← List.append_nil (List.map _ _)]
  refine (outcome_flag (by decide) query).bind fun invert hinvert => .done ?_
  exact {
    image := rfl, layer := rfl
    file := splitExtension_eq_iff.1 rfl
    options := {
      contrast := hcontrast, gamma := hgamma
      colormap := text?_ofQuery (by decide) query
      twist := text?_ofQuery (by decide) query
      invert := hinvert
      colorSpace := text?_ofQuery (by decide) query } }

open Parameters in
theorem TileRequest.ofParts_of_layer (hfirst : '/' ∉ layer)
    (hlayer : ¬ ∃ n, Trimmed (WritesNatural 32) (String.ofList layer) n) (image : String) :
    ofParts image (String.ofList (layer ++ '/' :: file)) query
      = .error (.notOfKind "layer" .natural (String.ofList layer)) := by
  have hnone : readNat? (2 ^ 32) (trimChars (String.ofList layer).toList) = none :=
    Option.eq_none_iff_forall_ne_some.2 fun n hn => hlayer ⟨n, readNat?_eq_some_iff.1 hn⟩
  have hread : readAs "layer" .natural (readNat? (2 ^ 32)) (String.ofList layer)
      = .error (.notOfKind "layer" .natural (String.ofList layer)) := by
    rw [readAs, hnone]
  unfold ofParts
  simp only [String.toList_ofList, cutFirst_append_cons hfirst, hread]
  rfl

theorem TileRequest.ofParts_of_slash (hslash : '/' ∉ rest) (image : String) :
    ofParts image (String.ofList rest) query = .error (.notTilePath (String.ofList rest)) := by
  unfold ofParts
  rw [String.toList_ofList, cutFirst_of_not_mem hslash]
  rfl

theorem beforeSuffix?_eq_none (hend : ¬ ".dzi".toList <:+ cs) :
    beforeSuffix? descriptorExtension.toList cs = none :=
  Option.eq_none_iff_forall_ne_some.2 fun stem hstem =>
    hend ⟨stem, (beforeSuffix?_eq_some_iff.1 hstem).symm⟩

theorem requestOfPath_of_descriptor (hslashes : IsBehindSlashes path cs) (hend : ".dzi".toList <:+ cs) :
    requestOfPath path query = .ok (.deepZoomDescriptor { image := String.ofList cs }) := by
  obtain ⟨stem, hstem⟩ := hend
  have hbefore : beforeSuffix? descriptorExtension.toList cs = some stem :=
    beforeSuffix?_eq_some_iff.2 hstem.symm
  unfold requestOfPath
  simp only [hslashes.dropWhile_eq, hbefore]
  rfl

theorem requestOfPath_of_unseparated (hslashes : IsBehindSlashes path cs) (hend : ¬ ".dzi".toList <:+ cs)
    (hfiles : ¬ "_files/".toList <:+: cs) :
    requestOfPath path query = .error (.notDeepZoomPath (String.ofList cs)) := by
  have huncut : cutLastOccurrence tileSeparator.toList cs = none :=
    cutLastOccurrence_of_not_infix hfiles
  unfold requestOfPath
  simp only [hslashes.dropWhile_eq, beforeSuffix?_eq_none hend, huncut]
  rfl

theorem requestOfPath_of_cut (hslashes : IsBehindSlashes path cs) (hend : ¬ ".dzi".toList <:+ cs)
    (hcut : IsLastCut "_files/".toList cs image rest) :
    requestOfPath path query
      = (TileRequest.ofParts (String.ofList image) (String.ofList rest) query >>=
          fun tile => pure (.deepZoomTile tile)) := by
  have hparts : cutLastOccurrence tileSeparator.toList cs = some (image, rest) :=
    (cutLastOccurrence_eq_some_iff (by decide)).2 hcut
  unfold requestOfPath
  simp only [hslashes.dropWhile_eq, beforeSuffix?_eq_none hend, hparts]
  rfl

theorem requestOfPath_of_slash (hslashes : IsBehindSlashes path cs) (hend : ¬ ".dzi".toList <:+ cs)
    (hcut : IsLastCut "_files/".toList cs image rest) (hslash : '/' ∉ rest) :
    requestOfPath path query = .error (.notTilePath (String.ofList rest)) := by
  rw [requestOfPath_of_cut hslashes hend hcut, TileRequest.ofParts_of_slash hslash]
  rfl

theorem requestOfPath_of_layer (hslashes : IsBehindSlashes path cs) (hend : ¬ ".dzi".toList <:+ cs)
    (hpath : IsTilePath cs image layer file)
    (hlayer : ¬ ∃ n, Trimmed (WritesNatural 32) (String.ofList layer) n) :
    requestOfPath path query = .error (.notOfKind "layer" .natural (String.ofList layer)) := by
  rw [requestOfPath_of_cut hslashes hend hpath.cut, TileRequest.ofParts_of_layer hpath.first hlayer]
  rfl

/-- A path with all its parts is a tile unless an option is not of its type. -/
theorem outcome_requestOfPath (hslashes : IsBehindSlashes path cs) (hend : ¬ ".dzi".toList <:+ cs)
    (hpath : IsTilePath cs image layer file)
    (hlayer : Trimmed (WritesNatural 32) (String.ofList layer) n) (query : Option String) :
    Outcome (fun request => ∃ r, request = .deepZoomTile r ∧ r.IsReadFrom image n file query)
      (optionParts query) (requestOfPath path query) := by
  rw [requestOfPath_of_cut hslashes hend hpath.cut, ← List.append_nil (optionParts query)]
  exact (TileRequest.outcome_ofParts hpath.first hlayer).bind fun r hr => .done ⟨r, rfl, hr⟩

/-- A separator has something behind it, with a slash or without. -/
theorem exists_isTilePath (hfiles : "_files/".toList <:+: cs) :
    (∃ image rest, IsLastCut "_files/".toList cs image rest ∧ '/' ∉ rest) ∨
      ∃ image layer file, IsTilePath cs image layer file := by
  cases hcut : cutLastOccurrence "_files/".toList cs with
  | none => exact absurd hfiles ((cutLastOccurrence_eq_none_iff (by decide)).1 hcut)
  | some parts =>
    have hlast := (cutLastOccurrence_eq_some_iff (by decide)).1 hcut
    by_cases hslash : '/' ∈ parts.2
    · obtain ⟨layer, file, hparts, hfirst⟩ := List.eq_append_cons_of_mem hslash
      exact .inr ⟨parts.1, layer, file, hparts ▸ hlast, hfirst⟩
    · exact .inl ⟨parts.1, parts.2, hlast, hslash⟩

/-- A tile comes from a path with all its parts. -/
theorem exists_parts_of_tile {r : TileRequest} (hslashes : IsBehindSlashes path cs)
    (hread : requestOfPath path query = .ok (.deepZoomTile r)) :
    ¬ ".dzi".toList <:+ cs ∧ ∃ layer file, IsTilePath cs r.image.toList layer file ∧
      Trimmed (WritesNatural 32) (String.ofList layer) r.layer ∧ IsFile file r.tile r.format ∧
      r.HoldsLastOptions query := by
  have hend : ¬ ".dzi".toList <:+ cs := by
    intro hend
    rw [requestOfPath_of_descriptor hslashes hend] at hread
    cases hread
  refine ⟨hend, ?_⟩
  by_cases hfiles : "_files/".toList <:+: cs
  · rcases exists_isTilePath hfiles with ⟨image, rest, hcut, hslash⟩ | ⟨image, layer, file, hpath⟩
    · rw [requestOfPath_of_slash hslashes hend hcut hslash] at hread
      cases hread
    · by_cases hlayer : ∃ n, Trimmed (WritesNatural 32) (String.ofList layer) n
      · obtain ⟨n, hn⟩ := hlayer
        have houtcome := outcome_requestOfPath hslashes hend hpath hn query
        rw [hread] at houtcome
        obtain ⟨s, hs, hfrom⟩ := houtcome.means
        cases hs
        rw [hfrom.image, String.toList_ofList, hfrom.layer]
        exact ⟨layer, file, hpath, hn, hfrom.file, hfrom.options⟩
      · rw [requestOfPath_of_layer hslashes hend hpath hlayer] at hread
        cases hread
  · rw [requestOfPath_of_unseparated hslashes hend hfiles] at hread
    cases hread

/-! ## The whole path -/

/-- The reading is refused for this value of the field. -/
def Refuses (reading : Parameters.Reading Request) (field : String) (value : List Char) : Prop :=
  ∃ reason, Complains reading ⟨field, reason, some (String.ofList value)⟩

/-- How a path is read that is this text behind its slashes. -/
structure ReadsPath (cs : List Char) (query : Option String) (reading : Parameters.Reading Request) :
    Prop where
  descriptor : ".dzi".toList <:+ cs →
    reading = .ok (.deepZoomDescriptor { image := String.ofList cs })
  unseparated : ¬ ".dzi".toList <:+ cs → ¬ "_files/".toList <:+: cs → Refuses reading "imageid" cs
  unsplit : ¬ ".dzi".toList <:+ cs → ∀ image rest, IsLastCut "_files/".toList cs image rest →
    '/' ∉ rest → Refuses reading "tiles" rest
  unlayered : ¬ ".dzi".toList <:+ cs → ∀ image layer file, IsTilePath cs image layer file →
    (¬ ∃ n, Trimmed (WritesNatural 32) (String.ofList layer) n) → Refuses reading "layer" layer
  /-- Only here the query decides. -/
  complete : ¬ ".dzi".toList <:+ cs → ∀ image layer file n, IsTilePath cs image layer file →
    Trimmed (WritesNatural 32) (String.ofList layer) n →
    Outcome (fun request => ∃ r, request = .deepZoomTile r ∧ r.IsReadFrom image n file query)
      (optionParts query) reading
  tile : ∀ r, reading = .ok (.deepZoomTile r) → ¬ ".dzi".toList <:+ cs ∧ ∃ layer file,
    IsTilePath cs r.image.toList layer file ∧
      Trimmed (WritesNatural 32) (String.ofList layer) r.layer ∧ IsFile file r.tile r.format ∧
      r.HoldsLastOptions query

theorem readsPath_requestOfPath (hslashes : IsBehindSlashes path cs) (query : Option String) :
    ReadsPath cs query (requestOfPath path query) where
  descriptor := requestOfPath_of_descriptor hslashes
  unseparated hend hfiles := ⟨_, _, requestOfPath_of_unseparated hslashes hend hfiles, rfl⟩
  unsplit hend _ _ hcut hslash := ⟨_, _, requestOfPath_of_slash hslashes hend hcut hslash, rfl⟩
  unlayered hend _ _ _ hpath hlayer := ⟨_, _, requestOfPath_of_layer hslashes hend hpath hlayer, rfl⟩
  complete hend _ _ _ _ hpath hlayer := outcome_requestOfPath hslashes hend hpath hlayer query
  tile _ := exists_parts_of_tile hslashes

/-- A path can name these parts; the image may hold every mark, also in the place of its last characters. -/
structure IsNamed (image : String) (layer : Nat) (tile format : String) : Prop where
  head : image.toList.head? ≠ some '/'
  bound : layer < 2 ^ 32
  slash : '/' ∉ tile.toList ∧ '/' ∉ format.toList
  point : '.' ∉ format.toList
  extension : format ≠ "" ∧ format ≠ "dzi"

def tilePath (slashes : Nat) (image : String) (layer : Nat) (tile format : String) : String :=
  String.ofList (List.replicate slashes '/') ++ image ++ "_files/" ++ natText layer ++ "/" ++ tile ++ "."
    ++ format

theorem not_suffix_of_format {format : String} (hpoint : '.' ∉ format.toList) (hne : format ≠ "dzi")
    (front : List Char) : ¬ ".dzi".toList <:+ front ++ '.' :: format.toList := by
  rintro ⟨stem, hstem⟩
  have hlast : cutLast '.' (front ++ '.' :: format.toList) = some (stem, "dzi".toList) :=
    cutLast_eq_some_iff.2 ⟨hstem.symm, by decide⟩
  rw [cutLast_append_cons hpoint, Option.some.injEq, Prod.mk.injEq, String.toList_inj] at hlast
  exact hne hlast.2

theorem isTilePath_files (hslash : '/' ∉ file) (image : List Char) (layer : Nat) :
    IsTilePath (image ++ ("_files/".toList ++ (Nat.toDigits 10 layer ++ '/' :: file))) image
      (Nat.toDigits 10 layer) file where
  cut := (cutLastOccurrence_eq_some_iff (by decide)).1 (cutLastOccurrence_files image layer hslash)
  first := not_mem_run (by decide) (isRunOf_toDigits layer)

open Parameters in
theorem trimmed_toDigits (hbound : n < 2 ^ 32) :
    Trimmed (WritesNatural 32) (String.ofList (Nat.toDigits 10 n)) n := by
  have htrim : trimChars (Nat.toDigits 10 n) = Nat.toDigits 10 n :=
    trimChars_of_not_blank fun c hc => isBlank_of_isNumeralChar (isNumeralChar_of_mem_toDigits hc)
  rw [Trimmed, String.toList_ofList, htrim]
  exact readNat?_eq_some_iff.1 (readNat?_toDigits hbound)

/-- A path that is put together from such parts is read as them. -/
theorem IsNamed.exists_tile {image : String} {layer : Nat} {tile format : String}
    (h : IsNamed image layer tile format) (slashes : Nat) {query : Option String}
    (hquery : ∀ part ∈ optionParts query, part.Fits) :
    ∃ r, requestOfPath (tilePath slashes image layer tile format) query = .ok (.deepZoomTile r) ∧
      r.image = image ∧ r.layer = layer ∧ r.tile = tile ∧ r.format = some format := by
  let file := tile.toList ++ '.' :: format.toList
  let cs := image.toList ++ ("_files/".toList ++ (Nat.toDigits 10 layer ++ '/' :: file))
  have hslashes : IsBehindSlashes (tilePath slashes image layer tile format) cs := by
    refine ⟨⟨slashes, by simp [tilePath, natText, String.toList_append, cs, file]⟩, ?_⟩
    have hhead := h.head
    cases himage : image.toList with
    | nil => simp [cs, himage]
    | cons c rest => simpa [cs, himage] using hhead
  have hfile : IsFile file tile (some format) := ⟨rfl, h.point, h.extension.1⟩
  have hend : ¬ ".dzi".toList <:+ cs := by
    have hfront := not_suffix_of_format h.point h.extension.2
      (image.toList ++ ("_files/".toList ++ (Nat.toDigits 10 layer ++ '/' :: tile.toList)))
    simpa [cs, file] using hfront
  have hpath : IsTilePath cs image.toList (Nat.toDigits 10 layer) file :=
    isTilePath_files (by simp [file, h.slash.1, h.slash.2]) image.toList layer
  have houtcome := outcome_requestOfPath hslashes hend hpath (trimmed_toDigits h.bound) query
  cases hread : requestOfPath (tilePath slashes image layer tile format) query with
  | error violation =>
    obtain ⟨part, hpart, hbroken⟩ := houtcome.exists_error_iff.1 ⟨violation, hread⟩
    exact absurd (hquery part hpart) hbroken
  | ok request =>
    rw [hread] at houtcome
    obtain ⟨r, rfl, hfrom⟩ := houtcome.means
    have hsplit := (splitExtension_eq_iff.2 hfrom.file).symm.trans (splitExtension_eq_iff.2 hfile)
    rw [Prod.mk.injEq] at hsplit
    exact ⟨r, rfl, by rw [hfrom.image, String.ofList_toList], hfrom.layer, hsplit.1, hsplit.2⟩

/-- Every path is split in one way, and a path that is put together from the parts of a tile gives these
again. -/
theorem requestOfPath_splits :
    (∀ path, ∃ cs, IsBehindSlashes path cs ∧ (".dzi".toList <:+ path.toList ↔ ".dzi".toList <:+ cs) ∧
      ∀ query, ReadsPath cs query (requestOfPath path query)) ∧
    ∀ slashes image layer tile format query, IsNamed image layer tile format →
      (∀ part ∈ optionParts query, part.Fits) →
      ∃ r, requestOfPath (tilePath slashes image layer tile format) query = .ok (.deepZoomTile r) ∧
        r.image = image ∧ r.layer = layer ∧ r.tile = tile ∧ r.format = some format := by
  refine ⟨fun path => ?_, fun slashes image layer tile format query h => h.exists_tile slashes⟩
  have hslashes := isBehindSlashes_dropWhile path
  exact ⟨_, hslashes, hslashes.suffix_iff, readsPath_requestOfPath hslashes⟩

/-- An image in a folder like one of tiles, named like a descriptor and with a separator at its end. -/
theorem requestOfPath_splits_nested_marks :
    ∃ r, requestOfPath "//a_files/1/b.dzi_files/_files/3/0_12.jpg" (some "inv&CMP=hot")
        = .ok (.deepZoomTile r) ∧
      r.image = "a_files/1/b.dzi_files/" ∧ r.layer = 3 ∧ r.tile = "0_12" ∧ r.format = some "jpg" := by
  have hpath : "//a_files/1/b.dzi_files/_files/3/0_12.jpg"
      = tilePath 2 "a_files/1/b.dzi_files/" 3 "0_12" "jpg" := by decide +kernel
  have hnamed : IsNamed "a_files/1/b.dzi_files/" 3 "0_12" "jpg" :=
    ⟨by decide, by decide, by decide, by decide, by decide⟩
  have hquery : ∀ part ∈ optionParts (some "inv&CMP=hot"), part.Fits := by
    have hnumbers : ["CNT", "GAM"].map (filledValue? (some "inv&CMP=hot")) = [none, none] := by
      decide +kernel
    have hflag : lastValue? (some "inv&CMP=hot") "INV" = some "" := by decide +kernel
    simp only [List.map_cons, List.map_nil, List.cons.injEq, and_true] at hnumbers
    simp only [optionParts, Part.filled, hnumbers.1, hnumbers.2, hflag]
    intro part hpart
    rw [List.mem_singleton.1 hpart]
    refine ⟨true, ?_⟩
    unfold Trimmed WritesFlag
    decide +kernel
  rw [hpath]
  exact requestOfPath_splits.2 2 _ _ _ _ _ hnamed hquery

end DeepZoom

end ImageGate
