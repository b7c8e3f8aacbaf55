import ImageGate.Proofs.Access.ThumbnailClass
import ImageGate.Proofs.Request.ParameterReading

/-! IIIF requests read back from their address. The identifier is one segment however many slashes it
has, and every segment holds only what may stand in a path. Decoding the segments once and reading them
as a path gives the request, with its identifier decoded once and its format named. -/
namespace ImageGate
open Text
set_option autoImplicit false

/-! ## Text of a segment -/

/-- Unreserved characters and the marks that may stand in a segment. -/
def isSegmentChar (c : Char) : Bool := c.isAlphanum || "-._~!$&'()*+,;=:@".toList.contains c

def isUpperHexDigit (c : Char) : Bool := "0123456789ABCDEF".toList.contains c

/-- Such characters and triplets in upper case, and nothing else. -/
inductive IsSegmentText : List Char → Prop
  | nil : IsSegmentText []
  | cons {c : Char} {rest : List Char} (hc : isSegmentChar c = true) (h : IsSegmentText rest) :
      IsSegmentText (c :: rest)
  | triplet {high low : Char} {rest : List Char} (hhigh : isUpperHexDigit high = true)
      (hlow : isUpperHexDigit low = true) (h : IsSegmentText rest) :
      IsSegmentText ('%' :: high :: low :: rest)

theorem IsSegmentText.append {a b : List Char} (ha : IsSegmentText a) (hb : IsSegmentText b) :
    IsSegmentText (a ++ b) := by
  induction ha with
  | nil => exact hb
  | cons hc _ ih => exact .cons hc ih
  | triplet hhigh hlow _ ih => exact .triplet hhigh hlow ih

theorem isSegmentChar_of_isSegmentByte (b : UInt8) (h : Percent.isSegmentByte b = true) :
    isSegmentChar (Char.ofNat b.toNat) = true := by
  have htable : ∀ n < 256, Percent.isSegmentByte (UInt8.ofNat n) = true →
      isSegmentChar (Char.ofNat n) = true := by decide +kernel
  have hb := htable b.toNat b.toNat_lt
  rw [UInt8.ofNat_toNat] at hb
  exact hb h

theorem isSegmentText_of_isEncoded {cs : List Char} (h : Percent.IsEncoded isSegmentChar cs) :
    IsSegmentText cs := by
  induction h with
  | nil => exact .nil
  | kept hc _ ih => exact .cons hc ih
  | triplet hhigh hlow _ ih =>
    exact .triplet (List.contains_iff_mem.2 hhigh) (List.contains_iff_mem.2 hlow) ih

theorem isSegmentText_encode {keep : UInt8 → Bool}
    (hkeep : ∀ b, keep b = true → Percent.isSegmentByte b = true) (s : String) :
    IsSegmentText (Percent.encode keep s).toList :=
  isSegmentText_of_isEncoded
    (Percent.isEncoded_encode (fun b hb => isSegmentChar_of_isSegmentByte b (hkeep b hb)) s)

theorem isSegmentText_encodeComponent (s : String) : IsSegmentText (encodeComponent s).toList :=
  isSegmentText_encode (fun b hb => by rw [Percent.isSegmentByte, hb, Bool.true_or]) _

theorem isSegmentText_encodeSegment (s : String) : IsSegmentText (encodeSegment s).toList :=
  isSegmentText_encode (fun _ hb => hb) s

/-! ## Reading an address again -/

namespace Iiif

/-- The parts of a path as the front end takes them. -/
def rawOfParts? : List String → Option RawRequest
  | [identifier, region, size, rotation, file] =>
    some (.iiifImage identifier region size rotation file)
  | [identifier, file] => some (.iiifInfo identifier file)
  | _ => none

/-- Behind the base the address has `count` well-formed segments, of which the front end makes the
request when each is decoded once. -/
def IsReadAs (base address : String) (count : Nat) (request : Request) : Prop :=
  ∃ suffix segments parts raw,
    address = withoutEndSlashes base ++ "/" ++ suffix ∧
    (pieces '/' suffix.toList).map String.ofList = segments ∧ segments.length = count ∧
    (∀ s ∈ segments, IsSegmentText s.toList) ∧
    segments.mapM Percent.decodeText? = some parts ∧
    rawOfParts? parts = some raw ∧ raw.read = .ok request

theorem isReadAs_joined {segments parts : List String} {raw : RawRequest} {request : Request}
    (hslash : ∀ s ∈ segments, '/' ∉ s.toList) (hne : segments ≠ [])
    (htext : ∀ s ∈ segments, IsSegmentText s.toList)
    (hparts : segments.mapM Percent.decodeText? = some parts) (hraw : rawOfParts? parts = some raw)
    (hread : raw.read = .ok request) (base : String) :
    IsReadAs base (joined "/" (withoutEndSlashes base :: segments)) segments.length request := by
  have hpieces : (pieces '/' (joined "/" segments).toList).map String.ofList = segments := by
    rw [pieces_joined hslash hne, List.map_map]
    simp [Function.comp_def]
  exact ⟨joined "/" segments, segments, parts, raw, joined_cons hne _, hpieces, rfl, htext, hparts,
    hraw, hread⟩

theorem decodeText?_file (stem extension : String) :
    Percent.decodeText? (encodeSegment stem ++ "." ++ encodeSegment extension)
      = some (stem ++ "." ++ extension) := by
  apply Percent.Writes.decodeText?_eq
  rw [Utf8.bytes_append, Utf8.bytes_append]
  have hpoint : Percent.Writes (Utf8.bytes ".") "." := Percent.writes_of_percent_not_mem (by decide)
  exact ((Percent.writes_encode Percent.isKeepable_isSegmentByte stem).append hpoint).append
    (Percent.writes_encode Percent.isKeepable_isSegmentByte extension)

theorem isSegmentText_file (stem extension : String) :
    IsSegmentText (encodeSegment stem ++ "." ++ encodeSegment extension).toList := by
  have hpoint : IsSegmentText ".".toList := .cons (by decide) .nil
  rw [String.toList_append, String.toList_append]
  exact ((isSegmentText_encodeSegment stem).append hpoint).append (isSegmentText_encodeSegment extension)

theorem slash_not_mem_file (stem extension : String) :
    '/' ∉ (encodeSegment stem ++ "." ++ encodeSegment extension).toList := by
  simp [String.toList_append, slash_not_mem_encodeSegment]

theorem ImageRequest.isReadAs {r : ImageRequest} (hr : r.Accepted) (base : String) :
    IsReadAs base (r.address base) 5 (.iiifImage
      { r with
        identifier := Percent.decodeText r.identifier
        format := some (r.format.getD "jpg") }) := by
  let format := r.format.getD "jpg"
  have hformats : ∀ f ∈ formats, '.' ∉ f.toList ∧ f ≠ "" := by decide
  obtain ⟨hpoint, hne⟩ := hformats format hr.format_mem
  have hread : (RawRequest.iiifImage (Percent.decodeText r.identifier) r.region r.size r.rotation
      (r.quality ++ "." ++ format)).read = .ok (.iiifImage
        { r with identifier := Percent.decodeText r.identifier, format := some format }) := by
    rw [RawRequest.read, ImageRequest.ofPath, splitExtension_append hpoint hne]
  have hparts : [encodeComponent r.identifier, encodeSegment r.region, encodeSegment r.size,
      encodeSegment r.rotation, encodeSegment r.quality ++ "." ++ encodeSegment format].mapM
        Percent.decodeText? = some [Percent.decodeText r.identifier, r.region, r.size, r.rotation,
          r.quality ++ "." ++ format] := by
    simp only [List.mapM_cons, List.mapM_nil, decodeText?_encodeComponent, decodeText?_encodeSegment,
      decodeText?_file]
    rfl
  refine isReadAs_joined ?_ (List.cons_ne_nil _ _) ?_ hparts rfl hread base
  · simp only [List.forall_mem_cons]
    exact ⟨slash_not_mem_encodeComponent _, slash_not_mem_encodeSegment _,
      slash_not_mem_encodeSegment _, slash_not_mem_encodeSegment _, slash_not_mem_file _ _, nofun⟩
  · simp only [List.forall_mem_cons]
    exact ⟨isSegmentText_encodeComponent _, isSegmentText_encodeSegment _,
      isSegmentText_encodeSegment _, isSegmentText_encodeSegment _, isSegmentText_file _ _, nofun⟩

theorem InfoRequest.isReadAs {r : InfoRequest} (hextension : r.extension = "json") (base : String) :
    IsReadAs base (r.address base) 2 (.iiifInfo
      { r with identifier := Percent.decodeText r.identifier }) := by
  -- Nothing in the fixed stem is encoded, so its file is written like that of an image.
  have hfile : "info." ++ encodeSegment r.extension
      = encodeSegment "info" ++ "." ++ encodeSegment r.extension := by
    have hinfo : "info." = encodeSegment "info" ++ "." := by decide +kernel
    rw [hinfo]
  have hread : (RawRequest.iiifInfo (Percent.decodeText r.identifier)
      ("info" ++ "." ++ r.extension)).read = .ok (.iiifInfo
        { r with identifier := Percent.decodeText r.identifier }) := by
    rw [hextension, RawRequest.read, InfoRequest.ofPath,
      splitExtension_append (by decide) (by decide)]
    rfl
  have hparts : [encodeComponent r.identifier,
      encodeSegment "info" ++ "." ++ encodeSegment r.extension].mapM Percent.decodeText?
        = some [Percent.decodeText r.identifier, "info" ++ "." ++ r.extension] := by
    simp only [List.mapM_cons, List.mapM_nil, decodeText?_encodeComponent, decodeText?_file]
    rfl
  rw [address, hfile]
  refine isReadAs_joined ?_ (List.cons_ne_nil _ _) ?_ hparts rfl hread base
  · simp only [List.forall_mem_cons]
    exact ⟨slash_not_mem_encodeComponent _, slash_not_mem_file _ _, nofun⟩
  · simp only [List.forall_mem_cons]
    exact ⟨isSegmentText_encodeComponent _, isSegmentText_file _ _, nofun⟩

/-- Reading the address of an accepted request gives the request again: five segments for an image, two
for its description. -/
theorem addresses_readBack (backends : Backends) (base : String) :
    (∀ r : ImageRequest, r.check = .ok () →
      ∃ address, (Request.iiifImage r).address { backends with iiif := some base } = .ok address ∧
        IsReadAs base address 5 (.iiifImage
          { r with
            identifier := Percent.decodeText r.identifier
            format := some (r.format.getD "jpg") })) ∧
      ∀ r : InfoRequest, r.check = .ok () →
        ∃ address, (Request.iiifInfo r).address { backends with iiif := some base } = .ok address ∧
          IsReadAs base address 2 (.iiifInfo
            { r with identifier := Percent.decodeText r.identifier }) := by
  constructor
  · intro r hcheck
    exact ⟨_, rfl, ImageRequest.isReadAs (ImageRequest.check_eq_ok_iff.1 hcheck) base⟩
  · intro r hcheck
    exact ⟨_, rfl, InfoRequest.isReadAs (InfoRequest.check_eq_ok_iff.1 hcheck).2 base⟩

/-- An identifier of three folders, one of them encoded, with a percent sign that begins no triplet; and
one whose triplet stands for no text. -/
theorem addresses_readBack_marked_names :
    let image : ImageRequest :=
      { identifier := "a%2Fb/é%", region := "pct:1.5,0,50,50", size := "^!200,300"
        rotation := "!22.5", quality := "default" }
    let info : InfoRequest := { identifier := "a/%ff", extension := "json" }
    let base := "http://b.test/iiif//"
    let imageAddress :=
      "http://b.test/iiif/a%2Fb%2F%C3%A9%25/pct:1.5,0,50,50/%5E!200,300/!22.5/default.jpg"
    let infoAddress := "http://b.test/iiif/a%2F%25ff/info.json"
    image.check = .ok () ∧ info.check = .ok () ∧
      (Request.iiifImage image).address { iiif := some base } = .ok imageAddress ∧
      IsReadAs base imageAddress 5
        (.iiifImage { image with identifier := "a/b/é%", format := some "jpg" }) ∧
      (Request.iiifInfo info).address { iiif := some base } = .ok infoAddress ∧
      IsReadAs base infoAddress 2 (.iiifInfo info) := by
  intro image info base imageAddress infoAddress
  have hname : Percent.decodeText image.identifier = "a/b/é%" := by decide +kernel
  have hkept : Percent.decodeText info.identifier = info.identifier := by decide +kernel
  have hcheckImage : image.check = .ok () := by decide +kernel
  have hcheckInfo : info.check = .ok () := by decide +kernel
  have himage : (Request.iiifImage image).address { iiif := some base } = .ok imageAddress :=
    congrArg Except.ok (by decide +kernel)
  have hinfo : (Request.iiifInfo info).address { iiif := some base } = .ok infoAddress :=
    congrArg Except.ok (by decide +kernel)
  obtain ⟨hreadImage, hreadInfo⟩ := addresses_readBack {} base
  obtain ⟨a, ha, hreadImage⟩ := hreadImage image hcheckImage
  obtain ⟨b, hb, hreadInfo⟩ := hreadInfo info hcheckInfo
  have hsameImage : a = imageAddress := Except.ok.inj (ha.symm.trans himage)
  have hsameInfo : b = infoAddress := Except.ok.inj (hb.symm.trans hinfo)
  rw [hsameImage, hname] at hreadImage
  rw [hsameInfo, hkept] at hreadInfo
  exact ⟨hcheckImage, hcheckInfo, himage, hreadImage, hinfo, hreadInfo⟩

end Iiif

end ImageGate
