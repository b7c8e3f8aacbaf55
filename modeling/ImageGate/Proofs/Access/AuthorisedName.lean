import ImageGate.Access.Gate
import ImageGate.Proofs.Backend.AddressReading
import ImageGate.Proofs.Request.Answers

/-! The name that is authorised and the name that is fetched. The gate asks about the identifier as
it stands; an image server reads the identifier decoded once out of the address. Both names are the
same exactly when decoding leaves the identifier alone: it holds no triplet, or its decoded bytes
are no text. -/
namespace ImageGate
open Text Number
set_option autoImplicit false

/-! ## The name in an address -/

/-- The image behind the tokens of a query: the decoded value of the first `FIF`. -/
def Iip.imageAt? (base address : String) : Option String := do
  match (← tokensAt? base address).find? fun t => t.name == "FIF" with
  | some (.valued _ value) => Percent.decodeText? value
  | _ => none

/-- The decoded first segment. -/
def Iiif.identifierAt? (base address : String) : Option String := do
  Percent.decodeText? (← (← segmentsAt? base address).head?)

/-- The decoded image path in front of the last tile separator, behind which a layer follows. -/
def DeepZoom.Server.imageAt? (server : Server) (address : String) : Option String := do
  let (image, rest) ← cutLastOccurrence "_files/".toList (← server.pathAt? address)
  let (layer, _) ← cutFirst '/' rest
  if isRunOf isPlainDigit layer then Percent.decodeText? (String.ofList image) else none

/-- The image that the server of a protocol reads out of an address. -/
def Backends.imageAt? (backends : Backends) (protocol : Protocol) (address : String) :
    Option String :=
  match protocol with
  | .iip => backends.iip.bind fun base => Iip.imageAt? base address
  | .iiif => backends.iiif.bind fun base => Iiif.identifierAt? base address
  | .deepZoom => backends.deepZoom.bind fun server => server.imageAt? address

/-! ## Every protocol names the image decoded once -/

theorem Iip.imageAt?_address (r : Iip.Request) (base : String) :
    imageAt? base (r.address base) = some (Percent.decodeText r.image) := by
  obtain ⟨rest, ht⟩ := r.tokens_eq_cons
  have hfind : r.tokens.find? (fun t => t.name == "FIF")
      = some (.valued "FIF" (encodeComponent r.image)) := by
    rw [ht, List.find?_cons_of_pos (by rfl)]
  rw [imageAt?, tokensAt?_address, Option.bind_eq_bind, Option.bind_some, hfind]
  exact decodeText?_encodeComponent r.image

theorem Iiif.identifierAt?_address (r : Iiif.ImageRequest) (base : String) :
    identifierAt? base (r.address base) = some (Percent.decodeText r.identifier) := by
  simp only [identifierAt?, segmentsAt?_imageAddress, Option.bind_eq_bind, Option.bind_some,
    List.head?_cons]
  exact decodeText?_encodeComponent r.identifier

theorem DeepZoom.TileRequest.cutLastOccurrence_path (r : TileRequest) :
    ∃ file, cutLastOccurrence "_files/".toList r.path.toList
      = some ((encodeImagePath r.image).toList, Nat.toDigits 10 r.layer ++ '/' :: file) := by
  let file := (encodeComponent r.tile ++ "." ++ encodeComponent (r.format.getD "jpeg")).toList
  have hfile : '/' ∉ file := by
    simp only [file, String.toList_append, List.mem_append, not_or]
    exact ⟨⟨slash_not_mem_encodeComponent _, by decide⟩, slash_not_mem_encodeComponent _⟩
  have hpath : r.path.toList = (encodeImagePath r.image).toList
      ++ ("_files/".toList ++ (Nat.toDigits 10 r.layer ++ '/' :: file)) := by
    simp [path, file, natText]
  refine ⟨file, ?_⟩
  rw [hpath]
  exact cutLastOccurrence_files _ r.layer hfile

theorem DeepZoom.Server.imageAt?_address (server : Server) (r : TileRequest) :
    server.imageAt? (r.address server) = some (Percent.decodeText r.image) := by
  obtain ⟨file, hcut⟩ := r.cutLastOccurrence_path
  have hslash : '/' ∉ Nat.toDigits 10 r.layer := not_mem_run (by decide) (isRunOf_toDigits r.layer)
  simp only [imageAt?, pathAt?_tileAddress, hcut, cutFirst_append_cons hslash, isRunOf_toDigits,
    Option.bind_eq_bind, Option.bind_some, if_true, String.ofList_toList]
  exact decodeText?_encodeImagePath r.image

/-- What is fetched is the identifier decoded once. -/
theorem Backends.imageAt?_address {request : Request} {backends : Backends} {address : String}
    (himage : request.ShowsPixels) (haddress : request.address backends = .ok address) :
    backends.imageAt? request.protocol address = some (Percent.decodeText request.identifier) := by
  cases himage with
  | iip r =>
    obtain ⟨base, hbase, rfl⟩ := serverFor_eq_ok haddress
    simp only [Request.protocol, Backends.imageAt?, hbase, Option.bind_some]
    exact Iip.imageAt?_address r base
  | iiifImage r =>
    obtain ⟨base, hbase, rfl⟩ := serverFor_eq_ok haddress
    simp only [Request.protocol, Backends.imageAt?, hbase, Option.bind_some]
    exact Iiif.identifierAt?_address r base
  | deepZoomTile r =>
    obtain ⟨server, hserver, rfl⟩ := serverFor_eq_ok haddress
    simp only [Request.protocol, Backends.imageAt?, hserver, Option.bind_some]
    exact server.imageAt?_address r

/-! ## The name in the question -/

/-- The gate asks about the very image that the server reads out of the address. -/
def Request.AsksAboutFetched (request : Request) (backends : Backends) (limits : ThumbnailLimits)
    (address : String) : Prop :=
  ∃ name, backends.imageAt? request.protocol address = some name ∧
    (Gate.query request.identifier (request.presentation limits)).identifiers = [name]

theorem Request.asksAboutFetched_iff_eq {request : Request} {backends : Backends}
    {address name : String} (limits : ThumbnailLimits)
    (hname : backends.imageAt? request.protocol address = some name) :
    request.AsksAboutFetched backends limits address ↔ name = request.identifier := by
  constructor
  · rintro ⟨other, hother, hasked⟩
    have hsame : other = name := Option.some.inj (hother.symm.trans hname)
    have hid : request.identifier = other := (List.cons.inj hasked).1
    rw [hid, hsame]
  · intro h
    exact ⟨request.identifier, h ▸ hname, rfl⟩

/-- The question and the fetch are about one image for every identifier that decoding leaves alone,
and for no other: a caller who encodes a name once more than needed is judged by the encoded name
and served the decoded one. -/
theorem Request.asksAboutFetched_iff {request : Request} {backends : Backends} {address : String}
    (limits : ThumbnailLimits) (himage : request.ShowsPixels)
    (haddress : request.address backends = .ok address) :
    request.AsksAboutFetched backends limits address ↔
      ¬ (Percent.HasTriplet (Utf8.bytes request.identifier) ∧
        (Percent.decodeText? request.identifier).isSome) := by
  rw [asksAboutFetched_iff_eq limits (Backends.imageAt?_address himage haddress)]
  exact Percent.decodeText_eq_self_iff

/-- A tile in a folder that is itself named like one of tiles; the triplet in its name stands for no
text, so it is fetched under its own name. -/
theorem Request.asksAboutFetched_undecodable_tile :
    let tile : Request := .deepZoomTile { image := "a_files/1/%ff", layer := 3, tile := "0_1" }
    let backends : Backends := { deepZoom := some (.ofBase "http://b.test/dz/" .param) }
    let address := "http://b.test/dz?DeepZoom=a_files/1/%25ff_files/3/0_1.jpeg"
    tile.check = .ok () ∧ tile.ShowsPixels ∧ tile.address backends = .ok address ∧
      tile.AsksAboutFetched backends {} address := by
  intro tile backends address
  have haddress : tile.address backends = .ok address := rfl
  have hkept : (Percent.decodeText? tile.identifier).isSome = false := by decide +kernel
  have himage : tile.ShowsPixels := .deepZoomTile _
  refine ⟨rfl, himage, haddress, (Request.asksAboutFetched_iff {} himage haddress).2 fun h => ?_⟩
  rw [hkept] at h
  exact Bool.false_ne_true h.2

/-- The gate asks about `a%41` and the server is asked for `aA`. -/
theorem Request.asksAboutOther_encoded_name :
    let request : Request := .iip { image := "a%41" }
    let backends : Backends := { iip := some "http://b.test/iip" }
    let address := "http://b.test/iip?FIF=aA&CVT=jpeg"
    request.check = .ok () ∧ request.ShowsPixels ∧ request.address backends = .ok address ∧
      backends.imageAt? request.protocol address = some "aA" ∧
      ∀ limits : ThumbnailLimits,
        (Gate.query request.identifier (request.presentation limits)).identifiers = ["a%41"] ∧
          ¬ request.AsksAboutFetched backends limits address := by
  intro request backends address
  have hname : backends.imageAt? request.protocol address = some "aA" := by decide +kernel
  refine ⟨rfl, .iip _, congrArg Except.ok (by decide +kernel), hname, fun limits => ⟨rfl, fun h => ?_⟩⟩
  have hsame := (Request.asksAboutFetched_iff_eq limits hname).1 h
  exact absurd hsame (by decide)

end ImageGate
