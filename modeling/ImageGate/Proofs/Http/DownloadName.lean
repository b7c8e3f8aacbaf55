import ImageGate.Proofs.Backend.OutputFormat
import ImageGate.Proofs.Http.Outcome

/-! The name that an answer is offered under. It is a part of the identifier, which callers choose freely,
and it ends up between quotes in a header. Whatever stands in the identifier, the header is written and
whoever takes the quotes and the escapes off again finds the last name of the identifier, without what
controls a terminal or a connection and without a way into another folder. -/
namespace ImageGate
open Text
set_option autoImplicit false

/-! ## Names -/

def IsSlash (c : Char) : Prop := c = '/' ∨ c = '\\'

/-- The part behind the last slash of either kind, or all of it. -/
structure IsLastName (identifier last : List Char) : Prop where
  join : ∃ front, identifier = front ++ last ∧ ∀ c ∈ front.getLast?, IsSlash c
  free : ∀ c ∈ last, ¬ IsSlash c

/-- The name without one descriptor extension. -/
def IsStem (last stem : List Char) : Prop :=
  last = stem ++ ".dzi".toList ∨ ¬ ".dzi".toList <:+ last ∧ stem = last

/-- The name that a file of the last name in the identifier has in this format. -/
def IsFileName (identifier format : String) (name : List Char) : Prop :=
  ∃ last stem, IsLastName identifier.toList last ∧ IsStem last stem ∧
    name = stem.filter (fun c => !Http.isControl c) ++ '.' :: format.toList

theorem isLastName_lastName (identifier : List Char) :
    IsLastName identifier (Request.lastName identifier) where
  join := by
    let isName := fun c : Char => !(c == '/' || c == '\\')
    refine ⟨(identifier.reverse.dropWhile isName).reverse, ?_, fun c hc => ?_⟩
    · rw [Request.lastName, ← List.reverse_append, List.takeWhile_append_dropWhile, List.reverse_reverse]
    · rw [List.getLast?_reverse, Option.mem_def] at hc
      have hstop := List.head?_dropWhile_not isName identifier.reverse
      rw [hc] at hstop
      simpa [isName, IsSlash, or_iff_not_imp_left] using hstop
  free c hc := by
    rw [Request.lastName, List.mem_reverse] at hc
    have hname := List.all_eq_true.1 List.all_takeWhile c hc
    simpa [IsSlash] using hname

theorem isStem_beforeSuffix? (last : List Char) :
    IsStem last ((beforeSuffix? ".dzi".toList last).getD last) := by
  cases hsuffix : beforeSuffix? ".dzi".toList last with
  | some stem => exact .inl (beforeSuffix?_eq_some_iff.1 hsuffix)
  | none =>
    refine .inr ⟨fun ⟨stem, hstem⟩ => ?_, rfl⟩
    rw [beforeSuffix?_eq_some_iff.2 hstem.symm] at hsuffix
    cases hsuffix

theorem IsStem.subset {last stem : List Char} (h : IsStem last stem) : stem ⊆ last := by
  rcases h with rfl | ⟨-, rfl⟩
  · exact List.subset_append_left _ _
  · exact List.Subset.refl _

/-! ## Quoted strings -/

namespace Http

/-- The content of a quoted string without its escapes. A quote or a backslash that is not escaped is
refused, and so is a backslash that escapes anything else. -/
def unescape? : List Char → Option (List Char)
  | [] => some []
  | '\\' :: c :: rest => if c = '"' ∨ c = '\\' then (unescape? rest).map (c :: ·) else none
  | c :: rest => if c = '"' ∨ c = '\\' then none else (unescape? rest).map (c :: ·)

theorem unescape?_escape {c : Char} (hmark : c = '"' ∨ c = '\\') (rest : List Char) :
    unescape? ('\\' :: c :: rest) = (unescape? rest).map (c :: ·) := by
  rw [unescape?, if_pos hmark]

theorem unescape?_plain {c : Char} (hplain : ¬ (c = '"' ∨ c = '\\')) (rest : List Char) :
    unescape? (c :: rest) = (unescape? rest).map (c :: ·) := by
  rw [unescape?.eq_3 _ _ fun _ _ h _ => hplain (.inr h), if_neg hplain]

/-- Escaping is undone. -/
theorem unescape?_quotedName (name : String) :
    unescape? (quotedName name).toList = some (name.toList.filter fun c => !isControl c) := by
  rw [quotedName, String.toList_ofList]
  induction name.toList.filter fun c => !isControl c with
  | nil => rfl
  | cons c cs ih =>
    rw [List.flatMap_cons]
    split
    · next hmark =>
      rw [Bool.or_eq_true, decide_eq_true_eq, decide_eq_true_eq] at hmark
      rw [List.cons_append, List.singleton_append, unescape?_escape hmark, ih, Option.map_some]
    · next hplain =>
      rw [Bool.or_eq_true, decide_eq_true_eq, decide_eq_true_eq] at hplain
      rw [List.singleton_append, unescape?_plain hplain, ih, Option.map_some]

theorem isControl_of_mem_quotedName {name : String} {c : Char} (hc : c ∈ (quotedName name).toList) :
    isControl c = false := by
  rw [quotedName, String.toList_ofList, List.mem_flatMap] at hc
  obtain ⟨d, hd, hcd⟩ := hc
  have hkept : isControl d = false := by simpa using (List.mem_filter.1 hd).2
  split at hcd
  · rcases List.mem_cons.1 hcd with rfl | hcd
    · decide
    · rwa [List.mem_singleton.1 hcd]
  · rwa [List.mem_singleton.1 hcd]

/-! ## Header values -/

/-- The bytes that may stand in a header value. -/
def IsValueByte (b : UInt8) : Prop := b = 0x09 ∨ 0x20 ≤ b ∧ b ≠ 0x7f

theorem isValueChar_iff {c : Char} :
    isValueChar c = true ↔ c.toNat = 0x09 ∨ 0x20 ≤ c.toNat ∧ c.toNat ≠ 0x7f := by
  rw [isValueChar, Bool.or_eq_true, beq_iff_eq, Bool.and_eq_true, decide_eq_true_eq, bne_iff_ne,
    ← Char.toNat_inj]
  rfl

/-- The rule for characters keeps the one for bytes: a character beyond ASCII has only high bytes. -/
theorem isValueByte_of_isHeaderValue {value : String} (h : isHeaderValue value = true) :
    ∀ b ∈ Utf8.bytes value, IsValueByte b := by
  intro b hb
  rw [IsValueByte, UInt8.le_iff_toNat_le, ← UInt8.toNat_inj, ne_eq, ← UInt8.toNat_inj]
  show b.toNat = 0x09 ∨ 0x20 ≤ b.toNat ∧ ¬ b.toNat = 0x7f
  by_cases hlow : b.toNat < 0x80
  · have hc := List.all_eq_true.1 h _ (Utf8.mem_toList_of_mem_bytes hlow hb)
    rwa [isValueChar_iff, Utf8.toNat_ofNat_toNat] at hc
  · omega

theorem isHeaderValue_append (s t : String) :
    isHeaderValue (s ++ t) = (isHeaderValue s && isHeaderValue t) := by
  rw [isHeaderValue, String.toList_append, List.all_append, isHeaderValue, isHeaderValue]

/-- Nothing that is left of a name keeps a header from being written. -/
theorem isHeaderValue_of_not_isControl {value : String} (h : ∀ c ∈ value.toList, isControl c = false) :
    isHeaderValue value = true := by
  refine List.all_eq_true.2 fun c hc => isValueChar_iff.2 (.inr ?_)
  have hkept := h c hc
  simp [isControl] at hkept
  omega

/-- Every name makes a header. -/
theorem contentDisposition?_eq (name : String) :
    contentDisposition? name = some ("inline; filename=\"" ++ quotedName name ++ "\"") := by
  have hquoted : isHeaderValue (quotedName name) = true :=
    isHeaderValue_of_not_isControl fun c => isControl_of_mem_quotedName
  have hvalue : isHeaderValue ("inline; filename=\"" ++ quotedName name ++ "\"") = true := by
    rw [isHeaderValue_append, isHeaderValue_append, hquoted]
    decide
  rw [contentDisposition?, if_pos hvalue]

/-! ## The header of a response -/

/-- Everything that stands under a name, in order. -/
def Response.values (response : Response) (name : String) : List String :=
  (response.headers.filter fun header => header.1 == name).map (·.2)

/-- The value shows the answer in place and names it, in quotes. -/
structure Presents (value : String) (name : List Char) : Prop where
  written : ∀ b ∈ Utf8.bytes value, IsValueByte b
  quoted : ∃ quoted : String, value = "inline; filename=\"" ++ quoted ++ "\"" ∧
    (∀ c ∈ quoted.toList, isControl c = false) ∧ unescape? quoted.toList = some name

end Http

/-- A whole image or the description of one by a descriptor. -/
def Request.IsWhole : Request → Prop
  | iip _ | iiifImage _ | deepZoomDescriptor _ => True
  | iiifInfo _ | deepZoomTile _ => False

namespace Http

/-- The response offers the answer to such a request under its name, and to another under none. -/
structure Offers (request : ImageGate.Request) (response : Response) : Prop where
  offered : request.IsWhole → ∃ value name, response.values "content-disposition" = [value] ∧
    IsFileName request.identifier request.format name ∧ (∀ c ∈ name, ¬ IsSlash c) ∧
    Presents value name
  notOffered : ¬ request.IsWhole → response.values "content-disposition" = []

theorem Offers.of_values {request : ImageGate.Request} {response other : Response}
    (h : Offers request other)
    (hvalues : response.values "content-disposition" = other.values "content-disposition") :
    Offers request response where
  offered hwhole := by
    rw [hvalues]
    exact h.offered hwhole
  notOffered hwhole := hvalues.trans (h.notOffered hwhole)

theorem presents_of_contentDisposition? {name value : String} (h : contentDisposition? name = some value) :
    Presents value (name.toList.filter fun c => !isControl c) where
  written := by
    rw [contentDisposition?, Option.ite_none_right_eq_some] at h
    obtain ⟨hvalue, hname⟩ := h
    rw [← Option.some.inj hname]
    exact isValueByte_of_isHeaderValue hvalue
  quoted := by
    rw [contentDisposition?_eq, Option.some.injEq] at h
    exact ⟨quotedName name, h.symm, fun c => isControl_of_mem_quotedName, unescape?_quotedName name⟩

theorem isFileName_downloadName {request : ImageGate.Request} (hcheck : request.check = .ok ())
    {name : String} (hname : request.downloadName = some name) :
    let kept := name.toList.filter fun c => !isControl c
    IsFileName request.identifier request.format kept ∧ ∀ c ∈ kept, ¬ IsSlash c := by
  intro kept
  have htable : ∀ format ∈ answerTypes.map Prod.fst,
      ('.' :: format.toList).all (fun c => !isControl c && c != '/' && c != '\\') = true := by
    decide +kernel
  have hformat := List.all_eq_true.1 (htable _ (request.format_mem hcheck))
  simp only [Bool.and_eq_true, Bool.not_eq_true', bne_iff_ne] at hformat
  let last := Request.lastName request.identifier.toList
  let stem := (beforeSuffix? ".dzi".toList last).getD last
  have hstem : IsStem last stem := isStem_beforeSuffix? last
  have hlast : IsLastName request.identifier.toList last := isLastName_lastName _
  have hkept : kept = stem.filter (fun c => !isControl c) ++ '.' :: request.format.toList := by
    have hname : name.toList = stem ++ '.' :: request.format.toList := by
      rw [Request.eq_of_downloadName hname, Request.baseName]
      simp [String.toList_append, stem, last]
    have hall : ∀ c ∈ '.' :: request.format.toList, (!isControl c) = true := fun c hc => by
      rw [(hformat c hc).1.1]
      rfl
    show name.toList.filter _ = _
    rw [hname, List.filter_append, List.filter_eq_self.2 hall]
  refine ⟨⟨last, stem, hlast, hstem, hkept⟩, fun c hc => ?_⟩
  rw [hkept, List.mem_append] at hc
  rcases hc with hc | hc
  · exact hlast.free c (hstem.subset (List.mem_filter.1 hc).1)
  · exact not_or.2 ⟨(hformat c hc).1.2, (hformat c hc).2⟩

theorem offers_ofDelivered {request : ImageGate.Request} (hcheck : request.check = .ok ())
    (image : FetchedImage) (mediaType : String) :
    Offers request (.ofDelivered (.image image mediaType request.downloadName)) where
  offered hwhole := by
    obtain ⟨name, hname⟩ : ∃ name, request.downloadName = some name := by
      cases request with
      | iip r | iiifImage r | deepZoomDescriptor r => exact ⟨_, rfl⟩
      | iiifInfo r | deepZoomTile r => exact hwhole.elim
    obtain ⟨hfile, hslash⟩ := isFileName_downloadName hcheck hname
    refine ⟨_, _, ?_, hfile, hslash, presents_of_contentDisposition? (contentDisposition?_eq name)⟩
    simp [Response.values, Response.ofDelivered, hname, contentDisposition?_eq]
  notOffered hwhole := by
    have hnone : request.downloadName = none := by
      cases request with
      | iip r | iiifImage r | deepZoomDescriptor r => exact absurd trivial hwhole
      | iiifInfo r | deepZoomTile r => rfl
    simp [Response.values, Response.ofDelivered, hnone]

/-! ## Responses of the server -/

theorem Response.values_addHeaders {headers : List Header} {name : String}
    (h : ∀ header ∈ headers, header.1 ≠ name) (response : Response) :
    (response.addHeaders headers).values name = response.values name := by
  have hnone : headers.filter (fun header => header.1 == name) = [] :=
    List.filter_eq_nil_iff.2 fun header hheader => by simpa using h header hheader
  rw [values, addHeaders, List.filter_append, hnone, List.append_nil, values]

theorem Response.values_withLength {name : String} (h : "content-length" ≠ name) (response : Response) :
    response.withLength.values name = response.values name := by
  unfold Response.withLength
  cases response.body with
  | whole bytes => exact values_addHeaders (by simpa using h) response
  | streamed body => rfl

theorem Server.values_respond (server : Server) {asked : Request} {route : Route} {raw : RawRequest}
    {request : ImageGate.Request} (hmethod : asked.method = .get ∨ asked.method = .head)
    (hroute : Route.ofPath? asked.target.path = some route)
    (hraw : route.raw? asked.target.query = .ok (some raw)) (hread : raw.read = .ok request) :
    (server.respond asked).response.values "content-disposition" = (Response.ofResult
      (Delivery.run server.settings server.gate server.world request asked.accept?).result).values
        "content-disposition" := by
  have hcommon : ∀ header ∈ server.cors.headers asked ++ exposedHeaders,
      header.1 ≠ "content-disposition" := by
    unfold CorsPolicy.headers
    cases server.cors.allowed? (asked.header? "origin") <;> simp [exposedHeaders]
  obtain ⟨hget, hhead⟩ := server.response_respond hroute hraw hread
  rcases hmethod with hmethod | hmethod
  · rw [hget hmethod, Response.values_addHeaders hcommon, Response.values_withLength (by decide)]
  · rw [hhead hmethod, Response.values_addHeaders hcommon]
    exact Response.values_withLength (by decide) _

end Http

/-- Only a request in order brings an image, and the image comes with the name of the request. -/
theorem Delivery.Course.name_of_image {settings : Settings} {gate : Gate} {world : Collaborators}
    {request : Request} {accept : Option String} {run : DeliveryRun} {image : FetchedImage}
    {mediaType : String} {name : Option String} (h : Course settings gate world request accept run)
    (himage : run.result = .ok (.image image mediaType name)) :
    request.check = .ok () ∧ name = request.downloadName := by
  have hfetched : ∀ get calls,
      (fetch world request get calls).result = .ok (.image image mediaType name) →
      name = request.downloadName := by
    intro get calls hresult
    rw [fetch] at hresult
    cases houtcome : FetchedImage.ofOutcome (world.backend get) request.identifier with
    | error fault =>
      rw [houtcome] at hresult
      cases hresult
    | ok fetched =>
      rw [houtcome] at hresult
      cases hresult
      rfl
  cases h with
  -- Failures and placeholders are no images.
  | refused | unplaced | undecided | replaced => cases himage
  | described hgoes | admitted hgoes => exact ⟨hgoes.1, hfetched _ _ himage⟩

namespace Http

/-- Whatever the identifier, an answer that is handed on offers the last name in it. -/
theorem offers_run {settings : Settings} {gate : Gate} {world : Collaborators} {request : ImageGate.Request}
    {accept : Option String} {image : FetchedImage} {mediaType : String} {name : Option String}
    (himage : (Delivery.run settings.delivery gate world request accept).result
      = .ok (.image image mediaType name)) :
    Offers request (.ofResult (Delivery.run settings.delivery gate world request accept).result) ∧
      ∀ cors asked route raw, asked.method = .get ∨ asked.method = .head →
        Route.ofPath? asked.target.path = some route →
        route.raw? asked.target.query = .ok (some raw) → raw.read = .ok request →
        asked.accept? = accept →
        Offers request (Server.respond ⟨cors, settings.delivery, gate, world⟩ asked).response := by
  obtain ⟨hcheck, rfl⟩ := (Delivery.course_run settings gate world request accept).name_of_image himage
  have hoffers : Offers request
      (.ofResult (Delivery.run settings.delivery gate world request accept).result) := by
    rw [himage]
    exact offers_ofDelivered hcheck image mediaType
  refine ⟨hoffers, fun cors asked route raw hmethod hroute hraw hread haccept => ?_⟩
  subst haccept
  exact hoffers.of_values (Server.values_respond _ hmethod hroute hraw hread)

/-- A quote is escaped and a control character of the second range is dropped. -/
theorem offers_run_quoted_name :
    let settings : Settings := { servers := { iip := some "http://b.test" } }
    let world : Collaborators := {
      rights := fun _ => .ok { access := ["p/a\"b\u0085.dzi"] }
      backend := fun _ => .ok { status := 200, body := { chunks := [[1]] } } }
    let request : ImageGate.Request := .iip { image := "p/a\"b\u0085.dzi" }
    let asked : Request := ⟨.head, ⟨"/iip", some "FIF=p/a%22b%C2%85.dzi"⟩, []⟩
    let response := (Server.respond ⟨.sameOrigin, settings.delivery, {}, world⟩ asked).response
    (Delivery.run settings.delivery {} world request none).result
      = .ok (Delivery.ofFetched request ⟨200, none, { chunks := [[1]] }⟩) ∧
    Offers request response ∧
    response.values "content-disposition" = ["inline; filename=\"a\\\"b.jpeg\""] := by
  intro settings world request asked response
  have himage : (Delivery.run settings.delivery {} world request none).result
      = .ok (Delivery.ofFetched request ⟨200, none, { chunks := [[1]] }⟩) := by
    have hgoes : request.GoesTo settings "http://b.test?FIF=p%2Fa%22b%C2%85.dzi&CVT=jpeg" := by
      constructor <;> decide +kernel
    have haccess : Gate.verdict request.identifier (world.rights (request.question settings))
        = .ok .access := by decide +kernel
    rw [(Delivery.course_run settings {} world request none).result_of_fetch hgoes fun _ => haccess]
    rfl
  have hroute : Route.ofPath? "/iip" = some .iip := by decide +kernel
  have hread : (RawRequest.iip (some "FIF=p/a%22b%C2%85.dzi")).read = .ok request := by decide +kernel
  refine ⟨himage, (offers_run himage).2 .sameOrigin asked .iip _ (.inr rfl) hroute rfl hread rfl, ?_⟩
  rw [Server.values_respond _ (.inr rfl) hroute rfl hread]
  show (Response.ofResult (Delivery.run settings.delivery {} world request none).result).values _ = _
  rw [himage]
  decide +kernel

end Http

end ImageGate
