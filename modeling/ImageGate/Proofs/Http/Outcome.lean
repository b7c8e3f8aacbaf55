import ImageGate.Proofs.Access.Mediation
import ImageGate.Proofs.Backend.BodyTransfer
import ImageGate.Proofs.Text.JsonReading

/-! What a caller sees of a fetch. A reply of success comes with its status, its media type and its
body as far as it arrived; anything else is a fault whose kind and status follow from how the fetch
ended, told in a JSON object that holds nothing else. -/
namespace ImageGate
open Text
set_option autoImplicit false

/-! ## The way to the fetch -/

/-- A request that has its way to the image server ends as its fetch does. -/
theorem Delivery.Course.result_of_fetch {settings : Settings} {gate : Gate} {world : Collaborators}
    {request : Request} {accept : Option String} {run : DeliveryRun} {address : String}
    (h : Course settings gate world request accept run) (hgoes : request.GoesTo settings address)
    (hgate : request.ShowsPixels →
      Gate.verdict request.identifier (world.rights (request.question settings)) = .ok .access) :
    run.result = (FetchedImage.ofOutcome (world.backend ⟨address, accept⟩) request.identifier).map
      (ofFetched request) := by
  cases h with
  | refused hcheck => exact absurd hcheck hgoes.check_ne
  | unplaced _ haddress => exact absurd haddress hgoes.address_ne
  | undecided _ himage hverdict =>
    rw [hgate himage] at hverdict
    cases hverdict
  | replaced _ himage hverdict hpassage =>
    rw [hgate himage, Except.ok.injEq] at hverdict
    rw [← hverdict] at hpassage
    cases hpassage
  | described hother | admitted hother =>
    rw [hgoes.unique hother]
    rfl

/-! ## Media types -/

def IsVisible (b : UInt8) : Prop := (0x20 ≤ b ∧ b < 0x7f) ∨ b = 0x09

theorem visible_iff {value : List UInt8} :
    (value.all fun b => (0x20 ≤ b && b < 0x7f) || b == 0x09) = true ↔ ∀ b ∈ value, IsVisible b := by
  simp only [List.all_eq_true, Bool.or_eq_true, Bool.and_eq_true, decide_eq_true_eq, beq_iff_eq,
    IsVisible]

theorem utf8EncodeChar_of_visible {b : UInt8} (h : IsVisible b) :
    String.utf8EncodeChar (Char.ofNat b.toNat) = [b] := by
  have hascii : b.toNat < 0x80 := by
    rcases h with ⟨-, h⟩ | rfl
    · exact Nat.lt_trans (UInt8.lt_iff_toNat_lt.1 h) (by decide)
    · decide
  rw [Utf8.utf8EncodeChar_of_ascii (by rwa [Utf8.toNat_ofNat_toNat]), Utf8.toNat_ofNat_toNat,
    UInt8.ofNat_toNat]

theorem visibleText?_of_visible {value : List UInt8} (h : ∀ b ∈ value, IsVisible b) :
    ∃ text, visibleText? value = some text ∧ Utf8.bytes text = value := by
  refine ⟨_, if_pos (visible_iff.2 h), ?_⟩
  rw [Utf8.bytes_ofList, List.flatMap_map, List.flatMap_def,
    List.map_congr_left fun b hb => utf8EncodeChar_of_visible (h b hb), ← List.flatMap_def,
    List.flatMap_singleton']

theorem visibleText?_eq_none {value : List UInt8} (h : ∃ b ∈ value, ¬ IsVisible b) :
    visibleText? value = none := by
  refine if_neg fun hall => ?_
  obtain ⟨b, hb, hnot⟩ := h
  exact hnot (visible_iff.1 hall b hb)

namespace Http

theorem isHeaderValue_mediaType (format : String) : isHeaderValue (mediaType format) = true := by
  unfold mediaType
  split <;> decide

theorem isHeaderValue_of_visibleText? {value : List UInt8} {text : String}
    (h : visibleText? value = some text) : isHeaderValue text = true := by
  rw [visibleText?, Option.ite_none_right_eq_some, visible_iff, Option.some.injEq] at h
  obtain ⟨hvisible, rfl⟩ := h
  rw [isHeaderValue, String.toList_ofList, List.all_map, List.all_eq_true]
  intro b hb
  have hn := Utf8.toNat_ofNat_toNat b
  rcases hvisible b hb with ⟨hlow, hhigh⟩ | rfl
  · rw [UInt8.le_iff_toNat_le] at hlow
    rw [UInt8.lt_iff_toNat_lt] at hhigh
    have hchar : 0x20 ≤ (Char.ofNat b.toNat).toNat ∧ (Char.ofNat b.toNat).toNat ≠ 0x7f := by
      rw [hn]
      exact ⟨hlow, Nat.ne_of_lt hhigh⟩
    simp only [Function.comp_apply, isValueChar, Bool.or_eq_true, Bool.and_eq_true,
      decide_eq_true_eq, bne_iff_ne]
    exact .inr hchar
  · decide

/-! ## Responses to a fetch -/

def Response.contentType? (response : Response) : Option String :=
  response.headers.lookup "content-type"

/-- The response hands on a reply of success to this request. -/
structure Relays (request : ImageGate.Request) (reply : Reply) (response : Response) : Prop where
  status : response.status = reply.status
  typed : ∀ bytes ∈ reply.mediaType, (∀ b ∈ bytes, IsVisible b) →
    ∃ text, Utf8.bytes text = bytes ∧ response.contentType? = some text
  untyped : (∀ bytes ∈ reply.mediaType, ∃ b ∈ bytes, ¬ IsVisible b) →
    ∃ type, request.HasMediaType type ∧ response.contentType? = some type
  body : response.body = .streamed reply.body
  /-- However the source of the body answered, polling it to the end gives this body. -/
  transfer : ∀ {ε : Type} (answers : List (Poll ε)), reply.body = .ofAnswers answers →
    ∀ n, answers.length ≤ n →
      (CountedBody.handedOn n answers).filterMap Poll.chunk? = reply.body.chunks ∧
        (CountedBody.handedOn n answers).any Poll.isFailure = reply.body.breaksOff

/-- The result is a fault of this status, and the response tells its kind, message and status. -/
structure Reports (kind message : String) (code : Nat) (result : Except Fault Delivered)
    (response : Response) : Prop where
  fault : ∃ fault, result = .error fault ∧ fault.status = code
  status : response.status = code
  inRange : 400 ≤ code ∧ code < 600
  contentType : response.contentType? = some "application/json"
  body : ∃ bytes, response.body = .whole bytes ∧ Json.object? bytes =
    some [("error", .text kind), ("message", .text message), ("status", .number code)]

structure Shows (request : ImageGate.Request) (outcome : FetchOutcome)
    (result : Except Fault Delivered) (response : Response) : Prop where
  relayed : ∀ reply, outcome = .ok reply → 200 ≤ reply.status ∧ reply.status < 300 →
    Relays request reply response
  refused : ∀ reply, outcome = .ok reply → 400 ≤ reply.status ∧ reply.status < 600 →
    Reports "upstream_error" s!"Unable to proxy request for '{request.identifier}'" reply.status
      result response
  unhandled : ∀ reply, outcome = .ok reply → ¬ (200 ≤ reply.status ∧ reply.status < 300) →
    ¬ (400 ≤ reply.status ∧ reply.status < 600) →
    let code := Number.natText reply.status
    Reports "upstream_error"
      s!"Unhandled status code {code} for proxy connection for '{request.identifier}'" 500
      result response
  timedOut : ∀ failure, outcome = .error failure → .timeout ∈ failure.causes →
    Reports "upstream_error" s!"Timeout establishing proxy connection for '{request.identifier}'"
      504 result response
  unbuilt : ∀ failure, outcome = .error failure → .timeout ∉ failure.causes →
    failure.stage = .building → Reports "internal_error" "Internal server error" 500 result response
  unreached : ∀ failure, outcome = .error failure → .timeout ∉ failure.causes →
    failure.stage = .connecting → Reports "upstream_error"
      s!"Unable to establish proxy connection for '{request.identifier}'" 502 result response
  broken : ∀ failure, outcome = .error failure → .timeout ∉ failure.causes →
    failure.stage = .exchanging → Reports "upstream_error"
      s!"Unable to proxy request for '{request.identifier}' due to proxied server error -1" 500
      result response

variable {request : ImageGate.Request} {reply : Reply} {result : Except Fault Delivered}
variable {response other : Response}

/-! ## Faults -/

theorem lineStatus_of_inRange {code : Nat} (h : 400 ≤ code ∧ code < 600) : lineStatus code = code := by
  have hline : (100 ≤ code && code < 1000) = true := by
    rw [Bool.and_eq_true, decide_eq_true_eq, decide_eq_true_eq]
    omega
  rw [lineStatus, if_pos hline]

theorem faultJson_eq {fault : Fault} (hfield : faultField? fault = none) :
    faultJson fault = Json.object ([("error", Json.Scalar.text (faultKind fault)),
      ("message", .text (publicMessage fault)), ("status", .number (lineStatus fault.status))].map
        fun member => (member.1, member.2.json)) := by
  rw [faultJson, hfield]
  rfl

theorem reports_ofFault (fault : Fault) (hfield : faultField? fault = none)
    (hrange : 400 ≤ fault.status ∧ fault.status < 600) :
    Reports (faultKind fault) (publicMessage fault) fault.status (.error fault)
      (.ofFault fault) where
  fault := ⟨fault, rfl, rfl⟩
  status := lineStatus_of_inRange hrange
  inRange := hrange
  contentType := rfl
  body := by
    refine ⟨_, rfl, ?_⟩
    rw [faultJson_eq hfield, Json.object?_object (List.cons_ne_nil _ _), lineStatus_of_inRange hrange]

theorem reports_backend {code : Nat} (hrange : 400 ≤ code ∧ code < 600) (message : String) :
    Reports "upstream_error" message code (.error (.backend code message))
      (.ofFault (.backend code message)) :=
  reports_ofFault (.backend code message) rfl hrange

theorem reports_internal (reason : String) :
    Reports "internal_error" "Internal server error" 500 (.error (.internal reason))
      (.ofFault (.internal reason)) := by
  have hrange : 400 ≤ 500 ∧ 500 < 600 := by decide
  exact reports_ofFault (.internal reason) rfl hrange

/-! ## The status of a reply -/

theorem relayStatus_eq (status : Nat) (identifier : String) :
    let code := Number.natText status
    relayStatus status identifier =
      if 200 ≤ status ∧ status < 300 then .ok status
      else if 400 ≤ status ∧ status < 600 then
        .error (.backend status s!"Unable to proxy request for '{identifier}'")
      else
        .error (.backend 500
          s!"Unhandled status code {code} for proxy connection for '{identifier}'") := by
  have hsuccess : (200 ≤ (status : Int) && (status : Int) < 300)
      = decide (200 ≤ status ∧ status < 300) := by
    rw [Bool.eq_iff_iff, Bool.and_eq_true, decide_eq_true_eq, decide_eq_true_eq, decide_eq_true_eq]
    omega
  have hrefused : (400 ≤ (status : Int) && (status : Int) < 600)
      = decide (400 ≤ status ∧ status < 600) := by
    rw [Bool.eq_iff_iff, Bool.and_eq_true, decide_eq_true_eq, decide_eq_true_eq, decide_eq_true_eq]
    omega
  have hnoStatus : (status : Int) ≠ noStatus := by
    rw [noStatus]
    omega
  simp only [relayStatus, hsuccess, hrefused, decide_eq_true_eq, if_neg hnoStatus]
  rfl

/-! ## What a fetch shows -/

theorem relays_ofDelivered (hcheck : request.check = .ok ()) (reply : Reply) :
    Relays request reply (.ofDelivered (Delivery.ofFetched request
      ⟨reply.status, reply.mediaType.bind visibleText?, reply.body⟩)) where
  status := rfl
  typed := by
    intro bytes hbytes hvisible
    obtain ⟨text, htext, hback⟩ := visibleText?_of_visible hvisible
    refine ⟨text, hback, ?_⟩
    rw [Option.mem_def] at hbytes
    have hvalue := isHeaderValue_of_visibleText? htext
    simp only [Response.contentType?, Response.ofDelivered, Delivery.ofFetched, hbytes,
      Option.bind_some, htext, Option.getD_some, hvalue, if_true, List.lookup_cons_self]
  untyped := by
    intro hinvisible
    have hnone : reply.mediaType.bind visibleText? = none := by
      cases hbytes : reply.mediaType with
      | none => rfl
      | some bytes => exact visibleText?_eq_none (hinvisible bytes hbytes)
    refine ⟨_, (request.hasMediaType_iff hcheck).2 rfl, ?_⟩
    simp only [Response.contentType?, Response.ofDelivered, Delivery.ofFetched, hnone,
      Option.getD_none, isHeaderValue_mediaType, if_true, List.lookup_cons_self]
  body := rfl
  transfer := by
    intro ε answers hanswers n hn
    rw [hanswers]
    exact ⟨CountedBody.filterMap_chunk?_handedOn hn, CountedBody.any_isFailure_handedOn hn⟩

theorem shows_ofResult (hcheck : request.check = .ok ()) (outcome : FetchOutcome) :
    let result := (FetchedImage.ofOutcome outcome request.identifier).map
      (Delivery.ofFetched request)
    Shows request outcome result (.ofResult result) where
  relayed := by
    rintro reply rfl hsuccess
    simp only [FetchedImage.ofOutcome, relayStatus_eq, if_pos hsuccess]
    exact relays_ofDelivered hcheck reply
  refused := by
    rintro reply rfl hrefused
    have hsuccess : ¬ (200 ≤ reply.status ∧ reply.status < 300) := by omega
    simp only [FetchedImage.ofOutcome, relayStatus_eq, if_neg hsuccess, if_pos hrefused]
    exact reports_backend hrefused _
  unhandled := by
    rintro reply rfl hsuccess hrefused
    simp only [FetchedImage.ofOutcome, relayStatus_eq, if_neg hsuccess, if_neg hrefused]
    exact reports_backend (by decide) _
  timedOut := by
    rintro failure rfl htimeout
    simp only [FetchedImage.ofOutcome, FetchFailure.fault, List.contains_iff_mem.2 htimeout, if_true]
    exact reports_backend (by decide) _
  unbuilt := by
    rintro failure rfl htimeout hstage
    simp only [FetchedImage.ofOutcome, FetchFailure.fault, List.contains_iff_mem, htimeout, if_false,
      hstage]
    exact reports_internal _
  unreached := by
    rintro failure rfl htimeout hstage
    simp only [FetchedImage.ofOutcome, FetchFailure.fault, List.contains_iff_mem, htimeout, if_false,
      hstage]
    exact reports_backend (by decide) _
  broken := by
    rintro failure rfl htimeout hstage
    simp only [FetchedImage.ofOutcome, FetchFailure.fault, List.contains_iff_mem, htimeout, if_false,
      hstage]
    exact reports_backend (by decide) _

/-! ## Responses of the server -/

/-- The response shows the same of a fetch as the other one. -/
structure Response.AddsTo (response other : Response) : Prop where
  status : response.status = other.status
  contentType : response.contentType? = other.contentType?
  body : response.body = other.body

theorem Relays.of_addsTo (h : Relays request reply other) (hadds : response.AddsTo other) :
    Relays request reply response where
  status := hadds.status.trans h.status
  typed bytes hbytes hvisible := by
    rw [hadds.contentType]
    exact h.typed bytes hbytes hvisible
  untyped hinvisible := by
    rw [hadds.contentType]
    exact h.untyped hinvisible
  body := hadds.body.trans h.body
  transfer := h.transfer

theorem Reports.of_addsTo {kind message : String} {code : Nat}
    (h : Reports kind message code result other) (hadds : response.AddsTo other) :
    Reports kind message code result response where
  fault := h.fault
  status := hadds.status.trans h.status
  inRange := h.inRange
  contentType := hadds.contentType.trans h.contentType
  body := by
    rw [hadds.body]
    exact h.body

theorem Shows.of_addsTo {outcome : FetchOutcome} (h : Shows request outcome result other)
    (hadds : response.AddsTo other) : Shows request outcome result response where
  relayed reply hreply hsuccess := (h.relayed reply hreply hsuccess).of_addsTo hadds
  refused reply hreply hrefused := (h.refused reply hreply hrefused).of_addsTo hadds
  unhandled reply hreply hsuccess hrefused :=
    (h.unhandled reply hreply hsuccess hrefused).of_addsTo hadds
  timedOut failure hfailure htimeout := (h.timedOut failure hfailure htimeout).of_addsTo hadds
  unbuilt failure hfailure htimeout hstage :=
    (h.unbuilt failure hfailure htimeout hstage).of_addsTo hadds
  unreached failure hfailure htimeout hstage :=
    (h.unreached failure hfailure htimeout hstage).of_addsTo hadds
  broken failure hfailure htimeout hstage :=
    (h.broken failure hfailure htimeout hstage).of_addsTo hadds

theorem isSome_contentType?_ofResult (result : Except Fault Delivered) :
    (Response.ofResult result).contentType?.isSome = true := by
  cases result with
  | error fault => rfl
  | ok delivered => cases delivered <;> rfl

theorem addsTo_addHeaders (h : response.contentType?.isSome = true) (headers : List Header) :
    (response.addHeaders headers).AddsTo response where
  status := rfl
  contentType := by
    obtain ⟨value, hvalue⟩ := Option.isSome_iff_exists.1 h
    rw [hvalue, Response.contentType?, Response.addHeaders, List.lookup_append]
    rw [Response.contentType?] at hvalue
    rw [hvalue, Option.some_or]
  body := rfl

theorem addsTo_withLength (h : response.contentType?.isSome = true) :
    response.withLength.AddsTo response := by
  unfold Response.withLength
  cases hbody : response.body with
  | whole bytes => exact addsTo_addHeaders h _
  | streamed body => exact ⟨rfl, rfl, rfl⟩

theorem Response.AddsTo.trans {first : Response} (h : response.AddsTo other)
    (hother : other.AddsTo first) : response.AddsTo first :=
  ⟨h.status.trans hother.status, h.contentType.trans hother.contentType, h.body.trans hother.body⟩

/-- A server asked for this request responds with what its delivery brings and more headers, and leaves
the body out where only the head was asked for. -/
theorem Server.response_respond (server : Server) {asked : Request} {route : Route} {raw : RawRequest}
    (hroute : Route.ofPath? asked.target.path = some route)
    (hraw : route.raw? asked.target.query = .ok (some raw)) (hread : raw.read = .ok request) :
    let shown := (Response.ofResult (Delivery.run server.settings server.gate server.world request
      asked.accept?).result).withLength
    let common := server.cors.headers asked ++ exposedHeaders
    (asked.method = .get → (server.respond asked).response = shown.addHeaders common) ∧
      (asked.method = .head → (server.respond asked).response = shown.withoutBody.addHeaders common) := by
  constructor <;> intro hmethod <;>
    simp only [respond, Server.route, hroute, hmethod, get, hraw, deliver, hread]

theorem Server.respond_addsTo (server : Server) {asked : Request} {route : Route} {raw : RawRequest}
    (hmethod : asked.method = .get) (hroute : Route.ofPath? asked.target.path = some route)
    (hraw : route.raw? asked.target.query = .ok (some raw)) (hread : raw.read = .ok request) :
    (server.respond asked).response.AddsTo (.ofResult
      (Delivery.run server.settings server.gate server.world request asked.accept?).result) := by
  have htype := isSome_contentType?_ofResult
    (Delivery.run server.settings server.gate server.world request asked.accept?).result
  have hlength := addsTo_withLength htype
  have hheaders := addsTo_addHeaders (hlength.contentType ▸ htype)
    (server.cors.headers asked ++ exposedHeaders)
  rw [(server.response_respond hroute hraw hread).1 hmethod]
  exact hheaders.trans hlength

/-- What a caller sees of a request with an address, past the gate if it is for an image, depends on
nothing but the outcome of its fetch. -/
theorem shows_run {settings : Settings} {world : Collaborators} {request : ImageGate.Request}
    {address : String} (gate : Gate) (accept : Option String)
    (hgoes : request.GoesTo settings address)
    (hgate : request.ShowsPixels →
      Gate.verdict request.identifier (world.rights (request.question settings)) = .ok .access) :
    let outcome := world.backend ⟨address, accept⟩
    let result := (Delivery.run settings.delivery gate world request accept).result
    Shows request outcome result (.ofResult result) ∧
      ∀ cors asked route raw, asked.method = .get → Route.ofPath? asked.target.path = some route →
        route.raw? asked.target.query = .ok (some raw) → raw.read = .ok request →
        asked.accept? = accept →
        Shows request outcome result
          (Server.respond ⟨cors, settings.delivery, gate, world⟩ asked).response := by
  intro outcome result
  have hresult : result = (FetchedImage.ofOutcome outcome request.identifier).map
      (Delivery.ofFetched request) :=
    (Delivery.course_run settings gate world request accept).result_of_fetch hgoes hgate
  have hshows : Shows request outcome result (.ofResult result) := by
    rw [hresult]
    exact shows_ofResult hgoes.1 outcome
  refine ⟨hshows, fun cors asked route raw hmethod hroute hraw hread haccept => ?_⟩
  subst haccept
  exact hshows.of_addsTo (Server.respond_addsTo _ hmethod hroute hraw hread)

/-- A connection that came to nothing because it took too long, and a reply whose media type cannot be
shown and whose body breaks off. -/
theorem shows_run_slow_then_untyped :
    let settings : Settings := { servers := { iip := some "http://b.test" } }
    let world (outcome : FetchOutcome) : Collaborators := {
      rights := fun _ => .ok { access := ["a"] }, backend := fun _ => outcome }
    let request : ImageGate.Request := .iip { image := "a", exportAs := some "png" }
    let asked : Request := ⟨.get, ⟨"/iip", some "FIF=a&CVT=png"⟩, []⟩
    let result (outcome : FetchOutcome) :=
      (Delivery.run settings.delivery {} (world outcome) request none).result
    let response (outcome : FetchOutcome) :=
      (Server.respond ⟨.sameOrigin, settings.delivery, {}, world outcome⟩ asked).response
    let slow : FetchOutcome := .error { stage := .connecting, causes := [.other, .timeout] }
    let reply : Reply := { status := 206, mediaType := some [0x69, 0xff], body := ⟨[[1], [2]], true⟩ }
    request.GoesTo settings "http://b.test?FIF=a&CVT=png" ∧
      Reports "upstream_error" "Timeout establishing proxy connection for 'a'" 504 (result slow)
        (response slow) ∧
      Relays request reply (response (.ok reply)) ∧
      (response (.ok reply)).contentType? = some "image/png" := by
  intro settings world request asked result response slow reply
  have hgoes : request.GoesTo settings "http://b.test?FIF=a&CVT=png" := by
    constructor <;> decide +kernel
  have hgate (outcome : FetchOutcome) (_ : request.ShowsPixels) : Gate.verdict request.identifier
      ((world outcome).rights (request.question settings)) = .ok .access := rfl
  have hread : (RawRequest.iip (some "FIF=a&CVT=png")).read = .ok request := by decide +kernel
  have hshows (outcome : FetchOutcome) :
      Shows request outcome (result outcome) (response outcome) :=
    (shows_run {} none hgoes (hgate outcome)).2 .sameOrigin asked .iip (.iip (some "FIF=a&CVT=png"))
      rfl (by decide +kernel) rfl hread rfl
  have hrelays := (hshows (.ok reply)).relayed reply rfl (by decide)
  have hinvisible : ∀ bytes ∈ reply.mediaType, ∃ b ∈ bytes, ¬ IsVisible b := by
    rintro bytes ⟨⟩
    exact ⟨0xff, by decide, by unfold IsVisible; decide⟩
  obtain ⟨type, htype, hcontent⟩ := hrelays.untyped hinvisible
  have hpng : mediaType request.format = type := (request.hasMediaType_iff hgoes.1).1 htype
  refine ⟨hgoes, (hshows slow).timedOut _ rfl (by decide), hrelays, ?_⟩
  rw [hcontent, ← hpng]
  decide

end Http

end ImageGate
