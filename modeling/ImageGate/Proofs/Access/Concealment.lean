import ImageGate.Serving

/-! Concealment. Two servers that differ in where their image servers and their rights service are, and in
how these want to be addressed, answer a request alike, as long as their calls come out alike: the
answers about rights up to the way in which they fail, and the fetches up to what comes with a status
that is none of success. So a response tells a caller nothing about places, nor about the inside of a
failed call. -/
namespace ImageGate
set_option autoImplicit false

/-! ## Calls that come out alike -/

/-- Both answers are the same lists, or both are failures of any kind. -/
def RightsAlike (a b : Except RightsFailure AccessLists) : Prop := a.toOption = b.toOption

/-- The outcomes are equal, or both are replies of one status that is none of success. -/
inductive FetchAlike : FetchOutcome → FetchOutcome → Prop where
  | same (outcome : FetchOutcome) : FetchAlike outcome outcome
  | refused {a b : Reply} (hstatus : a.status = b.status)
      (hrefused : ¬ (200 ≤ a.status ∧ a.status < 300)) : FetchAlike (.ok a) (.ok b)

/-- What came of the questions among the calls. -/
def Collaborators.answers (world : Collaborators) (calls : List Call) :
    List (Except RightsFailure AccessLists) :=
  calls.filterMap fun
    | .rights query => some (world.rights query)
    | .fetch _ => none

/-- What came of the fetches among the calls. -/
def Collaborators.outcomes (world : Collaborators) (calls : List Call) : List FetchOutcome :=
  calls.filterMap fun
    | .rights _ => none
    | .fetch get => some (world.backend get)

/-- Position by position, the calls of both worlds come out alike. -/
structure CallsAlike (worldA worldB : Collaborators) (callsA callsB : List Call) : Prop where
  rights : ∀ (n : Nat) a b, (worldA.answers callsA)[n]? = some a →
    (worldB.answers callsB)[n]? = some b → RightsAlike a b
  fetches : ∀ (n : Nat) a b, (worldA.outcomes callsA)[n]? = some a →
    (worldB.outcomes callsB)[n]? = some b → FetchAlike a b

theorem CallsAlike.of_question_of_fetch {worldA worldB : Collaborators} {query : AccessQuery}
    {getA getB : FetchRequest} (hrights : RightsAlike (worldA.rights query) (worldB.rights query))
    (hfetch : FetchAlike (worldA.backend getA) (worldB.backend getB)) :
    CallsAlike worldA worldB [.rights query, .fetch getA] [.rights query, .fetch getB] where
  rights n a b ha hb := by
    cases n with
    | zero =>
      cases ha
      cases hb
      exact hrights
    | succ n => cases ha
  fetches n a b ha hb := by
    cases n with
    | zero =>
      cases ha
      cases hb
      exact hfetch
    | succ n => cases ha

/-! ## What one call shows -/

/-- A failed question is a fault that does not say how it failed. -/
theorem Gate.check_alike (gate : Gate) (identifier : String) {a b : Except RightsFailure AccessLists}
    (h : RightsAlike a b) :
    (∃ passage, gate.check identifier a = .ok passage ∧ gate.check identifier b = .ok passage) ∨
      ∃ f g, gate.check identifier a = .error f ∧ gate.check identifier b = .error g ∧
        f.fault = g.fault := by
  cases a with
  | error failure =>
    cases b with
    | error other => exact .inr ⟨_, _, rfl, rfl, rfl⟩
    | ok lists => cases h
  | ok lists =>
    cases b with
    | error failure => cases h
    | ok other =>
      have hsame : lists = other := Option.some.inj h
      subst hsame
      cases hcheck : gate.check identifier (.ok lists) with
      | ok passage => exact .inl ⟨passage, rfl, rfl⟩
      | error failure => exact .inr ⟨failure, failure, rfl, rfl, rfl⟩

theorem exists_fault_of_relayStatus {status : Nat} (h : ¬ (200 ≤ status ∧ status < 300))
    (identifier : String) : ∃ fault, relayStatus status identifier = .error fault := by
  have hnot : ¬ ((200 ≤ (status : Int) && (status : Int) < 300) = true) := by
    rw [Bool.and_eq_true, decide_eq_true_eq, decide_eq_true_eq]
    omega
  unfold relayStatus
  rw [if_neg hnot]
  split
  · exact ⟨_, rfl⟩
  · split
    · exact ⟨_, rfl⟩
    · exact ⟨_, rfl⟩

theorem FetchedImage.ofOutcome_alike {a b : FetchOutcome} (h : FetchAlike a b) (identifier : String) :
    ofOutcome a identifier = ofOutcome b identifier := by
  cases h with
  | same => rfl
  | refused hstatus hrefused =>
    obtain ⟨fault, hfault⟩ := exists_fault_of_relayStatus hrefused identifier
    simp only [ofOutcome, ← hstatus, hfault]

/-! ## Places -/

/-- The settings name the same kinds of servers and the same limits. -/
structure DeliverySettings.SameButPlaces (a b : DeliverySettings) : Prop where
  limits : a.limits = b.limits
  iip : a.backends.iip.isSome = b.backends.iip.isSome
  iiif : a.backends.iiif.isSome = b.backends.iiif.isSome
  deepZoom : a.backends.deepZoom.isSome = b.backends.deepZoom.isSome

theorem serverFor_alike {α : Type} {a b : Option α} (h : a.isSome = b.isSome) (f : α → String)
    (protocol : Protocol) :
    (∃ missing, f <$> serverFor protocol a = .error missing ∧
        f <$> serverFor protocol b = .error missing) ∨
      ∃ p q, f <$> serverFor protocol a = .ok p ∧ f <$> serverFor protocol b = .ok q := by
  cases a with
  | none =>
    cases b with
    | none => exact .inl ⟨_, rfl, rfl⟩
    | some server => cases h
  | some server =>
    cases b with
    | none => cases h
    | some other => exact .inr ⟨_, _, rfl, rfl⟩

theorem Request.address_alike {a b : DeliverySettings} (h : a.SameButPlaces b) (request : Request) :
    (∃ missing, request.address a.backends = .error missing ∧
        request.address b.backends = .error missing) ∨
      ∃ p q, request.address a.backends = .ok p ∧ request.address b.backends = .ok q := by
  cases request with
  | iip r => exact serverFor_alike h.iip r.address .iip
  | iiifImage r => exact serverFor_alike h.iiif r.address .iiif
  | iiifInfo r => exact serverFor_alike h.iiif r.address .iiif
  | deepZoomDescriptor r => exact serverFor_alike h.deepZoom r.address .deepZoom
  | deepZoomTile r => exact serverFor_alike h.deepZoom r.address .deepZoom

/-! ## Deliveries -/

namespace Delivery
variable {gate : Gate} {worldA worldB : Collaborators} {limits : ThumbnailLimits} {request : Request}
variable {getA getB : FetchRequest}

theorem fetch_alike (h : FetchAlike (worldA.backend getA) (worldB.backend getB))
    (callsA callsB : List Call) :
    (fetch worldA request getA callsA).result = (fetch worldB request getB callsB).result := by
  show (FetchedImage.ofOutcome _ _).map _ = (FetchedImage.ofOutcome _ _).map _
  rw [FetchedImage.ofOutcome_alike h]

/-- A delivery from the answer of the gate on. -/
def decided (world : Collaborators) (request : Request) (get : FetchRequest) (query : AccessQuery) :
    Except VerdictFailure Passage → DeliveryRun
  | .error failure => ⟨.error failure.fault, [.rights query]⟩
  | .ok (.placeholder status image) => ⟨.ok (.placeholder status image), [.rights query]⟩
  | .ok .proceed => fetch world request get [.rights query]

theorem fetchGated_eq_decided (gate : Gate) (world : Collaborators) (limits : ThumbnailLimits)
    (request : Request) (get : FetchRequest) :
    let query := Gate.query request.identifier (request.presentation limits)
    fetchGated gate world limits request get
      = decided world request get query (gate.check request.identifier (world.rights query)) := by
  intro query
  have hquery : Gate.query request.identifier (request.presentation limits) = query := rfl
  rw [fetchGated, hquery]
  cases gate.check request.identifier (world.rights query) with
  | error failure => rfl
  | ok passage => cases passage <;> rfl

theorem exists_calls_decided (world : Collaborators) (request : Request) (get : FetchRequest)
    (query : AccessQuery) (passage : Except VerdictFailure Passage) :
    ∃ rest, (decided world request get query passage).calls = .rights query :: rest := by
  cases passage with
  | error failure => exact ⟨_, rfl⟩
  | ok passage => cases passage <;> exact ⟨_, rfl⟩

theorem fetchGated_alike (h : CallsAlike worldA worldB
    (fetchGated gate worldA limits request getA).calls
    (fetchGated gate worldB limits request getB).calls) :
    (fetchGated gate worldA limits request getA).result
      = (fetchGated gate worldB limits request getB).result := by
  let query := Gate.query request.identifier (request.presentation limits)
  rw [fetchGated_eq_decided, fetchGated_eq_decided] at h ⊢
  obtain ⟨restA, hrestA⟩ := exists_calls_decided worldA request getA query
    (gate.check request.identifier (worldA.rights query))
  obtain ⟨restB, hrestB⟩ := exists_calls_decided worldB request getB query
    (gate.check request.identifier (worldB.rights query))
  have hrights : RightsAlike (worldA.rights query) (worldB.rights query) :=
    h.rights 0 _ _ (by rw [hrestA]; rfl) (by rw [hrestB]; rfl)
  -- Either both gates do the same, or both end in faults that read alike.
  rcases gate.check_alike request.identifier hrights with
    ⟨passage, hA, hB⟩ | ⟨f, g, hA, hB, hfault⟩
  · rw [hA, hB] at h ⊢
    cases passage with
    | placeholder status image => rfl
    | proceed => exact fetch_alike (h.fetches 0 _ _ rfl rfl) _ _
  · rw [hA, hB]
    exact congrArg Except.error hfault

variable {a b : DeliverySettings} {accept : Option String}

theorem run_alike (hplaces : a.SameButPlaces b) (h : CallsAlike worldA worldB
    (run a gate worldA request accept).calls (run b gate worldB request accept).calls) :
    (run a gate worldA request accept).result = (run b gate worldB request accept).result := by
  unfold run at h ⊢
  cases hcheck : request.check with
  | error violation => rfl
  | ok u =>
    simp only [hcheck] at h ⊢
    rcases request.address_alike hplaces with ⟨missing, hA, hB⟩ | ⟨p, q, hA, hB⟩
    · simp only [hA, hB]
    · simp only [hA, hB] at h ⊢
      by_cases himage : request.isImage = true
      · simp only [himage, if_true, hplaces.limits] at h ⊢
        exact fetchGated_alike h
      · simp only [himage] at h ⊢
        exact fetch_alike (h.fetches 0 _ _ rfl rfl) _ _

end Delivery

/-! ## Responses -/

namespace Http.Server
variable {a b : Server} {request : Request}

/-- The servers differ in nothing but places. -/
structure SameButPlaces (a b : Server) : Prop where
  cors : a.cors = b.cors
  gate : a.gate = b.gate
  settings : a.settings.SameButPlaces b.settings

theorem deliver_alike (hplaces : a.SameButPlaces b) {raw : RawRequest} {accept : Option String}
    (h : CallsAlike a.world b.world (a.deliver raw accept).calls (b.deliver raw accept).calls) :
    (a.deliver raw accept).response = (b.deliver raw accept).response := by
  unfold deliver at h ⊢
  cases hread : raw.read with
  | error violation => rfl
  | ok request =>
    simp only [hread, hplaces.gate] at h ⊢
    rw [Delivery.run_alike hplaces.settings h]

theorem get_alike (hplaces : a.SameButPlaces b) {route : Route}
    (h : CallsAlike a.world b.world (a.get route request).calls (b.get route request).calls) :
    (a.get route request).response = (b.get route request).response := by
  unfold get at h ⊢
  cases hraw : route.raw? request.target.query with
  | error c => rfl
  | ok raw =>
    cases raw with
    | none => rfl
    | some raw =>
      simp only [hraw] at h ⊢
      exact deliver_alike hplaces h

theorem route_alike (hplaces : a.SameButPlaces b)
    (h : CallsAlike a.world b.world (a.route request).calls (b.route request).calls) :
    (a.route request).response = (b.route request).response := by
  unfold route at h ⊢
  cases hroute : Route.ofPath? request.target.path with
  | none => rfl
  | some route =>
    cases hmethod : request.method with
    | get =>
      simp only [hroute, hmethod] at h ⊢
      rw [get_alike hplaces h]
    | head =>
      simp only [hroute, hmethod] at h ⊢
      rw [get_alike hplaces h]
    | options => rfl
    | other name => rfl

theorem calls_route_of_options (server : Server) (hmethod : request.method = .options) :
    (server.route request).calls = [] := by
  unfold route
  rw [hmethod]
  cases Route.ofPath? request.target.path with
  | none => rfl
  | some route => rfl

theorem respond_alike (hplaces : a.SameButPlaces b)
    (h : CallsAlike a.world b.world (a.respond request).calls (b.respond request).calls) :
    (a.respond request).response = (b.respond request).response := by
  have hroute : CallsAlike a.world b.world (a.route request).calls (b.route request).calls := by
    cases hmethod : request.method with
    | options =>
      rw [calls_route_of_options a hmethod, calls_route_of_options b hmethod]
      exact ⟨nofun, nofun⟩
    | get | head | other =>
      unfold respond at h
      simp only [hmethod] at h
      exact h
  unfold respond
  rw [hplaces.cors]
  cases request.method with
  | options => simp only [route_alike hplaces hroute]
  | get | head | other => simp only [route_alike hplaces hroute]

end Http.Server

/-! ## Deployments -/

namespace Startup.Assembly

/-- Two deployments with the same policy, placeholders and limits whose settings name the same kinds of
image servers. Base addresses, ways of addressing and sources of rights may be any. -/
structure SameButPlaces (a b : Assembly) : Prop where
  cors : a.cors = b.cors
  placeholders : a.gate.placeholders = b.gate.placeholders
  limits : a.running.handle.current.thumbnail = b.running.handle.current.thumbnail
  iip : a.running.handle.current.backends.iip.isSome = b.running.handle.current.backends.iip.isSome
  iiif : a.running.handle.current.backends.iiif.isSome
    = b.running.handle.current.backends.iiif.isSome
  deepZoom : a.running.handle.current.backends.deepZoom.isSome
    = b.running.handle.current.backends.deepZoom.isSome

theorem SameButPlaces.server {a b : Assembly} (h : a.SameButPlaces b) (networkA networkB : Network) :
    (a.server networkA).SameButPlaces (b.server networkB) where
  cors := h.cors
  gate := congrArg Gate.mk h.placeholders
  settings := ⟨h.limits, h.iip, h.iiif, h.deepZoom⟩

/-- Neither places nor the inside of failed calls reach a caller. -/
theorem response_eq_of_sameButPlaces {a b : Assembly} (hplaces : a.SameButPlaces b)
    {networkA networkB : Network} {request : Http.Request}
    (hcalls : CallsAlike (networkA.collaborators a.rights) (networkB.collaborators b.rights)
      (a.respond networkA request).calls (b.respond networkB request).calls) :
    (a.respond networkA request).response = (b.respond networkB request).response :=
  Http.Server.respond_alike (hplaces.server networkA networkB) hcalls

/-- Image servers that write the address they were asked at into the page that there is no such tile. -/
theorem response_eq_of_telling_page :
    let settings (dz : Settings.DeepZoomBases) : Settings := { servers := { deepZoom := dz } }
    let deployed (dz : Settings.DeepZoomBases) (rights : String) : Assembly := {
      line := {}, running := { handle := { current := settings dz }, file := none }, gate := {}
      rights := .ofBase rights, cors := .anyOrigin }
    let a := deployed { path := some "http://a.test/dz/" } "http://rights.a.test"
    let b := deployed { param := some "https://b.test:8443/iip" } "http://b.test/rights"
    let network : Network := {
      rights := fun _ _ => .replied 200 (some (Text.Utf8.bytes "[[\"img\"]]"))
      backend := fun get => .ok { status := 404, body := ⟨[Text.Utf8.bytes get.address], false⟩ } }
    let request : Http.Request := ⟨.get, ⟨"/deepzoom/img_files/3/0_1.jpg", none⟩, []⟩
    let atA : FetchRequest := ⟨"http://a.test/dz/img_files/3/0_1.jpg", none⟩
    let atB : FetchRequest := ⟨"https://b.test:8443/iip?DeepZoom=img_files/3/0_1.jpg", none⟩
    a.SameButPlaces b ∧
      (a.respond network request).calls = [.rights (.anonymous "img" "Fullsize"), .fetch atA] ∧
      (b.respond network request).calls = [.rights (.anonymous "img" "Fullsize"), .fetch atB] ∧
      CallsAlike (network.collaborators a.rights) (network.collaborators b.rights)
        (a.respond network request).calls (b.respond network request).calls ∧
      (a.respond network request).response = (b.respond network request).response := by
  intro settings deployed a b network request atA atB
  have hplaces : a.SameButPlaces b := by constructor <;> rfl
  have hcallsA : (a.respond network request).calls
      = [.rights (.anonymous "img" "Fullsize"), .fetch atA] := by decide +kernel
  have hcallsB : (b.respond network request).calls
      = [.rights (.anonymous "img" "Fullsize"), .fetch atB] := by decide +kernel
  have hcalls : CallsAlike (network.collaborators a.rights) (network.collaborators b.rights)
      (a.respond network request).calls (b.respond network request).calls := by
    rw [hcallsA, hcallsB]
    have hsent (source : RightsSource) (get : FetchRequest) (h : get.isBuildable = true) :
        (network.collaborators source).backend get = network.backend get := if_pos h
    have hanswers (p q : String) (query : AccessQuery) : RightsAlike
        ((network.collaborators (.service p)).rights query)
        ((network.collaborators (.service q)).rights query) := rfl
    apply CallsAlike.of_question_of_fetch
    · exact hanswers _ _ (.anonymous "img" "Fullsize")
    · rw [hsent a.rights atA (by decide +kernel), hsent b.rights atB (by decide +kernel)]
      exact .refused rfl (by decide)
  exact ⟨hplaces, hcallsA, hcallsB, hcalls, response_eq_of_sameButPlaces hplaces hcalls⟩

end Startup.Assembly

end ImageGate
