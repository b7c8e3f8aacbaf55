import ImageGate.Proofs.Request.Answers
import ImageGate.Serving

/-! Mediation. Whatever the rights service answers and the image server does, a delivery takes one of
six courses. No image is fetched on any of them without the one question about it that was answered
with access, under the limits of the same settings whose servers are asked. A fetch counts when it is
handed on to be sent. -/
namespace ImageGate
set_option autoImplicit false

/-! ## Where a request goes -/

/-- The question about a request under these settings. -/
def Request.question (request : Request) (settings : Settings) : AccessQuery :=
  Gate.query request.identifier (request.presentation settings.thumbnail)

/-- The request is in order and has this address under these settings. -/
def Request.GoesTo (request : Request) (settings : Settings) (address : String) : Prop :=
  request.check = .ok () ∧ request.address settings.backends = .ok address

namespace Request.GoesTo
variable {request : Request} {settings : Settings} {a b : String}

theorem unique (ha : request.GoesTo settings a) (hb : request.GoesTo settings b) : a = b :=
  Except.ok.inj (ha.2.symm.trans hb.2)

theorem check_ne (h : request.GoesTo settings a) {violation : Violation} :
    request.check ≠ .error violation := by
  rw [h.1]
  nofun

theorem address_ne (h : request.GoesTo settings a) {missing : MissingServer} :
    request.address settings.backends ≠ .error missing := by
  rw [h.2]
  nofun

end Request.GoesTo

namespace Delivery

/-! ## Courses -/

/-- The ways in which a delivery can go, from its first failure to its fetch. -/
inductive Course (settings : Settings) (gate : Gate) (world : Collaborators) (request : Request)
    (accept : Option String) : DeliveryRun → Prop where
  | refused {violation : Violation} (hcheck : request.check = .error violation) :
      Course settings gate world request accept ⟨.error (.ofViolation violation), []⟩
  | unplaced {missing : MissingServer} (hcheck : request.check = .ok ())
      (haddress : request.address settings.backends = .error missing) :
      Course settings gate world request accept ⟨.error (.ofMissingServer missing), []⟩
  | described {address : String} (hgoes : request.GoesTo settings address)
      (hinfo : request.Describes) :
      Course settings gate world request accept (fetch world request ⟨address, accept⟩ [])
  | undecided {address : String} {failure : VerdictFailure}
      (hgoes : request.GoesTo settings address) (himage : request.ShowsPixels)
      (hverdict : Gate.verdict request.identifier (world.rights (request.question settings))
        = .error failure) :
      Course settings gate world request accept
        ⟨.error failure.fault, [.rights (request.question settings)]⟩
  | replaced {address : String} {verdict : Verdict} {status : Nat} {image : Placeholder}
      (hgoes : request.GoesTo settings address) (himage : request.ShowsPixels)
      (hverdict : Gate.verdict request.identifier (world.rights (request.question settings))
        = .ok verdict)
      (hpassage : gate.passage verdict = .placeholder status image) :
      Course settings gate world request accept
        ⟨.ok (.placeholder status image), [.rights (request.question settings)]⟩
  | admitted {address : String} (hgoes : request.GoesTo settings address)
      (himage : request.ShowsPixels)
      (hverdict : Gate.verdict request.identifier (world.rights (request.question settings))
        = .ok .access) :
      Course settings gate world request accept
        (fetch world request ⟨address, accept⟩ [.rights (request.question settings)])

variable {settings : Settings} {gate : Gate} {world : Collaborators} {request : Request}
variable {accept : Option String} {run : DeliveryRun}

theorem course_fetchGated {address : String} (hgoes : request.GoesTo settings address)
    (himage : request.ShowsPixels) :
    Course settings gate world request accept
      (fetchGated gate world settings.thumbnail request ⟨address, accept⟩) := by
  have hquestion : request.question settings
      = Gate.query request.identifier (request.presentation settings.thumbnail) := rfl
  rw [fetchGated, ← hquestion, Gate.check]
  cases hverdict : Gate.verdict request.identifier (world.rights (request.question settings)) with
  | error failure => exact .undecided hgoes himage hverdict
  | ok verdict =>
    cases verdict with
    | access => exact .admitted hgoes himage hverdict
    | noAccess => exact .replaced hgoes himage hverdict rfl
    | nonExisting => exact .replaced hgoes himage hverdict rfl

theorem course_run (settings : Settings) (gate : Gate) (world : Collaborators) (request : Request)
    (accept : Option String) :
    Course settings gate world request accept
      (Delivery.run settings.delivery gate world request accept) := by
  unfold Delivery.run
  cases hcheck : request.check with
  | error violation => exact .refused hcheck
  | ok u =>
    have hbackends : settings.delivery.backends = settings.backends := rfl
    rw [hbackends]
    cases haddress : request.address settings.backends with
    | error missing => exact .unplaced hcheck haddress
    | ok address =>
      have hgoes : request.GoesTo settings address := ⟨hcheck, haddress⟩
      cases himage : request.isImage with
      | true => exact course_fetchGated hgoes (Request.isImage_eq_true_iff.1 himage)
      | false => exact .described hgoes (Request.isImage_eq_false_iff.1 himage)

/-! ## What every course has -/

@[simp] theorem calls_fetch (world : Collaborators) (request : Request) (get : FetchRequest)
    (calls : List Call) : (fetch world request get calls).calls = calls ++ [.fetch get] := rfl

namespace Course

theorem shape (h : Course settings gate world request accept run) :
    run.calls = [] ∨ (∃ query, run.calls = [.rights query]) ∨ (∃ get, run.calls = [.fetch get]) ∨
      ∃ query get, run.calls = [.rights query, .fetch get] := by
  cases h with
  | refused | unplaced => exact .inl rfl
  | undecided | replaced => exact .inr (.inl ⟨_, rfl⟩)
  | described => exact .inr (.inr (.inl ⟨_, rfl⟩))
  | admitted => exact .inr (.inr (.inr ⟨_, _, rfl⟩))

theorem calls_eq_nil_iff (h : Course settings gate world request accept run) :
    run.calls = [] ↔ (∃ violation, request.check = .error violation) ∨
      request.check = .ok () ∧ ∃ missing, request.address settings.backends = .error missing := by
  cases h with
  | refused hcheck => exact iff_of_true rfl (.inl ⟨_, hcheck⟩)
  | unplaced hcheck haddress => exact iff_of_true rfl (.inr ⟨hcheck, _, haddress⟩)
  | described hgoes | undecided hgoes | replaced hgoes | admitted hgoes =>
    refine iff_of_false (by simp) ?_
    rintro (⟨violation, hviolation⟩ | ⟨-, missing, hmissing⟩)
    · exact hgoes.check_ne hviolation
    · exact hgoes.address_ne hmissing

theorem result_of_violation (h : Course settings gate world request accept run)
    {violation : Violation} (hviolation : request.check = .error violation) :
    run.result = .error (.ofViolation violation) := by
  cases h with
  | refused hcheck =>
    rw [hviolation, Except.error.injEq] at hcheck
    rw [hcheck]
  | unplaced hcheck =>
    rw [hviolation] at hcheck
    cases hcheck
  | described hgoes | undecided hgoes | replaced hgoes | admitted hgoes =>
    exact absurd hviolation hgoes.check_ne

theorem result_of_missing (h : Course settings gate world request accept run)
    {missing : MissingServer} (hok : request.check = .ok ())
    (hmissing : request.address settings.backends = .error missing) :
    run.result = .error (.ofMissingServer missing) := by
  cases h with
  | refused hcheck =>
    rw [hok] at hcheck
    cases hcheck
  | unplaced _ haddress =>
    rw [hmissing, Except.error.injEq] at haddress
    rw [haddress]
  | described hgoes | undecided hgoes | replaced hgoes | admitted hgoes =>
    exact absurd hmissing hgoes.address_ne

theorem calls_of_access (h : Course settings gate world request accept run) {address : String}
    (hgoes : request.GoesTo settings address) (himage : request.ShowsPixels)
    (haccess : Gate.verdict request.identifier (world.rights (request.question settings))
      = .ok .access) :
    run.calls = [.rights (request.question settings), .fetch ⟨address, accept⟩] := by
  cases h with
  | refused hcheck => exact absurd hcheck hgoes.check_ne
  | unplaced _ haddress => exact absurd haddress hgoes.address_ne
  | described _ hinfo => exact absurd himage hinfo.not_showsPixels
  | undecided _ _ hverdict =>
    rw [haccess] at hverdict
    cases hverdict
  | replaced _ _ hverdict hpassage =>
    rw [haccess, Except.ok.injEq] at hverdict
    rw [← hverdict] at hpassage
    cases hpassage
  | admitted hother =>
    rw [hgoes.unique hother]
    rfl

theorem calls_of_not_access (h : Course settings gate world request accept run) {address : String}
    (hgoes : request.GoesTo settings address) (himage : request.ShowsPixels)
    (haccess : Gate.verdict request.identifier (world.rights (request.question settings))
      ≠ .ok .access) :
    run.calls = [.rights (request.question settings)] := by
  cases h with
  | refused hcheck => exact absurd hcheck hgoes.check_ne
  | unplaced _ haddress => exact absurd haddress hgoes.address_ne
  | described _ hinfo => exact absurd himage hinfo.not_showsPixels
  | undecided | replaced => rfl
  | admitted _ _ hverdict => exact absurd hverdict haccess

theorem calls_of_isInfo (h : Course settings gate world request accept run) {address : String}
    (hgoes : request.GoesTo settings address) (hinfo : request.Describes) :
    run.calls = [.fetch ⟨address, accept⟩] := by
  cases h with
  | refused hcheck => exact absurd hcheck hgoes.check_ne
  | unplaced _ haddress => exact absurd haddress hgoes.address_ne
  | described hother =>
    rw [hgoes.unique hother]
    rfl
  | undecided _ himage | replaced _ himage | admitted _ himage =>
    exact absurd himage hinfo.not_showsPixels

theorem goesTo_of_fetch (h : Course settings gate world request accept run) {get : FetchRequest}
    (hget : .fetch get ∈ run.calls) : request.GoesTo settings get.address := by
  cases h with
  | refused | unplaced => cases hget
  | undecided | replaced => cases List.mem_singleton.1 hget
  | described hgoes =>
    cases List.mem_singleton.1 hget
    exact hgoes
  | admitted hgoes =>
    simp only [calls_fetch, List.cons_append, List.nil_append, List.mem_cons, reduceCtorEq,
      Call.fetch.injEq, List.not_mem_nil, or_false, false_or] at hget
    rw [hget]
    exact hgoes

/-- An image is fetched only behind the question that was answered with access. -/
theorem access_of_fetch (h : Course settings gate world request accept run)
    (himage : request.ShowsPixels) {get : FetchRequest} (hget : .fetch get ∈ run.calls) :
    Gate.verdict request.identifier (world.rights (request.question settings)) = .ok .access ∧
      .rights (request.question settings) ∈ run.calls := by
  cases h with
  | refused | unplaced => cases hget
  | described _ hinfo => exact absurd himage hinfo.not_showsPixels
  | undecided | replaced => cases List.mem_singleton.1 hget
  | admitted _ _ hverdict => exact ⟨hverdict, List.mem_cons_self⟩

end Course

/-! ## Mediation -/

/-- What calls outside a run may make. -/
structure Mediated (settings : Settings) (world : Collaborators) (request : Request)
    (run : DeliveryRun) : Prop where
  shape : run.calls = [] ∨ (∃ query, run.calls = [.rights query]) ∨
    (∃ get, run.calls = [.fetch get]) ∨ ∃ query get, run.calls = [.rights query, .fetch get]
  silent : run.calls = [] ↔ (∃ violation, request.check = .error violation) ∨
    request.check = .ok () ∧ ∃ missing, request.address settings.backends = .error missing
  refused : ∀ violation, request.check = .error violation →
    run.result = .error (.argument ⟨violation.field, violation.message, violation.value?⟩)
  unplaced : ∀ missing, request.check = .ok () →
    request.address settings.backends = .error missing →
    run.result = .error (.internal missing.message)
  /-- Nobody in particular asks, and about nothing but the image. -/
  asked : request.ShowsPixels → ∀ address, request.GoesTo settings address →
    ∃ query, query = .anonymous request.identifier (request.presentation settings.thumbnail).name ∧
      query.identifiers = [request.identifier] ∧
      query.presentation = (request.presentation settings.thumbnail).name ∧
      query.attributes = [⟨"everybody", ["yes"]⟩] ∧
      (Gate.verdict request.identifier (world.rights query) = .ok .access →
        ∃ get, run.calls = [.rights query, .fetch get]) ∧
      (Gate.verdict request.identifier (world.rights query) ≠ .ok .access →
        run.calls = [.rights query])
  unasked : request.Describes → ∀ address, request.GoesTo settings address →
    ∃ get, run.calls = [.fetch get]
  placed : ∀ get, .fetch get ∈ run.calls → request.address settings.backends = .ok get.address

end Delivery

/-- Every delivery is mediated, however the gate, the rights service and the image server behave. -/
theorem Delivery.mediated_run (settings : Settings) (gate : Gate) (world : Collaborators)
    (request : Request) (accept : Option String) :
    Mediated settings world request (run settings.delivery gate world request accept) := by
  have h := course_run settings gate world request accept
  exact {
    shape := h.shape
    silent := h.calls_eq_nil_iff
    refused := fun violation hviolation => h.result_of_violation hviolation
    unplaced := fun missing hok hmissing => h.result_of_missing hok hmissing
    asked := fun himage address hgoes => ⟨request.question settings, rfl, rfl, rfl, rfl,
      fun haccess => ⟨_, h.calls_of_access hgoes himage haccess⟩,
      fun haccess => h.calls_of_not_access hgoes himage haccess⟩
    unasked := fun hinfo address hgoes => ⟨_, h.calls_of_isInfo hgoes hinfo⟩
    placed := fun get hget => (h.goesTo_of_fetch hget).2 }

end ImageGate
