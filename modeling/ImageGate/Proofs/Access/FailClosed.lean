import ImageGate.Access.Gate

/-! The gate fails closed. Only a reply of success whose body holds the lists can decide anything, the
first list that names the identifier decides, and whatever else comes back over the network is an
internal fault: neither a way through nor a placeholder. -/
namespace ImageGate
set_option autoImplicit false

/-! ## Replies -/

/-- The reply is one of success and its body holds these lists. -/
def RightsReply.Decodes (reply : RightsReply) (lists : AccessLists) : Prop :=
  ∃ status body, reply = .replied status (some body) ∧ 200 ≤ status ∧ status < 300 ∧
    AccessLists.read? body = some lists

theorem RightsReply.lists_eq_ok_iff {reply : RightsReply} {lists : AccessLists} :
    reply.lists = .ok lists ↔ reply.Decodes lists := by
  constructor
  · intro h
    cases reply with
    | failed => cases h
    | replied status body =>
      simp only [RightsReply.lists] at h
      split at h
      · next hsuccess =>
        split at h
        · next decoded hread =>
          cases h
          obtain ⟨body, rfl, hbody⟩ := Option.bind_eq_some_iff.1 hread
          simp only [isSuccess, Bool.and_eq_true, decide_eq_true_eq] at hsuccess
          exact ⟨status, body, rfl, hsuccess.1, hsuccess.2, hbody⟩
        · cases h
      · cases h
  · rintro ⟨status, body, rfl, hlow, hhigh, hread⟩
    have hsuccess : isSuccess status = true := by
      simp only [isSuccess, Bool.and_eq_true, decide_eq_true_eq]
      exact ⟨hlow, hhigh⟩
    rw [RightsReply.lists, if_pos hsuccess, Option.bind_some, hread]

/-! ## Verdicts -/

namespace AccessLists
variable {lists : AccessLists} {identifier : String}

/-- The lists in which the identifier has to stand, and not to stand, for a verdict. -/
def Decides (lists : AccessLists) (identifier : String) : Verdict → Prop
  | .access => identifier ∈ lists.access
  | .noAccess => identifier ∉ lists.access ∧ identifier ∈ lists.noAccess
  | .nonExisting =>
    identifier ∉ lists.access ∧ identifier ∉ lists.noAccess ∧ identifier ∈ lists.nonExisting

theorem verdict?_eq_some_iff {v : Verdict} :
    lists.verdict? identifier = some v ↔ lists.Decides identifier v := by
  by_cases haccess : identifier ∈ lists.access
  · cases v <;> simp [verdict?, Decides, haccess]
  · by_cases hno : identifier ∈ lists.noAccess
    · cases v <;> simp [verdict?, Decides, haccess, hno]
    · by_cases hmissing : identifier ∈ lists.nonExisting
      · cases v <;> simp [verdict?, Decides, haccess, hno, hmissing]
      · cases v <;> simp [verdict?, Decides, haccess, hno, hmissing]

theorem exists_decides_iff :
    (∃ v, lists.Decides identifier v) ↔
      identifier ∈ lists.access ∨ identifier ∈ lists.noAccess ∨ identifier ∈ lists.nonExisting := by
  constructor
  · rintro ⟨v, h⟩
    cases v with
    | access => exact .inl h
    | noAccess => exact .inr (.inl h.2)
    | nonExisting => exact .inr (.inr h.2.2)
  · intro h
    by_cases haccess : identifier ∈ lists.access
    · exact ⟨.access, haccess⟩
    · by_cases hno : identifier ∈ lists.noAccess
      · exact ⟨.noAccess, haccess, hno⟩
      · exact ⟨.nonExisting, haccess, hno, (h.resolve_left haccess).resolve_left hno⟩

end AccessLists

/-! ## The gate over the network -/

namespace Gate
variable {gate : Gate} {identifier : String} {reply : RightsReply}

theorem verdict_eq_ok_iff {v : Verdict} :
    verdict identifier reply.lists = .ok v ↔
      ∃ lists, reply.Decodes lists ∧ lists.Decides identifier v := by
  simp only [← RightsReply.lists_eq_ok_iff, ← AccessLists.verdict?_eq_some_iff]
  cases reply.lists with
  | error failure => simp [verdict]
  | ok lists => cases hv : lists.verdict? identifier <;> simp [verdict, hv]

theorem passage_injective {v w : Verdict} (h : gate.passage v = gate.passage w) : v = w := by
  cases v <;> cases w <;> simp [passage] at h ⊢

/-- Each verdict has a passage of its own, so the passage tells which lists decided. -/
theorem check_eq_passage_iff {v : Verdict} :
    gate.check identifier reply.lists = .ok (gate.passage v) ↔
      ∃ lists, reply.Decodes lists ∧ lists.Decides identifier v := by
  rw [← verdict_eq_ok_iff, check]
  cases verdict identifier reply.lists with
  | error failure => simp [Functor.map, Except.map]
  | ok w =>
    constructor
    · intro h
      rw [passage_injective (Except.ok.inj h)]
    · intro h
      rw [h]
      rfl

theorem check_eq_error_iff :
    (∃ failure, gate.check identifier reply.lists = .error failure) ↔
      ¬ ∃ lists, reply.Decodes lists ∧ ∃ v, lists.Decides identifier v := by
  have hverdict : (∃ lists, reply.Decodes lists ∧ ∃ v, lists.Decides identifier v) ↔
      ∃ v, verdict identifier reply.lists = .ok v := by
    simp only [verdict_eq_ok_iff]
    constructor
    · rintro ⟨lists, hdecodes, v, hv⟩
      exact ⟨v, lists, hdecodes, hv⟩
    · rintro ⟨v, lists, hdecodes, hv⟩
      exact ⟨lists, hdecodes, v, hv⟩
  rw [hverdict, check]
  cases verdict identifier reply.lists with
  | error failure => simp [Functor.map, Except.map]
  | ok v => simp [Functor.map, Except.map]

/-- What the gate makes of a reply about one image. -/
structure FailsClosed (gate : Gate) (identifier : String) (reply : RightsReply)
    (outcome : Except VerdictFailure Passage) : Prop where
  proceeds : outcome = .ok .proceed ↔
    ∃ lists, reply.Decodes lists ∧ identifier ∈ lists.access
  forbidden : outcome = .ok (.placeholder 403 gate.placeholders.noAccess) ↔
    ∃ lists, reply.Decodes lists ∧ identifier ∉ lists.access ∧ identifier ∈ lists.noAccess
  missing : outcome = .ok (.placeholder 404 gate.placeholders.nonExisting) ↔
    ∃ lists, reply.Decodes lists ∧ identifier ∉ lists.access ∧ identifier ∉ lists.noAccess ∧
      identifier ∈ lists.nonExisting
  otherwise : (∃ failure, outcome = .error failure) ↔
    ¬ ∃ lists, reply.Decodes lists ∧
      (identifier ∈ lists.access ∨ identifier ∈ lists.noAccess ∨ identifier ∈ lists.nonExisting)
  internal : ∀ failure, outcome = .error failure →
    (∃ reason, failure.fault = .internal reason) ∧ failure.fault.status = 500

end Gate

/-- However the call to the service ends, the gate fails closed. -/
theorem Gate.failsClosed_check (gate : Gate) (base identifier : String)
    (presentation : Presentation) (call : String → AccessQuery → RightsReply) :
    gate.FailsClosed identifier
      (call (withoutEndSlashes base ++ "/checkAccessForIds") (query identifier presentation))
      (gate.check identifier
        ((RightsSource.ofBase base).answer call (query identifier presentation))) := by
  have hanswer : (RightsSource.ofBase base).answer call (query identifier presentation)
      = (call (withoutEndSlashes base ++ "/checkAccessForIds")
          (query identifier presentation)).lists := rfl
  rw [hanswer]
  exact {
    proceeds := check_eq_passage_iff (v := .access)
    forbidden := check_eq_passage_iff (v := .noAccess)
    missing := check_eq_passage_iff (v := .nonExisting)
    otherwise := by
      simp only [check_eq_error_iff, AccessLists.exists_decides_iff]
    internal := fun failure _ => ⟨⟨failure.message, rfl⟩, rfl⟩ }

end ImageGate
