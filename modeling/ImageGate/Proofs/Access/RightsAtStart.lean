import ImageGate.Proofs.Access.FailClosed
import ImageGate.Proofs.Access.Mediation
import ImageGate.Proofs.Request.Accepted

/-! Who decides about access is settled at the start. Settings that were read name a rights service
wherever they ask for the check, so a server runs with the open gate only if its settings switch the
check off; and nothing that happens to a server at work, neither a change of its settings nor a
request, changes whom its gate asks. -/
namespace ImageGate
set_option autoImplicit false

/-! ## Settings that were read -/

namespace Settings

theorem check_of_ofText {text : String} {settings : Settings} (h : ofText text = .ok settings) :
    settings.check = .ok () := by
  unfold ofText at h
  split at h
  · cases h
  · split at h
    · next hcheck =>
      cases h
      exact hcheck
    · cases h

theorem check_of_load {path : String} {content : FileContent} {settings : Settings}
    (h : load path content = .ok settings) : settings.check = .ok () := by
  unfold load at h
  split at h
  · cases h
  · split at h
    · cases h
    · exact check_of_ofText h

theorem Handle.ofFile_eq_ok_iff {path : String} {content : FileContent} {handle : Handle} :
    Handle.ofFile path content = .ok handle ↔
      ∃ settings, load path content = .ok settings ∧ handle = ⟨settings, some path⟩ := by
  unfold Handle.ofFile
  cases load path content <;> simp [Except.map, eq_comm]

theorem Rights.exists_url {rights : Rights} (h : rights.check = .ok ())
    (henabled : rights.isEnabled = true) : ∃ url, rights.url = some url := by
  rw [Rights.check, if_pos henabled, check_bind_eq_ok_iff] at h
  refine Option.isSome_iff_exists.1 ?_
  cases hurl : rights.url.isSome with
  | true => rfl
  | false =>
    rw [hurl] at h
    cases h.1

/-- A check of access that is asked for has an address. -/
theorem Handle.exists_url {path : String} {content : FileContent} {handle : Handle}
    (h : Handle.ofFile path content = .ok handle)
    (henabled : handle.current.rights.isEnabled = true) :
    ∃ url, handle.current.rights.url = some url := by
  obtain ⟨settings, hload, rfl⟩ := Handle.ofFile_eq_ok_iff.1 h
  have hcheck := check_of_load hload
  rw [check, check_bind_eq_ok_iff, check_bind_eq_ok_iff, check_bind_eq_ok_iff] at hcheck
  exact Rights.exists_url hcheck.2.2.1 henabled

end Settings

namespace Startup

/-! ## The start -/

theorem rightsSource_eq_everyone_iff {rights : Settings.Rights} :
    rightsSource rights = .everyone ↔ rights.isEnabled = false ∨ rights.url = none := by
  unfold rightsSource
  cases rights.isEnabled <;> cases rights.url <;> simp [RightsSource.ofBase]

theorem rightsSource_of_enabled {rights : Settings.Rights} {url : String}
    (henabled : rights.isEnabled = true) (hurl : rights.url = some url) :
    rightsSource rights = .ofBase url := by
  rw [rightsSource, henabled, hurl]

/-- What is put together from these settings and images. -/
def Assembly.ofStart (around : Surroundings) (line : CommandLine) (handle : Settings.Handle)
    (placeholders : Placeholders) : Assembly :=
  let running : Settings.Running := { handle, file := contentOf around.files line.settingsPath }
  { line
    running := running.startAutoupdate.2
    gate := ⟨placeholders⟩
    rights := rightsSource handle.current.rights
    cors := corsPolicy line }

theorem serving_start_eq_some_iff {around : Surroundings} {line : CommandLine}
    {assembly : Assembly} :
    (start around line).serving = some assembly ↔
      line.check = .ok () ∧ ∃ handle placeholders,
        Settings.Handle.ofFile line.settingsPath (contentOf around.files line.settingsPath)
          = .ok handle ∧
        Placeholders.load around.files handle.current.images = .ok placeholders ∧
        around.clientFailure handle.current.timeouts = none ∧
        around.bindFailure line.bindAddress = none ∧
        assembly = .ofStart around line handle placeholders := by
  unfold start
  cases hline : line.check with
  | error lack => simp [failure]
  | ok u =>
    cases hhandle : Settings.Handle.ofFile line.settingsPath
        (contentOf around.files line.settingsPath) with
    | error fault => simp [failure]
    | ok handle =>
      simp only [assemble]
      cases hload : Placeholders.load around.files handle.current.images with
      | error fault => simp [failure, hload]
      | ok placeholders =>
        cases hclient : around.clientFailure handle.current.timeouts with
        | some reason => simp [failure, hclient]
        | none =>
          simp only [listen]
          cases hbind : around.bindFailure line.bindAddress with
          | some reason => simp [failure]
          | none => simp [hload, hclient, Assembly.ofStart, eq_comm]

/-! ## At work -/

/-- What can happen to a server at work. A request meets a network of its own. -/
inductive Event where
  | written (content : Settings.FileContent)
  | reloaded
  | replaced (settings : Settings)
  | autoupdateStarted
  | clockAdvanced (time : Nat)
  | requested (request : Request) (accept : Option String) (network : Network)

/-- A request, the network that it met and its delivery. -/
structure Served where
  request : Request
  network : Network
  run : DeliveryRun

namespace Assembly

def step (assembly : Assembly) (event : Event) : Assembly :=
  match event with
  | .written content => { assembly with running := assembly.running.setFile content }
  | .reloaded => { assembly with running := assembly.running.reload.2 }
  | .replaced settings => { assembly with running := assembly.running.replace settings }
  | .autoupdateStarted => { assembly with running := assembly.running.startAutoupdate.2 }
  | .clockAdvanced time => { assembly with running := assembly.running.advance time }
  | .requested _ _ _ => assembly

/-- The delivery of a request under the settings of this moment. -/
def deliver (assembly : Assembly) (request : Request) (accept : Option String)
    (network : Network) : DeliveryRun :=
  let server := assembly.server network
  Delivery.run server.settings server.gate server.world request accept

def served? (assembly : Assembly) (event : Event) : Option Served :=
  match event with
  | .requested request accept network =>
    some ⟨request, network, assembly.deliver request accept network⟩
  | _ => none

/-- The requests that are served while these events happen one after the other. -/
def served (assembly : Assembly) (events : List Event) : List Served :=
  match events with
  | [] => []
  | event :: rest => (assembly.served? event).toList ++ (assembly.step event).served rest

end Assembly

/-- The service at this address was asked about the image alone and listed it with access. -/
def Served.Granted (served : Served) (url : String) : Prop :=
  ∃ query lists, .rights query ∈ served.run.calls ∧
    query.identifiers = [served.request.identifier] ∧
    (served.network.rights (withoutEndSlashes url ++ "/checkAccessForIds") query).Decodes lists ∧
    served.request.identifier ∈ lists.access

/-- No image is fetched without the grant. -/
def Served.Guarded (served : Served) (url : String) : Prop :=
  served.request.ShowsPixels → ∀ get, .fetch get ∈ served.run.calls → served.Granted url

namespace Assembly
variable {assembly : Assembly} {url : String}

theorem rights_step (assembly : Assembly) (event : Event) :
    (assembly.step event).rights = assembly.rights := by
  cases event <;> rfl

theorem guarded_of_served? {event : Event} {served : Served} (h : assembly.rights = .ofBase url)
    (hserved : assembly.served? event = some served) : served.Guarded url := by
  cases event with
  | written | reloaded | replaced | autoupdateStarted | clockAdvanced => cases hserved
  | requested request accept network =>
    cases hserved
    intro himage get hget
    have hcourse := Delivery.course_run assembly.running.handle.current assembly.gate
      (network.collaborators assembly.rights) request accept
    obtain ⟨hverdict, hasked⟩ := hcourse.access_of_fetch himage hget
    have hanswer : (network.collaborators assembly.rights).rights
        (request.question assembly.running.handle.current)
        = (network.rights (withoutEndSlashes url ++ "/checkAccessForIds")
            (request.question assembly.running.handle.current)).lists := by
      rw [h]
      rfl
    rw [hanswer, Gate.verdict_eq_ok_iff] at hverdict
    obtain ⟨lists, hdecodes, hlisted⟩ := hverdict
    exact ⟨_, lists, hasked, rfl, hdecodes, hlisted⟩

/-- The source of rights is carried from event to event. -/
theorem guarded_of_mem_served {events : List Event} (h : assembly.rights = .ofBase url) :
    ∀ served ∈ assembly.served events, served.Guarded url := by
  induction events generalizing assembly with
  | nil => exact fun _ hserved => absurd hserved List.not_mem_nil
  | cons event rest ih =>
    intro served hserved
    rw [Assembly.served, List.mem_append, Option.mem_toList] at hserved
    rcases hserved with hserved | hserved
    · exact guarded_of_served? h hserved
    · have hstep : (assembly.step event).rights = .ofBase url := by rw [rights_step, h]
      exact ih hstep served hserved

end Assembly

/-! ## From the start onwards -/

/-- How the setting of a file at the start decides about access for good. -/
structure SettledAtStart (rights : Settings.Rights) (assembly : Assembly) : Prop where
  service : rights.isEnabled = true ↔
    ∃ url, rights.url = some url ∧ assembly.rights = .ofBase url
  everyone : rights.isEnabled = false ↔ assembly.rights = .everyone
  guarded : ∀ events, ∀ served ∈ assembly.served events, served.request.ShowsPixels →
    ∀ get, .fetch get ∈ served.run.calls →
      rights.isEnabled = false ∨ ∃ url, rights.url = some url ∧ served.Granted url

end Startup

/-- A server starts from every settings file that can be read, if its images, its client and its address
are to be had, and whom its gate asks is settled by that file for every later event. -/
theorem Startup.settledAtStart {around : Surroundings} {line : CommandLine}
    {handle : Settings.Handle}
    (hfile : Settings.Handle.ofFile line.settingsPath (contentOf around.files line.settingsPath)
      = .ok handle) :
    ((∃ assembly, (start around line).serving = some assembly) ↔
      line.check = .ok () ∧
        (∃ placeholders, Placeholders.load around.files handle.current.images = .ok placeholders) ∧
        around.clientFailure handle.current.timeouts = none ∧
        around.bindFailure line.bindAddress = none) ∧
    ∀ assembly, (start around line).serving = some assembly →
      SettledAtStart handle.current.rights assembly := by
  constructor
  · constructor
    · rintro ⟨assembly, hserving⟩
      obtain ⟨hline, other, placeholders, hother, hload, hclient, hbind, -⟩ :=
        serving_start_eq_some_iff.1 hserving
      rw [hfile, Except.ok.injEq] at hother
      subst hother
      exact ⟨hline, ⟨placeholders, hload⟩, hclient, hbind⟩
    · rintro ⟨hline, ⟨placeholders, hload⟩, hclient, hbind⟩
      exact ⟨_, serving_start_eq_some_iff.2
        ⟨hline, handle, placeholders, hfile, hload, hclient, hbind, rfl⟩⟩
  · intro assembly hserving
    obtain ⟨-, other, placeholders, hother, -, -, -, rfl⟩ := serving_start_eq_some_iff.1 hserving
    rw [hfile, Except.ok.injEq] at hother
    subst hother
    cases henabled : handle.current.rights.isEnabled with
    | false =>
      have hsource : (Assembly.ofStart around line handle placeholders).rights = .everyone :=
        rightsSource_eq_everyone_iff.2 (.inl henabled)
      exact {
        service := by
          rw [hsource, henabled]
          simp [RightsSource.ofBase]
        everyone := iff_of_true henabled hsource
        guarded := fun _ _ _ _ _ _ => .inl henabled }
    | true =>
      obtain ⟨url, hurl⟩ := Settings.Handle.exists_url hfile henabled
      have hsource : (Assembly.ofStart around line handle placeholders).rights = .ofBase url :=
        rightsSource_of_enabled henabled hurl
      exact {
        service := iff_of_true henabled ⟨url, hurl, hsource⟩
        everyone := by
          rw [hsource, henabled]
          simp [RightsSource.ofBase]
        guarded := fun events served hserved himage get hget =>
          .inr ⟨url, hurl, Assembly.guarded_of_mem_served hsource served hserved himage get hget⟩ }

/-- Settings that switch the check off later do not open the gate: the image is fetched because the
service of the start lists it with access. -/
theorem Startup.settledAtStart_check_switched_off :
    let around : Surroundings := {
      environment := fun _ => none
      files := fun _ => .ok (Text.Utf8.bytes "[rights]\nurl = \"http://r.test\"")
      bindFailure := fun _ => none }
    let opened : Settings := {
      servers := { iip := some "http://b.test" }, rights := { isEnabled := false } }
    let network : Network := {
      rights := fun _ _ => .replied 200 (some (Text.Utf8.bytes "[[\"a\"]]"))
      backend := fun _ => .error { stage := .connecting } }
    let events : List Event := [.replaced opened, .requested (.iip { image := "a" }) none network]
    ∃ assembly, (start around {}).serving = some assembly ∧
      SettledAtStart { url := some "http://r.test" } assembly ∧
      ∃ served ∈ assembly.served events, ∃ get, .fetch get ∈ served.run.calls ∧
        ∃ url, some "http://r.test" = some url ∧ served.Granted url := by
  intro around opened network events
  let handle : Settings.Handle := {
    current := { rights := { url := some "http://r.test" } }, path := some "config/ds-image.toml" }
  have hfile : Settings.Handle.ofFile "config/ds-image.toml"
      (contentOf around.files "config/ds-image.toml") = .ok handle := rfl
  let assembly := Assembly.ofStart around {} handle {}
  have hserving : (start around {}).serving = some assembly :=
    serving_start_eq_some_iff.2 ⟨rfl, handle, {}, hfile, rfl, rfl, rfl, rfl⟩
  have hsettled := (settledAtStart hfile).2 assembly hserving
  let later := assembly.step (.replaced opened)
  let served : Served :=
    ⟨.iip { image := "a" }, network, later.deliver (.iip { image := "a" }) none network⟩
  have hserved : served ∈ assembly.served events := List.mem_cons_self
  have hcalls : served.run.calls = [.rights (.anonymous "a" "Fullsize"),
      .fetch ⟨"http://b.test?FIF=a&CVT=jpeg", none⟩] := rfl
  have hget : .fetch ⟨"http://b.test?FIF=a&CVT=jpeg", none⟩ ∈ served.run.calls := by
    rw [hcalls]
    exact List.mem_cons_of_mem _ List.mem_cons_self
  have hgranted := (hsettled.guarded events served hserved (.iip _) _ hget).resolve_left Bool.noConfusion
  exact ⟨assembly, hserving, hsettled, served, hserved, _, hget, hgranted⟩

end ImageGate
