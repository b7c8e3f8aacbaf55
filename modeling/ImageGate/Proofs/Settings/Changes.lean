import ImageGate.Proofs.Access.RightsAtStart
import ImageGate.Settings.Handle

/-! The settings of a handle, whatever happens to it and to its file. They obey the rules, they are
one whole configuration that was loaded or put in place of another, and only a reading that
succeeds with other settings changes them. -/
namespace ImageGate.Settings
set_option autoImplicit false

/-! ## Equality up to the spelling of paths -/

def SameFile (p q : Option String) : Prop := p.map PathShape.ofText = q.map PathShape.ofText

structure Equals (a b : Settings) : Prop where
  servers : a.servers = b.servers
  thumbnail : a.thumbnail = b.thumbnail
  noAccess : SameFile a.images.noAccess b.images.noAccess
  nonExisting : SameFile a.images.nonExisting b.images.nonExisting
  rights : a.rights = b.rights
  timeouts : a.timeouts = b.timeouts
  autoupdate : a.autoupdate = b.autoupdate

theorem sameOptionalPath_iff {p q : Option String} :
    sameOptionalPath p q = true ↔ SameFile p q := by
  cases p <;> cases q <;> simp [sameOptionalPath, samePath, SameFile]

theorem Images.same_iff {a b : Images} :
    a.same b = true ↔ SameFile a.noAccess b.noAccess ∧ SameFile a.nonExisting b.nonExisting := by
  rw [Images.same, Bool.and_eq_true, sameOptionalPath_iff, sameOptionalPath_iff]

theorem same_iff {a b : Settings} : a.same b = true ↔ a.Equals b := by
  simp only [same, Bool.and_eq_true, decide_eq_true_eq, Images.same_iff]
  constructor
  · rintro ⟨⟨⟨⟨⟨hservers, hthumbnail⟩, hnoAccess, hnonExisting⟩, hrights⟩, htimeouts⟩, hautoupdate⟩
    exact ⟨hservers, hthumbnail, hnoAccess, hnonExisting, hrights, htimeouts, hautoupdate⟩
  · intro h
    exact ⟨⟨⟨⟨⟨h.servers, h.thumbnail⟩, h.noAccess, h.nonExisting⟩, h.rights⟩, h.timeouts⟩,
      h.autoupdate⟩

theorem Equals.refl (a : Settings) : a.Equals a := ⟨rfl, rfl, rfl, rfl, rfl, rfl, rfl⟩

/-! ## Settings that obey the rules -/

def IsAddress (text : String) : Prop := ∃ url, Url.read text = .ok url

structure Obeys (settings : Settings) : Prop where
  iip : ∀ text ∈ settings.servers.iip, IsAddress text
  iiif : ∀ text ∈ settings.servers.iiif, IsAddress text
  deepZoomPath : ∀ text ∈ settings.servers.deepZoom.path, IsAddress text
  deepZoomParam : ∀ text ∈ settings.servers.deepZoom.param, IsAddress text
  oneAddressing : settings.servers.deepZoom.path = none ∨ settings.servers.deepZoom.param = none
  thumbnail : 0 < settings.thumbnail.maxWidth ∧ 0 < settings.thumbnail.maxHeight
  rights : settings.rights.isEnabled = true →
    ∃ text, settings.rights.url = some text ∧ IsAddress text
  interval : settings.autoupdate.isEnabled = true → 1000 ≤ settings.autoupdate.interval

theorem require_eq_ok_iff {condition : Bool} {breach : Breach} :
    require condition breach = .ok () ↔ condition = true := by
  cases condition <;> simp [require]

theorem checkAddress_eq_ok_iff {key : AddressKey} {text : Option String} :
    checkAddress key text = .ok () ↔ ∀ address ∈ text, IsAddress address := by
  cases text with
  | none => simp [checkAddress]
  | some text =>
    cases hread : Url.read text with
    | ok url => simp [checkAddress, IsAddress, hread]
    | error fault => simp [checkAddress, IsAddress, hread]

theorem Rights.check_eq_ok_iff {rights : Rights} :
    rights.check = .ok () ↔
      (rights.isEnabled = true → ∃ text, rights.url = some text ∧ IsAddress text) := by
  unfold Rights.check
  cases rights.isEnabled with
  | false => simp
  | true =>
    rw [if_pos rfl, check_bind_eq_ok_iff, require_eq_ok_iff, checkAddress_eq_ok_iff]
    cases rights.url <;> simp

theorem check_eq_ok_iff {settings : Settings} : settings.check = .ok () ↔ settings.Obeys := by
  simp only [check, Servers.check, check_bind_eq_ok_iff, checkAddress_eq_ok_iff, require_eq_ok_iff,
    Rights.check_eq_ok_iff, Autoupdate.check, Bool.or_eq_true, Bool.and_eq_true,
    Option.isNone_iff_eq_none, Bool.not_eq_true', decide_eq_true_eq, ← Nat.pos_iff_ne_zero]
  constructor
  · rintro ⟨⟨hiip, hiiif, hpath, hparam, hone⟩, hthumbnail, hrights, hinterval⟩
    exact ⟨hiip, hiiif, hpath, hparam, hone, hthumbnail, hrights, fun henabled =>
      hinterval.resolve_left (by simp [henabled])⟩
  · intro h
    refine ⟨⟨h.iip, h.iiif, h.deepZoomPath, h.deepZoomParam, h.oneAddressing⟩, h.thumbnail,
      h.rights, ?_⟩
    cases henabled : settings.autoupdate.isEnabled with
    | false => exact .inl rfl
    | true => exact .inr (h.interval henabled)

/-! ## One reading of the file -/

/-- The contents of the file at `path` that give no settings, each with its fault. -/
inductive Refused (path : String) : FileContent → Fault → Prop where
  | missing : Refused path none (.unreadable path .missing)
  | notText {bytes : List UInt8} (h : Text.Utf8.text? bytes = none) :
      Refused path (some bytes) (.unreadable path .notText)
  | malformed {bytes : List UInt8} {text : String} (htext : Text.Utf8.text? bytes = some text)
      (h : (Toml.read? text).bind ofEntries? = none) : Refused path (some bytes) .malformed
  | invalid {bytes : List UInt8} {text : String} {settings : Settings} {breach : Breach}
      (htext : Text.Utf8.text? bytes = some text)
      (hread : (Toml.read? text).bind ofEntries? = some settings)
      (h : settings.check = .error breach) : Refused path (some bytes) (.invalid breach)

theorem ofText_eq_error_iff {text : String} {fault : Fault} :
    ofText text = .error fault ↔
      (Toml.read? text).bind ofEntries? = none ∧ fault = .malformed ∨
        ∃ settings breach, (Toml.read? text).bind ofEntries? = some settings ∧
          settings.check = .error breach ∧ fault = .invalid breach := by
  unfold ofText
  cases hread : (Toml.read? text).bind ofEntries? with
  | none => simp [eq_comm]
  | some settings => cases hcheck : settings.check <;> simp [eq_comm, hcheck]

theorem load_eq_error_iff {path : String} {content : FileContent} {fault : Fault} :
    load path content = .error fault ↔ Refused path content fault := by
  constructor
  · intro h
    unfold load at h
    split at h
    · cases h
      exact .missing
    · split at h
      · next htext =>
        cases h
        exact .notText htext
      · next htext =>
        rcases ofText_eq_error_iff.1 h with ⟨hread, rfl⟩ | ⟨settings, breach, hread, hcheck, rfl⟩
        · exact .malformed htext hread
        · exact .invalid htext hread hcheck
  · intro h
    cases h with
    | missing => rfl
    | notText h => simp only [load, h]
    | malformed htext h =>
      simp only [load, htext]
      exact ofText_eq_error_iff.2 (.inl ⟨h, rfl⟩)
    | invalid htext hread h =>
      simp only [load, htext]
      exact ofText_eq_error_iff.2 (.inr ⟨_, _, hread, h, rfl⟩)

namespace Running
variable {running : Running} {path : String} {loaded : Settings}

theorem reload_of_refused {fault : Fault} (hpath : running.handle.path = some path)
    (h : load path running.file = .error fault) : running.reload = (.error fault, running) := by
  simp only [reload, Handle.reload, hpath, h]

theorem reload_of_equals (hpath : running.handle.path = some path)
    (h : load path running.file = .ok loaded) (hequals : running.handle.current.Equals loaded) :
    running.reload = (.ok false, running) := by
  simp only [reload, Handle.reload, hpath, h, same_iff.2 hequals, if_true]

theorem reload_of_differs (hpath : running.handle.path = some path)
    (h : load path running.file = .ok loaded) (hdiffers : ¬ running.handle.current.Equals loaded) :
    running.reload = (.ok true, running.replace loaded) := by
  simp only [reload, Handle.reload, hpath, h, mt same_iff.1 hdiffers, replace]
  rfl

theorem reload_without_file (hpath : running.handle.path = none) :
    running.reload = (.ok false, running) := by
  simp only [reload, Handle.reload, hpath]

/-- What a handle with a file answers to a reading of it, and what the reading leaves. -/
structure RereadsAs (running : Running) (path : String) : Prop where
  refused : ∀ fault, running.reload.1 = .error fault ↔ Refused path running.file fault
  same : running.reload.1 = .ok false ↔
    ∃ loaded, load path running.file = .ok loaded ∧ running.handle.current.Equals loaded
  changed : running.reload.1 = .ok true ↔
    ∃ loaded, load path running.file = .ok loaded ∧ ¬ running.handle.current.Equals loaded
  installed : running.reload.1 = .ok true →
    ∃ loaded, load path running.file = .ok loaded ∧ running.reload.2 = running.replace loaded
  kept : running.reload.1 ≠ .ok true → running.reload.2 = running
  tick : running.tick = running.reload.2

theorem rereadsAs (hpath : running.handle.path = some path) : running.RereadsAs path := by
  cases hload : load path running.file with
  | error fault =>
    have hreload := reload_of_refused hpath hload
    exact {
      refused := fun other => by rw [hreload, ← load_eq_error_iff, hload]; simp
      same := by rw [hreload, hload]; simp
      changed := by rw [hreload, hload]; simp
      installed := fun h => by rw [hreload] at h; cases h
      kept := fun _ => by rw [hreload]
      tick := rfl }
  | ok loaded =>
    by_cases hequals : running.handle.current.Equals loaded
    · have hreload := reload_of_equals hpath hload hequals
      exact {
        refused := fun other => by rw [hreload, ← load_eq_error_iff, hload]; simp
        same := by rw [hreload, hload]; simpa using hequals
        changed := by rw [hreload, hload]; simpa using hequals
        installed := fun h => by rw [hreload] at h; cases h
        kept := fun _ => by rw [hreload]
        tick := rfl }
    · have hreload := reload_of_differs hpath hload hequals
      exact {
        refused := fun other => by rw [hreload, ← load_eq_error_iff, hload]; simp
        same := by rw [hreload, hload]; simpa using hequals
        changed := by rw [hreload, hload]; simpa using hequals
        installed := fun _ => ⟨loaded, hload, by rw [hreload]⟩
        kept := fun h => absurd (by rw [hreload]) h
        tick := rfl }

end Running

/-! ## Events -/

/-- What can happen to a handle and its file. A reading of the file is asked for by a caller, or
made by a task as the clock moves on. -/
inductive Event where
  | written (bytes : List UInt8)
  | removed
  | reloaded
  | replaced (settings : Settings)
  | autoupdateStarted
  | clockAdvanced (time : Nat)

/-- Settings that are put in place of others come from a text. -/
def Event.IsRead : Event → Prop
  | .replaced settings => ∃ text, ofText text = .ok settings
  | _ => True

/-- Neither the file nor the settings are changed from outside. -/
def Event.IsQuiet : Event → Prop
  | .reloaded | .autoupdateStarted | .clockAdvanced _ => True
  | .written _ | .removed | .replaced _ => False

namespace Running

def step (running : Running) : Event → Running
  | .written bytes => running.setFile (some bytes)
  | .removed => running.setFile none
  | .reloaded => running.reload.2
  | .replaced settings => running.replace settings
  | .autoupdateStarted => running.startAutoupdate.2
  | .clockAdvanced time => running.advance time

def run (running : Running) (events : List Event) : Running := events.foldl step running

/-- The settings that the file holds. -/
def inFile? (running : Running) : Option Settings :=
  running.handle.path.bind fun path => (load path running.file).toOption

def isDue (running : Running) (time : Nat) : Bool :=
  running.tasks.any fun task => task.isDue running.now (running.now + time)

/-- The settings that an event loads, or puts in place of others. -/
def offer? (running : Running) : Event → Option Settings
  | .reloaded => running.inFile?
  | .clockAdvanced time => if running.isDue time then running.inFile? else none
  | .replaced settings => some settings
  | .written _ | .removed | .autoupdateStarted => none

def offered (running : Running) : List Event → List Settings
  | [] => []
  | event :: rest => (running.offer? event).toList ++ (running.step event).offered rest

/-! ## One step -/

variable {running : Running} {event : Event} {path : String}

/-- A reading keeps everything but the handle. -/
theorem reload_snd_eq (running : Running) :
    running.reload.2 = running ∨
      ∃ loaded, running.inFile? = some loaded ∧ running.reload.2 = running.replace loaded := by
  cases hpath : running.handle.path with
  | none =>
    rw [reload_without_file hpath]
    exact .inl rfl
  | some path =>
    have hrereads := rereadsAs hpath
    by_cases hanswer : running.reload.1 = .ok true
    · obtain ⟨loaded, hload, hreload⟩ := hrereads.installed hanswer
      exact .inr ⟨loaded, by simp [inFile?, hpath, hload, Except.toOption], hreload⟩
    · exact .inl (hrereads.kept hanswer)

theorem advance_of_isDue {time : Nat} (h : running.isDue time = true) :
    running.advance time = { running.reload.2 with now := running.now + time } := by
  rw [isDue] at h
  simp only [advance, h, if_true, tick]

theorem advance_of_not_isDue {time : Nat} (h : running.isDue time = false) :
    running.advance time = { running with now := running.now + time } := by
  rw [isDue] at h
  simp only [advance, h, Bool.false_eq_true, if_false]

theorem tasks_advance (running : Running) (time : Nat) :
    (running.advance time).tasks = running.tasks := by
  cases hdue : running.isDue time with
  | true =>
    rw [advance_of_isDue hdue]
    rfl
  | false => rw [advance_of_not_isDue hdue]

/-- The handle changes in no other way than by settings that the event offers. -/
theorem step_handle (running : Running) (event : Event) :
    (running.step event).handle = running.handle ∨
      ∃ settings, running.offer? event = some settings ∧
        (running.step event).handle = running.handle.replace settings := by
  cases event with
  | written bytes => exact .inl rfl
  | removed => exact .inl rfl
  | replaced settings => exact .inr ⟨settings, rfl, rfl⟩
  | autoupdateStarted =>
    left
    simp only [step, startAutoupdate]
    split <;> rfl
  | reloaded =>
    rcases reload_snd_eq running with hreload | ⟨loaded, hloaded, hreload⟩
    · exact .inl (congrArg handle hreload)
    · exact .inr ⟨loaded, hloaded, congrArg handle hreload⟩
  | clockAdvanced time =>
    cases hdue : running.isDue time with
    | false => exact .inl (by rw [step, advance_of_not_isDue hdue])
    | true =>
      rw [step, advance_of_isDue hdue, offer?, if_pos hdue]
      rcases reload_snd_eq running with hreload | ⟨loaded, hloaded, hreload⟩
      · exact .inl (by rw [hreload])
      · exact .inr ⟨loaded, hloaded, by rw [hreload]; rfl⟩

theorem mem_tasks_step {task : Task} (h : task ∈ (running.step event).tasks) :
    task ∈ running.tasks ∨ running.task? = some task := by
  cases event with
  | written | removed | replaced | reloaded => exact .inl h
  | clockAdvanced time => exact .inl (running.tasks_advance time ▸ h)
  | autoupdateStarted =>
    simp only [step, startAutoupdate] at h
    split at h
    · exact .inl h
    · next htask =>
      rw [List.mem_append, List.mem_singleton] at h
      rcases h with hmem | rfl
      · exact .inl hmem
      · exact .inr htask

theorem check_of_offer? {settings : Settings} (hread : event.IsRead)
    (h : running.offer? event = some settings) : settings.check = .ok () := by
  have hinFile : ∀ loaded, running.inFile? = some loaded → loaded.check = .ok () := by
    intro loaded hloaded
    obtain ⟨path, -, hload⟩ := Option.bind_eq_some_iff.1 hloaded
    cases hcontent : load path running.file with
    | error fault => rw [hcontent] at hload; cases hload
    | ok loaded =>
      rw [hcontent] at hload
      cases hload
      exact check_of_load hcontent
  cases event with
  | written | removed | autoupdateStarted => cases h
  | reloaded => exact hinFile _ h
  | clockAdvanced time => exact hinFile _ (Option.ite_none_right_eq_some.1 h).2
  | replaced replacement =>
    cases h
    obtain ⟨text, htext⟩ := hread
    exact check_of_ofText htext

theorem task?_eq_some_iff {task : Task} :
    running.task? = some task ↔
      running.handle.current.autoupdate.isEnabled = true ∧ running.handle.path.isSome = true ∧
        task = ⟨running.now, running.handle.current.autoupdate.interval⟩ := by
  simp only [task?, Option.ite_none_right_eq_some, Option.some.injEq, Bool.and_eq_true, and_assoc,
    eq_comm (a := task)]

/-! ## Every run -/

/-- What holds of a handle that began with the file at `path` and was offered these settings. -/
structure Keeps (path : String) (offers : List Settings) (running : Running) : Prop where
  origin : running.handle.path = some path
  obeys : running.handle.current.Obeys
  whole : running.handle.current ∈ offers
  periods : ∀ task ∈ running.tasks, 1000 ≤ task.period

variable {offers : List Settings}

theorem Keeps.step (h : running.Keeps path offers) (hread : event.IsRead) :
    (running.step event).Keeps path (offers ++ (running.offer? event).toList) := by
  have hperiods : ∀ task ∈ (running.step event).tasks, 1000 ≤ task.period := by
    intro task htask
    rcases mem_tasks_step htask with hmem | hstarted
    · exact h.periods task hmem
    · obtain ⟨henabled, -, rfl⟩ := task?_eq_some_iff.1 hstarted
      exact h.obeys.interval henabled
  -- The handle stays as it is or takes on settings that were read, and those obey the rules.
  rcases step_handle running event with hhandle | ⟨settings, hoffer, hhandle⟩
  · exact {
      origin := by rw [hhandle, h.origin]
      obeys := by rw [hhandle]; exact h.obeys
      whole := by rw [hhandle]; exact List.mem_append_left _ h.whole
      periods := hperiods }
  · exact {
      origin := by rw [hhandle]; exact h.origin
      obeys := by rw [hhandle]; exact check_eq_ok_iff.1 (check_of_offer? hread hoffer)
      whole := by
        rw [hhandle, hoffer]
        exact List.mem_append_right _ List.mem_cons_self
      periods := hperiods }

theorem Keeps.run {events : List Event} (h : running.Keeps path offers)
    (hread : ∀ event ∈ events, event.IsRead) :
    (running.run events).Keeps path (offers ++ running.offered events) := by
  induction events generalizing running offers with
  | nil => rwa [offered, List.append_nil]
  | cons event rest ih =>
    rw [List.forall_mem_cons] at hread
    rw [offered, ← List.append_assoc]
    exact ih (h.step hread.1) hread.2

/-! ## Readings with no change in between -/

def IsSettled (running : Running) : Prop := running.reload = (.ok false, running)

theorem IsSettled.of_eq {later : Running} (h : running.IsSettled)
    (hhandle : later.handle = running.handle) (hfile : later.file = running.file) :
    later.IsSettled := by
  -- A reading looks at the handle and the file alone.
  rw [IsSettled, reload, Prod.mk.injEq] at h
  have hkept : (running.handle.reload running.file).handle = running.handle :=
    congrArg handle h.2
  simp only [IsSettled, reload, hhandle, hfile, h.1, hkept]
  rw [← hhandle, ← hfile]

theorem isSettled_reload {answer : Bool} (h : running.reload.1 = .ok answer) :
    running.reload.2.IsSettled := by
  cases hpath : running.handle.path with
  | none =>
    rw [reload_without_file hpath]
    exact reload_without_file hpath
  | some path =>
    have hrereads := rereadsAs hpath
    cases answer with
    | false =>
      rw [hrereads.kept (by rw [h]; nofun)]
      obtain ⟨loaded, hload, hequals⟩ := hrereads.same.1 h
      exact reload_of_equals hpath hload hequals
    | true =>
      obtain ⟨loaded, hload, hreload⟩ := hrereads.installed h
      rw [hreload]
      exact reload_of_equals hpath hload (.refl loaded)

theorem IsSettled.step (h : running.IsSettled) (hquiet : event.IsQuiet) :
    (running.step event).IsSettled := by
  cases event with
  | written | removed | replaced => exact hquiet.elim
  | reloaded => rwa [Running.step, congrArg Prod.snd h]
  | autoupdateStarted =>
    simp only [Running.step, startAutoupdate]
    split
    · exact h
    · exact h.of_eq rfl rfl
  | clockAdvanced time =>
    have hadvance : running.advance time = { running with now := running.now + time } := by
      cases hdue : running.isDue time with
      | false => exact advance_of_not_isDue hdue
      | true => rw [advance_of_isDue hdue, congrArg Prod.snd h]
    rw [Running.step, hadvance]
    exact h.of_eq rfl rfl

theorem IsSettled.run {events : List Event} (h : running.IsSettled)
    (hquiet : ∀ event ∈ events, event.IsQuiet) : (running.run events).IsSettled := by
  induction events generalizing running with
  | nil => exact h
  | cons event rest ih =>
    rw [List.forall_mem_cons] at hquiet
    exact ih (h.step hquiet.1) hquiet.2

/-! ## With a file and without -/

structure Sound (path : String) (offers : List Settings) (running : Running) : Prop
    extends running.Keeps path offers, running.RereadsAs path where
  again : ∀ answer, running.reload.1 = .ok answer →
    ∀ events, (∀ event ∈ events, Event.IsQuiet event) → (running.reload.2.run events).IsSettled

/-- Without a file nothing is ever read and no task begins. -/
structure Fileless (running : Running) : Prop where
  path : running.handle.path = none
  tasks : running.tasks = []
  reload : running.reload = (.ok false, running)
  startAutoupdate : running.startAutoupdate = (false, running)

theorem Keeps.sound (h : running.Keeps path offers) : running.Sound path offers :=
  { h, rereadsAs h.origin with
    again := fun _ hanswer _ hquiet => (isSettled_reload hanswer).run hquiet }

theorem fileless (hpath : running.handle.path = none) (htasks : running.tasks = []) :
    running.Fileless where
  path := hpath
  tasks := htasks
  reload := reload_without_file hpath
  startAutoupdate := by
    have htask : running.task? = none := by simp [task?, hpath]
    simp only [Running.startAutoupdate, htask]

theorem Fileless.step (h : running.Fileless) (event : Event) : (running.step event).Fileless := by
  refine fileless ?_ (List.eq_nil_iff_forall_not_mem.2 fun task htask => ?_)
  · rcases step_handle running event with hhandle | ⟨settings, -, hhandle⟩ <;> rw [hhandle]
    · exact h.path
    · exact h.path
  · rcases mem_tasks_step htask with hmem | hstarted
    · rw [h.tasks] at hmem
      exact List.not_mem_nil hmem
    · have hpath := (task?_eq_some_iff.1 hstarted).2.1
      rw [h.path] at hpath
      cases hpath

theorem Fileless.run (h : running.Fileless) (events : List Event) :
    (running.run events).Fileless := by
  induction events generalizing running with
  | nil => exact h
  | cons event rest ih => exact ih (h.step event)

end Running

/-- Whatever happens after settings were read from a file, those in use are sound, and a handle
without a file never reads one. -/
theorem Running.sound_run (file : FileContent) (now : Nat) (events : List Event) :
    (∀ path handle, Handle.ofFile path file = .ok handle → (∀ event ∈ events, event.IsRead) →
      let start : Running := { handle, file, now }
      (start.run events).Sound path (handle.current :: start.offered events)) ∧
    ∀ settings, (({ handle := { current := settings }, file, now } : Running).run events).Fileless := by
  constructor
  · intro path handle hfile hread
    obtain ⟨settings, hload, rfl⟩ := Handle.ofFile_eq_ok_iff.1 hfile
    have hstart : Keeps path [settings] { handle := ⟨settings, some path⟩, file, now } :=
      { origin := rfl
        obeys := check_eq_ok_iff.1 (check_of_load hload)
        whole := List.mem_cons_self
        periods := nofun }
    exact (hstart.run hread).sound
  · exact fun settings => (fileless rfl rfl).run events

/-- A file that lost its address for the check is refused, and the settings of before stay. -/
theorem Running.sound_run_broken_file :
    let handle : Handle := { current := { rights := { isEnabled := false } }, path := some "s.toml" }
    let file := some (Text.Utf8.bytes "[rights]\nenabled = false")
    let events : List Event :=
      [.replaced handle.current, .written (Text.Utf8.bytes "[rights]"), .reloaded]
    let start : Running := { handle, file, now := 0 }
    Handle.ofFile "s.toml" file = .ok handle ∧ (∀ event ∈ events, event.IsRead) ∧
      (start.run events).Sound "s.toml" (handle.current :: start.offered events) ∧
      (start.run events).reload = (.error (.invalid .missingRights), start.run events) := by
  intro handle file events start
  have hfile : Handle.ofFile "s.toml" file = .ok handle := rfl
  have hread : ∀ event ∈ events, event.IsRead := by
    have hreplaced : Event.IsRead (.replaced handle.current) := ⟨"[rights]\nenabled = false", rfl⟩
    simpa [events, Event.IsRead] using hreplaced
  exact ⟨hfile, hread, (Running.sound_run file 0 events).1 "s.toml" handle hfile hread, rfl⟩

end ImageGate.Settings
