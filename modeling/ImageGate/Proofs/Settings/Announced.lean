import ImageGate.Proofs.Settings.Changes

/-! What a change of the settings does to a server at work. Requests read where the image servers are and
what counts as a thumbnail; every other section is read at the start alone, and a change of it is announced.
So two servers that differ in announced sections alone serve alike whatever happens to them, and a change
without an announcement leaves the server that a restart would bring. -/
namespace ImageGate
set_option autoImplicit false

/-! ## Sections -/

namespace Settings
variable {before after other : Settings}

/-- The sections that requests read are the same. -/
structure ServesLike (before after : Settings) : Prop where
  servers : before.servers = after.servers
  thumbnail : before.thumbnail = after.thumbnail

theorem ServesLike.refl (settings : Settings) : settings.ServesLike settings := ⟨rfl, rfl⟩

theorem ServesLike.symm (h : before.ServesLike after) : after.ServesLike before :=
  ⟨h.servers.symm, h.thumbnail.symm⟩

theorem ServesLike.trans (h : before.ServesLike after) (hother : after.ServesLike other) :
    before.ServesLike other :=
  ⟨h.servers.trans hother.servers, h.thumbnail.trans hother.thumbnail⟩

theorem Equals.servesLike (h : before.Equals after) : before.ServesLike after :=
  ⟨h.servers, h.thumbnail⟩

theorem ServesLike.delivery_eq (h : before.ServesLike after) : before.delivery = after.delivery := by
  rw [delivery, delivery, backends, backends, h.servers, h.thumbnail]

/-- Deliveries go to the image servers of these settings and keep to their limits. A DeepZoom server with
both kinds of base is addressed by its path. -/
structure Governs (settings : Settings) (delivery : DeliverySettings) : Prop where
  iip : delivery.backends.iip = settings.servers.iip
  iiif : delivery.backends.iiif = settings.servers.iiif
  byPath : ∀ base, settings.servers.deepZoom.path = some base →
    delivery.backends.deepZoom = some ⟨withoutEndSlashes base, .path⟩
  byParam : ∀ base, settings.servers.deepZoom.path = none →
    settings.servers.deepZoom.param = some base →
      delivery.backends.deepZoom = some ⟨withoutEndSlashes base, .param⟩
  withoutDeepZoom : settings.servers.deepZoom = {} → delivery.backends.deepZoom = none
  limits : delivery.limits = settings.thumbnail

theorem governs_delivery (settings : Settings) : settings.Governs settings.delivery where
  iip := rfl
  iiif := rfl
  byPath base hpath := by
    show settings.servers.deepZoom.server? = _
    rw [DeepZoomBases.server?, hpath]
    rfl
  byParam base hpath hparam := by
    show settings.servers.deepZoom.server? = _
    rw [DeepZoomBases.server?, hpath, hparam]
    rfl
  withoutDeepZoom hnone := by
    show settings.servers.deepZoom.server? = none
    rw [hnone]
    rfl
  limits := rfl

/-- Both files of placeholder images are the same. -/
structure Images.SameFiles (images other : Images) : Prop where
  noAccess : SameFile images.noAccess other.noAccess
  nonExisting : SameFile images.nonExisting other.nonExisting

/-- The names of the sections whose change needs a restart. -/
def announced (before after : Settings) : List String :=
  (needingRestart before after).map Section.name

theorem mem_needingRestart_iff (part : Section) :
    part ∈ needingRestart before after ↔ part.differs before after = true := by
  have hall : part ∈ Section.all := by cases part <;> decide
  rw [needingRestart, List.mem_filter, and_iff_right hall]

theorem Section.name_injective : Function.Injective Section.name := by
  intro part other hname
  cases part <;> cases other <;> first | rfl | exact absurd hname (by decide)

theorem name_mem_announced_iff (part : Section) :
    part.name ∈ announced before after ↔ part.differs before after = true := by
  rw [announced, List.mem_map_of_injective Section.name_injective, mem_needingRestart_iff]

theorem announced_sublist (before after : Settings) :
    (announced before after).Sublist ["rights", "images", "proxy", "autoupdate"] :=
  List.filter_sublist.map Section.name

theorem images_differ_iff :
    Section.images.differs before after = true ↔ ¬ before.images.SameFiles after.images := by
  rw [Section.differs, Bool.not_eq_true', ← Bool.not_eq_true, Images.same_iff]
  exact not_congr ⟨fun h => ⟨h.1, h.2⟩, fun h => ⟨h.1, h.2⟩⟩

/-- What no announcement means. -/
structure Settled (before after : Settings) : Prop where
  rights : before.rights = after.rights
  images : before.images.SameFiles after.images
  timeouts : before.timeouts = after.timeouts
  autoupdate : before.autoupdate = after.autoupdate

theorem announced_eq_nil_iff : announced before after = [] ↔ before.Settled after := by
  have hnone : announced before after = [] ↔ ∀ part : Section, ¬ part.differs before after = true := by
    rw [announced, List.map_eq_nil_iff, List.eq_nil_iff_forall_not_mem]
    exact forall_congr' fun part => not_congr (mem_needingRestart_iff part)
  rw [hnone]
  constructor
  · intro h
    exact {
      rights := not_not.1 (mt decide_eq_true (h .rights))
      images := not_not.1 (mt images_differ_iff.2 (h .images))
      timeouts := not_not.1 (mt decide_eq_true (h .timeouts))
      autoupdate := not_not.1 (mt decide_eq_true (h .autoupdate)) }
  · intro h part hdiffers
    cases part with
    | rights => exact of_decide_eq_true hdiffers h.rights
    | images => exact images_differ_iff.1 hdiffers h.images
    | timeouts => exact of_decide_eq_true hdiffers h.timeouts
    | autoupdate => exact of_decide_eq_true hdiffers h.autoupdate

theorem same_iff_announced_eq_nil :
    before.same after = true ↔ announced before after = [] ∧ before.ServesLike after := by
  rw [same_iff, announced_eq_nil_iff]
  constructor
  · intro h
    exact ⟨⟨h.rights, ⟨h.noAccess, h.nonExisting⟩, h.timeouts, h.autoupdate⟩, h.servesLike⟩
  · rintro ⟨h, hserves⟩
    exact ⟨hserves.servers, hserves.thumbnail, h.images.noAccess, h.images.nonExisting, h.rights,
      h.timeouts, h.autoupdate⟩

/-! ## Reading the file again -/

/-- Both contents are refused, or requests read the same of the settings in them. -/
def ContentsAlike (content other : FileContent) : Prop :=
  ∀ path, (∃ loaded reread, load path content = .ok loaded ∧ load path other = .ok reread ∧
      loaded.ServesLike reread) ∨
    ∃ fault again, load path content = .error fault ∧ load path other = .error again

namespace Running

/-- Handles on one file that serve alike, at one time and with the same tasks. -/
structure Alike (running other : Running) : Prop where
  current : running.handle.current.ServesLike other.handle.current
  path : running.handle.path = other.handle.path
  file : ContentsAlike running.file other.file
  now : running.now = other.now
  tasks : running.tasks = other.tasks

variable {running other : Running}

/-- After a reading that succeeds, requests read what stands in the file. -/
theorem current_reload {path : String} {loaded : Settings} (hpath : running.handle.path = some path)
    (hload : load path running.file = .ok loaded) :
    running.reload.2.handle.current.ServesLike loaded := by
  by_cases hequals : running.handle.current.Equals loaded
  · rw [reload_of_equals hpath hload hequals]
    exact hequals.servesLike
  · rw [reload_of_differs hpath hload hequals]
    exact .refl loaded

/-- A reading keeps the file, the time and the tasks. -/
theorem reload_keeps (running : Running) :
    ∃ current, running.reload.2 = running.replace current := by
  rcases reload_snd_eq running with hreload | ⟨loaded, -, hreload⟩
  · exact ⟨running.handle.current, hreload⟩
  · exact ⟨loaded, hreload⟩

theorem Alike.of_current {settings changed : Settings} (h : running.Alike other)
    (hcurrent : settings.ServesLike changed) :
    (running.replace settings).Alike (other.replace changed) :=
  ⟨hcurrent, h.path, h.file, h.now, h.tasks⟩

theorem Alike.reload (h : running.Alike other) : running.reload.2.Alike other.reload.2 := by
  have hcurrent : running.reload.2.handle.current.ServesLike other.reload.2.handle.current := by
    cases hpath : running.handle.path with
    | none =>
      rw [reload_without_file hpath, reload_without_file (h.path ▸ hpath)]
      exact h.current
    | some path =>
      have hother : other.handle.path = some path := h.path ▸ hpath
      rcases h.file path with ⟨loaded, reread, hload, hreread, hserves⟩ | ⟨fault, again, hload, hreread⟩
      · exact (current_reload hpath hload).trans (hserves.trans (current_reload hother hreread).symm)
      · rw [reload_of_refused hpath hload, reload_of_refused hother hreread]
        exact h.current
  obtain ⟨settings, hsettings⟩ := running.reload_keeps
  obtain ⟨changed, hchanged⟩ := other.reload_keeps
  rw [hsettings, hchanged] at hcurrent ⊢
  exact h.of_current hcurrent

theorem Alike.advance (h : running.Alike other) (time : Nat) :
    (running.advance time).Alike (other.advance time) := by
  have hisDue : running.isDue time = other.isDue time := by
    rw [isDue, isDue, h.tasks, h.now]
  have hnow : running.now + time = other.now + time := by rw [h.now]
  cases hdue : running.isDue time with
  | true =>
    rw [advance_of_isDue hdue, advance_of_isDue (hisDue ▸ hdue)]
    have hreload := h.reload
    exact ⟨hreload.current, hreload.path, hreload.file, hnow, hreload.tasks⟩
  | false =>
    rw [advance_of_not_isDue hdue, advance_of_not_isDue (hisDue ▸ hdue)]
    exact ⟨h.current, h.path, h.file, hnow, h.tasks⟩

end Running

end Settings

/-! ## Servers at work -/

namespace Startup

/-- The same happens to two servers, with other values at most in what is read at the start. Tasks are
started there as well. -/
inductive Event.Alike : Event → Event → Prop
  | written {content other : Settings.FileContent} (hcontents : Settings.ContentsAlike content other) :
      Alike (.written content) (.written other)
  | replaced {settings other : Settings} (hserves : settings.ServesLike other) :
      Alike (.replaced settings) (.replaced other)
  | reloaded : Alike .reloaded .reloaded
  | clockAdvanced (time : Nat) : Alike (.clockAdvanced time) (.clockAdvanced time)
  | requested (request : Request) (accept : Option String) (network : Network) :
      Alike (.requested request accept network) (.requested request accept network)

namespace Assembly

structure Alike (assembly other : Assembly) : Prop where
  running : assembly.running.Alike other.running
  gate : assembly.gate = other.gate
  rights : assembly.rights = other.rights
  cors : assembly.cors = other.cors

variable {assembly other : Assembly} {event happening : Event} {events happenings : List Event}

theorem Alike.server_eq (h : assembly.Alike other) (network : Network) :
    assembly.server network = other.server network := by
  rw [server, server, h.running.current.delivery_eq, h.gate, h.rights, h.cors]

theorem Alike.step (h : assembly.Alike other) (hevent : event.Alike happening) :
    (assembly.step event).Alike (other.step happening) := by
  have hrunning : (assembly.step event).running.Alike (other.step happening).running := by
    cases hevent with
    | written hcontents =>
      exact ⟨h.running.current, h.running.path, hcontents, h.running.now, h.running.tasks⟩
    | replaced hserves => exact h.running.of_current hserves
    | reloaded => exact h.running.reload
    | clockAdvanced time => exact h.running.advance time
    | requested => exact h.running
  -- Only the settings in use can change.
  cases hevent <;> exact ⟨hrunning, h.gate, h.rights, h.cors⟩

theorem Alike.served?_eq (h : assembly.Alike other) (hevent : event.Alike happening) :
    assembly.served? event = other.served? happening := by
  cases hevent with
  | written | replaced | reloaded | clockAdvanced => rfl
  | requested request accept network => rw [served?, served?, deliver, deliver, h.server_eq network]

/-- What a server has become after these events. -/
def after (assembly : Assembly) (events : List Event) : Assembly := events.foldl step assembly

/-- Servers that are alike stay alike, and serve the same along the way. -/
theorem Alike.run (h : assembly.Alike other) (hevents : List.Forall₂ Event.Alike events happenings) :
    (assembly.after events).Alike (other.after happenings) ∧
      assembly.served events = other.served happenings := by
  induction hevents generalizing assembly other with
  | nil => exact ⟨h, rfl⟩
  | cons hevent _ ih =>
    obtain ⟨hafter, hserved⟩ := ih (h.step hevent)
    exact ⟨hafter, by rw [served, served, h.served?_eq hevent, hserved]⟩

end Assembly

end Startup

/-! ## A restart -/

/-- Where a file can be read under two spellings of its path, it is the same file. -/
def FileReader.Steady (files : FileReader) : Prop :=
  ∀ p q bytes others, Settings.samePath p q = true → files p = .ok bytes → files q = .ok others →
    bytes = others

/-- Two spellings of a path have one extension. -/
theorem Settings.fileExtension?_eq_of_samePath {p q : String} (h : samePath p q = true) :
    fileExtension? p = fileExtension? q := by
  rw [fileExtension?, fileExtension?, fileName?, fileName?, of_decide_eq_true h]

theorem Placeholder.eq_of_sameFile {files : FileReader} {p q : Option String}
    {image fresh : Placeholder} (hfiles : files.Steady) (hsame : Settings.SameFile p q)
    (hload : load files p = .ok image) (hfresh : load files q = .ok fresh) : image = fresh := by
  cases p with
  | none =>
    cases q with
    | none => exact Except.ok.inj (hload.symm.trans hfresh)
    | some q => cases hsame
  | some p =>
    cases q with
    | none => cases hsame
    | some q =>
      have hpath : Settings.samePath p q = true := decide_eq_true (Option.some.inj hsame)
      cases hp : files p with
      | error failure => simp [load, hp] at hload
      | ok bytes =>
        cases hq : files q with
        | error failure => simp [load, hq] at hfresh
        | ok others =>
          simp only [load, hp, Except.ok.injEq] at hload
          simp only [load, hq, Except.ok.injEq] at hfresh
          rw [← hload, ← hfresh, ofFile, ofFile, hfiles p q bytes others hpath hp hq,
            Settings.fileExtension?_eq_of_samePath hpath]

theorem Placeholders.load_eq_ok_iff {files : FileReader} {images : Settings.Images}
    {placeholders : Placeholders} : load files images = .ok placeholders ↔
      Placeholder.load files images.noAccess = .ok placeholders.noAccess ∧
        Placeholder.load files images.nonExisting = .ok placeholders.nonExisting := by
  obtain ⟨noAccess, nonExisting⟩ := placeholders
  unfold load
  cases Placeholder.load files images.noAccess <;>
    cases Placeholder.load files images.nonExisting <;>
      simp [bind, Except.bind, pure, Except.pure]

theorem Placeholders.eq_of_sameFiles {files : FileReader} {images other : Settings.Images}
    {placeholders fresh : Placeholders} (hfiles : files.Steady) (hsame : images.SameFiles other)
    (hload : load files images = .ok placeholders) (hfresh : load files other = .ok fresh) :
    placeholders = fresh := by
  rw [load_eq_ok_iff] at hload hfresh
  obtain ⟨noAccess, nonExisting⟩ := placeholders
  obtain ⟨freshNoAccess, freshNonExisting⟩ := fresh
  rw [Placeholders.mk.injEq]
  exact ⟨Placeholder.eq_of_sameFile hfiles hsame.noAccess hload.1 hfresh.1,
    Placeholder.eq_of_sameFile hfiles hsame.nonExisting hload.2 hfresh.2⟩

theorem Settings.Running.handle_startAutoupdate (running : Settings.Running) :
    running.startAutoupdate.2.handle = running.handle := by
  unfold startAutoupdate
  split <;> rfl

namespace Startup.Assembly
variable {before after : Settings} {around : Surroundings} {path : String}
  {placeholders fresh : Placeholders}

/-- Without an announcement, a server that reads new settings at work becomes the one that starts with
them. -/
theorem server_reload_eq (line : CommandLine) {content : Settings.FileContent}
    (hannounced : Settings.announced before after = []) (hfiles : around.files.Steady)
    (hload : Placeholders.load around.files before.images = .ok placeholders)
    (hfresh : Placeholders.load around.files after.images = .ok fresh)
    (hcontent : Settings.load path content = .ok after) (network : Network) :
    let started := ofStart around line ⟨before, some path⟩ placeholders
    let restarted := ofStart around line ⟨after, some path⟩ fresh
    ((started.step (.written content)).step .reloaded).server network = restarted.server network := by
  intro started restarted
  have hsettled := Settings.announced_eq_nil_iff.1 hannounced
  have hhandle := Settings.Running.handle_startAutoupdate
  let written := started.step (.written content)
  have hpath : written.running.handle.path = some path := by
    show started.running.handle.path = some path
    rw [show started.running.handle = ⟨before, some path⟩ from hhandle _]
  have hdelivery : (written.step .reloaded).running.handle.current.delivery
      = restarted.running.handle.current.delivery := by
    rw [show restarted.running.handle = ⟨after, some path⟩ from hhandle _]
    exact (Settings.Running.current_reload hpath hcontent).delivery_eq
  have hgate : placeholders = fresh := Placeholders.eq_of_sameFiles hfiles hsettled.images hload hfresh
  have hrights : rightsSource before.rights = rightsSource after.rights := by rw [hsettled.rights]
  show Http.Server.mk (corsPolicy line) (written.step .reloaded).running.handle.current.delivery
      ⟨placeholders⟩ (network.collaborators (rightsSource before.rights))
    = ⟨corsPolicy line, restarted.running.handle.current.delivery, ⟨fresh⟩,
      network.collaborators (rightsSource after.rights)⟩
  rw [hdelivery, hgate, hrights]

end Startup.Assembly

/-! ## Every change -/

namespace Settings

/-- Each part of a change takes effect with the next request or is announced. -/
structure Accounted (before after : Settings) : Prop where
  listed : (announced before after).Sublist ["rights", "images", "proxy", "autoupdate"]
  rights : "rights" ∈ announced before after ↔ before.rights ≠ after.rights
  images : "images" ∈ announced before after ↔ ¬ before.images.SameFiles after.images
  timeouts : "proxy" ∈ announced before after ↔ before.timeouts ≠ after.timeouts
  autoupdate : "autoupdate" ∈ announced before after ↔ before.autoupdate ≠ after.autoupdate
  same : before.same after = true ↔ announced before after = [] ∧ before.ServesLike after
  /-- The next request is delivered by the new settings, wherever they come from. -/
  inEffect : ∀ (assembly : Startup.Assembly) network,
    after.Governs ((assembly.step (.replaced after)).server network).settings ∧
      ∀ path, assembly.running.handle.path = some path → load path assembly.running.file = .ok after →
        after.Governs ((assembly.step .reloaded).server network).settings
  /-- No delivery depends on a section that can be announced. -/
  unread : before.ServesLike after → ∀ gate world request accept,
    Delivery.run before.delivery gate world request accept
      = Delivery.run after.delivery gate world request accept
  /-- Nor does anything that a server does from then on. -/
  unseen : before.ServesLike after → ∀ (assembly : Startup.Assembly) (events others : List Startup.Event),
    List.Forall₂ Startup.Event.Alike events others →
      (assembly.step (.replaced before)).served events = (assembly.step (.replaced after)).served others ∧
      ∀ network request,
        ((assembly.step (.replaced before)).after events).respond network request
          = ((assembly.step (.replaced after)).after others).respond network request
  /-- What is not announced is in effect as if the server had been started with it. -/
  effective : announced before after = [] →
    ∀ (around : Startup.Surroundings) (line : CommandLine) (path : String) (content : FileContent)
      (placeholders fresh : Placeholders), around.files.Steady →
      Placeholders.load around.files before.images = .ok placeholders →
      Placeholders.load around.files after.images = .ok fresh → load path content = .ok after →
      let started := Startup.Assembly.ofStart around line ⟨before, some path⟩ placeholders
      let restarted := Startup.Assembly.ofStart around line ⟨after, some path⟩ fresh
      ∀ network request, ((started.step (.written content)).step .reloaded).respond network request
        = restarted.respond network request

theorem ContentsAlike.refl (content : FileContent) : ContentsAlike content content := by
  intro path
  cases hload : load path content with
  | ok loaded => exact .inl ⟨loaded, loaded, rfl, rfl, .refl loaded⟩
  | error fault => exact .inr ⟨fault, fault, rfl, rfl⟩

/-- Whatever the two settings are. -/
theorem accounted (before after : Settings) : Accounted before after where
  listed := announced_sublist before after
  rights := (name_mem_announced_iff .rights).trans decide_eq_true_iff
  images := (name_mem_announced_iff .images).trans images_differ_iff
  timeouts := (name_mem_announced_iff .timeouts).trans decide_eq_true_iff
  autoupdate := (name_mem_announced_iff .autoupdate).trans decide_eq_true_iff
  same := same_iff_announced_eq_nil
  inEffect assembly network := by
    refine ⟨after.governs_delivery, fun path hpath hload => ?_⟩
    have hserves := Running.current_reload hpath hload
    show after.Governs assembly.running.reload.2.handle.current.delivery
    rw [hserves.delivery_eq]
    exact after.governs_delivery
  unread hserves gate world request accept := by rw [hserves.delivery_eq]
  unseen hserves assembly events others hevents := by
    have halike : (assembly.step (.replaced before)).Alike (assembly.step (.replaced after)) :=
      ⟨⟨hserves, rfl, .refl _, rfl, rfl⟩, rfl, rfl, rfl⟩
    obtain ⟨hafter, hserved⟩ := halike.run hevents
    refine ⟨hserved, fun network request => ?_⟩
    rw [Startup.Assembly.respond, Startup.Assembly.respond, hafter.server_eq network]
  effective hannounced around line path content placeholders fresh hfiles hload hfresh hcontent := by
    intro started restarted network request
    rw [Startup.Assembly.respond, Startup.Assembly.respond,
      Startup.Assembly.server_reload_eq line hannounced hfiles hload hfresh hcontent]

/-- A second slash in a path needs no restart, and other image servers and limits are in effect without
one. -/
theorem accounted_second_slash :
    let before : Settings := {
      images := { noAccess := some "img/no.png" }, rights := { url := some "http://r.test" } }
    let after : Settings := { before with
      servers := { deepZoom := { param := some "http://b.test/dz/" } }, thumbnail := ⟨8, 9⟩
      images := { noAccess := some "img//no.png" } }
    let content : FileContent := some (Text.Utf8.bytes (
      "imageservers.deepzoom.param = 'http://b.test/dz/'\n"
      ++ "thumbnail = \x7bmax_width = 8, max_height = 9\x7d\n"
      ++ "images.no_access = 'img//no.png'\nrights.url = 'http://r.test'"))
    let around : Startup.Surroundings := {
      environment := fun _ => none, files := fun _ => .ok [1], bindFailure := fun _ => none }
    let images : Placeholders := { noAccess := ⟨"image/png", [1]⟩ }
    let started := Startup.Assembly.ofStart around {} ⟨before, some "s.toml"⟩ images
    let restarted := Startup.Assembly.ofStart around {} ⟨after, some "s.toml"⟩ images
    let reread := (started.step (.written content)).step .reloaded
    announced before after = [] ∧ before.same after = false ∧ load "s.toml" content = .ok after ∧
      (∀ network request, reread.respond network request = restarted.respond network request) ∧
      ∀ network, (reread.server network).settings.backends.deepZoom = some ⟨"http://b.test/dz", .param⟩ ∧
        (reread.server network).settings.limits = ⟨8, 9⟩ := by
  intro before after content around images started restarted reread
  have haccounted := accounted before after
  have hannounced : announced before after = [] := by decide +kernel
  have hload : load "s.toml" content = .ok after := by decide +kernel
  have hfiles : around.files.Steady := by
    rintro p q bytes others - ⟨⟩ ⟨⟩
    rfl
  have heffective := haccounted.effective hannounced around {} "s.toml" content images images hfiles
    (by decide +kernel) (by decide +kernel) hload
  refine ⟨hannounced, by decide +kernel, hload, heffective, fun network => ?_⟩
  have hgoverns := (haccounted.inEffect (started.step (.written content)) network).2 "s.toml" rfl hload
  have hbase : withoutEndSlashes "http://b.test/dz/" = "http://b.test/dz" := by decide +kernel
  have hdeepZoom := hgoverns.byParam _ rfl rfl
  rw [hbase] at hdeepZoom
  exact ⟨hdeepZoom, hgoverns.limits⟩

end Settings

end ImageGate
