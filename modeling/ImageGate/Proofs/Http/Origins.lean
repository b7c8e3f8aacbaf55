import ImageGate.Proofs.Access.RightsAtStart
import ImageGate.Proofs.Http.DownloadName

/-! The origins whose pages may read images. Entries of the command line count without the blanks around
them, and an entry that is blank or that no header can hold does not count. Only an asterisk opens the
images to every origin: a list of which nothing counts closes them, and a list that is left holds no
asterisk, so the layer in front of the routes can always be built from it. -/
namespace ImageGate
open Text
set_option autoImplicit false

namespace Http

/-! ## Entries -/

theorem isHeaderValue_iff {value : String} :
    isHeaderValue value = true ↔ ∀ b ∈ Utf8.bytes value, IsValueByte b := by
  refine ⟨isValueByte_of_isHeaderValue, fun h => List.all_eq_true.2 fun c hc => ?_⟩
  rw [isValueChar_iff]
  by_cases hascii : c.toNat < 0x80
  · have hbyte : UInt8.ofNat c.toNat ∈ Utf8.bytes value := by
      rw [← String.ofList_toList (s := value), Utf8.bytes_ofList]
      refine List.mem_flatMap.2 ⟨c, hc, ?_⟩
      rw [Utf8.utf8EncodeChar_of_ascii hascii]
      exact List.mem_singleton_self _
    have hvalue := h _ hbyte
    have hfits : c.toNat < UInt8.size := Nat.lt_trans hascii (by decide)
    rw [IsValueByte, UInt8.le_iff_toNat_le, ← UInt8.toNat_inj, ne_eq, ← UInt8.toNat_inj,
      UInt8.toNat_ofNat_of_lt' hfits] at hvalue
    exact hvalue
  · omega

/-- An origin that a header can hold. -/
def IsUsable (origin : String) : Prop := origin ≠ "" ∧ ∀ b ∈ Utf8.bytes origin, IsValueByte b

instance (origin : String) : Decidable (IsUsable origin) :=
  decidable_of_iff (origin ≠ "" ∧ isHeaderValue origin = true) (by rw [isHeaderValue_iff, IsUsable])

/-- The entry is this text between blanks. -/
def Gives (entry origin : String) : Prop := IsTrimmed entry.toList origin.toList

theorem gives_iff {entry origin : String} : Gives entry origin ↔ trim entry = origin := isTrimmed_iff

instance (entry origin : String) : Decidable (Gives entry origin) := decidable_of_iff _ gives_iff.symm

/-- A blank entry, or one that no header can hold. -/
def IsIdle (entry : String) : Prop := ∃ text, Gives entry text ∧ ¬ IsUsable text

theorem isIdle_iff {entry : String} : IsIdle entry ↔ ¬ IsUsable (trim entry) := by
  simp only [IsIdle, gives_iff, exists_eq_left']

/-! ## Lists of entries -/

def AsksForAll (list : List String) : Prop := ∃ entry ∈ list, Gives entry "*"

/-- The usable origins that the entries give, in their order and each as often as it is given. -/
inductive Selects : List String → List String → Prop
  | nil : Selects [] []
  | taken {entry origin : String} {list origins : List String} (hgives : Gives entry origin)
      (husable : IsUsable origin) (hrest : Selects list origins) :
      Selects (entry :: list) (origin :: origins)
  | skipped {entry : String} {list origins : List String} (hidle : IsIdle entry)
      (hrest : Selects list origins) : Selects (entry :: list) origins

/-- What becomes of a list by taking idle entries away and changing the order. -/
inductive Rearranged : List String → List String → Prop
  | removed (front : List String) {entry : String} (back : List String) (hidle : IsIdle entry) :
      Rearranged (front ++ entry :: back) (front ++ back)
  | permuted {list other : List String} (horder : list.Perm other) : Rearranged list other
  | trans {list middle other : List String} (hfirst : Rearranged list middle)
      (hsecond : Rearranged middle other) : Rearranged list other

def usable (list : List String) : List String := (list.map trim).filter (IsUsable ·)

theorem usable_cons_of_isUsable {entry : String} (h : IsUsable (trim entry)) (list : List String) :
    usable (entry :: list) = trim entry :: usable list := by
  rw [usable, List.map_cons, List.filter_cons, if_pos (decide_eq_true h), ← usable]

theorem usable_cons_of_isIdle {entry : String} (h : IsIdle entry) (list : List String) :
    usable (entry :: list) = usable list := by
  have hskip : decide (IsUsable (trim entry)) = false := decide_eq_false (isIdle_iff.1 h)
  rw [usable, List.map_cons, List.filter_cons, if_neg (Bool.eq_false_iff.1 hskip), ← usable]

theorem usable_append (list other : List String) :
    usable (list ++ other) = usable list ++ usable other := by
  rw [usable, List.map_append, List.filter_append, ← usable, ← usable]

theorem usable_removed {entry : String} (h : IsIdle entry) (front back : List String) :
    usable (front ++ entry :: back) = usable (front ++ back) := by
  rw [usable_append, usable_cons_of_isIdle h, ← usable_append]

theorem usable_permuted {list other : List String} (h : list.Perm other) :
    (usable list).Perm (usable other) := (h.map trim).filter _

theorem selects_iff {list origins : List String} : Selects list origins ↔ usable list = origins := by
  constructor
  · intro h
    induction h with
    | nil => rfl
    | taken hgives husable _ ih =>
      rw [gives_iff] at hgives
      rw [← hgives] at husable
      rw [usable_cons_of_isUsable husable, ih, hgives]
    | skipped hidle _ ih => rw [usable_cons_of_isIdle hidle, ih]
  · rintro rfl
    induction list with
    | nil => exact .nil
    | cons entry list ih =>
      by_cases husable : IsUsable (trim entry)
      · rw [usable_cons_of_isUsable husable]
        exact .taken (gives_iff.2 rfl) husable ih
      · have hidle : IsIdle entry := isIdle_iff.2 husable
        rw [usable_cons_of_isIdle hidle]
        exact .skipped hidle ih

theorem asterisk_mem_usable_iff {list : List String} : "*" ∈ usable list ↔ AsksForAll list := by
  have husable : IsUsable "*" := by decide
  simp only [usable, List.mem_filter, List.mem_map, decide_eq_true husable, and_true, AsksForAll,
    gives_iff]

/-! ## Policies -/

namespace CorsPolicy

/-- The usable origins decide: an asterisk among them, none at all, or all of them. -/
theorem ofOrigins_eq (list : List String) : ofOrigins list =
    if "*" ∈ usable list then anyOrigin
    else if usable list = [] then sameOrigin else origins (usable list) := by
  have hentries : (entries list).filter isHeaderValue = usable list := by
    rw [entries, List.filter_filter, usable]
    refine List.filter_congr fun origin _ => ?_
    rw [Bool.eq_iff_iff, Bool.and_eq_true, decide_eq_true_eq, decide_eq_true_eq, IsUsable,
      isHeaderValue_iff, and_comm]
  have hasterisk : (entries list).contains "*" = true ↔ "*" ∈ usable list := by
    rw [List.contains_iff_mem, ← hentries, List.mem_filter]
    exact (and_iff_left (by decide)).symm
  rw [ofOrigins]
  simp only [hasterisk, hentries]
  cases usable list <;> rfl

/-- Which of the three policies it is. -/
inductive Kind where
  | any
  | listed
  | own
  deriving DecidableEq

def kind : CorsPolicy → Kind
  | anyOrigin => .any
  | origins _ => .listed
  | sameOrigin => .own

theorem kind_ofOrigins (list : List String) : (ofOrigins list).kind =
    if "*" ∈ usable list then .any else if usable list = [] then .own else .listed := by
  rw [ofOrigins_eq]
  split
  · rfl
  · split <;> rfl

theorem kind_of_rearranged {list other : List String} (h : Rearranged list other) :
    (ofOrigins other).kind = (ofOrigins list).kind := by
  induction h with
  | removed front back hidle => rw [kind_ofOrigins, kind_ofOrigins, usable_removed hidle]
  | permuted horder =>
    have husable := usable_permuted horder
    have hempty := husable.length_eq
    rw [kind_ofOrigins, kind_ofOrigins]
    simp only [husable.mem_iff, ← List.length_eq_zero_iff, hempty]
  | trans _ _ ihfirst ihsecond => rw [ihsecond, ihfirst]

/-- How the entries of a list decide which pages may read images. -/
structure FollowsEntries (list : List String) : Prop where
  any : ofOrigins list = anyOrigin ↔ AsksForAll list
  listed : ∀ origins, ofOrigins list = .origins origins ↔
    ¬ AsksForAll list ∧ Selects list origins ∧ origins ≠ []
  own : ofOrigins list = sameOrigin ↔ Selects list []
  free : ∀ origins, ofOrigins list = .origins origins → origins ≠ [] ∧ "*" ∉ origins
  rearranged : ∀ other, Rearranged list other → (ofOrigins other).kind = (ofOrigins list).kind
  removed : ∀ front entry back, list = front ++ entry :: back → IsIdle entry →
    ofOrigins (front ++ back) = ofOrigins list
  /-- Unless every origin is asked for, a page reads images only if an entry gives its origin. -/
  narrow : ¬ AsksForAll list → ∀ origin answer, (ofOrigins list).allowed? origin = some answer →
    origin = some answer ∧ ∃ entry ∈ list, Gives entry answer

theorem ofOrigins_eq_anyOrigin_iff {list : List String} :
    ofOrigins list = anyOrigin ↔ AsksForAll list := by
  rw [← asterisk_mem_usable_iff, ofOrigins_eq]
  split
  · next hasterisk => exact iff_of_true rfl hasterisk
  · next hasterisk => split <;> exact iff_of_false nofun hasterisk

theorem ofOrigins_eq_origins_iff {list selected : List String} :
    ofOrigins list = origins selected ↔
      ¬ AsksForAll list ∧ Selects list selected ∧ selected ≠ [] := by
  rw [← asterisk_mem_usable_iff, selects_iff, ofOrigins_eq]
  split
  · next hasterisk => exact iff_of_false nofun fun h => h.1 hasterisk
  · next hasterisk =>
    split
    · next hempty => exact iff_of_false nofun fun ⟨_, heq, hne⟩ => hne (heq ▸ hempty)
    · next hne =>
      rw [origins.injEq]
      exact ⟨fun heq => ⟨hasterisk, heq, heq ▸ hne⟩, fun h => h.2.1⟩

theorem ofOrigins_eq_sameOrigin_iff {list : List String} :
    ofOrigins list = sameOrigin ↔ Selects list [] := by
  rw [selects_iff, ofOrigins_eq]
  split
  · next hasterisk => exact iff_of_false nofun (List.ne_nil_of_mem hasterisk)
  · split
    · next hempty => exact iff_of_true rfl hempty
    · next hne => exact iff_of_false nofun hne

theorem asterisk_not_mem_of_ofOrigins {list selected : List String}
    (h : ofOrigins list = origins selected) : "*" ∉ selected := by
  obtain ⟨hall, hselects, -⟩ := ofOrigins_eq_origins_iff.1 h
  rwa [← selects_iff.1 hselects, asterisk_mem_usable_iff]

theorem followsEntries (list : List String) : FollowsEntries list where
  any := ofOrigins_eq_anyOrigin_iff
  listed _ := ofOrigins_eq_origins_iff
  own := ofOrigins_eq_sameOrigin_iff
  free _ h := ⟨(ofOrigins_eq_origins_iff.1 h).2.2, asterisk_not_mem_of_ofOrigins h⟩
  rearranged _ := kind_of_rearranged
  removed front _ back hlist hidle := by
    rw [hlist, ofOrigins_eq, ofOrigins_eq, usable_removed hidle]
  narrow hall origin answer hanswer := by
    cases hpolicy : ofOrigins list with
    | anyOrigin => exact absurd (ofOrigins_eq_anyOrigin_iff.1 hpolicy) hall
    | sameOrigin =>
      rw [hpolicy] at hanswer
      cases hanswer
    | origins selected =>
      rw [hpolicy, allowed?, Option.filter_eq_some_iff, List.contains_iff_mem,
        ← selects_iff.1 (ofOrigins_eq_origins_iff.1 hpolicy).2.1, usable, List.mem_filter,
        List.mem_map] at hanswer
      obtain ⟨horigin, ⟨entry, hentry, htrim⟩, -⟩ := hanswer
      exact ⟨horigin, entry, hentry, gives_iff.2 htrim⟩

end CorsPolicy

/-! ## The layer in front of the routes -/

/-- The ways to build the layer that adds the headers of a policy. The way from a list can crash, and
then there is no layer. -/
structure LayerParts (Layer : Type) where
  /-- Without a word about origins. -/
  plain : Layer
  any : Layer
  list? : List String → Option Layer

namespace LayerParts
variable {Layer : Type} {parts : LayerParts Layer}

/-- A list crashes if an asterisk is among its values, and only then. -/
def RefusesAsterisk (parts : LayerParts Layer) : Prop :=
  ∀ list, parts.list? list = none ↔ "*" ∈ list

def layer? (parts : LayerParts Layer) (policy : CorsPolicy) : Option Layer :=
  match policy with
  | .anyOrigin => some parts.any
  | .origins list => parts.list? list
  | .sameOrigin => some parts.plain

theorem layer?_ofOrigins (h : parts.RefusesAsterisk) (list : List String) :
    parts.layer? (.ofOrigins list) ≠ none := by
  cases hpolicy : CorsPolicy.ofOrigins list with
  | anyOrigin | sameOrigin => exact Option.some_ne_none _
  | origins selected => exact mt (h selected).1 (CorsPolicy.asterisk_not_mem_of_ofOrigins hpolicy)

theorem layer?_corsPolicy (h : parts.RefusesAsterisk) (line : CommandLine) :
    parts.layer? (Startup.corsPolicy line) ≠ none := by
  unfold Startup.corsPolicy
  cases line.corsOrigins with
  | none => exact Option.some_ne_none _
  | some origins => exact layer?_ofOrigins h origins

end LayerParts

end Http

theorem Startup.exists_line_of_serving {around : Surroundings} {args : List String} {assembly : Assembly}
    (h : (run around args).serving = some assembly) : ∃ line, assembly.cors = corsPolicy line := by
  rw [run] at h
  cases hread : CommandLine.read args around.environment with
  | error refusal =>
    rw [hread] at h
    cases h
  | ok line =>
    rw [hread] at h
    obtain ⟨-, handle, placeholders, -, -, -, -, rfl⟩ := serving_start_eq_some_iff.1 h
    exact ⟨line, rfl⟩

/-- Whatever origins a server is started with, exactly the entries decide who reads images, and the layer
with its headers is built. -/
theorem Startup.corsPolicy_followsEntries {Layer : Type} {parts : Http.LayerParts Layer}
    (hparts : parts.RefusesAsterisk) :
    (∀ list, Http.CorsPolicy.FollowsEntries list) ∧
      (∀ line, parts.layer? (corsPolicy line) ≠ none) ∧
      ∀ around args assembly, (run around args).serving = some assembly →
        parts.layer? assembly.cors ≠ none := by
  refine ⟨Http.CorsPolicy.followsEntries, Http.LayerParts.layer?_corsPolicy hparts, ?_⟩
  intro around args assembly hserving
  obtain ⟨line, hcors⟩ := exists_line_of_serving hserving
  rw [hcors]
  exact Http.LayerParts.layer?_corsPolicy hparts line

/-- A blank that is no space, a line break, and an asterisk that is only a part of its entry. -/
theorem Startup.corsPolicy_followsEntries_mixed :
    let parts : Http.LayerParts (Option (List String)) := {
      plain := some []
      any := none
      list? := fun list => if "*" ∈ list then none else some (some list) }
    let entries := ["\u3000", "bad\norigin", " https://ok.example\u00a0", "https://*"]
    let line : CommandLine := { corsOrigins := some entries }
    Http.CorsPolicy.FollowsEntries entries ∧ parts.layer? (corsPolicy line) ≠ none ∧
      corsPolicy line = .origins ["https://ok.example", "https://*"] := by
  intro parts entries line
  have hparts : parts.RefusesAsterisk := fun list => by
    show (if "*" ∈ list then none else some (some list)) = none ↔ "*" ∈ list
    simp
  obtain ⟨hentries, hlayer, -⟩ := corsPolicy_followsEntries hparts
  exact ⟨hentries entries, hlayer line, by decide⟩

end ImageGate
