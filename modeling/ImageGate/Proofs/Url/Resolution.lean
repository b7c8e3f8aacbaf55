import ImageGate.Proofs.Text.Cutting
import ImageGate.Url.Path

/-! Dot segments below a base. A path that is appended to a base without dot segments of its own is
resolved below that base exactly as it is resolved alone, as long as it never climbs above its
start; once it does, the last folder of the base is gone for good. -/
namespace ImageGate.Url
open Text
set_option autoImplicit false

/-! ## Climbing -/

/-- Whether a walk through these folders leaves the one where it started `depth` folders up. -/
def climbs {α : Type} (isUp isHere : α → Bool) : Nat → List α → Bool
  | _, [] => false
  | depth, folder :: rest =>
    if isUp folder then depth == 0 || climbs isUp isHere (depth - 1) rest
    else if isHere folder then climbs isUp isHere depth rest
    else climbs isUp isHere (depth + 1) rest

theorem climbs_map {α β : Type} (f : α → β) (isUp isHere : β → Bool) (depth : Nat)
    (folders : List α) :
    climbs isUp isHere depth (folders.map f)
      = climbs (fun a => isUp (f a)) (fun a => isHere (f a)) depth folders := by
  induction folders generalizing depth with
  | nil => rfl
  | cons folder rest ih => simp only [List.map_cons, climbs, ih]

/-- Folders below the last step up make no difference. -/
theorem climbs_append {α : Type} {isUp : α → Bool} {below : List α}
    (h : ∀ folder ∈ below, isUp folder = false) (isHere : α → Bool) (depth : Nat)
    (folders : List α) :
    climbs isUp isHere depth (folders ++ below) = climbs isUp isHere depth folders := by
  induction folders generalizing depth with
  | nil =>
    induction below generalizing depth with
    | nil => rfl
    | cons folder rest ih =>
      have hrest := ih fun f hf => h f (List.mem_cons_of_mem _ hf)
      rw [List.nil_append] at hrest ⊢
      simp only [climbs, h folder List.mem_cons_self, hrest, Bool.false_eq_true, if_false, ite_self]
  | cons folder rest ih => simp only [List.cons_append, climbs, ih]

/-- The walk through the segments of a path. -/
def climbsFrom (depth : Nat) (segments : List (List Char)) : Bool :=
  climbs isDoubleDot isSingleDot depth segments

/-! ## One segment -/

/-- What a dot segment leaves on the stack: behind the last segment the path ends in a slash. -/
def closed (rest stack : List (List Char)) : List (List Char) :=
  if rest.isEmpty then [] :: stack else stack

section Step
variable {segment : List Char} (done rest : List (List Char))

theorem resolveFrom_up (h : isDoubleDot segment = true) :
    resolveFrom done (segment :: rest) = resolveFrom (closed rest done.tail) rest := by
  rw [resolveFrom, if_pos h, closed]

theorem resolveFrom_here (hup : isDoubleDot segment = false) (h : isSingleDot segment = true) :
    resolveFrom done (segment :: rest) = resolveFrom (closed rest done) rest := by
  simp only [resolveFrom, hup, h, Bool.false_eq_true, if_false, if_true, closed]

theorem resolveFrom_folder (hup : isDoubleDot segment = false) (h : isSingleDot segment = false) :
    resolveFrom done (segment :: rest) = resolveFrom (segment :: done) rest := by
  simp only [resolveFrom, hup, h, Bool.false_eq_true, if_false]

end Step

/-- The three kinds of segment. -/
theorem segment_cases (segment : List Char) :
    isDoubleDot segment = true ∨ isDoubleDot segment = false ∧ isSingleDot segment = true ∨
      isDoubleDot segment = false ∧ isSingleDot segment = false := by
  cases isDoubleDot segment <;> cases isSingleDot segment <;> simp

/-! ## Resolution below a base -/

theorem resolveFrom_append {segments done : List (List Char)}
    (h : climbsFrom done.length segments = false) (below : List (List Char)) :
    resolveFrom (done ++ below) segments = below.reverse ++ resolveFrom done segments := by
  induction segments generalizing done with
  | nil => simp [resolveFrom]
  | cons segment rest ih =>
    have hclosed : ∀ stack : List (List Char), climbsFrom stack.length rest = false →
        resolveFrom (closed rest (stack ++ below)) rest
          = below.reverse ++ resolveFrom (closed rest stack) rest := by
      intro stack hstack
      cases rest with
      | nil =>
        have hended : climbsFrom ([] :: stack).length [] = false := rfl
        exact ih hended
      | cons next rest => exact ih hstack
    rcases segment_cases segment with hup | ⟨hup, hhere⟩ | ⟨hup, hfolder⟩
    · cases done with
      | nil => simp [climbsFrom, climbs, hup] at h
      | cons folder done =>
        simp only [climbsFrom, climbs, hup, if_true, Bool.or_eq_false_iff] at h
        rw [resolveFrom_up _ _ hup, resolveFrom_up _ _ hup]
        exact hclosed done h.2
    · simp only [climbsFrom, climbs, hup, hhere, Bool.false_eq_true, if_false, if_true] at h
      rw [resolveFrom_here _ _ hup hhere, resolveFrom_here _ _ hup hhere]
      exact hclosed done h
    · simp only [climbsFrom, climbs, hup, hfolder, Bool.false_eq_true, if_false] at h
      rw [resolveFrom_folder _ _ hup hfolder, resolveFrom_folder _ _ hup hfolder]
      have hrest : climbsFrom (segment :: done).length rest = false := h
      exact ih hrest

/-- Neither one nor two dots. -/
def IsPlainSegment (segment : List Char) : Prop :=
  isSingleDot segment = false ∧ isDoubleDot segment = false

instance (segment : List Char) : Decidable (IsPlainSegment segment) :=
  inferInstanceAs (Decidable (_ ∧ _))

theorem resolveFrom_plain {front : List (List Char)} (h : ∀ segment ∈ front, IsPlainSegment segment)
    (done rest : List (List Char)) :
    resolveFrom done (front ++ rest) = resolveFrom (front.reverse ++ done) rest := by
  induction front generalizing done with
  | nil => rfl
  | cons segment front ih =>
    obtain ⟨hhere, hup⟩ := h segment List.mem_cons_self
    rw [List.cons_append, resolveFrom_folder _ _ hup hhere,
      ih fun s hs => h s (List.mem_cons_of_mem _ hs)]
    simp

theorem resolve_append {front rest : List (List Char)}
    (hfront : ∀ segment ∈ front, IsPlainSegment segment) (hrest : climbsFrom 0 rest = false) :
    resolve (front ++ rest) = front ++ resolve rest := by
  have hstart : climbsFrom ([] : List (List Char)).length rest = false := hrest
  have hbelow := resolveFrom_append hstart front.reverse
  rw [List.nil_append, List.reverse_reverse] at hbelow
  rw [resolve, resolveFrom_plain hfront, List.append_nil, hbelow, resolve]

theorem resolve_plain {front : List (List Char)}
    (hfront : ∀ segment ∈ front, IsPlainSegment segment) : resolve front = front := by
  have hnothing : climbsFrom 0 [] = false := rfl
  have h := resolve_append hfront hnothing
  simpa [resolve, resolveFrom] using h

theorem resolvedPath_append {front rest : List Char}
    (hfront : ∀ segment ∈ pieces '/' front, IsPlainSegment segment)
    (hrest : climbsFrom 0 (pieces '/' rest) = false) :
    resolvedPath (front ++ '/' :: rest) = '/' :: front ++ resolvedPath rest := by
  rw [resolvedPath, pieces_append_cons, resolve_append hfront hrest, List.flatMap_append,
    flatMap_pieces]
  rfl

theorem resolvedPath_plain {front : List Char}
    (hfront : ∀ segment ∈ pieces '/' front, IsPlainSegment segment) :
    resolvedPath front = '/' :: front := by
  rw [resolvedPath, resolve_plain hfront, flatMap_pieces]

theorem resolveFrom_ne_nil {segments done : List (List Char)} (h : done ≠ [] ∨ segments ≠ []) :
    resolveFrom done segments ≠ [] := by
  induction segments generalizing done with
  | nil => simpa [resolveFrom] using h
  | cons segment rest ih =>
    have hclosed : ∀ stack : List (List Char), closed rest stack ≠ [] ∨ rest ≠ [] := by
      intro stack
      cases rest with
      | nil => exact .inl (List.cons_ne_nil _ _)
      | cons next rest => exact .inr (List.cons_ne_nil _ _)
    rcases segment_cases segment with hup | ⟨hup, hhere⟩ | ⟨hup, hfolder⟩
    · rw [resolveFrom_up _ _ hup]
      exact ih (hclosed done.tail)
    · rw [resolveFrom_here _ _ hup hhere]
      exact ih (hclosed done)
    · rw [resolveFrom_folder _ _ hup hfolder]
      exact ih (.inl (List.cons_ne_nil _ _))

theorem exists_resolvedPath (cs : List Char) : ∃ rest, resolvedPath cs = '/' :: rest := by
  have hne : resolve (pieces '/' cs) ≠ [] := resolveFrom_ne_nil (.inr (pieces_ne_nil '/' cs))
  obtain ⟨first, rest, h⟩ := List.exists_cons_of_ne_nil hne
  exact ⟨_, by rw [resolvedPath, h, List.flatMap_cons, List.cons_append]⟩

/-! ## Resolution above a base -/

theorem mem_closed {rest stack : List (List Char)} {s : List Char} (h : s ∈ closed rest stack) :
    s ∈ stack ∨ s = [] := by
  unfold closed at h
  split at h
  · exact (List.mem_cons.1 h).symm
  · exact .inl h

theorem mem_resolveFrom {segments done : List (List Char)} {s : List Char}
    (h : s ∈ resolveFrom done segments) : s ∈ done ∨ s ∈ segments ∨ s = [] := by
  induction segments generalizing done with
  | nil => exact .inl (by simpa [resolveFrom] using h)
  | cons segment rest ih =>
    have hclosed : ∀ stack : List (List Char), (∀ t ∈ stack, t ∈ done) →
        s ∈ resolveFrom (closed rest stack) rest → s ∈ done ∨ s ∈ segment :: rest ∨ s = [] := by
      intro stack hstack hs
      rcases ih hs with hs | hs | hs
      · exact (mem_closed hs).imp (hstack s) .inr
      · exact .inr (.inl (List.mem_cons_of_mem _ hs))
      · exact .inr (.inr hs)
    rcases segment_cases segment with hup | ⟨hup, hhere⟩ | ⟨hup, hfolder⟩
    · rw [resolveFrom_up _ _ hup] at h
      exact hclosed done.tail (fun t => List.mem_of_mem_tail) h
    · rw [resolveFrom_here _ _ hup hhere] at h
      exact hclosed done (fun t ht => ht) h
    · rw [resolveFrom_folder _ _ hup hfolder] at h
      rcases ih h with h | h | h
      · rcases List.mem_cons.1 h with rfl | h
        · exact .inr (.inl List.mem_cons_self)
        · exact .inl h
      · exact .inr (.inl (List.mem_cons_of_mem _ h))
      · exact .inr (.inr h)

/-- The walk above the start takes the one folder of the base away, and nothing brings it back. -/
theorem mem_resolveFrom_of_climbs {segments done : List (List Char)} {base s : List Char}
    (hclimbs : climbsFrom done.length segments = true)
    (h : s ∈ resolveFrom (done ++ [base]) segments) : s ∈ done ∨ s ∈ segments ∨ s = [] := by
  induction segments generalizing done with
  | nil => cases hclimbs
  | cons segment rest ih =>
    have hlater : ∀ later : List (List Char), (∀ t ∈ later, t ∈ done ∨ t = segment) →
        climbsFrom later.length rest = true →
        s ∈ resolveFrom (later ++ [base]) rest → s ∈ done ∨ s ∈ segment :: rest ∨ s = [] := by
      intro later hsub hrest hs
      rcases ih hrest hs with hs | hs | hs
      · rcases hsub s hs with hs | rfl
        · exact .inl hs
        · exact .inr (.inl List.mem_cons_self)
      · exact .inr (.inl (List.mem_cons_of_mem _ hs))
      · exact .inr (.inr hs)
    -- The last segment cannot be followed by one that still climbs.
    have hclosed : ∀ later : List (List Char), climbsFrom later.length rest = true →
        closed rest (later ++ [base]) = later ++ [base] := by
      intro later hrest
      cases rest with
      | nil => cases hrest
      | cons next rest => rfl
    rcases segment_cases segment with hup | ⟨hup, hhere⟩ | ⟨hup, hfolder⟩
    · rw [resolveFrom_up _ _ hup] at h
      cases done with
      | nil =>
        rcases mem_resolveFrom h with h | h | h
        · exact (mem_closed h).elim (fun hs => absurd hs List.not_mem_nil) (fun hs => .inr (.inr hs))
        · exact .inr (.inl (List.mem_cons_of_mem _ h))
        · exact .inr (.inr h)
      | cons folder done =>
        simp only [climbsFrom, climbs, hup, if_true, Bool.or_eq_true] at hclimbs
        have hrest : climbsFrom done.length rest = true := hclimbs.resolve_left (by simp)
        rw [List.cons_append, List.tail_cons, hclosed done hrest] at h
        exact hlater done (fun t ht => .inl (List.mem_cons_of_mem _ ht)) hrest h
    · simp only [climbsFrom, climbs, hup, hhere, Bool.false_eq_true, if_false, if_true] at hclimbs
      rw [resolveFrom_here _ _ hup hhere, hclosed done hclimbs] at h
      exact hlater done (fun t ht => .inl ht) hclimbs h
    · simp only [climbsFrom, climbs, hup, hfolder, Bool.false_eq_true, if_false] at hclimbs
      rw [resolveFrom_folder _ _ hup hfolder] at h
      refine hlater (segment :: done) (fun t ht => ?_) hclimbs h
      exact (List.mem_cons.1 ht).symm

/-- Below one folder, a path that climbs leaves nothing but segments of its own. -/
theorem mem_pieces_resolvedPath_of_climbs {folder path s : List Char} (hslash : '/' ∉ folder)
    (hplain : IsPlainSegment folder) (hclimbs : climbsFrom 0 (pieces '/' path) = true)
    (h : s ∈ pieces '/' (resolvedPath (folder ++ '/' :: path))) :
    s ∈ pieces '/' path ∨ s = [] := by
  have hresolve : resolve (pieces '/' (folder ++ '/' :: path))
      = resolveFrom [folder] (pieces '/' path) := by
    have hfront : ∀ segment ∈ [folder], IsPlainSegment segment := by simpa using hplain
    rw [pieces_append_cons, pieces_of_not_mem hslash, resolve, resolveFrom_plain hfront]
    rfl
  have hmem : ∀ t ∈ resolveFrom [folder] (pieces '/' path), t ∈ pieces '/' path ∨ t = [] := by
    intro t ht
    have hstart : climbsFrom ([] : List (List Char)).length (pieces '/' path) = true := hclimbs
    exact (mem_resolveFrom_of_climbs hstart ht).resolve_left List.not_mem_nil
  have hfree : ∀ t ∈ resolveFrom [folder] (pieces '/' path), '/' ∉ t := by
    intro t ht
    rcases hmem t ht with ht | rfl
    · exact not_mem_of_mem_pieces ht
    · exact List.not_mem_nil
  rw [resolvedPath, hresolve, pieces_flatMap_cons hfree, List.mem_cons] at h
  exact h.elim .inr (hmem s)

end ImageGate.Url
