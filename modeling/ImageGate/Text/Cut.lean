/-! Cutting a sequence at a separator: at every occurrence, at the first one, at the last one, or at
the last occurrence of a longer pattern. In each case putting the separator back between the parts
gives the sequence again. -/
namespace ImageGate.Text
set_option autoImplicit false

variable {α : Type} [DecidableEq α]

/-- The pieces between the separators; a sequence without a separator is one piece. -/
def pieces (sep : α) : List α → List (List α)
  | [] => [[]]
  | x :: xs =>
    if x = sep then [] :: pieces sep xs
    else
      match pieces sep xs with
      | [] => [[x]]
      | p :: ps => (x :: p) :: ps

def cutFirst (sep : α) : List α → Option (List α × List α)
  | [] => none
  | x :: xs => if x = sep then some ([], xs) else (cutFirst sep xs).map fun (a, b) => (x :: a, b)

def cutLast (sep : α) : List α → Option (List α × List α)
  | [] => none
  | x :: xs =>
    match cutLast sep xs with
    | some (a, b) => some (x :: a, b)
    | none => if x = sep then some ([], xs) else none

/-- What follows a leading `lead`. -/
def afterPrefix? : List α → List α → Option (List α)
  | [], xs => some xs
  | _ :: _, [] => none
  | l :: ls, x :: xs => if l = x then afterPrefix? ls xs else none

/-- What stands before a trailing `tail`. -/
def beforeSuffix? (tail xs : List α) : Option (List α) :=
  (afterPrefix? tail.reverse xs.reverse).map List.reverse

/-- Cuts at the last place where `pattern` occurs. -/
def cutLastOccurrence (pattern : List α) : List α → Option (List α × List α)
  | [] => none
  | x :: xs =>
    match cutLastOccurrence pattern xs with
    | some (a, b) => some (x :: a, b)
    | none => (afterPrefix? pattern (x :: xs)).map fun b => ([], b)

/-- Drops `c` from the end as often as it stands there. -/
def dropEndWhile (c : α) (xs : List α) : List α :=
  (xs.reverse.dropWhile (fun x => decide (x = c))).reverse

theorem pieces_ne_nil (sep : α) (xs : List α) : pieces sep xs ≠ [] := by
  cases xs with
  | nil => simp [pieces]
  | cons x xs =>
    simp only [pieces]
    split
    · simp
    · split <;> simp

theorem cutFirst_eq_some {sep : α} {xs a b : List α} (h : cutFirst sep xs = some (a, b)) :
    xs = a ++ sep :: b ∧ sep ∉ a := by
  induction xs generalizing a with
  | nil => simp [cutFirst] at h
  | cons x xs ih =>
    simp only [cutFirst] at h
    split at h
    · next hx => cases h; simp [hx]
    · next hx =>
      obtain ⟨⟨c, d⟩, hc, he⟩ := Option.map_eq_some_iff.1 h
      cases he
      obtain ⟨rfl, hn⟩ := ih hc
      simp [hn, Ne.symm hx]

theorem cutLast_eq_some {sep : α} {xs a b : List α} (h : cutLast sep xs = some (a, b)) :
    xs = a ++ sep :: b := by
  induction xs generalizing a with
  | nil => simp [cutLast] at h
  | cons x xs ih =>
    simp only [cutLast] at h
    split at h
    · next hc => cases h; simp [ih hc]
    · split at h
      · next hx => cases h; simp [hx]
      · simp at h

theorem afterPrefix?_eq_some {lead xs rest : List α} :
    afterPrefix? lead xs = some rest ↔ xs = lead ++ rest := by
  induction lead generalizing xs with
  | nil => simp [afterPrefix?, eq_comm]
  | cons l ls ih =>
    cases xs with
    | nil => simp [afterPrefix?]
    | cons x xs =>
      simp only [afterPrefix?]
      split
      · next h => simp [ih, h]
      · next h => simp [Ne.symm h]

end ImageGate.Text
