import Mathlib.Data.List.TakeWhile
import ImageGate.Proofs.Text.Cutting
import ImageGate.Proofs.Url.EncodedPath
import ImageGate.Backend.Address
import ImageGate.Url.Basic

/-! Reading an address below a base. When an address is made of a web address, a slash and a path,
its scheme, host and port are those of the base, and its path is resolved from the path of the base,
as it is written, followed by the path behind it. -/
namespace ImageGate.Url
open Text
set_option autoImplicit false

/-! ## Parts of lists -/

theorem dropWhile_append_of_ne {α : Type} {p : α → Bool} {xs : List α} (h : xs.dropWhile p ≠ [])
    (ys : List α) : (xs ++ ys).dropWhile p = xs.dropWhile p ++ ys := by
  rw [List.dropWhile_append, if_neg (by simpa using h)]

/-! ## Web addresses in parts -/

/-- Scheme, authority, and what follows it. -/
def cutWeb? (text : String) : Option (String × List Char × List Char) :=
  (cutScheme? (significant text)).map fun (scheme, rest) =>
    let located := rest.dropWhile (isSlash .web)
    (scheme, located.takeWhile fun c => !endsAuthority .web c,
      located.dropWhile fun c => !endsAuthority .web c)

/-- Host and port of an authority. -/
def readNamed (authority : List Char) : Except UrlFault (Option Host × Option Nat) :=
  let (user, address) := (cutLast '@' authority).getD ([], authority)
  readHostAndPort .web (hasCredentials user) address

theorem readHostAndPort_nil (isNamed : Bool) :
    readHostAndPort .web isNamed [] = .error .emptyHost := rfl

/-- Without an address there is no host, whatever follows. -/
theorem readAuthority_web (scheme : String) (cs : List Char) :
    readAuthority scheme .web cs
      = (readNamed (cs.takeWhile fun c => !endsAuthority .web c)).map fun (host, port) =>
        let tail := cs.dropWhile fun c => !endsAuthority .web c
        { scheme, host, port := port.filter fun n => some n ≠ defaultPort? scheme
          path := (pathAndQuery .web tail).1, query := (pathAndQuery .web tail).2 } := by
  dsimp only [readAuthority, readNamed]
  generalize (cutLast '@' (cs.takeWhile fun c => !endsAuthority .web c)).getD
    ([], cs.takeWhile fun c => !endsAuthority .web c) = parts
  obtain ⟨user, address⟩ := parts
  cases address with
  | nil =>
    simp only [readHostAndPort_nil]
    split <;> rfl
  | cons c address =>
    simp only [List.isEmpty_cons, Bool.and_false, Bool.false_and, Bool.false_eq_true, if_false]
    cases readHostAndPort .web (hasCredentials user) (c :: address) <;> rfl

theorem read_of_cutWeb? {text scheme : String} {authority tail : List Char}
    (h : cutWeb? text = some (scheme, authority, tail)) (hweb : SchemeKind.ofScheme scheme = .web) :
    read text = (readNamed authority).map fun (host, port) =>
      { scheme, host, port := port.filter fun n => some n ≠ defaultPort? scheme
        path := (pathAndQuery .web tail).1, query := (pathAndQuery .web tail).2 } := by
  unfold cutWeb? at h
  obtain ⟨⟨other, rest⟩, hcut, hparts⟩ := Option.map_eq_some_iff.1 h
  simp only [Prod.mk.injEq] at hparts
  obtain ⟨rfl, rfl, rfl⟩ := hparts
  simp only [read, hcut, hweb, readAuthority_web]

theorem scheme_of_readAuthority {scheme : String} {kind : SchemeKind} {cs : List Char} {url : Url}
    (h : readAuthority scheme kind cs = .ok url) : url.scheme = scheme := by
  dsimp only [readAuthority] at h
  generalize (cutLast '@' (cs.takeWhile fun c => !endsAuthority kind c)).getD
    ([], cs.takeWhile fun c => !endsAuthority kind c) = parts at h
  obtain ⟨user, address⟩ := parts
  dsimp only at h
  split at h
  · cases h
  · cases hread : readHostAndPort kind (hasCredentials user) address with
    | error fault =>
      rw [hread] at h
      cases h
    | ok found =>
      rw [hread] at h
      cases h
      rfl

theorem scheme_of_readOther {scheme : String} {cs : List Char} {url : Url}
    (h : readOther scheme cs = .ok url) : url.scheme = scheme := by
  unfold readOther at h
  split at h
  · exact scheme_of_readAuthority h
  · cases h
    rfl
  · dsimp only at h
    split at h
    · cases h
      rfl
    · cases h
      rfl

theorem scheme_of_readFile {cs : List Char} {url : Url} (h : readFile cs = .ok url) :
    url.scheme = "file" := by
  dsimp only [readFile] at h
  split at h
  · next a b rest =>
    split at h
    · split at h
      · cases h
        rfl
      · cases hread : Host.read (rest.takeWhile fun c => !endsAuthority .file c) with
        | error fault =>
          rw [hread] at h
          cases h
        | ok host =>
          rw [hread] at h
          cases h
          rfl
    · cases h
      rfl
  · cases h
    rfl

/-- Only a scheme of the web is read as one. -/
theorem exists_cutScheme?_of_web {text : String} {url : Url} (h : read text = .ok url)
    (hweb : SchemeKind.ofScheme url.scheme = .web) :
    ∃ rest, cutScheme? (significant text) = some (url.scheme, rest) := by
  unfold read at h
  split at h
  · cases h
  · next scheme rest hcut =>
    split at h
    · rw [scheme_of_readFile h] at hweb
      exact absurd hweb (by decide)
    · rw [scheme_of_readAuthority h]
      exact ⟨rest, hcut⟩
    · rw [scheme_of_readOther h]
      exact ⟨rest, hcut⟩

/-! ## Ends that do not count -/

theorem isTrimmed_of_isBreak {c : Char} (h : isBreak c = true) : isTrimmed c = true := by
  simp only [isBreak, Bool.or_eq_true, beq_iff_eq] at h
  rcases h with (rfl | rfl) | rfl <;> decide

/-- Nothing is dropped at the end. -/
def EndsVisibly (cs : List Char) : Prop := ∀ c ∈ cs.getLast?, isTrimmed c = false

instance (cs : List Char) : Decidable (EndsVisibly cs) :=
  decidable_of_iff ((cs.getLast?.all fun c => !isTrimmed c) = true) (by
    unfold EndsVisibly
    cases cs.getLast? <;> simp)

theorem EndsVisibly.of_append {front back : List Char} (h : EndsVisibly (front ++ back)) :
    EndsVisibly back := by
  intro c hc
  refine h c ?_
  rw [List.getLast?_append, hc]
  rfl

theorem endsVisibly_append {front back : List Char} (hback : ∀ c ∈ back, isTrimmed c = false)
    (h : back ≠ [] ∨ EndsVisibly front) : EndsVisibly (front ++ back) := by
  intro c hc
  rw [List.getLast?_append, Option.mem_def, Option.or_eq_some_iff] at hc
  rcases hc with hc | ⟨hnone, hc⟩
  · exact hback c (List.mem_of_getLast? hc)
  · exact h.elim (fun hne => absurd (List.getLast?_eq_none_iff.1 hnone) hne) fun hfront => hfront c hc

theorem reverse_dropWhile_reverse {cs : List Char} (h : EndsVisibly cs) :
    (cs.reverse.dropWhile isTrimmed).reverse = cs := by
  rcases List.eq_nil_or_concat cs with rfl | ⟨front, c, rfl⟩
  · rfl
  · rw [List.concat_eq_append] at h ⊢
    have hc : isTrimmed c = false := h c (by simp)
    simp [hc]

theorem significant_eq {text : String} (h : EndsVisibly text.toList) :
    significant text = (text.toList.dropWhile isTrimmed).filter fun c => !isBreak c := by
  obtain ⟨front, hfront⟩ := List.dropWhile_suffix isTrimmed (l := text.toList)
  have hsuffix : EndsVisibly (text.toList.dropWhile isTrimmed) :=
    EndsVisibly.of_append (by rw [hfront]; exact h)
  rw [significant, reverse_dropWhile_reverse hsuffix]

/-- What stands behind a text that is not all blank counts in full. -/
theorem significant_append {front back : String} (hfront : front.toList.dropWhile isTrimmed ≠ [])
    (hback : ∀ c ∈ back.toList, isTrimmed c = false)
    (hlast : EndsVisibly (front ++ back).toList) :
    significant (front ++ back)
      = ((front.toList.dropWhile isTrimmed).filter fun c => !isBreak c) ++ back.toList := by
  have hbreak : back.toList.filter (fun c => !isBreak c) = back.toList := by
    rw [List.filter_eq_self]
    intro c hc
    rw [Bool.not_eq_true', Bool.eq_false_iff]
    intro hb
    exact Bool.false_ne_true ((hback c hc).symm.trans (isTrimmed_of_isBreak hb))
  rw [significant_eq hlast, String.toList_append, dropWhile_append_of_ne hfront, List.filter_append,
    hbreak]

/-! ## The parts of an address below a base -/

theorem cutScheme?_append {front marks rest : List Char} {scheme : String} (hmarks : ':' ∉ marks)
    (h : cutScheme? (front ++ marks) = some (scheme, rest)) :
    ∃ behind, rest = behind ++ marks ∧
      ∀ back, cutScheme? (front ++ back) = some (scheme, behind ++ back) := by
  unfold cutScheme? at h
  split at h
  · next c name rest' hcut =>
    obtain ⟨behind, hbehind, hback⟩ := cutFirst_append hmarks hcut
    split at h
    · next hname =>
      simp only [Option.some.injEq, Prod.mk.injEq] at h
      refine ⟨behind, h.2 ▸ hbehind, fun back => ?_⟩
      unfold cutScheme?
      rw [hback back]
      simp only [hname, if_true, h.1]
    · cases h
  · cases h

theorem exists_of_cutScheme? {cs rest : List Char} {scheme : String}
    (h : cutScheme? cs = some (scheme, rest)) : ∃ name, cs = name ++ ':' :: rest := by
  unfold cutScheme? at h
  split at h
  · next c name behind hcut =>
    split at h
    · simp only [Option.some.injEq, Prod.mk.injEq] at h
      exact ⟨c :: name, h.2 ▸ (cutFirst_eq_some hcut).1⟩
    · cases h
  · cases h

theorem mem_of_mem_significant {text : String} {c : Char} (h : c ∈ significant text) :
    c ∈ text.toList := by
  unfold significant at h
  have hc := (List.mem_filter.1 h).1
  rw [List.mem_reverse] at hc
  have hc := (List.dropWhile_suffix isTrimmed).subset hc
  rw [List.mem_reverse] at hc
  exact (List.dropWhile_suffix isTrimmed).subset hc

theorem withoutEndSlashes_append (base : String) :
    ∃ k, base = withoutEndSlashes base ++ String.ofList (List.replicate k '/') := by
  obtain ⟨k, hk⟩ := exists_dropEndWhile '/' base.toList
  refine ⟨k, ?_⟩
  rw [← String.toList_inj, String.toList_append, withoutEndSlashes, String.toList_ofList,
    String.toList_ofList]
  exact hk

theorem dropWhile_replicate_slash (k : Nat) :
    (List.replicate k '/').dropWhile (isSlash .web) = [] := by
  rw [List.dropWhile_eq_nil_iff]
  intro c hc
  rw [List.eq_of_mem_replicate hc]
  rfl

theorem cutWeb?_of_cutScheme? {text scheme : String} {behind back : List Char}
    (hcut : cutScheme? (significant text) = some (scheme, behind ++ back))
    (hlocated : behind.dropWhile (isSlash .web) ≠ [])
    (hback : ∀ c ∈ back.head?, endsAuthority .web c = true) :
    cutWeb? text = some (scheme,
      (behind.dropWhile (isSlash .web)).takeWhile fun c => !endsAuthority .web c,
      ((behind.dropWhile (isSlash .web)).dropWhile fun c => !endsAuthority .web c) ++ back) := by
  have hstop : ∀ c ∈ back.head?, (!endsAuthority .web c) = false := by
    intro c hc
    rw [hback c hc]
    rfl
  obtain ⟨htake, hdrop⟩ := span_append hstop (behind.dropWhile (isSlash .web))
  rw [cutWeb?, hcut, Option.map_some]
  simp only [dropWhile_append_of_ne hlocated, htake, hdrop]

/-- A web address has an authority behind its slashes. -/
theorem located_ne_nil {text : String} {url : Url} {rest : List Char} (hread : read text = .ok url)
    (hweb : SchemeKind.ofScheme url.scheme = .web)
    (hcut : cutScheme? (significant text) = some (url.scheme, rest)) :
    rest.dropWhile (isSlash .web) ≠ [] := by
  intro hempty
  have hparts : cutWeb? text = some (url.scheme, [], []) := by
    rw [cutWeb?, hcut, Option.map_some]
    simp only [hempty, List.takeWhile_nil, List.dropWhile_nil]
  rw [read_of_cutWeb? hparts hweb] at hread
  cases hread

/-- What stands in the place of the last slashes does not change the scheme. -/
theorem exists_cutScheme?_append {front : String} {k : Nat} {url : Url}
    (hread : read (front ++ String.ofList (List.replicate k '/')) = .ok url)
    (hweb : SchemeKind.ofScheme url.scheme = .web)
    (hlast : EndsVisibly (front ++ String.ofList (List.replicate k '/')).toList) :
    ∃ behind, behind.dropWhile (isSlash .web) ≠ [] ∧
      cutScheme? (significant (front ++ String.ofList (List.replicate k '/')))
        = some (url.scheme, behind ++ List.replicate k '/') ∧
      ∀ back : String, (∀ c ∈ back.toList, isTrimmed c = false) →
        EndsVisibly (front ++ back).toList →
          cutScheme? (significant (front ++ back)) = some (url.scheme, behind ++ back.toList) := by
  obtain ⟨rest, hcut⟩ := exists_cutScheme?_of_web hread hweb
  have hslash : ∀ c ∈ List.replicate k '/', c = '/' := fun c => List.eq_of_mem_replicate
  have hslashes : ∀ c ∈ (String.ofList (List.replicate k '/')).toList, isTrimmed c = false := by
    intro c hc
    rw [String.toList_ofList] at hc
    rw [hslash c hc]
    rfl
  have hcolon : ':' ∉ List.replicate k '/' := fun h => absurd (hslash _ h) (by decide)
  have hfront : front.toList.dropWhile isTrimmed ≠ [] := by
    obtain ⟨name, hname⟩ := exists_of_cutScheme? hcut
    have hmem : ':' ∈ (front ++ String.ofList (List.replicate k '/')).toList :=
      mem_of_mem_significant (by rw [hname]; simp)
    rw [String.toList_append, String.toList_ofList, List.mem_append] at hmem
    exact List.ne_nil_of_mem (mem_dropWhile_of_not (hmem.resolve_right hcolon) (by decide))
  have hsignificant := significant_append hfront hslashes hlast
  rw [String.toList_ofList] at hsignificant
  have hfound := hcut
  rw [hsignificant] at hfound
  obtain ⟨behind, rfl, hbehind⟩ := cutScheme?_append hcolon hfound
  refine ⟨behind, fun hempty => ?_, hcut, fun back hback hend => ?_⟩
  · refine located_ne_nil hread hweb hcut ?_
    rw [List.dropWhile_append, hempty, dropWhile_replicate_slash, List.isEmpty_nil, if_pos rfl]
  · rw [significant_append hfront hback hend, hbehind]

/-- An address below a base has the scheme and the authority of the base, and whatever follows them
in the base up to its last slashes, then a slash and the rest. -/
theorem exists_cutWeb? {base : String} {url : Url} (hread : read base = .ok url)
    (hweb : SchemeKind.ofScheme url.scheme = .web)
    (hlast : EndsVisibly base.toList) :
    ∃ authority tail k, cutWeb? base = some (url.scheme, authority, tail ++ List.replicate k '/') ∧
      (∀ c ∈ tail, c ∈ base.toList) ∧ (∀ c ∈ tail.head?, endsAuthority .web c = true) ∧
      ∀ back : String, (∀ c ∈ back.toList, isTrimmed c = false) →
        cutWeb? (withoutEndSlashes base ++ "/" ++ back)
          = some (url.scheme, authority, tail ++ '/' :: back.toList) := by
  obtain ⟨k, hbase⟩ := withoutEndSlashes_append base
  generalize withoutEndSlashes base = front at hbase ⊢
  subst hbase
  obtain ⟨behind, hlocated, hcut, hbehind⟩ := exists_cutScheme?_append hread hweb hlast
  refine ⟨_, _, k, cutWeb?_of_cutScheme? hcut hlocated ?_, ?_, ?_, ?_⟩
  · intro c hc
    rw [List.eq_of_mem_replicate (List.mem_of_head? hc)]
    rfl
  · intro c hc
    have hmem := (List.dropWhile_suffix _).subset ((List.dropWhile_suffix _).subset hc)
    obtain ⟨name, hname⟩ := exists_of_cutScheme? hcut
    refine mem_of_mem_significant ?_
    rw [hname]
    simp [hmem]
  · intro c hc
    have hfind := (List.find?_eq_head?_dropWhile_not (endsAuthority .web)
      (behind.dropWhile (isSlash .web))).trans hc
    exact List.find?_some hfind
  · intro back hback
    have hwhole : ∀ c ∈ ("/" ++ back).toList, isTrimmed c = false := by
      intro c hc
      rw [String.toList_append, List.mem_append] at hc
      rcases hc with hc | hc
      · rw [List.mem_singleton.1 hc]
        rfl
      · exact hback c hc
    have hend : EndsVisibly (front ++ ("/" ++ back)).toList := by
      rw [String.toList_append]
      exact endsVisibly_append hwhole (.inl (by simp))
    have hlist : ("/" ++ back).toList = '/' :: back.toList := by
      rw [String.toList_append]
      rfl
    have hcutBelow := hbehind ("/" ++ back) hwhole hend
    rw [hlist] at hcutBelow
    rw [String.append_assoc]
    refine cutWeb?_of_cutScheme? hcutBelow hlocated ?_
    intro c hc
    cases hc
    rfl

/-! ## Paths -/

/-- Every backslash of a web address is a slash. -/
def slashed (cs : List Char) : List Char := cs.map fun c => if isSlash .web c then '/' else c

theorem slashed_append (xs ys : List Char) : slashed (xs ++ ys) = slashed xs ++ slashed ys :=
  List.map_append

theorem slashed_of_not_mem {cs : List Char} (h : '\\' ∉ cs) : slashed cs = cs := by
  have hsame : ∀ c ∈ cs, (if isSlash .web c then '/' else c) = c := by
    intro c hc
    split
    · next hslash =>
      have hback : c ≠ '\\' := fun he => h (he ▸ hc)
      simp only [isSlash, Bool.or_eq_true, Bool.and_eq_true, beq_iff_eq] at hslash
      exact (hslash.resolve_right fun hb => hback hb.2).symm
    · rfl
  rw [slashed, List.map_congr_left hsame, List.map_id']

/-- The slash of the root is no separator. -/
def afterRoot (cs : List Char) : List Char :=
  match cs with
  | '/' :: rest => rest
  | _ => cs

theorem pathAndQuery_fst {path rest : List Char} (hquery : '?' ∉ path) (hfragment : '#' ∉ path)
    (hrest : rest = [] ∨ ∃ query, rest = '?' :: query) :
    (pathAndQuery .web (path ++ rest)).1
      = encoded isPathKept (resolvedPath (afterRoot (slashed path))) := by
  have hwhole : path.takeWhile (· != '#') = path := by
    rw [List.takeWhile_eq_self_iff]
    intro c hc
    rw [bne_iff_ne]
    rintro rfl
    exact hfragment hc
  have hspan : (path ++ rest).takeWhile (· != '#') = path ++ rest.takeWhile (· != '#') := by
    rw [List.takeWhile_append, hwhole, if_pos rfl]
  have hspecial : (!SchemeKind.web.isSpecial) = false := rfl
  rcases hrest with rfl | ⟨query, rfl⟩
  · rw [List.append_nil, pathAndQuery, hwhole, cutFirst_of_not_mem hquery]
    simp only [hspecial, Bool.and_false, Bool.false_eq_true, if_false]
    rfl
  · have htake : ('?' :: query).takeWhile (· != '#') = '?' :: query.takeWhile (· != '#') := rfl
    rw [pathAndQuery, hspan, htake, cutFirst_append_cons hquery]
    simp only [hspecial, Bool.and_false, Bool.false_eq_true, if_false]
    rfl

/-- The path as it is written, of an address without query and fragment. -/
def writtenPath (text : String) : List Char :=
  match cutWeb? text with
  | some (_, _, tail) => slashed tail
  | none => []

/-- What a web address is read as when its path ends before a query or at the end. -/
theorem exists_read_of_cutWeb? {text scheme : String} {authority path rest : List Char}
    (hcut : cutWeb? text = some (scheme, authority, path ++ rest))
    (hweb : SchemeKind.ofScheme scheme = .web) (hquery : '?' ∉ path) (hfragment : '#' ∉ path)
    (hrest : rest = [] ∨ ∃ query, rest = '?' :: query) :
    ∃ query, read text = (readNamed authority).map fun (host, port) =>
      { scheme, host, port := port.filter fun n => some n ≠ defaultPort? scheme
        path := encoded isPathKept (resolvedPath (afterRoot (slashed path))), query } := by
  have hread := read_of_cutWeb? hcut hweb
  rw [pathAndQuery_fst hquery hfragment hrest] at hread
  exact ⟨_, hread⟩

end ImageGate.Url
