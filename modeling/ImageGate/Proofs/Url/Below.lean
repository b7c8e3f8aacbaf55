import ImageGate.Proofs.Url.Reading

/-! Below a base. An address that is made of a base, a slash and a path is read as one below the base
whenever the path does not climb above its start; of a path that climbs, some base is left. -/
namespace ImageGate.Url
open Text Percent
set_option autoImplicit false

/-! ## Bases -/

/-- A web address without query and fragment that ends in what counts and whose path has no dot
segments of its own. -/
structure IsBase (base : String) (url : Url) : Prop where
  read : Url.read base = .ok url
  web : SchemeKind.ofScheme url.scheme = .web
  query : '?' ∉ base.toList
  fragment : '#' ∉ base.toList
  last : EndsVisibly base.toList
  plain : ∀ segment ∈ pieces '/' (writtenPath base), IsPlainSegment segment

theorem mem_pieces_afterRoot {cs segment : List Char} (h : segment ∈ pieces '/' (afterRoot cs)) :
    segment ∈ pieces '/' cs := by
  unfold afterRoot at h
  split at h
  · rw [pieces, if_pos rfl]
    exact List.mem_cons_of_mem _ h
  · exact h

theorem mem_pieces_of_append_replicate {sep : Char} {cs segment : List Char} {k : Nat}
    (h : segment ∈ pieces sep cs) : segment ∈ pieces sep (cs ++ List.replicate k sep) := by
  cases k with
  | zero => simpa using h
  | succ k =>
    rw [List.replicate_succ, pieces_append_cons]
    exact List.mem_append_left _ h

theorem slashed_replicate (k : Nat) : slashed (List.replicate k '/') = List.replicate k '/' :=
  slashed_of_not_mem fun h => absurd (List.eq_of_mem_replicate h) (by decide)

/-- The path in front of the last slashes is empty or starts at the root. -/
theorem exists_slashed {tail : List Char} (hquery : '?' ∉ tail) (hfragment : '#' ∉ tail)
    (hhead : ∀ c ∈ tail.head?, endsAuthority .web c = true) :
    slashed tail = [] ∨ ∃ rest, slashed tail = '/' :: rest := by
  cases tail with
  | nil => exact .inl rfl
  | cons c rest =>
    have hend := hhead c rfl
    simp only [endsAuthority, Bool.or_eq_true, beq_iff_eq] at hend
    have hslash : isSlash .web c = true := by
      rcases hend with (hc | rfl) | rfl
      · exact hc
      · exact absurd List.mem_cons_self hquery
      · exact absurd List.mem_cons_self hfragment
    refine .inr ⟨slashed rest, ?_⟩
    rw [slashed, List.map_cons, if_pos hslash]
    rfl

theorem afterRoot_append_cons {front : List Char} (h : front = [] ∨ ∃ rest, front = '/' :: rest)
    (path : List Char) : afterRoot (front ++ '/' :: path) = (front ++ '/' :: path).tail := by
  rcases h with rfl | ⟨rest, rfl⟩ <;> rfl

/-- The characters of a path behind a base: none is dropped at an end or ends the path. -/
def IsPathText (path : String) : Prop :=
  ∀ c ∈ path.toList, isTrimmed c = false ∧ c ∉ ['?', '#', '\\']

instance (path : String) : Decidable (IsPathText path) :=
  List.decidableBAll _ path.toList

theorem IsPathText.append {a b : String} (ha : IsPathText a) (hb : IsPathText b) :
    IsPathText (a ++ b) := by
  intro c hc
  rw [String.toList_append, List.mem_append] at hc
  exact hc.elim (ha c) (hb c)

/-- Nothing, or a query with its mark. -/
def IsQueryPart (rest : String) : Prop :=
  (∀ c ∈ rest.toList, isTrimmed c = false) ∧ (rest = "" ∨ ∃ query, rest.toList = '?' :: query)

/-- Resolving the path of a base does not change it. -/
theorem IsBase.exists_named {base : String} {url : Url} (h : IsBase base url)
    {authority tail : List Char} {k : Nat} (hquery : '?' ∉ tail) (hfragment : '#' ∉ tail)
    (hcut : cutWeb? base = some (url.scheme, authority, tail ++ List.replicate k '/')) :
    ∃ host port query, readNamed authority = .ok (host, port) ∧
      url = { scheme := url.scheme, host, query
              port := port.filter fun n => some n ≠ defaultPort? url.scheme
              path := encoded isPathKept ('/' :: afterRoot (writtenPath base)) } := by
  have hwritten : writtenPath base = slashed (tail ++ List.replicate k '/') := by
    rw [writtenPath, hcut]
  have hslashes : ∀ c, c ≠ '/' → c ∉ List.replicate k '/' := fun c hc hmem =>
    hc (List.eq_of_mem_replicate hmem)
  have hwhole : cutWeb? base
      = some (url.scheme, authority, (tail ++ List.replicate k '/') ++ []) := by
    rw [hcut, List.append_nil]
  obtain ⟨query, hread⟩ := exists_read_of_cutWeb? hwhole h.web (by simp [hquery, hslashes])
    (by simp [hfragment, hslashes]) (.inl rfl)
  have hplain : ∀ segment ∈ pieces '/' (afterRoot (writtenPath base)), IsPlainSegment segment :=
    fun segment hs => h.plain segment (mem_pieces_afterRoot hs)
  rw [h.read, ← hwritten, resolvedPath_plain hplain] at hread
  cases hnamed : readNamed authority with
  | error fault =>
    rw [hnamed] at hread
    cases hread
  | ok named =>
    rw [hnamed] at hread
    exact ⟨named.1, named.2, query, rfl, Except.ok.inj hread⟩

/-- What an address below a base is read as: only path and query differ from the base. -/
theorem IsBase.exists_read_below {base : String} {url : Url} (h : IsBase base url) :
    ∃ (front : List Char) (k : Nat), writtenPath base = front ++ List.replicate k '/' ∧
      (front = [] ∨ ∃ rest, front = '/' :: rest) ∧
      url.path = encoded isPathKept ('/' :: afterRoot (writtenPath base)) ∧
      ∀ path rest : String, IsPathText path → IsQueryPart rest →
        ∃ query, Url.read (withoutEndSlashes base ++ "/" ++ (path ++ rest)) = .ok { url with
          path := encoded isPathKept (resolvedPath (front ++ '/' :: path.toList).tail), query } := by
  obtain ⟨authority, tail, k, hcut, hmem, hhead, hbelow⟩ := exists_cutWeb? h.read h.web h.last
  have hquery : '?' ∉ tail := fun hc => h.query (hmem _ hc)
  have hfragment : '#' ∉ tail := fun hc => h.fragment (hmem _ hc)
  have hroot := exists_slashed hquery hfragment hhead
  have hwritten : writtenPath base = slashed tail ++ List.replicate k '/' := by
    rw [writtenPath, hcut]
    exact (slashed_append _ _).trans (congrArg _ (slashed_replicate k))
  obtain ⟨host, port, query, hnamed, hurl⟩ := h.exists_named hquery hfragment hcut
  refine ⟨slashed tail, k, hwritten, hroot, by rw [hurl], fun path rest hpath hrest => ?_⟩
  have hfree : ∀ c ∈ ['?', '#', '\\'], c ∉ '/' :: path.toList := by
    intro c hc hmem
    rcases List.mem_cons.1 hmem with rfl | hmem
    · exact absurd hc (by decide)
    · exact (hpath c hmem).2 hc
  have hback : ∀ c ∈ (path ++ rest).toList, isTrimmed c = false := by
    intro c hc
    rw [String.toList_append, List.mem_append] at hc
    rcases hc with hc | hc
    · exact (hpath c hc).1
    · exact hrest.1 c hc
  have hbehind : cutWeb? (withoutEndSlashes base ++ "/" ++ (path ++ rest))
      = some (url.scheme, authority, (tail ++ '/' :: path.toList) ++ rest.toList) := by
    rw [hbelow (path ++ rest) hback, String.toList_append, List.append_assoc, List.cons_append]
  obtain ⟨query, hlocated⟩ := exists_read_of_cutWeb? hbehind h.web
    (by simp [hquery, hfree]) (by simp [hfragment, hfree])
    (hrest.2.imp_left fun he => by rw [he]; rfl)
  refine ⟨query, ?_⟩
  rw [slashed_append, slashed_of_not_mem (hfree '\\' (by decide)),
    afterRoot_append_cons hroot, hnamed] at hlocated
  rw [hlocated, Except.map, hurl]

/-! ## Addresses below a base -/

/-- The same server, and a path that begins with the path of the base and a slash. -/
structure IsBelow (url base : Url) : Prop where
  scheme : url.scheme = base.scheme
  host : url.host = base.host
  port : url.port = base.port
  path : ∃ rest, url.path = withoutEndSlashes base.path ++ "/" ++ rest

theorem toList_encoded (keep : UInt8 → Bool) (cs : List Char) :
    (encoded keep cs).toList = cs.flatMap (encodeChar keep) := by
  rw [encoded, toList_encode, String.toList_ofList]

theorem encoded_of_kept {keep : UInt8 → Bool} {cs : List Char}
    (h : ∀ c ∈ cs, encodeChar keep c = [c]) : encoded keep cs = String.ofList cs := by
  rw [← String.toList_inj, toList_encoded, String.toList_ofList, List.flatMap_def,
    List.map_congr_left h, ← List.flatMap_def, List.flatMap_singleton']

theorem encodeChar_slash : encodeChar isPathKept '/' = ['/'] :=
  encodeChar_of_kept (by decide) (by decide)

theorem encoded_replicate_slash (k : Nat) :
    encoded isPathKept (List.replicate k '/') = String.ofList (List.replicate k '/') :=
  encoded_of_kept fun c hc => by rw [List.eq_of_mem_replicate hc, encodeChar_slash]

theorem encoded_cons_slash (cs : List Char) :
    encoded isPathKept ('/' :: cs) = "/" ++ encoded isPathKept cs := by
  rw [← String.toList_inj, toList_encoded, List.flatMap_cons, encodeChar_slash,
    String.toList_append, toList_encoded]
  rfl

theorem encoded_append (keep : UInt8 → Bool) (xs ys : List Char) :
    encoded keep (xs ++ ys) = encoded keep xs ++ encoded keep ys := by
  rw [← String.toList_inj, String.toList_append]
  simp only [toList_encoded, List.flatMap_append]

/-- The slash of the root and the last slashes of a base are slashes behind its front. -/
theorem exists_cons_afterRoot {front : List Char} (h : front = [] ∨ ∃ rest, front = '/' :: rest)
    (k : Nat) :
    ∃ i, '/' :: afterRoot (front ++ List.replicate k '/') = front ++ List.replicate i '/' := by
  rcases h with rfl | ⟨rest, rfl⟩
  · cases k with
    | zero => exact ⟨1, rfl⟩
    | succ k => exact ⟨k + 1, rfl⟩
  · exact ⟨k, rfl⟩

theorem resolvedPath_below {front path : List Char}
    (hroot : front = [] ∨ ∃ rest, front = '/' :: rest)
    (hplain : ∀ segment ∈ pieces '/' front, IsPlainSegment segment)
    (hstays : climbsFrom 0 (pieces '/' path) = false) :
    resolvedPath (front ++ '/' :: path).tail = front ++ resolvedPath path := by
  rcases hroot with rfl | ⟨rest, rfl⟩
  · rfl
  · have hrest : ∀ segment ∈ pieces '/' rest, IsPlainSegment segment := by
      intro segment hs
      refine hplain segment ?_
      rw [pieces, if_pos rfl]
      exact List.mem_cons_of_mem _ hs
    exact resolvedPath_append hrest hstays

theorem exists_withoutEndSlashes_append (front rest : String) (k : Nat) :
    ∃ below, front ++ "/" ++ rest
      = withoutEndSlashes (front ++ String.ofList (List.replicate k '/')) ++ "/" ++ below := by
  obtain ⟨j, hj⟩ := exists_dropEndWhile '/' front.toList
  have hdrop : (withoutEndSlashes (front ++ String.ofList (List.replicate k '/'))).toList
      = dropEndWhile '/' front.toList := by
    rw [withoutEndSlashes, String.toList_ofList, String.toList_append, String.toList_ofList,
      dropEndWhile_append_replicate]
  have hslash : "/".toList = ['/'] := rfl
  refine ⟨String.ofList (List.replicate j '/') ++ rest, ?_⟩
  rw [← String.toList_inj]
  simp only [String.toList_append, String.toList_ofList, hdrop, hslash]
  -- The last slashes of the front change places with the one behind them.
  calc front.toList ++ ['/'] ++ rest.toList
      = dropEndWhile '/' front.toList ++ (List.replicate j '/' ++ ['/']) ++ rest.toList := by
        rw [← List.append_assoc, ← hj]
    _ = dropEndWhile '/' front.toList ++ ['/'] ++ (List.replicate j '/' ++ rest.toList) := by
        rw [← List.replicate_succ', List.replicate_succ]
        simp

theorem IsBase.exists_isBelow {base : String} {url : Url} (h : IsBase base url)
    {path rest : String} (hpath : IsPathText path) (hrest : IsQueryPart rest)
    (hstays : climbsFrom 0 (pieces '/' path.toList) = false) :
    ∃ located, Url.read (withoutEndSlashes base ++ "/" ++ (path ++ rest)) = .ok located ∧
      located.IsBelow url := by
  obtain ⟨front, k, hwritten, hroot, hbase, hbelow⟩ := h.exists_read_below
  obtain ⟨query, hread⟩ := hbelow path rest hpath hrest
  refine ⟨_, hread, rfl, rfl, rfl, ?_⟩
  have hplain : ∀ segment ∈ pieces '/' front, IsPlainSegment segment := fun segment hs =>
    h.plain segment (by rw [hwritten]; exact mem_pieces_of_append_replicate hs)
  obtain ⟨i, hi⟩ := exists_cons_afterRoot hroot k
  obtain ⟨behind, hbehind⟩ := exists_resolvedPath path.toList
  obtain ⟨below, hpathBelow⟩ := exists_withoutEndSlashes_append (encoded isPathKept front)
    (encoded isPathKept behind) i
  refine ⟨below, ?_⟩
  show encoded isPathKept (resolvedPath (front ++ '/' :: path.toList).tail) = _
  rw [hbase, hwritten, hi, encoded_append, encoded_replicate_slash, ← hpathBelow,
    resolvedPath_below hroot hplain hstays, hbehind, encoded_append, encoded_cons_slash,
    String.append_assoc]

/-! ## Leaving a base -/

theorem IsBelow.mem_pieces {url base : Url} (h : url.IsBelow base) {folder : List Char}
    (hbase : base.path.toList = '/' :: folder) (hslash : '/' ∉ folder) (hne : folder ≠ []) :
    folder ∈ pieces '/' url.path.toList := by
  obtain ⟨rest, hrest⟩ := h.path
  have hdrop : (withoutEndSlashes base.path).toList = '/' :: folder := by
    rw [withoutEndSlashes, String.toList_ofList, hbase]
    exact dropEndWhile_append_of_not_mem hslash hne ['/']
  have hpath : url.path.toList = '/' :: (folder ++ '/' :: rest.toList) := by
    rw [hrest, String.toList_append, String.toList_append, hdrop, List.append_assoc]
    rfl
  rw [hpath, pieces, if_pos rfl, pieces_append_cons, pieces_of_not_mem hslash]
  simp

theorem isBase_root : IsBase "http://b.test"
    { scheme := "http", host := some (.domain "b.test"), path := "/" } where
  read := by rfl
  web := by decide
  query := by decide
  fragment := by decide
  last := by decide
  plain := by decide

theorem cutWeb?_root {back : String} (h : ∀ c ∈ back.toList, isTrimmed c = false) :
    cutWeb? ("http://b.test/" ++ back) = some ("http", "b.test".toList, '/' :: back.toList) := by
  obtain ⟨authority, tail, k, hcut, -, -, hbelow⟩ :=
    exists_cutWeb? isBase_root.read isBase_root.web isBase_root.last
  have hroot : cutWeb? "http://b.test" = some ("http", "b.test".toList, []) := rfl
  rw [hroot] at hcut
  simp only [Option.some.injEq, Prod.mk.injEq, List.nil_eq, List.append_eq_nil_iff] at hcut
  obtain ⟨-, rfl, rfl, -⟩ := hcut
  exact hbelow back h

theorem read_root {path rest : String} (hpath : IsPathText path) (hrest : IsQueryPart rest) :
    ∃ query, Url.read ("http://b.test/" ++ (path ++ rest)) = .ok
      { scheme := "http", host := some (.domain "b.test")
        path := encoded isPathKept (resolvedPath path.toList), query } := by
  obtain ⟨front, k, hwritten, -, -, hbelow⟩ := isBase_root.exists_read_below
  have hroot : writtenPath "http://b.test" = [] := rfl
  rw [hroot, List.nil_eq, List.append_eq_nil_iff] at hwritten
  obtain ⟨rfl, -⟩ := hwritten
  exact hbelow path rest hpath hrest

/-- A name that is a segment of a path as it stands. -/
structure IsFolderName (name : String) : Prop where
  text : IsPathText name
  slash : '/' ∉ name.toList
  plain : IsPlainSegment name.toList
  kept : ∀ c ∈ name.toList, encodeChar isPathKept c = [c]

/-- There are such names of any length. -/
theorem isFolderName_replicate (n : Nat) : IsFolderName (String.ofList (List.replicate n 'a')) := by
  have hletters : ∀ c ∈ (String.ofList (List.replicate n 'a')).toList, c = 'a' := by
    intro c hc
    rw [String.toList_ofList] at hc
    exact List.eq_of_mem_replicate hc
  refine ⟨fun c hc => ?_, fun hc => absurd (hletters _ hc) (by decide), ?_, fun c hc => ?_⟩
  · rw [hletters c hc]
    decide
  · rw [String.toList_ofList]
    cases n with
    | zero => exact ⟨rfl, rfl⟩
    | succ n => exact ⟨rfl, rfl⟩
  · rw [hletters c hc]
    exact encodeChar_of_kept (by decide) (by decide)

theorem exists_isBase_folder {folder : String} (h : IsFolderName folder) :
    ∃ url, IsBase ("http://b.test/" ++ folder) url ∧ url.path.toList = '/' :: folder.toList := by
  have hpieces : pieces '/' folder.toList = [folder.toList] := pieces_of_not_mem h.slash
  have hnothing : IsQueryPart "" := ⟨nofun, .inl rfl⟩
  obtain ⟨query, hread⟩ := read_root h.text hnothing
  rw [String.append_empty, resolvedPath_plain (by simpa [hpieces] using h.plain),
    encoded_cons_slash, encoded_of_kept h.kept, String.ofList_toList] at hread
  have hfree : ∀ c ∈ ['?', '#'], c ∉ ("http://b.test/" ++ folder).toList := by
    intro c hc hmem
    rw [String.toList_append, List.mem_append] at hmem
    rcases hmem with hmem | hmem
    · simp only [List.mem_cons, List.not_mem_nil, or_false] at hc
      rcases hc with rfl | rfl <;> exact absurd hmem (by decide)
    · exact (h.text c hmem).2 (List.mem_append_left ['\\'] hc)
  have hback : '\\' ∉ '/' :: folder.toList := by
    have hmem : '\\' ∉ folder.toList := fun hmem => (h.text _ hmem).2 (by decide)
    simpa using hmem
  have hwritten : writtenPath ("http://b.test/" ++ folder) = '/' :: folder.toList := by
    rw [writtenPath, cutWeb?_root fun c hc => (h.text c hc).1]
    exact slashed_of_not_mem hback
  refine ⟨_, { read := hread, web := isBase_root.web, query := hfree _ (by decide)
               fragment := hfree _ (by decide), last := ?_, plain := ?_ }, ?_⟩
  · rw [String.toList_append]
    exact endsVisibly_append (fun c hc => (h.text c hc).1) (.inr (by decide))
  · rw [hwritten, pieces, if_pos rfl, hpieces]
    simpa using ⟨by decide, h.plain⟩
  · rw [String.toList_append]
    rfl

/-- A folder that a climbing path leaves can be named in the result by a segment of the path only. -/
theorem length_le_of_climbs {folder path : List Char} (hslash : '/' ∉ folder)
    (hplain : IsPlainSegment folder) (hclimbs : climbsFrom 0 (pieces '/' path) = true)
    (h : folder ∈ pieces '/' (encoded isPathKept (resolvedPath (folder ++ '/' :: path))).toList) :
    folder.length ≤ (encoded isPathKept path).toList.length := by
  rw [encoded, pieces_encode (by decide), String.toList_ofList] at h
  obtain ⟨segment, hsegment, hsame⟩ := List.mem_map.1 h
  rcases mem_pieces_resolvedPath_of_climbs hslash hplain hclimbs hsegment with hsegment | rfl
  · have hpiece : folder ∈ pieces '/' (encoded isPathKept path).toList := by
      rw [encoded, pieces_encode (by decide), String.toList_ofList, ← hsame]
      exact List.mem_map_of_mem hsegment
    exact length_le_of_mem_pieces hpiece
  · rw [← hsame]
    exact Nat.zero_le _

/-- A path that climbs leaves a base of one folder whose name is longer than the path. -/
theorem exists_isBase_not_isBelow {path : String} (hpath : IsPathText path)
    (hclimbs : climbsFrom 0 (pieces '/' path.toList) = true) :
    ∃ base url, IsBase base url ∧ ∀ {rest : String} {located : Url}, IsQueryPart rest →
      Url.read (withoutEndSlashes base ++ "/" ++ (path ++ rest)) = .ok located →
        ¬ located.IsBelow url := by
  let letters := List.replicate ((encoded isPathKept path.toList).toList.length + 1) 'a'
  let folder := String.ofList letters
  have hfolder : IsFolderName folder := isFolderName_replicate _
  have hne : folder.toList ≠ [] := by
    rw [String.toList_ofList]
    exact List.cons_ne_nil _ _
  obtain ⟨url, hbase, hurl⟩ := exists_isBase_folder hfolder
  refine ⟨_, url, hbase, fun {rest located} hrest hread hbelow => ?_⟩
  -- Both the base and the address are below the root of the server.
  have hwhole : withoutEndSlashes ("http://b.test/" ++ folder) ++ "/" ++ (path ++ rest)
      = "http://b.test/" ++ (folder ++ "/" ++ path ++ rest) := by
    have hdrop : withoutEndSlashes ("http://b.test/" ++ folder) = "http://b.test/" ++ folder := by
      rw [withoutEndSlashes, String.toList_append,
        dropEndWhile_append_of_not_mem hfolder.slash hne, ← String.toList_append,
        String.ofList_toList]
    simp only [hdrop, String.append_assoc]
  have hdeep : (folder ++ "/" ++ path).toList = folder.toList ++ '/' :: path.toList := by
    rw [String.toList_append, String.toList_append, List.append_assoc]
    rfl
  have htext : IsPathText (folder ++ "/" ++ path) := (hfolder.text.append (by decide)).append hpath
  obtain ⟨query, hlocated⟩ := read_root htext hrest
  rw [hwhole, hlocated, hdeep] at hread
  have hmem := hbelow.mem_pieces hurl hfolder.slash hne
  rw [← Except.ok.inj hread] at hmem
  have hlength := length_le_of_climbs hfolder.slash hfolder.plain hclimbs hmem
  simp only [folder, letters, String.toList_ofList, List.length_replicate] at hlength
  omega

end ImageGate.Url
