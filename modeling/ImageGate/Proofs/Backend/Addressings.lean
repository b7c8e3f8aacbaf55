import ImageGate.Proofs.Backend.BelowBase
import ImageGate.Proofs.Text.FormReading

/-! The two ways of addressing a DeepZoom server. The same image path stands in the path of one address
and in a query value of the other, and the same options follow it. Read as a path and as a form, the
two say the same exactly when no plus sign stands in the name of the image: the image path keeps plus
signs, and a form reads each of them as a space. -/
namespace ImageGate
open Text Number
set_option autoImplicit false

/-! ## Reading an address -/

/-- Place and query of an address. A fragment belongs to neither. -/
def addressParts (address : String) : String × Option String :=
  cutQuery (address.toList.takeWhile (· != '#'))

theorem addressParts_of_not_mem {address : String} (h : '#' ∉ address.toList) :
    addressParts address = cutQuery address.toList := by
  rw [addressParts, List.takeWhile_eq_self_iff.2]
  intro c hc
  rw [bne_iff_ne]
  rintro rfl
  exact h hc

def behindFirstPair (query : String) : Option String :=
  (cutFirst '&' query.toList).map fun parts => String.ofList parts.2

/-- The address by path below its base and the address by parameter ask for the same: the form has the
decoded path as its first value, the other values are those of the options, and the options are written
alike. -/
def DeepZoom.SayTheSame (pathBase paramBase atPath atParam : String) : Prop :=
  ∃ path options query name,
    addressParts atPath = (withoutEndSlashes pathBase ++ "/" ++ path, options) ∧
    addressParts atParam = (withoutEndSlashes paramBase, some query) ∧
    Percent.decodeText? path = some name ∧
    Form.pairs query = ("DeepZoom", name) :: Form.pairs (options.getD "") ∧
    behindFirstPair query = options

/-! ## Image paths -/

/-- A part of an image path that means `name` in the path of an address and `value` in a form. -/
structure PathReads (path name value : String) : Prop where
  decoded : Percent.Writes (Utf8.bytes path) name
  inForm : Percent.Writes ((Utf8.bytes path).map Form.spacedByte) value
  marks : ∀ c ∈ ['?', '#', '&'], c ∉ path.toList

namespace PathReads

theorem append {p q m n v w : String} (hp : PathReads p m v) (hq : PathReads q n w) :
    PathReads (p ++ q) (m ++ n) (v ++ w) where
  decoded := by
    rw [Utf8.bytes_append]
    exact hp.decoded.append hq.decoded
  inForm := by
    rw [Utf8.bytes_append, List.map_append]
    exact hp.inForm.append hq.inForm
  marks c hc := by
    rw [String.toList_append, List.mem_append, not_or]
    exact ⟨hp.marks c hc, hq.marks c hc⟩

theorem of_plain {s : String} (h : s.toList.all (fun c => !"?#&+%".toList.contains c) = true) :
    PathReads s s s := by
  have hnone : ∀ c ∈ "?#&+%".toList, c ∉ s.toList := by
    intro c hc hmem
    have hplain := List.all_eq_true.1 h c hmem
    rw [List.contains_iff_mem.2 hc] at hplain
    cases hplain
  constructor
  · exact Percent.writes_of_percent_not_mem (hnone '%' (by decide))
  · rw [Form.map_spacedByte_bytes (hnone '+' (by decide))]
    exact Percent.writes_of_percent_not_mem (hnone '%' (by decide))
  · exact fun c hc => hnone c (List.mem_append_left ['+', '%'] hc)

theorem of_natText (n : Nat) : PathReads (natText n) (natText n) (natText n) := by
  apply of_plain
  apply List.all_eq_true.2
  intro c hc
  have hnone : "?#&+%".toList.all (fun c => !isNumeralChar c) = true := by decide
  cases hmark : "?#&+%".toList.contains c with
  | false => rfl
  | true =>
    have hnumeral := List.all_eq_true.1 hnone c (List.contains_iff_mem.1 hmark)
    rw [isNumeralChar_of_mem_natText hc] at hnumeral
    cases hnumeral

theorem of_component (s : String) :
    PathReads (encodeComponent s) (Percent.decodeText s) (Percent.decodeText s) where
  decoded := Percent.writes_encode Percent.isKeepable_isUnreserved _
  inForm := by
    have hplus : '+' ∉ (encodeComponent s).toList := (isQueryText_encodeComponent s).not_mem (by decide)
    rw [Form.map_spacedByte_bytes hplus]
    exact Percent.writes_encode Percent.isKeepable_isUnreserved _
  marks c hc := by
    have hnone : ['?', '#', '&'].all (fun c => !isQueryChar c) = true := by decide
    have hquery := List.all_eq_true.1 hnone c hc
    exact (isQueryText_encodeComponent s).not_mem (by simpa using hquery)

theorem of_imagePath (s : String) :
    PathReads (encodeImagePath s) (Percent.decodeText s) (Form.spaced (Percent.decodeText s)) where
  decoded := Percent.writes_encode Percent.isKeepable_isFolderPathByte _
  inForm := Form.writes_map_encode Percent.isKeepable_isFolderPathByte (by decide) _
  marks c hc := by
    simp only [List.mem_cons, List.not_mem_nil, or_false] at hc
    rcases hc with rfl | rfl | rfl
    · exact Percent.not_mem_encode (by decide) (by decide) (by decide) _
    · exact Percent.not_mem_encode (by decide) (by decide) (by decide) _
    · exact Percent.not_mem_encode (by decide) (by decide) (by decide) _

end PathReads

/-! ## One path and one list of options -/

theorem fragment_not_mem_queryText {mark : String} (hmark : '#' ∉ mark.toList) {tokens : List Token}
    (h : ∀ t ∈ tokens, t.IsPlain) : '#' ∉ (queryText mark tokens).toList := by
  cases tokens with
  | nil => exact List.not_mem_nil
  | cons t rest =>
    rw [toList_queryText, List.mem_append, not_or]
    exact ⟨hmark, not_mem_intercalate_text h (by decide) (by decide) (by decide)⟩

theorem mem_of_mem_withoutEndSlashes {base : String} {c : Char}
    (h : c ∈ (withoutEndSlashes base).toList) : c ∈ base.toList := by
  obtain ⟨k, hk⟩ := exists_dropEndWhile '/' base.toList
  rw [withoutEndSlashes, String.toList_ofList] at h
  rw [hk]
  exact List.mem_append_left _ h

namespace DeepZoom
variable {pathBase paramBase path name value : String} {tokens : List Token}

theorem addressParts_atPath (hquery : '?' ∉ pathBase.toList) (hfragment : '#' ∉ pathBase.toList)
    (hpath : PathReads path name value) (htokens : ∀ t ∈ tokens, t.IsPlain) :
    addressParts (withoutEndSlashes pathBase ++ "/" ++ path ++ queryText "?" tokens)
      = (withoutEndSlashes pathBase ++ "/" ++ path, optionText? tokens) := by
  have hplace : ∀ c, c ∉ pathBase.toList → c ∉ "/".toList → c ∉ path.toList →
      c ∉ (withoutEndSlashes pathBase ++ "/" ++ path).toList := by
    intro c hbase hslash hmark
    rw [String.toList_append, String.toList_append, List.mem_append, List.mem_append, not_or, not_or]
    exact ⟨⟨mt mem_of_mem_withoutEndSlashes hbase, hslash⟩, hmark⟩
  have hnone : '#' ∉ (withoutEndSlashes pathBase ++ "/" ++ path ++ queryText "?" tokens).toList := by
    rw [String.toList_append, List.mem_append, not_or]
    exact ⟨hplace '#' hfragment (by decide) (hpath.marks '#' (by decide)),
      fragment_not_mem_queryText (by decide) htokens⟩
  rw [addressParts_of_not_mem hnone]
  exact cutQuery_queryText (hplace '?' hquery (by decide) (hpath.marks '?' (by decide))) tokens

theorem addressParts_atParam (hquery : '?' ∉ paramBase.toList) (hfragment : '#' ∉ paramBase.toList)
    (hpath : PathReads path name value) (htokens : ∀ t ∈ tokens, t.IsPlain) :
    addressParts (withoutEndSlashes paramBase ++ "?DeepZoom=" ++ path ++ queryText "&" tokens)
      = (withoutEndSlashes paramBase, some ("DeepZoom=" ++ path ++ queryText "&" tokens)) := by
  have hplace : ∀ c, c ∉ paramBase.toList → c ∉ (withoutEndSlashes paramBase).toList := fun c =>
    mt mem_of_mem_withoutEndSlashes
  have hsplit : withoutEndSlashes paramBase ++ "?DeepZoom=" ++ path ++ queryText "&" tokens
      = withoutEndSlashes paramBase ++ "?" ++ ("DeepZoom=" ++ path ++ queryText "&" tokens) := by
    have hname : "?DeepZoom=" = "?" ++ "DeepZoom=" := rfl
    rw [hname]
    simp only [String.append_assoc]
  have hnone : '#' ∉ (withoutEndSlashes paramBase ++ "?" ++ ("DeepZoom=" ++ path
      ++ queryText "&" tokens)).toList := by
    simp only [String.toList_append, List.mem_append, not_or]
    exact ⟨⟨hplace '#' hfragment, by decide⟩, ⟨by decide, hpath.marks '#' (by decide)⟩,
      fragment_not_mem_queryText (by decide) htokens⟩
  rw [hsplit, addressParts_of_not_mem hnone]
  exact cutQuery_append (hplace '?' hquery) _

theorem pairs_ofPath (hpath : PathReads path name value) :
    Form.pairs ("DeepZoom=" ++ path) = [("DeepZoom", value)] := by
  have hname : Form.plain (Utf8.bytes "DeepZoom") = "DeepZoom" := by decide +kernel
  have hmark : '&' ∉ ("DeepZoom=" ++ path).toList := by
    rw [String.toList_append, List.mem_append, not_or]
    exact ⟨by decide, hpath.marks '&' (by decide)⟩
  have hne : "DeepZoom=" ++ path ≠ "" := by
    intro h
    have hlist := congrArg String.toList h
    rw [String.toList_append] at hlist
    cases hlist
  have hequals : '=' ∉ "DeepZoom".toList := by decide
  have hpair := Form.pair_valued hequals path
  rw [hname, Form.plain_of_writes hpath.inForm] at hpair
  rw [Form.pairs_of_not_mem hmark hne]
  exact congrArg (fun p => [p]) hpair

/-- The options follow the one pair of the image path, in the form as in its text. -/
theorem query_atParam (hpath : PathReads path name value) (tokens : List Token) :
    Form.pairs ("DeepZoom=" ++ path ++ queryText "&" tokens)
        = ("DeepZoom", value) :: Form.pairs ((optionText? tokens).getD "") ∧
      behindFirstPair ("DeepZoom=" ++ path ++ queryText "&" tokens) = optionText? tokens := by
  have hmark : '&' ∉ ("DeepZoom=" ++ path).toList := by
    rw [String.toList_append, List.mem_append, not_or]
    exact ⟨by decide, hpath.marks '&' (by decide)⟩
  cases tokens with
  | nil =>
    constructor
    · rw [queryText, String.append_empty, pairs_ofPath hpath]
      rfl
    · rw [queryText, String.append_empty, behindFirstPair, cutFirst_of_not_mem hmark]
      rfl
  | cons t rest =>
    have hlist : ("DeepZoom=" ++ path ++ queryText "&" (t :: rest)).toList
        = ("DeepZoom=" ++ path).toList ++ '&' :: (queryText "" (t :: rest)).toList := by
      rw [queryText_cons, String.toList_append, String.toList_append (s := "&")]
      rfl
    constructor
    · rw [queryText_cons, ← String.append_assoc, Form.pairs_append, pairs_ofPath hpath]
      rfl
    · rw [behindFirstPair, hlist, cutFirst_append_cons hmark, Option.map_some, String.ofList_toList]
      rfl

theorem sayTheSame_iff (hpathBase : '?' ∉ pathBase.toList ∧ '#' ∉ pathBase.toList)
    (hparamBase : '?' ∉ paramBase.toList ∧ '#' ∉ paramBase.toList)
    (hpath : PathReads path name value) (htokens : ∀ t ∈ tokens, t.IsPlain) :
    SayTheSame pathBase paramBase
        (withoutEndSlashes pathBase ++ "/" ++ path ++ queryText "?" tokens)
        (withoutEndSlashes paramBase ++ "?DeepZoom=" ++ path ++ queryText "&" tokens)
      ↔ value = name := by
  have hatPath := addressParts_atPath hpathBase.1 hpathBase.2 hpath htokens
  have hatParam := addressParts_atParam hparamBase.1 hparamBase.2 hpath htokens
  obtain ⟨hpairs, hbehind⟩ := query_atParam hpath tokens
  constructor
  · -- Each address comes apart in one way only, so whatever is said of its parts is said of these.
    rintro ⟨other, options, query, meant, hpathParts, hparamParts, hmeant, hform, -⟩
    rw [hatPath, Prod.mk.injEq, String.append_right_inj] at hpathParts
    rw [hatParam, Prod.mk.injEq, Option.some.injEq] at hparamParts
    rw [← hpathParts.1, hpath.decoded.decodeText?_eq, Option.some.injEq] at hmeant
    rw [← hparamParts.2, hpairs, List.cons.injEq, Prod.mk.injEq] at hform
    rw [hform.1.2, hmeant]
  · rintro rfl
    exact ⟨path, optionText? tokens, _, value, hatPath, hatParam, hpath.decoded.decodeText?_eq,
      hpairs, hbehind⟩

/-! ## Descriptors and tiles -/

theorem DescriptorRequest.exists_pathReads (r : DescriptorRequest) :
    ∃ rest, PathReads (encodeImagePath r.path) (Percent.decodeText r.image ++ rest)
      (Form.spaced (Percent.decodeText r.image) ++ rest) := by
  have hreads := PathReads.of_imagePath r.path
  unfold DescriptorRequest.path at hreads ⊢
  split
  · next hnamed =>
    rw [if_pos hnamed] at hreads
    refine ⟨"", ?_⟩
    rw [String.append_empty, String.append_empty]
    exact hreads
  · next hnamed =>
    have hspaced : Form.spaced ".dzi" = ".dzi" := Form.spaced_eq_self_iff.2 (by decide +kernel)
    rw [if_neg hnamed, Percent.decodeText_description, Form.spaced_append, hspaced] at hreads
    exact ⟨".dzi", hreads⟩

theorem DescriptorRequest.sayTheSame_iff (r : DescriptorRequest)
    (hpathBase : '?' ∉ pathBase.toList ∧ '#' ∉ pathBase.toList)
    (hparamBase : '?' ∉ paramBase.toList ∧ '#' ∉ paramBase.toList) :
    SayTheSame pathBase paramBase (r.address (.ofBase pathBase .path))
        (r.address (.ofBase paramBase .param))
      ↔ '+' ∉ (Percent.decodeText r.image).toList := by
  obtain ⟨rest, hreads⟩ := r.exists_pathReads
  have htokens : ∀ t ∈ ([] : List Token), t.IsPlain := nofun
  have hsame := DeepZoom.sayTheSame_iff hpathBase hparamBase hreads htokens
  rw [String.append_left_inj, Form.spaced_eq_self_iff, queryText, queryText, String.append_empty,
    String.append_empty] at hsame
  exact hsame

/-- What follows the name of the image. -/
def TileRequest.partName (r : TileRequest) : String :=
  "_files/" ++ natText r.layer ++ "/" ++ Percent.decodeText r.tile ++ "."
    ++ Percent.decodeText (r.format.getD "jpeg")

theorem TileRequest.pathReads (r : TileRequest) :
    PathReads r.path (Percent.decodeText r.image ++ r.partName)
      (Form.spaced (Percent.decodeText r.image) ++ r.partName) := by
  have hfiles : PathReads "_files/" "_files/" "_files/" := .of_plain (by decide)
  have hslash : PathReads "/" "/" "/" := .of_plain (by decide)
  have hpoint : PathReads "." "." "." := .of_plain (by decide)
  have hreads := ((((((PathReads.of_imagePath r.image).append hfiles).append
    (.of_natText r.layer)).append hslash).append (.of_component r.tile)).append hpoint).append
      (.of_component (r.format.getD "jpeg"))
  rw [path, partName]
  simpa only [String.append_assoc] using hreads

theorem TileRequest.sayTheSame_iff (r : TileRequest)
    (hpathBase : '?' ∉ pathBase.toList ∧ '#' ∉ pathBase.toList)
    (hparamBase : '?' ∉ paramBase.toList ∧ '#' ∉ paramBase.toList) :
    SayTheSame pathBase paramBase (r.address (.ofBase pathBase .path))
        (r.address (.ofBase paramBase .param))
      ↔ '+' ∉ (Percent.decodeText r.image).toList := by
  have hsame := DeepZoom.sayTheSame_iff hpathBase hparamBase r.pathReads r.isPlain_tokens
  rw [String.append_left_inj, Form.spaced_eq_self_iff] at hsame
  exact hsame

end DeepZoom

/-! ## Any request -/

namespace Request

/-- Path and parameter carry the same request for every name without a plus sign, whatever else stands
in it and whatever the options are, and for no other name. -/
theorem addressings_sayTheSame_iff {request : Request} (hprotocol : request.protocol = .deepZoom)
    {pathBase paramBase : String} (hpathBase : '?' ∉ pathBase.toList ∧ '#' ∉ pathBase.toList)
    (hparamBase : '?' ∉ paramBase.toList ∧ '#' ∉ paramBase.toList) (backends : Backends) :
    ∃ atPath atParam,
      request.address { backends with deepZoom := some (.ofBase pathBase .path) } = .ok atPath ∧
      request.address { backends with deepZoom := some (.ofBase paramBase .param) } = .ok atParam ∧
      (DeepZoom.SayTheSame pathBase paramBase atPath atParam ↔
        '+' ∉ (Percent.decodeText request.identifier).toList) := by
  cases request with
  | iip r => cases hprotocol
  | iiifImage r => cases hprotocol
  | iiifInfo r => cases hprotocol
  | deepZoomDescriptor r => exact ⟨_, _, rfl, rfl, r.sayTheSame_iff hpathBase hparamBase⟩
  | deepZoomTile r => exact ⟨_, _, rfl, rfl, r.sayTheSame_iff hpathBase hparamBase⟩

/-- Marks of a query in the name and in front of it, a triplet and an option without a value. -/
theorem addressings_sayTheSame_marked_tile :
    let tile : Request := .deepZoomTile
      { image := "my folder/a&b=c;%2541.jpg", layer := 11, tile := "2_4", colormap := some "HOT"
        invert := true }
    let atPath := "http://b.test/dz/my%20folder/a%26b=c;%2541.jpg_files/11/2_4.jpeg?CMP=HOT&INV"
    let atParam :=
      "http://p.test/a&b?DeepZoom=my%20folder/a%26b=c;%2541.jpg_files/11/2_4.jpeg&CMP=HOT&INV"
    tile.protocol = .deepZoom ∧
      tile.address { deepZoom := some (.ofBase "http://b.test/dz/" .path) } = .ok atPath ∧
      tile.address { deepZoom := some (.ofBase "http://p.test/a&b" .param) } = .ok atParam ∧
      DeepZoom.SayTheSame "http://b.test/dz/" "http://p.test/a&b" atPath atParam := by
  intro tile atPath atParam
  have hplus : '+' ∉ (Percent.decodeText tile.identifier).toList := by decide +kernel
  have hatPath : tile.address { deepZoom := some (.ofBase "http://b.test/dz/" .path) } = .ok atPath :=
    congrArg Except.ok (by decide +kernel)
  have hatParam : tile.address { deepZoom := some (.ofBase "http://p.test/a&b" .param) }
      = .ok atParam := congrArg Except.ok (by decide +kernel)
  have hpathBase : '?' ∉ "http://b.test/dz/".toList ∧ '#' ∉ "http://b.test/dz/".toList := by decide
  have hparamBase : '?' ∉ "http://p.test/a&b".toList ∧ '#' ∉ "http://p.test/a&b".toList := by decide
  have hprotocol : tile.protocol = .deepZoom := rfl
  obtain ⟨a, b, ha, hb, hsame⟩ := addressings_sayTheSame_iff hprotocol hpathBase hparamBase {}
  have hpath : a = atPath := Except.ok.inj (ha.symm.trans hatPath)
  have hparam : b = atParam := Except.ok.inj (hb.symm.trans hatParam)
  rw [hpath, hparam] at hsame
  exact ⟨hprotocol, hatPath, hatParam, hsame.2 hplus⟩

/-- The form asks for the description of `a b`. -/
theorem addressings_differ_plus_sign :
    let descriptor : DeepZoom.DescriptorRequest := { image := "a+b" }
    let base := "http://b.test/dz"
    let atPath := "http://b.test/dz/a+b.dzi"
    let atParam := "http://b.test/dz?DeepZoom=a+b.dzi"
    (deepZoomDescriptor descriptor).check = .ok () ∧
      (deepZoomDescriptor descriptor).address { deepZoom := some (.ofBase base .path) }
        = .ok atPath ∧
      (deepZoomDescriptor descriptor).address { deepZoom := some (.ofBase base .param) }
        = .ok atParam ∧
      Percent.decodeText? "a+b.dzi" = some "a+b.dzi" ∧
      Form.pairs "DeepZoom=a+b.dzi" = [("DeepZoom", "a b.dzi")] ∧
      ¬ DeepZoom.SayTheSame base base atPath atParam := by
  intro descriptor base atPath atParam
  have hcheck : (deepZoomDescriptor descriptor).check = .ok () :=
    require_eq_ok_iff.2 (by decide +kernel)
  have hatPath : descriptor.address (.ofBase base .path) = atPath := by decide +kernel
  have hatParam : descriptor.address (.ofBase base .param) = atParam := by decide +kernel
  have hplus : '+' ∈ (Percent.decodeText descriptor.image).toList := by decide +kernel
  have hbase : '?' ∉ base.toList ∧ '#' ∉ base.toList := by decide
  refine ⟨hcheck, congrArg Except.ok hatPath, congrArg Except.ok hatParam, by decide +kernel,
    by decide +kernel, fun hsame => ?_⟩
  rw [← hatPath, ← hatParam] at hsame
  exact (descriptor.sayTheSame_iff hbase hbase).1 hsame hplus

end Request

end ImageGate
