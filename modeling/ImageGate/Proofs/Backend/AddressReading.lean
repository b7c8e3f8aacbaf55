import ImageGate.Backend.Address
import ImageGate.Proofs.Number.Numerals
import ImageGate.Proofs.Text.Cutting
import ImageGate.Proofs.Text.PercentCoding

/-! Reading addresses back, as a server does that knows its own base: the tokens of a query, the
segments of an IIIF path and the image path of DeepZoom. What is read are the parts that the address
was put together from, whatever characters the request holds, because no encoded part contains a
mark that an address is cut at. -/
namespace ImageGate
open Text Number
set_option autoImplicit false

/-- What of an address follows its base and a mark. -/
def behind? (base mark address : String) : Option (List Char) :=
  afterPrefix? (base ++ mark).toList address.toList

theorem behind?_append (base mark rest : String) :
    behind? base mark (base ++ mark ++ rest) = some rest.toList := by
  rw [behind?, String.toList_append (s := base ++ mark), afterPrefix?_append]

/-! ## Encoded parts -/

theorem decodeText?_encodeComponent (s : String) :
    Percent.decodeText? (encodeComponent s) = some (Percent.decodeText s) :=
  Percent.decodeText?_encode Percent.isKeepable_isUnreserved _

theorem decodeText?_encodeImagePath (s : String) :
    Percent.decodeText? (encodeImagePath s) = some (Percent.decodeText s) :=
  Percent.decodeText?_encode Percent.isKeepable_isFolderPathByte _

/-! ## The characters of a query value -/

/-- Unreserved characters, the percent sign of a triplet, and the comma of a list. -/
def isQueryChar (c : Char) : Bool :=
  (decide (c.toNat < 0x80) && Percent.isUnreserved (UInt8.ofNat c.toNat)) || c == '%' || c == ','

theorem isQueryChar_encodeComponent (s : String) :
    ∀ c ∈ (encodeComponent s).toList, isQueryChar c = true := by
  intro c hc
  rcases Percent.mem_encode hc with ⟨b, hb, rfl⟩ | rfl | ⟨n, hn, rfl⟩
  · have ha := Percent.isKeepable_isUnreserved.ascii b hb
    simp [isQueryChar, Utf8.toNat_ofNat_toNat, ha, hb]
  · decide
  · exact (by decide : ∀ n < 16, isQueryChar (Percent.hexDigit n) = true) n hn

theorem isQueryChar_of_isPlainDigit {c : Char} (h : isPlainDigit c = true) :
    isQueryChar c = true := by
  simp only [isPlainDigit, Bool.and_eq_true, decide_eq_true_eq] at h
  have h0 : '0'.toNat = 0x30 := rfl
  have h9 : '9'.toNat = 0x39 := rfl
  have hn : c.toNat % 256 = c.toNat := Nat.mod_eq_of_lt (by omega)
  have hd : Percent.isAlphanumeric (UInt8.ofNat c.toNat) = true := by
    simp [Percent.isAlphanumeric, UInt8.le_iff_toNat_le, hn]
    omega
  have ha : c.toNat < 0x80 := by omega
  simp [isQueryChar, Percent.isUnreserved, hd, ha]

theorem isQueryChar_of_isNumeralChar {c : Char} (h : isNumeralChar c = true) :
    isQueryChar c = true := by
  rw [isNumeralChar, Bool.or_eq_true] at h
  rcases h with h | h
  · exact isQueryChar_of_isPlainDigit h
  · have hwords : ['-', '.', 'N', 'a', 'i', 'n', 'f'].all isQueryChar = true := by decide
    exact List.all_eq_true.1 hwords c (List.contains_iff_mem.1 h)

/-- Every character of the text is one of a query value. -/
def IsQueryText (s : String) : Prop := ∀ c ∈ s.toList, isQueryChar c = true

instance (s : String) : Decidable (IsQueryText s) :=
  decidable_of_iff (s.toList.all isQueryChar = true) List.all_eq_true

theorem isQueryText_encodeComponent (s : String) : IsQueryText (encodeComponent s) :=
  isQueryChar_encodeComponent s

theorem isQueryText_natText (n : Nat) : IsQueryText (natText n) :=
  fun _ h => isQueryChar_of_isNumeralChar (isNumeralChar_of_mem_natText h)

theorem isQueryText_intText (i : Int) : IsQueryText (intText i) :=
  fun _ h => isQueryChar_of_isNumeralChar (isNumeralChar_of_mem_intText h)

theorem isQueryText_pointedText (x : Single) : IsQueryText (Binary.pointedText x) :=
  fun _ h => isQueryChar_of_isNumeralChar (Binary.isNumeralChar_of_mem_pointedText h)

theorem isQueryText_joined_map {α : Type} {f : α → String} (hf : ∀ a, IsQueryText (f a))
    (values : List α) : IsQueryText (joined "," (values.map f)) := by
  intro c hc
  rw [joined, String.toList_intercalate] at hc
  rcases mem_intercalate hc with hc | ⟨p, hp, hc⟩
  · rw [List.mem_singleton.1 hc]
    decide
  · rw [List.map_map] at hp
    obtain ⟨a, -, rfl⟩ := List.mem_map.1 hp
    exact hf a c hc

/-! ## Tokens -/

def Token.name : Token → String
  | valued name _ => name
  | bare name => name

/-- The name ends at the first equals sign. -/
def Token.read (text : List Char) : Token :=
  match cutFirst '=' text with
  | some (name, value) => valued (String.ofList name) (String.ofList value)
  | none => bare (String.ofList text)

/-- The tokens between the ampersands of a query. -/
def readTokens (query : List Char) : List Token := (pieces '&' query).map Token.read

/-- Neither part of the token holds a mark that a query is cut at. -/
def Token.IsPlain : Token → Prop
  | valued name value => IsQueryText name ∧ IsQueryText value
  | bare name => IsQueryText name

theorem IsQueryText.not_mem {s : String} (h : IsQueryText s) {c : Char}
    (hc : isQueryChar c = false) : c ∉ s.toList := by
  intro hm
  rw [h c hm] at hc
  cases hc

theorem Token.read_text {t : Token} (h : t.IsPlain) : read t.text.toList = t := by
  cases t with
  | valued name value =>
    have hn : '=' ∉ name.toList := h.1.not_mem (by decide)
    have ht : (text (valued name value)).toList = name.toList ++ '=' :: value.toList := by
      simp [text]
    rw [read, ht, cutFirst_append_cons hn]
    simp
  | bare name =>
    have hn : '=' ∉ name.toList := h.not_mem (by decide)
    rw [read, text, cutFirst_of_not_mem hn]
    simp

theorem Token.not_mem_text {t : Token} (h : t.IsPlain) {c : Char} (hc : isQueryChar c = false)
    (hne : c ≠ '=') : c ∉ t.text.toList := by
  cases t with
  | valued name value =>
    have hn : c ∉ name.toList := h.1.not_mem hc
    have hv : c ∉ value.toList := h.2.not_mem hc
    simp [text, hn, hv, hne]
  | bare name => exact h.not_mem hc

theorem not_mem_intercalate_text {tokens : List Token} (h : ∀ t ∈ tokens, t.IsPlain) {c : Char}
    (hc : isQueryChar c = false) (heq : c ≠ '=') (hamp : c ≠ '&') :
    c ∉ ['&'].intercalate (tokens.map fun t => t.text.toList) := by
  intro hmem
  rcases mem_intercalate hmem with hmem | ⟨text, htext, hmem⟩
  · exact hamp (List.mem_singleton.1 hmem)
  · obtain ⟨t, ht, rfl⟩ := List.mem_map.1 htext
    exact Token.not_mem_text (h t ht) hc heq hmem

theorem toList_queryText (mark : String) (t : Token) (rest : List Token) :
    (queryText mark (t :: rest)).toList
      = mark.toList ++ ['&'].intercalate ((t :: rest).map fun u => u.text.toList) := by
  rw [queryText, String.toList_append, String.toList_append, String.toList_join, List.append_assoc]
  congr 1
  induction rest generalizing t with
  | nil => simp
  | cons u rest ih =>
    simp only [List.map_cons, List.intercalate_cons_cons] at ih ⊢
    rw [← ih u]
    simp

theorem readTokens_intercalate {tokens : List Token} (h : ∀ t ∈ tokens, t.IsPlain)
    (hne : tokens ≠ []) :
    readTokens (['&'].intercalate (tokens.map fun t => t.text.toList)) = tokens := by
  have hp : ∀ p ∈ tokens.map (fun t => t.text.toList), '&' ∉ p := by
    intro p hp
    obtain ⟨t, ht, rfl⟩ := List.mem_map.1 hp
    exact Token.not_mem_text (h t ht) (by decide) (by decide)
  rw [readTokens, pieces_intercalate hp (by simpa using hne), List.map_map]
  refine (List.map_congr_left fun t ht => ?_).trans (List.map_id tokens)
  exact Token.read_text (h t ht)

theorem Token.mem_given {name : String} {value : Option String} {t : Token} :
    t ∈ given name value ↔ ∃ v ∈ value, valued name v = t := by
  cases value <;> simp [given, eq_comm]

theorem Token.mem_flag {name : String} {isSet : Bool} {t : Token} :
    t ∈ flag name isSet ↔ isSet = true ∧ t = bare name := by
  cases isSet <;> simp [flag]

theorem isPlain_given {α : Type} {f : α → String} (hf : ∀ a, IsQueryText (f a)) {name : String}
    (hn : IsQueryText name) (value : Option α) :
    ∀ t ∈ Token.given name (value.map f), t.IsPlain := by
  cases value with
  | none => intro t ht; cases ht
  | some a =>
    intro t ht
    rw [List.mem_singleton.1 ht]
    exact ⟨hn, hf a⟩

theorem isPlain_flag {name : String} (hn : IsQueryText name) (isSet : Bool) :
    ∀ t ∈ Token.flag name isSet, t.IsPlain := by
  cases isSet with
  | false => intro t ht; cases ht
  | true =>
    intro t ht
    rw [List.mem_singleton.1 ht]
    exact hn

/-! ## Path and query -/

/-- What stands in front of the first question mark and, if there is one, the query behind it. -/
def cutQuery (cs : List Char) : String × Option String :=
  match cutFirst '?' cs with
  | some (place, query) => (String.ofList place, some (String.ofList query))
  | none => (String.ofList cs, none)

/-- The tokens as a query, if there are any. -/
def optionText? (tokens : List Token) : Option String :=
  if tokens = [] then none else some (queryText "" tokens)

theorem queryText_cons (mark : String) (t : Token) (rest : List Token) :
    queryText mark (t :: rest) = mark ++ queryText "" (t :: rest) := by
  rw [queryText, queryText, String.empty_append, String.append_assoc]

theorem cutQuery_append {place : String} (h : '?' ∉ place.toList) (query : String) :
    cutQuery (place ++ "?" ++ query).toList = (place, some query) := by
  have hlist : (place ++ "?" ++ query).toList = place.toList ++ '?' :: query.toList := by
    simp [String.toList_append]
  unfold cutQuery
  rw [hlist, cutFirst_append_cons h]
  show (String.ofList place.toList, some (String.ofList query.toList)) = (place, some query)
  rw [String.ofList_toList, String.ofList_toList]

theorem cutQuery_queryText {place : String} (h : '?' ∉ place.toList) (tokens : List Token) :
    cutQuery (place ++ queryText "?" tokens).toList = (place, optionText? tokens) := by
  cases tokens with
  | nil =>
    unfold cutQuery
    rw [queryText, String.append_empty, cutFirst_of_not_mem h, String.ofList_toList]
    rfl
  | cons t rest =>
    rw [queryText_cons, ← String.append_assoc]
    exact cutQuery_append h _

/-! ## Internet Imaging Protocol -/

/-- The tokens of the query at an address of the server. -/
def Iip.tokensAt? (base address : String) : Option (List Token) :=
  (behind? (withoutEndSlashes base) "?" address).map readTokens

theorem Iip.Request.isPlain_tokens (r : Iip.Request) : ∀ t ∈ r.tokens, t.IsPlain := by
  simp only [tokens, List.forall_mem_append, and_assoc]
  refine ⟨?_, ?_, ?_, ?_, ?_, ?_, ?_, ?_, ?_, ?_, ?_, ?_, ?_, ?_, ?_, ?_⟩
  · exact isPlain_given isQueryText_encodeComponent (by decide) (some r.image)
  · exact isPlain_given isQueryText_natText (by decide) r.width
  · exact isPlain_given isQueryText_natText (by decide) r.height
  · exact isPlain_given (isQueryText_joined_map isQueryText_pointedText) (by decide) r.region
  · exact isPlain_given isQueryText_intText (by decide) r.quality
  · exact isPlain_given isQueryText_pointedText (by decide) r.contrast
  · exact isPlain_given isQueryText_encodeComponent (by decide) r.rotation
  · exact isPlain_given isQueryText_pointedText (by decide) r.gamma
  · exact isPlain_given isQueryText_encodeComponent (by decide) r.colormap
  · exact isPlain_given isQueryText_encodeComponent (by decide) r.profile
  · exact isPlain_given isQueryText_encodeComponent (by decide) r.twist
  · exact isPlain_flag (by decide) r.invert
  · exact isPlain_given isQueryText_encodeComponent (by decide) r.colorSpace
  · exact isPlain_given (isQueryText_joined_map isQueryText_intText) (by decide) r.jpegTile
  · exact isPlain_given (isQueryText_joined_map isQueryText_intText) (by decide) r.pngTile
  · exact isPlain_given isQueryText_encodeComponent (by decide) r.exportToken?

theorem Iip.Request.tokens_eq_cons (r : Iip.Request) :
    ∃ rest, r.tokens = .valued "FIF" (encodeComponent r.image) :: rest := by
  simp only [tokens, List.append_assoc]
  exact ⟨_, rfl⟩

/-- The tokens between ampersands. -/
def Iip.Request.query (r : Iip.Request) : String :=
  String.ofList (['&'].intercalate (r.tokens.map fun t => t.text.toList))

theorem Iip.Request.address_eq (r : Iip.Request) (base : String) :
    r.address base = withoutEndSlashes base ++ "?" ++ r.query := by
  obtain ⟨rest, ht⟩ := r.tokens_eq_cons
  have hq : queryText "?" r.tokens = "?" ++ r.query := by
    rw [← String.toList_inj, query, ht, toList_queryText]
    simp only [String.toList_append, String.toList_ofList]
  rw [address, hq, String.append_assoc]

theorem Iip.Request.readTokens_query (r : Iip.Request) : readTokens r.query.toList = r.tokens := by
  have hne : r.tokens ≠ [] := by
    obtain ⟨rest, ht⟩ := r.tokens_eq_cons
    rw [ht]
    exact List.cons_ne_nil _ _
  rw [query, String.toList_ofList, readTokens_intercalate r.isPlain_tokens hne]

theorem Iip.tokensAt?_address (r : Iip.Request) (base : String) :
    tokensAt? base (r.address base) = some r.tokens := by
  rw [tokensAt?, r.address_eq, behind?_append, Option.map_some, r.readTokens_query]

/-! ## IIIF -/

/-- The segments of the path behind the base. -/
def Iiif.segmentsAt? (base address : String) : Option (List String) :=
  (behind? (withoutEndSlashes base) "/" address).map fun path =>
    (pieces '/' path).map String.ofList

theorem slash_not_mem_encodeComponent (s : String) : '/' ∉ (encodeComponent s).toList :=
  Percent.not_mem_encode (by decide) (by decide) (by decide) _

theorem slash_not_mem_encodeSegment (s : String) : '/' ∉ (encodeSegment s).toList :=
  Percent.not_mem_encode (by decide) (by decide) (by decide) _

theorem joined_cons {segments : List String} (hne : segments ≠ []) (front : String) :
    joined "/" (front :: segments) = front ++ "/" ++ joined "/" segments := by
  rw [joined, joined, String.intercalate_cons_of_ne_nil hne]

theorem pieces_joined {segments : List String} (h : ∀ s ∈ segments, '/' ∉ s.toList)
    (hne : segments ≠ []) :
    pieces '/' (joined "/" segments).toList = segments.map String.toList := by
  have hp : ∀ p ∈ segments.map String.toList, '/' ∉ p := by
    intro p hp
    obtain ⟨s, hs, rfl⟩ := List.mem_map.1 hp
    exact h s hs
  have hslash : "/".toList = ['/'] := rfl
  rw [joined, String.toList_intercalate, hslash, pieces_intercalate hp (by simpa using hne)]

theorem Iiif.segmentsAt?_joined {segments : List String} (base : String)
    (h : ∀ s ∈ segments, '/' ∉ s.toList) (hne : segments ≠ []) :
    segmentsAt? base (joined "/" (withoutEndSlashes base :: segments)) = some segments := by
  rw [segmentsAt?, joined_cons hne, behind?_append, Option.map_some, pieces_joined h hne,
    List.map_map]
  simp [Function.comp_def]

theorem Iiif.segmentsAt?_imageAddress (r : Iiif.ImageRequest) (base : String) :
    segmentsAt? base (r.address base) = some [encodeComponent r.identifier,
      encodeSegment r.region, encodeSegment r.size, encodeSegment r.rotation,
      encodeSegment r.quality ++ "." ++ encodeSegment (r.format.getD "jpg")] := by
  refine segmentsAt?_joined base ?_ (List.cons_ne_nil _ _)
  simp [slash_not_mem_encodeComponent, slash_not_mem_encodeSegment]

theorem Iiif.segmentsAt?_infoAddress (r : Iiif.InfoRequest) (base : String) :
    segmentsAt? base (r.address base)
      = some [encodeComponent r.identifier, "info." ++ encodeSegment r.extension] := by
  refine segmentsAt?_joined base ?_ (List.cons_ne_nil _ _)
  simp [slash_not_mem_encodeComponent, slash_not_mem_encodeSegment]

/-! ## DeepZoom -/

namespace DeepZoom

/-- The image path at an address of the server, without the options behind it. -/
def Server.pathAt? (server : Server) (address : String) : Option (List Char) :=
  match server.addressing with
  | .path => (behind? server.base "/" address).map fun cs => cs.takeWhile (· != '?')
  | .param => (behind? server.base "?DeepZoom=" address).map fun cs => cs.takeWhile (· != '&')

theorem takeWhile_queryText {path mark : String} {c : Char} (hm : mark.toList = [c])
    (hp : c ∉ path.toList) (tokens : List Token) :
    (path ++ queryText mark tokens).toList.takeWhile (· != c) = path.toList := by
  rw [String.toList_append, List.takeWhile_append_of_pos]
  · cases tokens with
    | nil => simp [queryText]
    | cons t rest =>
      rw [toList_queryText, hm]
      simp
  · intro d hd
    rw [bne_iff_ne]
    rintro rfl
    exact hp hd

theorem Server.pathAt?_locate (server : Server) {path : String} (hq : '?' ∉ path.toList)
    (ha : '&' ∉ path.toList) (tokens : List Token) :
    server.pathAt? (server.locate path ++ queryText server.optionMark tokens)
      = some path.toList := by
  unfold Server.pathAt? Server.locate Server.optionMark
  cases server.addressing with
  | path =>
    simp only
    rw [String.append_assoc, behind?_append, Option.map_some, takeWhile_queryText rfl hq]
  | param =>
    simp only
    rw [String.append_assoc, behind?_append, Option.map_some, takeWhile_queryText rfl ha]

theorem mark_not_mem_encodeImagePath {c : Char} (hc : c = '?' ∨ c = '&') (s : String) :
    c ∉ (encodeImagePath s).toList := by
  rcases hc with rfl | rfl <;> exact Percent.not_mem_encode (by decide) (by decide) (by decide) _

theorem TileRequest.mark_not_mem_path (r : TileRequest) {c : Char} (hc : c = '?' ∨ c = '&') :
    c ∉ r.path.toList := by
  have himage := mark_not_mem_encodeImagePath hc r.image
  have hquery : isQueryChar c = false := by rcases hc with rfl | rfl <;> decide
  have hlayer : c ∉ (natText r.layer).toList := (isQueryText_natText r.layer).not_mem hquery
  have htile : c ∉ (encodeComponent r.tile).toList :=
    (isQueryText_encodeComponent r.tile).not_mem hquery
  have hformat : c ∉ (encodeComponent (r.format.getD "jpeg")).toList :=
    (isQueryText_encodeComponent _).not_mem hquery
  have hfiles : c ∉ "_files/".toList := by rcases hc with rfl | rfl <;> decide
  have hrest : c ∉ "/".toList ∧ c ∉ ".".toList := by rcases hc with rfl | rfl <;> decide
  simp only [TileRequest.path, String.toList_append, List.mem_append, not_or]
  exact ⟨⟨⟨⟨⟨⟨himage, hfiles⟩, hlayer⟩, hrest.1⟩, htile⟩, hrest.2⟩, hformat⟩

/-- No slash follows the one behind the layer, so the last separator is the one in front of it. -/
theorem cutLastOccurrence_files (image : List Char) (layer : Nat) {file : List Char}
    (hfile : '/' ∉ file) :
    cutLastOccurrence "_files/".toList
        (image ++ ("_files/".toList ++ (Nat.toDigits 10 layer ++ '/' :: file)))
      = some (image, Nat.toDigits 10 layer ++ '/' :: file) := by
  have hlayer : '_' ∉ "files/".toList ++ (Nat.toDigits 10 layer ++ ['/']) := by
    have hd : '_' ∉ Nat.toDigits 10 layer := not_mem_run (by decide) (isRunOf_toDigits layer)
    simp [hd]
  have hlast : ¬ "_files/".toList <:+:
      "files/".toList ++ (Nat.toDigits 10 layer ++ '/' :: file) := by
    have hn := not_infix_append hlayer hfile "files".toList
    simpa using hn
  exact cutLastOccurrence_append_cons hlast image

theorem Server.pathAt?_tileAddress (server : Server) (r : TileRequest) :
    server.pathAt? (r.address server) = some r.path.toList :=
  server.pathAt?_locate (r.mark_not_mem_path (.inl rfl)) (r.mark_not_mem_path (.inr rfl)) r.tokens

end DeepZoom

/-! ## Any request -/

def Request.protocol : Request → Protocol
  | iip _ => .iip
  | iiifImage _ | iiifInfo _ => .iiif
  | deepZoomDescriptor _ | deepZoomTile _ => .deepZoom

theorem serverFor_eq_ok {α β : Type} {f : α → β} {protocol : Protocol} {server : Option α} {b : β}
    (h : f <$> serverFor protocol server = .ok b) : ∃ a, server = some a ∧ f a = b := by
  cases server with
  | none => cases h
  | some a =>
    cases h
    exact ⟨a, rfl, rfl⟩

end ImageGate
