import RenderStudioKit.Lib.Codec
import RenderStudioKit.Lib.Uri
import RenderStudioKit.Model.Url

/-!
# Session addresses

The names that the server reads from a target against the identifiers that the client put into its
URL. The client joins them without an escape, so a separator in an identifier moves a boundary.
-/

namespace RenderStudioKit.Proofs

/-- `uriParse` separates the path and the query of a text it accepts as RFC 3986 does. -/
structure SplitsUri (uriParse : String → Option UriUri) : Prop where
  pathHead {text : String} {uri : UriUri} (h : uriParse text = some uri) :
    uri.pathHead.map String.toList = Uri.segments (Uri.path text.toList)
  query {text : String} {uri : UriUri} (h : uriParse text = some uri) :
    uri.query.toList = Uri.query text.toList

/-- The identifiers have no character at which one of the three parsers ends a part, and the URL none
at which its text ends. -/
structure SafeIds (info : LiveSessionInfo) : Prop where
  channelId : ∀ c ∈ info.channelId.toList, c ∉ ['/', '?', '#', nul]
  userId : ∀ c ∈ info.userId.toList, c ∉ ['&', '#', nul]
  liveUrl : nul ∉ (replaceLocalhost info.liveUrl).toList

/-- The target of a path and a query. -/
def targetOf (path query : List Char) : List Char :=
  if query = [] then path else path ++ '?' :: query

/-- What `StartLiveMode` appends to the live URL, behind the first slash. -/
def addressRest (channelId userId : List Char) : List Char :=
  channelId ++ '/' :: '?' :: ("user=".toList ++ userId)

lemma joinPath_toList (pathHead : List String) (path : String) :
    (pathHead.foldl (fun path text => path ++ ("/" ++ text)) path).toList =
      path.toList ++ (pathHead.map String.toList).flatMap ('/' :: ·) := by
  induction pathHead generalizing path with
  | nil => simp
  | cons text pathHead ih =>
    rw [List.foldl_cons, ih]
    simp

lemma parse_target {uriParse : String → Option UriUri} {request : String} {url : ParsedUrl}
    (h : Url.parse uriParse request = .ok url) : ∃ uri, uriParse (cString request) = some uri ∧
      url.mTarget.toList =
        targetOf ((uri.pathHead.map String.toList).flatMap ('/' :: ·)) uri.query.toList := by
  unfold Url.parse at h
  cases huri : uriParse (cString request) with
  | none => simp [huri] at h
  | some uri =>
    simp only [huri] at h
    obtain ⟨mPort, -, h⟩ := Codec.bind_eq_ok.1 h
    refine ⟨uri, rfl, ?_⟩
    rw [← Except.ok.inj h]
    have hjoin := joinPath_toList uri.pathHead ""
    by_cases hquery : uri.query = ""
    · simpa [targetOf, hquery] using hjoin
    · have hne : uri.query.toList ≠ [] := by simpa using hquery
      simp only [if_neg hquery, targetOf, if_neg hne, String.toList_append, hjoin]
      simp

lemma startLiveModeUrl_toList (info : LiveSessionInfo) : (startLiveModeUrl info).toList =
    (replaceLocalhost info.liveUrl).toList ++
      '/' :: addressRest info.channelId.toList info.userId.toList := by
  simp [startLiveModeUrl, addressRest]

lemma nul_mem_startLiveModeUrl (info : LiveSessionInfo) : nul ∈ (startLiveModeUrl info).toList ↔
    nul ∈ (replaceLocalhost info.liveUrl).toList ∨ nul ∈ info.channelId.toList ∨
      nul ∈ info.userId.toList := by
  have hslash : nul ≠ '/' := by decide
  have hmark : nul ≠ '?' := by decide
  have huser : nul ∉ "user=".toList := by decide +kernel
  rw [startLiveModeUrl_toList, addressRest]
  simp only [List.mem_append, List.mem_cons, hslash, hmark, huser, false_or]

lemma cString_of_notMem {text : String} (h : nul ∉ text.toList) : cString text = text := by
  have hkeep : text.toList.takeWhile (· ≠ nul) = text.toList := by
    rw [List.takeWhile_eq_self_iff]
    intro c hc
    simpa using fun heq : c = nul => h (heq ▸ hc)
  rw [cString, hkeep, String.ofList_toList]

lemma nul_notMem_cString (text : String) : nul ∉ (cString text).toList := by
  rw [cString, String.toList_ofList]
  intro h
  simpa using List.mem_takeWhile_imp h

lemma SafeIds.nul_notMem {info : LiveSessionInfo} (h : SafeIds info) :
    nul ∉ (startLiveModeUrl info).toList := by
  rw [nul_mem_startLiveModeUrl]
  rintro (hurl | hchannel | huser)
  · exact h.liveUrl hurl
  · exact h.channelId nul hchannel (by simp)
  · exact h.userId nul huser (by simp)

lemma target_of_parse {uriParse : String → Option UriUri} {info : LiveSessionInfo} {url : ParsedUrl}
    (hsplit : SplitsUri uriParse) (horigin : Uri.IsOrigin (replaceLocalhost info.liveUrl).toList)
    (hnul : nul ∉ (startLiveModeUrl info).toList)
    (h : Url.parse uriParse (startLiveModeUrl info) = .ok url) :
    let rest := '/' :: addressRest info.channelId.toList info.userId.toList
    url.mTarget.toList = targetOf (rest.takeWhile (· ∉ ['?', '#']))
      (Uri.queryBehind (rest.dropWhile (· ∉ ['?', '#']))) := by
  intro rest
  obtain ⟨uri, huri, htarget⟩ := parse_target h
  rw [cString_of_notMem hnul] at huri
  have hauthority : Uri.afterAuthority (startLiveModeUrl info).toList = rest := by
    rw [startLiveModeUrl_toList]
    exact Uri.afterAuthority_origin horigin
  have hpath : Uri.path (startLiveModeUrl info).toList = rest.takeWhile (· ∉ ['?', '#']) := by
    rw [Uri.path, hauthority]
  have hslash : rest.takeWhile (· ∉ ['?', '#']) =
      '/' :: (addressRest info.channelId.toList info.userId.toList).takeWhile (· ∉ ['?', '#']) := by
    simp [rest]
  rw [htarget, hsplit.pathHead huri, hsplit.query huri, hpath, hslash, Uri.flatMap_segments,
    Uri.query, hauthority]

lemma readUser_mem {P : Char → Prop} {userName keyValue : List Char} (huser : ∀ c ∈ userName, P c)
    (hvalue : ∀ c ∈ keyValue, P c) : ∀ c ∈ readUser userName keyValue, P c := by
  intro c hc
  unfold readUser at hc
  split at hc
  · have hdrop := List.mem_of_mem_tail hc
    exact hvalue c ((List.dropWhile_sublist _).subset hdrop)
  · exact huser c hc

lemma foldl_readUser_mem {P : Char → Prop} (parts : List (List Char)) {userName : List Char}
    (huser : ∀ c ∈ userName, P c) (hparts : ∀ part ∈ parts, ∀ c ∈ part, P c) :
    ∀ c ∈ parts.foldl readUser userName, P c := by
  induction parts generalizing userName with
  | nil => exact huser
  | cons part parts ih =>
    rw [List.foldl_cons]
    apply ih
    · exact readUser_mem huser (hparts part List.mem_cons_self)
    · intro next hnext
      exact hparts next (List.mem_cons_of_mem part hnext)

lemma extract_targetOf {target : String} {path query : List Char}
    (htarget : target.toList = targetOf path query) (hpath : '?' ∉ path) :
    extractChannelAndUserNames target = (.ofList (path.filter (· ≠ '/')),
      .ofList ((query.splitOn '&').foldl readUser [])) := by
  have hpos : ∀ c ∈ path, decide (c ≠ '?') = true := by
    intro c hc
    simpa using fun heq : c = '?' => hpath (heq ▸ hc)
  have hchannel : target.toList.takeWhile (· ≠ '?') = path := by
    rw [htarget, targetOf]
    split
    · simpa using hpos
    · exact Uri.takeWhile_append_stop hpos (by simp)
  have hquery : (target.toList.dropWhile (· ≠ '?')).tail = query := by
    rw [htarget, targetOf]
    split
    · rename_i hnil
      rw [hnil, List.dropWhile_eq_nil_iff.2 hpos, List.tail_nil]
    · rw [Uri.dropWhile_append_stop hpos (by simp), List.tail_cons]
  unfold extractChannelAndUserNames
  rw [hchannel, hquery]

/-- Identifiers without a separator come back. -/
lemma extract_of_safeIds {info : LiveSessionInfo} {target : String} (h : SafeIds info) :
    let rest := '/' :: addressRest info.channelId.toList info.userId.toList
    target.toList = targetOf (rest.takeWhile (· ∉ ['?', '#']))
      (Uri.queryBehind (rest.dropWhile (· ∉ ['?', '#']))) →
    extractChannelAndUserNames target = (info.channelId, info.userId) := by
  intro rest htarget
  obtain ⟨hchannel, huser, -⟩ := h
  set channel := info.channelId.toList
  set user := info.userId.toList
  have hpos : ∀ c ∈ '/' :: channel ++ ['/'], decide (c ∉ ['?', '#']) = true := by
    simp only [List.mem_append, List.mem_cons, List.not_mem_nil]
    grind
  have hrest : rest = ('/' :: channel ++ ['/']) ++ '?' :: ("user=".toList ++ user) := by
    simp [rest, addressRest, channel, user]
  have hpath : rest.takeWhile (· ∉ ['?', '#']) = '/' :: channel ++ ['/'] := by
    rw [hrest, Uri.takeWhile_append_stop hpos (by simp)]
  have hquery : Uri.queryBehind (rest.dropWhile (· ∉ ['?', '#'])) = "user=".toList ++ user := by
    rw [hrest, Uri.dropWhile_append_stop hpos (by simp), Uri.queryBehind]
    rw [List.takeWhile_eq_self_iff]
    intro c hc
    have : c ∈ "user=".toList ∨ c ∈ user := List.mem_append.1 hc
    grind
  have hfilter : ('/' :: channel ++ ['/']).filter (· ≠ '/') = channel := by
    have hself : channel.filter (· ≠ '/') = channel := by
      rw [List.filter_eq_self]
      intro c hc
      simpa using fun heq : c = '/' => hchannel c hc (by simp [heq])
    simpa using hself
  have hsplit : ("user=".toList ++ user).splitOn '&' = ["user=".toList ++ user] := by
    apply List.splitOn_eq_singleton
    grind
  rw [hpath, hquery] at htarget
  rw [extract_targetOf htarget (by grind), hfilter, hsplit]
  simp [readUser, channel, user]

/-- No identifier that comes back has a separator. -/
lemma safeIds_of_extract {info : LiveSessionInfo} {target : String}
    (hnul : nul ∉ (startLiveModeUrl info).toList) :
    let rest := '/' :: addressRest info.channelId.toList info.userId.toList
    target.toList = targetOf (rest.takeWhile (· ∉ ['?', '#']))
      (Uri.queryBehind (rest.dropWhile (· ∉ ['?', '#']))) →
    extractChannelAndUserNames target = (info.channelId, info.userId) → SafeIds info := by
  intro rest htarget hextract
  rw [nul_mem_startLiveModeUrl, not_or, not_or] at hnul
  obtain ⟨hnulUrl, hnulChannel, hnulUser⟩ := hnul
  have hpath : ∀ c ∈ rest.takeWhile (· ∉ ['?', '#']), c ∉ ['?', '#'] := by
    intro c hc
    simpa using List.mem_takeWhile_imp hc
  have hquery : ∀ c ∈ Uri.queryBehind (rest.dropWhile (· ∉ ['?', '#'])), c ≠ '#' := by
    intro c hc
    unfold Uri.queryBehind at hc
    split at hc
    · simpa using List.mem_takeWhile_imp hc
    · simp at hc
  rw [extract_targetOf htarget (fun hc => hpath _ hc (by simp)), Prod.mk.injEq] at hextract
  obtain ⟨hchannel, huser⟩ := hextract
  refine ⟨?_, ?_, hnulUrl⟩
  · intro c hc
    have hne : c ≠ nul := fun heq => hnulChannel (heq ▸ hc)
    rw [← hchannel, String.toList_ofList, List.mem_filter] at hc
    have := hpath c hc.1
    grind
  · intro c hc
    have hne : c ≠ nul := fun heq => hnulUser (heq ▸ hc)
    have hsep : c ∉ ['&', '#'] := by
      rw [← huser, String.toList_ofList] at hc
      refine foldl_readUser_mem (P := (· ∉ ['&', '#'])) _ (by simp) ?_ c hc
      intro part hpart c hc
      obtain ⟨hsep, hmem⟩ := Uri.of_mem_splitOn hpart
      have := hquery c (hmem c hc)
      grind
    grind

lemma mem_of_extract {uriParse : String → Option UriUri} {request : String} {url : ParsedUrl}
    (hsplit : SplitsUri uriParse) (h : Url.parse uriParse request = .ok url) :
    (∀ c ∈ (extractChannelAndUserNames url.mTarget).1.toList, c ∈ (cString request).toList) ∧
      ∀ c ∈ (extractChannelAndUserNames url.mTarget).2.toList,
        c ∈ (cString request).toList ∧ '?' ∈ (cString request).toList := by
  obtain ⟨uri, huri, htarget⟩ := parse_target h
  rw [hsplit.pathHead huri, hsplit.query huri] at htarget
  set text := (cString request).toList
  have hjoined : ∀ c ∈ (Uri.segments (Uri.path text)).flatMap ('/' :: ·),
      c = '/' ∨ c ∈ Uri.path text := by
    intro c hc
    obtain ⟨segment, hsegment, hc⟩ := List.mem_flatMap.1 hc
    exact (List.mem_cons.1 hc).imp_right (Uri.of_mem_segments hsegment c)
  have hmark : '?' ∉ (Uri.segments (Uri.path text)).flatMap ('/' :: ·) := by
    intro hmem
    rcases hjoined _ hmem with hslash | hpath
    · exact absurd hslash (by decide)
    · simpa using List.mem_takeWhile_imp hpath
  rw [extract_targetOf htarget hmark]
  refine ⟨fun c hc => ?_, fun c hc => ?_⟩
  · rw [String.toList_ofList, List.mem_filter] at hc
    have hslash : c ≠ '/' := by simpa using hc.2
    exact Uri.of_mem_path ((hjoined c hc.1).resolve_left hslash)
  · rw [String.toList_ofList] at hc
    refine foldl_readUser_mem (P := fun c => c ∈ text ∧ '?' ∈ text) _ (by simp) ?_ c hc
    intro part hpart c hc
    exact Uri.of_mem_query ((Uri.of_mem_splitOn hpart).2 c hc)

lemma not_extract_of_nul {uriParse : String → Option UriUri} {info : LiveSessionInfo} {url : ParsedUrl}
    (hsplit : SplitsUri uriParse) (horigin : Uri.IsOrigin (replaceLocalhost info.liveUrl).toList)
    (huser : info.userId ≠ "") (hnul : nul ∈ (startLiveModeUrl info).toList)
    (h : Url.parse uriParse (startLiveModeUrl info) = .ok url) :
    extractChannelAndUserNames url.mTarget ≠ (info.channelId, info.userId) := by
  intro hextract
  obtain ⟨hchannelText, huserText⟩ := mem_of_extract hsplit h
  rw [hextract] at hchannelText huserText
  rcases (nul_mem_startLiveModeUrl info).1 hnul with horiginNul | hchannel | huserNul
  · -- the text ends within the origin
    obtain ⟨c, hc⟩ := List.exists_mem_of_ne_nil _ (by simpa using huser : info.userId.toList ≠ [])
    have hmark := (huserText c hc).2
    have htext : (cString (startLiveModeUrl info)).toList =
        (replaceLocalhost info.liveUrl).toList.takeWhile (· ≠ nul) := by
      rw [cString, String.toList_ofList, startLiveModeUrl_toList, List.takeWhile_append,
        if_neg]
      intro hlength
      have hall := List.takeWhile_eq_self_iff.1
        ((List.takeWhile_prefix (· ≠ nul)).eq_of_length hlength) nul horiginNul
      simp at hall
    rw [htext] at hmark
    obtain ⟨scheme, authority, hsplitOrigin, -, hscheme, hauthority⟩ := horigin.split
    have hmem := (List.takeWhile_sublist _).subset hmark
    rw [hsplitOrigin, List.mem_append, List.mem_cons, List.mem_cons, List.mem_cons] at hmem
    have hs := hscheme '?'
    have ha := hauthority '?'
    grind
  · exact nul_notMem_cString _ (hchannelText nul hchannel)
  · exact nul_notMem_cString _ (huserText nul huserNul).1

variable {uriParse : String → Option UriUri} {info : LiveSessionInfo} {url : ParsedUrl}

/-- The server reads the two identifiers of a client from the target of its request exactly when
they have no separator and nothing of its URL is cut off. Of two such clients in one channel, both gave
its identifier. -/
theorem session_address_exact_iff (hsplit : SplitsUri uriParse)
    (horigin : Uri.IsOrigin (replaceLocalhost info.liveUrl).toList) (huser : info.userId ≠ "")
    (hparse : Url.parse uriParse (startLiveModeUrl info) = .ok url) :
    (extractChannelAndUserNames url.mTarget = (info.channelId, info.userId) ↔ SafeIds info) ∧
      ∀ (other : LiveSessionInfo) (url' : ParsedUrl),
        Uri.IsOrigin (replaceLocalhost other.liveUrl).toList →
        Url.parse uriParse (startLiveModeUrl other) = .ok url' → SafeIds info → SafeIds other →
        (extractChannelAndUserNames url.mTarget).1 = (extractChannelAndUserNames url'.mTarget).1 →
        info.channelId = other.channelId := by
  refine ⟨⟨fun hextract => ?_, fun h => ?_⟩, ?_⟩
  · by_cases hnul : nul ∈ (startLiveModeUrl info).toList
    · exact absurd hextract (not_extract_of_nul hsplit horigin huser hnul hparse)
    · exact safeIds_of_extract hnul (target_of_parse hsplit horigin hnul hparse) hextract
  · exact extract_of_safeIds h (target_of_parse hsplit horigin h.nul_notMem hparse)
  · intro other url' hother hparse' hsafe hsafe' hchannel
    have htarget := target_of_parse hsplit horigin hsafe.nul_notMem hparse
    have htarget' := target_of_parse hsplit hother hsafe'.nul_notMem hparse'
    rwa [extract_of_safeIds hsafe htarget, extract_of_safeIds hsafe' htarget'] at hchannel

/-- The URI library on texts with a scheme, an authority without a port and a path. -/
def sampleUriParse (text : String) : Option UriUri :=
  some {
    scheme := "ws"
    hostText := "host"
    portText := ""
    pathHead := (Uri.segments (Uri.path text.toList)).map String.ofList
    query := .ofList (Uri.query text.toList) }

lemma sampleUriParse_splitsUri : SplitsUri sampleUriParse where
  pathHead h := by
    rw [← Option.some.inj h, List.map_map]
    simp [Function.comp_def]
  query h := by
    rw [← Option.some.inj h, String.toList_ofList]

def sampleInfo (channelId userId : String) : LiveSessionInfo := ⟨"ws://host", channelId, userId⟩

lemma sampleInfo_liveUrl (channelId userId : String) :
    (replaceLocalhost (sampleInfo channelId userId).liveUrl).toList = "ws://host".toList := by
  change (replaceLocalhost "ws://host").toList = _
  decide +kernel

lemma sampleInfo_isOrigin (channelId userId : String) :
    Uri.IsOrigin (replaceLocalhost (sampleInfo channelId userId).liveUrl).toList := by
  rw [sampleInfo_liveUrl]
  exact ⟨['w', 's'], ['h', 'o', 's', 't'], by decide +kernel, by simp, by simp, by simp⟩

/-- The target of a request to the sample server, empty if the URL does not parse. -/
def sampleTarget (channelId userId : String) : String :=
  match Url.parse sampleUriParse (startLiveModeUrl (sampleInfo channelId userId)) with
  | .ok url => url.mTarget
  | .error _ => ""

lemma sample_parses (channelId userId : String) : ∃ url,
    Url.parse sampleUriParse (startLiveModeUrl (sampleInfo channelId userId)) = .ok url ∧
      url.mTarget = sampleTarget channelId userId := by
  have hport : Url.portFor "" "ws" = .ok "80" := by decide +kernel
  obtain ⟨url, hurl⟩ : ∃ url,
      Url.parse sampleUriParse (startLiveModeUrl (sampleInfo channelId userId)) = .ok url := by
    simp only [Url.parse, sampleUriParse, hport, Codec.ok_bind]
    exact ⟨_, rfl⟩
  refine ⟨url, hurl, ?_⟩
  rw [sampleTarget, hurl]

theorem session_address_exact_room :
    extractChannelAndUserNames (sampleTarget "room" "alice") = ("room", "alice") := by
  obtain ⟨url, hparse, htarget⟩ := sample_parses "room" "alice"
  have hchannel : (sampleInfo "room" "alice").channelId.toList = ['r', 'o', 'o', 'm'] := by
    decide +kernel
  have huser : (sampleInfo "room" "alice").userId.toList = ['a', 'l', 'i', 'c', 'e'] := by
    decide +kernel
  have hsafe : SafeIds (sampleInfo "room" "alice") := by
    refine ⟨?_, ?_, ?_⟩
    · rw [hchannel]
      simp [nul]
    · rw [huser]
      simp [nul]
    · rw [sampleInfo_liveUrl]
      decide +kernel
  have hexact := session_address_exact_iff sampleUriParse_splitsUri
    (sampleInfo_isOrigin "room" "alice") (by decide) hparse
  rw [← htarget]
  exact hexact.1.2 hsafe

/-- A slash in a channel identifier is dropped, so two sessions become one, and a user identifier
with an ampersand gives the name of another user. -/
theorem session_address_ambiguous : ¬ ∀ uriParse : String → Option UriUri, SplitsUri uriParse →
    ∀ (info : LiveSessionInfo) (url : ParsedUrl),
      Uri.IsOrigin (replaceLocalhost info.liveUrl).toList → info.userId ≠ "" →
      Url.parse uriParse (startLiveModeUrl info) = .ok url →
      extractChannelAndUserNames url.mTarget = (info.channelId, info.userId) := by
  intro hclaim
  obtain ⟨url, hparse, htarget⟩ := sample_parses "a/b" "alice"
  have hname := hclaim sampleUriParse sampleUriParse_splitsUri (sampleInfo "a/b" "alice") url
    (sampleInfo_isOrigin "a/b" "alice") (by decide) hparse
  rw [htarget] at hname
  exact absurd hname (by decide +kernel)

end RenderStudioKit.Proofs
