import RenderStudioKit.Model.Server
import RenderStudioKit.Proofs.RemoteOrder
import RenderStudioKit.Proofs.ValueCodec

/-!
# Round trip of events

Decoding inverts encoding on every event whose values survive, up to the enumeration order
of the update table. The events the server re-encodes are of this kind because it decoded
them itself.
-/

namespace RenderStudioKit.Proofs

open API Codec

section

variable [Usd]

/-- The name of the event is that of its body. -/
def NameMatches (e : Event) : Prop :=
  match e.body with
  | .delta _ => e.event = "Delta::Event"
  | .acknowledge _ => e.event = "Acknowledge::Event"
  | .history => e.event = "History::Event"
  | .reload _ => e.event = "Reload::Event"

/-- The two deltas differ in the enumeration order of their updates at most. -/
structure SameDelta (v v' : DeltaEvent) : Prop where
  layer : v'.layer = v.layer
  user : v'.user = v.user
  sequence : v'.sequence = v.sequence
  updates : SameTable v'.updates v.updates

def SameBody : Body → Body → Prop
  | .delta v, .delta v' => SameDelta v v'
  | b, b' => b' = b

structure SameEvent (e e' : Event) : Prop where
  event : e'.event = e.event
  body : SameBody e.body e'.body

/-- Every value a table carries has the property. -/
def AllValues (P : VtValue → Prop) (updates : HashTable) : Prop :=
  ∀ path spec, updates.lookup path = some spec → ∀ field ∈ spec.fields, P field.2

lemma field_roundtrip {field : TfToken × VtValue} (h : RoundTrips field.2) :
    ∃ json, fieldToJson field = .ok json ∧ fieldOfJson json = .ok field := by
  obtain ⟨json, henc, hdec⟩ := h
  refine ⟨_, by rw [fieldToJson, henc]; rfl, ?_⟩
  simp [fieldOfJson, Json.valueAt, Json.asObject, Json.memberAt, List.lookup_cons, hdec]

lemma specType_roundtrip (v : SdfSpecType) : SdfSpecType.ofJson v.toJson = .ok v := by
  simp [SdfSpecType.ofJson, SdfSpecType.toJson]

lemma update_roundtrip (laws : UsdLaws) (path : SdfPath) {spec : SpecData}
    (h : ∀ field ∈ spec.fields, RoundTrips field.2) :
    ∃ json, updateToJson path spec = .ok json ∧ ∀ updates : HashTable,
      updateOfJson updates json = .ok (updates.insert path { spec with
        fields := ((updates.lookup path).getD {}).fields ++ spec.fields }) := by
  obtain ⟨jsonFields, henc, hdec⟩ := mapM_roundtrip fun field hfield =>
    field_roundtrip (h field hfield)
  refine ⟨_, by rw [updateToJson, henc]; rfl, fun updates => ?_⟩
  simp [updateOfJson, Json.valueAt, Json.asObject, Json.memberAt, List.lookup_cons, path_roundtrip laws,
    Json.toList, Json.asArray, hdec, specType_roundtrip]

/-- The updates of paths that are not in the table yet are added to it. -/
lemma updates_roundtrip (laws : UsdLaws) {entries : List (Sigma fun _ : SdfPath => SpecData)}
    (hnodup : entries.NodupKeys)
    (h : ∀ update ∈ entries, ∀ field ∈ update.2.fields, RoundTrips field.2) :
    ∃ jsonUpdates, entries.mapM (fun update => updateToJson update.1 update.2) = .ok jsonUpdates ∧
      ∀ updates : HashTable, (∀ update ∈ entries, update.1 ∉ updates) →
        ∃ result : HashTable, jsonUpdates.foldlM updateOfJson updates = .ok result ∧
          ∀ path, result.lookup path = (entries.dlookup path).or (updates.lookup path) := by
  induction entries with
  | nil => exact ⟨[], rfl, fun updates _ => ⟨updates, rfl, fun path => rfl⟩⟩
  | cons update entries ih =>
    obtain ⟨path, spec⟩ := update
    obtain ⟨hnew, hrest⟩ := List.nodupKeys_cons.1 hnodup
    obtain ⟨json, henc, hdec⟩ := update_roundtrip laws path
      (h ⟨path, spec⟩ List.mem_cons_self)
    obtain ⟨jsonUpdates, hencs, hdecs⟩ := ih hrest fun u hu => h u (List.mem_cons_of_mem _ hu)
    refine ⟨json :: jsonUpdates, by rw [List.mapM_cons, henc, hencs]; rfl, fun updates hupdates => ?_⟩
    have hmissing : updates.lookup path = none :=
      AList.lookup_eq_none.2 (hupdates ⟨path, spec⟩ List.mem_cons_self)
    obtain ⟨result, hresult, hlookup⟩ := hdecs (updates.insert path spec) fun u hu => by
      rw [AList.mem_insert, not_or]
      refine ⟨fun heq => hnew ?_, hupdates u (List.mem_cons_of_mem _ hu)⟩
      have hmem : u.1 ∈ entries.keys := List.mem_keys_of_mem hu
      rwa [heq] at hmem
    refine ⟨result, ?_, fun path' => ?_⟩
    · rw [List.foldlM_cons, hdec updates, hmissing, ok_bind]
      exact hresult
    · rw [hlookup path']
      by_cases hpath : path' = path
      · subst hpath
        rw [List.dlookup_cons_eq, List.dlookup_eq_none.2 hnew, AList.lookup_insert]
        rfl
      · rw [List.dlookup_cons_ne _ _ hpath, AList.lookup_insert_ne hpath]

lemma extractSequence_delta (layer user updates : Json) (sequence : Option Nat) :
    extractSequence ([("layer", layer), ("user", user)] ++ sequenceMember sequence ++
      [("updates", updates)]) = .ok sequence := by
  cases sequence <;> simp [extractSequence, sequenceMember, List.lookup_cons]

lemma lookup_updates (layer user updates : Json) (sequence : Option Nat) :
    List.lookup "updates" ([("layer", layer), ("user", user)] ++ sequenceMember sequence ++
      [("updates", updates)]) = some updates := by
  cases sequence <;> simp [sequenceMember, List.lookup_cons]

lemma delta_roundtrip (laws : UsdLaws) {v : DeltaEvent} (h : AllValues RoundTrips v.updates) :
    ∃ json v', v.toJson = .ok json ∧ DeltaEvent.ofJson json = .ok v' ∧ SameDelta v v' := by
  obtain ⟨jsonUpdates, henc, hdec⟩ := updates_roundtrip laws v.updates.nodupKeys
    fun update hupdate => h update.1 update.2 (AList.mem_lookup_iff.2 hupdate)
  obtain ⟨updates, hupdates, hlookup⟩ := hdec ∅ fun _ _ => AList.notMem_empty _
  refine ⟨_, ⟨v.layer, v.user, v.sequence, updates⟩, by rw [DeltaEvent.toJson, henc]; rfl, ?_,
    rfl, rfl, rfl, fun path => ?_⟩
  · have hsequence := extractSequence_delta (.string v.layer) (.string v.user)
      (.array jsonUpdates) v.sequence
    have hmember := lookup_updates (.string v.layer) (.string v.user)
      (.array jsonUpdates) v.sequence
    simp only [DeltaEvent.ofJson, Json.asObject, ok_bind, hsequence, Json.valueAt, Json.memberAt,
      hmember, Json.asArray, hupdates]
    simp [List.lookup_cons]
  · rw [hlookup path]
    simp [AList.lookup]

lemma acknowledge_roundtrip (laws : UsdLaws) (v : AcknowledgeEvent) :
    AcknowledgeEvent.ofJson v.toJson = .ok v := by
  have hpaths : (Json.ofList SdfPath.toJson v.paths).toList SdfPath.ofJson = .ok v.paths :=
    toList_ofList fun path _ => path_roundtrip laws path
  simp [AcknowledgeEvent.ofJson, AcknowledgeEvent.toJson, Json.asObject, Json.memberAt,
    List.lookup_cons, hpaths]

lemma reload_roundtrip (v : ReloadEvent) : ReloadEvent.ofJson v.toJson = .ok v := by
  obtain ⟨layer, user, sequence⟩ := v
  cases sequence <;> simp [ReloadEvent.ofJson, ReloadEvent.toJson, Json.asObject, Json.memberAt,
    List.lookup_cons, extractSequence, sequenceMember]

lemma event_roundtrip (laws : UsdLaws) {e : Event} (hname : NameMatches e)
    (h : ∀ v, e.body = .delta v → AllValues RoundTrips v.updates) :
    ∃ json e', e.toJson = .ok json ∧ Event.ofJson json = .ok e' ∧ SameEvent e e' := by
  obtain ⟨name, body⟩ := e
  cases body with
  | delta v =>
    obtain rfl : name = "Delta::Event" := hname
    obtain ⟨json, v', henc, hdec, hsame⟩ := delta_roundtrip laws (h v rfl)
    refine ⟨_, ⟨_, .delta v'⟩, by simp [Event.toJson, Event.bodyToJson, Event.getDelta, henc]; rfl, ?_,
      rfl, hsame⟩
    simp [Event.ofJson, Json.asObject, Json.memberAt, List.lookup_cons, hdec]
  | acknowledge v =>
    obtain rfl : name = "Acknowledge::Event" := hname
    refine ⟨_, _, by simp [Event.toJson, Event.bodyToJson, Event.getAcknowledge]; rfl, ?_, rfl, rfl⟩
    simp [Event.ofJson, Json.asObject, Json.memberAt, List.lookup_cons, acknowledge_roundtrip laws]
  | history =>
    obtain rfl : name = "History::Event" := hname
    refine ⟨_, _, by simp [Event.toJson, Event.bodyToJson, Event.getHistory]; rfl, ?_, rfl, rfl⟩
    simp [Event.ofJson, Json.asObject, Json.memberAt, List.lookup_cons]
  | reload v =>
    obtain rfl : name = "Reload::Event" := hname
    refine ⟨_, _, by simp [Event.toJson, Event.bodyToJson, Event.getReload]; rfl, ?_, rfl, rfl⟩
    simp [Event.ofJson, Json.asObject, Json.memberAt, List.lookup_cons, reload_roundtrip]

/-- Events with plain values survive encoding and decoding, and no value with an
unsupported kind at any depth is encoded. -/
theorem event_codec_roundtrip (laws : UsdLaws) :
    (∀ e : Event, NameMatches e → (∀ v, e.body = .delta v → AllValues Plain v.updates) →
      ∃ json e', e.toJson = .ok json ∧ Event.ofJson json = .ok e' ∧ SameEvent e e') ∧
    ∀ v : VtValue, Unsupported v → ∃ what, v.toJson = .error (.runtimeError what) := by
  refine ⟨fun e hname h => ?_, fun v hv => hv.throws⟩
  refine event_roundtrip laws hname fun v hv => ?_
  exact fun path spec hspec field hfield =>
    (h v hv path spec hspec field hfield).relayed.roundTrips laws

lemma AllValues.empty (P : VtValue → Prop) : AllValues P ∅ := by
  intro path spec hspec
  simp at hspec

lemma AllValues.insert {P : VtValue → Prop} {updates : HashTable} (h : AllValues P updates)
    (path : SdfPath) {spec : SpecData} (hspec : ∀ field ∈ spec.fields, P field.2) :
    AllValues P (updates.insert path spec) := by
  intro path' spec' hlookup
  by_cases hpath : path' = path
  · subst hpath
    rw [AList.lookup_insert, Option.some.injEq] at hlookup
    rwa [← hlookup]
  · rw [AList.lookup_insert_ne hpath] at hlookup
    exact h path' spec' hlookup

end

section

attribute [local instance] Usd.sample

lemma sample_laws : UsdLaws where
  emptyPath _ h := h
  parsePath _ _ := rfl
  narrow _ := rfl

/-- A delta whose value is a dictionary in a dictionary, and an empty value in one. -/
theorem event_codec_roundtrip_nested :
    let value : VtValue := .dictionary
      [("a", .dictionary [("b", .intArray [1, -2]), ("c", .token "x")]), ("d", .valueBlock)]
    let e := DeltaEvent.event ⟨"layer", "user", some 3, oneField "/a" .prim "customData" value⟩
    (∃ json e', e.toJson = .ok json ∧ Event.ofJson json = .ok e' ∧ SameEvent e e') ∧
      ∃ what, (VtValue.dictionary [("a", .empty)]).toJson = .error (.runtimeError what) := by
  intro value e
  have hinner : Plain (.dictionary [("b", .intArray [1, -2]), ("c", .token "x")]) := by
    refine .dictionary (by unfold IsDictionary; decide) fun entry hentry => .leaf ?_
    simp only [List.mem_cons, List.not_mem_nil, or_false] at hentry
    rcases hentry with rfl | rfl <;> rfl
  have hvalue : Plain value := by
    refine .dictionary (by unfold IsDictionary; decide) fun entry hentry => ?_
    simp only [List.mem_cons, List.not_mem_nil, or_false] at hentry
    rcases hentry with rfl | rfl
    · exact hinner
    · exact .leaf rfl
  refine ⟨(event_codec_roundtrip sample_laws).1 e rfl fun v hv => ?_,
    (event_codec_roundtrip sample_laws).2 _ (.dictionary List.mem_cons_self .empty)⟩
  obtain rfl := Body.delta.inj hv
  refine (AllValues.empty Plain).insert "/a" fun field hfield => ?_
  rwa [List.mem_singleton.1 hfield]

end

section

variable [Usd]

/-- An event that came out of the decoder. -/
structure DecodedEvent (e : Event) : Prop where
  name : NameMatches e
  values : ∀ v, e.body = .delta v → AllValues Decoded v.updates

lemma fieldOfJson_decoded {json : Json} {field : TfToken × VtValue}
    (h : fieldOfJson json = .ok field) : Decoded field.2 := by
  unfold fieldOfJson at h
  obtain ⟨_, -, h⟩ := bind_eq_ok.1 h
  obtain ⟨_, -, h⟩ := bind_eq_ok.1 h
  obtain ⟨jsonValue, -, h⟩ := bind_eq_ok.1 h
  obtain ⟨value, hvalue, h⟩ := bind_eq_ok.1 h
  obtain rfl := Except.ok.inj h
  exact ofJson_decoded jsonValue value hvalue

lemma asArray_eq_ok {json : Json} {items : List Json} (h : json.asArray = .ok items) :
    json = .array items := by
  cases json with
  | array items' => rw [Except.ok.inj h]
  | null | bool | int | double | string | object => cases h

lemma updateOfJson_cases {updates updates' : HashTable} {json : Json}
    (h : updateOfJson updates json = .ok updates') :
    ∃ path specType jsonFields fields, json.valueAt "fields" = .ok (.array jsonFields) ∧
      jsonFields.mapM fieldOfJson = .ok fields ∧ updates' = updates.insert path
        { specType := specType, fields := ((updates.lookup path).getD {}).fields ++ fields } := by
  unfold updateOfJson at h
  obtain ⟨_, -, h⟩ := bind_eq_ok.1 h
  obtain ⟨path, -, h⟩ := bind_eq_ok.1 h
  obtain ⟨member, hmember, h⟩ := bind_eq_ok.1 h
  obtain ⟨fields, hfields, h⟩ := bind_eq_ok.1 h
  obtain ⟨_, -, h⟩ := bind_eq_ok.1 h
  obtain ⟨specType, -, h⟩ := bind_eq_ok.1 h
  obtain ⟨jsonFields, harray, hmap⟩ := bind_eq_ok.1 hfields
  rw [asArray_eq_ok harray] at hmember
  exact ⟨path, specType, jsonFields, fields, hmember, hmap, (Except.ok.inj h).symm⟩

lemma AllValues.append {P : VtValue → Prop} {updates : HashTable} (h : AllValues P updates)
    (path : SdfPath) (specType : SdfSpecType) {fields : List (TfToken × VtValue)}
    (hfields : ∀ field ∈ fields, P field.2) :
    AllValues P (updates.insert path
      { specType := specType, fields := ((updates.lookup path).getD {}).fields ++ fields }) := by
  refine h.insert path fun field hfield => ?_
  rcases List.mem_append.1 hfield with hknown | hnew
  · cases hold : updates.lookup path with
    | none => simp [hold] at hknown
    | some known =>
      rw [hold] at hknown
      exact h path known hold field hknown
  · exact hfields field hnew

lemma updateOfJson_decoded (updates : HashTable) (json : Json) (updates' : HashTable)
    (hupdates : AllValues Decoded updates) (h : updateOfJson updates json = .ok updates') :
    AllValues Decoded updates' := by
  obtain ⟨path, specType, jsonFields, fields, -, hmap, rfl⟩ := updateOfJson_cases h
  refine hupdates.append path specType fun field hfield => ?_
  obtain ⟨jsonField, -, hdec⟩ := mem_of_mapM_eq_ok hmap hfield
  exact fieldOfJson_decoded hdec

lemma deltaOfJson_decoded {json : Json} {v : DeltaEvent} (h : DeltaEvent.ofJson json = .ok v) :
    AllValues Decoded v.updates := by
  unfold DeltaEvent.ofJson at h
  obtain ⟨_, -, h⟩ := bind_eq_ok.1 h
  obtain ⟨_, -, h⟩ := bind_eq_ok.1 h
  obtain ⟨_, -, h⟩ := bind_eq_ok.1 h
  obtain ⟨_, -, h⟩ := bind_eq_ok.1 h
  obtain ⟨_, -, h⟩ := bind_eq_ok.1 h
  obtain ⟨_, -, h⟩ := bind_eq_ok.1 h
  obtain ⟨_, -, h⟩ := bind_eq_ok.1 h
  obtain ⟨_, -, h⟩ := bind_eq_ok.1 h
  obtain ⟨updates, hupdates, h⟩ := bind_eq_ok.1 h
  obtain rfl := Except.ok.inj h
  exact foldlM_keep (fun updates json _ => updateOfJson_decoded updates json)
    (AllValues.empty Decoded) hupdates

/-- A parsed event has the name of its body and decoded values. -/
theorem parseEvent_decoded {message : Json} {e : Event} (h : parseEvent message = some e) :
    DecodedEvent e := by
  have hparsed : Event.ofJson message = .ok e := by
    unfold parseEvent at h
    cases hjson : Event.ofJson message with
    | error fault => simp [hjson, Except.toOption] at h
    | ok e' => simpa [hjson, Except.toOption] using h
  unfold Event.ofJson at hparsed
  obtain ⟨_, -, h⟩ := bind_eq_ok.1 hparsed
  obtain ⟨_, -, h⟩ := bind_eq_ok.1 h
  obtain ⟨name, -, h⟩ := bind_eq_ok.1 h
  split_ifs at h with hdelta hack hhistory hreload
  · obtain ⟨_, -, h⟩ := bind_eq_ok.1 h
    obtain ⟨v, hv, h⟩ := bind_eq_ok.1 h
    obtain rfl := Except.ok.inj h
    refine ⟨hdelta, fun v' hv' => ?_⟩
    obtain rfl := Body.delta.inj hv'
    exact deltaOfJson_decoded hv
  · obtain ⟨_, -, h⟩ := bind_eq_ok.1 h
    obtain ⟨v, -, h⟩ := bind_eq_ok.1 h
    obtain rfl := Except.ok.inj h
    exact ⟨hack, fun v' hv' => by cases hv'⟩
  · obtain ⟨_, -, h⟩ := bind_eq_ok.1 h
    obtain rfl := Except.ok.inj h
    exact ⟨hhistory, fun v' hv' => by cases hv'⟩
  · obtain ⟨_, -, h⟩ := bind_eq_ok.1 h
    obtain ⟨v, -, h⟩ := bind_eq_ok.1 h
    obtain rfl := Except.ok.inj h
    exact ⟨hreload, fun v' hv' => by cases hv'⟩

/-- A delta with decoded values can always be encoded. -/
theorem delta_event_encodes {v : DeltaEvent} (h : AllValues Decoded v.updates) :
    ∃ json, v.event.toJson = .ok json := by
  have hfield : ∀ update ∈ v.updates.entries, ∀ field ∈ update.2.fields,
      ∃ json, fieldToJson field = .ok json := by
    intro update hupdate field hfield
    obtain ⟨json, hjson⟩ :=
      (h update.1 update.2 (AList.mem_lookup_iff.2 hupdate) field hfield).encodes
    exact ⟨_, by rw [fieldToJson, hjson]; rfl⟩
  obtain ⟨jsonUpdates, hjsonUpdates⟩ := mapM_ok fun update hupdate => by
    obtain ⟨jsonFields, hjsonFields⟩ := mapM_ok (hfield update hupdate)
    exact ⟨_, show updateToJson update.1 update.2 = _ by rw [updateToJson, hjsonFields]; rfl⟩
  obtain ⟨json, hjson⟩ : ∃ json, v.toJson = .ok json :=
    ⟨_, by rw [DeltaEvent.toJson, hjsonUpdates]; rfl⟩
  exact ⟨_, by simp [DeltaEvent.event, Event.toJson, Event.bodyToJson, Event.getDelta, hjson]; rfl⟩

lemma acknowledge_event_encodes (v : AcknowledgeEvent) : ∃ json, v.event.toJson = .ok json :=
  ⟨_, by simp [AcknowledgeEvent.event, Event.toJson, Event.bodyToJson, Event.getAcknowledge]; rfl⟩

lemma reload_event_encodes (v : ReloadEvent) : ∃ json, v.event.toJson = .ok json :=
  ⟨_, by simp [ReloadEvent.event, Event.toJson, Event.bodyToJson, Event.getReload]; rfl⟩

lemma history_event_encodes : ∃ json, (historyEvent : Event).toJson = .ok json :=
  ⟨_, by simp [historyEvent, Event.toJson, Event.bodyToJson, Event.getHistory]; rfl⟩

lemma event_toJson_eq {v : DeltaEvent} {text : Json} (h : v.event.toJson = .ok text) :
    ∃ json, v.toJson = .ok json ∧
      text = .object [("event", .string "Delta::Event"), ("body", json)] := by
  unfold Event.toJson at h
  obtain ⟨json, hjson, h⟩ := bind_eq_ok.1 h
  exact ⟨json, hjson, (Except.ok.inj h).symm⟩

lemma parseEvent_object {name : String} {body : Json} {e : Event}
    (h : parseEvent (.object [("event", .string name), ("body", body)]) = some e) :
    Event.ofJson (.object [("event", .string name), ("body", body)]) = .ok e := by
  unfold parseEvent at h
  cases hjson : Event.ofJson (.object [("event", .string name), ("body", body)]) with
  | error fault => simp [hjson, Except.toOption] at h
  | ok e' => simpa [hjson, Except.toOption] using h

lemma ofJson_delta {json : Json} {e : Event}
    (h : Event.ofJson (.object [("event", .string "Delta::Event"), ("body", json)]) = .ok e) :
    ∃ v, DeltaEvent.ofJson json = .ok v ∧ e = ⟨"Delta::Event", .delta v⟩ := by
  cases hdec : DeltaEvent.ofJson json with
  | error fault => simp [Event.ofJson, Json.asObject, Json.memberAt, List.lookup_cons, hdec] at h
  | ok v =>
    have hevent : Event.ofJson (.object [("event", .string "Delta::Event"), ("body", json)]) =
        .ok ⟨"Delta::Event", .delta v⟩ := by
      simp [Event.ofJson, Json.asObject, Json.memberAt, List.lookup_cons, hdec]
    rw [hevent] at h
    exact ⟨v, rfl, (Except.ok.inj h).symm⟩

lemma delta_readBack {v v' : DeltaEvent} {json : Json} (henc : v.toJson = .ok json)
    (hdec : DeltaEvent.ofJson json = .ok v') :
    (v'.layer = v.layer ∧ v'.user = v.user ∧ v'.sequence = v.sequence) ∧ ∃ jsonUpdates,
      v.updates.entries.mapM (fun update => updateToJson update.1 update.2) = .ok jsonUpdates ∧
        jsonUpdates.foldlM updateOfJson ∅ = .ok v'.updates := by
  unfold DeltaEvent.toJson at henc
  obtain ⟨jsonUpdates, hjsonUpdates, henc⟩ := bind_eq_ok.1 henc
  obtain rfl := Except.ok.inj henc
  have hsequence := extractSequence_delta (.string v.layer) (.string v.user)
    (.array jsonUpdates) v.sequence
  have hmember := lookup_updates (.string v.layer) (.string v.user) (.array jsonUpdates) v.sequence
  simp only [DeltaEvent.ofJson, Json.asObject, ok_bind, hsequence, Json.valueAt, Json.memberAt,
    hmember, Json.asArray] at hdec
  cases hupdates : jsonUpdates.foldlM updateOfJson ∅ with
  | error fault => simp [List.lookup_cons, hupdates] at hdec
  | ok updates =>
    simp only [List.cons_append, List.nil_append, List.lookup_cons, hupdates] at hdec
    obtain rfl := Except.ok.inj hdec
    exact ⟨⟨rfl, rfl, rfl⟩, jsonUpdates, hjsonUpdates, hupdates⟩

lemma parseEvent_delta {v : DeltaEvent} {text : Json} {e : Event}
    (htext : v.event.toJson = .ok text) (h : parseEvent text = some e) :
    ∃ v', e = ⟨"Delta::Event", .delta v'⟩ ∧ v'.layer = v.layer ∧ v'.user = v.user ∧
      v'.sequence = v.sequence := by
  obtain ⟨json, henc, rfl⟩ := event_toJson_eq htext
  obtain ⟨v', hdec, he⟩ := ofJson_delta (parseEvent_object h)
  exact ⟨v', he, (delta_readBack henc hdec).1⟩

lemma parseEvent_delta_updates {v v' : DeltaEvent} {text : Json} {name : String}
    (htext : v.event.toJson = .ok text) (h : parseEvent text = some ⟨name, .delta v'⟩) :
    ∃ jsonUpdates,
      v.updates.entries.mapM (fun update => updateToJson update.1 update.2) = .ok jsonUpdates ∧
        jsonUpdates.foldlM updateOfJson ∅ = .ok v'.updates := by
  obtain ⟨json, henc, rfl⟩ := event_toJson_eq htext
  obtain ⟨v'', hdec, he⟩ := ofJson_delta (parseEvent_object h)
  obtain rfl : v' = v'' := Body.delta.inj (congrArg Event.body he)
  exact (delta_readBack henc hdec).2

lemma parseEvent_delta_roundtrip (laws : UsdLaws) {v : DeltaEvent}
    (h : AllValues RoundTrips v.updates) :
    ∃ text v', v.event.toJson = .ok text ∧ parseEvent text = some ⟨"Delta::Event", .delta v'⟩ ∧
      SameDelta v v' := by
  obtain ⟨text, e', henc, hdec, hsame⟩ := event_roundtrip laws (e := v.event) rfl fun v' hv' => by
    obtain rfl := Body.delta.inj hv'
    exact h
  obtain ⟨name, body⟩ := e'
  obtain ⟨hname, hbody⟩ := hsame
  cases body with
  | delta v' =>
    refine ⟨text, v', henc, ?_, hbody⟩
    rw [parseEvent, hdec]
    exact congrArg some (congrArg (Event.mk · _) hname)
  | acknowledge v' => cases hbody
  | history => cases hbody
  | reload v' => cases hbody

/-- The text of an acknowledge is never taken for anything else. -/
lemma parseEvent_acknowledge_header {v : AcknowledgeEvent} {text : Json} {e : Event}
    (htext : v.event.toJson = .ok text) (h : parseEvent text = some e) :
    ∃ v', e = ⟨"Acknowledge::Event", .acknowledge v'⟩ ∧ v'.layer = v.layer := by
  have henc : v.event.toJson =
      .ok (.object [("event", .string "Acknowledge::Event"), ("body", v.toJson)]) := by
    simp [AcknowledgeEvent.event, Event.toJson, Event.bodyToJson, Event.getAcknowledge]
  rw [henc, Except.ok.injEq] at htext
  subst htext
  have hparsed := parseEvent_object h
  cases hdec : AcknowledgeEvent.ofJson v.toJson with
  | error fault => simp [Event.ofJson, Json.asObject, Json.memberAt, List.lookup_cons, hdec] at hparsed
  | ok v' =>
    have hevent : Event.ofJson (.object [("event", .string "Acknowledge::Event"),
        ("body", v.toJson)]) = .ok ⟨"Acknowledge::Event", .acknowledge v'⟩ := by
      simp [Event.ofJson, Json.asObject, Json.memberAt, List.lookup_cons, hdec]
    rw [hevent] at hparsed
    have hlayer : v'.layer = v.layer := by
      unfold AcknowledgeEvent.ofJson AcknowledgeEvent.toJson at hdec
      obtain ⟨root, hroot, hdec⟩ := bind_eq_ok.1 hdec
      obtain ⟨member, hmember, hdec⟩ := bind_eq_ok.1 hdec
      obtain ⟨layer, hlayer, hdec⟩ := bind_eq_ok.1 hdec
      obtain ⟨_, -, hdec⟩ := bind_eq_ok.1 hdec
      obtain ⟨_, -, hdec⟩ := bind_eq_ok.1 hdec
      obtain ⟨_, -, hdec⟩ := bind_eq_ok.1 hdec
      obtain ⟨_, -, hdec⟩ := bind_eq_ok.1 hdec
      obtain rfl := Except.ok.inj hdec
      obtain rfl := Except.ok.inj hroot
      have hstring : member = .string v.layer := by
        simpa [Json.memberAt, List.lookup_cons] using hmember.symm
      subst hstring
      simpa using hlayer.symm
    exact ⟨v', (Except.ok.inj hparsed).symm, hlayer⟩

lemma parseEvent_reload {v : ReloadEvent} {text : Json} (htext : v.event.toJson = .ok text) :
    parseEvent text = some v.event := by
  have henc : v.event.toJson =
      .ok (.object [("event", .string "Reload::Event"), ("body", v.toJson)]) := by
    simp [ReloadEvent.event, Event.toJson, Event.bodyToJson, Event.getReload]
  rw [henc, Except.ok.injEq] at htext
  subst htext
  simp [parseEvent, Event.ofJson, Json.asObject, Json.memberAt, List.lookup_cons, reload_roundtrip,
    ReloadEvent.event, Except.toOption]

lemma parseEvent_acknowledge (laws : UsdLaws) (v : AcknowledgeEvent) :
    ∃ text, v.event.toJson = .ok text ∧ parseEvent text = some v.event := by
  obtain ⟨text, e', henc, hdec, hsame⟩ := event_roundtrip laws (e := v.event) rfl fun v' hv' => by
    cases hv'
  refine ⟨text, henc, ?_⟩
  obtain ⟨name, body⟩ := e'
  obtain ⟨hname, hbody⟩ := hsame
  obtain rfl : body = v.event.body := by
    cases body <;> exact hbody
  rw [parseEvent, hdec]
  exact congrArg some (congrArg (Event.mk · _) hname)

end

end RenderStudioKit.Proofs
