import RenderStudioKit.Proofs.Relay

/-!
# What the texts of clients decode to

A client may set values that cannot be transmitted. Its text then does not decode, so nothing of it
reaches the server: what the server takes from the text of a client, it can relay.
-/

namespace RenderStudioKit.Proofs

open API Codec

section

variable [Usd]

lemma matrix4d_unreadable (m : Fin 16 → Usd.Double) :
    GfMatrix4d.ofJson (GfMatrix4d.toJson m) = .error .undefinedBehavior := rfl

lemma not_matrix_of_map {α : Type} {x : Except Fault α} {f : α → VtValue} {v : VtValue}
    (hf : ∀ a, ¬ContainsMatrix (f a)) (h : f <$> x = .ok v) : ¬ContainsMatrix v := by
  obtain ⟨a, -, rfl⟩ := map_eq_ok.1 h
  exact hf a

lemma not_matrix_of_ite {c : Prop} [Decidable c] {x y : Except Fault VtValue} {v : VtValue}
    (hx : c → x = .ok v → ¬ContainsMatrix v) (hy : y = .ok v → ¬ContainsMatrix v)
    (h : (if c then x else y) = .ok v) : ¬ContainsMatrix v := by
  split_ifs at h with hc
  · exact hx hc h
  · exact hy h

lemma leafOfJson_not_matrix {type : String} (htype : type ≠ "GfMatrix4d") {data : Json}
    {v : VtValue} (h : VtValue.leafOfJson type data = .ok v) : ¬ContainsMatrix v := by
  revert h
  unfold VtValue.leafOfJson
  iterate 14 refine not_matrix_of_ite (fun _ => not_matrix_of_map fun _ => nofun) ?_
  refine not_matrix_of_ite (fun hmatrix _ => absurd hmatrix htype) ?_
  iterate 7 refine not_matrix_of_ite (fun _ => not_matrix_of_map fun _ => nofun) ?_
  refine not_matrix_of_ite (fun _ h => ?_) fun h => ?_
  · obtain rfl := Except.ok.inj h
    nofun
  · exact absurd h (by simp)

/-- The names of the types that contain no other values. -/
def leafTypeNames : List String :=
  ["GfVec3d", "GfVec3f", "bool", "SdfSpecifier", "TfToken", "string", "SdfVariability",
    "VtArray<int>", "VtArray<float>", "VtArray<TfToken>", "VtArray<GfVec2f>", "VtArray<GfVec3f>",
    "double", "float", "vector<TfToken,allocator<TfToken> >", "SdfListOp<SdfPath>",
    "SdfListOp<SdfReference>", "SdfListOp<TfToken>", "vector<SdfPath,allocator<SdfPath> >", "int",
    "SdfAssetPath", "SdfValueBlock"]

omit [Usd] in
lemma removeBlanks_leafTypeNames : ∀ name ∈ leafTypeNames,
    VtValue.removeBlanks name ≠ "VtDictionary" ∧ VtValue.removeBlanks name ≠ "GfMatrix4d" := by
  decide

lemma leaf_not_matrix {v v' : VtValue} {data : Json} (hname : v.getTypeName ∈ leafTypeNames)
    (h : VtValue.dataOfJson v.typeText data = .ok v') : ¬ContainsMatrix v' := by
  obtain ⟨hdictionary, hmatrix⟩ := removeBlanks_leafTypeNames _ hname
  rw [VtValue.typeText, dataOfJson_leaf hdictionary] at h
  exact leafOfJson_not_matrix hmatrix h

omit [Usd] in
lemma removeBlanks_dictionary : VtValue.removeBlanks "VtDictionary" = "VtDictionary" := by decide

omit [Usd] in
lemma removeBlanks_matrix4d : VtValue.removeBlanks "GfMatrix4d" = "GfMatrix4d" := by decide

mutual

/-- Nothing that was encoded decodes to a value with a matrix. -/
theorem dataOfJson_not_matrix : ∀ (v : VtValue) (data : Json) (v' : VtValue),
    v.dataToJson = .ok data → VtValue.dataOfJson v.typeText data = .ok v' → ¬ContainsMatrix v'
  | .dictionary entries => by
    intro data v' hencode hdecode
    rw [VtValue.dataToJson] at hencode
    obtain ⟨members, hmembers, hdata⟩ := bind_eq_ok.1 hencode
    obtain rfl := Except.ok.inj hdata
    have htype : (VtValue.dictionary entries).typeText = "VtDictionary" := removeBlanks_dictionary
    rw [htype, VtValue.dataOfJson, if_pos rfl] at hdecode
    obtain ⟨entries', hentries, hv'⟩ := bind_eq_ok.1 hdecode
    obtain rfl := Except.ok.inj hv'
    have hnone := entriesOfJson_not_matrix entries members [] entries' hmembers nofun hentries
    rintro (_ | ⟨he, hmatrix⟩)
    exact hnone _ he hmatrix
  | .matrix4d m => by
    intro data v' hencode hdecode
    obtain rfl := Except.ok.inj hencode
    have htype : (VtValue.matrix4d m).typeText = "GfMatrix4d" := removeBlanks_matrix4d
    rw [htype, dataOfJson_leaf (by decide), VtValue.leafOfJson] at hdecode
    simp [matrix4d_unreadable] at hdecode
  | .empty | .timeSampleMap _ | .other _ => by
    intro data v' hencode
    simp [VtValue.dataToJson] at hencode
  | .vec3d _ | .vec3f _ | .bool _ | .specifier _ | .token _ | .string _ | .variability _
  | .intArray _ | .floatArray _ | .tokenArray _ | .vec2fArray _ | .vec3fArray _ | .double _
  | .float _ | .tokenVector _ | .pathListOp _ | .referenceListOp _ | .tokenListOp _
  | .pathVector _ | .int _ | .assetPath _ | .valueBlock =>
    fun _ _ _ h => leaf_not_matrix (by simp [VtValue.getTypeName, leafTypeNames]) h

lemma entriesOfJson_not_matrix : ∀ (entries : List (String × VtValue))
    (members : List (String × Json)) (result entries' : List (String × VtValue)),
    VtValue.entriesToJson entries = .ok members → (∀ e ∈ result, ¬ContainsMatrix e.2) →
    VtValue.entriesOfJson result members = .ok entries' → ∀ e ∈ entries', ¬ContainsMatrix e.2
  | [], members, result, entries', hencode, hresult, hdecode => by
    obtain rfl := Except.ok.inj hencode
    rw [VtValue.entriesOfJson] at hdecode
    rwa [← Except.ok.inj hdecode]
  | (key, value) :: entries, members, result, entries', hencode, hresult, hdecode => by
    rw [VtValue.entriesToJson] at hencode
    obtain ⟨data, hdata, hencode⟩ := bind_eq_ok.1 hencode
    obtain ⟨rest, hrest, hencode⟩ := bind_eq_ok.1 hencode
    obtain rfl := Except.ok.inj hencode
    rw [VtValue.entriesOfJson, ofJson_envelope] at hdecode
    obtain ⟨value', hvalue, hdecode⟩ := bind_eq_ok.1 hdecode
    refine entriesOfJson_not_matrix entries rest _ entries' hrest (fun e he => ?_) hdecode
    rcases mem_assign he with rfl | he
    · exact dataOfJson_not_matrix value data value' hdata hvalue
    · exact hresult e he

end

lemma ofJson_not_matrix {v v' : VtValue} {json : Json} (hencode : v.toJson = .ok json)
    (hdecode : VtValue.ofJson json = .ok v') : ¬ContainsMatrix v' := by
  obtain ⟨data, hdata, hjson⟩ := bind_eq_ok.1 hencode
  obtain rfl := Except.ok.inj hjson
  rw [ofJson_envelope] at hdecode
  exact dataOfJson_not_matrix v data v' hdata hdecode

lemma fieldOfJson_not_matrix {field field' : TfToken × VtValue} {json : Json}
    (hencode : fieldToJson field = .ok json) (hdecode : fieldOfJson json = .ok field') :
    ¬ContainsMatrix field'.2 := by
  obtain ⟨value, hvalue, hjson⟩ := bind_eq_ok.1 hencode
  obtain rfl := Except.ok.inj hjson
  unfold fieldOfJson at hdecode
  obtain ⟨_, -, hdecode⟩ := bind_eq_ok.1 hdecode
  obtain ⟨_, -, hdecode⟩ := bind_eq_ok.1 hdecode
  obtain ⟨member, hmember, hdecode⟩ := bind_eq_ok.1 hdecode
  obtain ⟨value', hvalue', hdecode⟩ := bind_eq_ok.1 hdecode
  obtain rfl := Except.ok.inj hdecode
  obtain rfl : value = member := by
    simpa [Json.valueAt, Json.asObject, Json.memberAt, List.lookup_cons] using hmember
  exact ofJson_not_matrix hvalue hvalue'

lemma updateOfJson_matrixFree {path : SdfPath} {spec : SpecData} {json : Json}
    (hencode : updateToJson path spec = .ok json) {updates updates' : HashTable}
    (hupdates : MatrixFree updates) (hdecode : updateOfJson updates json = .ok updates') :
    MatrixFree updates' := by
  obtain ⟨jsonFields, hjsonFields, hjson⟩ := bind_eq_ok.1 hencode
  obtain rfl := Except.ok.inj hjson
  obtain ⟨path', specType, jsonFields', fields, hmember, hmap, rfl⟩ := updateOfJson_cases hdecode
  obtain rfl : jsonFields = jsonFields' := by
    simpa [Json.valueAt, Json.asObject, Json.memberAt, List.lookup_cons] using hmember
  refine AllValues.append hupdates path' specType fun field hfield => ?_
  obtain ⟨jsonField, hjsonField, hdecode⟩ := mem_of_mapM_eq_ok hmap hfield
  obtain ⟨field', -, hencode⟩ := mem_of_mapM_eq_ok hjsonFields hjsonField
  exact fieldOfJson_not_matrix hencode hdecode

/-- The text of a client never decodes to a delta with a matrix. -/
theorem parseEvent_matrixFree {v v' : DeltaEvent} {text : Json} {name : String}
    (htext : v.event.toJson = .ok text) (hparse : parseEvent text = some ⟨name, .delta v'⟩) :
    MatrixFree v'.updates := by
  obtain ⟨jsonUpdates, hjsonUpdates, hupdates⟩ := parseEvent_delta_updates htext hparse
  refine foldlM_keep (fun known jsonUpdate hmem result hknown hdecode => ?_)
    (AllValues.empty _) hupdates
  obtain ⟨update, -, hupdate⟩ := mem_of_mapM_eq_ok hjsonUpdates hmem
  exact updateOfJson_matrixFree hupdate hknown hdecode

end

end RenderStudioKit.Proofs
