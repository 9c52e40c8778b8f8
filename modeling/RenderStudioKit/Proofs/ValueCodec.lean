import Mathlib.Data.String.Basic
import RenderStudioKit.Lib.Codec
import RenderStudioKit.Model.Serialization

/-!
# Round trip of values

The two dispatch tables of `VtValue` agree: what one writes for a supported kind the other
reads back, at any depth of dictionaries, and a kind without an entry is never written.
-/

namespace RenderStudioKit.Proofs

open Codec

variable [Usd]

/-- What the code relies on in USD and in the hardware: a path is determined by its text
and widening a float loses nothing. -/
structure UsdLaws : Prop where
  emptyPath : ∀ path, Usd.getString path = "" → path = Usd.emptyPath
  parsePath : ∀ path, Usd.getString path ≠ "" → Usd.parsePath (Usd.getString path) = path
  narrow : ∀ x, Usd.narrow (Usd.widen x) = x

/-- The supported kinds that contain no other values, matrices and list edits aside. -/
def isLeaf : VtValue → Bool
  | .vec3d _ | .vec3f _ | .bool _ | .specifier _ | .token _ | .string _ | .variability _
  | .intArray _ | .floatArray _ | .tokenArray _ | .vec2fArray _ | .vec3fArray _
  | .double _ | .float _ | .tokenVector _ | .pathVector _ | .int _ | .assetPath _
  | .valueBlock => true
  | _ => false

/-- The entries of a dictionary are ordered by their keys, which are distinct. -/
def IsDictionary {V : Type} (entries : List (String × V)) : Prop :=
  entries.Pairwise fun e e' => e.1 < e'.1

/-- A value built through dictionaries from the supported kinds other than matrices and
list edits. -/
inductive Plain : VtValue → Prop where
  | leaf {v : VtValue} : isLeaf v = true → Plain v
  | dictionary {entries : List (String × VtValue)} :
      IsDictionary entries → (∀ e ∈ entries, Plain e.2) → Plain (.dictionary entries)

/-- A value with an unsupported kind at some depth of its dictionaries. -/
inductive Unsupported : VtValue → Prop where
  | empty : Unsupported .empty
  | timeSampleMap (v : List (Usd.Double × VtValue)) : Unsupported (.timeSampleMap v)
  | other (typeName : String) : Unsupported (.other typeName)
  | dictionary {entries : List (String × VtValue)} {e : String × VtValue} :
      e ∈ entries → Unsupported e.2 → Unsupported (.dictionary entries)

/-- The list edits the decoder builds: explicit and not empty, or made of prepended,
appended and deleted items. -/
def IsCanonical {T : Type} (op : SdfListOp T) : Prop :=
  (op.explicitItems ≠ [] ∧ op = .createExplicit op.explicitItems) ∨
    op = .create op.prependedItems op.appendedItems op.deletedItems

def AllItems {T : Type} (P : T → Prop) (op : SdfListOp T) : Prop :=
  ∀ item, item ∈ op.explicitItems ∨ item ∈ op.prependedItems ∨ item ∈ op.appendedItems ∨
    item ∈ op.deletedItems → P item

/-- The values that survive the relay: plain ones and canonical list edits. -/
inductive Relayed : VtValue → Prop where
  | leaf {v : VtValue} : isLeaf v = true → Relayed v
  | pathListOp {op : SdfListOp SdfPath} : IsCanonical op → Relayed (.pathListOp op)
  | referenceListOp {op : SdfListOp (SdfReference VtValue)} :
      IsCanonical op → AllItems (fun item => item.customData = []) op →
      Relayed (.referenceListOp op)
  | tokenListOp {op : SdfListOp TfToken} : IsCanonical op → Relayed (.tokenListOp op)
  | dictionary {entries : List (String × VtValue)} :
      IsDictionary entries → (∀ e ∈ entries, Relayed e.2) → Relayed (.dictionary entries)

lemma Plain.relayed {v : VtValue} (h : Plain v) : Relayed v := by
  induction h with
  | leaf h => exact .leaf h
  | dictionary hsorted _ ih => exact .dictionary hsorted ih

@[simp] lemma toInt32_ofInt32 (n : Int32) : (Json.ofInt32 n).toInt32 = .ok n := by
  have hrange : -2 ^ 31 ≤ n.toInt ∧ n.toInt < 2 ^ 31 := ⟨n.le_toInt, n.toInt_lt⟩
  simp only [Json.ofInt32, Json.toInt32, Json.toInteger, ok_bind]
  rw [if_pos hrange, Int32.ofInt_toInt]

@[simp] lemma toSize_int (n : Nat) : (Json.int n).toSize = .ok n := by
  simp [Json.toSize, Json.toInteger]

lemma toFloat_ofFloat (laws : UsdLaws) (x : Usd.Float) : (Json.ofFloat x).toFloat = .ok x := by
  simp [Json.ofFloat, Json.toFloat, laws.narrow]

@[simp] lemma toString_string (s : String) : (Json.string s).toString = .ok s := rfl

@[simp] lemma toDouble_double (x : Usd.Double) : (Json.double x).toDouble = .ok x := rfl

lemma toList_ofList_map {α : Type} {enc : α → Json} {dec : Json → Except Fault α} {norm : α → α}
    {items : List α} (h : ∀ a ∈ items, dec (enc a) = .ok (norm a)) :
    (Json.ofList enc items).toList dec = .ok (items.map norm) := by
  unfold Json.toList Json.ofList Json.asArray
  rw [ok_bind]
  exact mapM_map_ok h

lemma toList_ofList {α : Type} {enc : α → Json} {dec : Json → Except Fault α} {items : List α}
    (h : ∀ a ∈ items, dec (enc a) = .ok a) : (Json.ofList enc items).toList dec = .ok items := by
  have hmap : (Json.ofList enc items).toList dec = .ok (items.map id) := toList_ofList_map h
  rwa [List.map_id] at hmap

lemma toList_strings (items : List String) :
    (Json.ofList Json.string items).toList Json.toString = .ok items :=
  toList_ofList fun _ _ => rfl

lemma path_roundtrip (laws : UsdLaws) (path : SdfPath) :
    SdfPath.ofJson (SdfPath.toJson path) = .ok path := by
  unfold SdfPath.ofJson SdfPath.toJson
  rw [toString_string, ok_bind]
  split_ifs with htext
  · rw [laws.emptyPath path htext]
  · rw [laws.parsePath path htext]

lemma assetPath_roundtrip (v : SdfAssetPath) : SdfAssetPath.ofJson v.toJson = .ok v := by
  simp [SdfAssetPath.ofJson, SdfAssetPath.toJson, Json.asObject, Json.member, List.lookup_cons]

lemma layerOffset_roundtrip (v : SdfLayerOffset) : SdfLayerOffset.ofJson v.toJson = .ok v := by
  simp [SdfLayerOffset.ofJson, SdfLayerOffset.toJson, Json.asObject, Json.member, List.lookup_cons]

lemma reference_roundtrip (laws : UsdLaws) {V : Type} {v : SdfReference V}
    (h : v.customData = []) : SdfReference.ofJson v.toJson = .ok v := by
  obtain ⟨assetPath, primPath, layerOffset, customData⟩ := v
  obtain rfl : customData = [] := h
  simp [SdfReference.ofJson, SdfReference.toJson, Json.asObject, Json.member, List.lookup_cons,
    path_roundtrip laws, layerOffset_roundtrip]

lemma vec3d_roundtrip (v : GfVec3d) : GfVec3d.ofJson v.toJson = .ok v := by
  simp [GfVec3d.ofJson, GfVec3d.toJson, Json.asArray, Json.itemAt]

lemma vec2f_roundtrip (laws : UsdLaws) (v : GfVec2f) : GfVec2f.ofJson v.toJson = .ok v := by
  simp [GfVec2f.ofJson, GfVec2f.toJson, Json.asArray, Json.itemAt, toFloat_ofFloat laws]

lemma vec3f_roundtrip (laws : UsdLaws) (v : GfVec3f) : GfVec3f.ofJson v.toJson = .ok v := by
  simp [GfVec3f.ofJson, GfVec3f.toJson, Json.asArray, Json.itemAt, toFloat_ofFloat laws]

lemma listOp_roundtrip {T : Type} {enc : T → Json} {dec : Json → Except Fault T}
    {op : SdfListOp T} (hop : IsCanonical op) (h : AllItems (fun item => dec (enc item) = .ok item) op) :
    SdfListOp.ofJson dec (op.toJson enc) = .ok op := by
  have hexplicit := toList_ofList fun a ha => h a (.inl ha)
  have hprepended := toList_ofList fun a ha => h a (.inr (.inl ha))
  have happended := toList_ofList fun a ha => h a (.inr (.inr (.inl ha)))
  have hdeleted := toList_ofList fun a ha => h a (.inr (.inr (.inr ha)))
  have hnone : (Json.ofList enc []).toList dec = .ok [] := toList_ofList (by simp)
  rcases hop with ⟨hne, hop⟩ | hop
  · rw [hop]
    simp [SdfListOp.ofJson, SdfListOp.toJson, SdfListOp.createExplicit, Json.valueAt,
      Json.asObject, Json.memberAt, List.lookup_cons, hexplicit, hnone, hne]
  · rw [hop]
    simp [SdfListOp.ofJson, SdfListOp.toJson, SdfListOp.create, Json.valueAt,
      Json.asObject, Json.memberAt, List.lookup_cons, hprepended, happended, hdeleted, hnone]

/-- The decoder reads back what the encoder writes for this value. -/
def ReadsBack (v : VtValue) : Prop :=
  ∃ data, v.dataToJson = .ok data ∧ VtValue.dataOfJson v.typeText data = .ok v

lemma dataOfJson_leaf {type : String} (h : type ≠ "VtDictionary") (data : Json) :
    VtValue.dataOfJson type data = VtValue.leafOfJson type data := by
  cases data <;> simp [VtValue.dataOfJson, h]

lemma ofJson_envelope (v : VtValue) (data : Json) :
    VtValue.ofJson (v.envelope data) = VtValue.dataOfJson v.typeText data := by
  simp [VtValue.envelope, VtValue.ofJson, Json.member, VtValue.memberOfJson]

lemma readsBack_leaf {v : VtValue} (name type : String) {data : Json}
    (hname : v.getTypeName = name) (hdata : v.dataToJson = .ok data)
    (htype : VtValue.removeBlanks name = type ∧ type ≠ "VtDictionary")
    (hleaf : VtValue.leafOfJson type data = .ok v) : ReadsBack v :=
  ⟨data, hdata, by rw [VtValue.typeText, hname, htype.1, dataOfJson_leaf htype.2, hleaf]⟩

lemma leaf_readsBack (laws : UsdLaws) {v : VtValue} (h : isLeaf v = true) : ReadsBack v := by
  have hfloat := toFloat_ofFloat laws
  have hpath := path_roundtrip laws
  have hvec2f := vec2f_roundtrip laws
  have hvec3f := vec3f_roundtrip laws
  cases v with
  | vec3d v =>
    exact readsBack_leaf "GfVec3d" "GfVec3d" rfl rfl (by decide)
      (by simp [VtValue.leafOfJson, vec3d_roundtrip])
  | vec3f v =>
    exact readsBack_leaf "GfVec3f" "GfVec3f" rfl rfl (by decide)
      (by simp [VtValue.leafOfJson, hvec3f])
  | bool v =>
    exact readsBack_leaf "bool" "bool" rfl rfl (by decide)
      (by simp [VtValue.leafOfJson, Json.toBool])
  | specifier v =>
    exact readsBack_leaf "SdfSpecifier" "SdfSpecifier" rfl rfl (by decide)
      (by simp [VtValue.leafOfJson])
  | token v =>
    exact readsBack_leaf "TfToken" "TfToken" rfl rfl (by decide)
      (by simp [VtValue.leafOfJson])
  | string v =>
    exact readsBack_leaf "string" "string" rfl rfl (by decide)
      (by simp [VtValue.leafOfJson])
  | variability v =>
    exact readsBack_leaf "SdfVariability" "SdfVariability" rfl rfl (by decide)
      (by simp [VtValue.leafOfJson])
  | intArray v =>
    exact readsBack_leaf "VtArray<int>" "VtArray<int>" rfl rfl (by decide)
      (by simp [VtValue.leafOfJson, toList_ofList])
  | floatArray v =>
    exact readsBack_leaf "VtArray<float>" "VtArray<float>" rfl rfl (by decide)
      (by simp [VtValue.leafOfJson, toList_ofList, hfloat])
  | tokenArray v =>
    exact readsBack_leaf "VtArray<TfToken>" "VtArray<TfToken>" rfl rfl (by decide)
      (by simp [VtValue.leafOfJson, toList_strings])
  | vec2fArray v =>
    exact readsBack_leaf "VtArray<GfVec2f>" "VtArray<GfVec2f>" rfl rfl (by decide)
      (by simp [VtValue.leafOfJson, toList_ofList, hvec2f])
  | vec3fArray v =>
    exact readsBack_leaf "VtArray<GfVec3f>" "VtArray<GfVec3f>" rfl rfl (by decide)
      (by simp [VtValue.leafOfJson, toList_ofList, hvec3f])
  | double v =>
    exact readsBack_leaf "double" "double" rfl rfl (by decide)
      (by simp [VtValue.leafOfJson])
  | float v =>
    exact readsBack_leaf "float" "float" rfl rfl (by decide)
      (by simp [VtValue.leafOfJson, hfloat])
  | tokenVector v =>
    exact readsBack_leaf "vector<TfToken,allocator<TfToken> >" "vector<TfToken,allocator<TfToken>>"
      rfl rfl (by decide)
      (by simp [VtValue.leafOfJson, toList_strings])
  | pathVector v =>
    exact readsBack_leaf "vector<SdfPath,allocator<SdfPath> >" "vector<SdfPath,allocator<SdfPath>>"
      rfl rfl (by decide)
      (by simp [VtValue.leafOfJson, toList_ofList, hpath])
  | int v =>
    exact readsBack_leaf "int" "int" rfl rfl (by decide)
      (by simp [VtValue.leafOfJson])
  | assetPath v =>
    exact readsBack_leaf "SdfAssetPath" "SdfAssetPath" rfl rfl (by decide)
      (by simp [VtValue.leafOfJson, assetPath_roundtrip])
  | valueBlock =>
    exact readsBack_leaf "SdfValueBlock" "SdfValueBlock" rfl rfl (by decide)
      (by simp [VtValue.leafOfJson])
  | _ => simp [isLeaf] at h

omit [Usd] in
lemma assign_append {V : Type} {key : String} (value : V) {result : List (String × V)}
    (h : ∀ e ∈ result, e.1 < key) :
    VtDictionary.assign key value result = result ++ [(key, value)] := by
  induction result with
  | nil => rfl
  | cons e result ih =>
    have hlt : e.1 < key := h e List.mem_cons_self
    unfold VtDictionary.assign
    rw [if_neg hlt.not_gt, if_neg hlt.ne', ih fun e' he' => h e' (List.mem_cons_of_mem e he')]
    rfl

lemma entries_readBack {entries : List (String × VtValue)} (hsorted : IsDictionary entries)
    (h : ∀ e ∈ entries, ReadsBack e.2) :
    ∃ members, VtValue.entriesToJson entries = .ok members ∧
      ∀ result : List (String × VtValue), (∀ r ∈ result, ∀ e ∈ entries, r.1 < e.1) →
        VtValue.entriesOfJson result members = .ok (result ++ entries) := by
  induction entries with
  | nil => exact ⟨[], rfl, fun result _ => by simp [VtValue.entriesOfJson]⟩
  | cons e entries ih =>
    obtain ⟨key, value⟩ := e
    obtain ⟨hfirst, hrest⟩ := List.pairwise_cons.1 hsorted
    obtain ⟨data, henc, hdec⟩ := h (key, value) List.mem_cons_self
    obtain ⟨members, hencs, hdecs⟩ := ih hrest fun e he => h e (List.mem_cons_of_mem _ he)
    refine ⟨(key, value.envelope data) :: members, ?_, fun result hresult => ?_⟩
    · simp only [VtValue.entriesToJson, henc, hencs, ok_bind]
    · have hassign := assign_append value fun r hr =>
        hresult r hr (key, value) List.mem_cons_self
      simp only [VtValue.entriesOfJson, ofJson_envelope, hdec, ok_bind, hassign]
      rw [hdecs _ fun r hr e he => ?_, List.append_assoc, List.singleton_append]
      rcases List.mem_append.1 hr with hr | hr
      · exact hresult r hr e (List.mem_cons_of_mem _ he)
      · obtain rfl := List.mem_singleton.1 hr
        exact hfirst e he

/-- Every relayed value is read back. -/
theorem Relayed.readsBack (laws : UsdLaws) {v : VtValue} (h : Relayed v) : ReadsBack v := by
  induction h with
  | leaf h => exact leaf_readsBack laws h
  | pathListOp hop =>
    exact readsBack_leaf "SdfListOp<SdfPath>" "SdfListOp<SdfPath>" rfl rfl (by decide)
      (by simp [VtValue.leafOfJson, listOp_roundtrip hop fun path _ => path_roundtrip laws path])
  | referenceListOp hop hitems =>
    exact readsBack_leaf "SdfListOp<SdfReference>" "SdfListOp<SdfReference>" rfl rfl (by decide)
      (by simp [VtValue.leafOfJson,
        listOp_roundtrip hop fun item hitem => reference_roundtrip laws (hitems item hitem)])
  | tokenListOp hop =>
    exact readsBack_leaf "SdfListOp<TfToken>" "SdfListOp<TfToken>" rfl rfl (by decide)
      (by simp [VtValue.leafOfJson, listOp_roundtrip hop fun item _ => toString_string item])
  | @dictionary entries hsorted _ ih =>
    obtain ⟨members, henc, hdec⟩ := entries_readBack hsorted ih
    refine ⟨.object members, by simp [VtValue.dataToJson, henc], ?_⟩
    have htype : (VtValue.dictionary entries).typeText = "VtDictionary" :=
      show VtValue.removeBlanks "VtDictionary" = "VtDictionary" by decide
    simp [htype, VtValue.dataOfJson, hdec []]

/-- The codec round-trips the value. -/
def RoundTrips (v : VtValue) : Prop :=
  ∃ json, v.toJson = .ok json ∧ VtValue.ofJson json = .ok v

theorem Relayed.roundTrips (laws : UsdLaws) {v : VtValue} (h : Relayed v) : RoundTrips v := by
  obtain ⟨data, henc, hdec⟩ := h.readsBack laws
  exact ⟨v.envelope data, by simp [VtValue.toJson, henc], by rw [ofJson_envelope, hdec]⟩

mutual

lemma dataToJson_fault : ∀ (v : VtValue) (fault : Fault), v.dataToJson = .error fault →
    ∃ what, fault = .runtimeError what
  | .empty, _, h | .timeSampleMap _, _, h | .other _, _, h => ⟨_, (Except.error.inj h).symm⟩
  | .dictionary entries, fault, h => by
    simp only [VtValue.dataToJson] at h
    cases hentries : VtValue.entriesToJson entries with
    | ok members => simp [hentries] at h
    | error fault' =>
      obtain ⟨what, hwhat⟩ := entriesToJson_fault entries fault' hentries
      rw [hentries] at h
      exact ⟨what, (Except.error.inj h).symm.trans hwhat⟩
  | .vec3d _, _, h | .vec3f _, _, h | .bool _, _, h | .specifier _, _, h | .token _, _, h
  | .string _, _, h | .variability _, _, h | .intArray _, _, h | .floatArray _, _, h
  | .tokenArray _, _, h | .vec2fArray _, _, h | .vec3fArray _, _, h | .double _, _, h
  | .float _, _, h | .tokenVector _, _, h | .matrix4d _, _, h | .pathListOp _, _, h
  | .referenceListOp _, _, h | .tokenListOp _, _, h | .pathVector _, _, h | .int _, _, h
  | .assetPath _, _, h | .valueBlock, _, h => by simp [VtValue.dataToJson] at h

lemma entriesToJson_fault : ∀ (entries : List (String × VtValue)) (fault : Fault),
    VtValue.entriesToJson entries = .error fault → ∃ what, fault = .runtimeError what
  | [], _, h => by simp [VtValue.entriesToJson] at h
  | (key, value) :: entries, fault, h => by
    simp only [VtValue.entriesToJson] at h
    cases hvalue : value.dataToJson with
    | error fault' =>
      obtain ⟨what, hwhat⟩ := dataToJson_fault value fault' hvalue
      rw [hvalue] at h
      exact ⟨what, (Except.error.inj h).symm.trans hwhat⟩
    | ok data =>
      cases hrest : VtValue.entriesToJson entries with
      | ok members => simp [hvalue, hrest] at h
      | error fault' =>
        obtain ⟨what, hwhat⟩ := entriesToJson_fault entries fault' hrest
        rw [hvalue, hrest] at h
        exact ⟨what, (Except.error.inj h).symm.trans hwhat⟩

end

lemma entriesToJson_error {entries : List (String × VtValue)} {e : String × VtValue}
    (he : e ∈ entries) {fault : Fault} (h : e.2.dataToJson = .error fault) :
    ∃ fault, VtValue.entriesToJson entries = .error fault := by
  induction entries with
  | nil => exact absurd he List.not_mem_nil
  | cons e' entries ih =>
    obtain ⟨key, value⟩ := e'
    simp only [VtValue.entriesToJson]
    rcases List.mem_cons.1 he with rfl | he
    · exact ⟨fault, by rw [h]; rfl⟩
    · obtain ⟨fault', hrest⟩ := ih he
      cases value.dataToJson with
      | ok data => exact ⟨fault', by rw [hrest]; rfl⟩
      | error fault'' => exact ⟨fault'', rfl⟩

/-- A value with an unsupported kind at some depth is not written. -/
theorem Unsupported.throws {v : VtValue} (h : Unsupported v) :
    ∃ what, v.toJson = .error (.runtimeError what) := by
  have hdata : ∃ fault, v.dataToJson = .error fault := by
    induction h with
    | empty => exact ⟨_, rfl⟩
    | timeSampleMap v => exact ⟨_, rfl⟩
    | other typeName => exact ⟨_, rfl⟩
    | dictionary he _ ih =>
      obtain ⟨fault, hfault⟩ := ih
      obtain ⟨fault', hentries⟩ := entriesToJson_error he hfault
      exact ⟨fault', by rw [VtValue.dataToJson, hentries]; rfl⟩
  obtain ⟨fault, hfault⟩ := hdata
  obtain ⟨what, rfl⟩ := dataToJson_fault v fault hfault
  exact ⟨what, by rw [VtValue.toJson, hfault]; rfl⟩

/-- A matrix occurs at some depth. -/
inductive ContainsMatrix : VtValue → Prop where
  | matrix4d (v : Fin 16 → Usd.Double) : ContainsMatrix (.matrix4d v)
  | dictionary {entries : List (String × VtValue)} {e : String × VtValue} :
      e ∈ entries → ContainsMatrix e.2 → ContainsMatrix (.dictionary entries)

lemma listOp_canonical {T : Type} {dec : Json → Except Fault T} {P : T → Prop} {json : Json}
    {op : SdfListOp T} (hP : ∀ json item, dec json = .ok item → P item)
    (h : SdfListOp.ofJson dec json = .ok op) : IsCanonical op ∧ AllItems P op := by
  have hlist : ∀ json items, Json.toList dec json = .ok items → ∀ item ∈ items, P item := by
    intro json items hitems item hitem
    obtain ⟨array, -, hmap⟩ := bind_eq_ok.1 hitems
    obtain ⟨json', -, hdec⟩ := mem_of_mapM_eq_ok hmap hitem
    exact hP json' item hdec
  unfold SdfListOp.ofJson at h
  obtain ⟨_, -, h⟩ := bind_eq_ok.1 h
  obtain ⟨explicitItems, hexplicit, h⟩ := bind_eq_ok.1 h
  obtain ⟨_, -, h⟩ := bind_eq_ok.1 h
  obtain ⟨_, -, h⟩ := bind_eq_ok.1 h
  obtain ⟨_, -, h⟩ := bind_eq_ok.1 h
  obtain ⟨prependedItems, hprepended, h⟩ := bind_eq_ok.1 h
  obtain ⟨_, -, h⟩ := bind_eq_ok.1 h
  obtain ⟨appendedItems, happended, h⟩ := bind_eq_ok.1 h
  obtain ⟨_, -, h⟩ := bind_eq_ok.1 h
  obtain ⟨deletedItems, hdeleted, h⟩ := bind_eq_ok.1 h
  obtain ⟨_, -, h⟩ := bind_eq_ok.1 h
  obtain ⟨_, -, h⟩ := bind_eq_ok.1 h
  split_ifs at h with hne
  · obtain rfl := Except.ok.inj h
    refine ⟨.inl ⟨hne, rfl⟩, fun item hitem => ?_⟩
    simp only [SdfListOp.createExplicit, List.not_mem_nil, or_false] at hitem
    exact hlist _ _ hexplicit item hitem
  · obtain rfl := Except.ok.inj h
    refine ⟨.inr rfl, fun item hitem => ?_⟩
    simp only [SdfListOp.create, List.not_mem_nil, false_or] at hitem
    rcases hitem with hitem | hitem | hitem
    · exact hlist _ _ hprepended item hitem
    · exact hlist _ _ happended item hitem
    · exact hlist _ _ hdeleted item hitem

lemma reference_customData {V : Type} {json : Json} {v : SdfReference V}
    (h : SdfReference.ofJson json = .ok v) : v.customData = [] := by
  unfold SdfReference.ofJson at h
  obtain ⟨_, -, h⟩ := bind_eq_ok.1 h
  obtain ⟨_, -, h⟩ := bind_eq_ok.1 h
  obtain ⟨_, -, h⟩ := bind_eq_ok.1 h
  obtain ⟨_, -, h⟩ := bind_eq_ok.1 h
  obtain rfl := Except.ok.inj h
  rfl

/-- The values the decoder builds. -/
inductive Decoded : VtValue → Prop where
  | leaf {v : VtValue} : isLeaf v = true → Decoded v
  | matrix4d (v : Fin 16 → Usd.Double) : Decoded (.matrix4d v)
  | pathListOp {op : SdfListOp SdfPath} : IsCanonical op → Decoded (.pathListOp op)
  | referenceListOp {op : SdfListOp (SdfReference VtValue)} :
      IsCanonical op → AllItems (fun item => item.customData = []) op →
      Decoded (.referenceListOp op)
  | tokenListOp {op : SdfListOp TfToken} : IsCanonical op → Decoded (.tokenListOp op)
  | dictionary {entries : List (String × VtValue)} :
      IsDictionary entries → (∀ e ∈ entries, Decoded e.2) → Decoded (.dictionary entries)

lemma Decoded.relayed {v : VtValue} (h : Decoded v) (hmatrix : ¬ContainsMatrix v) : Relayed v := by
  induction h with
  | leaf h => exact .leaf h
  | matrix4d v => exact absurd (.matrix4d v) hmatrix
  | pathListOp hop => exact .pathListOp hop
  | referenceListOp hop hitems => exact .referenceListOp hop hitems
  | tokenListOp hop => exact .tokenListOp hop
  | dictionary hsorted _ ih =>
    exact .dictionary hsorted fun e he => ih e he fun hm => hmatrix (.dictionary he hm)

lemma entriesToJson_ok {entries : List (String × VtValue)}
    (h : ∀ e ∈ entries, ∃ data, e.2.dataToJson = .ok data) :
    ∃ members, VtValue.entriesToJson entries = .ok members := by
  induction entries with
  | nil => exact ⟨[], rfl⟩
  | cons e entries ih =>
    obtain ⟨data, hdata⟩ := h e List.mem_cons_self
    obtain ⟨members, hmembers⟩ := ih fun e' he' => h e' (List.mem_cons_of_mem e he')
    exact ⟨_, by rw [VtValue.entriesToJson, hdata, hmembers]; rfl⟩

/-- What was decoded can be encoded again. -/
theorem Decoded.encodes {v : VtValue} (h : Decoded v) : ∃ json, v.toJson = .ok json := by
  have hdata : ∃ data, v.dataToJson = .ok data := by
    induction h with
    | @leaf v h => cases v <;> first | exact ⟨_, rfl⟩ | simp [isLeaf] at h
    | matrix4d v => exact ⟨_, rfl⟩
    | pathListOp hop => exact ⟨_, rfl⟩
    | referenceListOp hop hitems => exact ⟨_, rfl⟩
    | tokenListOp hop => exact ⟨_, rfl⟩
    | dictionary hsorted _ ih =>
      obtain ⟨members, hmembers⟩ := entriesToJson_ok ih
      exact ⟨_, by rw [VtValue.dataToJson, hmembers]; rfl⟩
  obtain ⟨data, hdata⟩ := hdata
  exact ⟨_, by rw [VtValue.toJson, hdata]; rfl⟩

lemma decoded_of_map {α : Type} {x : Except Fault α} {f : α → VtValue} {v : VtValue}
    (hf : ∀ a, isLeaf (f a) = true) (h : f <$> x = .ok v) : Decoded v := by
  obtain ⟨a, -, rfl⟩ := map_eq_ok.1 h
  exact .leaf (hf a)

lemma decoded_of_ite {c : Prop} [Decidable c] {x y : Except Fault VtValue} {v : VtValue}
    (hx : x = .ok v → Decoded v) (hy : y = .ok v → Decoded v)
    (h : (if c then x else y) = .ok v) : Decoded v := by
  split_ifs at h
  · exact hx h
  · exact hy h

lemma leafOfJson_decoded {type : String} {data : Json} {v : VtValue}
    (h : VtValue.leafOfJson type data = .ok v) : Decoded v := by
  revert h
  unfold VtValue.leafOfJson
  iterate 14 refine decoded_of_ite (decoded_of_map fun _ => rfl) ?_
  refine decoded_of_ite (fun h => ?_) ?_
  · obtain ⟨m, -, rfl⟩ := map_eq_ok.1 h
    exact .matrix4d m
  iterate 4 refine decoded_of_ite (decoded_of_map fun _ => rfl) ?_
  refine decoded_of_ite (fun h => ?_) (decoded_of_ite (fun h => ?_) (decoded_of_ite (fun h => ?_)
    (decoded_of_ite (fun h => ?_) fun h => ?_)))
  · obtain ⟨op, hop, rfl⟩ := map_eq_ok.1 h
    exact .pathListOp (listOp_canonical (P := fun _ => True) (fun _ _ _ => trivial) hop).1
  · obtain ⟨op, hop, rfl⟩ := map_eq_ok.1 h
    have hcanonical := listOp_canonical (fun _ _ hitem => reference_customData hitem) hop
    exact .referenceListOp hcanonical.1 hcanonical.2
  · obtain ⟨op, hop, rfl⟩ := map_eq_ok.1 h
    exact .tokenListOp (listOp_canonical (P := fun _ => True) (fun _ _ _ => trivial) hop).1
  · obtain rfl := Except.ok.inj h
    exact .leaf rfl
  · exact absurd h (by simp)

omit [Usd] in
lemma mem_assign {V : Type} {key : String} {value : V} {result : List (String × V)}
    {e : String × V} (h : e ∈ VtDictionary.assign key value result) :
    e = (key, value) ∨ e ∈ result := by
  induction result with
  | nil => exact .inl (List.mem_singleton.1 h)
  | cons e' result ih =>
    unfold VtDictionary.assign at h
    split_ifs at h
    · rcases List.mem_cons.1 h with h | h
      · exact .inl h
      · exact .inr h
    · rcases List.mem_cons.1 h with h | h
      · exact .inl h
      · exact .inr (List.mem_cons_of_mem e' h)
    · rcases List.mem_cons.1 h with rfl | h
      · exact .inr List.mem_cons_self
      · rcases ih h with h | h
        · exact .inl h
        · exact .inr (List.mem_cons_of_mem e' h)

omit [Usd] in
lemma assign_isDictionary {V : Type} {key : String} {value : V} {result : List (String × V)}
    (h : IsDictionary result) : IsDictionary (VtDictionary.assign key value result) := by
  induction result with
  | nil => exact List.pairwise_singleton _ _
  | cons e result ih =>
    obtain ⟨hfirst, hrest⟩ := List.pairwise_cons.1 h
    unfold VtDictionary.assign
    split_ifs with hlt heq
    · refine List.pairwise_cons.2 ⟨fun e' he' => ?_, h⟩
      rcases List.mem_cons.1 he' with rfl | he'
      · exact hlt
      · exact hlt.trans (hfirst e' he')
    · exact List.pairwise_cons.2 ⟨fun e' he' => heq ▸ hfirst e' he', hrest⟩
    · refine List.pairwise_cons.2 ⟨fun e' he' => ?_, ih hrest⟩
      rcases mem_assign he' with rfl | he'
      · exact lt_of_le_of_ne (not_lt.1 hlt) (Ne.symm heq)
      · exact hfirst e' he'

/-- The entries of a dictionary the decoder has built so far. -/
def DecodedEntries (entries : List (String × VtValue)) : Prop :=
  IsDictionary entries ∧ ∀ e ∈ entries, Decoded e.2

mutual

/-- The decoder builds nothing else. -/
theorem ofJson_decoded : ∀ (json : Json) (v : VtValue), VtValue.ofJson json = .ok v → Decoded v
  | .object jsonObject, v, h => by
    rw [VtValue.ofJson] at h
    obtain ⟨type, -, h⟩ := bind_eq_ok.1 h
    exact memberOfJson_decoded type jsonObject v h
  | .null, _, h | .bool _, _, h | .int _, _, h | .double _, _, h
  | .string _, _, h | .array _, _, h => by simp [VtValue.ofJson] at h

lemma memberOfJson_decoded (type : String) : ∀ (jsonObject : List (String × Json)) (v : VtValue),
    VtValue.memberOfJson type jsonObject = .ok v → Decoded v
  | [], v, h => by
    simp only [VtValue.memberOfJson] at h
    split_ifs at h
    exact leafOfJson_decoded h
  | (key, data) :: jsonObject, v, h => by
    rw [VtValue.memberOfJson] at h
    split_ifs at h
    · exact dataOfJson_decoded type data v h
    · exact memberOfJson_decoded type jsonObject v h

lemma dataOfJson_decoded (type : String) : ∀ (data : Json) (v : VtValue),
    VtValue.dataOfJson type data = .ok v → Decoded v
  | .object jsonObject, v, h => by
    rw [VtValue.dataOfJson] at h
    split_ifs at h
    · obtain ⟨entries, hentries, hv⟩ := bind_eq_ok.1 h
      obtain rfl := Except.ok.inj hv
      obtain ⟨hsorted, hitems⟩ := entriesOfJson_decoded jsonObject [] entries hentries
        ⟨List.Pairwise.nil, fun e he => absurd he List.not_mem_nil⟩
      exact .dictionary hsorted hitems
    · exact leafOfJson_decoded h
  | .null, v, h | .bool _, v, h | .int _, v, h
  | .double _, v, h | .string _, v, h | .array _, v, h => by
    simp only [VtValue.dataOfJson] at h
    split_ifs at h
    exact leafOfJson_decoded h

lemma entriesOfJson_decoded : ∀ (jsonObject : List (String × Json))
    (result entries : List (String × VtValue)),
    VtValue.entriesOfJson result jsonObject = .ok entries → DecodedEntries result →
    DecodedEntries entries
  | [], result, entries, h, hresult => by
    rw [VtValue.entriesOfJson] at h
    rwa [← Except.ok.inj h]
  | (key, item) :: jsonObject, result, entries, h, hresult => by
    rw [VtValue.entriesOfJson] at h
    obtain ⟨value, hvalue, h⟩ := bind_eq_ok.1 h
    refine entriesOfJson_decoded jsonObject _ entries h
      ⟨assign_isDictionary hresult.1, fun e he => ?_⟩
    rcases mem_assign he with rfl | he
    · exact ofJson_decoded item value hvalue
    · exact hresult.2 e he

end

end RenderStudioKit.Proofs
