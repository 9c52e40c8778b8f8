import RenderStudioKit.Proofs.EventCodec
import RenderStudioKit.Proofs.PathLog
import RenderStudioKit.Proofs.RemoteOrder

/-!
# The deltas a client sends

`Set` serves the edits of the user, the writes of remote updates and the loading of a file. The
table that is fetched for sending holds the edits of the user alone, and none of its entries can be
taken for an acknowledge, neither here nor after the server has relayed it.
-/

namespace RenderStudioKit.Proofs

open API Codec PathState

section

variable [Usd]

/-- The calls that reach the data of a layer. `construct` puts new data in its place, as a read of
the file does before it fills the data and calls `OnLoaded`. -/
inductive DataCall where
  | set (path : SdfPath) (field : TfToken) (value : VtValue)
  | setAbstract (path : SdfPath) (field : TfToken) (value : VtValue)
  | erase (path : SdfPath) (field : TfToken)
  | createSpec (path : SdfPath) (specType : SdfSpecType)
  | eraseSpec (path : SdfPath)
  | accumulate (deltas : HashTable) (sequence : Nat)
  | process
  | fetch
  | construct
  | loaded

def DataCall.perform (d : RenderStudioData) : DataCall → RenderStudioData
  | .set path field value => d.set path field value
  | .setAbstract path field value => d.setAbstract path field value
  | .erase path field => d.erase path field
  | .createSpec path specType => d.createSpec path specType
  | .eraseSpec path => d.eraseSpec path
  | .accumulate deltas sequence => d.accumulateRemoteUpdate deltas sequence
  | .process => d.processRemoteUpdates
  | .fetch => d.fetchLocalDeltas.2
  | .construct => {}
  | .loaded => d.onLoaded

/-- A local `Set` with a value that is not empty, and the type its spec had then. -/
structure Edit where
  path : SdfPath
  field : TfToken
  value : VtValue
  specType : SdfSpecType

/-- The edit a call makes of loaded data. -/
def editOf (d : RenderStudioData) : DataCall → Option Edit
  | .set path field value | .setAbstract path field value =>
    if d.mIsLoaded && !value.isEmpty then some ⟨path, field, value, d.getSpecType path⟩ else none
  | _ => none

/-- The data with the edits since the last flush, all of them and those no load has discarded. -/
structure EditRecord where
  data : RenderStudioData
  sinceFlush : List Edit := []
  edits : List Edit := []

namespace EditRecord

def perform (r : EditRecord) (call : DataCall) : EditRecord where
  data := call.perform r.data
  sinceFlush := match call with
    | .fetch => []
    | _ => r.sinceFlush ++ (editOf r.data call).toList
  edits := match call with
    | .fetch | .construct | .loaded => []
    | _ => r.edits ++ (editOf r.data call).toList

/-- A `SdfAbstractDataConstValue` holds a value, and the user edits specs that exist. -/
def OnSpecs (r : EditRecord) : DataCall → Prop
  | .set path _ value => r.data.mIsLoaded = true → value.isEmpty = false →
      r.data.hasSpec path = true
  | .setAbstract path _ value => value.isEmpty = false ∧
      (r.data.mIsLoaded = true → r.data.hasSpec path = true)
  | _ => True

end EditRecord

/-- The last value a path and field were set to. -/
def lastEdit (edits : List Edit) (path : SdfPath) (field : TfToken) : Option VtValue :=
  ((edits.filter fun e => e.path = path ∧ e.field = field).getLast?).map Edit.value

/-- The table has one entry for each path and field that was edited, with the last value, and
nothing else. -/
structure Describes (edits : List Edit) (table : HashTable) : Prop where
  value : ∀ path field,
    (table.lookup path).bind (·.fields.lookup field) = lastEdit edits path field
  nonempty : ∀ path spec, table.lookup path = some spec → spec.fields ≠ []
  nodup : ∀ path spec, table.lookup path = some spec → (spec.fields.map Prod.fst).Nodup
  specType : ∀ path spec, table.lookup path = some spec →
    (edits.find? (·.path = path)).map Edit.specType = some spec.specType

/-- No entry is without fields, as an acknowledge is. -/
def EchoFree (updates : HashTable) : Prop :=
  ∀ path spec, updates.lookup path = some spec → spec.fields ≠ []

/-- Whatever a delta with the table becomes on its way through the server, no entry of it is taken
for an acknowledge. -/
def RelaysEchoFree (table : HashTable) : Prop :=
  ∀ (layer user : String) (text : Json) (v : DeltaEvent) (name : String),
    (DeltaEvent.event ⟨layer, user, none, table⟩).toJson = .ok text →
    parseEvent text = some ⟨name, .delta v⟩ →
    ∀ (sequence : Nat) (relayed : Json) (v' : DeltaEvent) (name' : String),
      (DeltaEvent.event { v with sequence := some sequence }).toJson = .ok relayed →
      parseEvent relayed = some ⟨name', .delta v'⟩ → EchoFree v'.updates

lemma lastEdit_concat (edits : List Edit) (e : Edit) (path : SdfPath) (field : TfToken) :
    lastEdit (edits ++ [e]) path field =
      if e.path = path ∧ e.field = field then some e.value else lastEdit edits path field := by
  unfold lastEdit
  rw [List.filter_append]
  by_cases h : e.path = path ∧ e.field = field
  · simp [h]
  · simp [h]

lemma lastEdit_ne_none {edits : List Edit} {e : Edit} (h : e ∈ edits) :
    lastEdit edits e.path e.field ≠ none := by
  have hmem : e ∈ edits.filter fun e' => e'.path = e.path ∧ e'.field = e.field :=
    List.mem_filter.2 ⟨h, by simp⟩
  intro hnone
  rw [lastEdit, Option.map_eq_none_iff, List.getLast?_eq_none_iff] at hnone
  rw [hnone] at hmem
  exact absurd hmem List.not_mem_nil

lemma describes_nil : Describes [] ∅ := by
  refine ⟨fun path field => by simp [lastEdit], ?_, ?_, ?_⟩
  all_goals
    intro path spec h
    simp at h

lemma setAbstract_localDeltas {d : RenderStudioData}
    (hidle : d.mIsProcessingRemoteUpdates = false) (hloaded : d.mIsLoaded = true) {path : SdfPath}
    (hspec : d.hasSpec path = true) (field : TfToken) (value : VtValue) :
    (d.setAbstract path field value).mLocalDeltas =
      let spec := (d.mLocalDeltas.lookup path).getD { specType := d.getSpecType path }
      d.mLocalDeltas.insert path { spec with fields := assignField field value spec.fields } := by
  obtain ⟨spec, hlookup⟩ := Option.isSome_iff_exists.1
    (AList.lookup_isSome.2 (of_decide_eq_true hspec))
  have hassign := getOrCreateFieldValue_frame d path field value
  have htype : ((d.getOrCreateFieldValue path field value).mData.lookup path).map
      SpecData.specType = some spec.specType := by
    unfold RenderStudioData.getOrCreateFieldValue
    simp [hlookup]
  have hdata : d.getSpecType path = spec.specType := by
    rw [getSpecType_eq, hlookup]
    rfl
  obtain ⟨assigned, hassigned, hsame⟩ := Option.map_eq_some_iff.1 htype
  unfold RenderStudioData.setAbstract
  simp only [hassign.processing, hassign.loaded, hidle, hloaded, Bool.not_true, Bool.or_false,
    Bool.false_eq_true, if_false]
  unfold RenderStudioData.getOrCreateFieldValueDelta
  rw [hassign.localDeltas, hassigned, hdata]
  cases d.mLocalDeltas.lookup path with
  | none => simp [hsame]
  | some pending => simp

lemma Describes.edit {edits : List Edit} {table : HashTable} (h : Describes edits table)
    (e : Edit) :
    Describes (edits ++ [e])
      (let spec := (table.lookup e.path).getD { specType := e.specType }
      table.insert e.path { spec with fields := assignField e.field e.value spec.fields }) := by
  have hold : (((table.lookup e.path).getD { specType := e.specType }).fields.map Prod.fst).Nodup := by
    cases hlookup : table.lookup e.path with
    | none => exact List.nodup_nil
    | some spec => exact h.nodup e.path spec hlookup
  have hfind : ∀ path, path ≠ e.path →
      (edits ++ [e]).find? (·.path = path) = edits.find? (·.path = path) := by
    intro path hpath
    rw [List.find?_append]
    simp [Ne.symm hpath]
  refine ⟨fun path field => ?_, fun path spec hspec => ?_, fun path spec hspec => ?_,
    fun path spec hspec => ?_⟩
  · rw [lastEdit_concat, ← h.value path field]
    by_cases hpath : path = e.path
    · subst hpath
      rw [AList.lookup_insert, Option.bind_some]
      simp only [lookup_assignField, true_and, eq_comm (a := field)]
      split_ifs
      · rfl
      · cases table.lookup e.path <;> rfl
    · rw [AList.lookup_insert_ne hpath, if_neg fun heq => hpath heq.1.symm]
  · by_cases hpath : path = e.path
    · subst hpath
      rw [AList.lookup_insert] at hspec
      rw [← Option.some.inj hspec]
      exact assignField_ne_nil _ _ _
    · rw [AList.lookup_insert_ne hpath] at hspec
      exact h.nonempty path spec hspec
  · by_cases hpath : path = e.path
    · subst hpath
      rw [AList.lookup_insert] at hspec
      rw [← Option.some.inj hspec]
      exact (assignField_keys_nodup _ _ hold).1
    · rw [AList.lookup_insert_ne hpath] at hspec
      exact h.nodup path spec hspec
  · by_cases hpath : path = e.path
    · subst hpath
      rw [AList.lookup_insert] at hspec
      rw [← Option.some.inj hspec, List.find?_append]
      cases hlookup : table.lookup e.path with
      | some pending =>
        have htype := h.specType e.path pending hlookup
        obtain ⟨first, hfirst, -⟩ := Option.map_eq_some_iff.1 htype
        rw [hfirst] at htype ⊢
        exact htype
      | none =>
        have hnone : edits.find? (·.path = e.path) = none := by
          apply List.find?_eq_none.2
          intro first hfirst hpath
          have hvalue := h.value first.path first.field
          rw [of_decide_eq_true hpath, hlookup, ← of_decide_eq_true hpath] at hvalue
          exact lastEdit_ne_none hfirst hvalue.symm
        simp [hnone]
    · rw [AList.lookup_insert_ne hpath] at hspec
      rw [hfind path hpath]
      exact h.specType path spec hspec

lemma processRemoteUpdates_locals {d : RenderStudioData}
    (hidle : d.mIsProcessingRemoteUpdates = false) :
    d.processRemoteUpdates.mLocalDeltas = d.mLocalDeltas ∧
      d.processRemoteUpdates.mIsProcessingRemoteUpdates = false := by
  have hkeep := processRemoteUpdates_keep
    (fun d' => d'.mLocalDeltas = d.mLocalDeltas) (fun d' deltas hd' _ => by simpa using hd') hidle rfl
  exact ⟨hkeep.1, rfl⟩

lemma set_eq_setAbstract (d : RenderStudioData) (path : SdfPath) (field : TfToken)
    {value : VtValue} (hvalue : value.isEmpty = false) :
    d.set path field value = d.setAbstract path field value := by
  simp [RenderStudioData.set, hvalue]

lemma setAbstract_processing (d : RenderStudioData) (path : SdfPath) (field : TfToken)
    (value : VtValue) :
    (d.setAbstract path field value).mIsProcessingRemoteUpdates = d.mIsProcessingRemoteUpdates := by
  have hassign := getOrCreateFieldValue_frame d path field value
  unfold RenderStudioData.setAbstract
  dsimp only
  split_ifs
  · exact hassign.processing
  · unfold RenderStudioData.getOrCreateFieldValueDelta
    split <;> exact hassign.processing

lemma setAbstract_loading {d : RenderStudioData} (hloading : d.mIsLoaded = false) (path : SdfPath)
    (field : TfToken) (value : VtValue) :
    (d.setAbstract path field value).mLocalDeltas = d.mLocalDeltas := by
  have hassign := getOrCreateFieldValue_frame d path field value
  unfold RenderStudioData.setAbstract
  dsimp only
  rw [if_pos (by simp [hassign.loaded, hloading])]
  exact hassign.localDeltas

/-- The local deltas are the edits no flush has taken and no load has discarded. -/
structure Recorded (r : EditRecord) : Prop where
  idle : r.data.mIsProcessingRemoteUpdates = false
  edits : Describes r.edits r.data.mLocalDeltas

namespace Recorded

variable {r : EditRecord} (h : Recorded r)

include h

lemma congr {r' : EditRecord} (hidle : r'.data.mIsProcessingRemoteUpdates = false)
    (hlocals : r'.data.mLocalDeltas = r.data.mLocalDeltas) (hedits : r'.edits = r.edits) :
    Recorded r' :=
  ⟨hidle, by rw [hlocals, hedits]; exact h.edits⟩

lemma setAbstract {path : SdfPath} {field : TfToken} {value : VtValue}
    (hok : r.OnSpecs (.setAbstract path field value)) :
    Recorded (r.perform (.setAbstract path field value)) := by
  obtain ⟨hvalue, hspec⟩ := hok
  have hidle := (setAbstract_processing r.data path field value).trans h.idle
  cases hloaded : r.data.mIsLoaded with
  | false =>
    have hnone : editOf r.data (.setAbstract path field value) = none := by
      simp [editOf, hloaded]
    refine h.congr hidle (setAbstract_loading hloaded path field value) ?_
    simp [EditRecord.perform, hnone]
  | true =>
    have hedit : editOf r.data (.setAbstract path field value) =
        some ⟨path, field, value, r.data.getSpecType path⟩ := by
      simp [editOf, hloaded, hvalue]
    refine ⟨hidle, ?_⟩
    have hstep := h.edits.edit ⟨path, field, value, r.data.getSpecType path⟩
    have hlocals := setAbstract_localDeltas h.idle hloaded (hspec hloaded) field value
    have hedits : (r.perform (.setAbstract path field value)).edits =
        r.edits ++ [⟨path, field, value, r.data.getSpecType path⟩] := by
      simp [EditRecord.perform, hedit]
    rw [hedits]
    change Describes _ (r.data.setAbstract path field value).mLocalDeltas
    rw [hlocals]
    exact hstep

lemma set {path : SdfPath} {field : TfToken} {value : VtValue}
    (hok : r.OnSpecs (.set path field value)) : Recorded (r.perform (.set path field value)) := by
  cases hvalue : value.isEmpty with
  | true =>
    have herase := erase_frame r.data path field
    have hset : r.data.set path field value = r.data.erase path field := by
      simp [RenderStudioData.set, hvalue]
    have hnone : editOf r.data (.set path field value) = none := by
      simp [editOf, hvalue]
    refine h.congr ?_ ?_ ?_
    · change (r.data.set path field value).mIsProcessingRemoteUpdates = false
      rw [hset]
      exact herase.processing.trans h.idle
    · change (r.data.set path field value).mLocalDeltas = _
      rw [hset]
      exact herase.localDeltas
    · simp [EditRecord.perform, hnone]
  | false =>
    have hsame : r.perform (.set path field value) = r.perform (.setAbstract path field value) := by
      have hdata : DataCall.perform r.data (.set path field value) =
          DataCall.perform r.data (.setAbstract path field value) :=
        set_eq_setAbstract r.data path field hvalue
      unfold EditRecord.perform
      rw [hdata]
      rfl
    rw [hsame]
    exact h.setAbstract ⟨hvalue, fun hloaded => hok hloaded hvalue⟩

lemma perform {call : DataCall} (hok : r.OnSpecs call) : Recorded (r.perform call) := by
  cases call with
  | set path field value => exact h.set hok
  | setAbstract path field value => exact h.setAbstract hok
  | erase path field =>
    have herase := erase_frame r.data path field
    exact h.congr (herase.processing.trans h.idle) herase.localDeltas (List.append_nil _)
  | createSpec path specType =>
    have hcreate := createSpec_frame r.data path specType
    exact h.congr (hcreate.processing.trans h.idle) hcreate.localDeltas (List.append_nil _)
  | eraseSpec path => exact h.congr h.idle rfl (List.append_nil _)
  | accumulate deltas sequence => exact h.congr h.idle rfl (List.append_nil _)
  | process =>
    obtain ⟨hlocals, hidle⟩ := processRemoteUpdates_locals h.idle
    exact h.congr hidle hlocals (List.append_nil _)
  | fetch => exact ⟨h.idle, describes_nil⟩
  | construct => exact ⟨rfl, describes_nil⟩
  | loaded => exact ⟨h.idle, describes_nil⟩

end Recorded

lemma updateToJson_fields {path : SdfPath} {spec : SpecData} {json : Json}
    (h : updateToJson path spec = .ok json) (hspec : spec.fields ≠ []) :
    ∃ items, json.valueAt "fields" = .ok (.array items) ∧ items ≠ [] := by
  unfold updateToJson at h
  obtain ⟨jsonFields, hfields, h⟩ := bind_eq_ok.1 h
  obtain rfl := Except.ok.inj h
  refine ⟨jsonFields, by simp [Json.valueAt, Json.asObject, Json.memberAt, List.lookup_cons], ?_⟩
  intro hnil
  rw [hnil] at hfields
  obtain ⟨field, fields, hcons⟩ := List.exists_cons_of_ne_nil hspec
  rw [hcons, List.mapM_cons] at hfields
  obtain ⟨_, -, hfields⟩ := bind_eq_ok.1 hfields
  obtain ⟨_, -, hfields⟩ := bind_eq_ok.1 hfields
  exact absurd (Except.ok.inj hfields) (List.cons_ne_nil _ _)

lemma updateOfJson_echoFree {updates updates' : HashTable} {json : Json} {items : List Json}
    (hjson : json.valueAt "fields" = .ok (.array items)) (hitems : items ≠ [])
    (hupdates : EchoFree updates) (h : updateOfJson updates json = .ok updates') :
    EchoFree updates' := by
  obtain ⟨path, specType, jsonFields, fields, hmember, hmap, rfl⟩ := updateOfJson_cases h
  obtain rfl : items = jsonFields := by simpa using hjson.symm.trans hmember
  have hne : fields ≠ [] := by
    intro hnil
    obtain ⟨item, rest, hcons⟩ := List.exists_cons_of_ne_nil hitems
    rw [hnil, hcons, List.mapM_cons] at hmap
    obtain ⟨_, -, hmap⟩ := bind_eq_ok.1 hmap
    obtain ⟨_, -, hmap⟩ := bind_eq_ok.1 hmap
    exact absurd (Except.ok.inj hmap) (List.cons_ne_nil _ _)
  intro path' spec hspec
  by_cases hpath : path' = path
  · subst hpath
    rw [AList.lookup_insert] at hspec
    rw [← Option.some.inj hspec]
    exact fun hnil => hne (List.append_eq_nil_iff.1 hnil).2
  · rw [AList.lookup_insert_ne hpath] at hspec
    exact hupdates path' spec hspec

lemma foldlM_echoFree {items : List Json} (hitems : ∀ json ∈ items, ∃ fields,
    json.valueAt "fields" = .ok (.array fields) ∧ fields ≠ []) {updates updates' : HashTable}
    (hupdates : EchoFree updates) (h : items.foldlM updateOfJson updates = .ok updates') :
    EchoFree updates' := by
  induction items generalizing updates with
  | nil =>
    obtain rfl := Except.ok.inj h
    exact hupdates
  | cons json items ih =>
    rw [List.foldlM_cons] at h
    obtain ⟨next, hnext, hrest⟩ := bind_eq_ok.1 h
    obtain ⟨fields, hfields, hne⟩ := hitems json List.mem_cons_self
    exact ih (fun json hjson => hitems json (List.mem_cons_of_mem _ hjson))
      (updateOfJson_echoFree hfields hne hupdates hnext) hrest

lemma parseEvent_echoFree {v v' : DeltaEvent} {text : Json} {name : String}
    (hv : EchoFree v.updates) (htext : v.event.toJson = .ok text)
    (hparse : parseEvent text = some ⟨name, .delta v'⟩) : EchoFree v'.updates := by
  obtain ⟨jsonUpdates, hjsonUpdates, hupdates⟩ := parseEvent_delta_updates htext hparse
  refine foldlM_echoFree ?_ (fun _ _ h => by simp at h) hupdates
  intro json hjson
  obtain ⟨entry, hentry, henc⟩ := mem_of_mapM_eq_ok hjsonUpdates hjson
  exact updateToJson_fields henc (hv entry.1 entry.2 (AList.mem_lookup_iff.2 hentry))

lemma Describes.relaysEchoFree {edits : List Edit} {table : HashTable} (h : Describes edits table) :
    RelaysEchoFree table := by
  intro layer user text v name htext hparse sequence relayed v' name' hrelayed hparse'
  have hserved : EchoFree v.updates :=
    parseEvent_echoFree (v := ⟨layer, user, none, table⟩) h.nonempty htext hparse
  exact parseEvent_echoFree (v := { v with sequence := some sequence }) hserved hrelayed hparse'

/-- Every table that is fetched holds, for each path and field the user set to a value since the
last flush or load, the last of these values, with distinct fields under the type the spec had at
the first one; and no relayed delta is taken for an acknowledge. -/
theorem fetched_deltas_describe_edits (d : RenderStudioData)
    (hidle : d.mIsProcessingRemoteUpdates = false) (hlocals : d.mLocalDeltas = ∅)
    (run : List DataCall)
    (hspecs : Runs.AllSteps EditRecord.perform EditRecord.OnSpecs { data := d } run) :
    Runs.AllSteps EditRecord.perform
      (fun r call => call = .fetch → Describes r.edits r.data.fetchLocalDeltas.1 ∧
        RelaysEchoFree r.data.fetchLocalDeltas.1) { data := d } run := by
  have hstart : Recorded { data := d } := ⟨hidle, by rw [hlocals]; exact describes_nil⟩
  refine Runs.allSteps_of_admitted (fun _ _ h hok => h.perform hok) ?_ hstart hspecs
  intro r call h _ _
  exact ⟨h.edits, h.edits.relaysEchoFree⟩

end

section

attribute [local instance] Usd.sample

/-- One prim and an edit of it. -/
def edited : List DataCall :=
  [.createSpec "/a" .prim, .loaded, .set "/a" "kind" (.string "x"), .set "/a" "doc" (.string "y"),
    .process, .set "/a" "kind" (.string "z")]

lemma edited_onSpecs (run : List DataCall)
    (hrun : Runs.AllSteps EditRecord.perform EditRecord.OnSpecs
      (Runs.final EditRecord.perform { data := {} } edited) run) :
    Runs.AllSteps EditRecord.perform EditRecord.OnSpecs { data := {} } (edited ++ run) := by
  apply (Runs.allSteps_append ..).2
  refine ⟨⟨trivial, trivial, ?_, ?_, trivial, ?_, trivial⟩, hrun⟩
  · exact fun _ _ => by decide
  · exact fun _ _ => by decide
  · exact fun _ _ => by decide

theorem fetched_deltas_describe_edits_one_prim :
    let r := Runs.final EditRecord.perform { data := {} } edited
    Describes r.edits r.data.fetchLocalDeltas.1 ∧
      (r.data.fetchLocalDeltas.1.entries.map fun e => (e.1, e.2.fields.map Prod.fst)) =
        [("/a", ["kind", "doc"])] := by
  intro r
  have hfetched := fetched_deltas_describe_edits {} rfl rfl (edited ++ [.fetch])
    (edited_onSpecs [.fetch] ⟨trivial, trivial⟩)
  have hlast := ((Runs.allSteps_append ..).1 hfetched).2.1 rfl
  exact ⟨hlast.1, by decide⟩

/-- A load discards the edits that were not flushed. -/
theorem unflushed_edits_discarded :
    let run : List DataCall := edited ++ [.construct, .createSpec "/a" .prim, .loaded, .fetch]
    Runs.AllSteps EditRecord.perform EditRecord.OnSpecs { data := {} } run ∧
      ¬Runs.AllSteps EditRecord.perform
        (fun r call => call = .fetch → Describes r.sinceFlush r.data.fetchLocalDeltas.1)
        { data := {} } run := by
  intro run
  refine ⟨edited_onSpecs _ ⟨trivial, trivial, trivial, trivial, trivial⟩, fun hdescribes => ?_⟩
  have hlast := ((Runs.allSteps_append ..).1 hdescribes).2.2.2.2.1 rfl
  have hkind := congrArg Option.isSome (hlast.value "/a" "kind")
  revert hkind
  decide

end

end RenderStudioKit.Proofs
