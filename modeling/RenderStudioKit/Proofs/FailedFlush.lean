import RenderStudioKit.Proofs.RemoteOrder
import RenderStudioKit.Model.FileFormat
import RenderStudioKit.Lib.Codec

/-!
# Flushes that fail

`ProcessLiveUpdates` takes the local deltas out of the data of a layer before it builds their
message. When one value cannot be serialized the exception is only logged.
-/

namespace RenderStudioKit.Proofs

open API Codec RenderStudioFileFormat

section

variable [Usd]

/-- The value has a type that can be serialized. -/
def Serializable (value : VtValue) : Prop := ∃ json, value.toJson = .ok json

/-- The part of `ProcessLiveUpdates` that sends the local deltas of a layer: the data it leaves and
the messages it hands to the websocket client. -/
def flushLayer (user layer : String) (d : RenderStudioData) : RenderStudioData × List Json :=
  (d.fetchLocalDeltas.2, deltaMessage user layer d.fetchLocalDeltas.1)

/-- A message that carries the field for the path. -/
def Carries (layer : String) (message : Json) (path : SdfPath) (field : TfToken × VtValue) : Prop :=
  ∃ v : DeltaEvent, v.event.toJson = .ok message ∧ v.layer = layer ∧
    ∃ delta, v.updates.lookup path = some delta ∧ field ∈ delta.fields

/-- A message with an update of the path. -/
def Names (layer : String) (message : Json) (path : SdfPath) : Prop :=
  ∃ v : DeltaEvent, v.event.toJson = .ok message ∧ v.layer = layer ∧ path ∈ v.updates

/-- A value in the local deltas cannot be serialized. -/
def FlushFails (d : RenderStudioData) : Prop :=
  ∃ path delta field, d.mLocalDeltas.lookup path = some delta ∧ field ∈ delta.fields ∧
    ¬Serializable field.2

/-- After the flush the edits that can be serialized are in its messages or still in the local
deltas, and an unacknowledged path is in a message, earlier ones included, or in the local deltas. -/
structure EditsIntact (user layer : String) (d : RenderStudioData) (handed : List Json) : Prop where
  edits : ∀ path delta field, d.mLocalDeltas.lookup path = some delta → field ∈ delta.fields →
    Serializable field.2 →
      (∃ message ∈ (flushLayer user layer d).2, Carries layer message path field) ∨
      ∃ delta', (flushLayer user layer d).1.mLocalDeltas.lookup path = some delta' ∧
        field ∈ delta'.fields
  unacknowledged : ∀ path, (flushLayer user layer d).1.isUnacknowledged path = true →
    (∃ message ∈ handed ++ (flushLayer user layer d).2, Names layer message path) ∨
      path ∈ (flushLayer user layer d).1.mLocalDeltas

lemma updateLayer_flushLayer (acknowledges : AList (fun _ : String => List AcknowledgeEvent))
    (deltas : AList (fun _ : String => List DeltaEvent)) (o : LiveOutcome) (layer : String)
    (d : RenderStudioData) :
    let flush := flushLayer o.format.userId layer d
    let queued := accumulateDeltas
      (accumulateAcknowledges flush.1 ((acknowledges.lookup layer).getD []))
      ((deltas.lookup layer).getD [])
    (o.updateLayer acknowledges deltas layer d).sent = o.sent ++ flush.2 ∧
      (o.updateLayer acknowledges deltas layer d).format.mLayerRegistry.lookup layer =
        some queued.processRemoteUpdates :=
  ⟨rfl, AList.lookup_insert _⟩

lemma not_serializable_updates {updates : HashTable} {path : SdfPath} {delta : SpecData}
    {field : TfToken × VtValue} (hdelta : updates.lookup path = some delta)
    (hfield : field ∈ delta.fields) (hvalue : ¬Serializable field.2) (layer user : String)
    (sequence : Option Nat) (json : Json) :
    (DeltaEvent.event ⟨layer, user, sequence, updates⟩).toJson ≠ .ok json := by
  intro h
  have hentry : (⟨path, delta⟩ : Sigma fun _ : SdfPath => SpecData) ∈ updates.entries :=
    AList.mem_lookup_iff.1 hdelta
  obtain ⟨body, hbody, -⟩ := bind_eq_ok.1 h
  have hupdates : DeltaEvent.toJson ⟨layer, user, sequence, updates⟩ = .ok body := hbody
  obtain ⟨jsonUpdates, hall, -⟩ := bind_eq_ok.1 hupdates
  obtain ⟨jsonUpdate, hupdate⟩ := ok_of_mapM_eq_ok hall hentry
  obtain ⟨jsonFields, hfields, -⟩ := bind_eq_ok.1 hupdate
  obtain ⟨jsonField, hjson⟩ := ok_of_mapM_eq_ok hfields hfield
  obtain ⟨value, hserialized, -⟩ := bind_eq_ok.1 hjson
  exact hvalue ⟨value, hserialized⟩

lemma flushLayer_fails {d : RenderStudioData} (h : FlushFails d) (user layer : String) :
    (flushLayer user layer d).2 = [] := by
  obtain ⟨path, delta, field, hdelta, hfield, hvalue⟩ := h
  have hnone := not_serializable_updates hdelta hfield hvalue layer user none
  unfold flushLayer deltaMessage RenderStudioData.fetchLocalDeltas
  dsimp only
  cases hevent : (DeltaEvent.event ⟨layer, user, none, d.mLocalDeltas⟩).toJson with
  | ok json => exact absurd hevent (hnone json)
  | error fault =>
    split_ifs <;> rfl

/-- A flush that fails leaves the edits intact exactly if it has none that can be serialized, and all
paths that wait for an acknowledge are in earlier messages. -/
theorem failed_flush_intact_iff (user layer : String) {d : RenderStudioData} (handed : List Json)
    (hfails : FlushFails d) :
    EditsIntact user layer d handed ↔
      (∀ path delta, d.mLocalDeltas.lookup path = some delta →
        ∀ field ∈ delta.fields, ¬Serializable field.2) ∧
      ∀ path, d.isUnacknowledged path = true → ∃ message ∈ handed, Names layer message path := by
  have hsent := flushLayer_fails hfails user layer
  have hlocal : (flushLayer user layer d).1.mLocalDeltas = ∅ := rfl
  constructor
  · intro h
    refine ⟨fun path delta hdelta field hfield hvalue => ?_, fun path hpath => ?_⟩
    · rcases h.edits path delta field hdelta hfield hvalue with ⟨message, hmem, -⟩ | ⟨delta', hd', -⟩
      · rw [hsent] at hmem
        exact List.not_mem_nil hmem
      · rw [hlocal, AList.lookup_empty] at hd'
        cases hd'
    · rcases h.unacknowledged path hpath with hmessage | hpending
      · rwa [hsent, List.append_nil] at hmessage
      · rw [hlocal] at hpending
        exact absurd hpending (AList.notMem_empty path)
  · rintro ⟨hedits, hunacknowledged⟩
    refine ⟨fun path delta field hdelta hfield hvalue => ?_, fun path hpath => ?_⟩
    · exact absurd hvalue (hedits path delta hdelta field hfield)
    · rw [hsent, List.append_nil]
      exact .inl (hunacknowledged path hpath)

end

section

attribute [local instance] Usd.sample

/-- A loaded layer with the prim `/a`, an edit of it and a value of an unsupported type. -/
def editedWith (edits : List (TfToken × VtValue)) : RenderStudioData :=
  edits.foldl (fun d edit => d.set "/a" edit.1 edit.2)
    (loaded (AList.insert "/a" { specType := .prim } ∅))

lemma other_not_serializable (typeName : String) : ¬Serializable (.other typeName) := by
  rintro ⟨json, h⟩
  cases h

/-- The unsupported value is the only edit. -/
theorem failed_flush_intact_alone :
    let d := editedWith [("metadata", .other "Foo")]
    EditsIntact "user" "L" d [] ↔
      (∀ path delta, d.mLocalDeltas.lookup path = some delta →
        ∀ field ∈ delta.fields, ¬Serializable field.2) ∧
      ∀ path, d.isUnacknowledged path = true → ∃ message ∈ [], Names "L" message path := by
  intro d
  have hfails : FlushFails d :=
    ⟨"/a", ⟨.prim, [("metadata", .other "Foo")]⟩, ("metadata", .other "Foo"), rfl,
      List.mem_singleton_self _, other_not_serializable "Foo"⟩
  exact failed_flush_intact_iff "user" "L" [] hfails

/-- An edit that can be serialized is lost with the one that cannot: nothing is handed over, nothing
is pending any more, and the path waits for an acknowledge that never comes. -/
theorem edit_lost_in_failed_flush :
    let d := editedWith [("kind", .string "group"), ("metadata", .other "Foo")]
    FlushFails d ∧ (flushLayer "user" "L" d).2.length = 0 ∧
      ((flushLayer "user" "L" d).1.mLocalDeltas.lookup "/a").isNone = true ∧
      (flushLayer "user" "L" d).1.isUnacknowledged "/a" = true ∧
      ¬EditsIntact "user" "L" d [] := by
  intro d
  have hdelta : d.mLocalDeltas.lookup "/a" =
      some ⟨.prim, [("kind", .string "group"), ("metadata", .other "Foo")]⟩ := rfl
  have hkind : Serializable (.string "group") := ⟨_, rfl⟩
  have hfails : FlushFails d :=
    ⟨"/a", _, ("metadata", .other "Foo"), hdelta, by simp, other_not_serializable "Foo"⟩
  have hsent := flushLayer_fails hfails "user" "L"
  refine ⟨hfails, by rw [hsent]; rfl, by decide, by decide, fun h => ?_⟩
  rcases h.edits "/a" _ ("kind", .string "group") hdelta (by simp) hkind with
    ⟨message, hmem, -⟩ | ⟨delta', hpending, -⟩
  · rw [hsent] at hmem
    exact List.not_mem_nil hmem
  · cases hpending

end

end RenderStudioKit.Proofs
