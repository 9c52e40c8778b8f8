import RenderStudioKit.Proofs.PathState
import RenderStudioKit.Proofs.RemoteOrder

/-!
# Specs that another client removed

The removal of a spec is announced by an empty type name among the fields of a delta. The fields
are applied one by one and a missing spec is created again before each of them, so the position of
the empty type name decides.
-/

namespace RenderStudioKit.Proofs

open PathState

section

variable [Usd]

/-- The field that announces the removal of a spec. -/
def removal : TfToken × VtValue := (SdfFieldKeys.typeName, .token "")

@[simp] lemma skipped_acknowledged (path : SdfPath) (key : TfToken) :
    skipped false path key = false := rfl

lemma removesSpec_removal : removesSpec removal.1 removal.2 = true := by
  simp [removal, removesSpec]

lemma removesSpec_key {key : TfToken} (hkey : key ≠ SdfFieldKeys.typeName) (value : VtValue) :
    removesSpec key value = false := by
  cases value <;> simp [removesSpec, hkey]

lemma createAt_unknown (spec : Option SpecData) : createAt .unknown spec = spec := by
  simp [createAt]

lemma createAt_known_isSome {specType : SdfSpecType} (htype : specType ≠ .unknown)
    (spec : Option SpecData) : (createAt specType spec).isSome := by
  cases spec with
  | none => simp [createAt, htype]
  | some spec =>
    unfold createAt
    split_ifs <;> rfl

section

variable (path : SdfPath)

lemma deltaAt_removal (specType : SdfSpecType) (spec : Option SpecData) :
    deltaAt false path removal.1 removal.2 specType spec = none := by
  unfold deltaAt
  rw [skipped_acknowledged, removesSpec_removal]
  rfl

lemma acknowledgedDelta_isSome {specType : SdfSpecType} (htype : specType ≠ .unknown) {key : TfToken}
    (hkey : key ≠ SdfFieldKeys.typeName) (value : VtValue) (spec : Option SpecData) :
    (deltaAt false path key value specType spec).isSome := by
  unfold deltaAt
  rw [skipped_acknowledged, removesSpec_key hkey]
  simp [createAt_known_isSome htype]

lemma deltaAt_none (key : TfToken) (value : VtValue) :
    deltaAt false path key value .unknown none = none := by
  unfold deltaAt
  rw [createAt_unknown]
  cases removesSpec key value <;> rfl

lemma entryAt_append (fields fields' : List (TfToken × VtValue)) (specType : SdfSpecType)
    (spec : Option SpecData) :
    entryAt false path ⟨specType, fields ++ fields'⟩ spec =
      entryAt false path ⟨specType, fields'⟩ (entryAt false path ⟨specType, fields⟩ spec) :=
  List.foldl_append

lemma entryAt_behind_removal (specType : SdfSpecType) {fields : List (TfToken × VtValue)}
    (hkeys : ∀ f ∈ fields, f.1 ≠ SdfFieldKeys.typeName) :
    (entryAt false path ⟨specType, fields⟩ none).isSome ↔
      specType ≠ .unknown ∧ fields ≠ [] := by
  by_cases htype : specType = .unknown
  · subst htype
    have hnone : entryAt false path ⟨.unknown, fields⟩ none = none := by
      unfold entryAt
      clear hkeys
      induction fields with
      | nil => rfl
      | cons f fields ih => rw [List.foldl_cons, deltaAt_none, ih]
    rw [hnone]
    simp
  · cases hlast : fields.getLast? with
    | none =>
      rw [List.getLast?_eq_none_iff] at hlast
      simp [hlast, entryAt]
    | some last =>
      obtain ⟨before, rfl⟩ := List.getLast?_eq_some_iff.1 hlast
      have hkey := hkeys last (by simp)
      rw [entryAt_append]
      have hsome := acknowledgedDelta_isSome path htype hkey last.2
        (entryAt false path ⟨specType, before⟩ none)
      simp [entryAt, htype] at hsome ⊢
      exact hsome

/-- A delta with the removal among its distinct fields. -/
theorem entryAt_removal {delta : SpecData} (hdistinct : (delta.fields.map Prod.fst).Nodup)
    (hremoval : removal ∈ delta.fields) (spec : Option SpecData) :
    entryAt false path delta spec = none ↔
      delta.specType = .unknown ∨ delta.fields.getLast? = some removal := by
  obtain ⟨specType, fields⟩ := delta
  obtain ⟨before, behind, rfl⟩ := List.append_of_mem hremoval
  have hkeys : ∀ f ∈ behind, f.1 ≠ SdfFieldKeys.typeName := by
    intro f hf heq
    rw [List.map_append, List.map_cons] at hdistinct
    have hnot := (List.nodup_cons.1 (List.nodup_append.1 hdistinct).2.1).1
    exact hnot (List.mem_map.2 ⟨f, hf, heq⟩)
  have hone : entryAt false path ⟨specType, [removal]⟩
      (entryAt false path ⟨specType, before⟩ spec) = none :=
    deltaAt_removal path specType (entryAt false path ⟨specType, before⟩ spec)
  have hbehind := entryAt_behind_removal path specType hkeys
  rw [← List.singleton_append, entryAt_append, entryAt_append, hone,
    ← Option.not_isSome_iff_eq_none, hbehind]
  cases hlast : behind.getLast? with
  | none =>
    rw [List.getLast?_eq_none_iff] at hlast
    simp [hlast]
  | some last =>
    have hmem : last ∈ behind := List.mem_of_getLast? hlast
    have hne : behind ≠ [] := List.ne_nil_of_mem hmem
    have hother : last ≠ removal := fun h => hkeys last hmem (by rw [h, removal])
    have hbehindLast : (before ++ ([removal] ++ behind)).getLast? = some last := by
      rw [← List.append_assoc, List.getLast?_append_of_ne_nil _ hne, hlast]
    rw [hbehindLast]
    simp [hne, hother]

end

lemma hasSpec_eq (d : RenderStudioData) (path : SdfPath) :
    d.hasSpec path = (d.mData.lookup path).isSome := by
  rw [Bool.eq_iff_iff]
  simp [RenderStudioData.hasSpec, AList.lookup_isSome]

lemma receiveAll_acknowledges (path : SdfPath) {s : PathState} {entries : List (Option SpecData)}
    (h : ∀ delta, some delta ∈ entries → delta.fields = []) :
    (s.receiveAll path entries).spec = s.spec := by
  unfold receiveAll
  induction entries generalizing s with
  | nil => rfl
  | cons entry entries ih =>
    rw [List.foldl_cons, ih fun delta hdelta => h delta (List.mem_cons_of_mem entry hdelta)]
    cases entry with
    | none => rfl
    | some delta => simp [receive, h delta List.mem_cons_self]

/-- The call applies the tables that are queued behind the last applied number, up to the first gap,
whatever is queued behind it. One of them, `deltas`, has a delta for the path with the removal among its fields, and the ones behind it have none. The
path is not unacknowledged when the delta is applied: it was not before the call, or one of the
tables `before` acknowledged it. Then the spec is gone after the call exactly if the removal is the
last field, or if the delta has no known type to create a spec with. -/
theorem removed_spec_stays_removed {d : RenderStudioData} {before behind : List HashTable}
    {deltas : HashTable} {path : SdfPath} {delta : SpecData}
    (hidle : d.mIsProcessingRemoteUpdates = false)
    (hqueue : ∀ k ≤ (before ++ deltas :: behind).length,
      d.mRemoteDeltasQueue.lookup (d.mLatestAppliedSequence + 1 + k) =
        (before ++ deltas :: behind)[k]?)
    (hdelta : deltas.lookup path = some delta)
    (hbehind : ∀ t ∈ behind, ∀ delta', t.lookup path = some delta' → delta'.fields = [])
    (hacknowledged : d.isUnacknowledged path = false ∨ ∃ t ∈ before, Acknowledges t path)
    (hdistinct : (delta.fields.map Prod.fst).Nodup)
    (hremoval : (SdfFieldKeys.typeName, .token "") ∈ delta.fields) :
    d.processRemoteUpdates.hasSpec path = false ↔
      delta.specType = .unknown ∨
        delta.fields.getLast? = some (SdfFieldKeys.typeName, .token "") := by
  have hne : delta.fields ≠ [] := List.ne_nil_of_mem hremoval
  have hfields : ∀ s : PathState, s.unacknowledged = false →
      (s.receive path (some delta)).spec = entryAt false path delta s.spec := by
    intro s hs
    simp [receive, hne, hs]
  have hfree : ((pathState d path).receiveAll path
      (before.map (·.lookup path))).unacknowledged = false := by
    rw [← Bool.not_eq_true, receiveAll_unacknowledged, not_and]
    intro hunack hall
    rcases hacknowledged with hfree | ⟨t, ht, delta', hlookup, hempty⟩
    · have hunack' : d.isUnacknowledged path = true := hunack
      rw [hfree] at hunack'
      exact Bool.false_ne_true hunack'
    · exact hall delta' (List.mem_map.2 ⟨t, ht, hlookup⟩) hempty
  have hrun := foldl_applyRound_pathState (before ++ deltas :: behind) d path
  have hspec : (d.processRemoteUpdates.mData.lookup path) = entryAt false path delta
      ((pathState d path).receiveAll path (before.map (·.lookup path))).spec := by
    rw [processRemoteUpdates_pathState _ hidle hqueue]
    refine (congrArg PathState.spec hrun).trans ?_
    rw [List.map_append, List.map_cons, hdelta, receiveAll, List.foldl_append, List.foldl_cons,
      ← receiveAll, ← receiveAll, receiveAll_acknowledges path, hfields _ hfree]
    intro delta' hmem
    obtain ⟨t, ht, hlookup⟩ := List.mem_map.1 hmem
    exact hbehind t ht delta' hlookup
  rw [hasSpec_eq, hspec, Option.isSome_eq_false_iff, Option.isNone_iff_eq_none]
  exact entryAt_removal path hdistinct hremoval _

end

section

attribute [local instance] Usd.sample

/-- A loaded layer with the prim `/a` and one table for it in the queue. -/
def removing (fields : List (TfToken × VtValue)) : RenderStudioData :=
  (loaded (AList.insert "/a" { specType := .prim } ∅)).accumulateRemoteUpdate
    (AList.insert "/a" { specType := .prim, fields := fields } ∅) 1

/-- The removal is the last field. -/
theorem removed_spec_stays_removed_last :
    let fields : List (TfToken × VtValue) := [("active", .bool false), ("typeName", .token "")]
    (removing fields).processRemoteUpdates.hasSpec "/a" = false ↔
      SdfSpecType.prim = .unknown ∨ fields.getLast? = some (SdfFieldKeys.typeName, .token "") := by
  intro fields
  let deltas : HashTable := AList.insert "/a" { specType := .prim, fields := fields } ∅
  have hqueue : ∀ k ≤ ([] ++ [deltas]).length, (removing fields).mRemoteDeltasQueue.lookup
      ((removing fields).mLatestAppliedSequence + 1 + k) = ([] ++ [deltas])[k]? := by
    intro k _
    cases k with
    | zero => rfl
    | succ k => exact AList.lookup_insert_ne (by omega)
  have hdelta : deltas.lookup "/a" = some { specType := .prim, fields := fields } := rfl
  exact removed_spec_stays_removed rfl hqueue hdelta (by simp) (.inl (by decide)) (by decide)
    (by simp [fields])

/-- The removal is the first field: the next one brings the spec back, without its fields. -/
theorem removed_spec_reappears :
    let fields : List (TfToken × VtValue) := [("typeName", .token ""), ("active", .bool false)]
    let d := removing fields
    d.isUnacknowledged "/a" = false ∧ (fields.map Prod.fst).Nodup ∧
      (SdfFieldKeys.typeName, .token "") ∈ fields ∧ d.processRemoteUpdates.getSequence = 1 ∧
      d.processRemoteUpdates.hasSpec "/a" = true := by
  intro fields d
  exact ⟨by decide, by decide, by simp [fields], by decide, by decide⟩

end

end RenderStudioKit.Proofs
