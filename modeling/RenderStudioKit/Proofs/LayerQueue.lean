import RenderStudioKit.Proofs.LinkedClient

/-!
# The queue of a layer

Whatever stands in the queue, `ProcessLiveUpdates` applies the tables that follow the last applied
number without a gap, in order, and leaves those behind the gap.
-/

namespace RenderStudioKit.Proofs

open API PathState

section

variable [Usd]

/-- `ProcessRemoteUpdates` applies the tables up to the first missing number. -/
theorem processRemoteUpdates_run {d : RenderStudioData}
    (hidle : d.mIsProcessingRemoteUpdates = false) :
    ∃ tables : List HashTable, d.processRemoteUpdates = tables.foldl applyRound d ∧
      (∀ j t, tables[j]? = some t →
        d.mRemoteDeltasQueue.lookup (d.mLatestAppliedSequence + 1 + j) = some t) ∧
      d.mRemoteDeltasQueue.lookup (d.mLatestAppliedSequence + 1 + tables.length) = none := by
  let Inv (d' : RenderStudioData) : Prop := ∃ tables : List HashTable,
    d' = tables.foldl applyRound d ∧
    ∀ j t, tables[j]? = some t →
      d.mRemoteDeltasQueue.lookup (d.mLatestAppliedSequence + 1 + j) = some t
  have hkeep : ∀ d' deltas, Inv d' →
      d'.mRemoteDeltasQueue.lookup (d'.mLatestAppliedSequence + 1) = some deltas →
      Inv (applyRound d' deltas) := by
    rintro d' deltas ⟨tables, rfl, htables⟩ hnext
    obtain ⟨-, -, hlatest, hqueue⟩ := foldl_applyRound_frame tables d
    rw [hlatest, hqueue _ (by omega)] at hnext
    refine ⟨tables ++ [deltas], ?_, ?_⟩
    · rw [List.foldl_append]
      rfl
    · intro j t hj
      by_cases hlast : j < tables.length
      · rw [List.getElem?_append_left hlast] at hj
        exact htables j t hj
      · have hbound : j < (tables ++ [deltas]).length := (List.getElem?_eq_some_iff.1 hj).1
        rw [List.length_append, List.length_singleton] at hbound
        obtain rfl : j = tables.length := by omega
        rw [List.getElem?_concat_length, Option.some.injEq] at hj
        rw [← hj, ← hnext]
        congr 1
        omega
  obtain ⟨⟨tables, hrun, htables⟩, hstopped⟩ :=
    processRemoteUpdates_keep Inv hkeep hidle ⟨[], rfl, by simp⟩
  refine ⟨tables, hrun, htables, ?_⟩
  obtain ⟨-, -, hlatest, hqueue⟩ := foldl_applyRound_frame tables d
  rw [hrun, hlatest, hqueue _ (by omega)] at hstopped
  rw [← hstopped]
  congr 1
  omega

lemma foldl_applyRound_queue (tables : List HashTable) (d : RenderStudioData) {k : Nat}
    {t : HashTable} (h : (tables.foldl applyRound d).mRemoteDeltasQueue.lookup k = some t) :
    d.mRemoteDeltasQueue.lookup k = some t := by
  induction tables generalizing d with
  | nil => exact h
  | cons deltas tables ih =>
    have hnext := ih (applyRound d deltas) h
    rw [applyRound_mRemoteDeltasQueue] at hnext
    by_cases hk : k = d.mLatestAppliedSequence + 1
    · subst hk
      rw [AList.lookup_erase] at hnext
      exact absurd hnext (by simp)
    · rwa [AList.lookup_erase_ne hk] at hnext

/-- The queue of the layer when `ProcessRemoteUpdates` starts. -/
def queueOf (f : RenderStudioFileFormat) (layer : String) : AList (fun _ : Nat => HashTable) :=
  (enqueue (layerData f layer) (accumulatedUpdates f layer)).mRemoteDeltasQueue

/-- The tables that take the data of the layer to the number `latest`. -/
def tablesUpTo (f : RenderStudioFileFormat) (layer : String) (latest : Nat) : List HashTable :=
  (List.range (latest - (layerData f layer).mLatestAppliedSequence)).map fun j =>
    ((queueOf f layer).lookup ((layerData f layer).mLatestAppliedSequence + 1 + j)).getD ∅

/-- The data of the layer after the tables were applied. -/
structure Updated (f : RenderStudioFileFormat) (layer : String) (d : RenderStudioData)
    (tables : List HashTable) : Prop where
  latest : d.mLatestAppliedSequence = (layerData f layer).mLatestAppliedSequence + tables.length
  applied : ∀ j t, tables[j]? = some t →
    (queueOf f layer).lookup ((layerData f layer).mLatestAppliedSequence + 1 + j) = some t
  stopped : d.mRemoteDeltasQueue.lookup (d.mLatestAppliedSequence + 1) = none
  kept : ∀ k t, d.mLatestAppliedSequence < k → (queueOf f layer).lookup k = some t →
    d.mRemoteDeltasQueue.lookup k = some t
  queued : ∀ k t, d.mRemoteDeltasQueue.lookup k = some t → (queueOf f layer).lookup k = some t
  idle : d.mIsProcessingRemoteUpdates = false
  loaded : d.mIsLoaded = (layerData f layer).mIsLoaded
  locals : d.mLocalDeltas = ∅
  states : ∀ path, pathState d path =
    (pathState (layerData f layer) path).flush.receiveAll path (tables.map (·.lookup path))

lemma lookup_queueOf {f : RenderStudioFileFormat} {layer : String} {k : Nat} {t : HashTable}
    (h : (queueOf f layer).lookup k = some t) : (k, t) ∈ accumulatedUpdates f layer ∨
      (layerData f layer).mRemoteDeltasQueue.lookup k = some t ∧
        k ∉ (accumulatedUpdates f layer).map Prod.fst := by
  rcases AList.lookup_foldl_insert (accumulatedUpdates f layer)
    (layerData f layer).mRemoteDeltasQueue k with ⟨t', hmem, hlookup⟩ | ⟨hnot, hlookup⟩
  · left
    have heq : t' = t := Option.some.inj (hlookup.symm.trans h)
    rwa [← heq]
  · exact .inr ⟨hlookup.symm.trans h, hnot⟩

lemma queueOf_isSome {f : RenderStudioFileFormat} {layer : String} {k : Nat} {t : HashTable}
    (h : (k, t) ∈ accumulatedUpdates f layer ∨
      (layerData f layer).mRemoteDeltasQueue.lookup k = some t) :
    ∃ t', (queueOf f layer).lookup k = some t' := by
  rcases AList.lookup_foldl_insert (accumulatedUpdates f layer)
    (layerData f layer).mRemoteDeltasQueue k with ⟨t', -, hlookup⟩ | ⟨hnot, hlookup⟩
  · exact ⟨t', hlookup⟩
  · rcases h with hmem | hqueued
    · exact absurd (List.mem_map_of_mem hmem) hnot
    · exact ⟨t, hlookup.trans hqueued⟩

lemma updated_registered {f : RenderStudioFileFormat} (files : String → Option HashTable)
    (hreloads : f.mRequestedReloads = []) {layer : String}
    (hregistered : (f.mLayerRegistry.lookup layer).isSome)
    (hidle : (layerData f layer).mIsProcessingRemoteUpdates = false) :
    let d := layerData (f.processLiveUpdates files).format layer
    Updated f layer d (tablesUpTo f layer d.mLatestAppliedSequence) := by
  intro d
  obtain ⟨before, hbefore⟩ := Option.isSome_iff_exists.1 hregistered
  have hdata : layerData f layer = before := by rw [layerData, hbefore, Option.getD_some]
  obtain ⟨hregistry, -⟩ := processLiveUpdates_layer f files layer
  rw [reloaded_lookup_none files hreloads, hbefore, Option.map_some] at hregistry
  let queued := enqueue before.fetchLocalDeltas.2 (accumulatedUpdates f layer)
  have hprocess : d = queued.processRemoteUpdates := by
    have hafter : d = RenderStudioFileFormat.updateData before
        ((f.mAccumulatedAcknowledges.lookup layer).getD [])
        ((f.mAccumulatedDeltas.lookup layer).getD []) := by
      change (AList.lookup _ _).getD _ = _
      rw [hregistry, Option.getD_some]
    rw [hafter, RenderStudioFileFormat.updateData, accumulate_eq]
    rfl
  have hqueue : queued.mRemoteDeltasQueue = queueOf f layer := by
    rw [queueOf, hdata]
    rfl
  have hlatest : queued.mLatestAppliedSequence = (layerData f layer).mLatestAppliedSequence := by
    rw [hdata]
    rfl
  have hidle' : queued.mIsProcessingRemoteUpdates = false := by
    rw [hdata] at hidle
    exact hidle
  obtain ⟨tables, hrun, htables, hend⟩ := processRemoteUpdates_run hidle'
  obtain ⟨hlocals, hloaded, hafter, hrest⟩ := foldl_applyRound_frame tables queued
  rw [hqueue, hlatest] at htables
  have hd : d = tables.foldl applyRound queued := hprocess.trans hrun
  rw [← hd, hlatest] at hafter hrest
  rw [hlatest, hqueue] at hend
  have hlist : tablesUpTo f layer d.mLatestAppliedSequence = tables := by
    apply List.ext_getElem?
    intro j
    unfold tablesUpTo
    rw [hafter, Nat.add_sub_cancel_left, List.getElem?_map]
    by_cases hj : j < tables.length
    · rw [List.getElem?_range hj, Option.map_some, List.getElem?_eq_getElem hj,
        htables j _ (List.getElem?_eq_getElem hj), Option.getD_some]
    · rw [List.getElem?_eq_none (by simpa using hj), List.getElem?_eq_none (by omega),
        Option.map_none]
  rw [hlist]
  refine ⟨hafter, htables, ?_, ?_, ?_, by rw [hprocess]; rfl, ?_, ?_, ?_⟩
  · rw [hafter, hrest _ (by omega), hqueue, ← hend]
    congr 1
    omega
  · intro k t hk hlookup
    rw [hafter] at hk
    rw [hrest k hk, hqueue, hlookup]
  · intro k t hlookup
    rw [hd] at hlookup
    rw [← hqueue]
    exact foldl_applyRound_queue tables queued hlookup
  · rw [hd, hloaded, hdata]
    rfl
  · rw [hd, hlocals]
    rfl
  · intro path
    rw [hd, foldl_applyRound_pathState, hdata]
    rfl

lemma registered_iff {f : RenderStudioFileFormat} (files : String → Option HashTable)
    (hreloads : f.mRequestedReloads = []) (layer : String) :
    ((f.processLiveUpdates files).format.mLayerRegistry.lookup layer).isSome =
      (f.mLayerRegistry.lookup layer).isSome := by
  obtain ⟨hregistry, -⟩ := processLiveUpdates_layer f files layer
  rw [hregistry, reloaded_lookup_none files hreloads, Option.isSome_map]

/-- `ProcessLiveUpdates` seen at one layer. What arrives for a layer that is not registered would be
lost. -/
theorem processLiveUpdates_updated {f : RenderStudioFileFormat} (files : String → Option HashTable)
    (hreloads : f.mRequestedReloads = []) {layer : String}
    (hidle : (layerData f layer).mIsProcessingRemoteUpdates = false)
    (hread : f.mLayerRegistry.lookup layer = none → accumulatedUpdates f layer = []) :
    let d := layerData (f.processLiveUpdates files).format layer
    Updated f layer d (tablesUpTo f layer d.mLatestAppliedSequence) := by
  intro d
  cases hregistered : f.mLayerRegistry.lookup layer with
  | some before => exact updated_registered files hreloads (by rw [hregistered]; rfl) hidle
  | none =>
    have hstill := registered_iff files hreloads layer
    rw [hregistered, Option.isSome_none, Option.isSome_eq_false_iff, Option.isNone_iff_eq_none]
      at hstill
    have hbefore : layerData f layer = {} := by rw [layerData, hregistered, Option.getD_none]
    have hafter : d = {} := by
      change (AList.lookup _ _).getD _ = _
      rw [hstill, Option.getD_none]
    have hqueue : queueOf f layer = ∅ := by
      rw [queueOf, hread hregistered, hbefore]
      rfl
    have htables : tablesUpTo f layer d.mLatestAppliedSequence = [] := by
      rw [tablesUpTo, hbefore, hafter]
      rfl
    rw [htables, hafter]
    refine ⟨by rw [hbefore]; rfl, by simp, rfl, ?_, ?_, rfl, by rw [hbefore], rfl, ?_⟩
    · intro k t hk hlookup
      rw [hqueue] at hlookup
      exact absurd hlookup (by simp)
    · intro k t hlookup
      exact absurd hlookup (by simp)
    · intro path
      rw [hbefore]
      rfl

end

end RenderStudioKit.Proofs
