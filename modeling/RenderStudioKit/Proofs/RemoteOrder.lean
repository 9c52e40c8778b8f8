import RenderStudioKit.Lib.Reassembly
import RenderStudioKit.Lib.Runs
import RenderStudioKit.Proofs.DataUpdates

/-!
# In-order application of remote updates

The update tables of a layer are numbered from 1. Whatever the order in which they are
accumulated, however often each one arrives and however often the queue is processed in
between, the data is that of the complete prefix of the tables, each applied once.
-/

namespace RenderStudioKit.Proofs

open Reassembly

section

variable [Usd]

/-- The two calls that take remote updates into the data. -/
inductive RemoteCall where
  | accumulate (deltas : HashTable) (sequence : Nat)
  | process

def RemoteCall.perform (d : RenderStudioData) : RemoteCall → RenderStudioData
  | .accumulate deltas sequence => d.accumulateRemoteUpdate deltas sequence
  | .process => d.processRemoteUpdates

/-- Freshly loaded data without local edits. -/
def loaded (base : HashTable) : RenderStudioData :=
  RenderStudioData.onLoaded { mData := base }

/-- The two tables have the same entries, enumerated in any order. -/
def SameTable (deltas deltas' : HashTable) : Prop :=
  ∀ path, deltas.lookup path = deltas'.lookup path

/-- Every table accumulated under the number `k ≥ 1` is `T k`. -/
def Fits (T : Nat → HashTable) (calls : List RemoteCall) : Prop :=
  ∀ deltas k, RemoteCall.accumulate deltas k ∈ calls → 1 ≤ k ∧ SameTable deltas (T k)

/-- The numbers a list of calls accumulates. -/
def accumulated : List RemoteCall → List Nat
  | [] => []
  | .accumulate _ k :: calls => k :: accumulated calls
  | .process :: calls => accumulated calls

/-- The tables `T 1`, …, `T n` applied to the loaded data one after the other. -/
def appliedInOrder (base : HashTable) (T : Nat → HashTable) (n : Nat) : HashTable :=
  (upTo applyTable T { data := { loaded base with mIsProcessingRemoteUpdates := true } } n).data.mData

/-- The spec of one path after the tables `T 1`, …, `T n`. -/
def specInOrder (base : HashTable) (T : Nat → HashTable) (path : SdfPath) (n : Nat) :
    Option SpecData :=
  upTo (fun spec deltas => tableAt false deltas path spec) T (base.lookup path) n

lemma SameTable.tableAt_eq {deltas deltas' : HashTable} (h : SameTable deltas deltas')
    (unacknowledged : Bool) (path : SdfPath) (spec : Option SpecData) :
    tableAt unacknowledged deltas path spec = tableAt unacknowledged deltas' path spec := by
  unfold tableAt
  rw [h path]

lemma lookup_appliedInOrder (base : HashTable) (T : Nat → HashTable) (n : Nat) (path : SdfPath) :
    (appliedInOrder base T n).lookup path = specInOrder base T path n := by
  have hinv : ∀ n, let d := (upTo applyTable T
      { data := { loaded base with mIsProcessingRemoteUpdates := true } } n).data
      d.mIsProcessingRemoteUpdates = true ∧ d.isUnacknowledged path = false ∧
        d.mData.lookup path = specInOrder base T path n := by
    intro n
    induction n with
    | zero => exact ⟨rfl, by simp [RenderStudioData.isUnacknowledged, loaded,
        RenderStudioData.onLoaded], rfl⟩
    | succ n ih =>
      obtain ⟨hproc, hunack, hspec⟩ := ih
      rw [upTo_succ, applyTable_data]
      refine ⟨(applyTableData_frame hproc _).processing.trans hproc, ?_, ?_⟩
      · have hacked := isUnacknowledged_applyTableData hproc (T (n + 1)) path
        rw [hunack] at hacked
        simpa using hacked
      · rw [lookup_applyTableData hproc, hunack, hspec]
        rfl
  exact (hinv n).2.2

/-- The invariant of the data after some calls: the applied tables are a complete prefix,
every accumulated table beyond it is queued, and the data is that of the prefix. -/
structure InOrder (base : HashTable) (T : Nat → HashTable) (arrived : Set Nat)
    (d : RenderStudioData) : Prop where
  idle : d.mIsProcessingRemoteUpdates = false
  noPending : ∀ path, d.isUnacknowledged path = false
  complete : Complete arrived d.mLatestAppliedSequence
  queued : ∀ k, d.mLatestAppliedSequence < k →
    ((d.mRemoteDeltasQueue.lookup k).isSome ↔ k ∈ arrived)
  fits : ∀ k deltas, d.mRemoteDeltasQueue.lookup k = some deltas → SameTable deltas (T k)
  specs : ∀ path, d.mData.lookup path = specInOrder base T path d.mLatestAppliedSequence

section

variable {base : HashTable} {T : Nat → HashTable} {arrived : Set Nat} {d : RenderStudioData}

lemma inOrder_loaded (base : HashTable) (T : Nat → HashTable) : InOrder base T ∅ (loaded base) where
  idle := rfl
  noPending _ := by simp [RenderStudioData.isUnacknowledged, loaded, RenderStudioData.onLoaded]
  complete := Complete.zero ∅
  queued _ _ := by simp [loaded, RenderStudioData.onLoaded]
  fits _ _ h := by simp [loaded, RenderStudioData.onLoaded] at h
  specs _ := rfl

lemma InOrder.accumulate (h : InOrder base T arrived d) {deltas : HashTable} {k : Nat}
    (hfits : SameTable deltas (T k)) :
    InOrder base T (insert k arrived) (d.accumulateRemoteUpdate deltas k) where
  idle := h.idle
  noPending := h.noPending
  complete := h.complete.mono (Set.subset_insert k arrived)
  queued j hj := by
    unfold RenderStudioData.accumulateRemoteUpdate
    by_cases hjk : j = k
    · subst hjk
      simp
    · simpa [hjk] using h.queued j hj
  fits j deltas' hj := by
    unfold RenderStudioData.accumulateRemoteUpdate at hj
    by_cases hjk : j = k
    · subst hjk
      simp only [AList.lookup_insert, Option.some.injEq] at hj
      rwa [← hj]
    · exact h.fits j deltas' (by simpa [hjk] using hj)
  specs := h.specs

lemma InOrder.applyRound (h : InOrder base T arrived d) {deltas : HashTable}
    (hnext : d.mRemoteDeltasQueue.lookup (d.mLatestAppliedSequence + 1) = some deltas) :
    InOrder base T arrived (applyRound d deltas) where
  idle := rfl
  noPending path := by
    have hacked := isUnacknowledged_applyRound d deltas path
    rw [h.noPending path] at hacked
    simpa using hacked
  complete := h.complete.succ ((h.queued _ (Nat.lt_succ_self _)).1 (by rw [hnext]; rfl))
  queued k hk := by
    simp only [applyRound_mLatestAppliedSequence] at hk
    simp only [applyRound_mRemoteDeltasQueue]
    rw [AList.lookup_erase_ne (by omega)]
    exact h.queued k (by omega)
  fits k deltas' hk := by
    by_cases hlast : k = d.mLatestAppliedSequence + 1
    · subst hlast
      simp at hk
    · simp only [applyRound_mRemoteDeltasQueue] at hk
      rw [AList.lookup_erase_ne hlast] at hk
      exact h.fits k deltas' hk
  specs path := by
    rw [lookup_applyRound, h.noPending path, h.specs path,
      (h.fits _ deltas hnext).tableAt_eq]
    rfl

lemma InOrder.process (h : InOrder base T arrived d) :
    InOrder base T arrived d.processRemoteUpdates ∧
      d.processRemoteUpdates.mLatestAppliedSequence + 1 ∉ arrived := by
  obtain ⟨hinv, hgap⟩ := processRemoteUpdates_keep (InOrder base T arrived)
    (fun _ _ hd hnext => hd.applyRound hnext) h.idle h
  refine ⟨hinv, fun hmem => ?_⟩
  have hsome := (hinv.queued _ (Nat.lt_succ_self _)).2 hmem
  rw [hgap] at hsome
  exact absurd hsome (by simp)

lemma InOrder.calls {calls : List RemoteCall} (hfits : Fits T calls)
    (h : InOrder base T arrived d) :
    InOrder base T (arrived ∪ {k | k ∈ accumulated calls})
      (Runs.final RemoteCall.perform d calls) := by
  induction calls generalizing arrived d with
  | nil => simpa [accumulated] using h
  | cons call calls ih =>
    have hrest : Fits T calls := fun deltas k hk => hfits deltas k (List.mem_cons_of_mem _ hk)
    cases call with
    | accumulate deltas k =>
      have hnext := ih hrest (h.accumulate (hfits deltas k List.mem_cons_self).2)
      have hset : insert k arrived ∪ {j | j ∈ accumulated calls} =
          arrived ∪ {j | j ∈ accumulated (.accumulate deltas k :: calls)} := by
        ext j
        simp only [accumulated, Set.mem_union, Set.mem_insert_iff, Set.mem_ofPred_eq,
          List.mem_cons]
        tauto
      rwa [hset] at hnext
    | process => exact ih hrest h.process.1

lemma InOrder.result (base : HashTable) {calls : List RemoteCall} (hfits : Fits T calls) :
    let d := (Runs.final RemoteCall.perform (loaded base) calls).processRemoteUpdates
    IsGreatest {n | Complete {k | k ∈ accumulated calls} n} d.getSequence ∧
      ∀ path, d.mData.lookup path = (appliedInOrder base T d.getSequence).lookup path := by
  have hcalls := (inOrder_loaded base T).calls hfits
  rw [Set.empty_union] at hcalls
  obtain ⟨hinv, hgap⟩ := hcalls.process
  refine ⟨hinv.complete.isGreatest hgap, fun path => ?_⟩
  rw [lookup_appliedInOrder]
  exact hinv.specs path

end

/-- Out-of-order, repeated and batched arrival of the tables `T 1`, `T 2`, … has the effect
of applying the longest complete prefix of them in order, each once; it depends only on
which numbers were accumulated. -/
theorem remoteUpdates_apply_in_order (base : HashTable) (T : Nat → HashTable)
    (calls calls' : List RemoteCall) (hfits : Fits T calls) (hfits' : Fits T calls') :
    let d := (Runs.final RemoteCall.perform (loaded base) calls).processRemoteUpdates
    let d' := (Runs.final RemoteCall.perform (loaded base) calls').processRemoteUpdates
    IsGreatest {n | ∀ k, 1 ≤ k → k ≤ n → k ∈ accumulated calls} d.getSequence ∧
      (∀ path, d.mData.lookup path = (appliedInOrder base T d.getSequence).lookup path) ∧
      ((∀ k, k ∈ accumulated calls ↔ k ∈ accumulated calls') →
        d'.getSequence = d.getSequence ∧
          ∀ path, d'.mData.lookup path = d.mData.lookup path) := by
  intro d d'
  obtain ⟨hgreatest, hspecs⟩ := InOrder.result base hfits
  obtain ⟨hgreatest', hspecs'⟩ := InOrder.result base hfits'
  refine ⟨hgreatest, hspecs, fun hsame => ?_⟩
  have hset : {k | k ∈ accumulated calls'} = {k | k ∈ accumulated calls} :=
    Set.ext fun k => (hsame k).symm
  rw [hset] at hgreatest'
  have hseq : d'.getSequence = d.getSequence := hgreatest'.unique hgreatest
  refine ⟨hseq, fun path => ?_⟩
  rw [hspecs' path, hspecs path, ← hseq]

end

attribute [local instance] Usd.sample

/-- Two tables that arrive in the wrong order, the first one twice. -/
theorem remoteUpdates_apply_in_order_reversed :
    let first := oneField "/a" .prim "kind" (.string "group")
    let second := oneField "/a" .prim "kind" (.string "model")
    let calls : List RemoteCall :=
      [.accumulate second 2, .process, .accumulate first 1, .accumulate first 1]
    let d := (Runs.final RemoteCall.perform (loaded ∅) calls).processRemoteUpdates
    IsGreatest {n | ∀ k, 1 ≤ k → k ≤ n → k ∈ accumulated calls} 2 ∧ d.getSequence = 2 ∧
      (d.get "/a" "kind").getStdString = "model" := by
  intro first second calls d
  have hfits : Fits (fun k => if k = 1 then first else second) calls := by
    intro deltas k hk
    simp only [calls, List.mem_cons, RemoteCall.accumulate.injEq, reduceCtorEq, List.not_mem_nil,
      false_or, or_false] at hk
    rcases hk with ⟨rfl, rfl⟩ | ⟨rfl, rfl⟩ | ⟨rfl, rfl⟩ <;> exact ⟨by decide, fun _ => rfl⟩
  have hresult := remoteUpdates_apply_in_order ∅ _ calls calls hfits hfits
  have hseq : d.getSequence = 2 := by decide
  exact ⟨hseq ▸ hresult.1, hseq, by decide⟩

end RenderStudioKit.Proofs
