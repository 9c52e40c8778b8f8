import RenderStudioKit.Proofs.RemoteOrder
import RenderStudioKit.Proofs.PathState

/-!
# Pending edits

The unacknowledged set has one entry for a path however many deltas for it are on their
way, and every acknowledge of the path removes it. A pending edit is protected in exactly
the runs in which no acknowledge names a path that is still pending behind it.
-/

namespace RenderStudioKit.Proofs

open PathState

section

variable [Usd]

/-- A delta table of another client: every entry has a field. -/
structure ForeignTable where
  deltas : HashTable
  fields_ne_nil : ∀ path delta, deltas.lookup path = some delta → delta.fields ≠ []

/-- The next numbered update of the layer: the acknowledge of the oldest sent delta, or a
delta of another client. -/
inductive Update where
  | acknowledge
  | foreign (table : ForeignTable)

/-- One layer of a connected client and the deltas it sent that are not acknowledged. -/
structure Client where
  data : RenderStudioData
  sent : List HashTable := []

/-- The acknowledge of a delta as `ProcessLiveUpdates` queues it. -/
def acknowledgeTable (deltas : HashTable) : HashTable :=
  deltas.mapVal fun _ _ => {}

/-- The tables of a batch of updates, given the deltas that wait for their acknowledge. -/
def updateTables : List HashTable → List Update → List HashTable
  | _, [] => []
  | [], .acknowledge :: updates => updateTables [] updates
  | deltas :: sent, .acknowledge :: updates => acknowledgeTable deltas :: updateTables sent updates
  | sent, .foreign table :: updates => table.deltas :: updateTables sent updates

def acknowledgeCount : List Update → Nat
  | [] => 0
  | .acknowledge :: updates => acknowledgeCount updates + 1
  | .foreign _ :: updates => acknowledgeCount updates

/-- Accumulates the tables under the numbers `k`, `k + 1`, … -/
def accumulateFrom (d : RenderStudioData) : Nat → List HashTable → RenderStudioData
  | _, [] => d
  | k, deltas :: tables => accumulateFrom (d.accumulateRemoteUpdate deltas k) (k + 1) tables

namespace Client

def set (c : Client) (path : SdfPath) (field : TfToken) (value : VtValue) : Client :=
  { c with data := c.data.set path field value }

/-- `FetchLocalDeltas`; a table that is not empty is sent if it `serializes`. -/
def flush (c : Client) (serializes : Bool) : Client where
  data := c.data.fetchLocalDeltas.2
  sent :=
    if c.data.fetchLocalDeltas.1.entries.isEmpty || !serializes then c.sent
    else c.sent ++ [c.data.fetchLocalDeltas.1]

/-- Accumulates the next updates and calls `ProcessRemoteUpdates`. -/
def process (c : Client) (updates : List Update) : Client where
  data := (accumulateFrom c.data (c.data.getSequence + 1)
    (updateTables c.sent updates)).processRemoteUpdates
  sent := c.sent.drop (acknowledgeCount updates)

/-- The client has an edit of the path that was not sent or not acknowledged yet. -/
def Pending (c : Client) (path : SdfPath) : Prop :=
  path ∈ c.data.mLocalDeltas ∨ ∃ deltas ∈ c.sent, path ∈ deltas

instance (c : Client) (path : SdfPath) : Decidable (c.Pending path) :=
  inferInstanceAs (Decidable (path ∈ c.data.mLocalDeltas ∨ ∃ deltas ∈ c.sent, path ∈ deltas))

/-- Whatever other clients edit next, no field of a pending path changes but its children. -/
def Protected (c : Client) : Prop :=
  ∀ path, ¬requireForceApply path → c.Pending path →
    ∀ (tables : List ForeignTable) (field : TfToken), field ≠ SdfChildrenKeys.primChildren →
      (c.process (tables.map .foreign)).data.getFieldValue path field =
        c.data.getFieldValue path field

def PendingUnacknowledged (c : Client) : Prop :=
  ∀ path, ¬requireForceApply path → c.Pending path → c.data.isUnacknowledged path

end Client

inductive ClientAction where
  | set (path : SdfPath) (field : TfToken) (value : VtValue)
  | flush (serializes : Bool)
  | process (updates : List Update)

def ClientAction.perform (c : Client) : ClientAction → Client
  | .set path field value => c.set path field value
  | .flush serializes => c.flush serializes
  | .process updates => c.process updates

/-- `Good` holds after the action and, if it processes a batch, after every round of the
loop: that is where processing the updates before it would have stopped. -/
def Throughout (Good : Client → Prop) (c : Client) : ClientAction → Prop
  | .process updates => ∀ n, Good (c.process (updates.take n))
  | action => Good (action.perform c)

/-- No delta acknowledged by the batch is on a path that still has an edit in the local deltas
or in a delta sent later. -/
def NoOtherPending (c : Client) : ClientAction → Prop
  | .process updates => ∀ j < acknowledgeCount updates, ∀ deltas, c.sent[j]? = some deltas →
      ∀ path ∈ deltas, ¬requireForceApply path →
        path ∉ c.data.mLocalDeltas ∧ ∀ deltas' ∈ c.sent.drop (j + 1), path ∉ deltas'
  | _ => True

/-- Loaded data whose queue holds nothing behind the last applied number. -/
structure Ready (c : Client) : Prop where
  idle : c.data.mIsProcessingRemoteUpdates = false
  loaded : c.data.mIsLoaded = true
  noneQueued : ∀ k, c.data.mLatestAppliedSequence < k → c.data.mRemoteDeltasQueue.lookup k = none

lemma accumulateFrom_eq (tables : List HashTable) (d : RenderStudioData) (k : Nat) :
    accumulateFrom d k tables =
      { d with mRemoteDeltasQueue := (accumulateFrom d k tables).mRemoteDeltasQueue } := by
  induction tables generalizing d k with
  | nil => rfl
  | cons deltas tables ih => exact ih (d.accumulateRemoteUpdate deltas k) (k + 1)

lemma lookup_accumulateFrom_lt (tables : List HashTable) (d : RenderStudioData) {k j : Nat}
    (hj : j < k) :
    (accumulateFrom d k tables).mRemoteDeltasQueue.lookup j = d.mRemoteDeltasQueue.lookup j := by
  induction tables generalizing d k with
  | nil => rfl
  | cons deltas tables ih =>
    unfold accumulateFrom
    rw [ih _ (by omega)]
    exact AList.lookup_insert_ne (by omega)

lemma lookup_accumulateFrom (tables : List HashTable) {d : RenderStudioData} {k : Nat}
    (hfree : ∀ j, k ≤ j → d.mRemoteDeltasQueue.lookup j = none) (j : Nat) :
    (accumulateFrom d k tables).mRemoteDeltasQueue.lookup (k + j) = tables[j]? := by
  induction tables generalizing d k j with
  | nil => exact hfree (k + j) (by omega)
  | cons deltas tables ih =>
    unfold accumulateFrom
    cases j with
    | zero =>
      rw [lookup_accumulateFrom_lt _ _ (by omega)]
      exact AList.lookup_insert _
    | succ j =>
      have hnext := ih (d := d.accumulateRemoteUpdate deltas k) (k := k + 1)
        (fun i hi => (AList.lookup_insert_ne (by omega)).trans (hfree i (by omega))) j
      rw [show k + (j + 1) = k + 1 + j by omega, hnext, List.getElem?_cons_succ]

lemma processRemoteUpdates_accumulateFrom {d : RenderStudioData}
    (hidle : d.mIsProcessingRemoteUpdates = false)
    (hfree : ∀ k, d.mLatestAppliedSequence < k → d.mRemoteDeltasQueue.lookup k = none)
    (tables : List HashTable) :
    let d' := accumulateFrom d (d.getSequence + 1) tables
    d'.processRemoteUpdates = tables.foldl applyRound d' := by
  intro d'
  have heq : d' = { d with mRemoteDeltasQueue := d'.mRemoteDeltasQueue } :=
    accumulateFrom_eq tables d _
  have hsequence : d'.mLatestAppliedSequence = d.mLatestAppliedSequence := by rw [heq]
  refine processRemoteUpdates_pathState tables (by rw [heq]; exact hidle) fun k _ => ?_
  rw [hsequence]
  exact lookup_accumulateFrom tables (fun j hj => hfree j hj) k

lemma Ready.process_eq {c : Client} (h : Ready c) (updates : List Update) :
    let tables := updateTables c.sent updates
    let d := (c.process updates).data
    (∀ path, pathState d path =
        (pathState c.data path).receiveAll path (tables.map (·.lookup path))) ∧
      d.mLocalDeltas = c.data.mLocalDeltas ∧ d.mIsLoaded = c.data.mIsLoaded ∧
      d.mLatestAppliedSequence = c.data.mLatestAppliedSequence + tables.length ∧
      ∀ k, d.mLatestAppliedSequence < k → d.mRemoteDeltasQueue.lookup k = none := by
  intro tables d
  have hqueued := lookup_accumulateFrom tables (k := c.data.getSequence + 1)
    (fun j hj => h.noneQueued j hj)
  have hrun : d = tables.foldl applyRound (accumulateFrom c.data (c.data.getSequence + 1) tables) :=
    processRemoteUpdates_accumulateFrom h.idle h.noneQueued tables
  rw [accumulateFrom_eq] at hrun
  obtain ⟨hlocal, hloaded, hsequence, hqueue⟩ := foldl_applyRound_frame tables
    { c.data with mRemoteDeltasQueue :=
        (accumulateFrom c.data (c.data.getSequence + 1) tables).mRemoteDeltasQueue }
  rw [← hrun] at hlocal hloaded hsequence hqueue
  dsimp only at hsequence hqueue
  refine ⟨fun path => ?_, hlocal, hloaded, hsequence, fun k hk => ?_⟩
  · rw [hrun, foldl_applyRound_pathState]
    rfl
  · unfold RenderStudioData.getSequence at hqueued
    rw [hqueue k (by omega)]
    have hk' := hqueued (k - (c.data.mLatestAppliedSequence + 1))
    rw [show c.data.mLatestAppliedSequence + 1 + (k - (c.data.mLatestAppliedSequence + 1)) = k by
      omega] at hk'
    exact hk'.trans (List.getElem?_eq_none (by omega))

namespace Ready

variable {c : Client}

lemma start (base : HashTable) : Ready ⟨Proofs.loaded base, []⟩ where
  idle := rfl
  loaded := rfl
  noneQueued _ _ := rfl

lemma set (h : Ready c) (path : SdfPath) (field : TfToken) (value : VtValue) :
    Ready (c.set path field value) := by
  obtain ⟨hloaded, hidle, hsequence, hqueue⟩ := set_frame_loaded c.data path field value
  refine ⟨hidle.trans h.idle, hloaded.trans h.loaded, ?_⟩
  unfold Client.set
  rw [hsequence, hqueue]
  exact h.noneQueued

lemma flush (h : Ready c) (serializes : Bool) : Ready (c.flush serializes) :=
  ⟨h.idle, h.loaded, h.noneQueued⟩

lemma process (h : Ready c) (updates : List Update) : Ready (c.process updates) := by
  obtain ⟨-, -, hloaded, -, hqueue⟩ := h.process_eq updates
  exact ⟨rfl, hloaded.trans h.loaded, hqueue⟩

end Ready

lemma updateTables_entries (sent : List HashTable) (updates : List Update) (path : SdfPath) :
    (∀ delta, some delta ∈ (updateTables sent updates).map (·.lookup path) → delta.fields ≠ []) ↔
      ∀ deltas ∈ sent.take (acknowledgeCount updates), path ∉ deltas := by
  induction updates generalizing sent with
  | nil => cases sent <;> simp [updateTables, acknowledgeCount]
  | cons update updates ih =>
    cases update with
    | acknowledge =>
      cases sent with
      | nil => simpa [updateTables, acknowledgeCount] using ih []
      | cons deltas sent =>
        have hentry : (∀ delta, some delta = (acknowledgeTable deltas).lookup path →
            delta.fields ≠ []) ↔ path ∉ deltas := by
          unfold acknowledgeTable
          rw [AList.lookup_mapVal, ← AList.lookup_eq_none]
          cases deltas.lookup path <;> simp
        simp only [updateTables, acknowledgeCount, List.map_cons, List.mem_cons,
          List.take_succ_cons, or_imp, forall_and, hentry, ih sent, forall_eq]
    | foreign table =>
      have hentry : ∀ delta, some delta = table.deltas.lookup path → delta.fields ≠ [] :=
        fun delta hdelta => table.fields_ne_nil path delta hdelta.symm
      have hstep : updateTables sent (.foreign table :: updates) =
          table.deltas :: updateTables sent updates := by
        cases sent <;> rfl
      rw [hstep]
      simp only [acknowledgeCount, List.map_cons, List.mem_cons, or_imp, forall_and, ih sent]
      exact and_iff_right hentry

namespace Ready

variable {c : Client}

lemma process_isUnacknowledged (h : Ready c) (updates : List Update) (path : SdfPath) :
    (c.process updates).data.isUnacknowledged path = true ↔
      c.data.isUnacknowledged path = true ∧
        ∀ deltas ∈ c.sent.take (acknowledgeCount updates), path ∉ deltas := by
  have hstate := congrArg PathState.unacknowledged ((h.process_eq updates).1 path)
  have hreceive := receiveAll_unacknowledged path (pathState c.data path)
    ((updateTables c.sent updates).map (·.lookup path))
  rw [← hstate, updateTables_entries] at hreceive
  exact hreceive

lemma process_pending (h : Ready c) (updates : List Update) (path : SdfPath) :
    (c.process updates).Pending path ↔ path ∈ c.data.mLocalDeltas ∨
      ∃ deltas ∈ c.sent.drop (acknowledgeCount updates), path ∈ deltas := by
  have hlocal := (h.process_eq updates).2.1
  unfold Client.Pending
  rw [hlocal]
  rfl

end Ready

lemma updateTables_foreign (sent : List HashTable) (tables : List ForeignTable) :
    updateTables sent (tables.map .foreign) = tables.map (·.deltas) := by
  induction tables with
  | nil => cases sent <;> rfl
  | cons table tables ih =>
    rw [List.map_cons, List.map_cons, ← ih]
    cases sent <;> rfl

lemma entryAt_oneField {path : SdfPath} {specType : SdfSpecType} (hspec : specType ≠ .unknown)
    {key : TfToken} (hkey : key ≠ SdfFieldKeys.typeName) {value : VtValue}
    (hvalue : value.isEmpty = false) (spec : Option SpecData) :
    fieldAt (entryAt false path { specType := specType, fields := [(key, value)] } spec) key =
      some value := by
  have hremove : removesSpec key value = false := by cases value <;> simp [removesSpec, hkey]
  have hcreated : (createAt specType spec).isSome := by
    unfold createAt
    split_ifs with hmissing
    · rfl
    · cases spec with
      | none => simp [hspec] at hmissing
      | some spec => rfl
  unfold entryAt
  simp only [List.foldl_cons, List.foldl_nil, deltaAt, skipped, storedValue, Bool.false_and,
    Bool.false_eq_true, and_false, if_false, hremove]
  rw [fieldAt_setAt hvalue, ← Option.some_get hcreated, Option.map_some]

/-- A table that writes a value of its own choice. -/
def foreignEdit (path : SdfPath) (value : String) : ForeignTable where
  deltas := oneField path .prim "kind" (.string value)
  fields_ne_nil path' delta hlookup := by
    unfold oneField at hlookup
    by_cases hpath : path' = path
    · subst hpath
      rw [AList.lookup_insert, Option.some.injEq] at hlookup
      simp [← hlookup]
    · rw [AList.lookup_insert_ne hpath, AList.lookup_empty] at hlookup
      exact absurd hlookup (by simp)

namespace Ready

variable {c : Client}

/-- A pending path is protected if and only if it is unacknowledged. -/
theorem protected_iff (h : Ready c) : c.Protected ↔ c.PendingUnacknowledged := by
  constructor
  · intro hprotected path hforce hpending
    by_contra hunack
    rw [Bool.not_eq_true] at hunack
    have hwrites : ∀ value, c.data.getFieldValue path "kind" = some (.string value) := by
      intro value
      have hkept := hprotected path hforce hpending [foreignEdit path value] "kind" (by decide)
      have hstate := congrArg PathState.spec ((h.process_eq [.foreign (foreignEdit path value)]).1 path)
      have htables : updateTables c.sent [.foreign (foreignEdit path value)] =
          [(foreignEdit path value).deltas] := updateTables_foreign c.sent [foreignEdit path value]
      have hlookup : (foreignEdit path value).deltas.lookup path =
          some { specType := .prim, fields := [("kind", .string value)] } := AList.lookup_insert _
      rw [htables, List.map_singleton, hlookup] at hstate
      simp only [receiveAll, List.foldl_cons, List.foldl_nil, receive, pathState, hunack,
        List.cons_ne_nil, if_false] at hstate
      rw [getFieldValue_eq] at hkept
      rw [← hkept]
      exact (congrArg (fieldAt · "kind") hstate).trans
        (entryAt_oneField (by decide) (by decide) (by rfl) _)
    have hboth := (hwrites "a").symm.trans (hwrites "b")
    simp at hboth
  · intro hunack path hforce hpending tables field hfield
    have hstate := congrArg PathState.spec ((h.process_eq (tables.map .foreign)).1 path)
    rw [updateTables_foreign] at hstate
    rw [getFieldValue_eq, getFieldValue_eq]
    refine (congrArg (fieldAt · field) hstate).trans ?_
    refine receiveAll_protected hforce hfield (hunack path hforce hpending) _ fun delta hdelta => ?_
    obtain ⟨deltas, hdeltas, hlookup⟩ := List.mem_map.1 hdelta
    obtain ⟨table, -, rfl⟩ := List.mem_map.1 hdeltas
    exact table.fields_ne_nil path delta hlookup

end Ready

lemma exists_take_acknowledgeCount (updates : List Update) {j : Nat}
    (hj : j ≤ acknowledgeCount updates) :
    ∃ n, acknowledgeCount (updates.take n) = j := by
  induction updates generalizing j with
  | nil => exact ⟨0, (Nat.le_zero.1 hj).symm⟩
  | cons update updates ih =>
    cases update with
    | acknowledge =>
      cases j with
      | zero => exact ⟨0, rfl⟩
      | succ j =>
        obtain ⟨n, hn⟩ := ih (Nat.le_of_succ_le_succ hj)
        exact ⟨n + 1, congrArg Nat.succ hn⟩
    | foreign table =>
      obtain ⟨n, hn⟩ := ih hj
      exact ⟨n + 1, hn⟩

lemma acknowledgeCount_take_le (updates : List Update) (n : Nat) :
    acknowledgeCount (updates.take n) ≤ acknowledgeCount updates := by
  induction updates generalizing n with
  | nil => simp
  | cons update updates ih =>
    cases n with
    | zero => exact Nat.zero_le _
    | succ n => cases update <;> simpa [acknowledgeCount] using ih n

lemma set_pending_unacknowledged {c : Client} (h : Ready c) (hpending : c.PendingUnacknowledged)
    (path : SdfPath) (field : TfToken) (value : VtValue) :
    (c.set path field value).PendingUnacknowledged := by
  intro path' hforce hpath'
  change (pathState (c.set path field value).data path').unacknowledged = true
  unfold Client.Pending at hpath'
  rw [← AList.lookup_isSome] at hpath'
  change (pathState (c.set path field value).data path').edit.isSome ∨ _ at hpath'
  have hbefore : (pathState c.data path').edit.isSome ∨ (∃ deltas ∈ c.sent, path' ∈ deltas) →
      (pathState c.data path').unacknowledged = true := by
    intro hedit
    exact hpending path' hforce (hedit.imp_left AList.lookup_isSome.1)
  by_cases hpath : path' = path
  · subst hpath
    have hstate : pathState (c.set path' field value).data path' =
        (pathState c.data path').set field value := set_pathState h.idle h.loaded path' field value
    rw [hstate] at hpath' ⊢
    cases hedit : (pathState c.data path').edit with
    | some edit => exact set_keeps_unacknowledged field value (hbefore (.inl (by rw [hedit]; rfl)))
    | none =>
      rcases hpath' with hnew | hsent
      · exact set_first_edit field value hedit hnew
      · exact set_keeps_unacknowledged field value (hbefore (.inr hsent))
  · have hstate : pathState (c.set path field value).data path' = pathState c.data path' :=
      set_pathState_ne c.data field value hpath
    rw [hstate] at hpath' ⊢
    exact hbefore hpath'

lemma flush_pending_unacknowledged {c : Client} (hpending : c.PendingUnacknowledged)
    (serializes : Bool) : (c.flush serializes).PendingUnacknowledged := by
  intro path hforce hpath
  refine hpending path hforce ?_
  rcases hpath with hlocal | ⟨deltas, hdeltas, hpath⟩
  · exact absurd hlocal (AList.notMem_empty path)
  · unfold Client.flush at hdeltas
    dsimp only at hdeltas
    split_ifs at hdeltas
    · exact .inr ⟨deltas, hdeltas, hpath⟩
    · rcases List.mem_append.1 hdeltas with hold | hnew
      · exact .inr ⟨deltas, hold, hpath⟩
      · rw [List.mem_singleton.1 hnew] at hpath
        exact .inl hpath

/-- The batch keeps pending paths unacknowledged in all its rounds if and only if no other
edit is pending behind what it acknowledges. -/
lemma process_throughout_iff {c : Client} (h : Ready c) (hpending : c.PendingUnacknowledged)
    (updates : List Update) :
    (∀ n, (c.process (updates.take n)).PendingUnacknowledged) ↔
      NoOtherPending c (.process updates) := by
  constructor
  · intro hall j hj deltas hdeltas path hpath hforce
    obtain ⟨n, hn⟩ := exists_take_acknowledgeCount updates (j := j + 1) hj
    have hnot : ¬(c.process (updates.take n)).Pending path := by
      intro hstill
      have hkept := ((h.process_isUnacknowledged _ path).1 (hall n path hforce hstill)).2
      rw [hn] at hkept
      obtain ⟨hlength, hget⟩ := List.getElem?_eq_some_iff.1 hdeltas
      have htake : deltas ∈ c.sent.take (j + 1) :=
        List.mem_take_iff_getElem.2 ⟨j, by omega, hget⟩
      exact hkept deltas htake hpath
    rw [h.process_pending, hn] at hnot
    push Not at hnot
    exact hnot
  · intro hok n path hforce hstill
    have hcount := acknowledgeCount_take_le updates n
    rw [h.process_pending] at hstill
    have hbefore : c.Pending path := by
      refine hstill.imp_right ?_
      rintro ⟨deltas, hdeltas, hpath⟩
      exact ⟨deltas, List.mem_of_mem_drop hdeltas, hpath⟩
    refine (h.process_isUnacknowledged _ path).2 ⟨hpending path hforce hbefore, ?_⟩
    intro deltas hdeltas hpath
    obtain ⟨j, hj, hget⟩ := List.mem_take_iff_getElem.1 hdeltas
    obtain ⟨hlocal, hlater⟩ := hok j (by omega) deltas
      (List.getElem?_eq_some_iff.2 ⟨by omega, hget⟩) path hpath hforce
    rcases hstill with hedit | ⟨deltas', hdeltas', hpath'⟩
    · exact hlocal hedit
    · refine hlater deltas' ?_ hpath'
      exact List.drop_subset_drop_left c.sent (by omega) hdeltas'

/-- The state in which the layer was loaded and nothing was edited. -/
def Client.start (base : HashTable) : Client := ⟨loaded base, []⟩

/-- In every run of edits, flushes and batches of updates, pending edits are protected after
every action and in every round of every batch, and equivalently unacknowledged, if and only
if no acknowledge names a path that still has an edit pending behind the acknowledged one. -/
theorem pending_protected_iff (base : HashTable) (run : List ClientAction) :
    (Runs.AllSteps ClientAction.perform (Throughout Client.Protected) (.start base) run ↔
        Runs.AllSteps ClientAction.perform NoOtherPending (.start base) run) ∧
      (Runs.AllSteps ClientAction.perform (Throughout Client.PendingUnacknowledged) (.start base)
          run ↔
        Runs.AllSteps ClientAction.perform NoOtherPending (.start base) run) := by
  have hstart : Ready (.start base) ∧ (Client.start base).PendingUnacknowledged := by
    refine ⟨.start base, fun path _ hpath => ?_⟩
    rcases hpath with hlocal | ⟨deltas, hdeltas, -⟩
    · exact absurd hlocal (AList.notMem_empty path)
    · exact absurd hdeltas List.not_mem_nil
  have hready : ∀ c action, Ready c → Ready (ClientAction.perform c action) := by
    intro c action h
    cases action with
    | set path field value => exact h.set path field value
    | flush serializes => exact h.flush serializes
    | process updates => exact h.process updates
  have hlast : ∀ c action, Throughout Client.PendingUnacknowledged c action →
      (ClientAction.perform c action).PendingUnacknowledged := by
    intro c action hgood
    cases action with
    | set path field value => exact hgood
    | flush serializes => exact hgood
    | process updates =>
      have hall := hgood updates.length
      rwa [List.take_length] at hall
  have hexact : ∀ c action, Ready c ∧ c.PendingUnacknowledged →
      (Throughout Client.PendingUnacknowledged c action ↔ NoOtherPending c action) := by
    rintro c action ⟨h, hpending⟩
    cases action with
    | set path field value =>
      exact iff_of_true (set_pending_unacknowledged h hpending path field value) trivial
    | flush serializes =>
      exact iff_of_true (flush_pending_unacknowledged hpending serializes) trivial
    | process updates => exact process_throughout_iff h hpending updates
  have hprotected : ∀ c action, Ready c →
      (Throughout Client.Protected c action ↔ Throughout Client.PendingUnacknowledged c action) := by
    intro c action h
    cases action with
    | set path field value => exact (h.set path field value).protected_iff
    | flush serializes => exact (h.flush serializes).protected_iff
    | process updates => exact forall_congr' fun n => (h.process (updates.take n)).protected_iff
  constructor
  · exact Runs.allSteps_iff_allSteps
      (fun c action h => (hprotected c action h.1).trans (hexact c action h))
      (fun c action h hgood => ⟨hready c action h.1,
        hlast c action ((hprotected c action h.1).1 hgood)⟩) hstart
  · exact Runs.allSteps_iff_allSteps hexact
      (fun c action h hgood => ⟨hready c action h.1, hlast c action hgood⟩) hstart

end

section

attribute [local instance] Usd.sample

/-- A path is edited, sent, edited again and sent again. The acknowledge of the first delta
makes the next foreign delta overwrite the second edit, whose acknowledge is still to come. -/
theorem second_edit_overwritten :
    let base : HashTable := AList.insert "/a" { specType := .prim } ∅
    let run : List ClientAction :=
      [.set "/a" "kind" (.string "first"), .flush true, .set "/a" "kind" (.string "second"),
        .flush true, .process [.acknowledge]]
    let c := Runs.final ClientAction.perform (.start base) run
    c.Pending "/a" ∧ c.data.isUnacknowledged "/a" = false ∧
      (c.data.get "/a" "kind").getStdString = "second" ∧
      ((c.process [.foreign (foreignEdit "/a" "theirs")]).data.get "/a" "kind").getStdString =
        "theirs" := by
  intro base run c
  exact ⟨by decide, by decide, by decide, by decide⟩

end

end RenderStudioKit.Proofs
