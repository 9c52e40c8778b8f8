import RenderStudioKit.Proofs.LayerUpdates
import RenderStudioKit.Proofs.OutgoingDeltas

/-!
# Replaying local edits

The tables a client sends are a log of its edits. A replica that applies them follows the edits that
set a field to a value; an edit that clears a field is not in the log.
-/

namespace RenderStudioKit.Proofs

open PathState

section

variable [Usd]

/-- A field-level edit of the user; `setAbstract` is `Set` for a `SdfAbstractDataConstValue`. -/
inductive LocalEdit where
  | set (path : SdfPath) (field : TfToken) (value : VtValue)
  | setAbstract (path : SdfPath) (field : TfToken) (value : VtValue)
  | erase (path : SdfPath) (field : TfToken)

namespace LocalEdit

def perform (d : RenderStudioData) : LocalEdit → RenderStudioData
  | .set path field value => d.set path field value
  | .setAbstract path field value => d.setAbstract path field value
  | .erase path field => d.erase path field

def path : LocalEdit → SdfPath
  | .set path _ _ | .setAbstract path _ _ | .erase path _ => path

/-- The field and its new value, none if the edit clears it. -/
def change : LocalEdit → TfToken × Option VtValue
  | .set _ field value => (field, if value.isEmpty then none else some value)
  | .setAbstract _ field value => (field, some value)
  | .erase _ field => (field, none)

/-- The spec exists, and a `SdfAbstractDataConstValue` holds a value. -/
def Allowed (d : RenderStudioData) : LocalEdit → Prop
  | .set path _ _ | .erase path _ => d.hasSpec path = true
  | .setAbstract path _ value => d.hasSpec path = true ∧ value.isEmpty = false

end LocalEdit

abbrev FieldEdit : Type := TfToken × Option VtValue

/-- The edits of one path. -/
def editsAt (path : SdfPath) (edits : List LocalEdit) : List FieldEdit :=
  (edits.filter (·.path = path)).map LocalEdit.change

/-- The fields that are set to a value, in the order in which they are set first, with the values
they are set to last. -/
def sentFields (edits : List FieldEdit) : List (TfToken × VtValue) :=
  edits.foldl (fun fields e => e.2.elim fields fun value => assignField e.1 value fields) []

/-- The last edit of a field. -/
def lastChange (field : TfToken) (edits : List FieldEdit) : Option (Option VtValue) :=
  ((edits.filter (·.1 = field)).getLast?).map Prod.snd

/-- The last value a list of fields gives to a field. -/
def lastOf (field : TfToken) (fields : List (TfToken × VtValue)) : Option VtValue :=
  ((fields.filter (·.1 = field)).getLast?).map Prod.snd

/-- The fields behind the last empty type name. -/
def behindRemoval (log : List (TfToken × VtValue)) : List (TfToken × VtValue) :=
  (log.reverse.takeWhile fun f => !removesSpec f.1 f.2).reverse

def SendsRemoval (log : List (TfToken × VtValue)) : Prop :=
  ∃ f ∈ log, removesSpec f.1 f.2 = true

/-- The log of one path does for a field what the edits do: a field that ends with a value is sent
behind the last empty type name; one that ends cleared is not, and had no value before unless an
empty type name is sent; one that is not edited has no value if an empty type name is sent. -/
def InStep (base : Option VtValue) (segments : List (List FieldEdit)) (field : TfToken) : Prop :=
  let log := segments.flatMap sentFields
  match lastChange field segments.flatten with
  | some (some _) => field ∈ (behindRemoval log).map Prod.fst
  | some none => field ∉ (behindRemoval log).map Prod.fst ∧ (base = none ∨ SendsRemoval log)
  | none => base = none ∨ ¬SendsRemoval log

/-- The value of a field after edits of its spec. -/
def editedField (field : TfToken) (edits : List FieldEdit) (base : Option VtValue) :
    Option VtValue :=
  edits.foldl (fun value e => if e.1 = field then e.2 else value) base

/-- The value of a field after a log was received. -/
def receivedField (field : TfToken) (log : List (TfToken × VtValue)) (base : Option VtValue) :
    Option VtValue :=
  log.foldl (fun value f =>
    if removesSpec f.1 f.2 then none else if f.1 = field then some f.2 else value) base

/-- The last value a field was set to. -/
def lastSet (field : TfToken) (edits : List FieldEdit) (base : Option VtValue) : Option VtValue :=
  edits.foldl (fun value e => if e.1 = field then e.2.or value else value) base

lemma lastOf_concat (field : TfToken) (fields : List (TfToken × VtValue)) (f : TfToken × VtValue) :
    lastOf field (fields ++ [f]) = if f.1 = field then some f.2 else lastOf field fields := by
  unfold lastOf
  rw [List.filter_append]
  by_cases hf : f.1 = field
  · simp [hf]
  · simp [hf]

lemma lastOf_eq_none {field : TfToken} {fields : List (TfToken × VtValue)} :
    lastOf field fields = none ↔ field ∉ fields.map Prod.fst := by
  unfold lastOf
  rw [Option.map_eq_none_iff, List.getLast?_eq_none_iff, List.filter_eq_nil_iff]
  constructor
  · intro h hmem
    obtain ⟨f, hf, hkey⟩ := List.mem_map.1 hmem
    exact h f hf (by simpa using hkey)
  · intro h f hf hkey
    exact h (List.mem_map.2 ⟨f, hf, by simpa using hkey⟩)

lemma lastChange_concat (field : TfToken) (edits : List FieldEdit) (e : FieldEdit) :
    lastChange field (edits ++ [e]) = if e.1 = field then some e.2 else lastChange field edits := by
  unfold lastChange
  rw [List.filter_append]
  by_cases he : e.1 = field
  · simp [he]
  · simp [he]

lemma editedField_eq (field : TfToken) (edits : List FieldEdit) (base : Option VtValue) :
    editedField field edits base = (lastChange field edits).getD base := by
  induction edits using List.reverseRecOn with
  | nil => rfl
  | append_singleton edits e ih =>
    unfold editedField at ih ⊢
    rw [List.foldl_append, ih, lastChange_concat]
    by_cases he : e.1 = field
    · simp [he]
    · simp [he]

lemma lastSet_lastChange (field : TfToken) (edits : List FieldEdit) :
    (∀ value, lastChange field edits = some (some value) →
        lastSet field edits none = some value) ∧
      (lastChange field edits = none → lastSet field edits none = none) := by
  induction edits using List.reverseRecOn with
  | nil => simp [lastChange, lastSet]
  | append_singleton edits e ih =>
    unfold lastSet at ih ⊢
    rw [List.foldl_append, lastChange_concat]
    by_cases he : e.1 = field
    · constructor
      · intro value hvalue
        rw [if_pos he, Option.some.injEq] at hvalue
        simp [he, hvalue]
      · intro hnone
        simp [he] at hnone
    · simpa [he] using ih

lemma behindRemoval_concat (log : List (TfToken × VtValue)) (f : TfToken × VtValue) :
    behindRemoval (log ++ [f]) =
      if removesSpec f.1 f.2 then [] else behindRemoval log ++ [f] := by
  unfold behindRemoval
  rw [List.reverse_append]
  by_cases hf : removesSpec f.1 f.2 = true
  · simp [hf]
  · simp [hf]

lemma sendsRemoval_concat (log : List (TfToken × VtValue)) (f : TfToken × VtValue) :
    SendsRemoval (log ++ [f]) ↔ SendsRemoval log ∨ removesSpec f.1 f.2 = true := by
  unfold SendsRemoval
  simp [or_and_right, exists_or]

lemma receivedField_eq (field : TfToken) (log : List (TfToken × VtValue)) (base : Option VtValue) :
    (SendsRemoval log → receivedField field log base = lastOf field (behindRemoval log)) ∧
      (¬SendsRemoval log → behindRemoval log = log ∧
        receivedField field log base = (lastOf field log).or base) := by
  induction log using List.reverseRecOn with
  | nil => simp [SendsRemoval, behindRemoval, receivedField, lastOf]
  | append_singleton log f ih =>
    have hstep : receivedField field (log ++ [f]) base = if removesSpec f.1 f.2 then none
        else if f.1 = field then some f.2 else receivedField field log base := by
      unfold receivedField
      rw [List.foldl_append]
      rfl
    rw [hstep, sendsRemoval_concat, behindRemoval_concat, lastOf_concat]
    by_cases hremoves : removesSpec f.1 f.2 = true
    · simp [hremoves, lastOf]
    · simp only [hremoves, or_false, Bool.false_eq_true, if_false, lastOf_concat]
      constructor
      · intro hsends
        rw [ih.1 hsends]
      · intro hnone
        obtain ⟨hall, hvalue⟩ := ih.2 hnone
        rw [hall, hvalue]
        refine ⟨rfl, ?_⟩
        split_ifs <;> rfl

lemma lookup_sentFields (edits : List FieldEdit) :
    ((sentFields edits).map Prod.fst).Nodup ∧
      ∀ field, (sentFields edits).lookup field = lastSet field edits none := by
  induction edits using List.reverseRecOn with
  | nil => exact ⟨List.nodup_nil, fun _ => rfl⟩
  | append_singleton edits e ih =>
    have hstep : sentFields (edits ++ [e]) =
        e.2.elim (sentFields edits) fun value => assignField e.1 value (sentFields edits) := by
      unfold sentFields
      rw [List.foldl_append]
      rfl
    have hlast : ∀ field, lastSet field (edits ++ [e]) none =
        if e.1 = field then e.2.or (lastSet field edits none) else lastSet field edits none := by
      intro field
      unfold lastSet
      rw [List.foldl_append]
      rfl
    rw [hstep]
    obtain ⟨key, change⟩ := e
    cases change with
    | none =>
      refine ⟨ih.1, fun field => ?_⟩
      rw [hlast]
      simpa using ih.2 field
    | some value =>
      refine ⟨(assignField_keys_nodup key value ih.1).1, fun field => ?_⟩
      rw [hlast, Option.elim_some, lookup_assignField, ih.2 field]
      by_cases hkey : field = key
      · simp [hkey]
      · simp [hkey, Ne.symm hkey]

lemma lastOf_append (field : TfToken) (fields fields' : List (TfToken × VtValue)) :
    lastOf field (fields ++ fields') = (lastOf field fields').or (lastOf field fields) := by
  induction fields' using List.reverseRecOn with
  | nil => simp [lastOf]
  | append_singleton fields' f ih =>
    rw [← List.append_assoc, lastOf_concat, lastOf_concat, ih]
    split_ifs <;> rfl

lemma lastOf_eq_lookup (field : TfToken) {fields : List (TfToken × VtValue)}
    (h : (fields.map Prod.fst).Nodup) : lastOf field fields = fields.lookup field := by
  induction fields with
  | nil => rfl
  | cons f fields ih =>
    obtain ⟨key, value⟩ := f
    rw [List.map_cons, List.nodup_cons] at h
    have happend := lastOf_append field [(key, value)] fields
    rw [List.singleton_append] at happend
    rw [happend, ih h.2, lookup_field_cons]
    by_cases hkey : field = key
    · subst hkey
      have hnone : fields.lookup field = none := by
        rw [← ih h.2, lastOf_eq_none]
        exact h.1
      simp [hnone, lastOf]
    · simp [hkey, lastOf, Ne.symm hkey]

lemma lastOf_log (field : TfToken) (segments : List (List FieldEdit)) :
    lastOf field (segments.flatMap sentFields) = lastSet field segments.flatten none := by
  induction segments using List.reverseRecOn with
  | nil => rfl
  | append_singleton segments segment ih =>
    have hsegment : lastOf field (sentFields segment) = lastSet field segment none :=
      (lastOf_eq_lookup field (lookup_sentFields segment).1).trans
        ((lookup_sentFields segment).2 field)
    have hlast : ∀ (edits : List FieldEdit) (base : Option VtValue),
        lastSet field edits base = (lastSet field edits none).or base := by
      intro edits base
      induction edits using List.reverseRecOn with
      | nil => simp [lastSet]
      | append_singleton edits e ih =>
        unfold lastSet at ih ⊢
        rw [List.foldl_append, List.foldl_append, ih]
        simp only [List.foldl_cons, List.foldl_nil]
        split_ifs
        · rw [Option.or_assoc]
        · rfl
    rw [List.flatMap_append, List.flatMap_singleton, lastOf_append, ih, hsegment,
      List.flatten_append, List.flatten_singleton]
    have hsplit : lastSet field (segments.flatten ++ segment) none =
        lastSet field segment (lastSet field segments.flatten none) := by
      unfold lastSet
      rw [List.foldl_append]
    rw [hsplit]
    exact (hlast _ _).symm

lemma behindRemoval_subset {field : TfToken} {log : List (TfToken × VtValue)}
    (h : field ∈ (behindRemoval log).map Prod.fst) : field ∈ log.map Prod.fst := by
  obtain ⟨f, hf, rfl⟩ := List.mem_map.1 h
  have hreverse := (List.takeWhile_sublist _).mem (List.mem_reverse.1 hf)
  exact List.mem_map_of_mem (List.mem_reverse.1 hreverse)

lemma lastOf_behindRemoval {field : TfToken} {log : List (TfToken × VtValue)}
    (h : field ∈ (behindRemoval log).map Prod.fst) :
    lastOf field (behindRemoval log) = lastOf field log := by
  induction log using List.reverseRecOn with
  | nil => rfl
  | append_singleton log f ih =>
    rw [behindRemoval_concat] at h ⊢
    split_ifs at h ⊢
    · exact absurd h List.not_mem_nil
    · rw [lastOf_concat, lastOf_concat]
      split_ifs with hf
      · rfl
      · apply ih
        rw [List.map_append, List.mem_append] at h
        rcases h with hold | hnew
        · exact hold
        · exact absurd (List.mem_singleton.1 hnew).symm hf

/-- A replica and the editing side agree on a field exactly if the log is in step with the edits. -/
theorem receivedField_eq_editedField_iff (field : TfToken) (segments : List (List FieldEdit))
    (base : Option VtValue) :
    receivedField field (segments.flatMap sentFields) base =
        editedField field segments.flatten base ↔ InStep base segments field := by
  have hlast := lastOf_log field segments
  obtain ⟨hset, hunset⟩ := lastSet_lastChange field segments.flatten
  obtain ⟨hremoved, hkept⟩ := receivedField_eq field (segments.flatMap sentFields) base
  unfold InStep
  rw [editedField_eq]
  generalize segments.flatMap sentFields = log at *
  dsimp only
  cases hchange : lastChange field segments.flatten with
  | none =>
    have hnotsent : lastOf field log = none := hlast.trans (hunset hchange)
    rw [Option.getD_none]
    by_cases hsends : SendsRemoval log
    · have hnone : lastOf field (behindRemoval log) = none := by
        rw [lastOf_eq_none] at hnotsent ⊢
        exact fun hmem => hnotsent (behindRemoval_subset hmem)
      rw [hremoved hsends, hnone]
      simp [hsends, eq_comm]
    · rw [(hkept hsends).2, hnotsent]
      simp [hsends]
  | some change =>
    rw [Option.getD_some]
    cases change with
    | none =>
      by_cases hsends : SendsRemoval log
      · rw [hremoved hsends, lastOf_eq_none]
        simp [hsends]
      · obtain ⟨hall, hvalue⟩ := hkept hsends
        rw [hvalue, hall, Option.or_eq_none_iff, lastOf_eq_none]
        simp [hsends]
    | some value =>
      have hsent : lastOf field log = some value := hlast.trans (hset value hchange)
      by_cases hsends : SendsRemoval log
      · rw [hremoved hsends]
        constructor
        · intro hvalue
          by_contra hnot
          rw [lastOf_eq_none.2 hnot] at hvalue
          exact absurd hvalue (by simp)
        · intro hmem
          rw [lastOf_behindRemoval hmem, hsent]
      · obtain ⟨hall, hvalue⟩ := hkept hsends
        rw [hvalue, hsent, hall]
        refine iff_of_true rfl ?_
        by_contra hnot
        rw [lastOf_eq_none.2 hnot] at hsent
        exact absurd hsent (by simp)

/-- A spec as `CreateSpec` and `Set` leave it. -/
structure ProperSpec (spec : SpecData) : Prop where
  typed : spec.specType ≠ .unknown
  nodup : (spec.fields.map Prod.fst).Nodup

def ProperTable (table : HashTable) : Prop :=
  ∀ path spec, table.lookup path = some spec → ProperSpec spec

lemma eraseField_keys_nodup (field : TfToken) {fields : List (TfToken × VtValue)}
    (h : (fields.map Prod.fst).Nodup) : ((eraseField field fields).map Prod.fst).Nodup :=
  h.sublist (List.eraseP_sublist.map Prod.fst)

lemma lookup_eraseField {field : TfToken} {fields : List (TfToken × VtValue)}
    (h : (fields.map Prod.fst).Nodup) : (eraseField field fields).lookup field = none := by
  induction fields with
  | nil => rfl
  | cons f fields ih =>
    obtain ⟨key, value⟩ := f
    rw [List.map_cons, List.nodup_cons] at h
    unfold eraseField at ih ⊢
    by_cases hkey : key = field
    · rw [List.eraseP_cons_of_pos (by simpa using hkey), ← lastOf_eq_lookup field h.2,
        lastOf_eq_none, ← hkey]
      exact h.1
    · rw [List.eraseP_cons_of_neg (by simpa using hkey), lookup_field_cons, if_neg (Ne.symm hkey)]
      exact ih h.2

lemma ProperSpec.setAt {spec : Option SpecData} (h : ∀ s ∈ spec, ProperSpec s) (field : TfToken)
    (value : VtValue) : ∀ s ∈ Proofs.setAt field value spec, ProperSpec s := by
  intro s hs
  obtain ⟨old, hold, rfl⟩ := Option.map_eq_some_iff.1 hs
  refine ⟨(h old hold).typed, ?_⟩
  dsimp only
  split_ifs
  · exact eraseField_keys_nodup field (h old hold).nodup
  · exact (assignField_keys_nodup field value (h old hold).nodup).1

lemma ProperSpec.entryAt {spec : Option SpecData} (h : ∀ s ∈ spec, ProperSpec s)
    (unacknowledged : Bool) (path : SdfPath) (delta : SpecData) :
    ∀ s ∈ Proofs.entryAt unacknowledged path delta spec, ProperSpec s := by
  unfold Proofs.entryAt
  induction delta.fields generalizing spec with
  | nil => exact h
  | cons f fields ih =>
    apply ih
    have hcreated : ∀ s ∈ createAt delta.specType spec, ProperSpec s := by
      unfold createAt
      split_ifs with htype
      · intro s hs
        rw [← Option.mem_some_iff.1 hs]
        refine ⟨htype.2, ?_⟩
        cases spec with
        | none => exact List.nodup_nil
        | some old => exact (h old rfl).nodup
      · exact h
    unfold deltaAt
    dsimp only
    split_ifs
    · exact hcreated
    · exact fun s hs => absurd hs (by simp)
    · exact ProperSpec.setAt hcreated f.1 _

lemma properTable_empty : ProperTable ∅ := by
  intro path spec hlookup
  rw [AList.lookup_empty] at hlookup
  exact absurd hlookup (by simp)

lemma ProperTable.insert {table : HashTable} (h : ProperTable table) {path : SdfPath}
    {spec : SpecData} (hspec : ProperSpec spec) : ProperTable (table.insert path spec) := by
  intro path' spec' hlookup
  by_cases hpath : path' = path
  · subst hpath
    rw [AList.lookup_insert, Option.some.injEq] at hlookup
    exact hlookup ▸ hspec
  · rw [AList.lookup_insert_ne hpath] at hlookup
    exact h path' spec' hlookup

lemma ProperTable.set {d : RenderStudioData} (h : ProperTable d.mData) (path : SdfPath)
    (field : TfToken) (value : VtValue) : ProperTable (d.set path field value).mData := by
  intro path' spec hlookup
  by_cases hpath : path' = path
  · subst hpath
    rw [lookup_set] at hlookup
    exact ProperSpec.setAt (h path') field value spec hlookup
  · rw [lookup_set_ne d field value hpath] at hlookup
    exact h path' spec hlookup

lemma ProperTable.setAbstract {d : RenderStudioData} (h : ProperTable d.mData) (path : SdfPath)
    (field : TfToken) (value : VtValue) : ProperTable (d.setAbstract path field value).mData := by
  rw [setAbstract_mData]
  unfold RenderStudioData.getOrCreateFieldValue
  cases hlookup : d.mData.lookup path with
  | none => exact h
  | some spec =>
    have hspec := h path spec hlookup
    exact h.insert ⟨hspec.typed, (assignField_keys_nodup field value hspec.nodup).1⟩

lemma ProperTable.erase {d : RenderStudioData} (h : ProperTable d.mData) (path : SdfPath)
    (field : TfToken) : ProperTable (d.erase path field).mData := by
  have hset : d.set path field .empty = d.erase path field := rfl
  rw [← hset]
  exact h.set path field .empty

lemma ProperTable.createSpec {d : RenderStudioData} (h : ProperTable d.mData) (path : SdfPath)
    (specType : SdfSpecType) : ProperTable (d.createSpec path specType).mData := by
  unfold RenderStudioData.createSpec
  split_ifs with htype
  · exact h
  · refine h.insert ⟨htype, ?_⟩
    cases hlookup : d.mData.lookup path with
    | none => exact List.nodup_nil
    | some spec => exact (h path spec hlookup).nodup

lemma ProperTable.remove {table : HashTable} (h : ProperTable table) (path : SdfPath) :
    ProperTable (AList.erase path table) := by
  intro path' spec hlookup
  by_cases hpath : path' = path
  · subst hpath
    rw [AList.lookup_erase] at hlookup
    exact absurd hlookup (by simp)
  · rw [AList.lookup_erase_ne hpath] at hlookup
    exact h path' spec hlookup

lemma ProperTable.applyRound {d : RenderStudioData} (h : ProperTable d.mData)
    (deltas : HashTable) : ProperTable (Proofs.applyRound d deltas).mData := by
  intro path spec hlookup
  rw [lookup_applyRound] at hlookup
  unfold tableAt at hlookup
  cases hdelta : deltas.lookup path with
  | none =>
    rw [hdelta] at hlookup
    exact h path spec hlookup
  | some delta =>
    rw [hdelta] at hlookup
    exact ProperSpec.entryAt (h path) _ path delta spec hlookup

/-- Whatever is called, specs are typed and have distinct fields. -/
theorem proper_run (run : List DataCall) :
    let d := Runs.final DataCall.perform {} run
    d.mIsProcessingRemoteUpdates = false ∧ ProperTable d.mData := by
  refine Runs.final_of_invariant
    (fun d : RenderStudioData => d.mIsProcessingRemoteUpdates = false ∧ ProperTable d.mData) ?_
    ⟨rfl, ?_⟩ run
  · rintro d call ⟨hidle, hproper⟩
    cases call with
    | set path field value =>
      exact ⟨(set_frame_loaded d path field value).2.1.trans hidle, hproper.set path field value⟩
    | setAbstract path field value =>
      exact ⟨(setAbstract_processing d path field value).trans hidle,
        hproper.setAbstract path field value⟩
    | erase path field =>
      exact ⟨(erase_frame d path field).processing.trans hidle, hproper.erase path field⟩
    | createSpec path specType =>
      exact ⟨(createSpec_frame d path specType).processing.trans hidle,
        hproper.createSpec path specType⟩
    | eraseSpec path => exact ⟨hidle, hproper.remove path⟩
    | accumulate deltas sequence => exact ⟨hidle, hproper⟩
    | process =>
      have hkeep := processRemoteUpdates_keep (fun d => ProperTable d.mData)
        (fun _ deltas hd _ => hd.applyRound deltas) hidle hproper
      exact ⟨rfl, hkeep.1⟩
    | fetch => exact ⟨hidle, hproper⟩
    | construct => exact ⟨rfl, properTable_empty⟩
    | loaded => exact ⟨hidle, hproper⟩
  · exact properTable_empty

/-- The tables that are fetched behind each segment of edits, and the data in the end. -/
def flushes : RenderStudioData → List (List LocalEdit) → List HashTable × RenderStudioData
  | d, [] => ([], d)
  | d, edits :: segments =>
    let fetched := (edits.foldl LocalEdit.perform d).fetchLocalDeltas
    let rest := flushes fetched.2 segments
    (fetched.1 :: rest.1, rest.2)

lemma LocalEdit.perform_eq {d : RenderStudioData} {e : LocalEdit} (h : e.Allowed d) :
    e.perform d = d.set e.path e.change.1 (e.change.2.getD .empty) := by
  cases e with
  | set path field value =>
    unfold perform change
    cases hvalue : value.isEmpty with
    | true =>
      have hempty : VtValue.empty.isEmpty = true := rfl
      simp [LocalEdit.path, RenderStudioData.set, hvalue, hempty]
    | false => simp [LocalEdit.path, hvalue]
  | setAbstract path field value => simp [perform, LocalEdit.path, change, RenderStudioData.set, h.2]
  | erase path field => rfl

lemma change_nonempty {d : RenderStudioData} {e : LocalEdit} (h : e.Allowed d) :
    ∀ value ∈ e.change.2, value.isEmpty = false := by
  intro value hvalue
  cases e with
  | set path field value' =>
    simp only [LocalEdit.change] at hvalue
    split_ifs at hvalue with hempty
    · exact absurd hvalue (by simp)
    · rw [← Option.mem_some_iff.1 hvalue]
      simpa using hempty
  | setAbstract path field value' =>
    rw [← Option.mem_some_iff.1 hvalue]
    exact h.2
  | erase path field => exact absurd hvalue (by simp [LocalEdit.change])

lemma allowed_hasSpec {d : RenderStudioData} {e : LocalEdit} (h : e.Allowed d) :
    d.hasSpec e.path = true := by
  cases e with
  | set path field value => exact h
  | setAbstract path field value => exact h.1
  | erase path field => exact h

/-- A path whose spec is `base` after the edits `done`, those of `pending` not fetched yet. -/
structure EditedPath (base : SpecData) (done pending : List FieldEdit) (s : PathState) : Prop where
  spec : ∃ spec, s.spec = some spec ∧ spec.specType = base.specType ∧
    (spec.fields.map Prod.fst).Nodup ∧
    ∀ field, spec.fields.lookup field = editedField field done (base.fields.lookup field)
  edit : s.edit = if sentFields pending = [] then none
    else some ⟨base.specType, sentFields pending⟩

namespace EditedPath

variable {base : SpecData} {done pending : List FieldEdit} {s : PathState}
  (h : EditedPath base done pending s)

include h

lemma flush : EditedPath base done [] s.flush := ⟨h.spec, rfl⟩

lemma editBase : s.editBase = some ⟨base.specType, sentFields pending⟩ := by
  obtain ⟨spec, hspec, htype, -, -⟩ := h.spec
  unfold PathState.editBase
  rw [h.edit, hspec]
  by_cases hsent : sentFields pending = []
  · simp [hsent, htype]
  · simp [hsent]

lemma set {e : FieldEdit} (hvalue : ∀ value ∈ e.2, value.isEmpty = false) :
    EditedPath base (done ++ [e]) (pending ++ [e]) (s.set e.1 (e.2.getD .empty)) := by
  obtain ⟨key, change⟩ := e
  obtain ⟨spec, hspec, htype, hnodup, hlookup⟩ := h.spec
  have hdone : ∀ field value, editedField field (done ++ [(key, change)]) value =
      if key = field then change else editedField field done value := by
    intro field value
    unfold editedField
    rw [List.foldl_append]
    rfl
  have hsent : sentFields (pending ++ [(key, change)]) =
      change.elim (sentFields pending) fun value => assignField key value (sentFields pending) := by
    unfold sentFields
    rw [List.foldl_append]
    rfl
  cases change with
  | none =>
    have hset : s.set key .empty = { s with spec := setAt key .empty s.spec } := rfl
    rw [Option.getD_none, hset]
    refine ⟨⟨{ spec with fields := eraseField key spec.fields }, ?_, htype,
      eraseField_keys_nodup key hnodup, fun field => ?_⟩, ?_⟩
    · rw [hspec]
      rfl
    · rw [hdone, ← hlookup]
      split_ifs with hkey
      · subst hkey
        exact lookup_eraseField hnodup
      · exact lookup_eraseField_ne (Ne.symm hkey) spec.fields
    · rw [hsent]
      exact h.edit
  | some value =>
    have hempty : value.isEmpty = false := hvalue value rfl
    have hset : s.set key value = s.setField key value := by
      simp [PathState.set, hempty]
    rw [Option.getD_some, hset]
    refine ⟨⟨{ spec with fields := assignField key value spec.fields }, ?_, htype,
      (assignField_keys_nodup key value hnodup).1, fun field => ?_⟩, ?_⟩
    · simp [setField, hspec]
    · rw [hdone, lookup_assignField, ← hlookup]
      simp only [eq_comm]
    · rw [hsent, Option.elim_some, if_neg (assignField_ne_nil _ _ _)]
      simp [setField, h.editBase]

end EditedPath

lemma perform_pathState_ne {d : RenderStudioData} {e : LocalEdit} (h : e.Allowed d) {path : SdfPath}
    (hpath : e.path ≠ path) : pathState (e.perform d) path = pathState d path := by
  rw [LocalEdit.perform_eq h]
  exact set_pathState_ne d _ _ (Ne.symm hpath)

/-- Loaded data that is edited. -/
structure Editable (d : RenderStudioData) : Prop where
  idle : d.mIsProcessingRemoteUpdates = false
  loaded : d.mIsLoaded = true

lemma Editable.perform {d : RenderStudioData} (h : Editable d) {e : LocalEdit}
    (hallowed : e.Allowed d) : Editable (e.perform d) := by
  rw [LocalEdit.perform_eq hallowed]
  obtain ⟨hloaded, hidle, -⟩ := set_frame_loaded d e.path e.change.1 (e.change.2.getD .empty)
  exact ⟨hidle.trans h.idle, hloaded.trans h.loaded⟩

lemma hasSpec_perform {d : RenderStudioData} {e : LocalEdit} (hallowed : e.Allowed d)
    (path : SdfPath) : (e.perform d).hasSpec path = d.hasSpec path := by
  have hsome : ∀ d : RenderStudioData, d.hasSpec path = (d.mData.lookup path).isSome := by
    intro d
    unfold RenderStudioData.hasSpec
    rw [Bool.eq_iff_iff, decide_eq_true_iff, AList.lookup_isSome]
  rw [hsome, hsome, LocalEdit.perform_eq hallowed]
  by_cases hpath : path = e.path
  · subst hpath
    rw [lookup_set, setAt_isSome]
  · rw [lookup_set_ne _ _ _ hpath]

lemma allowed_congr {d d' : RenderStudioData} (h : ∀ path, d'.hasSpec path = d.hasSpec path)
    {e : LocalEdit} (he : e.Allowed d) : e.Allowed d' := by
  cases e with
  | set path field value => exact (h path).trans he
  | setAbstract path field value => exact ⟨(h path).trans he.1, he.2⟩
  | erase path field => exact (h path).trans he

lemma EditedPath.segment {base : SpecData} {done pending : List FieldEdit} {path : SdfPath}
    {d : RenderStudioData} (h : EditedPath base done pending (pathState d path))
    (hd : Editable d) {edits : List LocalEdit} (hallowed : ∀ e ∈ edits, e.Allowed d) :
    EditedPath base (done ++ editsAt path edits) (pending ++ editsAt path edits)
      (pathState (edits.foldl LocalEdit.perform d) path) := by
  induction edits generalizing d done pending with
  | nil => simpa [editsAt] using h
  | cons e edits ih =>
    have he := hallowed e List.mem_cons_self
    have hrest : ∀ e' ∈ edits, e'.Allowed (e.perform d) := fun e' he' =>
      allowed_congr (hasSpec_perform he) (hallowed e' (List.mem_cons_of_mem e he'))
    by_cases hpath : e.path = path
    · have hedits : editsAt path (e :: edits) = e.change :: editsAt path edits := by
        simp [editsAt, hpath]
      have hstate : pathState (e.perform d) path =
          (pathState d path).set e.change.1 (e.change.2.getD .empty) := by
        rw [LocalEdit.perform_eq he, ← hpath]
        exact set_pathState hd.idle hd.loaded _ _ _
      have hnext := h.set (change_nonempty he)
      rw [← hstate] at hnext
      have hlast := ih hnext (hd.perform he) hrest
      rw [hedits, List.foldl_cons]
      simpa using hlast
    · have hedits : editsAt path (e :: edits) = editsAt path edits := by
        simp [editsAt, hpath]
      rw [← perform_pathState_ne he hpath] at h
      rw [hedits, List.foldl_cons]
      exact ih h (hd.perform he) hrest

lemma foldl_perform_frame {d : RenderStudioData} (hd : Editable d) {edits : List LocalEdit}
    (hallowed : ∀ e ∈ edits, e.Allowed d) :
    Editable (edits.foldl LocalEdit.perform d) ∧
      (∀ path, (edits.foldl LocalEdit.perform d).hasSpec path = d.hasSpec path) ∧
      ∀ path, editsAt path edits = [] →
        pathState (edits.foldl LocalEdit.perform d) path = pathState d path := by
  induction edits generalizing d with
  | nil => exact ⟨hd, fun _ => rfl, fun _ _ => rfl⟩
  | cons e edits ih =>
    have he := hallowed e List.mem_cons_self
    obtain ⟨heditable, hspecs, hothers⟩ := ih (hd.perform he) fun e' he' =>
      allowed_congr (hasSpec_perform he) (hallowed e' (List.mem_cons_of_mem e he'))
    refine ⟨heditable, fun path => (hspecs path).trans (hasSpec_perform he path), ?_⟩
    intro path hnone
    have hpath : e.path ≠ path := by
      intro hpath
      simp [editsAt, hpath] at hnone
    have hrest : editsAt path edits = [] := by
      simpa [editsAt, hpath] using hnone
    rw [List.foldl_cons, hothers path hrest, perform_pathState_ne he hpath]

/-- The replica takes the next table. -/
def receiveTable (r : RenderStudioData) (deltas : HashTable) : RenderStudioData :=
  (r.accumulateRemoteUpdate deltas (r.mLatestAppliedSequence + 1)).processRemoteUpdates

lemma receiveTable_pathState {r : RenderStudioData} (h : ReadyData r) (deltas : HashTable) :
    ReadyData (receiveTable r deltas) ∧ ∀ path,
      pathState (receiveTable r deltas) path =
        (pathState r path).receive path (deltas.lookup path) := by
  let queued := r.accumulateRemoteUpdate deltas (r.mLatestAppliedSequence + 1)
  have hqueue : ∀ k, queued.mRemoteDeltasQueue.lookup (queued.mLatestAppliedSequence + 1 + k) =
      [deltas][k]? := by
    intro k
    change (r.mRemoteDeltasQueue.insert (r.mLatestAppliedSequence + 1) deltas).lookup
      (r.mLatestAppliedSequence + 1 + k) = _
    cases k with
    | zero => exact AList.lookup_insert _
    | succ k =>
      rw [AList.lookup_insert_ne (by omega)]
      exact h.noneQueued _ (by omega)
  have hprocess : receiveTable r deltas = [deltas].foldl applyRound queued :=
    processRemoteUpdates_pathState [deltas] h.idle fun k _ => hqueue k
  obtain ⟨-, hloaded, hsequence, hbehind⟩ := foldl_applyRound_frame [deltas] queued
  rw [← hprocess] at hloaded hsequence hbehind
  have hnumber : queued.mLatestAppliedSequence = r.mLatestAppliedSequence := rfl
  rw [List.length_singleton, hnumber] at hsequence hbehind
  refine ⟨⟨rfl, hloaded.trans h.loaded, fun k hk => ?_⟩, fun path => ?_⟩
  · rw [hsequence] at hk
    rw [hbehind k hk]
    exact (AList.lookup_insert_ne (by omega)).trans (h.noneQueued k (by omega))
  · rw [hprocess, foldl_applyRound_pathState]
    rfl

/-- A path of the replica whose spec was `base` after the fields of `log`. -/
structure ReceivedPath (base : SpecData) (log : List (TfToken × VtValue)) (s : PathState) :
    Prop where
  acknowledged : s.unacknowledged = false
  value : ∀ field, fieldAt s.spec field = receivedField field log (base.fields.lookup field)

lemma fieldAt_entryAt_received {specType : SdfSpecType} (htype : specType ≠ .unknown)
    (path : SdfPath) {fields : List (TfToken × VtValue)}
    (hvalues : ∀ f ∈ fields, f.2.isEmpty = false) (spec : Option SpecData) (field : TfToken) :
    fieldAt (entryAt false path ⟨specType, fields⟩ spec) field =
      receivedField field fields (fieldAt spec field) := by
  unfold entryAt receivedField
  dsimp only
  induction fields generalizing spec with
  | nil => rfl
  | cons f fields ih =>
    rw [List.foldl_cons, List.foldl_cons, ih fun f' hf' => hvalues f' (List.mem_cons_of_mem f hf')]
    congr 1
    have hcreated : (createAt specType spec).isSome := by
      unfold createAt
      split_ifs with hmissing
      · rfl
      · cases spec with
        | none => exact absurd ⟨rfl, htype⟩ hmissing
        | some spec => rfl
    have hvalue := hvalues f List.mem_cons_self
    obtain ⟨created, hsome⟩ := Option.isSome_iff_exists.1 hcreated
    unfold deltaAt
    simp only [skipped, Bool.false_and, Bool.false_eq_true, if_false, storedValue, and_false]
    split_ifs with hremoves hkey
    · rfl
    · rw [← hkey, fieldAt_setAt hvalue, hsome, Option.map_some]
    · rw [fieldAt_setAt_ne (Ne.symm hkey), fieldAt_createAt]

lemma ReceivedPath.receive {base : SpecData} {log fields : List (TfToken × VtValue)}
    {s : PathState} (h : ReceivedPath base log s) (path : SdfPath)
    (htype : base.specType ≠ .unknown) (hvalues : ∀ f ∈ fields, f.2.isEmpty = false) :
    ReceivedPath base (log ++ fields)
      (s.receive path (if fields = [] then none else some ⟨base.specType, fields⟩)) := by
  split_ifs with hfields
  · rw [hfields, List.append_nil]
    exact h
  · have hreceive : s.receive path (some ⟨base.specType, fields⟩) =
        { s with spec := entryAt false path ⟨base.specType, fields⟩ s.spec } := by
      simp [PathState.receive, hfields, h.acknowledged]
    rw [hreceive]
    refine ⟨h.acknowledged, fun field => ?_⟩
    rw [fieldAt_entryAt_received htype path hvalues, h.value]
    unfold receivedField
    rw [List.foldl_append]

lemma sentFields_nonempty {edits : List FieldEdit}
    (h : ∀ e ∈ edits, ∀ value ∈ e.2, value.isEmpty = false) :
    ∀ f ∈ sentFields edits, f.2.isEmpty = false := by
  induction edits using List.reverseRecOn with
  | nil => exact fun f hf => absurd hf List.not_mem_nil
  | append_singleton edits e ih =>
    have hold := ih fun e' he' => h e' (List.mem_append_left _ he')
    have hlast := h e (List.mem_append_right _ List.mem_cons_self)
    obtain ⟨key, change⟩ := e
    unfold sentFields at hold ⊢
    rw [List.foldl_append]
    cases change with
    | none => exact hold
    | some value =>
      intro f hf
      rcases mem_assignField hf with rfl | hmem
      · exact hlast value rfl
      · exact hold f hmem

/-- Both sides of a path while the edits are cut into flushes. -/
lemma flushes_path {base : SpecData} (htype : base.specType ≠ .unknown) {path : SdfPath}
    {segments : List (List LocalEdit)} {done : List FieldEdit}
    {log : List (TfToken × VtValue)} {d r : RenderStudioData} (hd : Editable d)
    (hallowed : ∀ edits ∈ segments, ∀ e ∈ edits, e.Allowed d)
    (hedited : EditedPath base done [] (pathState d path)) (hr : ReadyData r)
    (hreceived : ReceivedPath base log (pathState r path)) :
    EditedPath base (done ++ (segments.map (editsAt path)).flatten) []
        (pathState (flushes d segments).2 path) ∧
      ReceivedPath base (log ++ (segments.map (editsAt path)).flatMap sentFields)
        (pathState ((flushes d segments).1.foldl receiveTable r) path) := by
  induction segments generalizing done log d r with
  | nil => simpa [flushes] using ⟨hedited, hreceived⟩
  | cons edits segments ih =>
    have hfirst := hallowed edits List.mem_cons_self
    obtain ⟨heditable, hspecs, -⟩ := foldl_perform_frame hd hfirst
    have hsegment := hedited.segment hd hfirst
    rw [List.nil_append] at hsegment
    obtain ⟨hready, hstate⟩ := receiveTable_pathState hr
      (edits.foldl LocalEdit.perform d).mLocalDeltas
    have hentry : (edits.foldl LocalEdit.perform d).mLocalDeltas.lookup path =
        if sentFields (editsAt path edits) = [] then none
        else some ⟨base.specType, sentFields (editsAt path edits)⟩ := hsegment.edit
    have hvalues : ∀ f ∈ sentFields (editsAt path edits), f.2.isEmpty = false := by
      apply sentFields_nonempty
      intro e he
      obtain ⟨edit, hedit, rfl⟩ := List.mem_map.1 he
      exact change_nonempty (hfirst edit (List.mem_of_mem_filter hedit))
    have hnext := hreceived.receive path htype hvalues
    rw [← hentry, ← hstate path] at hnext
    obtain ⟨hlast, hlog⟩ := ih (d := (edits.foldl LocalEdit.perform d).fetchLocalDeltas.2)
      ⟨heditable.idle, heditable.loaded⟩
      (fun edits' hedits' e he => allowed_congr hspecs
        (hallowed edits' (List.mem_cons_of_mem edits hedits') e he)) hsegment.flush hready hnext
    rw [List.map_cons, List.flatten_cons, List.flatMap_cons, ← List.append_assoc,
      ← List.append_assoc]
    exact ⟨hlast, hlog⟩

lemma flushes_untouched {path : SdfPath} {segments : List (List LocalEdit)}
    (hnone : ∀ edits ∈ segments, editsAt path edits = []) {d r : RenderStudioData}
    (hd : Editable d) (hallowed : ∀ edits ∈ segments, ∀ e ∈ edits, e.Allowed d)
    (hedit : (pathState d path).edit = none) (hr : ReadyData r) :
    (pathState (flushes d segments).2 path).spec = (pathState d path).spec ∧
      (pathState ((flushes d segments).1.foldl receiveTable r) path).spec =
        (pathState r path).spec := by
  induction segments generalizing d r with
  | nil => exact ⟨rfl, rfl⟩
  | cons edits segments ih =>
    obtain ⟨heditable, hspecs, hothers⟩ :=
      foldl_perform_frame hd (hallowed edits List.mem_cons_self)
    have hsame := hothers path (hnone edits List.mem_cons_self)
    obtain ⟨hready, hstate⟩ := receiveTable_pathState hr
      (edits.foldl LocalEdit.perform d).mLocalDeltas
    have hentry : (edits.foldl LocalEdit.perform d).mLocalDeltas.lookup path = none :=
      (congrArg PathState.edit hsame).trans hedit
    obtain ⟨hlast, hreplica⟩ := ih
      (fun edits' hedits' => hnone edits' (List.mem_cons_of_mem edits hedits'))
      (d := (edits.foldl LocalEdit.perform d).fetchLocalDeltas.2)
      ⟨heditable.idle, heditable.loaded⟩
      (fun edits' hedits' e he => allowed_congr hspecs
        (hallowed edits' (List.mem_cons_of_mem edits hedits') e he)) rfl hready
    have hspec : (pathState (edits.foldl LocalEdit.perform d) path).spec = (pathState d path).spec :=
      congrArg PathState.spec hsame
    refine ⟨hlast.trans hspec, hreplica.trans ?_⟩
    rw [hstate path, hentry]
    rfl

/-- A replica of loaded data that applies the fetched tables agrees with the editing side, at every
path and field, exactly if the log is in step with the edits of every field. -/
theorem replica_agrees_iff_in_step (calls : List DataCall) (r : RenderStudioData)
    (segments : List (List LocalEdit)) :
    let d := Runs.final DataCall.perform {} calls
    let flushed := flushes d segments
    d.mIsLoaded = true → d.mLocalDeltas = ∅ → ReadyData r → r.mUnacknowledgedFields = ∅ →
    (∀ path, r.mData.lookup path = d.mData.lookup path) →
    (∀ edits ∈ segments, ∀ e ∈ edits, e.Allowed d) →
    ((∀ path field, (flushed.1.foldl receiveTable r).getFieldValue path field =
        flushed.2.getFieldValue path field) ↔
      ∀ path field, InStep (d.getFieldValue path field) (segments.map (editsAt path)) field) := by
  intro d flushed hloaded hlocals hready hunacknowledged hsame hallowed
  obtain ⟨hidle, hproper⟩ := proper_run calls
  have hd : Editable d := ⟨hidle, hloaded⟩
  have hedit : ∀ path, (pathState d path).edit = none := by
    intro path
    simp [pathState, hlocals]
  refine forall_congr' fun path => forall_congr' fun field => ?_
  rw [getFieldValue_eq, getFieldValue_eq, getFieldValue_eq]
  cases hspec : d.mData.lookup path with
  | none =>
    have hnone : ∀ edits ∈ segments, editsAt path edits = [] := by
      intro edits hedits
      have hfilter : edits.filter (·.path = path) = [] := by
        apply List.filter_eq_nil_iff.2
        intro e he hpath
        have hhas := allowed_hasSpec (hallowed edits hedits e he)
        rw [of_decide_eq_true hpath] at hhas
        have hsome := AList.lookup_isSome.2 (of_decide_eq_true hhas)
        rw [hspec] at hsome
        exact absurd hsome (by simp)
      rw [editsAt, hfilter, List.map_nil]
    obtain ⟨hlast, hreplica⟩ := flushes_untouched hnone hd hallowed (hedit path) hready
    have hlast' : flushed.2.mData.lookup path = none := hlast.trans hspec
    have hreplica' : (flushed.1.foldl receiveTable r).mData.lookup path = none :=
      hreplica.trans ((hsame path).trans hspec)
    rw [hlast', hreplica']
    refine iff_of_true rfl ?_
    have hedits : (segments.map (editsAt path)).flatten = [] := by
      apply List.flatten_eq_nil_iff.2
      intro edits hmem
      obtain ⟨segment, hsegment, rfl⟩ := List.mem_map.1 hmem
      exact hnone segment hsegment
    have hunchanged : lastChange field (segments.map (editsAt path)).flatten = none := by
      rw [hedits]
      rfl
    unfold InStep
    rw [hunchanged]
    exact .inl rfl
  | some base =>
    have hbase := hproper path base hspec
    have hedited : EditedPath base [] [] (pathState d path) :=
      ⟨⟨base, hspec, rfl, hbase.nodup, fun _ => rfl⟩, hedit path⟩
    have hreceived : ReceivedPath base [] (pathState r path) := by
      refine ⟨by simp [pathState, RenderStudioData.isUnacknowledged, hunacknowledged], ?_⟩
      intro field
      change fieldAt (r.mData.lookup path) field = _
      rw [hsame path, hspec]
      rfl
    obtain ⟨hlast, hreplica⟩ := flushes_path hbase.typed hd hallowed hedited hready hreceived
    rw [List.nil_append] at hlast hreplica
    obtain ⟨spec, hsome, -, -, hvalue⟩ := hlast.spec
    have hediting : fieldAt (flushed.2.mData.lookup path) field =
        editedField field (segments.map (editsAt path)).flatten (base.fields.lookup field) := by
      have hlookup : flushed.2.mData.lookup path = some spec := hsome
      rw [hlookup, ← hvalue]
      rfl
    have hreplicated := hreplica.value field
    rw [hediting]
    change fieldAt (pathState (flushed.1.foldl receiveTable r) path).spec field = _ ↔ _
    rw [hreplicated]
    exact receivedField_eq_editedField_iff field _ _

end

section

attribute [local instance] Usd.sample

/-- Loaded data with one prim that has a kind. -/
def kindLoaded : List DataCall :=
  [.createSpec "/a" .prim, .set "/a" "kind" (.string "x"), .loaded]

lemma kindLoaded_ready : ReadyData (Runs.final DataCall.perform {} kindLoaded) := by
  refine ⟨by decide, by decide, fun k _ => ?_⟩
  exact AList.lookup_empty k

lemma kindLoaded_hasSpec : (Runs.final DataCall.perform {} kindLoaded).hasSpec "/a" = true := by
  decide

lemma inStep_untouched {segments : List (List FieldEdit)} {field : TfToken}
    (h : lastChange field segments.flatten = none) : InStep none segments field := by
  unfold InStep
  rw [h]
  exact .inl rfl

/-- The value is replaced twice, with a flush in between. -/
theorem replica_agrees_iff_in_step_two_sets :
    let d := Runs.final DataCall.perform {} kindLoaded
    let segments : List (List LocalEdit) :=
      [[.set "/a" "kind" (.string "y")], [.setAbstract "/a" "kind" (.string "z")]]
    ∀ path field, ((flushes d segments).1.foldl receiveTable d).getFieldValue path field =
      (flushes d segments).2.getFieldValue path field := by
  intro d segments
  apply (replica_agrees_iff_in_step kindLoaded d segments (by decide) (by rfl) kindLoaded_ready
    (by decide) (fun _ => rfl) ?_).2
  · intro path field
    by_cases hpath : path = "/a"
    · subst hpath
      by_cases hfield : field = "kind"
      · subst hfield
        change "kind" ∈ (behindRemoval _).map Prod.fst
        decide
      · have hnone : d.getFieldValue "/a" field = none := by
          change [("kind", VtValue.string "x")].lookup field = none
          rw [lookup_field_cons, if_neg hfield]
          rfl
        rw [hnone]
        apply inStep_untouched
        change lastChange field [("kind", some (.string "y")), ("kind", some (.string "z"))] = none
        simp [lastChange, Ne.symm hfield]
    · have hnone : d.getFieldValue path field = none := by
        have hlookup : d.mData.lookup path = none := by
          apply AList.lookup_eq_none.2
          change path ∉ ["/a"]
          simpa using hpath
        rw [getFieldValue_eq, hlookup]
        rfl
      rw [hnone]
      apply inStep_untouched
      simp [segments, editsAt, LocalEdit.path, Ne.symm hpath, lastChange]
  · intro edits hedits e he
    rcases List.mem_cons.1 hedits with rfl | hlast
    · rw [List.mem_singleton.1 he]
      exact kindLoaded_hasSpec
    · rw [List.mem_singleton.1 hlast] at he
      rw [List.mem_singleton.1 he]
      exact ⟨kindLoaded_hasSpec, rfl⟩

/-- A field that is cleared stays with the replica. -/
theorem cleared_field_kept :
    let d := Runs.final DataCall.perform {} kindLoaded
    let segments : List (List LocalEdit) := [[.erase "/a" "kind"]]
    d.mIsLoaded = true ∧ d.mLocalDeltas = ∅ ∧ ReadyData d ∧ d.mUnacknowledgedFields = ∅ ∧
      (∀ edits ∈ segments, ∀ e ∈ edits, e.Allowed d) ∧
      ¬∀ path field, ((flushes d segments).1.foldl receiveTable d).getFieldValue path field =
        (flushes d segments).2.getFieldValue path field := by
  intro d segments
  refine ⟨by decide, by rfl, kindLoaded_ready, by decide, ?_, fun hagrees => ?_⟩
  · intro edits hedits e he
    rw [List.mem_singleton.1 hedits] at he
    rw [List.mem_singleton.1 he]
    exact kindLoaded_hasSpec
  · have hkind := congrArg Option.isSome (hagrees "/a" "kind")
    revert hkind
    decide

end

end RenderStudioKit.Proofs
