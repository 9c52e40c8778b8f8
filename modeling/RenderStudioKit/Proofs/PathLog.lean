import RenderStudioKit.Lib.Runs
import RenderStudioKit.Lib.SharedLog
import RenderStudioKit.Proofs.PathState

/-!
# The log of one path

Seen at one path of one layer, a live session is a shared log: the entries are what the deltas
say about the path, the replicas are the clients with their `PathState`. A client skips the
fields of its own entries, since the server acknowledges them instead of relaying them.
-/

namespace RenderStudioKit.Proofs

open PathState

variable [Usd]

lemma fieldAt_congr_storedValue {spec spec' : Option SpecData} (unacknowledged : Bool)
    (key : TfToken) (value : VtValue) (h : fieldAt spec key = fieldAt spec' key) :
    storedValue unacknowledged key value spec = storedValue unacknowledged key value spec' := by
  unfold storedValue
  rw [h]

lemma storedValue_isEmpty {unacknowledged : Bool} {key : TfToken} {value : VtValue}
    (hvalue : value.isEmpty = false) (spec : Option SpecData) :
    (storedValue unacknowledged key value spec).isEmpty = false := by
  unfold storedValue
  split
  · rfl
  · exact hvalue

lemma createAt_isSome (specType : SdfSpecType) {spec : Option SpecData} (h : spec.isSome) :
    (createAt specType spec).isSome := by
  unfold createAt
  split
  · rfl
  · exact h

section

variable {unacknowledged : Bool} {path : SdfPath} {spec : Option SpecData}

lemma deltaAt_isSome {key : TfToken} {value : VtValue} (specType : SdfSpecType)
    (hremove : removesSpec key value = false) (h : spec.isSome) :
    (deltaAt unacknowledged path key value specType spec).isSome := by
  have hcreated := createAt_isSome specType h
  unfold deltaAt
  dsimp only
  split
  · exact hcreated
  · rw [hremove, if_neg Bool.false_ne_true, setAt_isSome]
    exact hcreated

lemma fieldAt_deltaAt {key : TfToken} {value : VtValue} (specType : SdfSpecType)
    (hremove : removesSpec key value = false) (hvalue : value.isEmpty = false) (h : spec.isSome)
    (field : TfToken) :
    fieldAt (deltaAt unacknowledged path key value specType spec) field =
      if field = key ∧ ¬skipped unacknowledged path key then
        some (storedValue unacknowledged key value spec)
      else fieldAt spec field := by
  have hstored := fieldAt_congr_storedValue unacknowledged key value
    (fieldAt_createAt specType spec key)
  unfold deltaAt
  dsimp only
  by_cases hskip : skipped unacknowledged path key
  · simp [hskip, fieldAt_createAt]
  · rw [if_neg hskip, hremove, if_neg Bool.false_ne_true, hstored]
    by_cases hfield : field = key
    · subst hfield
      obtain ⟨created, hcreated⟩ := Option.isSome_iff_exists.1 (createAt_isSome specType h)
      rw [fieldAt_setAt (storedValue_isEmpty hvalue spec), hcreated]
      simp [hskip]
    · rw [fieldAt_setAt_ne hfield, fieldAt_createAt]
      simp [hfield]

/-- A field of an update: it has a value and removes no spec. -/
def Storable (field : TfToken × VtValue) : Prop :=
  removesSpec field.1 field.2 = false ∧ field.2.isEmpty = false

lemma entryAt_isSome {delta : SpecData} (hfields : ∀ f ∈ delta.fields, Storable f)
    (h : spec.isSome) : (entryAt unacknowledged path delta spec).isSome := by
  unfold entryAt
  generalize delta.fields = fields at hfields
  induction fields generalizing spec with
  | nil => exact h
  | cons f fields ih =>
    have hfirst := hfields f List.mem_cons_self
    exact ih (deltaAt_isSome _ hfirst.1 h) fun g hg => hfields g (List.mem_cons_of_mem f hg)

/-- An entry with distinct keys stores each of its fields once, unless the field is skipped. -/
theorem fieldAt_entryAt {delta : SpecData} (hfields : ∀ f ∈ delta.fields, Storable f)
    (hnodup : (delta.fields.map Prod.fst).Nodup) (h : spec.isSome) (field : TfToken) :
    fieldAt (entryAt unacknowledged path delta spec) field =
      (delta.fields.lookup field).elim (fieldAt spec field) fun value =>
        if skipped unacknowledged path field then fieldAt spec field
        else some (storedValue unacknowledged field value spec) := by
  unfold entryAt
  generalize delta.fields = fields at hfields hnodup
  induction fields generalizing spec with
  | nil => rfl
  | cons f fields ih =>
    obtain ⟨key, value⟩ := f
    obtain ⟨hremove, hvalue⟩ := hfields (key, value) List.mem_cons_self
    have hrest : ∀ g ∈ fields, Storable g := fun g hg => hfields g (List.mem_cons_of_mem _ hg)
    have hnext : fieldAt (deltaAt unacknowledged path key value delta.specType spec) field =
        if field = key ∧ ¬skipped unacknowledged path key then
          some (storedValue unacknowledged key value spec)
        else fieldAt spec field :=
      fieldAt_deltaAt delta.specType hremove hvalue h field
    rw [List.map_cons, List.nodup_cons] at hnodup
    rw [List.foldl_cons, ih (deltaAt_isSome _ hremove h) hrest hnodup.2, hnext, lookup_field_cons]
    by_cases hfield : field = key
    · subst hfield
      have hnone : fields.lookup field = none := by
        rw [List.lookup_eq_none_iff]
        intro g hg
        have hne : field ≠ g.1 := fun heq => hnodup.1 (List.mem_map.2 ⟨g, hg, heq.symm⟩)
        simpa using hne
      by_cases hskip : skipped unacknowledged path field <;> simp [hnone, hskip]
    · have hkept : fieldAt (deltaAt unacknowledged path key value delta.specType spec) field =
          fieldAt spec field := by rw [hnext, if_neg (by simp [hfield])]
      simp only [hfield, false_and, if_false]
      cases fields.lookup field with
      | none => rfl
      | some later =>
        simp only [Option.elim_some]
        rw [fieldAt_congr_storedValue unacknowledged field later hkept]

end

abbrev PathLog : Type := SharedLog String PathState (Option SpecData)

/-- What a client does with an entry of the history; `own` entries arrive as acknowledges. -/
def receiveEntry (path : SdfPath) (own : Bool) (entry : Option SpecData) (s : PathState) :
    PathState :=
  s.receive path (if own then entry.map fun _ => {} else entry)

/-- `flush` empties the local deltas and sends them unless there is no message to send. -/
inductive LogAction where
  | set (user : String) (field : TfToken) (value : VtValue)
  | flush (user : String) (sends : Bool)
  | serve (user : String)
  | receive (user : String)

def LogAction.user : LogAction → String
  | .set user _ _ | .flush user _ | .serve user | .receive user => user

def LogAction.perform (path : SdfPath) (log : PathLog) : LogAction → PathLog
  | .set user field value => log.edit user (PathState.set field value)
  | .flush user sends =>
    let flushed := log.edit user PathState.flush
    if sends then flushed.send user (log.replica user).state.edit else flushed
  | .serve user => log.serve user
  | .receive user => log.receive user (receiveEntry path)

lemma perform_flush_sent (path : SdfPath) (log : PathLog) (user : String) :
    LogAction.perform path log (.flush user true) =
      (log.edit user PathState.flush).send user (log.replica user).state.edit := rfl

lemma perform_flush_silent (path : SdfPath) (log : PathLog) (user : String) :
    LogAction.perform path log (.flush user false) = log.edit user PathState.flush := rfl

lemma perform_flush (path : SdfPath) (log : PathLog) (user : String) (sends : Bool) :
    LogAction.perform path log (.flush user sends) =
      { log with
        replica := Function.update log.replica user
          { state := (log.replica user).state.flush
            applied := (log.replica user).applied
            outbox := (log.replica user).outbox ++
              if sends then [(log.replica user).state.edit] else [] } } := by
  cases sends with
  | true => simp [perform_flush_sent, SharedLog.send, SharedLog.edit]
  | false => simp [perform_flush_silent, SharedLog.edit]

/-- The condition holds of a delta of another replica when the step applies it. -/
def AtForeign (ok : PathLog → String → SpecData → Prop) (log : PathLog) : LogAction → Prop
  | .receive user =>
    match log.history[(log.replica user).applied]? with
    | some (author, some delta) => author ≠ user → ok log user delta
    | _ => True
  | _ => True

section

variable {ok : PathLog → String → SpecData → Prop} {log : PathLog} {user author : String}

instance [∀ log user delta, Decidable (ok log user delta)] (log : PathLog) :
    (action : LogAction) → Decidable (AtForeign ok log action)
  | .receive user =>
    match hnext : log.history[(log.replica user).applied]? with
    | some (author, some delta) =>
      decidable_of_iff (author ≠ user → ok log user delta) (by simp [AtForeign, hnext])
    | some (_, none) => .isTrue (by simp [AtForeign, hnext])
    | none => .isTrue (by simp [AtForeign, hnext])
  | .set _ _ _ | .flush _ _ | .serve _ => .isTrue trivial

lemma AtForeign.holds (h : AtForeign ok log (.receive user)) {delta : SpecData}
    (hnext : log.history[(log.replica user).applied]? = some (author, some delta))
    (hforeign : author ≠ user) : ok log user delta := by
  unfold AtForeign at h
  dsimp only at h
  rw [hnext] at h
  exact h hforeign

lemma atForeign_receive (h : ∀ author delta, author ≠ user →
    log.history[(log.replica user).applied]? = some (author, some delta) → ok log user delta) :
    AtForeign ok log (.receive user) := by
  unfold AtForeign
  dsimp only
  split
  · exact fun hforeign => h _ _ hforeign ‹_›
  · trivial

end

/-- What a replica receives `j` steps from now. -/
def upcoming (log : PathLog) (user : String) (j : Nat) : Option SpecData :=
  log.history[(log.replica user).applied + j]?.bind fun e =>
    if e.1 = user then e.2.map fun _ => {} else e.2

/-- A replica that applies the next `n` entries one after the other. -/
theorem final_receives (path : SdfPath) (log : PathLog) (user : String) {n : Nat}
    (hn : (log.replica user).applied + n ≤ log.history.length) :
    Runs.final (LogAction.perform path) log (List.replicate n (.receive user)) =
      { log with replica := Function.update log.replica user { log.replica user with
          state := (log.replica user).state.receiveAll path ((List.range n).map (upcoming log user))
          applied := (log.replica user).applied + n } } := by
  induction n with
  | zero =>
    change log = { log with replica := Function.update log.replica user (log.replica user) }
    rw [Function.update_eq_self]
  | succ n ih =>
    have hlength : (log.replica user).applied + n < log.history.length := by omega
    obtain ⟨⟨author, entry⟩, hnext⟩ : ∃ e, log.history[(log.replica user).applied + n]? = some e :=
      ⟨_, List.getElem?_eq_getElem hlength⟩
    have hupcoming : upcoming log user n =
        if author = user then entry.map fun _ => {} else entry := by
      unfold upcoming
      rw [hnext, Option.bind_some]
    rw [List.replicate_succ', Runs.final_append, ih (by omega), Runs.final_cons, Runs.final_nil,
      LogAction.perform, SharedLog.receive_eq (by simpa using hnext)]
    simp [receiveEntry, receiveAll, List.range_succ, hupcoming, Nat.add_assoc]

/-- A delta as the edits of this path produce them: distinct fields, at least one, each of an
allowed kind. -/
structure Ordinary (allowed : TfToken × VtValue → Prop) (delta : SpecData) : Prop where
  nonempty : delta.fields ≠ []
  nodup : (delta.fields.map Prod.fst).Nodup
  storable : ∀ f ∈ delta.fields, Storable f
  allowed : ∀ f ∈ delta.fields, allowed f

/-- The path is edited in the allowed ways where its spec exists, and a flush loses nothing. -/
def OrdinaryAction (members : List String) (allowed : TfToken × VtValue → Prop) (log : PathLog)
    (action : LogAction) : Prop :=
  action.user ∈ members ∧ match action with
    | .set user field value => (log.replica user).state.spec.isSome ∧
        (value.isEmpty = false → removesSpec field value = false ∧ allowed (field, value))
    | .flush user sends => sends = false → (log.replica user).state.edit = none
    | _ => True

/-- The spec exists everywhere or nowhere, and all deltas are ordinary. -/
structure OrdinaryLog (members : List String) (allowed : TfToken × VtValue → Prop)
    (base : Option SpecData) (log : PathLog) : Prop where
  bounded : log.Bounded
  present : ∀ user ∈ members, (log.replica user).state.spec.isSome = base.isSome
  edits : ∀ user ∈ members, ∀ delta, (log.replica user).state.edit = some delta →
    base.isSome ∧ Ordinary allowed delta
  entries : log.AllEntries fun _ entry => ∀ delta, entry = some delta →
    base.isSome ∧ Ordinary allowed delta

lemma assignField_keys_nodup (field : TfToken) (value : VtValue)
    {fields : List (TfToken × VtValue)} (h : (fields.map Prod.fst).Nodup) :
    ((assignField field value fields).map Prod.fst).Nodup ∧
      ∀ key ∈ (assignField field value fields).map Prod.fst,
        key = field ∨ key ∈ fields.map Prod.fst := by
  induction fields with
  | nil => simp [assignField]
  | cons f fields ih =>
    rw [List.map_cons, List.nodup_cons] at h
    unfold assignField
    split
    · rename_i hkey
      refine ⟨?_, fun key hmem => ?_⟩
      · rw [List.map_cons, List.nodup_cons, ← hkey]
        exact h
      · rw [List.map_cons, List.mem_cons] at hmem ⊢
        rcases hmem with rfl | hmem
        · exact .inl rfl
        · exact .inr (.inr hmem)
    · rename_i hkey
      obtain ⟨hnodup, hmem⟩ := ih h.2
      refine ⟨?_, fun key hkeys => ?_⟩
      · rw [List.map_cons, List.nodup_cons]
        refine ⟨fun hf => ?_, hnodup⟩
        rcases hmem f.1 hf with hfield | hold
        · exact hkey hfield
        · exact h.1 hold
      · rw [List.map_cons, List.mem_cons] at hkeys ⊢
        rcases hkeys with rfl | hkeys
        · exact .inr (.inl rfl)
        · exact (hmem key hkeys).imp_right .inr

lemma mem_assignField {field : TfToken} {value : VtValue} {fields : List (TfToken × VtValue)}
    {f : TfToken × VtValue} (h : f ∈ assignField field value fields) :
    f = (field, value) ∨ f ∈ fields := by
  induction fields with
  | nil => exact .inl (List.mem_singleton.1 h)
  | cons g fields ih =>
    unfold assignField at h
    split at h
    · exact (List.mem_cons.1 h).imp_right (List.mem_cons_of_mem g)
    · rcases List.mem_cons.1 h with rfl | hrest
      · exact .inr List.mem_cons_self
      · exact (ih hrest).imp_right (List.mem_cons_of_mem g)

/-- A delta as it is recorded: distinct fields, at least one, all with a value. -/
structure Recordable (delta : SpecData) : Prop where
  nonempty : delta.fields ≠ []
  nodup : (delta.fields.map Prod.fst).Nodup
  values : ∀ f ∈ delta.fields, f.2.isEmpty = false

lemma Ordinary.recordable {allowed : TfToken × VtValue → Prop} {delta : SpecData}
    (h : Ordinary allowed delta) : Recordable delta :=
  ⟨h.nonempty, h.nodup, fun f hf => (h.storable f hf).2⟩

lemma mem_setField_edit {field : TfToken} {value : VtValue} {s : PathState} {delta : SpecData}
    (h : (s.setField field value).edit = some delta) {f : TfToken × VtValue}
    (hf : f ∈ delta.fields) :
    f = (field, value) ∨ ∃ pending, s.edit = some pending ∧ f ∈ pending.fields := by
  unfold setField editBase at h
  obtain ⟨edit, hedit, rfl⟩ := Option.map_eq_some_iff.1 h
  refine (mem_assignField hf).imp_right fun hmem => ?_
  cases hpending : s.edit with
  | some pending =>
    rw [hpending, Option.some_or, Option.some.injEq] at hedit
    exact ⟨pending, rfl, hedit ▸ hmem⟩
  | none =>
    rw [hpending, Option.none_or] at hedit
    obtain ⟨spec, -, rfl⟩ := Option.map_eq_some_iff.1 hedit
    exact absurd hmem List.not_mem_nil

lemma recordable_setField {field : TfToken} {value : VtValue} (hvalue : value.isEmpty = false)
    {s : PathState} (hs : ∀ delta, s.edit = some delta → Recordable delta) {delta : SpecData}
    (h : (s.setField field value).edit = some delta) : Recordable delta := by
  have hvalues : ∀ f ∈ delta.fields, f.2.isEmpty = false := by
    intro f hf
    rcases mem_setField_edit h hf with rfl | ⟨pending, hpending, hmem⟩
    · exact hvalue
    · exact (hs pending hpending).values f hmem
  unfold setField editBase at h
  obtain ⟨edit, hedit, rfl⟩ := Option.map_eq_some_iff.1 h
  refine ⟨assignField_ne_nil _ _ _, (assignField_keys_nodup field value ?_).1, hvalues⟩
  cases hpending : s.edit with
  | some pending =>
    rw [hpending, Option.some_or, Option.some.injEq] at hedit
    exact hedit ▸ (hs pending hpending).nodup
  | none =>
    rw [hpending, Option.none_or] at hedit
    obtain ⟨spec, -, rfl⟩ := Option.map_eq_some_iff.1 hedit
    exact List.nodup_nil

section

variable {allowed : TfToken × VtValue → Prop}

lemma ordinary_setField {field : TfToken} {value : VtValue} (hstorable : Storable (field, value))
    (hallowed : allowed (field, value)) {s : PathState}
    (hs : ∀ delta, s.edit = some delta → Ordinary allowed delta) {delta : SpecData}
    (h : (s.setField field value).edit = some delta) : Ordinary allowed delta := by
  have hrecordable := recordable_setField hstorable.2
    (fun pending hpending => (hs pending hpending).recordable) h
  refine ⟨hrecordable.nonempty, hrecordable.nodup, fun f hf => ?_, fun f hf => ?_⟩
  · rcases mem_setField_edit h hf with rfl | ⟨pending, hpending, hmem⟩
    · exact hstorable
    · exact (hs pending hpending).storable f hmem
  · rcases mem_setField_edit h hf with rfl | ⟨pending, hpending, hmem⟩
    · exact hallowed
    · exact (hs pending hpending).allowed f hmem

lemma setField_field {s : PathState} (hspec : s.spec.isSome) (field : TfToken) (value : VtValue)
    (key : TfToken) :
    fieldAt (s.setField field value).spec key =
        (if key = field then some value else fieldAt s.spec key) ∧
      (s.setField field value).edit.bind (·.fields.lookup key) =
        if key = field then some value else s.edit.bind (·.fields.lookup key) := by
  obtain ⟨spec, hsome⟩ := Option.isSome_iff_exists.1 hspec
  constructor
  · simp [setField, fieldAt, hsome, lookup_assignField]
  · cases hedit : s.edit with
    | some edit => simp [setField, editBase, hedit, lookup_assignField]
    | none => simp [setField, editBase, hedit, hsome, lookup_assignField]

lemma setField_edit_isSome {s : PathState} (hspec : s.spec.isSome) (field : TfToken)
    (value : VtValue) : (s.setField field value).edit.isSome := by
  obtain ⟨spec, hsome⟩ := Option.isSome_iff_exists.1 hspec
  cases hedit : s.edit <;> simp [setField, editBase, hedit, hsome]

lemma set_edit_of_isEmpty {field : TfToken} {value : VtValue} (h : value.isEmpty = true)
    (s : PathState) : (s.set field value).edit = s.edit := by
  simp [PathState.set, h]

lemma set_eq_self_of_missing {s : PathState} (hspec : s.spec = none) (hedit : s.edit = none)
    {value : VtValue} (hvalue : value.isEmpty = false) (field : TfToken) :
    s.set field value = s := by
  refine PathState.ext ?_ ?_ ?_ <;> simp [PathState.set, hvalue, setField, editBase, hedit, hspec]

lemma set_eq_self_of_cleared {s : PathState} {field : TfToken} {value : VtValue}
    (hvalue : value.isEmpty = true) (hfield : fieldAt s.spec field = none) :
    s.set field value = s := by
  have hspec : setAt field value s.spec = s.spec := by
    cases hsome : s.spec with
    | none => rfl
    | some spec =>
      rw [hsome] at hfield
      have hkept : eraseField field spec.fields = spec.fields := by
        refine List.eraseP_of_forall_not fun f hf hkey => ?_
        have hlookup := List.lookup_eq_none_iff.1 hfield f hf
        simp [of_decide_eq_true hkey] at hlookup
      simp [setAt, hvalue, hkept]
  simp [PathState.set, hvalue, hspec]

lemma set_spec_isSome (field : TfToken) (value : VtValue) (s : PathState) :
    (s.set field value).spec.isSome = s.spec.isSome := by
  unfold PathState.set
  split
  · exact setAt_isSome field value s.spec
  · simp [setField]

end

namespace OrdinaryLog

variable {members : List String} {allowed : TfToken × VtValue → Prop} {base : Option SpecData}
  {path : SdfPath} {log : PathLog}

lemma next (h : OrdinaryLog members allowed base log) {user author : String} {delta : SpecData}
    (hnext : log.history[(log.replica user).applied]? = some (author, some delta)) :
    base.isSome ∧ Ordinary allowed delta :=
  h.entries.1 _ (List.mem_of_getElem? hnext) delta rfl

lemma receiveEntry_edit (own : Bool) (entry : Option SpecData) (s : PathState) :
    (receiveEntry path own entry s).edit = s.edit :=
  receive_edit path s _

lemma receiveEntry_own_spec (entry : Option SpecData) (s : PathState) :
    (receiveEntry path true entry s).spec = s.spec := by
  unfold receiveEntry
  cases entry <;> rfl

lemma receiveEntry_foreign_spec {delta : SpecData} (h : delta.fields ≠ []) (s : PathState) :
    (receiveEntry path false (some delta) s).spec = entryAt s.unacknowledged path delta s.spec := by
  simp [receiveEntry, receive, h]

lemma set (h : OrdinaryLog members allowed base log) {user : String} {field : TfToken}
    {value : VtValue} (hok : OrdinaryAction members allowed log (.set user field value)) :
    OrdinaryLog members allowed base (log.edit user (PathState.set field value)) := by
  obtain ⟨hmember, hspec, hvalue⟩ := hok
  refine ⟨h.bounded.edit _, fun w hw => ?_, fun w hw delta hdelta => ?_, h.entries.edit _⟩
  · by_cases hwu : w = user
    · subst hwu
      rw [SharedLog.edit_state, set_spec_isSome]
      exact h.present w hw
    · rw [SharedLog.edit_replica_ne _ hwu]
      exact h.present w hw
  · by_cases hwu : w = user
    · subst hwu
      rw [SharedLog.edit_state] at hdelta
      refine ⟨(h.present w hw).symm.trans hspec, ?_⟩
      cases hempty : value.isEmpty with
      | true => exact (h.edits w hw delta (by rwa [set_edit_of_isEmpty hempty] at hdelta)).2
      | false =>
        obtain ⟨hremove, hallowed⟩ := hvalue hempty
        unfold PathState.set at hdelta
        rw [hempty, if_neg Bool.false_ne_true] at hdelta
        exact ordinary_setField ⟨hremove, hempty⟩ hallowed
          (fun delta hdelta => (h.edits w hw delta hdelta).2) hdelta
    · rw [SharedLog.edit_replica_ne _ hwu] at hdelta
      exact h.edits w hw delta hdelta

lemma flush (h : OrdinaryLog members allowed base log) {user : String} (sends : Bool)
    (hmember : user ∈ members) :
    OrdinaryLog members allowed base (LogAction.perform path log (.flush user sends)) := by
  have hflushed : OrdinaryLog members allowed base (log.edit user PathState.flush) := by
    refine ⟨h.bounded.edit _, fun w hw => ?_, fun w hw delta hdelta => ?_, h.entries.edit _⟩
    · by_cases hwu : w = user
      · subst hwu
        rw [SharedLog.edit_state, flush_spec]
        exact h.present w hw
      · rw [SharedLog.edit_replica_ne _ hwu]
        exact h.present w hw
    · by_cases hwu : w = user
      · subst hwu
        rw [SharedLog.edit_state, flush_edit] at hdelta
        exact absurd hdelta (by simp)
      · rw [SharedLog.edit_replica_ne _ hwu] at hdelta
        exact h.edits w hw delta hdelta
  cases sends with
  | false => exact hflushed
  | true =>
    rw [perform_flush_sent]
    refine ⟨hflushed.bounded.send _, fun w hw => ?_, fun w hw delta hdelta => ?_, ?_⟩
    · rw [SharedLog.send_state]
      exact hflushed.present w hw
    · rw [SharedLog.send_state] at hdelta
      exact hflushed.edits w hw delta hdelta
    · exact hflushed.entries.send fun delta hdelta => h.edits user hmember delta hdelta

lemma receive (h : OrdinaryLog members allowed base log) (user : String) :
    OrdinaryLog members allowed base (log.receive user (receiveEntry path)) := by
  cases hnext : log.history[(log.replica user).applied]? with
  | none => rwa [SharedLog.receive_none hnext]
  | some next =>
    obtain ⟨author, entry⟩ := next
    refine ⟨h.bounded.receive _, fun w hw => ?_, fun w hw delta hdelta => ?_, h.entries.receive _⟩
    · by_cases hwu : w = user
      · subst hwu
        rw [SharedLog.receive_state hnext, ← h.present w hw]
        by_cases hown : author = w
        · rw [decide_eq_true hown, receiveEntry_own_spec]
        · rw [decide_eq_false hown]
          cases entry with
          | none => rfl
          | some delta =>
            obtain ⟨hbase, hordinary⟩ := h.next hnext
            have hspec := (h.present w hw).trans hbase
            rw [receiveEntry_foreign_spec hordinary.nonempty, hspec]
            exact entryAt_isSome hordinary.storable hspec
      · rw [SharedLog.receive_replica_ne _ hwu]
        exact h.present w hw
    · by_cases hwu : w = user
      · subst hwu
        rw [SharedLog.receive_state hnext, receiveEntry_edit] at hdelta
        exact h.edits w hw delta hdelta
      · rw [SharedLog.receive_replica_ne _ hwu] at hdelta
        exact h.edits w hw delta hdelta

/-- Every step of the log keeps its deltas ordinary. -/
theorem perform (h : OrdinaryLog members allowed base log) {action : LogAction}
    (hok : OrdinaryAction members allowed log action) :
    OrdinaryLog members allowed base (action.perform path log) := by
  cases action with
  | set user field value => exact h.set hok
  | flush user sends => exact h.flush sends hok.1
  | serve user =>
    refine ⟨h.bounded.serve, fun w hw => ?_, fun w hw delta hdelta => ?_, h.entries.serve⟩
    · simpa [LogAction.perform] using h.present w hw
    · exact h.edits w hw delta (by simpa [LogAction.perform] using hdelta)
  | receive user => exact h.receive user

lemma fresh (hhistory : log.history = []) (houtbox : ∀ user, (log.replica user).outbox = [])
    (happlied : ∀ user, (log.replica user).applied = 0)
    (hstate : ∀ user ∈ members, (log.replica user).state.spec = base ∧
      (log.replica user).state.edit = none) : OrdinaryLog members allowed base log where
  bounded user := by rw [happlied]; exact Nat.zero_le _
  present user hmember := by rw [(hstate user hmember).1]
  edits user hmember delta hdelta := by
    rw [(hstate user hmember).2] at hdelta
    exact absurd hdelta (by simp)
  entries := by
    refine ⟨fun e he => ?_, fun user entry hentry => ?_⟩
    · rw [hhistory] at he
      exact absurd he List.not_mem_nil
    · rw [houtbox user] at hentry
      exact absurd hentry List.not_mem_nil

end OrdinaryLog

/-- The value the last entry with the field gives it, or the one it had. -/
def lastValue (field : TfToken) (entries : List (Option SpecData)) (start : Option VtValue) :
    Option VtValue :=
  entries.foldl (fun value entry => (entry.bind (·.fields.lookup field)).or value) start

/-- The entry gives the field a value. -/
def Sets (field : TfToken) (entry : Option SpecData) : Prop :=
  (entry.bind (·.fields.lookup field)).isSome

instance (field : TfToken) (entry : Option SpecData) : Decidable (Sets field entry) :=
  inferInstanceAs (Decidable (Option.isSome _ = true))

lemma lastValue_append (field : TfToken) (entries entries' : List (Option SpecData))
    (start : Option VtValue) :
    lastValue field (entries ++ entries') start =
      lastValue field entries' (lastValue field entries start) :=
  List.foldl_append

@[simp] lemma lastValue_cons (field : TfToken) (entry : Option SpecData)
    (entries : List (Option SpecData)) (start : Option VtValue) :
    lastValue field (entry :: entries) start =
      lastValue field entries ((entry.bind (·.fields.lookup field)).or start) := rfl

@[simp] lemma lastValue_nil (field : TfToken) (start : Option VtValue) :
    lastValue field [] start = start := rfl

lemma lastValue_unset {field : TfToken} {entries : List (Option SpecData)}
    (h : ∀ entry ∈ entries, ¬Sets field entry) (start : Option VtValue) :
    lastValue field entries start = start := by
  induction entries generalizing start with
  | nil => rfl
  | cons entry entries ih =>
    have hfirst : entry.bind (·.fields.lookup field) = none := by
      have hnot := h entry List.mem_cons_self
      unfold Sets at hnot
      rwa [Option.not_isSome_iff_eq_none] at hnot
    rw [lastValue_cons, hfirst, Option.none_or]
    exact ih (fun e he => h e (List.mem_cons_of_mem entry he)) start

lemma lastValue_set {field : TfToken} {entries : List (Option SpecData)}
    (h : ∃ entry ∈ entries, Sets field entry) (start start' : Option VtValue) :
    lastValue field entries start = lastValue field entries start' := by
  induction entries generalizing start start' with
  | nil => exact absurd h (by simp)
  | cons entry entries ih =>
    rw [lastValue_cons, lastValue_cons]
    by_cases hlater : ∃ entry ∈ entries, Sets field entry
    · exact ih hlater _ _
    · obtain ⟨e, he, hsets⟩ := h
      rcases List.mem_cons.1 he with rfl | hmem
      · obtain ⟨value, hvalue⟩ := Option.isSome_iff_exists.1 hsets
        rw [hvalue, Option.some_or, Option.some_or]
      · exact absurd ⟨e, hmem, hsets⟩ hlater

/-- The client has an edit of the field that it has not sent or not seen in the history. -/
def FieldPending (log : PathLog) (user : String) (field : TfToken) : Prop :=
  ∃ entry ∈ log.awaited user ++ [(log.replica user).state.edit], Sets field entry

instance (log : PathLog) (user : String) (field : TfToken) :
    Decidable (FieldPending log user field) :=
  inferInstanceAs (Decidable (∃ entry ∈ _, Sets field entry))

end RenderStudioKit.Proofs
