import RenderStudioKit.Proofs.SessionStart

/-!
# Children added by several clients

Clients add names to the children of one prim, each by setting its whole list. An unacknowledged
path merges the lists of other clients into its own, an acknowledged path is overwritten: no name
is lost as long as every list that overwrites another one contains it.
-/

namespace RenderStudioKit.Proofs

open PathState

section

variable [Usd]

/-- The children a spec has. -/
def childrenOf (spec : Option SpecData) : List TfToken :=
  ((fieldAt spec SdfChildrenKeys.primChildren).getD .empty).getTokenVector

/-- The children an entry lists. -/
def childNames (entry : Option SpecData) : List TfToken :=
  ((entry.bind (·.fields.lookup SdfChildrenKeys.primChildren)).getD .empty).getTokenVector

@[simp] lemma childNames_none : childNames none = [] := rfl

omit [Usd] in
lemma mem_deduplicate {seen tokens : List TfToken} {name : TfToken} :
    name ∈ deduplicate seen tokens ↔ name ∈ tokens ∧ name ∉ seen := by
  induction tokens generalizing seen with
  | nil => simp [deduplicate]
  | cons token tokens ih =>
    unfold deduplicate
    by_cases hseen : token ∈ seen
    · rw [if_pos hseen, ih, List.mem_cons]
      constructor
      · rintro ⟨hmem, hnot⟩
        exact ⟨.inr hmem, hnot⟩
      · rintro ⟨rfl | hmem, hnot⟩
        · exact absurd hseen hnot
        · exact ⟨hmem, hnot⟩
    · rw [if_neg hseen, List.mem_cons, ih, List.mem_cons, List.mem_cons, not_or]
      by_cases hname : name = token
      · simp [hname, hseen]
      · simp [hname]

lemma childrenOf_entryAt {unacknowledged : Bool} {path : SdfPath} {spec : Option SpecData}
    {delta : SpecData} (hfields : ∀ f ∈ delta.fields, Storable f)
    (hnodup : (delta.fields.map Prod.fst).Nodup) (h : spec.isSome) (name : TfToken) :
    name ∈ childrenOf (entryAt unacknowledged path delta spec) ↔
      name ∈ childNames (some delta) ∨ name ∈ childrenOf spec ∧
        (unacknowledged = true ∨ delta.fields.lookup SdfChildrenKeys.primChildren = none) := by
  have hskipped : skipped unacknowledged path SdfChildrenKeys.primChildren = false := by
    simp [skipped]
  unfold childrenOf childNames
  rw [fieldAt_entryAt hfields hnodup h, hskipped, Option.bind_some]
  cases hlookup : delta.fields.lookup SdfChildrenKeys.primChildren with
  | none => simp [VtValue.getTokenVector]
  | some value =>
    cases unacknowledged with
    | false => simp [storedValue]
    | true => simp [storedValue, mem_deduplicate]

/-- A list of children is set to the current one with more names behind it. -/
def AddsNames (log : PathLog) : LogAction → Prop
  | .set user field value => field = SdfChildrenKeys.primChildren →
      ∃ names, value = .tokenVector (childrenOf (log.replica user).state.spec ++ names)
  | _ => True

/-- Children that overwrite those of an acknowledged path contain them. -/
def KeepsNames (log : PathLog) (user : String) (delta : SpecData) : Prop :=
  (log.replica user).state.unacknowledged = false →
    (delta.fields.lookup SdfChildrenKeys.primChildren).isSome →
      ∀ name ∈ childrenOf (log.replica user).state.spec, name ∈ childNames (some delta)

instance (log : PathLog) (user : String) (delta : SpecData) :
    Decidable (KeepsNames log user delta) :=
  inferInstanceAs (Decidable (_ → _ → ∀ name ∈ childrenOf (log.replica user).state.spec, _))

/-- The names a step puts into a list of children. -/
def addedNames : LogAction → List TfToken
  | .set _ field value => if field = SdfChildrenKeys.primChildren then value.getTokenVector else []
  | _ => []

/-- The name is in an entry of the history or in one that a member still has. -/
def Offered (members : List String) (log : PathLog) (name : TfToken) : Prop :=
  (∃ e ∈ log.history, name ∈ childNames e.2) ∨ ∃ user ∈ members,
    ∃ entry ∈ (log.replica user).outbox ++ [(log.replica user).state.edit], name ∈ childNames entry

/-- Every client has all names of what it works on, and the added names are on their way. -/
structure KeepsAll (members : List String) (base : Option SpecData) (added : List TfToken)
    (log : PathLog) : Prop where
  ordinary : OrdinaryLog members (fun _ => True) base log
  holds : ∀ user ∈ members,
    ∀ entry ∈ log.seen user ++ log.awaited user ++ [(log.replica user).state.edit],
      ∀ name ∈ childNames entry, name ∈ childrenOf (log.replica user).state.spec
  offered : ∀ name ∈ added, Offered members log name

/-- The steps of the log that add children. -/
def AdmittedNames (members : List String) (log : PathLog) (action : LogAction) : Prop :=
  OrdinaryAction members (fun _ => True) log action ∧ AddsNames log action ∧
    AtForeign KeepsNames log action

lemma set_children {s : PathState} (hspec : s.spec.isSome) {field : TfToken} {value : VtValue}
    (hadds : field = SdfChildrenKeys.primChildren →
      ∃ names, value = .tokenVector (childrenOf s.spec ++ names)) :
    (field = SdfChildrenKeys.primChildren → childrenOf (s.set field value).spec =
        value.getTokenVector ∧ childNames (s.set field value).edit = value.getTokenVector) ∧
      (field ≠ SdfChildrenKeys.primChildren → childrenOf (s.set field value).spec =
        childrenOf s.spec ∧ childNames (s.set field value).edit = childNames s.edit) := by
  obtain ⟨hfield, hedit⟩ := setField_field hspec field value SdfChildrenKeys.primChildren
  unfold childrenOf childNames
  constructor
  · intro hkey
    obtain ⟨names, hvalue⟩ := hadds hkey
    have hset : s.set field value = s.setField field value := by
      rw [PathState.set, if_neg (by rw [hvalue]; exact Bool.false_ne_true)]
    rw [hset, hfield, hedit, if_pos hkey.symm, if_pos hkey.symm]
    exact ⟨rfl, rfl⟩
  · intro hkey
    have hne : SdfChildrenKeys.primChildren ≠ field := fun heq => hkey heq.symm
    unfold PathState.set
    split_ifs
    · rw [fieldAt_setAt_ne hne]
      exact ⟨rfl, rfl⟩
    · rw [hfield, hedit, if_neg hne, if_neg hne]
      exact ⟨rfl, rfl⟩

lemma Offered.edit {members : List String} {log : PathLog} {name : TfToken}
    (h : Offered members log name) {user : String} {change : PathState → PathState}
    (hkept : name ∈ childNames (log.replica user).state.edit →
      name ∈ childNames (change (log.replica user).state).edit) :
    Offered members (log.edit user change) name := by
  rcases h with hhistory | ⟨w, hw, entry, hentry, hname⟩
  · exact .inl hhistory
  · refine .inr ⟨w, hw, ?_⟩
    by_cases hwu : w = user
    · subst hwu
      rcases List.mem_append.1 hentry with houtbox | hedit
      · exact ⟨entry, List.mem_append_left _ (by simpa [SharedLog.edit] using houtbox), hname⟩
      · rw [List.mem_singleton.1 hedit] at hname
        refine ⟨(change (log.replica w).state).edit, List.mem_append_right _ ?_, hkept hname⟩
        rw [SharedLog.edit_state]
        exact List.mem_singleton_self _
    · rw [SharedLog.edit_replica_ne _ hwu]
      exact ⟨entry, hentry, hname⟩

namespace KeepsAll

variable {members : List String} {path : SdfPath} {base : Option SpecData} {added : List TfToken}
  {log : PathLog}

lemma set (h : KeepsAll members base added log) {user : String} {field : TfToken}
    {value : VtValue}
    (hok : OrdinaryAction members (fun _ => True) log (.set user field value))
    (hadds : AddsNames log (.set user field value)) :
    KeepsAll members base (added ++ addedNames (.set user field value))
      (log.edit user (PathState.set field value)) := by
  have hmember : user ∈ members := hok.1
  obtain ⟨hchildren, hother⟩ := set_children hok.2.1 hadds
  have hgrows : ∀ name ∈ childrenOf (log.replica user).state.spec,
      name ∈ childrenOf ((log.replica user).state.set field value).spec := by
    intro name hname
    by_cases hkey : field = SdfChildrenKeys.primChildren
    · obtain ⟨names, hvalue⟩ := hadds hkey
      rw [(hchildren hkey).1, hvalue]
      exact List.mem_append_left names hname
    · rwa [(hother hkey).1]
  have hholds := h.holds user hmember
  have hedits : ∀ name ∈ childNames (log.replica user).state.edit,
      name ∈ childrenOf (log.replica user).state.spec :=
    hholds _ (List.mem_append_right _ (List.mem_singleton_self _))
  refine ⟨h.ordinary.set hok, fun w hw entry hentry name hname => ?_, fun name hname => ?_⟩
  · rw [SharedLog.seen_edit, SharedLog.awaited_edit] at hentry
    by_cases hwu : w = user
    · subst hwu
      rw [SharedLog.edit_state] at hentry ⊢
      rcases List.mem_append.1 hentry with hold | hedit
      · exact hgrows name (hholds entry (List.mem_append_left _ hold) name hname)
      · rw [List.mem_singleton.1 hedit] at hname
        by_cases hkey : field = SdfChildrenKeys.primChildren
        · rw [(hchildren hkey).2] at hname
          rwa [(hchildren hkey).1]
        · rw [(hother hkey).2] at hname
          rw [(hother hkey).1]
          exact hedits name hname
    · rw [SharedLog.edit_replica_ne _ hwu] at hentry ⊢
      exact h.holds w hw entry hentry name hname
  · rcases List.mem_append.1 hname with hold | hnew
    · refine (h.offered name hold).edit fun hedit => ?_
      by_cases hkey : field = SdfChildrenKeys.primChildren
      · have hvalue := hgrows name (hedits name hedit)
        rw [(hchildren hkey).1] at hvalue
        rwa [(hchildren hkey).2]
      · rwa [(hother hkey).2]
    · unfold addedNames at hnew
      dsimp only at hnew
      split_ifs at hnew with hkey
      · refine .inr ⟨user, hmember, _, List.mem_append_right _ (List.mem_singleton_self _), ?_⟩
        rwa [SharedLog.edit_state, (hchildren hkey).2]
      · exact absurd hnew List.not_mem_nil

lemma flush (h : KeepsAll members base added log) {user : String} {sends : Bool}
    (hok : OrdinaryAction members (fun _ => True) log (.flush user sends)) :
    KeepsAll members base added (LogAction.perform path log (.flush user sends)) := by
  have hmember : user ∈ members := hok.1
  refine ⟨h.ordinary.perform hok, fun w hw => ?_, fun name hname => ?_⟩
  · have hholds := h.holds w hw
    cases sends with
    | true =>
      rw [perform_flush_sent, SharedLog.send_state, SharedLog.seen_send, SharedLog.seen_edit]
      by_cases hwu : w = user
      · subst hwu
        rw [SharedLog.edit_state, SharedLog.awaited_send, SharedLog.awaited_edit, flush_spec,
          flush_edit]
        intro entry hentry name hname
        refine hholds entry ?_ name hname
        simp only [List.mem_append, List.mem_singleton] at hentry ⊢
        rcases hentry with (hseen | hawaited | rfl) | rfl
        · exact .inl (.inl hseen)
        · exact .inl (.inr hawaited)
        · exact .inr rfl
        · exact absurd hname List.not_mem_nil
      · rw [SharedLog.awaited_send_ne _ hwu, SharedLog.awaited_edit,
          SharedLog.edit_replica_ne _ hwu]
        exact hholds
    | false =>
      have hedit : (log.replica user).state.edit = none := hok.2 rfl
      rw [perform_flush_silent, SharedLog.seen_edit, SharedLog.awaited_edit]
      by_cases hwu : w = user
      · subst hwu
        rw [SharedLog.edit_state, flush_spec, flush_edit]
        rwa [hedit] at hholds
      · rw [SharedLog.edit_replica_ne _ hwu]
        exact hholds
  · rw [perform_flush]
    rcases h.offered name hname with hhistory | ⟨w, hw, entry, hentry, hentryName⟩
    · exact .inl hhistory
    · refine .inr ⟨w, hw, entry, ?_, hentryName⟩
      by_cases hwu : w = user
      · subst hwu
        simp only [Function.update_self, flush_edit]
        rw [List.mem_append, List.mem_singleton] at hentry
        rcases hentry with houtbox | rfl
        · simp [houtbox]
        · cases sends with
          | true => simp
          | false =>
            rw [hok.2 rfl] at hentryName
            exact absurd hentryName List.not_mem_nil
      · simpa [hwu] using hentry

lemma serve (h : KeepsAll members base added log) {user : String} (hmember : user ∈ members) :
    KeepsAll members base added (LogAction.perform path log (.serve user)) := by
  have hbounded := h.ordinary.bounded
  refine ⟨h.ordinary.perform ⟨hmember, trivial⟩, fun w hw => ?_, fun name hname => ?_⟩
  · unfold LogAction.perform
    dsimp only
    rw [SharedLog.seen_serve (hbounded _), SharedLog.awaited_serve (hbounded _), SharedLog.serve_state]
    exact h.holds w hw
  · rcases h.offered name hname with ⟨e, he, hentry⟩ | ⟨w, hw, entry, hentry, hentryName⟩
    · refine .inl ⟨e, ?_, hentry⟩
      unfold LogAction.perform SharedLog.serve
      dsimp only
      split
      · exact he
      · exact List.mem_append_left _ he
    · unfold LogAction.perform SharedLog.serve
      dsimp only
      split
      · exact .inr ⟨w, hw, entry, hentry, hentryName⟩
      · rename_i first rest houtbox
        by_cases hwu : w = user
        · subst hwu
          rw [houtbox, List.cons_append, List.mem_cons] at hentry
          rcases hentry with rfl | hrest
          · exact .inl ⟨(w, entry), List.mem_append_right _ (List.mem_singleton_self _), hentryName⟩
          · exact .inr ⟨w, hw, entry, by simpa using hrest, hentryName⟩
        · exact .inr ⟨w, hw, entry, by simpa [hwu] using hentry, hentryName⟩

/-- The list of another client, merged or stored. -/
lemma foreign_holds (h : KeepsAll members base added log) {user author : String}
    (hmember : user ∈ members) {delta : SpecData}
    (hnext : log.history[(log.replica user).applied]? = some (author, some delta))
    (hkeeps : KeepsNames log user delta) :
    ∀ entry ∈ log.seen user ++ [some delta] ++ log.awaited user ++ [(log.replica user).state.edit],
      ∀ name ∈ childNames entry,
        name ∈ childrenOf (receiveEntry path false (some delta) (log.replica user).state).spec := by
  intro entry hentry name hname
  obtain ⟨hbase, hordinary⟩ := h.ordinary.next hnext
  have hspec : (log.replica user).state.spec.isSome :=
    (h.ordinary.present user hmember).trans hbase
  rw [OrdinaryLog.receiveEntry_foreign_spec hordinary.nonempty,
    childrenOf_entryAt hordinary.storable hordinary.nodup hspec]
  simp only [List.mem_append, List.mem_singleton] at hentry
  by_cases hnew : entry = some delta
  · exact .inl (hnew ▸ hname)
  · have hold : name ∈ childrenOf (log.replica user).state.spec := by
      refine h.holds user hmember entry ?_ name hname
      simp only [List.mem_append, List.mem_singleton]
      rcases hentry with ((hseen | hdelta) | hawaited) | hedit
      · exact .inl (.inl hseen)
      · exact absurd hdelta hnew
      · exact .inl (.inr hawaited)
      · exact .inr hedit
    cases hunack : (log.replica user).state.unacknowledged with
    | true => exact .inr ⟨hold, .inl rfl⟩
    | false =>
      cases hlookup : delta.fields.lookup SdfChildrenKeys.primChildren with
      | none => exact .inr ⟨hold, .inr rfl⟩
      | some value =>
        exact .inl (hkeeps hunack (by rw [hlookup]; rfl) name hold)

lemma receive (h : KeepsAll members base added log) {user : String} (hmember : user ∈ members)
    (hkeeps : AtForeign KeepsNames log (.receive user)) :
    KeepsAll members base added (log.receive user (receiveEntry path)) := by
  refine ⟨h.ordinary.receive user, fun w hw => ?_, fun name hname => ?_⟩
  · have hholds := h.holds w hw
    cases hnext : log.history[(log.replica user).applied]? with
    | none => rwa [SharedLog.receive_none hnext]
    | some next =>
      obtain ⟨author, entry⟩ := next
      by_cases hwu : w = user
      · subst hwu
        rw [SharedLog.receive_state hnext, SharedLog.seen_receive hnext,
          OrdinaryLog.receiveEntry_edit]
        by_cases hown : author = w
        · have hawaited : log.awaited w =
              entry :: (log.receive w (receiveEntry path)).awaited w :=
            SharedLog.awaited_receive_own hnext hown
          rw [decide_eq_true hown, OrdinaryLog.receiveEntry_own_spec]
          rw [hawaited] at hholds
          intro e he
          exact hholds e (by simpa using he)
        · rw [decide_eq_false hown, SharedLog.awaited_receive_foreign hnext hown]
          cases entry with
          | none =>
            intro e he name hname
            refine hholds e ?_ name hname
            simp only [List.mem_append, List.mem_singleton] at he ⊢
            rcases he with ((hseen | rfl) | hawaited) | hedit
            · exact .inl (.inl hseen)
            · exact absurd hname List.not_mem_nil
            · exact .inl (.inr hawaited)
            · exact .inr hedit
          | some delta =>
            exact h.foreign_holds hw hnext (hkeeps.holds hnext hown)
      · rw [SharedLog.receive_replica_ne _ hwu]
        have hseen : (log.receive user (receiveEntry path)).seen w = log.seen w := by
          simp [SharedLog.seen, SharedLog.receive_replica_ne _ hwu]
        have hawaited : (log.receive user (receiveEntry path)).awaited w = log.awaited w := by
          simp [SharedLog.awaited, SharedLog.receive_replica_ne _ hwu]
        rw [hseen, hawaited]
        exact hholds
  · unfold Offered
    rw [SharedLog.receive_history]
    refine (h.offered name hname).imp_right ?_
    rintro ⟨w, hw, hentries⟩
    refine ⟨w, hw, ?_⟩
    by_cases hwu : w = user
    · subst hwu
      cases hnext : log.history[(log.replica w).applied]? with
      | none => rwa [SharedLog.receive_none hnext]
      | some next =>
        rw [SharedLog.receive_state hnext, OrdinaryLog.receiveEntry_edit,
          SharedLog.receive_eq hnext]
        simpa using hentries
    · rwa [SharedLog.receive_replica_ne _ hwu]

theorem perform (h : KeepsAll members base added log) {action : LogAction}
    (hok : AdmittedNames members log action) :
    KeepsAll members base (added ++ addedNames action) (action.perform path log) := by
  obtain ⟨hordinary, hadds, hkeeps⟩ := hok
  cases action with
  | set user field value => exact h.set hordinary hadds
  | flush user sends => simpa [addedNames] using h.flush hordinary
  | serve user =>
    have hmember : user ∈ members := hordinary.1
    simpa [addedNames] using h.serve hmember
  | receive user =>
    have hmember : user ∈ members := hordinary.1
    have hkept : KeepsAll members base added (LogAction.perform path log (.receive user)) :=
      h.receive hmember hkeeps
    simpa [addedNames] using hkept

lemma final (h : KeepsAll members base added log) {actions : List LogAction}
    (hok : Runs.AllSteps (LogAction.perform path) (AdmittedNames members) log actions) :
    KeepsAll members base (added ++ actions.flatMap addedNames)
      (Runs.final (LogAction.perform path) log actions) := by
  induction actions generalizing added log with
  | nil => simpa using h
  | cons action actions ih =>
    rw [List.flatMap_cons, ← List.append_assoc]
    exact ih (h.perform hok.1) hok.2

end KeepsAll

variable {room : Room} {layer : String} {path : SdfPath} {s : Session}

/-- No reload; the children of the path are only set to the current list with more names behind
it, no edit removes its spec, and what is set in the layer can be transmitted. -/
def AddsChildren (layer : String) (path : SdfPath) (s : Session) : SessionAction → Prop
  | .set user edited editedPath field value => edited = layer →
      (value.isEmpty = false → RoundTrips value) ∧
        (editedPath = path → (layerData (s.client user) layer).hasSpec path = true ∧
          removesSpec field value = false ∧ (field = SdfChildrenKeys.primChildren →
            ∃ names, value = .tokenVector (((layerData (s.client user) layer).get path
              SdfChildrenKeys.primChildren).getTokenVector ++ names)))
  | .reload _ _ _ => False
  | _ => True

/-- Whenever the step applies the children of another client to an acknowledged path, they
contain the children that are there. -/
def ChildrenKept (room : Room) (layer : String) (path : SdfPath) : Session → SessionAction → Prop :=
  AtForeignDeltas room layer path KeepsNames

instance (room : Room) (layer : String) (path : SdfPath) (s : Session) (action : SessionAction) :
    Decidable (ChildrenKept room layer path s action) :=
  inferInstanceAs (Decidable (Runs.AllSteps (LogAction.perform path) (AtForeign KeepsNames) _ _))

/-- The children a member puts into the list. -/
def childrenAdded (room : Room) (layer : String) (path : SdfPath) : SessionAction → List TfToken
  | .set user edited editedPath field value =>
    if user ∈ room.members ∧ edited = layer ∧ editedPath = path ∧
      field = SdfChildrenKeys.primChildren then value.getTokenVector else []
  | _ => []

lemma get_children (f : RenderStudioFileFormat) :
    ((layerData f layer).get path SdfChildrenKeys.primChildren).getTokenVector =
      childrenOf ((layerData f layer).mData.lookup path) := by
  rw [RenderStudioData.get, getFieldValue_eq]
  rfl

lemma AddsChildren.transmissible {action : SessionAction} (h : AddsChildren layer path s action) :
    Transmissible layer action := by
  cases action with
  | set user edited editedPath field value => exact fun hlayer => (h hlayer).1
  | reload user edited file => exact h
  | update user files => trivial
  | serve user => trivial
  | deliver user => trivial

lemma addedNames_logActions (room : Room) (layer : String) (path : SdfPath) (s : Session)
    (action : SessionAction) :
    (logActions room layer path s action).flatMap addedNames =
      childrenAdded room layer path action := by
  by_cases hmember : action.user ∈ room.members
  · unfold logActions
    rw [if_neg (not_not.2 hmember)]
    cases action with
    | set user edited editedPath field value =>
      have hmember' : user ∈ room.members := hmember
      by_cases hedit : edited = layer ∧ editedPath = path
      · simp [childrenAdded, addedNames, hmember', hedit.1, hedit.2]
      · have hnot : ¬(edited = layer ∧ editedPath = path ∧ field = SdfChildrenKeys.primChildren) :=
          fun h => hedit ⟨h.1, h.2.1⟩
        simp [childrenAdded, hmember', hedit, hnot]
    | update user files => simp [childrenAdded, addedNames]
    | reload user edited file => rfl
    | serve user =>
      dsimp only
      split_ifs <;> rfl
    | deliver user => rfl
  · rw [logActions_nonmember path hmember]
    cases action with
    | set user edited editedPath field value =>
      have hmember' : user ∉ room.members := hmember
      simp [childrenAdded, hmember']
    | update user files => rfl
    | reload user edited file => rfl
    | serve user => rfl
    | deliver user => rfl

lemma logActions_addsNames (h : Linked room layer s) {action : SessionAction}
    (hadds : AddsChildren layer path s action) :
    Runs.AllSteps (LogAction.perform path) AddsNames (view room layer path s)
      (logActions room layer path s action) := by
  by_cases hmember : action.user ∈ room.members
  · unfold logActions
    rw [if_neg (not_not.2 hmember)]
    cases action with
    | set user edited editedPath field value =>
      dsimp only
      split_ifs with hedit
      · obtain ⟨rfl, rfl⟩ := hedit
        have hreplica : (view room edited editedPath s).replica user =
            replicaAt edited editedPath (s.client user) (s.uplink user) :=
          view_replica editedPath hmember
        refine ⟨fun hkey => ?_, trivial⟩
        obtain ⟨names, hvalue⟩ := ((hadds rfl).2 rfl).2.2 hkey
        rw [get_children] at hvalue
        exact ⟨names, by rw [hreplica]; exact hvalue⟩
      · trivial
    | update user files =>
      refine ⟨trivial, Runs.allSteps_of_forall (fun log step hstep => ?_) _⟩
      rw [List.eq_of_mem_replicate hstep]
      trivial
    | reload user edited file => trivial
    | serve user =>
      dsimp only
      split_ifs
      · exact ⟨trivial, trivial⟩
      · trivial
    | deliver user => trivial
  · rw [logActions_nonmember path hmember]
    trivial

lemma keepsAll_start {base : HashTable} {client : String → RenderStudioFileFormat}
    (hclient : ∀ user ∈ room.members, HoldsLayer layer user base (client user)) (path : SdfPath) :
    KeepsAll room.members (base.lookup path) []
      (view room layer path (Session.start room client)) := by
  refine ⟨ordinaryLog_start hclient path, fun user hmember => ?_, by simp⟩
  rw [view_start hclient path]
  simp [SharedLog.seen, SharedLog.awaited, hmember]

lemma keepsAll_step (laws : UsdLaws) {base : Option SpecData} {added : List TfToken}
    (hlinked : Linked room layer s) (hsendable : Sendable room layer s)
    (hkeeps : KeepsAll room.members base added (view room layer path s)) {action : SessionAction}
    (hadds : AddsChildren layer path s action) (hkept : ChildrenKept room layer path s action) :
    Linked room layer (s.perform room action) ∧
      KeepsAll room.members base (added ++ childrenAdded room layer path action)
        (view room layer path (s.perform room action)) := by
  obtain ⟨hlinked', hview⟩ := session_step laws hlinked (hsendable.deliverable hadds.transmissible)
  have hordinary : Runs.AllSteps (LogAction.perform path)
      (OrdinaryAction room.members fun _ => True) (view room layer path s)
      (logActions room layer path s action) := by
    refine logActions_ordinary hlinked fun user field value hset hmember => ?_
    subst hset
    obtain ⟨hspec, hremove, -⟩ := (hadds rfl).2 rfl
    unfold RenderStudioData.hasSpec at hspec
    exact ⟨AList.lookup_isSome.2 (of_decide_eq_true hspec), fun _ => ⟨hremove, trivial⟩⟩
  refine ⟨hlinked', ?_⟩
  rw [hview path, ← addedNames_logActions room layer path s action]
  exact hkeeps.final (hordinary.and ((logActions_addsNames hlinked hadds).and hkept))

/-- No added child is lost: in every run in which a list of another client that overwrites the
children of an acknowledged path contains them, once all is quiet every client has every name
that any client added. -/
theorem children_kept_when_overwrites_grow (laws : UsdLaws) (room : Room) (layer : String)
    (path : SdfPath) (base : HashTable) (client : String → RenderStudioFileFormat)
    (hclient : ∀ user ∈ room.members, HoldsLayer layer user base (client user))
    (run : List SessionAction)
    (hadds : Runs.AllSteps (Session.perform room) (AddsChildren layer path) (.start room client)
      run)
    (hkept : Runs.AllSteps (Session.perform room) (ChildrenKept room layer path)
      (.start room client) run) :
    let s := Runs.final (Session.perform room) (.start room client) run
    (∀ user ∈ room.members, Quiet layer s user) →
      ∀ name ∈ run.flatMap (childrenAdded room layer path), ∀ user ∈ room.members,
        name ∈ ((layerData (s.client user) layer).get path
          SdfChildrenKeys.primChildren).getTokenVector := by
  intro s hquiet name hname user hmember
  have hrun : ∀ (run : List SessionAction) (s : Session) (added : List TfToken),
      Linked room layer s → Sendable room layer s →
      KeepsAll room.members (base.lookup path) added (view room layer path s) →
      Runs.AllSteps (Session.perform room)
        (fun s action => AddsChildren layer path s action ∧ ChildrenKept room layer path s action)
        s run →
      Linked room layer (Runs.final (Session.perform room) s run) ∧
        KeepsAll room.members (base.lookup path) (added ++ run.flatMap (childrenAdded room layer path))
          (view room layer path (Runs.final (Session.perform room) s run)) := by
    intro run
    induction run with
    | nil =>
      intro s added hlinked _ hkeeps _
      simpa using ⟨hlinked, hkeeps⟩
    | cons action run ih =>
      intro s added hlinked hsendable hkeeps hok
      obtain ⟨hlinked', hkeeps'⟩ := keepsAll_step laws hlinked hsendable hkeeps hok.1.1 hok.1.2
      rw [List.flatMap_cons, ← List.append_assoc]
      exact ih _ _ hlinked' (hsendable.perform laws hlinked hok.1.1.transmissible) hkeeps' hok.2
  obtain ⟨hlinked, hkeeps⟩ :=
    hrun run _ [] (linked_start hclient) (sendable_start hclient) (keepsAll_start hclient path)
      (hadds.and hkept)
  rw [List.nil_append] at hkeeps
  have hsettled : ∀ w (hw : w ∈ room.members), _ := fun w hw =>
    (hquiet w hw).settled hlinked hw path
  have hentry : ∃ e ∈ (view room layer path s).history, name ∈ childNames e.2 := by
    rcases hkeeps.offered name hname with hhistory | ⟨w, hw, entry, hentry, hmem⟩
    · exact hhistory
    · obtain ⟨-, houtbox, hedit⟩ := hsettled w hw
      rw [houtbox, hedit, List.nil_append, List.mem_singleton] at hentry
      rw [hentry] at hmem
      exact absurd hmem List.not_mem_nil
  obtain ⟨e, he, hmem⟩ := hentry
  obtain ⟨happlied, houtbox, -⟩ := hsettled user hmember
  have hseen := (SharedLog.seen_settled happlied houtbox).1
  have hheld := hkeeps.holds user hmember e.2 ?_ name hmem
  · rw [view_replica path hmember] at hheld
    rw [get_children]
    exact hheld
  · refine List.mem_append_left _ (List.mem_append_left _ ?_)
    rw [hseen]
    exact List.mem_map_of_mem he

end

section

attribute [local instance] Usd.sample

lemma adds_names {s : Session} {user : String} {names : List TfToken}
    (hspec : (layerData (s.client user) "L").hasSpec "/a" = true)
    (hnames : ∃ new, names = ((layerData (s.client user) "L").get "/a"
      SdfChildrenKeys.primChildren).getTokenVector ++ new) :
    AddsChildren "L" "/a" s (.set user "L" "/a" "primChildren" (.tokenVector names)) := by
  have hplain : Plain (.tokenVector names) := .leaf rfl
  obtain ⟨new, rfl⟩ := hnames
  intro _
  refine ⟨fun _ => hplain.relayed.roundTrips sample_laws, fun _ => ?_⟩
  exact ⟨hspec, rfl, fun _ => ⟨new, rfl⟩⟩

/-- The second user adds a child after receiving that of the first one. -/
theorem children_kept_when_overwrites_grow_in_turn :
    let run : List SessionAction :=
      [.set "A" "L" "/a" "primChildren" (.tokenVector ["a"]), .update "A" noFiles, .serve "A",
        .deliver "B", .deliver "B", .update "B" noFiles,
        .set "B" "L" "/a" "primChildren" (.tokenVector ["a", "b"]), .update "B" noFiles, .serve "B",
        .deliver "A", .deliver "A", .deliver "A", .update "A" noFiles, .deliver "B",
        .update "B" noFiles]
    let s := Runs.final (Session.perform twoUsers) (.start twoUsers editor) run
    ∀ name ∈ run.flatMap (childrenAdded twoUsers "L" "/a"), ∀ user ∈ twoUsers.members,
      name ∈ ((layerData (s.client user) "L").get "/a" "primChildren").getTokenVector := by
  intro run s
  refine children_kept_when_overwrites_grow sample_laws twoUsers "L" "/a" onePrim editor
    (fun user _ => editor_holdsLayer user) run ?_ (by decide) (by decide)
  refine ⟨adds_names (by decide) ⟨["a"], by decide⟩, trivial, trivial, trivial, trivial, trivial,
    adds_names (by decide) ⟨["b"], by decide⟩, ?_⟩
  exact ⟨trivial, trivial, trivial, trivial, trivial, trivial, trivial, trivial, trivial⟩

/-- Two users add a child at the same time. The one whose list is numbered first has its path
acknowledged when the other list arrives, which overwrites its own. -/
theorem concurrent_child_lost :
    let run : List SessionAction :=
      [.set "A" "L" "/a" "primChildren" (.tokenVector ["a"]), .update "A" noFiles,
        .set "B" "L" "/a" "primChildren" (.tokenVector ["b"]), .update "B" noFiles,
        .serve "A", .serve "B", .deliver "A", .deliver "A", .deliver "A", .update "A" noFiles,
        .deliver "B", .deliver "B", .deliver "B", .update "B" noFiles]
    let start := Session.start twoUsers editor
    let s := Runs.final (Session.perform twoUsers) start run
    let children (user : String) :=
      ((layerData (s.client user) "L").get "/a" "primChildren").getTokenVector
    Runs.AllSteps (Session.perform twoUsers) (AddsChildren "L" "/a") start run ∧
      (∀ user ∈ twoUsers.members, HoldsLayer "L" user onePrim (editor user)) ∧
      (∀ user ∈ twoUsers.members, Quiet "L" s user) ∧
      "a" ∈ run.flatMap (childrenAdded twoUsers "L" "/a") ∧ "a" ∉ children "A" ∧
      "a" ∈ children "B" := by
  intro run start s children
  refine ⟨⟨adds_names (by decide) ⟨["a"], by decide⟩, trivial,
    adds_names (by decide) ⟨["b"], by decide⟩, ?_⟩, fun user _ => editor_holdsLayer user,
    by decide, by decide, by decide, by decide⟩
  exact ⟨trivial, trivial, trivial, trivial, trivial, trivial, trivial, trivial, trivial, trivial,
    trivial, trivial⟩

end

end RenderStudioKit.Proofs
