import RenderStudioKit.Proofs.SessionStart

/-!
# Convergence

A client works on the entries it has seen, then its own entries it awaits, then its local
edits: the value it holds is the last one of these, as long as the entries of others are
skipped for the fields it has edited itself and for no others. The code decides this by path
and forgets it at the first acknowledge, so the two agree in some runs and not in others.
-/

namespace RenderStudioKit.Proofs

open PathState

section

variable [Usd]

/-- For each field of the delta, the path is unacknowledged exactly if the client has an edit of
the field pending itself. -/
def SkipAgrees (log : PathLog) (user : String) (delta : SpecData) : Prop :=
  ∀ field ∈ delta.fields.map Prod.fst,
    (log.replica user).state.unacknowledged = true ↔ FieldPending log user field

instance (log : PathLog) (user : String) (delta : SpecData) :
    Decidable (SkipAgrees log user delta) :=
  inferInstanceAs (Decidable (∀ field ∈ delta.fields.map Prod.fst, _ = true ↔ _))

/-- Neither children nor the type of a prim nor a transformation. -/
def PlainField (path : SdfPath) (field : TfToken × VtValue) : Prop :=
  field.1 ≠ SdfChildrenKeys.primChildren ∧ field.1 ≠ SdfFieldKeys.typeName ∧
    ¬requireForceApply path

/-- Every client holds the last value of what it works on. -/
structure Follows (members : List String) (path : SdfPath) (base : Option SpecData)
    (log : PathLog) : Prop where
  ordinary : OrdinaryLog members (PlainField path) base log
  value : ∀ user ∈ members, ∀ field,
    fieldAt (log.replica user).state.spec field =
      lastValue field (log.seen user ++ log.awaited user ++ [(log.replica user).state.edit])
        (fieldAt base field)

namespace Follows

variable {members : List String} {path : SdfPath} {base : Option SpecData} {log : PathLog}

lemma set (h : Follows members path base log) {user : String} {field : TfToken} {value : VtValue}
    (hvalue : value.isEmpty = false)
    (hok : OrdinaryAction members (PlainField path) log (.set user field value)) :
    Follows members path base (log.edit user (PathState.set field value)) := by
  refine ⟨h.ordinary.set hok, fun w hw key => ?_⟩
  rw [SharedLog.seen_edit, SharedLog.awaited_edit]
  by_cases hwu : w = user
  · subst hwu
    have hset : (log.replica w).state.set field value =
        (log.replica w).state.setField field value := by simp [PathState.set, hvalue]
    obtain ⟨hspec, hedit⟩ := setField_field hok.2.1 field value key
    rw [SharedLog.edit_state, hset, hspec, lastValue_append, lastValue_cons, lastValue_nil, hedit]
    by_cases hkey : key = field
    · simp [hkey]
    · rw [if_neg hkey, if_neg hkey, h.value w hw key, lastValue_append, lastValue_cons, lastValue_nil]
  · rw [SharedLog.edit_replica_ne _ hwu]
    exact h.value w hw key

lemma flush (h : Follows members path base log) {user : String} {sends : Bool}
    (hok : OrdinaryAction members (PlainField path) log (.flush user sends)) :
    Follows members path base (LogAction.perform path log (.flush user sends)) := by
  refine ⟨h.ordinary.perform hok, fun w hw key => ?_⟩
  have hbefore := h.value w hw key
  cases sends with
  | true =>
    rw [perform_flush_sent, SharedLog.send_state, SharedLog.seen_send, SharedLog.seen_edit]
    by_cases hwu : w = user
    · subst hwu
      rw [SharedLog.edit_state, SharedLog.awaited_send, SharedLog.awaited_edit, flush_spec,
        flush_edit, hbefore, ← List.append_assoc, lastValue_append _ _ [none]]
      rfl
    · rw [SharedLog.awaited_send_ne _ hwu, SharedLog.awaited_edit,
        SharedLog.edit_replica_ne _ hwu]
      exact hbefore
  | false =>
    rw [perform_flush_silent, SharedLog.seen_edit, SharedLog.awaited_edit]
    by_cases hwu : w = user
    · subst hwu
      have hedit : (log.replica w).state.edit = none := hok.2 rfl
      rw [SharedLog.edit_state, flush_spec, flush_edit, hbefore, hedit]
    · rw [SharedLog.edit_replica_ne _ hwu]
      exact hbefore

/-- The fields of another client's entry, stored or skipped. -/
lemma foreign_value (h : Follows members path base log) {user author : String}
    (hmember : user ∈ members) {delta : SpecData}
    (hnext : log.history[(log.replica user).applied]? = some (author, some delta))
    (hskip : SkipAgrees log user delta) (key : TfToken) :
    fieldAt (entryAt (log.replica user).state.unacknowledged path delta
        (log.replica user).state.spec) key =
      lastValue key (log.seen user ++ [some delta] ++
        (log.awaited user ++ [(log.replica user).state.edit])) (fieldAt base key) := by
  obtain ⟨hbase, hordinary⟩ := h.ordinary.next hnext
  have hspec : (log.replica user).state.spec.isSome :=
    (h.ordinary.present user hmember).trans hbase
  have hbefore := h.value user hmember key
  rw [List.append_assoc, lastValue_append] at hbefore
  rw [fieldAt_entryAt hordinary.storable hordinary.nodup hspec,
    lastValue_append key (log.seen user ++ [some delta]), lastValue_append key (log.seen user) _,
    lastValue_cons, lastValue_nil, Option.bind_some]
  cases hlookup : delta.fields.lookup key with
  | none => simp [hbefore]
  | some value =>
    have hmem : (key, value) ∈ delta.fields := mem_of_lookup hlookup
    obtain ⟨hchildren, -, hforce⟩ := hordinary.allowed _ hmem
    have hagrees := hskip key (List.mem_map_of_mem hmem)
    have hskipped : skipped (log.replica user).state.unacknowledged path key =
        (log.replica user).state.unacknowledged := by
      simp [skipped, hforce, hchildren]
    rw [Option.elim_some, hskipped, Option.some_or]
    by_cases hunack : (log.replica user).state.unacknowledged = true
    · rw [if_pos hunack, hbefore]
      exact lastValue_set (hagrees.1 hunack) _ _
    · have hunset : ∀ entry ∈ log.awaited user ++ [(log.replica user).state.edit],
          ¬Sets key entry := by
        intro entry hentry hsets
        exact hunack (hagrees.2 ⟨entry, hentry, hsets⟩)
      rw [if_neg hunack, lastValue_unset hunset]
      simp [storedValue, hchildren]

lemma receive (h : Follows members path base log) {user : String} (hmember : user ∈ members)
    (hskip : AtForeign SkipAgrees log (.receive user)) :
    Follows members path base (log.receive user (receiveEntry path)) := by
  refine ⟨h.ordinary.receive user, fun w hw key => ?_⟩
  have hbefore := h.value w hw key
  cases hnext : log.history[(log.replica user).applied]? with
  | none => rwa [SharedLog.receive_none hnext]
  | some next =>
    obtain ⟨author, entry⟩ := next
    by_cases hwu : w = user
    · subst hwu
      rw [SharedLog.receive_state hnext, SharedLog.seen_receive hnext,
        OrdinaryLog.receiveEntry_edit]
      by_cases hown : author = w
      · have hawaited : log.awaited w =
            entry :: (log.receive w (receiveEntry path)).awaited w :=
          SharedLog.awaited_receive_own hnext hown
        rw [decide_eq_true hown, OrdinaryLog.receiveEntry_own_spec, hbefore, hawaited]
        simp
      · rw [decide_eq_false hown, SharedLog.awaited_receive_foreign hnext hown, List.append_assoc]
        cases entry with
        | none =>
          rw [List.append_assoc, lastValue_append] at hbefore
          rw [lastValue_append key (log.seen w ++ [none]), lastValue_append key (log.seen w) [none]]
          exact hbefore
        | some delta =>
          have hordinary := (h.ordinary.next hnext).2
          rw [OrdinaryLog.receiveEntry_foreign_spec hordinary.nonempty]
          exact h.foreign_value hw hnext (hskip.holds hnext hown) key
    · rw [SharedLog.receive_replica_ne _ hwu]
      have hseen : (log.receive user (receiveEntry path)).seen w = log.seen w := by
        simp [SharedLog.seen, SharedLog.receive_replica_ne _ hwu]
      have hawaited : (log.receive user (receiveEntry path)).awaited w = log.awaited w := by
        simp [SharedLog.awaited, SharedLog.receive_replica_ne _ hwu]
      rw [hseen, hawaited]
      exact hbefore

/-- The steps of the log that convergence admits. -/
def Admitted (members : List String) (path : SdfPath) (log : PathLog) (action : LogAction) : Prop :=
  OrdinaryAction members (PlainField path) log action ∧
    (∀ user field value, action = .set user field value → value.isEmpty = false) ∧
    AtForeign SkipAgrees log action

theorem perform (h : Follows members path base log) {action : LogAction}
    (hok : Admitted members path log action) :
    Follows members path base (action.perform path log) := by
  obtain ⟨hordinary, hvalue, hskip⟩ := hok
  cases action with
  | set user field value => exact h.set (hvalue user field value rfl) hordinary
  | flush user sends => exact h.flush hordinary
  | serve user =>
    refine ⟨h.ordinary.perform hordinary, fun w hw key => ?_⟩
    have hbounded := h.ordinary.bounded
    unfold LogAction.perform
    simp only [SharedLog.seen_serve (hbounded _), SharedLog.awaited_serve (hbounded _),
      SharedLog.serve_state]
    exact h.value w hw key
  | receive user => exact h.receive hordinary.1 hskip

lemma settled (h : Follows members path base log) {user : String} (hmember : user ∈ members)
    (happlied : (log.replica user).applied = log.history.length)
    (houtbox : (log.replica user).outbox = []) (hedit : (log.replica user).state.edit = none)
    (field : TfToken) :
    fieldAt (log.replica user).state.spec field =
      lastValue field (log.history.map Prod.snd) (fieldAt base field) := by
  obtain ⟨hseen, hawaited⟩ := SharedLog.seen_settled happlied houtbox
  rw [h.value user hmember field, hseen, hawaited, hedit, List.append_nil, lastValue_append]
  rfl

lemma final (h : Follows members path base log) {actions : List LogAction}
    (hok : Runs.AllSteps (LogAction.perform path) (Admitted members path) log actions) :
    Follows members path base (Runs.final (LogAction.perform path) log actions) :=
  (Runs.allStates_of_invariant (fun _ _ h hok => h.perform hok) h hok).last

end Follows

variable {room : Room} {layer : String} {base : HashTable} {s : Session}

/-- No reload; what is set in the layer is a plain field of an existing spec, with a value that
is not empty and that can be transmitted. -/
def Editing (layer : String) (s : Session) : SessionAction → Prop
  | .set user edited path field value => edited = layer →
      (layerData (s.client user) layer).hasSpec path = true ∧ value.isEmpty = false ∧
        RoundTrips value ∧ PlainField path (field, value)
  | .reload _ _ _ => False
  | _ => True

/-- At every path, skipping agrees with what is pending whenever the step applies a delta of
another client. -/
def SkipsAgree (room : Room) (layer : String) (s : Session) (action : SessionAction) : Prop :=
  ∀ path, AtForeignDeltas room layer path SkipAgrees s action

/-- Every client holds what the last delta with the field says, or the base value. -/
def Converged (room : Room) (layer : String) (base : HashTable) (s : Session) : Prop :=
  ∀ user ∈ room.members, ∀ path field,
    (layerData (s.client user) layer).getFieldValue path field =
      lastValue field ((layerHistory room layer s).map (·.updates.lookup path))
        (fieldAt (base.lookup path) field)

lemma Editing.transmissible {action : SessionAction} (h : Editing layer s action) :
    Transmissible layer action := by
  cases action with
  | set user edited path field value => exact fun hlayer _ => (h hlayer).2.2.1
  | reload user edited file => exact h
  | update user files => trivial
  | serve user => trivial
  | deliver user => trivial

lemma removesSpec_plain {path : SdfPath} {field : TfToken} {value : VtValue}
    (h : PlainField path (field, value)) : removesSpec field value = false := by
  unfold removesSpec
  split
  · simp [h.2.1]
  · rfl

lemma logActions_admitted (h : Linked room layer s) {action : SessionAction}
    (hediting : Editing layer s action) (hskips : SkipsAgree room layer s action) (path : SdfPath) :
    Runs.AllSteps (LogAction.perform path) (Follows.Admitted room.members path)
      (view room layer path s) (logActions room layer path s action) := by
  have hordinary : Runs.AllSteps (LogAction.perform path)
      (OrdinaryAction room.members (PlainField path)) (view room layer path s)
      (logActions room layer path s action) := by
    refine logActions_ordinary h fun user field value hset hmember => ?_
    subst hset
    obtain ⟨hspec, -, -, hplain⟩ := hediting rfl
    unfold RenderStudioData.hasSpec at hspec
    exact ⟨AList.lookup_isSome.2 (of_decide_eq_true hspec),
      fun _ => ⟨removesSpec_plain hplain, hplain⟩⟩
  have hvalues : Runs.AllSteps (LogAction.perform path)
      (fun _ step => ∀ user field value, step = .set user field value → value.isEmpty = false)
      (view room layer path s) (logActions room layer path s action) := by
    refine Runs.allSteps_of_forall (fun _ step hstep user field value hset => ?_) _
    subst hset
    obtain rfl := eq_set_of_mem_logActions hstep
    exact (hediting rfl).2.1
  exact hordinary.and (hvalues.and (hskips path))

lemma follows_start {client : String → RenderStudioFileFormat}
    (hclient : ∀ user ∈ room.members, HoldsLayer layer user base (client user)) (path : SdfPath) :
    Follows room.members path (base.lookup path)
      (view room layer path (Session.start room client)) := by
  refine ⟨ordinaryLog_start hclient path, fun user hmember field => ?_⟩
  rw [view_start hclient path]
  simp [SharedLog.seen, SharedLog.awaited, hmember]

/-- What the client has to apply comes from others, and it skips of it what it should. -/
structure Prepared (log : PathLog) (user : String) : Prop where
  noEdit : (log.replica user).state.edit = none
  foreign : ∀ e ∈ log.history.drop (log.replica user).applied, e.1 ≠ user
  agrees : ∀ e ∈ log.history.drop (log.replica user).applied, ∀ delta ∈ e.2,
    (delta.fields = [] → (log.replica user).state.unacknowledged = false) ∧
      SkipAgrees log user delta

namespace Prepared

variable {log : PathLog} {user : String}

/-- What others send changes neither what is pending nor whether the path is acknowledged. -/
lemma receive (h : Prepared log user) (path : SdfPath) :
    Prepared (log.receive user (receiveEntry path)) user := by
  cases hnext : log.history[(log.replica user).applied]? with
  | none => rwa [SharedLog.receive_none hnext]
  | some next =>
    obtain ⟨author, entry⟩ := next
    have hmem : (author, entry) ∈ log.history.drop (log.replica user).applied := by
      rw [SharedLog.drop_applied hnext]
      exact List.mem_cons_self
    have hforeign : author ≠ user := h.foreign _ hmem
    have hstate : ((log.receive user (receiveEntry path)).replica user).state =
        receiveEntry path (decide (author = user)) entry (log.replica user).state :=
      SharedLog.receive_state hnext
    have hunacknowledged :
        ((log.receive user (receiveEntry path)).replica user).state.unacknowledged =
          (log.replica user).state.unacknowledged := by
      rw [hstate, receiveEntry, receive_unacknowledged]
      cases entry with
      | none => simp
      | some delta =>
        by_cases hfields : delta.fields = []
        · simp [entrySlot, hfields, hforeign, (h.agrees _ hmem delta rfl).1 hfields]
        · simp [entrySlot, hfields, hforeign]
    have hedit : ((log.receive user (receiveEntry path)).replica user).state.edit =
        (log.replica user).state.edit := by
      rw [hstate, OrdinaryLog.receiveEntry_edit]
    have hpending : ∀ field, FieldPending (log.receive user (receiveEntry path)) user field ↔
        FieldPending log user field := by
      intro field
      unfold FieldPending
      rw [SharedLog.awaited_receive_foreign hnext hforeign, hedit]
    refine ⟨hedit.trans h.noEdit, fun e he => h.foreign e (SharedLog.mem_drop_receive he), ?_⟩
    intro e he delta hdelta
    obtain ⟨hempty, hagrees⟩ := h.agrees e (SharedLog.mem_drop_receive he) delta hdelta
    refine ⟨fun hfields => hunacknowledged.trans (hempty hfields), fun field hfield => ?_⟩
    rw [hunacknowledged, hpending]
    exact hagrees field hfield

lemma flush (h : Prepared log user) (path : SdfPath) :
    Prepared (LogAction.perform path log (.flush user false)) user := by
  rwa [perform_flush_silent, SharedLog.edit_eq_self]
  rw [PathState.flush, ← h.noEdit]

end Prepared

/-- A client without edits of the layer that were not sent skips what it should if the deltas it
has to apply come from others and skipping agrees with what is pending before. -/
lemma skipsAgree_prepared {user : String} (files : String → Option HashTable)
    (hlocals : (layerData (s.client user) layer).mLocalDeltas = ∅)
    (hhistory : ∀ v ∈ (layerHistory room layer s).drop
      (layerData (s.client user) layer).mLatestAppliedSequence, v.user ≠ user ∧
      ∀ path ∈ v.updates.keys, ∀ delta ∈ v.updates.lookup path,
        (delta.fields = [] → path ∉ (layerData (s.client user) layer).mUnacknowledgedFields) ∧
          SkipAgrees (view room layer path s) user delta) :
    SkipsAgree room layer s (.update user files) := by
  intro path
  unfold AtForeignDeltas
  by_cases hmember : user ∈ room.members
  · have hreplica : (view room layer path s).replica user =
        replicaAt layer path (s.client user) (s.uplink user) := view_replica path hmember
    have hremaining : ∀ e ∈ (view room layer path s).history.drop
        ((view room layer path s).replica user).applied, ∃ v ∈ (layerHistory room layer s).drop
          (layerData (s.client user) layer).mLatestAppliedSequence,
          (v.user, v.updates.lookup path) = e := by
      intro e he
      rw [hreplica, view, ← List.map_drop] at he
      exact List.mem_map.1 he
    have hprepared : Prepared (view room layer path s) user := by
      refine ⟨?_, fun e he => ?_, fun e he delta hdelta => ?_⟩
      · rw [hreplica]
        simp [replicaAt, pathState, hlocals]
      · obtain ⟨v, hv, rfl⟩ := hremaining e he
        exact (hhistory v hv).1
      · obtain ⟨v, hv, rfl⟩ := hremaining e he
        have hkey : path ∈ v.updates.keys :=
          AList.lookup_isSome.1 (Option.isSome_iff_exists.2 ⟨delta, hdelta⟩)
        obtain ⟨hempty, hagrees⟩ := (hhistory v hv).2 path hkey delta hdelta
        refine ⟨fun hfields => ?_, hagrees⟩
        rw [hreplica]
        simpa [replicaAt, pathState, RenderStudioData.isUnacknowledged] using hempty hfields
    have hkeep : ∀ log, ∀ step ∈ List.replicate (accumulatedUpdates (s.client user) layer).length
        (LogAction.receive user), Prepared log user → Prepared (step.perform path log) user := by
      intro log step hstep h
      rw [List.eq_of_mem_replicate hstep]
      exact h.receive path
    rw [logActions_update path hmember, hlocals]
    refine ⟨trivial, Runs.allSteps_of_invariant hkeep (fun log step hstep h => ?_)
      (hprepared.flush path)⟩
    rw [List.eq_of_mem_replicate hstep]
    refine atForeign_receive fun author delta _ hnext => ?_
    exact (h.agrees (author, some delta) (SharedLog.drop_applied hnext ▸ List.mem_cons_self)
      delta rfl).2
  · rw [logActions_nonmember path hmember]
    trivial

lemma skipsAgree_listening {user : String} (files : String → Option HashTable)
    (hunacknowledged : (layerData (s.client user) layer).mUnacknowledgedFields = ∅)
    (hlocals : (layerData (s.client user) layer).mLocalDeltas = ∅) (huplink : s.uplink user = [])
    (hhistory : ∀ v ∈ (layerHistory room layer s).drop
      (layerData (s.client user) layer).mLatestAppliedSequence, v.user ≠ user) :
    SkipsAgree room layer s (.update user files) := by
  by_cases hmember : user ∈ room.members
  · refine skipsAgree_prepared files hlocals fun v hv => ⟨hhistory v hv, fun path _ delta _ => ?_⟩
    have hnone : ((layerHistory room layer s).drop
        (layerData (s.client user) layer).mLatestAppliedSequence).filter
          (fun v => decide (v.user = user)) = [] :=
      List.filter_eq_nil_iff.2 fun v hv => by simpa using hhistory v hv
    have hawaited : (view room layer path s).awaited user = [] := by
      unfold SharedLog.awaited
      rw [view_replica path hmember]
      simpa [view, replicaAt, huplink, ← List.map_drop, List.filter_map, Function.comp_def]
        using hnone
    refine ⟨fun _ => by simp [hunacknowledged], fun field _ => iff_of_false ?_ ?_⟩
    · rw [view_replica path hmember]
      simp [replicaAt, pathState, RenderStudioData.isUnacknowledged, hunacknowledged]
    · rintro ⟨entry, hentry, hsets⟩
      rw [hawaited, view_replica path hmember] at hentry
      simp only [replicaAt, pathState, hlocals, List.nil_append, List.mem_singleton] at hentry
      subst hentry
      simp [Sets] at hsets
  · intro path
    unfold AtForeignDeltas
    rw [logActions_nonmember path hmember]
    trivial

/-- Convergence of concurrent edits: in every run in which skipping agrees with what is pending,
whenever all is quiet every client holds, for every field, the value of the last delta the
server numbered that has the field, or the base value. -/
theorem converged_when_skips_agree (laws : UsdLaws) (room : Room) (layer : String)
    (base : HashTable) (client : String → RenderStudioFileFormat)
    (hclient : ∀ user ∈ room.members, HoldsLayer layer user base (client user))
    (run : List SessionAction)
    (hediting : Runs.AllSteps (Session.perform room) (Editing layer) (.start room client) run)
    (hskips : Runs.AllSteps (Session.perform room) (SkipsAgree room layer) (.start room client)
      run) :
    Runs.AllStates (Session.perform room)
      (fun s => (∀ user ∈ room.members, Quiet layer s user) → Converged room layer base s)
      (.start room client) run := by
  let Inv (s : Session) : Prop := (Linked room layer s ∧ Sendable room layer s) ∧ ∀ path,
    Follows room.members path (base.lookup path) (view room layer path s)
  have hstart : Inv (.start room client) :=
    ⟨⟨linked_start hclient, sendable_start hclient⟩, follows_start hclient⟩
  have hkeep : ∀ s action, Inv s → Editing layer s action ∧ SkipsAgree room layer s action →
      Inv (Session.perform room s action) := by
    rintro s action ⟨⟨hlinked, hsendable⟩, hfollows⟩ ⟨hedit, hskip⟩
    obtain ⟨hlinked', hview⟩ := session_step laws hlinked (hsendable.deliverable hedit.transmissible)
    refine ⟨⟨hlinked', hsendable.perform laws hlinked hedit.transmissible⟩, fun path => ?_⟩
    rw [hview path]
    exact (hfollows path).final (logActions_admitted hlinked hedit hskip path)
  refine (Runs.allStates_of_invariant hkeep hstart (hediting.and hskips)).mono ?_
  rintro s ⟨⟨hlinked, -⟩, hfollows⟩ hquiet user hmember path field
  obtain ⟨happlied, houtbox, hedit⟩ := (hquiet user hmember).settled hlinked hmember path
  have hvalue := (hfollows path).settled hmember happlied houtbox hedit field
  rw [view_replica path hmember] at hvalue
  rw [getFieldValue_eq]
  refine hvalue.trans ?_
  simp only [view, List.map_map]
  rfl

end

section

attribute [local instance] Usd.sample

lemma editing_string {s : Session} {user field text : String}
    (hspec : (layerData (s.client user) "L").hasSpec "/a" = true)
    (hchildren : field ≠ SdfChildrenKeys.primChildren) (htype : field ≠ SdfFieldKeys.typeName) :
    Editing "L" s (.set user "L" "/a" field (.string text)) := by
  have hplain : Plain (.string text) := .leaf rfl
  exact fun _ => ⟨hspec, rfl, hplain.relayed.roundTrips sample_laws, hchildren, htype, by decide⟩

/-- Two users set the same field. The edit numbered last wins: its user skips the other edit, which
is numbered first, and the other user takes it in. -/
theorem converged_when_skips_agree_two_editors :
    let run : List SessionAction :=
      [.set "A" "L" "/a" "kind" (.string "x"), .update "A" noFiles,
        .set "B" "L" "/a" "kind" (.string "y"), .update "B" noFiles, .serve "A", .deliver "A",
        .deliver "A", .update "A" noFiles, .deliver "B", .deliver "B", .update "B" noFiles,
        .serve "B", .deliver "B", .update "B" noFiles, .deliver "A", .update "A" noFiles]
    let start := Session.start twoUsers editor
    Runs.AllStates (Session.perform twoUsers)
        (fun s => (∀ user ∈ twoUsers.members, Quiet "L" s user) →
          Converged twoUsers "L" onePrim s) start run ∧
      (∀ user ∈ twoUsers.members, Quiet "L" (Runs.final (Session.perform twoUsers) start run) user) ∧
      ∀ user ∈ twoUsers.members, ((layerData
        ((Runs.final (Session.perform twoUsers) start run).client user) "L").get "/a"
          "kind").getStdString = "y" := by
  intro run start
  refine ⟨converged_when_skips_agree sample_laws twoUsers "L" onePrim editor
    (fun user _ => editor_holdsLayer user) run ?_ ?_, by decide, by decide⟩
  · refine ⟨editing_string (by decide) (by decide) (by decide), trivial,
      editing_string (by decide) (by decide) (by decide), trivial, ?_⟩
    exact ⟨trivial, trivial, trivial, trivial, trivial, trivial, trivial, trivial, trivial, trivial,
      trivial, trivial, trivial⟩
  · have hsilent {s : Session} {action : SessionAction}
        (h : ∀ user files, action ≠ .update user files) : SkipsAgree twoUsers "L" s action :=
      fun _ => atForeignDeltas_silent h
    refine ⟨hsilent (by simp), fun _ => atForeignDeltas_own noFiles (by decide), hsilent (by simp),
      fun _ => atForeignDeltas_own noFiles (by decide), hsilent (by simp), hsilent (by simp),
      hsilent (by simp), fun _ => atForeignDeltas_own noFiles (by decide), hsilent (by simp),
      hsilent (by simp), ?_, hsilent (by simp), hsilent (by simp),
      fun _ => atForeignDeltas_own noFiles (by decide), hsilent (by simp), ?_, trivial⟩
    · exact skipsAgree_prepared noFiles (by rfl) (by decide)
    · exact skipsAgree_listening noFiles (by decide) (by rfl) (by rfl) (by decide)

/-- Both users edit different fields of one prim. The one whose edit comes second has the path
unacknowledged when the first edit arrives and skips it, though it never edited that field. -/
theorem edit_of_another_field_lost :
    let run : List SessionAction :=
      [.set "A" "L" "/a" "kind" (.string "x"), .update "A" noFiles, .serve "A",
        .set "B" "L" "/a" "doc" (.string "y"), .update "B" noFiles, .deliver "B", .deliver "B",
        .update "B" noFiles, .serve "B", .deliver "B", .update "B" noFiles, .deliver "A",
        .deliver "A", .deliver "A", .update "A" noFiles]
    let start := Session.start twoUsers editor
    let s := Runs.final (Session.perform twoUsers) start run
    Runs.AllSteps (Session.perform twoUsers) (Editing "L") start run ∧
      (∀ user ∈ twoUsers.members, HoldsLayer "L" user onePrim (editor user)) ∧
      (∀ user ∈ twoUsers.members, Quiet "L" s user) ∧ ¬Converged twoUsers "L" onePrim s := by
  intro run start s
  refine ⟨?_, fun user _ => editor_holdsLayer user, by decide, ?_⟩
  · refine ⟨editing_string (by decide) (by decide) (by decide), trivial, trivial,
      editing_string (by decide) (by decide) (by decide), ?_⟩
    exact ⟨trivial, trivial, trivial, trivial, trivial, trivial, trivial, trivial, trivial, trivial,
      trivial, trivial⟩
  · intro hconverged
    have hkind := congrArg Option.isSome (hconverged "B" (by decide) "/a" "kind")
    revert hkind
    decide

end

end RenderStudioKit.Proofs
