import Mathlib.Data.List.ReduceOption
import RenderStudioKit.Proofs.PathLog

/-!
# Replaying the log of a path

Whoever reads the file and applies all deltas in order, as a client does that edits nothing,
replays the log. A client that edits agrees with the replay of the entries it has seen, its own
ones it awaits and its local edits, as long as it stores the foreign fields the replay keeps.
-/

namespace RenderStudioKit.Proofs

open PathState

variable [Usd]

/-- The entries one after the other on the spec of the path. -/
def replayAll (path : SdfPath) (entries : List (Option SpecData)) (spec : Option SpecData) :
    Option SpecData :=
  entries.foldl (fun spec entry => entry.elim spec fun delta => entryAt false path delta spec) spec

/-- Both specs exist or none, with the same type and the same values. -/
structure SameSpec (spec spec' : Option SpecData) : Prop where
  specType : spec.map SpecData.specType = spec'.map SpecData.specType
  fields : ∀ field, fieldAt spec field = fieldAt spec' field

section

variable {path : SdfPath} {spec spec' : Option SpecData}

lemma replayAll_append (entries entries' : List (Option SpecData)) :
    replayAll path (entries ++ entries') spec = replayAll path entries' (replayAll path entries spec) :=
  List.foldl_append

@[simp] lemma replayAll_nil : replayAll path [] spec = spec := rfl

@[simp] lemma replayAll_none (entries : List (Option SpecData)) :
    replayAll path (none :: entries) spec = replayAll path entries spec := rfl

@[simp] lemma replayAll_some (delta : SpecData) (entries : List (Option SpecData)) :
    replayAll path (some delta :: entries) spec =
      replayAll path entries (entryAt false path delta spec) := rfl

lemma replayAll_eq_foldl (entries : List (Option SpecData)) :
    replayAll path entries spec =
      entries.reduceOption.foldl (fun spec delta => entryAt false path delta spec) spec := by
  induction entries generalizing spec with
  | nil => rfl
  | cons entry entries ih =>
    cases entry with
    | none => rw [replayAll_none, ih, List.reduceOption_cons_of_none]
    | some delta => rw [replayAll_some, ih, List.reduceOption_cons_of_some, List.foldl_cons]

lemma replayAll_nones {entries : List (Option SpecData)} (h : ∀ entry ∈ entries, entry = none) :
    replayAll path entries spec = spec := by
  induction entries with
  | nil => rfl
  | cons entry entries ih =>
    obtain rfl := h entry List.mem_cons_self
    exact ih fun e he => h e (List.mem_cons_of_mem _ he)

@[refl] lemma SameSpec.refl (spec : Option SpecData) : SameSpec spec spec :=
  ⟨rfl, fun _ => rfl⟩

lemma SameSpec.isSome_eq (h : SameSpec spec spec') : spec.isSome = spec'.isSome := by
  have hsome := congrArg Option.isSome h.specType
  rwa [Option.isSome_map, Option.isSome_map] at hsome

lemma createAt_specType (specType : SdfSpecType) (spec : Option SpecData) :
    (createAt specType spec).map SpecData.specType =
      if (spec.map SpecData.specType).getD .unknown = .unknown ∧ specType ≠ .unknown then
        some specType
      else spec.map SpecData.specType := by
  unfold createAt
  split_ifs <;> rfl

lemma setAt_specType (field : TfToken) (value : VtValue) (spec : Option SpecData) :
    (setAt field value spec).map SpecData.specType = spec.map SpecData.specType := by
  cases spec <;> rfl

lemma sameSpec_createAt (h : SameSpec spec spec') (specType : SdfSpecType) :
    SameSpec (createAt specType spec) (createAt specType spec') := by
  refine ⟨?_, fun field => ?_⟩
  · rw [createAt_specType, createAt_specType, h.specType]
  · rw [fieldAt_createAt, fieldAt_createAt]
    exact h.fields field

lemma sameSpec_setAt (h : SameSpec spec spec') {value : VtValue}
    (hvalue : value.isEmpty = false) (key : TfToken) :
    SameSpec (setAt key value spec) (setAt key value spec') := by
  refine ⟨?_, fun field => ?_⟩
  · rw [setAt_specType, setAt_specType]
    exact h.specType
  · by_cases hfield : field = key
    · subst hfield
      have hsome := h.isSome_eq
      rw [fieldAt_setAt hvalue, fieldAt_setAt hvalue]
      cases spec <;> cases spec' <;> simp_all
    · rw [fieldAt_setAt_ne hfield, fieldAt_setAt_ne hfield]
      exact h.fields field

lemma sameSpec_entryAt (h : SameSpec spec spec') {delta : SpecData}
    (hvalues : ∀ f ∈ delta.fields, f.2.isEmpty = false) :
    SameSpec (entryAt false path delta spec) (entryAt false path delta spec') := by
  unfold entryAt
  generalize delta.fields = fields at hvalues
  induction fields generalizing spec spec' with
  | nil => exact h
  | cons f fields ih =>
    refine ih ?_ fun g hg => hvalues g (List.mem_cons_of_mem f hg)
    have hcreated := sameSpec_createAt h delta.specType
    unfold deltaAt
    simp only [skipped, Bool.false_and, Bool.false_eq_true, if_false]
    split_ifs
    · exact .refl none
    · have hstored : ∀ spec, storedValue false f.1 f.2 spec = f.2 := fun spec => by
        simp [storedValue]
      rw [hstored, hstored]
      exact sameSpec_setAt hcreated (hvalues f List.mem_cons_self) f.1

lemma deltaAt_specType {unacknowledged : Bool} {key : TfToken} {value : VtValue}
    (hremove : removesSpec key value = false) (specType : SdfSpecType) :
    (deltaAt unacknowledged path key value specType spec).map SpecData.specType =
      (createAt specType spec).map SpecData.specType := by
  unfold deltaAt
  dsimp only
  rw [hremove, if_neg Bool.false_ne_true]
  split
  · rfl
  · exact setAt_specType ..

lemma entryAt_specType {unacknowledged : Bool} {delta : SpecData}
    (hfields : ∀ f ∈ delta.fields, Storable f) (hnonempty : delta.fields ≠ []) :
    (entryAt unacknowledged path delta spec).map SpecData.specType =
      (createAt delta.specType spec).map SpecData.specType := by
  have hrest : ∀ (fields : List (TfToken × VtValue)) (created : Option SpecData),
      (∀ f ∈ fields, Storable f) →
      created.map SpecData.specType = (createAt delta.specType spec).map SpecData.specType →
      (fields.foldl (fun spec f => deltaAt unacknowledged path f.1 f.2 delta.specType spec)
        created).map SpecData.specType = (createAt delta.specType spec).map SpecData.specType := by
    intro fields
    induction fields with
    | nil => exact fun created _ hcreated => hcreated
    | cons f fields ih =>
      intro created hstorable hcreated
      refine ih _ (fun g hg => hstorable g (List.mem_cons_of_mem f hg)) ?_
      rw [deltaAt_specType (hstorable f List.mem_cons_self).1, createAt_specType, hcreated,
        createAt_specType]
      split_ifs <;> simp_all
  unfold entryAt
  cases hcases : delta.fields with
  | nil => exact absurd hcases hnonempty
  | cons f fields =>
    rw [hcases] at hfields
    rw [List.foldl_cons]
    refine hrest fields _ (fun g hg => hfields g (List.mem_cons_of_mem f hg)) ?_
    exact deltaAt_specType (hfields f List.mem_cons_self).1 delta.specType

/-- The delta has no type, or the type of the spec. -/
def FitsType (spec : Option SpecData) (delta : SpecData) : Prop :=
  delta.specType = .unknown ∨ spec.map SpecData.specType = some delta.specType

lemma FitsType.congr {delta : SpecData} (h : FitsType spec delta)
    (htype : spec'.map SpecData.specType = spec.map SpecData.specType) :
    FitsType spec' delta := by
  unfold FitsType
  rwa [htype]

lemma FitsType.kept {delta : SpecData} (h : FitsType spec delta) :
    (createAt delta.specType spec).map SpecData.specType = spec.map SpecData.specType := by
  rw [createAt_specType, if_neg]
  rintro ⟨hspec, hdelta⟩
  rcases h with hunknown | htype
  · exact hdelta hunknown
  · rw [htype, Option.getD_some] at hspec
    exact hdelta hspec

lemma FitsType.created {delta : SpecData} (h : FitsType spec delta) (specType : SdfSpecType) :
    FitsType (createAt specType spec) delta := by
  by_cases hdelta : delta.specType = .unknown
  · exact .inl hdelta
  · have htype := h.resolve_left hdelta
    right
    rw [createAt_specType, htype, Option.getD_some, if_neg fun hcreated => hdelta hcreated.1]

lemma replayAll_specType {allowed : TfToken × VtValue → Prop} {entries : List (Option SpecData)}
    (hentries : ∀ delta, some delta ∈ entries → Ordinary allowed delta)
    (hfits : ∀ delta, some delta ∈ entries → FitsType spec delta) :
    (replayAll path entries spec).map SpecData.specType = spec.map SpecData.specType := by
  induction entries generalizing spec with
  | nil => rfl
  | cons entry entries ih =>
    have hrest : ∀ delta, some delta ∈ entries → Ordinary allowed delta := fun delta hdelta =>
      hentries delta (List.mem_cons_of_mem entry hdelta)
    cases entry with
    | none => exact ih hrest fun delta hdelta => hfits delta (List.mem_cons_of_mem _ hdelta)
    | some delta =>
      have hordinary := hentries delta List.mem_cons_self
      have htype : (entryAt false path delta spec).map SpecData.specType =
          spec.map SpecData.specType := by
        rw [entryAt_specType hordinary.storable hordinary.nonempty]
        exact (hfits delta List.mem_cons_self).kept
      rw [replayAll_some, ih hrest fun later hlater =>
        (hfits later (List.mem_cons_of_mem _ hlater)).congr htype, htype]

lemma replayAll_ordinary {allowed : TfToken × VtValue → Prop} {entries : List (Option SpecData)}
    (hentries : ∀ delta, some delta ∈ entries → Ordinary allowed delta) (hspec : spec.isSome) :
    (replayAll path entries spec).isSome ∧
      ∀ field, fieldAt (replayAll path entries spec) field =
        lastValue field entries (fieldAt spec field) := by
  induction entries generalizing spec with
  | nil => exact ⟨hspec, fun _ => rfl⟩
  | cons entry entries ih =>
    have hrest : ∀ delta, some delta ∈ entries → Ordinary allowed delta := fun delta hdelta =>
      hentries delta (List.mem_cons_of_mem entry hdelta)
    cases entry with
    | none => exact ih hrest hspec
    | some delta =>
      have hordinary := hentries delta List.mem_cons_self
      obtain ⟨hsome, hfields⟩ := ih hrest (entryAt_isSome hordinary.storable hspec)
      refine ⟨hsome, fun field => (hfields field).trans ?_⟩
      rw [fieldAt_entryAt hordinary.storable hordinary.nodup hspec, lastValue_cons,
        Option.bind_some]
      cases delta.fields.lookup field <;> simp [skipped, storedValue]

end

/-- The entries of the client that it has not seen in the history or not sent. -/
def pendingEntries (log : PathLog) (user : String) : List (Option SpecData) :=
  log.awaited user ++ [(log.replica user).state.edit]

/-- The client has an edit of the path pending. -/
def PathPending (log : PathLog) (user : String) : Prop :=
  ∃ delta, some delta ∈ pendingEntries log user

/-- While an edit of the path is pending, the delta removes nothing, and of its fields the client
skips those it has edited itself and merges none. -/
def KeepsReplay (path : SdfPath) (log : PathLog) (user : String) (delta : SpecData) : Prop :=
  PathPending log user → ∀ f ∈ delta.fields, removesSpec f.1 f.2 = false ∧
    ¬(f.1 = SdfChildrenKeys.primChildren ∧ (log.replica user).state.unacknowledged = true) ∧
    (skipped (log.replica user).state.unacknowledged path f.1 = true ↔ FieldPending log user f.1)

lemma flush_replica (path : SdfPath) (log : PathLog) (user : String) (sends : Bool) :
    (LogAction.perform path log (.flush user sends)).replica user =
      { state := (log.replica user).state.flush
        applied := (log.replica user).applied
        outbox := (log.replica user).outbox ++
          if sends then [(log.replica user).state.edit] else [] } := by
  rw [perform_flush]
  simp

lemma pendingEntries_flush (path : SdfPath) (log : PathLog) (user : String) (sends : Bool) :
    pendingEntries (LogAction.perform path log (.flush user sends)) user =
      log.awaited user ++ (if sends then [(log.replica user).state.edit] else []) ++ [none] := by
  have hhistory : (LogAction.perform path log (.flush user sends)).history = log.history := by
    rw [perform_flush]
  unfold pendingEntries SharedLog.awaited
  rw [flush_replica, hhistory, flush_edit]
  simp only [List.append_assoc]

lemma pathPending_receive {path : SdfPath} {log : PathLog} {user : String}
    (h : PathPending (log.receive user (receiveEntry path)) user) : PathPending log user := by
  cases hnext : log.history[(log.replica user).applied]? with
  | none => rwa [SharedLog.receive_none hnext] at h
  | some next =>
    obtain ⟨author, entry⟩ := next
    obtain ⟨delta, hdelta⟩ := h
    have hedit : ((log.receive user (receiveEntry path)).replica user).state.edit =
        (log.replica user).state.edit := by
      rw [SharedLog.receive_state hnext, OrdinaryLog.receiveEntry_edit]
    refine ⟨delta, ?_⟩
    unfold pendingEntries at hdelta ⊢
    rw [hedit] at hdelta
    by_cases hown : author = user
    · rw [SharedLog.awaited_receive_own hnext hown]
      exact List.mem_cons_of_mem entry hdelta
    · rwa [SharedLog.awaited_receive_foreign hnext hown] at hdelta

lemma keepsReplay_idle {path : SdfPath} {log : PathLog} {user : String}
    (h : ¬PathPending log user) (sends : Bool) (n : Nat) :
    Runs.AllSteps (LogAction.perform path) (AtForeign (KeepsReplay path)) log
      (.flush user sends :: List.replicate n (.receive user)) := by
  have hflushed : ¬PathPending (LogAction.perform path log (.flush user sends)) user := by
    rintro ⟨delta, hdelta⟩
    rw [pendingEntries_flush] at hdelta
    refine h ⟨delta, ?_⟩
    rw [pendingEntries, List.mem_append, List.mem_singleton]
    cases sends with
    | true => simpa using hdelta
    | false => exact .inl (by simpa using hdelta)
  have hkeep : ∀ log, ∀ step ∈ List.replicate n (LogAction.receive user),
      ¬PathPending log user → ¬PathPending (step.perform path log) user := by
    intro log step hstep hidle hpending
    rw [List.eq_of_mem_replicate hstep] at hpending
    exact hidle (pathPending_receive hpending)
  refine ⟨trivial, Runs.allSteps_of_invariant hkeep (fun log step hstep hidle => ?_) hflushed⟩
  rw [List.eq_of_mem_replicate hstep]
  exact atForeign_receive fun author delta _ _ hpending => absurd hpending hidle

/-- The client holds what the replay of all it has seen and edited gives. -/
structure Rebuilds (user : String) (path : SdfPath) (base : Option SpecData) (log : PathLog) :
    Prop where
  bounded : (log.replica user).applied ≤ log.history.length
  history : ∀ author delta, (author, some delta) ∈ log.history → Recordable delta
  own : ∀ delta, some delta ∈ pendingEntries log user → Ordinary (fun _ => True) delta
  awaiting : (log.replica user).state.unacknowledged = true → PathPending log user
  present : PathPending log user → (log.replica user).state.spec.isSome
  sameType : PathPending log user → (log.replica user).state.spec.map SpecData.specType =
    (replayAll path (log.seen user) base).map SpecData.specType
  fits : ∀ delta, some delta ∈ pendingEntries log user →
    FitsType (replayAll path (log.seen user) base) delta
  value : SameSpec (log.replica user).state.spec
    (replayAll path (log.seen user ++ pendingEntries log user) base)

namespace Rebuilds

variable {user : String} {path : SdfPath} {base : Option SpecData} {log : PathLog}

lemma congr (h : Rebuilds user path base log) {log' : PathLog}
    (hhistory : log'.history = log.history) (hreplica : log'.replica user = log.replica user) :
    Rebuilds user path base log' := by
  have hseen : log'.seen user = log.seen user := by
    unfold SharedLog.seen
    rw [hhistory, hreplica]
  have hpending : pendingEntries log' user = pendingEntries log user := by
    unfold pendingEntries SharedLog.awaited
    rw [hhistory, hreplica]
  constructor
  · rw [hhistory, hreplica]
    exact h.bounded
  · rw [hhistory]
    exact h.history
  · rw [hpending]
    exact h.own
  · unfold PathPending
    rw [hpending, hreplica]
    exact h.awaiting
  · unfold PathPending
    rw [hpending, hreplica]
    exact h.present
  · unfold PathPending
    rw [hpending, hreplica, hseen]
    exact h.sameType
  · rw [hpending, hseen]
    exact h.fits
  · rw [hpending, hreplica, hseen]
    exact h.value

lemma fresh (hhistory : ∀ author delta, (author, some delta) ∈ log.history → Recordable delta)
    (happlied : (log.replica user).applied = 0)
    (hstate : (log.replica user).state = ⟨base, none, false⟩)
    (hawaited : ∀ entry ∈ log.awaited user, entry = none) : Rebuilds user path base log := by
  have hnone : ∀ entry ∈ pendingEntries log user, entry = none := by
    intro entry hentry
    unfold pendingEntries at hentry
    rw [hstate] at hentry
    rcases List.mem_append.1 hentry with hold | hnew
    · exact hawaited entry hold
    · exact List.mem_singleton.1 hnew
  have hpending : ¬PathPending log user := by
    rintro ⟨delta, hdelta⟩
    exact absurd (hnone _ hdelta) (Option.some_ne_none delta)
  have hseen : log.seen user = [] := by
    unfold SharedLog.seen
    rw [happlied]
    rfl
  constructor
  · rw [happlied]
    exact Nat.zero_le _
  · exact hhistory
  · exact fun delta hdelta => absurd ⟨delta, hdelta⟩ hpending
  · rw [hstate]
    exact fun hunack => absurd hunack Bool.false_ne_true
  · exact fun h => absurd h hpending
  · exact fun h => absurd h hpending
  · exact fun delta hdelta => absurd ⟨delta, hdelta⟩ hpending
  · rw [hseen, List.nil_append, replayAll_nones hnone, hstate]

/-- The steps that leave alone what the client has seen and has pending. -/
lemma keep (h : Rebuilds user path base log) {log' : PathLog}
    (hbounded : (log'.replica user).applied ≤ log'.history.length)
    (hhistory : ∀ author delta, (author, some delta) ∈ log'.history → Recordable delta)
    (hspec : (log'.replica user).state.spec = (log.replica user).state.spec)
    (hunack : (log'.replica user).state.unacknowledged =
      (log.replica user).state.unacknowledged)
    (hseen : log'.seen user = log.seen user)
    (hpending : (pendingEntries log' user).reduceOption =
      (pendingEntries log user).reduceOption) : Rebuilds user path base log' := by
  have hmem : ∀ delta, some delta ∈ pendingEntries log' user ↔
      some delta ∈ pendingEntries log user := by
    intro delta
    rw [← List.reduceOption_mem_iff, hpending, List.reduceOption_mem_iff]
  have hpath : PathPending log' user ↔ PathPending log user := exists_congr hmem
  constructor
  · exact hbounded
  · exact hhistory
  · exact fun delta hdelta => h.own delta ((hmem delta).1 hdelta)
  · rw [hunack, hpath]
    exact h.awaiting
  · rw [hspec, hpath]
    exact h.present
  · rw [hspec, hseen, hpath]
    exact h.sameType
  · rw [hseen]
    exact fun delta hdelta => h.fits delta ((hmem delta).1 hdelta)
  · have hvalue := h.value
    rw [replayAll_append, replayAll_eq_foldl (pendingEntries log user)] at hvalue
    rw [hspec, hseen, replayAll_append, replayAll_eq_foldl (pendingEntries log' user), hpending]
    exact hvalue

lemma flush (h : Rebuilds user path base log) {sends : Bool}
    (hsends : sends = false → (log.replica user).state.edit = none) :
    Rebuilds user path base (LogAction.perform path log (.flush user sends)) := by
  have hflushed := flush_replica path log user sends
  have hhistory : (LogAction.perform path log (.flush user sends)).history = log.history := by
    rw [perform_flush]
  refine h.keep ?_ ?_ (by rw [hflushed, flush_spec]) (by rw [hflushed, flush_unacknowledged]) ?_ ?_
  · rw [hflushed, hhistory]
    exact h.bounded
  · rw [hhistory]
    exact h.history
  · unfold SharedLog.seen
    rw [hflushed, hhistory]
  · rw [pendingEntries_flush]
    unfold pendingEntries
    cases sends with
    | true => cases (log.replica user).state.edit <;> simp [List.reduceOption]
    | false => simp [hsends rfl]

lemma serve (h : Rebuilds user path base log) : Rebuilds user path base (log.serve user) := by
  have hpending : pendingEntries (log.serve user) user = pendingEntries log user := by
    unfold pendingEntries
    rw [SharedLog.awaited_serve h.bounded, SharedLog.serve_state]
  refine h.keep ?_ ?_ (by rw [SharedLog.serve_state]) (by rw [SharedLog.serve_state])
    (SharedLog.seen_serve h.bounded) (by rw [hpending])
  · have hlength := h.bounded
    unfold SharedLog.serve
    split
    · exact hlength
    · simp only [Function.update_self, List.length_append]
      omega
  · unfold SharedLog.serve
    split
    · exact h.history
    · rename_i entry rest houtbox
      intro author delta hmem
      rcases List.mem_append.1 hmem with hold | hnew
      · exact h.history author delta hold
      · obtain ⟨rfl, rfl⟩ := Prod.mk.inj (List.mem_singleton.1 hnew)
        refine (h.own delta ?_).recordable
        unfold pendingEntries SharedLog.awaited
        rw [houtbox]
        simp

lemma append (h : Rebuilds user path base log) {author : String} (hforeign : author ≠ user)
    {entry : Option SpecData} (hentry : ∀ delta, entry = some delta → Recordable delta) :
    Rebuilds user path base { log with history := log.history ++ [(author, entry)] } := by
  have hlength := h.bounded
  refine h.keep ?_ ?_ rfl rfl ?_ ?_
  · rw [List.length_append]
    exact Nat.le_add_right_of_le hlength
  · intro author' delta hmem
    rcases List.mem_append.1 hmem with hold | hnew
    · exact h.history author' delta hold
    · exact hentry delta (congrArg Prod.snd (List.mem_singleton.1 hnew)).symm
  · unfold SharedLog.seen
    rw [List.take_append_of_le_length hlength]
  · unfold pendingEntries SharedLog.awaited
    dsimp only
    rw [List.drop_append_of_le_length hlength]
    simp [List.filter_append, hforeign]

lemma pendingEntries_none (hpending : ¬PathPending log user) :
    ∀ entry ∈ pendingEntries log user, entry = none := by
  intro entry hentry
  rw [Option.eq_none_iff_forall_ne_some]
  rintro delta rfl
  exact hpending ⟨delta, hentry⟩

lemma seen_specType (h : Rebuilds user path base log) :
    (log.replica user).state.spec.map SpecData.specType =
      (replayAll path (log.seen user) base).map SpecData.specType := by
  by_cases hpending : PathPending log user
  · exact h.sameType hpending
  · have hvalue := h.value
    rw [replayAll_append, replayAll_nones (pendingEntries_none hpending)] at hvalue
    exact hvalue.specType

lemma seen_isSome (h : Rebuilds user path base log)
    (hspec : (log.replica user).state.spec.isSome) :
    (replayAll path (log.seen user) base).isSome := by
  have hsome := congrArg Option.isSome h.seen_specType
  rw [Option.isSome_map, Option.isSome_map] at hsome
  exact hsome.symm.trans hspec

lemma pending_setField (h : Rebuilds user path base log) {field : TfToken} {value : VtValue}
    (hvalue : value.isEmpty = false) (hremove : removesSpec field value = false)
    {delta : SpecData}
    (hdelta : some delta ∈
      log.awaited user ++ [((log.replica user).state.setField field value).edit]) :
    Ordinary (fun _ => True) delta ∧ FitsType (replayAll path (log.seen user) base) delta := by
  rw [List.mem_append, List.mem_singleton] at hdelta
  rcases hdelta with hold | hnew
  · exact ⟨h.own delta (List.mem_append_left _ hold), h.fits delta (List.mem_append_left _ hold)⟩
  constructor
  · refine ordinary_setField ⟨hremove, hvalue⟩ trivial (fun pending hedit => ?_) hnew.symm
    exact h.own pending (by simp [pendingEntries, hedit])
  · obtain ⟨start, hstart, rfl⟩ := Option.map_eq_some_iff.1 hnew.symm
    cases hedit : (log.replica user).state.edit with
    | some pending =>
      rw [editBase, hedit, Option.some_or, Option.some.injEq] at hstart
      subst hstart
      exact h.fits pending (by simp [pendingEntries, hedit])
    | none =>
      rw [editBase, hedit, Option.none_or] at hstart
      obtain ⟨spec, hspec, rfl⟩ := Option.map_eq_some_iff.1 hstart
      right
      rw [← h.seen_specType, hspec]
      rfl

/-- A value of a spec is set that removes nothing. -/
lemma set_present (h : Rebuilds user path base log) {field : TfToken} {value : VtValue}
    (hvalue : value.isEmpty = false) (hremove : removesSpec field value = false)
    (hsome : (log.replica user).state.spec.isSome) :
    Rebuilds user path base (log.edit user (PathState.set field value)) := by
  have hset : (log.replica user).state.set field value =
      (log.replica user).state.setField field value := by simp [PathState.set, hvalue]
  have hfields := setField_field hsome field value
  have hseen := h.seen_isSome hsome
  have hstate : ((log.edit user (PathState.set field value)).replica user).state =
      (log.replica user).state.setField field value := by rw [SharedLog.edit_state, hset]
  have hpending : pendingEntries (log.edit user (PathState.set field value)) user =
      log.awaited user ++ [((log.replica user).state.setField field value).edit] := by
    rw [pendingEntries, SharedLog.awaited_edit, hstate]
  have hown : ∀ delta, some delta ∈
      pendingEntries (log.edit user (PathState.set field value)) user →
        Ordinary (fun _ => True) delta :=
    fun delta hdelta => (h.pending_setField hvalue hremove (hpending ▸ hdelta)).1
  have hfits : ∀ delta, some delta ∈
      pendingEntries (log.edit user (PathState.set field value)) user →
        FitsType (replayAll path (log.seen user) base) delta :=
    fun delta hdelta => (h.pending_setField hvalue hremove (hpending ▸ hdelta)).2
  obtain ⟨spec, hspec⟩ := Option.isSome_iff_exists.1 hsome
  have htype : ((log.replica user).state.setField field value).spec.map SpecData.specType =
      (replayAll path (log.seen user) base).map SpecData.specType := by
    rw [← h.seen_specType, hspec]
    simp [setField, hspec]
  refine ⟨?_, h.history, hown, fun _ => ?_, fun _ => ?_, fun _ => ?_, ?_, ?_⟩
  · have happlied : ((log.edit user (PathState.set field value)).replica user).applied =
        (log.replica user).applied := by simp [SharedLog.edit]
    rw [happlied]
    exact h.bounded
  · obtain ⟨delta, hdelta⟩ := Option.isSome_iff_exists.1 (setField_edit_isSome hsome field value)
    exact ⟨delta, by simp [hpending, hdelta]⟩
  · rw [hstate]
    simp [setField, hspec]
  · rw [hstate, SharedLog.seen_edit]
    exact htype
  · rw [SharedLog.seen_edit]
    exact hfits
  · obtain ⟨-, hreplay⟩ := replayAll_ordinary hown hseen
    have hbefore := h.value
    rw [replayAll_append] at hbefore
    rw [hstate, SharedLog.seen_edit, replayAll_append]
    refine ⟨htype.trans (replayAll_specType hown hfits).symm, fun key => ?_⟩
    have hold := (hbefore.fields key).trans ((replayAll_ordinary h.own hseen).2 key)
    rw [pendingEntries, lastValue_append, lastValue_cons, lastValue_nil] at hold
    rw [(hfields key).1, hreplay key, hpending, lastValue_append, lastValue_cons, lastValue_nil,
      (hfields key).2]
    by_cases hkey : key = field
    · simp [hkey]
    · rw [if_neg hkey, if_neg hkey, hold]

lemma set (h : Rebuilds user path base log) {field : TfToken} {value : VtValue}
    (hvalue : value.isEmpty = false) (hremove : removesSpec field value = false) :
    Rebuilds user path base (log.edit user (PathState.set field value)) := by
  cases hspec : (log.replica user).state.spec with
  | none =>
    have hedit : (log.replica user).state.edit = none := by
      rw [Option.eq_none_iff_forall_ne_some]
      intro delta hdelta
      have hsome := h.present ⟨delta, by simp [pendingEntries, hdelta]⟩
      rw [hspec] at hsome
      exact absurd hsome Bool.false_ne_true
    rw [SharedLog.edit_eq_self (set_eq_self_of_missing hspec hedit hvalue field)]
    exact h
  | some spec => exact h.set_present hvalue hremove (by rw [hspec]; rfl)

lemma clear (h : Rebuilds user path base log) {field : TfToken} {value : VtValue}
    (hvalue : value.isEmpty = true)
    (hfield : fieldAt (log.replica user).state.spec field = none) :
    Rebuilds user path base (log.edit user (PathState.set field value)) := by
  rw [SharedLog.edit_eq_self (set_eq_self_of_cleared hvalue hfield)]
  exact h

/-- An acknowledge arrives. -/
lemma receive_own (h : Rebuilds user path base log) {entry : Option SpecData}
    (hnext : log.history[(log.replica user).applied]? = some (user, entry)) :
    Rebuilds user path base (log.receive user (receiveEntry path)) := by
  have hstate : ((log.receive user (receiveEntry path)).replica user).state =
      receiveEntry path true entry (log.replica user).state := by
    rw [SharedLog.receive_state hnext, decide_eq_true rfl]
  have hspec : ((log.receive user (receiveEntry path)).replica user).state.spec =
      (log.replica user).state.spec := by rw [hstate, OrdinaryLog.receiveEntry_own_spec]
  have hpending : pendingEntries log user =
      entry :: pendingEntries (log.receive user (receiveEntry path)) user := by
    have hawaited : log.awaited user =
        entry :: (log.receive user (receiveEntry path)).awaited user :=
      SharedLog.awaited_receive_own hnext rfl
    rw [pendingEntries, hawaited, pendingEntries, hstate, OrdinaryLog.receiveEntry_edit]
    rfl
  have hmem : ∀ delta, some delta ∈ pendingEntries (log.receive user (receiveEntry path)) user →
      some delta ∈ pendingEntries log user := by
    intro delta hdelta
    rw [hpending]
    exact List.mem_cons_of_mem entry hdelta
  have hseen : (replayAll path ((log.receive user (receiveEntry path)).seen user) base).map
      SpecData.specType = (replayAll path (log.seen user) base).map SpecData.specType := by
    rw [SharedLog.seen_receive hnext, replayAll_append]
    have hentry : ∀ delta, some delta ∈ [entry] → some delta ∈ pendingEntries log user := by
      intro delta hdelta
      rw [hpending, List.mem_singleton.1 hdelta]
      exact List.mem_cons_self
    exact replayAll_specType (fun delta hdelta => h.own delta (hentry delta hdelta))
      fun delta hdelta => h.fits delta (hentry delta hdelta)
  constructor
  · exact SharedLog.receive_applied_le h.bounded
  · rw [SharedLog.receive_history]
    exact h.history
  · exact fun delta hdelta => h.own delta (hmem delta hdelta)
  · intro hunack
    rw [hstate] at hunack
    cases entry with
    | some delta => simp [receiveEntry, PathState.receive] at hunack
    | none =>
      obtain ⟨delta, hdelta⟩ := h.awaiting hunack
      rw [hpending] at hdelta
      exact ⟨delta, List.mem_of_ne_of_mem (Option.some_ne_none delta) hdelta⟩
  · rintro ⟨delta, hdelta⟩
    rw [hspec]
    exact h.present ⟨delta, hmem delta hdelta⟩
  · rintro ⟨delta, hdelta⟩
    rw [hspec, hseen]
    exact h.sameType ⟨delta, hmem delta hdelta⟩
  · exact fun delta hdelta => (h.fits delta (hmem delta hdelta)).congr hseen
  · have hvalue := h.value
    rw [hpending] at hvalue
    rw [hspec, SharedLog.seen_receive hnext, List.append_assoc]
    exact hvalue

lemma foreign_specType (h : Rebuilds user path base log) {delta : SpecData}
    (hstorable : ∀ f ∈ delta.fields, Storable f) (hnonempty : delta.fields ≠ []) :
    (entryAt (log.replica user).state.unacknowledged path delta
        (log.replica user).state.spec).map SpecData.specType =
      (entryAt false path delta (replayAll path (log.seen user) base)).map SpecData.specType := by
  rw [entryAt_specType hstorable hnonempty, entryAt_specType hstorable hnonempty,
    createAt_specType, createAt_specType, h.seen_specType]

lemma fits_foreign (h : Rebuilds user path base log) {delta : SpecData}
    (hstorable : ∀ f ∈ delta.fields, Storable f) (hnonempty : delta.fields ≠ []) :
    ∀ own, some own ∈ pendingEntries log user →
      FitsType (entryAt false path delta (replayAll path (log.seen user) base)) own := by
  intro own hown
  refine ((h.fits own hown).created delta.specType).congr ?_
  exact entryAt_specType hstorable hnonempty

/-- A foreign delta on a path with pending edits: what is stored is what the replay keeps. -/
lemma foreign_value (h : Rebuilds user path base log) {delta : SpecData}
    (hdelta : Recordable delta) (hpending : PathPending log user)
    (hkeeps : KeepsReplay path log user delta) :
    SameSpec (entryAt (log.replica user).state.unacknowledged path delta
        (log.replica user).state.spec)
      (replayAll path (log.seen user ++ some delta :: pendingEntries log user) base) := by
  have hfields := hkeeps hpending
  have hstorable : ∀ f ∈ delta.fields, Storable f := fun f hf =>
    ⟨(hfields f hf).1, hdelta.values f hf⟩
  have hspec := h.present hpending
  have hseen := h.seen_isSome hspec
  have hstored : (entryAt false path delta (replayAll path (log.seen user) base)).isSome :=
    entryAt_isSome hstorable hseen
  obtain ⟨-, hvalues⟩ := replayAll_ordinary h.own hstored
  have hbefore := h.value
  rw [replayAll_append] at hbefore ⊢
  rw [replayAll_some]
  refine ⟨?_, fun field => ?_⟩
  · rw [replayAll_specType h.own (h.fits_foreign hstorable hdelta.nonempty)]
    exact h.foreign_specType hstorable hdelta.nonempty
  have hold := (hbefore.fields field).trans ((replayAll_ordinary h.own hseen).2 field)
  rw [hvalues field, fieldAt_entryAt hstorable hdelta.nodup hspec,
    fieldAt_entryAt hstorable hdelta.nodup hseen]
  cases hlookup : delta.fields.lookup field with
  | none => exact hold
  | some value =>
    obtain ⟨-, hmerge, hskip⟩ := hfields _ (mem_of_lookup hlookup)
    rw [Option.elim_some, Option.elim_some]
    have hreplayed : (if skipped false path field = true then
        fieldAt (replayAll path (log.seen user) base) field
        else some (storedValue false field value (replayAll path (log.seen user) base))) =
          some value := by simp [skipped, storedValue]
    rw [hreplayed]
    by_cases hskipped : skipped (log.replica user).state.unacknowledged path field = true
    · rw [if_pos hskipped, hold]
      exact lastValue_set (hskip.1 hskipped) _ _
    · have hunset : ∀ entry ∈ pendingEntries log user, ¬Sets field entry := by
        intro entry hentry hsets
        exact hskipped (hskip.2 ⟨entry, hentry, hsets⟩)
      rw [if_neg hskipped, lastValue_unset hunset, storedValue, if_neg hmerge]

lemma pendingEntries_receive_foreign {author : String} {entry : Option SpecData}
    (hnext : log.history[(log.replica user).applied]? = some (author, entry))
    (hforeign : author ≠ user) :
    pendingEntries (log.receive user (receiveEntry path)) user = pendingEntries log user := by
  rw [pendingEntries, SharedLog.awaited_receive_foreign hnext hforeign,
    SharedLog.receive_state hnext, OrdinaryLog.receiveEntry_edit]
  rfl

/-- An entry of another client arrives that says nothing about the path. -/
lemma receive_foreign_nothing (h : Rebuilds user path base log) {author : String}
    (hnext : log.history[(log.replica user).applied]? = some (author, none))
    (hforeign : author ≠ user) : Rebuilds user path base (log.receive user (receiveEntry path)) := by
  have hstate : ((log.receive user (receiveEntry path)).replica user).state =
      (log.replica user).state := by
    rw [SharedLog.receive_state hnext, decide_eq_false hforeign]
    rfl
  have hpending : pendingEntries (log.receive user (receiveEntry path)) user =
      pendingEntries log user := pendingEntries_receive_foreign hnext hforeign
  have hseen : replayAll path ((log.receive user (receiveEntry path)).seen user) base =
      replayAll path (log.seen user) base := by
    rw [SharedLog.seen_receive hnext, replayAll_append]
    rfl
  constructor
  · exact SharedLog.receive_applied_le h.bounded
  · rw [SharedLog.receive_history]
    exact h.history
  · rw [hpending]
    exact h.own
  · rw [PathPending, hpending, hstate]
    exact h.awaiting
  · rw [PathPending, hpending, hstate]
    exact h.present
  · rw [PathPending, hpending, hstate, hseen]
    exact h.sameType
  · rw [hpending, hseen]
    exact h.fits
  · have hvalue := h.value
    rw [replayAll_append] at hvalue ⊢
    rwa [hstate, hseen, hpending]

lemma foreign_value_settled (h : Rebuilds user path base log) {delta : SpecData}
    (hdelta : Recordable delta) (hpath : ¬PathPending log user) :
    SameSpec (entryAt (log.replica user).state.unacknowledged path delta
        (log.replica user).state.spec)
      (replayAll path (log.seen user ++ some delta :: pendingEntries log user) base) := by
  have hunack : (log.replica user).state.unacknowledged = false := by
    by_contra hnot
    exact hpath (h.awaiting (by simpa using hnot))
  have hnone := pendingEntries_none hpath
  have hbefore := h.value
  rw [replayAll_append, replayAll_nones hnone] at hbefore
  rw [hunack, replayAll_append, replayAll_some, replayAll_nones hnone]
  exact sameSpec_entryAt hbefore hdelta.values

/-- A delta of another client arrives. -/
lemma receive_foreign (h : Rebuilds user path base log) {author : String} {delta : SpecData}
    (hnext : log.history[(log.replica user).applied]? = some (author, some delta))
    (hforeign : author ≠ user) (hkeeps : KeepsReplay path log user delta) :
    Rebuilds user path base (log.receive user (receiveEntry path)) := by
  have hrecordable := h.history author delta (List.mem_of_getElem? hnext)
  have hstate : ((log.receive user (receiveEntry path)).replica user).state =
      receiveEntry path false (some delta) (log.replica user).state := by
    rw [SharedLog.receive_state hnext, decide_eq_false hforeign]
  have hspec : ((log.receive user (receiveEntry path)).replica user).state.spec =
      entryAt (log.replica user).state.unacknowledged path delta (log.replica user).state.spec := by
    rw [hstate, OrdinaryLog.receiveEntry_foreign_spec hrecordable.nonempty]
  have hpending : pendingEntries (log.receive user (receiveEntry path)) user =
      pendingEntries log user := pendingEntries_receive_foreign hnext hforeign
  have hseen : (log.receive user (receiveEntry path)).seen user = log.seen user ++ [some delta] :=
    SharedLog.seen_receive hnext
  have hstorable : PathPending log user → ∀ f ∈ delta.fields, Storable f :=
    fun hpath f hf => ⟨(hkeeps hpath f hf).1, hrecordable.values f hf⟩
  constructor
  · exact SharedLog.receive_applied_le h.bounded
  · rw [SharedLog.receive_history]
    exact h.history
  · rw [hpending]
    exact h.own
  · rw [PathPending, hpending, hstate]
    intro hunack
    simp only [receiveEntry, PathState.receive, Bool.false_eq_true, if_false,
      hrecordable.nonempty] at hunack
    exact h.awaiting hunack
  · rw [PathPending, hpending, hspec]
    exact fun hpath => entryAt_isSome (hstorable hpath) (h.present hpath)
  · rw [PathPending, hpending, hspec, hseen, replayAll_append]
    exact fun hpath => h.foreign_specType (hstorable hpath) hrecordable.nonempty
  · rw [hpending, hseen, replayAll_append]
    exact fun own hown => h.fits_foreign (hstorable ⟨own, hown⟩) hrecordable.nonempty own hown
  · rw [hspec, hseen, hpending, List.append_assoc]
    by_cases hpath : PathPending log user
    · exact h.foreign_value hrecordable hpath hkeeps
    · exact h.foreign_value_settled hrecordable hpath

lemma receive (h : Rebuilds user path base log)
    (hkeeps : AtForeign (KeepsReplay path) log (.receive user)) :
    Rebuilds user path base (log.receive user (receiveEntry path)) := by
  cases hnext : log.history[(log.replica user).applied]? with
  | none => rwa [SharedLog.receive_none hnext]
  | some next =>
    obtain ⟨author, entry⟩ := next
    by_cases hown : author = user
    · subst hown
      exact h.receive_own hnext
    · cases entry with
      | none => exact h.receive_foreign_nothing hnext hown
      | some delta => exact h.receive_foreign hnext hown (hkeeps.holds hnext hown)

/-- A flush and the updates that follow it. -/
theorem update (h : Rebuilds user path base log) {sends : Bool} {n : Nat}
    (hsends : sends = false → (log.replica user).state.edit = none)
    (hkeeps : Runs.AllSteps (LogAction.perform path) (AtForeign (KeepsReplay path)) log
      (.flush user sends :: List.replicate n (.receive user))) :
    Rebuilds user path base (Runs.final (LogAction.perform path) log
      (.flush user sends :: List.replicate n (.receive user))) := by
  have hreceives : ∀ (n : Nat) (log : PathLog), Rebuilds user path base log →
      Runs.AllSteps (LogAction.perform path) (AtForeign (KeepsReplay path)) log
        (List.replicate n (.receive user)) →
      Rebuilds user path base
        (Runs.final (LogAction.perform path) log (List.replicate n (.receive user))) := by
    intro n
    induction n with
    | zero => exact fun log h _ => h
    | succ n ih => exact fun log h hok => ih _ (h.receive hok.1) hok.2
  exact hreceives n _ (h.flush hsends) hkeeps.2

lemma settled (h : Rebuilds user path base log)
    (happlied : (log.replica user).applied = log.history.length)
    (houtbox : (log.replica user).outbox = []) (hedit : (log.replica user).state.edit = none) :
    SameSpec (log.replica user).state.spec (replayAll path (log.history.map Prod.snd) base) := by
  obtain ⟨hseen, hawaited⟩ := SharedLog.seen_settled happlied houtbox
  have hvalue := h.value
  rw [pendingEntries, hseen, hawaited, hedit, replayAll_append] at hvalue
  exact hvalue

end Rebuilds

end RenderStudioKit.Proofs
