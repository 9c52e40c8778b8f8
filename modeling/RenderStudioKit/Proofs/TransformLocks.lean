import RenderStudioKit.Proofs.LockedPath
import RenderStudioKit.Proofs.SessionStart

/-!
# Transformations under primitive locks

The code applies transformations whatever the client edited itself, because a primitive is
edited by one user at a time. For a path edited under this lock, the values every client holds
follow the order in which they were set, and nobody goes back to an older one.
-/

namespace RenderStudioKit.Proofs

open API PathState

section

variable [Usd]

section

variable (room : Room) (layer : String) (path : SdfPath)

/-- The user has processed every edit of the path by the other members: none of them is unsent
or on its way, and all that were numbered are applied. -/
structure HoldsLock (s : Session) (user : String) : Prop where
  noneUnsent : ∀ w ∈ room.members, w ≠ user → path ∉ (layerData (s.client w) layer).mLocalDeltas
  noneSent : ∀ w ∈ room.members, w ≠ user →
    ∀ v ∈ (s.uplink w).filterMap (layerDelta layer), path ∉ v.updates
  processed : ∀ v ∈ (layerHistory room layer s).drop
    (layerData (s.client user) layer).mLatestAppliedSequence, v.user ≠ user → path ∉ v.updates

/-- No reload; the path is set by the holder of its lock, to a value that can be transmitted, and
its spec is not removed. -/
def Locking (s : Session) : SessionAction → Prop
  | .set user edited editedPath field value =>
    user ∈ room.members → edited = layer → editedPath = path → HoldsLock room layer path s user ∧
      value.isEmpty = false ∧ RoundTrips value ∧ removesSpec field value = false
  | .reload _ _ _ => False
  | _ => True

/-- The edit of the path the action is. A path without a spec cannot be edited. -/
def pathEdit (s : Session) : SessionAction → List (TfToken × VtValue)
  | .set user edited editedPath field value =>
    if user ∈ room.members ∧ edited = layer ∧ editedPath = path ∧
        (layerData (s.client user) layer).hasSpec path = true then [(field, value)] else []
  | _ => []

/-- The edits of the path in a run, in the order they are made. -/
def pathEdits : Session → List SessionAction → List (TfToken × VtValue)
  | _, [] => []
  | s, action :: run => pathEdit room layer path s action ++ pathEdits (s.perform room action) run

/-- Every client has a place in the order of the edits, which never goes back: the values it
holds are those of the edits up to there. When all is quiet it is behind the last edit. -/
def FollowsEdits (base : HashTable) (start : Session) (run : List SessionAction) : Prop :=
  ∃ position : Nat → String → Nat, ∀ user ∈ room.members, ∀ k,
    let s := Runs.final (Session.perform room) start (run.take k)
    let edits := pathEdits room layer path start (run.take k)
    position k user ≤ position (k + 1) user ∧ position k user ≤ edits.length ∧
      (∀ field, (layerData (s.client user) layer).getFieldValue path field =
        editedValue field (edits.take (position k user)) (fieldAt (base.lookup path) field)) ∧
      ((∀ w ∈ room.members, Quiet layer s w) → position k user = edits.length)

end

structure TracedSession where
  session : Session
  batches : List (List (TfToken × VtValue)) := []

namespace TracedSession

variable (room : Room) (layer : String) (path : SdfPath)

/-- The log of the path and the edits made so far. -/
def log (t : TracedSession) : TracedLog := ⟨view room layer path t.session, t.batches⟩

def perform (t : TracedSession) (action : SessionAction) : TracedSession where
  session := t.session.perform room action
  batches := (Runs.final (TracedLog.perform path) (t.log room layer path)
    (logActions room layer path t.session action)).batches

end TracedSession

section

variable {room : Room} {layer : String} {path : SdfPath} {base : HashTable} {s : Session}

lemma HoldsLock.hasTurn {user : String} (h : HoldsLock room layer path s user)
    (hmember : user ∈ room.members) : HasTurn (view room layer path s) user := by
  constructor
  · intro w hw
    apply List.eq_nil_iff_forall_not_mem.2
    intro delta hdelta
    obtain ⟨entry, hentry, heq⟩ := List.mem_map.1 (mem_pathDeltas.1 hdelta)
    obtain rfl : entry = some delta.2 := congrArg Prod.snd heq
    by_cases hmember : w ∈ room.members
    · rw [view_replica path hmember, List.mem_append, List.mem_singleton] at hentry
      rcases hentry with hsent | hunsent
      · obtain ⟨v, hv, hlookup⟩ := List.mem_map.1 hsent
        apply h.noneSent w hmember hw v hv
        rw [← AList.lookup_isSome, hlookup]
        rfl
      · apply h.noneUnsent w hmember hw
        have hlookup : (layerData (s.client w) layer).mLocalDeltas.lookup path = some delta.2 :=
          hunsent.symm
        rw [← AList.lookup_isSome, hlookup]
        rfl
    · unfold view at hentry
      dsimp only at hentry
      rw [if_neg hmember] at hentry
      simp at hentry
  · intro e he hforeign
    rw [view_replica path hmember] at he
    change e ∈ ((layerHistory room layer s).map _).drop _ at he
    rw [← List.map_drop] at he
    obtain ⟨v, hv, rfl⟩ := List.mem_map.1 he
    exact AList.lookup_eq_none.2 (h.processed v hv hforeign)

lemma logActions_set {user : String} (hmember : user ∈ room.members) (field : TfToken)
    (value : VtValue) :
    logActions room layer path s (.set user layer path field value) = [.set user field value] := by
  simp [logActions, SessionAction.user, hmember]

lemma logActions_locked (h : Linked room layer s) {action : SessionAction}
    (hlock : Locking room layer path s action) :
    Runs.AllSteps (LogAction.perform path) (LockedAction room.members) (view room layer path s)
      (logActions room layer path s action) := by
  by_cases hedit : ∃ user field value, action = .set user layer path field value
  · obtain ⟨user, field, value, rfl⟩ := hedit
    by_cases hmember : user ∈ room.members
    · obtain ⟨hholds, hvalue, -, hremove⟩ := hlock hmember rfl rfl
      rw [logActions_set hmember]
      exact ⟨⟨hmember, hholds.hasTurn hmember, hvalue, hremove⟩, trivial⟩
    · rw [logActions_nonmember path hmember]
      trivial
  · have hordinary : Runs.AllSteps (LogAction.perform path)
        (OrdinaryAction room.members fun _ => True) (view room layer path s)
        (logActions room layer path s action) :=
      logActions_ordinary h fun user field value hset _ => absurd ⟨user, field, value, hset⟩ hedit
    have hnone : Runs.AllSteps (LogAction.perform path)
        (fun _ step => ∀ user field value, step ≠ .set user field value) (view room layer path s)
        (logActions room layer path s action) := by
      refine Runs.allSteps_of_forall (fun _ step hstep user field value hset => ?_) _
      subst hset
      exact hedit ⟨user, field, value, eq_set_of_mem_logActions hstep⟩
    refine (hordinary.and hnone).mono fun log step hstep => ?_
    cases step with
    | set user field value => exact absurd rfl (hstep.2 user field value)
    | flush | serve | receive => exact hstep.1

/-- The steps of the log record the edit of the session step. -/
lemma perform_batches (batches : List (List (TfToken × VtValue))) (action : SessionAction) :
    (TracedSession.perform room layer path ⟨s, batches⟩ action).batches.flatten =
      batches.flatten ++ pathEdit room layer path s action := by
  by_cases hedit : ∃ user field value, action = .set user layer path field value
  · obtain ⟨user, field, value, rfl⟩ := hedit
    have hpath : pathEdit room layer path s (.set user layer path field value) =
        if user ∈ room.members ∧ layer = layer ∧ path = path ∧
          (layerData (s.client user) layer).hasSpec path = true then [(field, value)] else [] := rfl
    rw [hpath]
    unfold TracedSession.perform TracedSession.log
    by_cases hmember : user ∈ room.members
    · have hspec : ((view room layer path s).replica user).state.spec.isSome =
          (layerData (s.client user) layer).hasSpec path := by
        rw [view_replica path hmember]
        exact Bool.eq_iff_iff.2 (AList.lookup_isSome.trans decide_eq_true_iff.symm)
      rw [logActions_set hmember, Runs.final_cons, Runs.final_nil]
      unfold TracedLog.perform
      dsimp only
      rw [hspec]
      by_cases hhas : (layerData (s.client user) layer).hasSpec path = true
      · rw [if_pos hhas, batchEdit_flatten, if_pos ⟨hmember, rfl, rfl, hhas⟩]
      · rw [if_neg hhas, if_neg fun hall => hhas hall.2.2.2, List.append_nil]
    · rw [logActions_nonmember path hmember, if_neg fun hall => hmember hall.1, List.append_nil]
      rfl
  · have hnone : pathEdit room layer path s action = [] := by
      cases action with
      | set user edited editedPath field value =>
        refine if_neg ?_
        rintro ⟨-, rfl, rfl, -⟩
        exact hedit ⟨user, field, value, rfl⟩
      | update | reload | serve | deliver => rfl
    rw [hnone, List.append_nil]
    refine congrArg List.flatten (final_batches (fun user field value hmem => ?_) _)
    exact hedit ⟨user, field, value, eq_set_of_mem_logActions hmem⟩

/-- The invariant of a session in which the path is edited under the lock. -/
def TakesTurns (room : Room) (layer : String) (path : SdfPath) (base : HashTable)
    (t : TracedSession) : Prop :=
  Linked room layer t.session ∧
    Handed room.members (base.lookup path) (t.log room layer path)

lemma TakesTurns.perform (laws : UsdLaws) {t : TracedSession}
    (h : TakesTurns room layer path base t) {action : SessionAction}
    (hlock : Locking room layer path t.session action)
    (hflush : Deliverable room layer t.session action) :
    TakesTurns room layer path base (t.perform room layer path action) ∧
      ∀ user ∈ room.members, place (t.log room layer path) user ≤
        place ((t.perform room layer path action).log room layer path) user := by
  obtain ⟨hlinked, hhanded⟩ := h
  obtain ⟨hlinked', hview⟩ := session_step laws hlinked hflush
  have hlog : (t.perform room layer path action).log room layer path =
      Runs.final (TracedLog.perform path) (t.log room layer path)
        (logActions room layer path t.session action) := by
    have hsame : (Runs.final (TracedLog.perform path) (t.log room layer path)
          (logActions room layer path t.session action)).log =
        Runs.final (LogAction.perform path) (view room layer path t.session)
          (logActions room layer path t.session action) := tracedLog_final ..
    unfold TracedSession.perform TracedSession.log
    dsimp only
    rw [hview path]
    exact congrArg (fun log => (⟨log, _⟩ : TracedLog)) hsame.symm
  obtain ⟨hnext, hmono⟩ := hhanded.final (logActions_locked hlinked hlock)
  rw [← hlog] at hnext hmono
  exact ⟨⟨hlinked', hnext⟩, hmono⟩

lemma takesTurns_start {client : String → RenderStudioFileFormat}
    (hclient : ∀ user ∈ room.members, HoldsLayer layer user base (client user)) :
    TakesTurns room layer path base ⟨.start room client, []⟩ := by
  refine ⟨linked_start hclient, Handed.fresh (ordinaryLog_start hclient path) ?_ ?_ ?_⟩
  · rw [view_start hclient path]
  · intro user
    rw [view_start hclient path]
    dsimp only
    split_ifs <;> exact ⟨rfl, rfl⟩
  · intro user hmember
    rw [view_start hclient path]
    dsimp only
    rw [if_pos hmember]
    exact ⟨rfl, rfl⟩

lemma final_batches_flatten (t : TracedSession) (run : List SessionAction) :
    (Runs.final (TracedSession.perform room layer path) t run).batches.flatten =
      t.batches.flatten ++ pathEdits room layer path t.session run := by
  induction run generalizing t with
  | nil => exact (List.append_nil _).symm
  | cons action run ih =>
    rw [Runs.final_cons, ih, perform_batches t.batches action, List.append_assoc]
    rfl

/-- Transformations under the lock: in every run in which a path is only set by the holder of its
lock and no flush fails, the values each client holds follow the order in which they were set,
and when all is quiet every client holds the last one. -/
theorem transforms_follow_edits (laws : UsdLaws) (room : Room) (layer : String) (base : HashTable)
    (client : String → RenderStudioFileFormat)
    (hclient : ∀ user ∈ room.members, HoldsLayer layer user base (client user)) (path : SdfPath)
    (run : List SessionAction)
    (hlocks : Runs.AllSteps (Session.perform room) (Locking room layer path) (.start room client)
      run)
    (hflushes : Runs.AllSteps (Session.perform room) (Deliverable room layer) (.start room client)
      run) :
    FollowsEdits room layer path base (.start room client) run := by
  let start : TracedSession := ⟨.start room client, []⟩
  let traced (k : Nat) : TracedSession :=
    Runs.final (TracedSession.perform room layer path) start (run.take k)
  have hsteps := Runs.AllSteps.of_view (TracedSession.perform room layer path)
    TracedSession.session (fun _ _ => rfl) start (hlocks.and hflushes)
  have hturns := Runs.allStates_of_invariant
    (fun t action (h : TakesTurns room layer path base t) hok => (h.perform laws hok.1 hok.2).1)
    (takesTurns_start hclient) hsteps
  refine ⟨fun k user => place ((traced k).log room layer path) user, fun user hmember k => ?_⟩
  have hturn : TakesTurns room layer path base (traced k) := hturns.take k
  have hsession : (traced k).session =
      Runs.final (Session.perform room) (.start room client) (run.take k) :=
    Runs.final_view _ TracedSession.session (fun _ _ => rfl) start (run.take k)
  have hedits : (traced k).batches.flatten =
      pathEdits room layer path (.start room client) (run.take k) :=
    final_batches_flatten start (run.take k)
  dsimp only
  rw [← hsession, ← hedits]
  refine ⟨?_, place_le _ user, fun field => ?_, fun hquiet => ?_⟩
  · cases hk : run[k]? with
    | none =>
      have hlength := List.getElem?_eq_none_iff.1 hk
      have hsame : run.take (k + 1) = run.take k := by
        rw [List.take_of_length_le hlength, List.take_of_length_le (by omega)]
      simp only [traced, hsame, le_refl]
    | some action =>
      have hok := hsteps.get hk
      have hnext : traced (k + 1) = (traced k).perform room layer path action :=
        Runs.final_take_succ start hk
      rw [hnext]
      exact (hturn.perform laws hok.1 hok.2).2 user hmember
  · have hvalue := hturn.2.place_value hmember field
    rw [getFieldValue_eq]
    refine Eq.trans ?_ hvalue
    unfold TracedSession.log
    rw [view_replica path hmember]
    rfl
  · have hsettled : ∀ w, unnumbered (view room layer path (traced k).session) w = [] := by
      intro w
      rw [unnumbered_eq]
      by_cases hmember : w ∈ room.members
      · obtain ⟨-, houtbox, hedit⟩ := (hquiet w hmember).settled hturn.1 hmember path
        rw [houtbox, hedit]
        rfl
      · unfold view
        dsimp only
        rw [if_neg hmember]
        rfl
    refine hturn.2.settled hsettled ?_
    exact ((hquiet user hmember).settled hturn.1 hmember path).1

end

end

section

attribute [local instance] Usd.sample

/-- A prim with a transformation. -/
def movedPrim : HashTable :=
  AList.insert "/a.xformOp:translate" { specType := .attribute } onePrim

def mover (user : String) : RenderStudioFileFormat :=
  { editor user with mLayerRegistry := AList.insert "L" (loaded movedPrim) ∅ }

lemma mover_holdsLayer (user : String) : HoldsLayer "L" user movedPrim (mover user) where
  userId := rfl
  holds := AList.lookup_insert _
  noneAccumulated := rfl
  noReloads := rfl

lemma locking_string {s : Session} {user text : String}
    (h : HoldsLock twoUsers "L" "/a.xformOp:translate" s user) :
    Locking twoUsers "L" "/a.xformOp:translate" s
      (.set user "L" "/a.xformOp:translate" "default" (.string text)) :=
  fun _ _ _ => ⟨h, rfl, string_supported text, rfl⟩

/-- One user moves the prim, then the other one. -/
theorem transforms_follow_edits_handed_over :
    let run : List SessionAction :=
      [.set "A" "L" "/a.xformOp:translate" "default" (.string "x"), .update "A" noFiles, .serve "A",
        .deliver "B", .deliver "B", .update "B" noFiles,
        .set "B" "L" "/a.xformOp:translate" "default" (.string "y"), .update "B" noFiles, .serve "B",
        .deliver "A", .deliver "A", .deliver "A", .update "A" noFiles, .deliver "B",
        .update "B" noFiles]
    let start := Session.start twoUsers mover
    let s := Runs.final (Session.perform twoUsers) start run
    FollowsEdits twoUsers "L" "/a.xformOp:translate" movedPrim start run ∧
      (∀ user ∈ twoUsers.members, Quiet "L" s user) ∧
      ((layerData (s.client "A") "L").get "/a.xformOp:translate" "default").getStdString = "y" := by
  intro run start s
  refine ⟨transforms_follow_edits sample_laws twoUsers "L" movedPrim mover
    (fun user _ => mover_holdsLayer user) "/a.xformOp:translate" run ?_ ?_, by decide, by decide⟩
  · refine ⟨locking_string ⟨by decide, by decide, by decide⟩, trivial, trivial, trivial, trivial,
      trivial, locking_string ⟨by decide, by decide, by decide⟩, ?_⟩
    exact ⟨trivial, trivial, trivial, trivial, trivial, trivial, trivial, trivial, trivial⟩
  · refine deliverable_start sample_laws (fun user _ => mover_holdsLayer user) ?_
    exact ⟨fun _ _ => string_supported "x", trivial, trivial, trivial, trivial, trivial,
      fun _ _ => string_supported "y", trivial, trivial, trivial, trivial, trivial, trivial, trivial,
      trivial, trivial⟩

/-- A value of an unsupported type on another path makes the flush fail, and the transformation
is sent to nobody. -/
theorem transform_lost_in_failed_flush :
    let run : List SessionAction :=
      [.set "A" "L" "/a.xformOp:translate" "default" (.string "x"),
        .set "A" "L" "/a" "kind" (.other "Foo"), .update "A" noFiles, .deliver "A", .deliver "B"]
    let start := Session.start twoUsers mover
    (∀ user ∈ twoUsers.members, HoldsLayer "L" user movedPrim (mover user)) ∧
      Runs.AllSteps (Session.perform twoUsers)
        (Locking twoUsers "L" "/a.xformOp:translate") start run ∧
      ¬FollowsEdits twoUsers "L" "/a.xformOp:translate" movedPrim start run := by
  intro run start
  refine ⟨fun user _ => mover_holdsLayer user, ?_, ?_⟩
  · refine ⟨locking_string ⟨by decide, by decide, by decide⟩, fun _ _ hpath => ?_, trivial, trivial,
      trivial, trivial⟩
    exact absurd hpath (by decide)
  · rintro ⟨position, hfollows⟩
    obtain ⟨-, -, hvalue, hsettled⟩ := hfollows "B" (by decide) run.length
    have hend : position run.length "B" = 1 := hsettled (by decide)
    have hdefault := congrArg Option.isSome (hvalue "default")
    rw [hend] at hdefault
    revert hdefault
    decide

end

end RenderStudioKit.Proofs
