import RenderStudioKit.Proofs.Convergence
import RenderStudioKit.Proofs.NetworkedSession

/-!
# Convergence over the sockets

What clients agree on over perfect links they agree on over their sockets: the invariant of the session
holds of what the sockets carry.
-/

namespace RenderStudioKit.Proofs

open API

section

variable [Usd]

namespace Networked

variable {room : Room} {layer : String} {base : HashTable} {s : Session} {n : NetworkedSession}

/-- In a session whose clients edit the layer, every client follows the log at every path. -/
structure Following (room : Room) (layer : String) (base : HashTable) (s : Session) : Prop where
  linked : Linked room layer s
  sendable : Sendable room layer s
  follows : ∀ path, Follows room.members path (base.lookup path) (Proofs.view room layer path s)

namespace Following

lemma start {client : String → RenderStudioFileFormat}
    (hclient : ∀ user ∈ room.members, HoldsLayer layer user base (client user)) :
    Following room layer base (Session.start room client) :=
  ⟨linked_start hclient, sendable_start hclient, follows_start hclient⟩

lemma perform (laws : UsdLaws) (h : Following room layer base s) {action : SessionAction}
    (hediting : Editing layer s action) (hskips : SkipsAgree room layer s action) :
    Following room layer base (Session.perform room s action) := by
  obtain ⟨hlinked, hview⟩ :=
    session_step laws h.linked (h.sendable.deliverable hediting.transmissible)
  refine ⟨hlinked, h.sendable.perform laws h.linked hediting.transmissible, fun path => ?_⟩
  rw [hview path]
  exact (h.follows path).final (logActions_admitted h.linked hediting hskips path)

lemma converged (h : Following room layer base s) (hquiet : ∀ user ∈ room.members, Quiet layer s user) :
    Converged room layer base s := by
  intro user hmember path field
  obtain ⟨happlied, houtbox, hedit⟩ := (hquiet user hmember).settled h.linked hmember path
  have hvalue := (h.follows path).settled hmember happlied houtbox hedit field
  rw [view_replica path hmember] at hvalue
  rw [getFieldValue_eq]
  refine hvalue.trans ?_
  rw [Proofs.view, List.map_map]
  rfl

end Following

/-- What a step over the sockets is for the session edits the layer, and skips what it should. -/
def EditsAgree (room : Room) (layer : String) (n : NetworkedSession) (action : NetworkAction) : Prop :=
  ∀ own ∈ sessionActions room n action,
    Editing layer (view room n) own ∧ SkipsAgree room layer (view room n) own

/-- Nothing of a member is on its way, kept for sending or left to be applied. -/
structure Settled (room : Room) (layer : String) (n : NetworkedSession) (user : String) : Prop where
  still : Still room n user
  noEdits : (layerData (n.client user) layer).mLocalDeltas = ∅
  noneAccumulated : accumulatedUpdates (n.client user) layer = []
  noneQueued : (layerData (n.client user) layer).mRemoteDeltasQueue = ∅

lemma sessionActions_cases (room : Room) (n : NetworkedSession) (action : NetworkAction) :
    sessionActions room n action = [] ∨ ∃ own, sessionActions room n action = [own] := by
  cases action with
  | set | update | reload => exact .inr ⟨_, rfl⟩
  | socket | server => exact .inl rfl
  | receive user i | hear user i =>
    unfold sessionActions
    dsimp only
    split_ifs
    · exact .inl rfl
    · exact .inr ⟨_, rfl⟩

lemma Following.over (laws : UsdLaws) (h : Following room layer base (view room n))
    (hcarried : Carried room n) {action : NetworkAction} (hsmooth : Smooth n action)
    (hagree : EditsAgree room layer n action) :
    Following room layer base (view room (n.perform room action)) := by
  rw [(hcarried.perform action hsmooth).2]
  rcases sessionActions_cases room n action with hnone | ⟨own, hown⟩
  · rwa [hnone]
  · obtain ⟨hediting, hskips⟩ := hagree own (by rw [hown]; exact List.mem_singleton_self own)
    rw [hown]
    exact h.perform laws hediting hskips

lemma Settled.quiet (hcarried : Carried room n) {user : String} (hmember : user ∈ room.members)
    (h : Settled room layer n user) : Quiet layer (view room n) user := by
  obtain ⟨huplink, hdownlink⟩ := hcarried.still hmember h.still
  exact ⟨h.noEdits, h.noneAccumulated, h.noneQueued, huplink, hdownlink⟩

/-- Convergence of concurrent edits over the sockets: the members of a room have joined and hold the
layer. As long as nothing fails, nobody else comes, no write of a client overtakes another one and
skipping agrees with what is pending, in every order in which the operations of the sockets complete:
whenever nothing is on its way and everything is applied, every member holds, for every field, the value
of the last delta the server numbered that has the field, or the base value. -/
theorem converged_over_sockets (laws : UsdLaws) (room : Room) (layer : String) (base : HashTable)
    (client : String → RenderStudioFileFormat)
    (hclient : ∀ user ∈ room.members, HoldsLayer layer user base (client user))
    {server : WebsocketServer} {socket : String → WebsocketClient Json}
    (h : Established room server socket) (run : List NetworkAction)
    (hsmooth : Runs.AllSteps (NetworkedSession.perform room) Smooth
      { server := server, client := client, socket := socket } run)
    (hagree : Runs.AllSteps (NetworkedSession.perform room) (EditsAgree room layer)
      { server := server, client := client, socket := socket } run) :
    Runs.AllStates (NetworkedSession.perform room)
      (fun n => (∀ user ∈ room.members, Settled room layer n user) →
        Converged room layer base (view room n))
      { server := server, client := client, socket := socket } run := by
  have hstart : Carried room { server := server, client := client, socket := socket } ∧
      Following room layer base
        (view room { server := server, client := client, socket := socket }) := by
    refine ⟨h.carried client, ?_⟩
    rw [h.view_start client]
    exact .start hclient
  have hkeep : ∀ n action, (Carried room n ∧ Following room layer base (view room n)) →
      Smooth n action ∧ EditsAgree room layer n action →
      Carried room (n.perform room action) ∧
        Following room layer base (view room (n.perform room action)) := by
    rintro n action ⟨hcarried, hfollowing⟩ ⟨hstep, hedits⟩
    exact ⟨(hcarried.perform action hstep).1, hfollowing.over laws hcarried hstep hedits⟩
  refine (Runs.allStates_of_invariant hkeep hstart (hsmooth.and hagree)).mono ?_
  rintro n ⟨hcarried, hfollowing⟩ hsettled
  exact hfollowing.converged fun user hmember => (hsettled user hmember).quiet hcarried hmember

lemma editsAgree_of_link {action : NetworkAction} (h : ownAction action = none) :
    EditsAgree room layer n action := by
  intro own hown
  have hlink : (∃ user, own = .serve user) ∨ ∃ user, own = .deliver user := by
    cases action with
    | set | update | reload => cases h
    | socket | server => cases hown
    | receive user i | hear user i =>
      unfold sessionActions at hown
      dsimp only at hown
      split_ifs at hown
      · cases hown
      · simp [List.mem_singleton.1 hown]
  obtain ⟨user, rfl⟩ | ⟨user, rfl⟩ := hlink
  · exact ⟨trivial, fun _ => atForeignDeltas_silent (by simp)⟩
  · exact ⟨trivial, fun _ => atForeignDeltas_silent (by simp)⟩

end Networked

end

section

attribute [local instance] Usd.sample

namespace Networked

/-- One user edits, and the texts reach the other one. -/
def editedOverSockets : List NetworkAction :=
  [.set "A" "L" "/a" "kind" (.string "x"), .update "A" noFiles, .socket "A" 2 {}, .hear "A" 0,
    .socket "A" 2 {}, .server (.session 0 0 false .null), .server (.session 0 1 false .null),
    .server (.session 0 1 false .null), .server (.session 0 1 false .null),
    .server (.session 1 1 false .null), .server (.session 1 1 false .null),
    .server (.session 1 1 false .null), .server (.session 1 1 false .null),
    .receive "A" 1, .receive "A" 1, .update "A" noFiles, .receive "B" 1, .receive "B" 1,
    .update "B" noFiles]

lemma smooth_session {n : NetworkedSession} {id i : Nat} {c : Connection}
    {session : WebsocketSession Json} {op : SessionOperation Json} {text : Json}
    (hentry : n.server.sessions[id]? = some (c, session)) (hop : session.pending[i]? = some op)
    (hkind : SessionProtocol.isPost op = true ∨ SessionProtocol.isWrite op = true)
    (hturn : (session.pending.take i).filterMap SessionProtocol.postedText = [])
    (halive : (n.server.perform (.session id i false text)).crash = none) :
    Smooth n (.server (.session id i false text)) := by
  refine ⟨?_, ⟨rfl, ?_⟩, halive⟩
  · intro entry hsame
    rw [hentry] at hsame
    obtain rfl := Option.some.inj hsame
    exact fun _ _ => hturn
  · intro c' session' hsame op' hop'
    rw [hentry] at hsame
    obtain ⟨rfl, rfl⟩ := Prod.mk.inj (Option.some.inj hsame)
    rw [hop] at hop'
    obtain rfl := Option.some.inj hop'
    exact hkind

lemma smooth_editedOverSockets : Runs.AllSteps (NetworkedSession.perform twoUsers) Smooth
    { server := joinedServer, client := editor, socket := fun _ => joinedSocket }
    editedOverSockets := by
  have hdecoded : ∀ text, ((Runs.final (NetworkedSession.perform twoUsers)
      { server := joinedServer, client := editor, socket := fun _ => joinedSocket }
      (editedOverSockets.take 3)).socket "A").writes[0]? = some text → parseFault text = none := by
    intro text htext
    obtain rfl := Option.some.inj htext
    rfl
  refine ⟨trivial, trivial, ⟨rfl, rfl, fun _ _ => rfl, fun _ => rfl⟩, hdecoded,
    ⟨rfl, rfl, fun _ _ => rfl, fun _ => rfl⟩, smooth_session rfl rfl (.inl rfl) rfl rfl,
    smooth_session rfl rfl (.inl rfl) rfl rfl, smooth_session rfl rfl (.inr rfl) rfl rfl,
    smooth_session rfl rfl (.inr rfl) rfl rfl, smooth_session rfl rfl (.inl rfl) rfl rfl,
    smooth_session rfl rfl (.inl rfl) rfl rfl, smooth_session rfl rfl (.inr rfl) rfl rfl,
    smooth_session rfl rfl (.inr rfl) rfl rfl, trivial, trivial, trivial, trivial, trivial, trivial,
    trivial⟩

/-- Both members hold what the one has set, once nothing is on its way. -/
theorem converged_over_sockets_edit :
    let start : NetworkedSession :=
      { server := joinedServer, client := editor, socket := fun _ => joinedSocket }
    Runs.AllStates (NetworkedSession.perform twoUsers)
        (fun n => (∀ user ∈ twoUsers.members, Settled twoUsers "L" n user) →
          Converged twoUsers "L" onePrim (view twoUsers n)) start editedOverSockets ∧
      ((layerData ((Runs.final (NetworkedSession.perform twoUsers) start editedOverSockets).client "B")
        "L").get "/a" "kind").getStdString = "x" := by
  intro start
  have hagree : Runs.AllSteps (NetworkedSession.perform twoUsers) (EditsAgree twoUsers "L") start
      editedOverSockets := by
    have hlink : ∀ {n action}, ownAction action = none → EditsAgree twoUsers "L" n action :=
      editsAgree_of_link
    have hupdate : ∀ {n user}, SkipsAgree twoUsers "L" (view twoUsers n) (.update user noFiles) →
        EditsAgree twoUsers "L" n (.update user noFiles) := by
      intro n user hskips own hown
      obtain rfl := List.mem_singleton.1 hown
      exact ⟨trivial, hskips⟩
    refine ⟨?_, hupdate fun _ => atForeignDeltas_own noFiles (by decide), hlink rfl, hlink rfl,
      hlink rfl, hlink rfl, hlink rfl, hlink rfl, hlink rfl, hlink rfl, hlink rfl, hlink rfl,
      hlink rfl, hlink rfl, hlink rfl, hupdate fun _ => atForeignDeltas_own noFiles (by decide),
      hlink rfl, hlink rfl, hupdate ?_, trivial⟩
    · intro own hown
      obtain rfl := List.mem_singleton.1 hown
      exact ⟨editing_string (by decide) (by decide) (by decide),
        fun _ => atForeignDeltas_silent (by simp)⟩
    · refine skipsAgree_listening noFiles (by decide +kernel) (AList.ext (List.isEmpty_iff.1 ?_))
        (List.isEmpty_iff.1 ?_) (by decide +kernel)
      · decide +kernel
      · decide +kernel
  exact ⟨converged_over_sockets sample_laws twoUsers "L" onePrim editor
    (fun user _ => editor_holdsLayer user) established_twoUsers editedOverSockets
    smooth_editedOverSockets hagree, by decide⟩

end Networked

end

end RenderStudioKit.Proofs
