import RenderStudioKit.Proofs.ReloadedClient
import RenderStudioKit.Proofs.ReloadEpochs

/-!
# A session in which one client reloads

What the members but the initiator hold once they have read the file again and nothing is under
way: the file with the deltas of the new epoch, as long as no own delta of theirs was under way
when they read it.
-/

namespace RenderStudioKit.Proofs

open API PathState

section

variable [Usd]

/-- No reload, and what a flush sends of the layer behind the requested reloads can be
transmitted. -/
def Flushable (room : Room) (layer : String) (s : Session) : SessionAction → Prop
  | .update w files => w ∈ room.members → AllValues RoundTrips
      (layerData (reloaded (s.client w) files).format layer).mLocalDeltas
  | .reload _ _ _ => False
  | _ => True

/-- No delta of the client is on its way to the server or in the history. -/
def NoneUnderWay (room : Room) (layer : String) (s : Session) (user : String) : Prop :=
  (∀ v ∈ layerHistory room layer s, v.user ≠ user) ∧
    (s.uplink user).filterMap (layerDelta layer) = []

/-- A reload of the layer has still to be carried out by the client. -/
def ReloadAhead (room : Room) (layer : String) (s : Session) (user : String) : Prop :=
  (∃ w ∈ room.members, ∃ text ∈ s.uplink w, (layerReload layer text).isSome) ∨
    ReloadPending layer (s.client user) (s.downlink user)

instance (room : Room) (layer : String) (s : Session) (user : String) :
    Decidable (ReloadAhead room layer s user) :=
  inferInstanceAs (Decidable (_ ∨ _))

/-- The step of a session in which the client carries out the reload with no own delta under way,
and from then on agrees with the replay. -/
structure Recovers (room : Room) (layer user : String) (file : HashTable) (s : Session)
    (action : SessionAction) : Prop where
  flushable : Flushable room layer s action
  reads : ∀ files, action = .update user files → layer ∈ (s.client user).mRequestedReloads →
    files layer = some file ∧ NoneUnderWay room layer s user
  keepsEdit : ∀ path field value, action = .set user layer path field value →
    ReloadAhead room layer s user ∨ KeepsEdit (layerData (s.client user) layer) path field value
  keepsReplay : ∀ files, action = .update user files → ReloadAhead room layer s user ∨
    ∀ path, AtForeignDeltas room layer path (KeepsReplay path) s action

/-- The texts with the reload of the layer that are on their way to the server. -/
def ReloadStage.reloads : ReloadStage → Nat
  | .announced => 1
  | .before | .handled => 0

/-- The session while the initiator reloads the layer, as far as it concerns the client. -/
structure Course (room : Room) (layer user initiator : String) (file : HashTable)
    (stage : ReloadStage) (s : Session) : Prop where
  connections : (roomChannel room s.server).mConnections = room.members.map room.connection
  holder : ∀ w ∈ room.members, Holder layer w (s.client w)
  uplink : ∀ w ∈ room.members, ∀ text ∈ s.uplink w,
    SendsRecorded layer w text ∨ w = initiator ∧ (layerReload layer text).isSome
  reloads : ((s.uplink initiator).filterMap (layerReload layer)).length = stage.reloads
  history : ∀ v ∈ layerHistory room layer s, RecordedTable v.updates
  following : Following user layer file (layerHistory room layer s) (s.client user)
    (s.uplink user) (s.downlink user) stage

lemma SendsRecorded.layerReload {layer user : String} {text : Json}
    (h : SendsRecorded layer user text) : layerReload layer text = none :=
  layerReload_deltaOf h.delta

namespace Course

variable {room : Room} {layer user initiator : String} {file : HashTable} {stage : ReloadStage}
  {s : Session} {w : String}

/-- A step of one client. -/
lemma withClient (h : Course room layer user initiator file stage s) {stage' : ReloadStage}
    {o : LiveOutcome} (hholder : Holder layer w o.format)
    (hsent : ∀ text ∈ o.sent,
      SendsRecorded layer w text ∨ w = initiator ∧ (Proofs.layerReload layer text).isSome)
    (hreloads : stage'.reloads = stage.reloads +
      if w = initiator then (o.sent.filterMap (Proofs.layerReload layer)).length else 0)
    (hfollowing : w = user → Following user layer file (layerHistory room layer s) o.format
      (s.uplink user ++ o.sent) (s.downlink user) stage')
    (hothers : w ≠ user → Following user layer file (layerHistory room layer s) (s.client user)
      (s.uplink user) (s.downlink user) stage') :
    Course room layer user initiator file stage' (s.withClient w o) := by
  refine ⟨h.connections, fun m hm => ?_, fun m hm text htext => ?_, ?_, h.history, ?_⟩
  · by_cases hmw : m = w
    · subst hmw
      simpa [Session.withClient] using hholder
    · simpa [Session.withClient, hmw] using h.holder m hm
  · by_cases hmw : m = w
    · subst hmw
      simp only [Session.withClient, Function.update_self, List.mem_append] at htext
      rcases htext with hold | hnew
      · exact h.uplink m hm text hold
      · exact hsent text hnew
    · simp only [Session.withClient, Function.update_of_ne hmw] at htext
      exact h.uplink m hm text htext
  · by_cases hinitiator : initiator = w
    · subst hinitiator
      rw [if_pos rfl, ← h.reloads] at hreloads
      simp [Session.withClient, hreloads]
    · rw [if_neg fun heq => hinitiator heq.symm, Nat.add_zero, ← h.reloads] at hreloads
      simp [Session.withClient, hinitiator, hreloads]
  · change Following user layer file (layerHistory room layer s) _ _ (s.downlink user) stage'
    by_cases huser : user = w
    · subst huser
      simpa [Session.withClient] using hfollowing rfl
    · simpa [Session.withClient, huser] using hothers fun heq => huser heq.symm

lemma reloads_sent {texts : List Json} (h : ∀ text ∈ texts, SendsRecorded layer w text) :
    texts.filterMap (Proofs.layerReload layer) = [] :=
  List.filterMap_eq_nil_iff.2 fun text htext => (h text htext).layerReload

lemma not_reloadAhead (h : Course room layer user initiator file .handled s)
    (hpending : ¬ReloadPending layer (s.client user) (s.downlink user)) :
    ¬ReloadAhead room layer s user := by
  rintro (⟨w, hw, text, htext, hreload⟩ | hreload)
  · rcases h.uplink w hw text htext with hsends | ⟨rfl, -⟩
    · rw [hsends.layerReload] at hreload
      exact absurd hreload (by simp)
    · have hnone := List.filterMap_eq_nil_iff.1 (List.length_eq_zero_iff.1 h.reloads) text htext
      rw [hnone] at hreload
      exact absurd hreload (by simp)
  · exact hpending hreload

lemma set (h : Course room layer user initiator file stage s) (hw : w ∈ room.members)
    {edited : String} {path : SdfPath} {field : TfToken} {value : VtValue}
    (hok : stage = .handled →
      Recovers room layer user file s (.set w edited path field value)) :
    Course room layer user initiator file stage
      (s.withClient w { format := (s.client w).setField edited path field value }) := by
  refine h.withClient ((h.holder w hw).setField edited path field value) ?_ ?_ ?_ ?_
  · exact fun text htext => absurd htext List.not_mem_nil
  · split_ifs <;> rfl
  · rintro rfl
    rw [List.append_nil]
    refine h.following.setField (h.holder w hw) fun hpending hstage hlayer => ?_
    subst hlayer hstage
    exact ((hok rfl).keepsEdit path field value rfl).resolve_left (h.not_reloadAhead hpending)
  · exact fun _ => h.following

lemma update (laws : UsdLaws) (h : Course room layer user initiator file stage s)
    (hw : w ∈ room.members) {files : String → Option HashTable}
    (hflush : Flushable room layer s (.update w files))
    (hok : stage = .handled → Recovers room layer user file s (.update w files)) :
    Course room layer user initiator file stage
      (s.withClient w ((s.client w).processLiveUpdates files)) := by
  have hholder := h.holder w hw
  have hsent := hholder.sends laws files (hflush hw)
  refine h.withClient (hholder.processLiveUpdates files) (fun text htext => .inl (hsent text htext))
    ?_ ?_ fun _ => h.following
  · rw [reloads_sent hsent]
    split_ifs <;> rfl
  · rintro rfl
    refine h.following.processLiveUpdates laws hholder (hflush hw) h.history ?_ ?_
    · exact fun hstage hrequested => (hok hstage).reads files rfl hrequested
    · intro hpending hstage path
      subst hstage
      have hkeeps := ((hok rfl).keepsReplay files rfl).resolve_left (h.not_reloadAhead hpending) path
      unfold AtForeignDeltas at hkeeps
      rw [logActions_update path hw] at hkeeps
      exact ⟨view room layer path s, rfl, view_replica path hw, hkeeps⟩

lemma deliver (h : Course room layer user initiator file stage s) (hw : w ∈ room.members) :
    Course room layer user initiator file stage (s.deliver w) := by
  rcases deliver_cases s w with ⟨-, hsame⟩ | ⟨text, rest, hdownlink, hdeliver⟩
  · rwa [hsame]
  · rw [hdeliver]
    refine ⟨h.connections, fun m hm => ?_, h.uplink, h.reloads, h.history, ?_⟩
    · dsimp only
      by_cases hmw : m = w
      · subst hmw
        rw [Function.update_self]
        exact (h.holder m hm).onMessage text
      · rw [Function.update_of_ne hmw]
        exact h.holder m hm
    · change Following user layer file (layerHistory room layer s) _ (s.uplink user) _ stage
      dsimp only
      by_cases huser : user = w
      · subst huser
        rw [Function.update_self, Function.update_self]
        exact h.following.onMessage (h.holder user hw) hdownlink
      · rw [Function.update_of_ne huser, Function.update_of_ne huser]
        exact h.following

lemma uplink_rest (h : Course room layer user initiator file stage s) {text : Json}
    {rest : List Json} (huplink : s.uplink w = text :: rest) {m : String}
    (hm : m ∈ room.members) : ∀ t ∈ Function.update s.uplink w rest m,
      SendsRecorded layer m t ∨ m = initiator ∧ (Proofs.layerReload layer t).isSome := by
  intro t ht
  by_cases hmw : m = w
  · subst hmw
    rw [Function.update_self] at ht
    refine h.uplink m hm t ?_
    rw [huplink]
    exact List.mem_cons_of_mem text ht
  · rw [Function.update_of_ne hmw] at ht
    exact h.uplink m hm t ht

/-- The server handles a delta. -/
lemma serve_delta (laws : UsdLaws) (h : Course room layer user initiator file stage s)
    (huser : user ∈ room.members) (hw : w ∈ room.members) {text : Json} {rest : List Json}
    (huplink : s.uplink w = text :: rest) (hsends : SendsRecorded layer w text) :
    Course room layer user initiator file stage (s.serve room w) := by
  obtain ⟨hconnections, hserves⟩ :=
    Proofs.serve_delta laws h.connections hw huplink hsends.delta hsends.values
  obtain ⟨hclients, huplinks⟩ := serve_frame room huplink
  refine ⟨hconnections, fun m hm => ?_, fun m hm => ?_, ?_, ?_, ?_⟩
  · rw [hclients]
    exact h.holder m hm
  · rw [huplinks]
    exact h.uplink_rest huplink hm
  · rw [← h.reloads, huplinks]
    by_cases hinitiator : initiator = w
    · subst hinitiator
      rw [Function.update_self, huplink, List.filterMap_cons_none hsends.layerReload]
    · rw [Function.update_of_ne hinitiator]
  · cases hserves with
    | other hdelta hhistory hdownlink =>
      rw [hhistory]
      exact h.history
    | numbered v hdelta hauthor hhistory hdownlink =>
      rw [hhistory]
      intro v' hv'
      rcases List.mem_append.1 hv' with hold | hnew
      · exact h.history v' hold
      · rw [List.mem_singleton.1 hnew]
        exact hsends.recorded v hdelta
  · rw [hclients, huplinks]
    cases hserves with
    | other hdelta hhistory hdownlink =>
      obtain ⟨replies, hreplies, hother⟩ := hdownlink user huser
      rw [hhistory, hreplies]
      by_cases hown : user = w
      · subst hown
        rw [Function.update_self]
        refine h.following.map (fun g rest' hg => (hg.served huplink).append_other hother) ?_
        exact fun hreplays => hreplays.congr_data rfl
          (by rw [huplink, List.filterMap_cons_none hdelta])
      · rw [Function.update_of_ne hown]
        exact h.following.map (fun g rest' hg => hg.append_other hother) id
    | numbered v hdelta hauthor hhistory hdownlink =>
      obtain ⟨reply, table, hreply, hreload, hupdate, htable⟩ := hdownlink user huser
      rw [hhistory, hreply]
      by_cases hown : user = w
      · subst hown
        rw [Function.update_self]
        refine h.following.map (fun g rest' hg => ?_) fun hreplays =>
          hreplays.serve_own huplink hdelta hauthor _
        exact (hg.served huplink).append hreload hupdate htable
      · rw [Function.update_of_ne hown]
        refine h.following.map (fun g rest' hg => hg.append hreload hupdate htable)
          fun hreplays => hreplays.serve_foreign ?_ (hsends.recorded v hdelta) _
        exact fun heq => hown (heq.symm.trans hauthor)

/-- The server handles the reload. -/
lemma serve_reload (h : Course room layer user initiator file stage s) (huser : user ∈ room.members)
    (hother : user ≠ initiator) (hinitiator : initiator ∈ room.members) {text : Json}
    {rest : List Json} (huplink : s.uplink initiator = text :: rest)
    (hreload : (Proofs.layerReload layer text).isSome) :
    stage = .announced ∧
      Course room layer user initiator file .handled (s.serve room initiator) := by
  obtain ⟨v, hv⟩ := Option.isSome_iff_exists.1 hreload
  have hreloads := h.reloads
  rw [huplink, List.filterMap_cons_some hv, List.length_cons] at hreloads
  have hstage : stage = .announced := by
    cases stage with
    | announced => rfl
    | before => simp [ReloadStage.reloads] at hreloads
    | handled => simp [ReloadStage.reloads] at hreloads
  subst hstage
  refine ⟨rfl, ?_⟩
  obtain ⟨hchannel, hreplies⟩ := onMessage_reload h.connections hinitiator hv
  obtain ⟨reply, hreply, hreloadsLayer⟩ := hreplies user huser hother
  have hhistory : layerHistory room layer (s.serve room initiator) = [] := by
    rw [serve_eq huplink, layerHistory, hchannel, deltas_clearHistory, if_pos rfl]
  obtain ⟨hclients, huplinks⟩ := serve_frame room huplink
  refine ⟨?_, fun m hm => ?_, fun m hm => ?_, ?_, ?_, ?_⟩
  · rw [serve_eq huplink, hchannel, clearHistory_connections]
    exact h.connections
  · rw [hclients]
    exact h.holder m hm
  · rw [huplinks]
    exact h.uplink_rest huplink hm
  · rw [huplinks, Function.update_self]
    exact Nat.succ.inj hreloads
  · rw [hhistory]
    exact fun v hv => absurd hv List.not_mem_nil
  · rw [hhistory, hclients, huplinks, Function.update_of_ne hother, serve_eq huplink]
    dsimp only
    rw [hreply]
    exact h.following.renew hreloadsLayer

lemma reload (h : Course room layer user initiator file .before s)
    (hinitiator : initiator ∈ room.members) (hother : user ≠ initiator)
    (hannounces : announcesReload (s.client initiator) layer = true) (content : HashTable) :
    Course room layer user initiator file .announced
      (s.withClient initiator ((s.client initiator).read layer content)) := by
  have hsent : ∃ text v, ((s.client initiator).read layer content).sent = [text] ∧
      Proofs.layerReload layer text = some v := by
    let body : ReloadEvent := ⟨layer, (s.client initiator).userId, none⟩
    obtain ⟨text, htext⟩ := reload_event_encodes body
    refine ⟨text, body, ?_, ?_⟩
    · unfold RenderStudioFileFormat.read
      dsimp only
      rw [if_pos, htext]
      · rfl
      · simpa [announcesReload, and_assoc] using hannounces
    · rw [Proofs.layerReload, parseEvent_reload htext]
      exact if_pos rfl
  obtain ⟨text, v, hsent, hv⟩ := hsent
  refine h.withClient ((h.holder initiator hinitiator).read layer content) ?_ ?_ ?_ ?_
  · intro t ht
    rw [hsent, List.mem_singleton] at ht
    exact .inr ⟨rfl, by rw [ht, hv]; rfl⟩
  · rw [hsent, if_pos rfl, List.filterMap_cons_some hv]
    rfl
  · exact fun heq => absurd heq.symm hother
  · intro _
    cases h.following with
    | ahead hstage hlinked => exact .ahead (by simp) hlinked

lemma start {base : String → HashTable} {client : String → RenderStudioFileFormat}
    (hclient : ∀ w ∈ room.members, HoldsLayer layer w (base w) (client w))
    (huser : user ∈ room.members) :
    Course room layer user initiator file .before (.start room client) := by
  have hjoined := joined_start room client
  have hlinked := linked_start hclient
  have hhistory : layerHistory room layer (Session.start room client) = [] := hjoined.noDeltas layer
  refine ⟨hjoined.connections, fun w hw => ?_, fun w hw text htext => ?_, ?_, ?_,
    .ahead (by simp) (hlinked.client user huser)⟩
  · have hholds := hclient w hw
    rw [hjoined.clients]
    refine ⟨hholds.userId, by rw [hholds.holds]; rfl, ?_⟩
    rw [hholds.layerData]
    exact recordsEdits_loaded (base w)
  · rw [hjoined.uplink] at htext
    exact absurd htext List.not_mem_nil
  · rw [hjoined.uplink]
    rfl
  · rw [hhistory]
    exact fun v hv => absurd hv List.not_mem_nil

/-- One step without a reload. -/
theorem perform (laws : UsdLaws) (h : Course room layer user initiator file stage s)
    (huser : user ∈ room.members) (hother : user ≠ initiator) {action : SessionAction}
    (hflush : Flushable room layer s action)
    (hok : stage = .handled → Recovers room layer user file s action) :
    Course room layer user initiator file stage (s.perform room action) ∨
      stage = .announced ∧
        Course room layer user initiator file .handled (s.perform room action) := by
  unfold Session.perform
  by_cases hmember : action.user ∈ room.members
  · rw [if_neg (not_not.2 hmember)]
    cases action with
    | set w edited path field value => exact .inl (h.set hmember hok)
    | update w files => exact .inl (h.update laws hmember hflush hok)
    | reload w edited content => exact absurd hflush id
    | serve w =>
      cases huplink : s.uplink w with
      | nil =>
        have hsame : s.serve room w = s := by rw [Session.serve, huplink]
        left
        dsimp only
        rwa [hsame]
      | cons text rest =>
        rcases h.uplink w hmember text (huplink ▸ List.mem_cons_self) with
          hsends | ⟨rfl, hreload⟩
        · exact .inl (h.serve_delta laws huser hmember huplink hsends)
        · exact .inr (h.serve_reload huser hother hmember huplink hreload)
    | deliver w => exact .inl (h.deliver hmember)
  · rw [if_pos hmember]
    exact .inl h

end Course

/-- The tables of a history under their numbers. -/
def historyTable (history : List DeltaEvent) (k : Nat) : HashTable :=
  (history[k - 1]?.map (·.updates)).getD ∅

lemma lookup_appliedInOrder_history (file : HashTable) (history : List DeltaEvent)
    (path : SdfPath) :
    (appliedInOrder file (historyTable history) history.length).lookup path =
      replayAll path (history.map (·.updates.lookup path)) (file.lookup path) := by
  have hitems : ∀ k, (hk : k < (history.map (·.updates)).length) →
      historyTable history (k + 1) = (history.map (·.updates))[k] := by
    intro k hk
    rw [List.length_map] at hk
    simp [historyTable, hk]
  have hrun := Reassembly.upTo_eq_foldl
    (fun spec deltas => tableAt false deltas path spec) hitems (file.lookup path)
  rw [List.length_map] at hrun
  rw [lookup_appliedInOrder, specInOrder, hrun, replayAll, List.foldl_map, List.foldl_map]
  congr 1
  funext spec v
  unfold tableAt
  cases v.updates.lookup path <;> rfl

/-- Once nothing is under way, a client that did not reload the layer itself holds the file it
read with all deltas of the history applied in order, its own ones included. -/
theorem reloaded_client_replays (laws : UsdLaws) (room : Room) (layer : String)
    (base : String → HashTable) (client : String → RenderStudioFileFormat)
    (hclient : ∀ w ∈ room.members, HoldsLayer layer w (base w) (client w))
    {user initiator : String} (huser : user ∈ room.members) (hinitiator : initiator ∈ room.members)
    (hother : user ≠ initiator) (content file : HashTable) (before after : List SessionAction)
    (hbefore : Runs.AllSteps (Session.perform room) (Flushable room layer) (.start room client)
      before)
    (hannounces : announcesReload
      ((Runs.final (Session.perform room) (.start room client) before).client initiator)
      layer = true)
    (hafter : Runs.AllSteps (Session.perform room) (Recovers room layer user file)
      (Runs.final (Session.perform room) (.start room client)
        (before ++ [.reload initiator layer content])) after) :
    Runs.AllStates (Session.perform room)
      (fun s => (∀ w ∈ room.members, s.uplink w = []) → Quiet layer s user →
        layer ∉ (s.client user).mRequestedReloads →
        ∀ path, SameSpec ((layerData (s.client user) layer).mData.lookup path)
          ((appliedInOrder file (historyTable (layerHistory room layer s))
            (layerHistory room layer s).length).lookup path))
      (Runs.final (Session.perform room) (.start room client)
        (before ++ [.reload initiator layer content])) after := by
  let Reloading (s : Session) : Prop :=
    Course room layer user initiator file .announced s ∨
      Course room layer user initiator file .handled s
  have hcourse : Course room layer user initiator file .before
      (Runs.final (Session.perform room) (.start room client) before) := by
    refine (Runs.allStates_of_invariant (fun s action h hok => ?_) (Course.start hclient huser)
      hbefore).last
    exact (h.perform laws huser hother hok (by simp)).resolve_right (by simp)
  have hstep : ∀ s : Session, s.perform room (.reload initiator layer content) =
      s.withClient initiator ((s.client initiator).read layer content) :=
    fun s => if_neg (not_not.2 hinitiator)
  have hreloading : Reloading (Runs.final (Session.perform room) (.start room client)
      (before ++ [.reload initiator layer content])) := by
    rw [Runs.final_append, Runs.final_cons, Runs.final_nil, hstep]
    exact .inl (hcourse.reload hinitiator hother hannounces content)
  have hkeep : ∀ s action, Reloading s → Recovers room layer user file s action →
      Reloading (s.perform room action) := by
    rintro s action (h | h) hok
    · exact (h.perform laws huser hother hok.flushable (by simp)).imp_right (·.2)
    · exact .inr ((h.perform laws huser hother hok.flushable fun _ => hok).resolve_right (by simp))
  refine (Runs.allStates_of_invariant hkeep hreloading hafter).mono
    fun s h hserved hquiet hrequested path => ?_
  rcases h with h | h
  · have hreloads := h.reloads
    rw [hserved initiator hinitiator] at hreloads
    simp [ReloadStage.reloads] at hreloads
  · have hfollowing := h.following
    rw [hquiet.uplink, hquiet.downlink] at hfollowing
    rw [lookup_appliedInOrder_history]
    exact hfollowing.settled hrequested hquiet.noneAccumulated hquiet.noEdits path

lemma recovers_of_others {room : Room} {layer user : String} {file : HashTable} {s : Session}
    {action : SessionAction} (hflush : Flushable room layer s action)
    (hupdate : ∀ files, action ≠ .update user files)
    (hset : ∀ path field value, action ≠ .set user layer path field value) :
    Recovers room layer user file s action where
  flushable := hflush
  reads files heq := absurd heq (hupdate files)
  keepsEdit path field value heq := absurd heq (hset path field value)
  keepsReplay files heq := absurd heq (hupdate files)

lemma recovers_of_own {room : Room} {layer user : String} {file : HashTable} {s : Session}
    {files : String → Option HashTable} (hflush : Flushable room layer s (.update user files))
    (hrequested : layer ∉ (s.client user).mRequestedReloads)
    (hhistory : ∀ v ∈ layerHistory room layer s, v.user = user) :
    Recovers room layer user file s (.update user files) where
  flushable := hflush
  reads _ _ hmem := absurd hmem hrequested
  keepsEdit path field value heq := by cases heq
  keepsReplay _ _ := .inr fun _ =>
    atForeignDeltas_own files fun v hv => hhistory v (List.mem_of_mem_drop hv)

lemma flushable_of_empty {room : Room} {layer w : String} {s : Session}
    {files : String → Option HashTable}
    (h : (layerData (reloaded (s.client w) files).format layer).mLocalDeltas.entries.isEmpty) :
    Flushable room layer s (.update w files) := by
  intro _
  have hempty : (layerData (reloaded (s.client w) files).format layer).mLocalDeltas = ∅ :=
    AList.ext (List.isEmpty_iff.1 h)
  rw [hempty]
  exact AllValues.empty RoundTrips

lemma flushable_after_set {room : Room} {layer w : String} {s : Session} {path : SdfPath}
    {field : TfToken} {value : VtValue} (hmember : w ∈ room.members) (hvalue : RoundTrips value)
    (hrequested : (s.client w).mRequestedReloads = [])
    (hregistered : ((s.client w).mLayerRegistry.lookup layer).isSome)
    (hready : (layerData (s.client w) layer).mIsProcessingRemoteUpdates = false ∧
      (layerData (s.client w) layer).mIsLoaded = true ∧
      (layerData (s.client w) layer).mLocalDeltas.entries.isEmpty)
    (files : String → Option HashTable) :
    Flushable room layer (s.perform room (.set w layer path field value)) (.update w files) := by
  intro _
  obtain ⟨hidle, hloaded, hempty⟩ := hready
  have hclient : (s.perform room (.set w layer path field value)).client w =
      (s.client w).setField layer path field value := by
    have hstep : s.perform room (.set w layer path field value) =
        s.withClient w { format := (s.client w).setField layer path field value } :=
      if_neg (not_not.2 hmember)
    rw [hstep]
    simp [Session.withClient]
  have hrequests := (setField_frame (s.client w) layer path field value).2.1.trans hrequested
  have hdata : layerData (reloaded ((s.client w).setField layer path field value) files).format
      layer = (layerData (s.client w) layer).set path field value := by
    rw [layerData, reloaded_lookup_none files hrequests, ← layerData_setField hregistered]
    rfl
  rw [hclient, hdata]
  refine set_localDeltas_values hidle hloaded ?_ path field fun _ => hvalue
  rw [AList.ext (List.isEmpty_iff.1 hempty) (t := ∅)]
  exact AllValues.empty RoundTrips

end

section

attribute [local instance] Usd.sample

/-- The first user reloads. The second one follows, edits the layer and hears of its delta. -/
theorem reloaded_client_replays_edit :
    let before : List SessionAction := [.deliver "A", .deliver "B"]
    let after : List SessionAction :=
      [.serve "A", .deliver "B", .update "B" fun _ => some onePrim,
        .set "B" "L" "/a" "kind" (.string "y"), .update "B" noFiles, .serve "B", .deliver "A",
        .update "A" noFiles, .deliver "B", .update "B" noFiles]
    let start := Runs.final (Session.perform twoUsers) (.start twoUsers editor)
      (before ++ [.reload "A" "L" onePrim])
    let s := Runs.final (Session.perform twoUsers) start after
    (∀ w ∈ twoUsers.members, Quiet "L" s w ∧ "L" ∉ (s.client w).mRequestedReloads) ∧
      ((layerData (s.client "B") "L").get "/a" "kind").getStdString = "y" ∧
      Runs.AllStates (Session.perform twoUsers)
        (fun s => (∀ w ∈ twoUsers.members, s.uplink w = []) → Quiet "L" s "B" →
          "L" ∉ (s.client "B").mRequestedReloads →
          ∀ path, SameSpec ((layerData (s.client "B") "L").mData.lookup path)
            ((appliedInOrder onePrim (historyTable (layerHistory twoUsers "L" s))
              (layerHistory twoUsers "L" s).length).lookup path))
        start after := by
  intro before after start s
  refine ⟨by decide, by decide, ?_⟩
  apply reloaded_client_replays sample_laws twoUsers "L" (fun _ => onePrim) editor
    (fun user _ => editor_holdsLayer user) (by decide) (by decide) (by decide) onePrim onePrim
  · exact ⟨trivial, trivial, trivial⟩
  · decide
  · refine ⟨recovers_of_others trivial (by simp) (by simp),
      recovers_of_others trivial (by simp) (by simp), ?_, ?_,
      recovers_of_own (flushable_after_set (by decide) (string_supported "y") rfl rfl (by decide) _)
        (by decide) (by decide),
      recovers_of_others trivial (by simp) (by simp),
      recovers_of_others trivial (by simp) (by simp),
      recovers_of_others (flushable_of_empty (by decide)) (by simp) (by simp),
      recovers_of_others trivial (by simp) (by simp),
      recovers_of_own (flushable_of_empty (by decide)) (by decide) (by decide), trivial⟩
    · refine ⟨flushable_of_empty (by decide), fun files heq _ => ?_, by simp,
        fun _ _ => .inl (by decide)⟩
      cases heq
      exact ⟨rfl, by decide, by decide⟩
    · refine ⟨trivial, by simp, fun path field value heq => ?_, by simp⟩
      cases heq
      exact .inr ⟨fun hempty => absurd hempty (by decide), fun _ => by decide⟩

/-- The edit of the second user is on its way when the server handles the reload of the first one,
which makes it the first delta of the new epoch. Its author reads the file, which does not have
it, and gets an acknowledge. -/
theorem own_edit_lost_in_reload :
    let before : List SessionAction :=
      [.set "B" "L" "/a" "kind" (.string "y"), .update "B" noFiles]
    let after : List SessionAction :=
      [.serve "A", .serve "B", .deliver "B", .deliver "B", .deliver "B",
        .update "B" fun _ => some onePrim, .deliver "A", .deliver "A", .update "A" noFiles]
    let s := Runs.final (Session.perform twoUsers) (.start twoUsers editor)
      (before ++ [.reload "A" "L" onePrim] ++ after)
    let replayed := appliedInOrder onePrim (historyTable (layerHistory twoUsers "L" s))
      (layerHistory twoUsers "L" s).length
    announcesReload ((Runs.final (Session.perform twoUsers) (.start twoUsers editor) before).client
        "A") "L" = true ∧
      (∀ w ∈ twoUsers.members, Quiet "L" s w ∧ "L" ∉ (s.client w).mRequestedReloads) ∧
      ((layerData (s.client "B") "L").get "/a" "kind").isEmpty = true ∧
      (((replayed.lookup "/a").bind (·.fields.lookup "kind")).getD .empty).getStdString = "y" ∧
      ¬∀ path, SameSpec ((layerData (s.client "B") "L").mData.lookup path)
        (replayed.lookup path) := by
  intro before after s replayed
  refine ⟨by decide, by decide, by decide, by decide, fun hsame => ?_⟩
  have hkind := congrArg Option.isSome ((hsame "/a").fields "kind")
  revert hkind
  decide

end

end RenderStudioKit.Proofs
