import RenderStudioKit.Proofs.LayerUpdates
import RenderStudioKit.Model.LiveSession
import RenderStudioKit.Lib.Runs

/-!
# The order of the live session calls

Whether `Send` may be called depends on what was connected and disconnected before. The results say
which calls are safe: a step is good if every `Send` it makes goes through a stream and no local edit
is taken from a layer without a client to hand it to.
-/

namespace RenderStudioKit.Proofs

open API RenderStudioFileFormat

section

variable {Message : Type}

open WebsocketClient

@[simp] lemma start_stream (c : WebsocketClient Message) (operation : Operation Message) :
    (c.start operation).mWebsocketStream = c.mWebsocketStream := rfl

@[simp] lemma call_stream (c : WebsocketClient Message) (callback : ClientCallback Message) :
    (c.call callback).mWebsocketStream = c.mWebsocketStream := rfl

@[simp] lemma setValue_stream (c : WebsocketClient Message) (promise : Nat) (value : Bool) :
    (c.setValue promise value).mWebsocketStream = c.mWebsocketStream := by
  unfold setValue
  split <;> rfl

@[simp] lemma disconnect_stream (c : WebsocketClient Message) :
    c.disconnect.mWebsocketStream = c.mWebsocketStream := by
  unfold WebsocketClient.disconnect
  dsimp only
  split_ifs <;> simp

@[simp] lemma send_stream (c : WebsocketClient Message) (message : Message) :
    (c.send message).mWebsocketStream = c.mWebsocketStream := by
  unfold WebsocketClient.send
  split
  · rfl
  · simp

@[simp] lemma writeBack_stream (c : WebsocketClient Message) :
    c.writeBack.mWebsocketStream = c.mWebsocketStream := by
  unfold writeBack
  split <;> simp

@[simp] lemma onPing_stream (c : WebsocketClient Message) (ec : Bool) :
    (c.onPing ec).mWebsocketStream = c.mWebsocketStream := by
  unfold onPing
  split_ifs <;> simp

@[simp] lemma onRead_stream (c : WebsocketClient Message) (ec : Bool) (received : Option Message) :
    (c.onRead ec received).mWebsocketStream = c.mWebsocketStream := by
  unfold onRead
  split_ifs
  · rfl
  · simp
  · cases received <;> simp

lemma onConnect_stream (c : WebsocketClient Message) (promise : Nat) (ec : Bool) (port : Nat)
    (hostNameSet : Bool) :
    (c.onConnect promise ec port hostNameSet).mWebsocketStream = c.mWebsocketStream := by
  unfold onConnect
  cases hstream : c.mWebsocketStream with
  | none => split_ifs <;> simp [hstream]
  | some stream =>
    cases stream with
    | ssl => split_ifs <;> simp [hstream]
    | tcp => split_ifs <;> simp [hstream]

lemma handle_stream (c : WebsocketClient Message) (completion : Completion Message)
    (operation : Operation Message) :
    (c.handle completion operation).mWebsocketStream = c.mWebsocketStream := by
  cases operation with
  | post message =>
    simp only [handle, write]
    split_ifs <;> simp
  | resolve host port promise =>
    simp only [handle, onResolve]
    split_ifs <;> simp
  | connect promise => exact onConnect_stream c promise _ _ _
  | sslHandshake promise =>
    simp only [handle, onSslHandshake]
    split_ifs <;> simp
  | handshake host target promise =>
    simp only [handle, onHandshake]
    split_ifs <;> simp
  | write message =>
    simp only [handle, onWrite]
    split_ifs <;> simp
  | read => exact onRead_stream c _ _
  | wait =>
    simp only [handle, ping]
    split_ifs <;> simp
  | ping => exact onPing_stream c _
  | close promise =>
    simp only [handle, onClose]
    split_ifs <;> simp

lemma complete_stream (c : WebsocketClient Message) (i : Nat) (completion : Completion Message) :
    (c.complete i completion).mWebsocketStream = c.mWebsocketStream := by
  unfold complete
  split
  · rfl
  · exact handle_stream _ completion _

end

section

variable [Usd]

section

variable (f : RenderStudioFileFormat) (files : String → Option HashTable)

lemma deltaMessage_empty (user layer : String) : deltaMessage user layer ∅ = [] := rfl

lemma foldl_updateLayer_sent (acknowledges : AList (fun _ : String => List AcknowledgeEvent))
    (deltas : AList (fun _ : String => List DeltaEvent))
    (entries : List (Sigma fun _ : String => RenderStudioData)) (o : LiveOutcome) :
    (entries.foldl (fun o e => o.updateLayer acknowledges deltas e.1 e.2) o).sent =
      o.sent ++ entries.flatMap fun e =>
        deltaMessage o.format.userId e.1 e.2.mLocalDeltas := by
  induction entries generalizing o with
  | nil => simp
  | cons e entries ih =>
    rw [List.foldl_cons, ih, List.flatMap_cons, ← List.append_assoc]
    rfl

/-- An update sends nothing exactly if every layer that is not reloaded first has no message. -/
lemma processLiveUpdates_sent_nil : (f.processLiveUpdates files).sent = [] ↔
    ∀ layer d, f.mLayerRegistry.lookup layer = some d →
      layer ∈ f.mRequestedReloads ∧ (files layer).isSome = true ∨
        deltaMessage f.userId layer d.mLocalDeltas = [] := by
  obtain ⟨huser, -, -, -, hnothing⟩ := reloaded_frame f files
  rw [processLiveUpdates_eq, foldl_updateLayer_sent, hnothing, List.nil_append,
    List.flatMap_eq_nil_iff, huser]
  have hentry : ∀ layer d, (⟨layer, d⟩ : Sigma fun _ : String => RenderStudioData) ∈
      (reloaded f files).format.mLayerRegistry.entries ↔ ∃ d₀,
        f.mLayerRegistry.lookup layer = some d₀ ∧
        (if layer ∈ f.mRequestedReloads then (files layer).elim d₀ loaded else d₀) = d := by
    intro layer d
    rw [← AList.mem_lookup_iff, Option.mem_def, reloaded_lookup, Option.map_eq_some_iff]
  constructor
  · intro h layer d hlookup
    by_cases hreload : layer ∈ f.mRequestedReloads ∧ (files layer).isSome = true
    · exact .inl hreload
    · right
      refine h ⟨layer, d⟩ ((hentry layer d).2 ⟨d, hlookup, ?_⟩)
      split_ifs with hrequested
      · cases hfile : files layer with
        | none => rfl
        | some file => exact absurd ⟨hrequested, by rw [hfile]; rfl⟩ hreload
      · rfl
  · rintro h ⟨layer, d⟩ hmem
    obtain ⟨d₀, hlookup, rfl⟩ := (hentry layer d).1 hmem
    rcases h layer d₀ hlookup with ⟨hrequested, hfile⟩ | hnone
    · obtain ⟨file, hfile⟩ := Option.isSome_iff_exists.1 hfile
      simp only [hrequested, if_true, hfile, Option.elim_some]
      exact deltaMessage_empty f.userId layer
    · split_ifs
      · cases files layer with
        | none => exact hnone
        | some file => exact deltaMessage_empty f.userId layer
      · exact hnone

lemma processRemoteUpdates_mLocalDeltas (d : RenderStudioData) :
    d.processRemoteUpdates.mLocalDeltas = d.mLocalDeltas := by
  have hkeep := processRemoteUpdates_keep (fun d' => d'.mLocalDeltas = d.mLocalDeltas)
    (fun d' deltas h _ => (applyRound_mLocalDeltas d' deltas).trans h)
    (d := { d with mIsProcessingRemoteUpdates := false }) rfl rfl
  exact hkeep.1

lemma updateData_mLocalDeltas (d : RenderStudioData) (acknowledges : List AcknowledgeEvent)
    (deltas : List DeltaEvent) : (updateData d acknowledges deltas).mLocalDeltas = ∅ := by
  unfold updateData
  rw [processRemoteUpdates_mLocalDeltas, accumulate_eq]
  rfl

lemma processLiveUpdates_mLocalDeltas {layer : String} {d : RenderStudioData}
    (h : (f.processLiveUpdates files).format.mLayerRegistry.lookup layer = some d) :
    d.mLocalDeltas = ∅ := by
  rw [(processLiveUpdates_layer f files layer).1, Option.map_eq_some_iff] at h
  obtain ⟨d₀, -, rfl⟩ := h
  exact updateData_mLocalDeltas d₀ _ _

lemma processLiveUpdates_pointer :
    (f.processLiveUpdates files).format.mWebsocketClient = f.mWebsocketClient ∧
      (f.processLiveUpdates files).format.mReloadInProgress = false := by
  have hreload : ∀ (reloads : List String) (o : LiveOutcome),
      (reloads.foldl (LiveOutcome.reloadLayer files) o).format.mWebsocketClient =
        o.format.mWebsocketClient := by
    intro reloads
    induction reloads with
    | nil => exact fun _ => rfl
    | cons layer reloads ih =>
      intro o
      rw [List.foldl_cons, ih]
      unfold LiveOutcome.reloadLayer
      split
      · rfl
      · split <;> rfl
  rw [processLiveUpdates_eq]
  refine AList.foldl_entries_keep
    (LiveOutcome.updateLayer f.mAccumulatedAcknowledges f.mAccumulatedDeltas)
    (fun o => o.format.mWebsocketClient = f.mWebsocketClient ∧ o.format.mReloadInProgress = false)
    (fun o layer d h => h) (reloaded f files).format.mLayerRegistry (reloaded f files) ⟨?_, rfl⟩
  exact hreload f.mRequestedReloads _

end

open LiveSession

lemma sendTarget_modify (s : LiveSession) (id : Nat)
    {g : WebsocketClient Json → WebsocketClient Json}
    (hg : ∀ c, (g c).mWebsocketStream = c.mWebsocketStream) :
    ({ s with clients := s.clients.modify id g } : LiveSession).sendTarget = s.sendTarget := by
  unfold sendTarget websocketClient
  cases s.format.mWebsocketClient with
  | none => rfl
  | some pointer =>
    simp only [Option.bind_some, List.getElem?_modify]
    cases s.clients[pointer]? with
    | none => rfl
    | some c =>
      by_cases hid : id = pointer
      · simp [hid, hg]
      · simp [hid]

lemma send_sendTarget (s : LiveSession) (message : Json) :
    (s.send message).sendTarget = s.sendTarget := by
  unfold LiveSession.send
  cases hpointer : s.format.mWebsocketClient with
  | none => rfl
  | some id => exact sendTarget_modify s id fun c => send_stream c message

lemma sendAll_sends (messages : List Json) (s : LiveSession) :
    (s.sendAll messages).sends = s.sends ++ messages.map fun _ => s.sendTarget := by
  unfold sendAll
  induction messages generalizing s with
  | nil => simp
  | cons message messages ih =>
    rw [List.foldl_cons, ih, send_sendTarget, List.map_cons, LiveSession.send]
    simp

lemma sendAll_frame (messages : List Json) (s : LiveSession) :
    (s.sendAll messages).format = s.format ∧
      (s.sendAll messages).clients.length = s.clients.length := by
  unfold sendAll
  induction messages generalizing s with
  | nil => exact ⟨rfl, rfl⟩
  | cons message messages ih =>
    obtain ⟨hformat, hlength⟩ := ih (s.send message)
    refine ⟨hformat.trans rfl, hlength.trans ?_⟩
    unfold LiveSession.send
    cases s.format.mWebsocketClient with
    | none => rfl
    | some id => exact List.length_modify ..

/-- Every `Send` of the step goes through a stream, and an update without a client leaves the local
edits where they are. -/
structure GoodStep (s : LiveSession) (operation : LiveOperation) : Prop where
  sends : ∀ target ∈ (s.perform operation).sends, target = .stream
  edits : ∀ files, operation = .liveSessionUpdate files → s.format.mWebsocketClient = none →
    ∀ layer d, s.format.mLayerRegistry.lookup layer = some d →
      ∀ path edit, d.mLocalDeltas.lookup path = some edit →
        ∃ d', (s.perform operation).format.mLayerRegistry.lookup layer = some d' ∧
          d'.mLocalDeltas.lookup path = some edit

/-- Without a client an update finds no local deltas. While the current client has no stream, since
its URL could not be parsed, an update has no message to send and no open layer is reloaded. -/
def Admitted (s : LiveSession) : LiveOperation → Prop
  | .liveSessionUpdate files =>
    match s.sendTarget with
    | .stream => True
    | .nullClient => ∀ layer d, s.format.mLayerRegistry.lookup layer = some d → d.mLocalDeltas = ∅
    | .nullStream => ∀ layer d, s.format.mLayerRegistry.lookup layer = some d →
        layer ∈ s.format.mRequestedReloads ∧ (files layer).isSome = true ∨
          deltaMessage s.format.userId layer d.mLocalDeltas = []
  | .read layer _ => (s.format.mLayerRegistry.lookup layer).isSome = true → s.sendTarget ≠ .nullStream
  | _ => True

/-- The pointer points to a client, and no reload is going on between the operations. -/
structure ConsistentCalls (s : LiveSession) : Prop where
  pointer : ∀ id, s.format.mWebsocketClient = some id → id < s.clients.length
  idle : s.format.mReloadInProgress = false

lemma ConsistentCalls.start : ConsistentCalls LiveSession.start where
  pointer := nofun
  idle := rfl

lemma sendTarget_nullClient_iff {s : LiveSession} (h : ConsistentCalls s) :
    s.sendTarget = .nullClient ↔ s.format.mWebsocketClient = none := by
  unfold sendTarget websocketClient
  cases hpointer : s.format.mWebsocketClient with
  | none => simp
  | some id =>
    rw [Option.bind_some, List.getElem?_eq_getElem (h.pointer id hpointer)]
    dsimp only
    split_ifs <;> simp

lemma setField_calls (f : RenderStudioFileFormat) (layer : String) (path : SdfPath)
    (field : TfToken) (value : VtValue) :
    (f.setField layer path field value).mWebsocketClient = f.mWebsocketClient ∧
      (f.setField layer path field value).mReloadInProgress = f.mReloadInProgress := by
  unfold RenderStudioFileFormat.setField
  split <;> exact ⟨rfl, rfl⟩

lemma onMessage_pointer (f : RenderStudioFileFormat) (message : Json) :
    (f.onMessage message).mWebsocketClient = f.mWebsocketClient ∧
      (f.onMessage message).mReloadInProgress = f.mReloadInProgress := by
  unfold RenderStudioFileFormat.onMessage
  split
  · exact ⟨rfl, rfl⟩
  · split
    · unfold RenderStudioFileFormat.processDeltaEvent
      split <;> exact ⟨rfl, rfl⟩
    · exact ⟨rfl, rfl⟩
    · exact ⟨rfl, rfl⟩
    · unfold RenderStudioFileFormat.processReloadEvent
      split <;> exact ⟨rfl, rfl⟩

/-- The operations keep the pointer valid. -/
lemma ConsistentCalls.perform {s : LiveSession} (h : ConsistentCalls s) (operation : LiveOperation) :
    ConsistentCalls (s.perform operation) := by
  cases operation with
  | liveSessionConnect userId endpoint =>
    refine ⟨fun id hid => ?_, h.idle⟩
    obtain rfl := Option.some.inj hid
    simp [LiveSession.perform, LiveSession.connect]
  | liveSessionUpdate files =>
    obtain ⟨hpointer, hidle⟩ := processLiveUpdates_pointer s.format files
    obtain ⟨hformat, hlength⟩ := sendAll_frame (s.format.processLiveUpdates files).sent
      { s with sends := [], format := (s.format.processLiveUpdates files).format }
    refine ⟨fun id hid => ?_, ?_⟩
    · have hid' := hpointer.symm.trans ((congrArg _ hformat.symm).trans hid)
      exact hlength.symm ▸ h.pointer id hid'
    · exact (congrArg _ hformat).trans hidle
  | liveSessionDisconnect =>
    unfold LiveSession.perform LiveSession.disconnect
    dsimp only
    split
    · exact ⟨h.pointer, h.idle⟩
    · exact ⟨nofun, h.idle⟩
  | read layer file =>
    obtain ⟨hformat, hlength⟩ := sendAll_frame (s.format.read layer file).sent
      { s with sends := [], format := (s.format.read layer file).format }
    refine ⟨fun id hid => ?_, ?_⟩
    · have hid' : s.format.mWebsocketClient = some id := (congrArg _ hformat.symm).trans hid
      exact hlength.symm ▸ h.pointer id hid'
    · exact (congrArg _ hformat).trans h.idle
  | set layer path field value =>
    obtain ⟨hpointer, hidle⟩ := setField_calls s.format layer path field value
    exact ⟨fun id hid => h.pointer id (hpointer.symm.trans hid), hidle.trans h.idle⟩
  | onMessage message =>
    obtain ⟨hpointer, hidle⟩ := onMessage_pointer s.format message
    exact ⟨fun id hid => h.pointer id (hpointer.symm.trans hid), hidle.trans h.idle⟩
  | complete client i completion =>
    refine ⟨fun id hid => ?_, h.idle⟩
    have hlength : (s.clients.modify client fun c => c.complete i completion).length =
        s.clients.length := List.length_modify ..
    exact hlength.symm ▸ h.pointer id hid

lemma sendTarget_congr {s s' : LiveSession}
    (hpointer : s'.format.mWebsocketClient = s.format.mWebsocketClient)
    (hclients : s'.clients = s.clients) : s'.sendTarget = s.sendTarget := by
  unfold sendTarget websocketClient
  rw [hpointer, hclients]

lemma sendAll_sendTarget (messages : List Json) (s : LiveSession) :
    (s.sendAll messages).sendTarget = s.sendTarget := by
  unfold sendAll
  induction messages generalizing s with
  | nil => rfl
  | cons message messages ih => rw [List.foldl_cons, ih, send_sendTarget]

/-- What a `Send` after the operation goes through: the last `Connect` or `Disconnect` decides, and
whether the URL could be parsed. -/
def targetAfter (target : SendTarget) : LiveOperation → SendTarget
  | .liveSessionConnect _ none => .nullStream
  | .liveSessionConnect _ (some _) => .stream
  | .liveSessionDisconnect => .nullClient
  | _ => target

lemma perform_sendTarget (s : LiveSession) (operation : LiveOperation) :
    (s.perform operation).sendTarget = targetAfter s.sendTarget operation := by
  cases operation with
  | liveSessionConnect userId endpoint =>
    cases endpoint <;>
      simp [LiveSession.perform, LiveSession.connect, sendTarget, websocketClient, targetAfter,
        WebsocketClient.connect]
  | liveSessionUpdate files =>
    refine (sendAll_sendTarget _ _).trans ?_
    exact sendTarget_congr (processLiveUpdates_pointer s.format files).1 rfl
  | liveSessionDisconnect =>
    cases hpointer : s.format.mWebsocketClient <;>
      simp [LiveSession.perform, LiveSession.disconnect, sendTarget, websocketClient, targetAfter,
        hpointer]
  | read layer file =>
    refine (sendAll_sendTarget _ _).trans ?_
    exact sendTarget_congr rfl rfl
  | set layer path field value =>
    exact sendTarget_congr (setField_calls s.format layer path field value).1 rfl
  | onMessage message => exact sendTarget_congr (onMessage_pointer s.format message).1 rfl
  | complete client i completion =>
    exact sendTarget_modify { s with sends := [] } client fun c => complete_stream c i completion

/-- The stream of a client is never taken away: in every run the last `Connect` or `Disconnect`
decides what a `Send` goes through. -/
theorem sendTarget_final (run : List LiveOperation) :
    (Runs.final LiveSession.perform .start run).sendTarget =
      Runs.final targetAfter .nullClient run :=
  Runs.final_view LiveSession.perform sendTarget perform_sendTarget .start run

lemma update_sends (s : LiveSession) (files : String → Option HashTable) :
    (s.perform (.liveSessionUpdate files)).sends =
      (s.format.processLiveUpdates files).sent.map fun _ => s.sendTarget := by
  have htarget : sendTarget { s with
        sends := [], format := (s.format.processLiveUpdates files).format } = s.sendTarget :=
    sendTarget_congr (processLiveUpdates_pointer s.format files).1 rfl
  have hsends := sendAll_sends (s.format.processLiveUpdates files).sent
    { s with sends := [], format := (s.format.processLiveUpdates files).format }
  rw [htarget, List.nil_append] at hsends
  exact hsends

lemma read_sends (s : LiveSession) (hidle : s.format.mReloadInProgress = false) (layer : String)
    (file : HashTable) : (s.perform (.read layer file)).sends =
      if (s.format.mLayerRegistry.lookup layer).isSome ∧ s.format.mWebsocketClient.isSome then
        [s.sendTarget]
      else [] := by
  have htarget : sendTarget { s with sends := [], format := (s.format.read layer file).format } =
      s.sendTarget := sendTarget_congr rfl rfl
  have hsends := sendAll_sends (s.format.read layer file).sent
    { s with sends := [], format := (s.format.read layer file).format }
  rw [htarget, List.nil_append] at hsends
  refine Eq.trans hsends ?_
  unfold RenderStudioFileFormat.read
  cases s.format.mLayerRegistry.lookup layer with
  | none => simp
  | some d =>
    cases s.format.mWebsocketClient with
    | none => simp
    | some id =>
      simp only [hidle, Option.isSome_some, Option.isNone_some, Bool.not_false, Bool.and_self,
        if_true, and_self]
      rfl

omit [Usd] in
lemma onlySends_iff {α : Type} (messages : List α) (target : SendTarget) :
    (∀ t ∈ messages.map (fun _ => target), t = .stream) ↔ messages = [] ∨ target = .stream := by
  constructor
  · intro h
    cases messages with
    | nil => exact .inl rfl
    | cons message messages => exact .inr (h target List.mem_cons_self)
  · rintro (rfl | htarget) t ht
    · exact absurd ht List.not_mem_nil
    · obtain ⟨message, -, rfl⟩ := List.mem_map.1 ht
      exact htarget

lemma eq_empty_of_lookup {t : HashTable} (h : ∀ path, t.lookup path = none) : t = ∅ := by
  apply AList.ext
  refine List.eq_nil_iff_forall_not_mem.2 fun e he => ?_
  have hlookup : t.lookup e.1 = some e.2 := AList.mem_lookup_iff.2 he
  rw [h] at hlookup
  cases hlookup

lemma update_edits_iff (s : LiveSession) (files : String → Option HashTable) :
    (∀ layer d, s.format.mLayerRegistry.lookup layer = some d →
      ∀ path edit, d.mLocalDeltas.lookup path = some edit →
        ∃ d', (s.perform (.liveSessionUpdate files)).format.mLayerRegistry.lookup layer = some d' ∧
          d'.mLocalDeltas.lookup path = some edit) ↔
      ∀ layer d, s.format.mLayerRegistry.lookup layer = some d → d.mLocalDeltas = ∅ := by
  have hformat := (sendAll_frame (s.format.processLiveUpdates files).sent
    { s with sends := [], format := (s.format.processLiveUpdates files).format }).1
  constructor
  · intro h layer d hlookup
    refine eq_empty_of_lookup fun path => Option.eq_none_iff_forall_ne_some.2 fun edit hedit => ?_
    obtain ⟨d', hd', hkept⟩ := h layer d hlookup path edit hedit
    have hd : (s.format.processLiveUpdates files).format.mLayerRegistry.lookup layer = some d' :=
      (congrArg (fun f => f.mLayerRegistry.lookup layer) hformat.symm).trans hd'
    rw [processLiveUpdates_mLocalDeltas s.format files hd, AList.lookup_empty] at hkept
    cases hkept
  · intro h layer d hlookup path edit hedit
    rw [h layer d hlookup, AList.lookup_empty] at hedit
    cases hedit

/-- An update is good if it sends through a stream, or has nothing to send and nothing to lose. -/
lemma goodUpdate_iff {s : LiveSession} (h : ConsistentCalls s)
    (files : String → Option HashTable) :
    GoodStep s (.liveSessionUpdate files) ↔ Admitted s (.liveSessionUpdate files) := by
  have hsends := onlySends_iff (s.format.processLiveUpdates files).sent s.sendTarget
  rw [← update_sends s files] at hsends
  have hedits := update_edits_iff s files
  have hnull := sendTarget_nullClient_iff h
  unfold Admitted
  cases htarget : s.sendTarget with
  | stream =>
    refine iff_of_true ⟨hsends.2 (.inr htarget), ?_⟩ trivial
    intro _ _ hnone
    rw [htarget] at hnull
    exact absurd (hnull.2 hnone) (by decide)
  | nullClient =>
    have hnone := hnull.1 htarget
    constructor
    · intro hgood
      exact hedits.1 (hgood.edits files rfl hnone)
    · intro hempty
      refine ⟨hsends.2 (.inl ((processLiveUpdates_sent_nil s.format files).2 ?_)), ?_⟩
      · intro layer d hlookup
        rw [hempty layer d hlookup]
        exact .inr (deltaMessage_empty s.format.userId layer)
      · rintro files' heq -
        obtain rfl := LiveOperation.liveSessionUpdate.inj heq
        exact hedits.2 hempty
  | nullStream =>
    have hsome : s.format.mWebsocketClient ≠ none := by
      intro hnone
      rw [htarget] at hnull
      exact absurd (hnull.2 hnone) (by decide)
    constructor
    · intro hgood
      rcases hsends.1 hgood.sends with hnothing | hstream
      · exact (processLiveUpdates_sent_nil s.format files).1 hnothing
      · exact absurd (htarget.symm.trans hstream) (by decide)
    · intro hquiet
      exact ⟨hsends.2 (.inl ((processLiveUpdates_sent_nil s.format files).2 hquiet)),
        fun _ _ hnone => absurd hnone hsome⟩

lemma goodRead_iff {s : LiveSession} (h : ConsistentCalls s) (layer : String) (file : HashTable) :
    GoodStep s (.read layer file) ↔ Admitted s (.read layer file) := by
  have hnull := sendTarget_nullClient_iff h
  constructor
  · intro hgood hopen htarget
    have hsome : s.format.mWebsocketClient.isSome = true := by
      rw [Option.isSome_iff_ne_none]
      intro hnone
      rw [hnull.2 hnone] at htarget
      cases htarget
    have hall := hgood.sends
    rw [read_sends s h.idle, if_pos ⟨hopen, hsome⟩, htarget] at hall
    exact absurd (hall .nullStream (List.mem_singleton_self _)) (by decide)
  · intro hadmitted
    refine ⟨?_, nofun⟩
    rw [read_sends s h.idle]
    split_ifs with hsend
    · intro target hmem
      rw [List.mem_singleton.1 hmem]
      cases htarget : s.sendTarget with
      | stream => rfl
      | nullStream => exact absurd htarget (hadmitted hsend.1)
      | nullClient => simp [hnull.1 htarget] at hsend
    · simp

lemma goodStep_iff {s : LiveSession} (h : ConsistentCalls s) (operation : LiveOperation) :
    GoodStep s operation ↔ Admitted s operation := by
  cases operation with
  | liveSessionUpdate files => exact goodUpdate_iff h files
  | read layer file => exact goodRead_iff h layer file
  | liveSessionDisconnect =>
    refine iff_of_true ⟨?_, nofun⟩ trivial
    unfold LiveSession.perform LiveSession.disconnect
    dsimp only
    split <;> simp
  | liveSessionConnect userId endpoint => exact iff_of_true ⟨nofun, nofun⟩ trivial
  | set layer path field value => exact iff_of_true ⟨nofun, nofun⟩ trivial
  | onMessage message => exact iff_of_true ⟨nofun, nofun⟩ trivial
  | complete client i completion => exact iff_of_true ⟨nofun, nofun⟩ trivial

/-- All steps of a run are good exactly if all are admitted. -/
theorem live_session_safe_iff (run : List LiveOperation) :
    Runs.AllSteps LiveSession.perform GoodStep LiveSession.start run ↔
      Runs.AllSteps LiveSession.perform Admitted LiveSession.start run :=
  Runs.allSteps_iff_allSteps (fun _ operation h => goodStep_iff h operation)
    (fun _ operation h _ => h.perform operation) ConsistentCalls.start

end

section

attribute [local instance] Usd.sample

/-- A layer is edited before anything is connected, after the session was ended, and while the URL of
the session could not be parsed; in the last case the layer may also be reloaded. -/
theorem live_session_unsafe :
    let base : HashTable := AList.insert "/a" { specType := .prim } ∅
    let file : LiveOperation := .read "L" base
    let edit : LiveOperation := .set "L" "/a" "kind" (.string "x")
    let update : LiveOperation := .liveSessionUpdate fun _ => none
    let sendsOf (run : List LiveOperation) : List SendTarget :=
      (Runs.final LiveSession.perform LiveSession.start run).sends
    sendsOf [file, edit, update] = [.nullClient] ∧
      sendsOf [.liveSessionConnect "user" (some {}), .liveSessionDisconnect, file, edit, update] =
        [.nullClient] ∧
      sendsOf [.liveSessionConnect "user" none, file, edit, update] = [.nullStream] ∧
      sendsOf [.liveSessionConnect "user" none, file, file] = [.nullStream] ∧
      ¬Runs.AllSteps LiveSession.perform GoodStep LiveSession.start [file, edit, update] := by
  intro base file edit update sendsOf
  refine ⟨by decide, by decide, by decide, by decide, ?_⟩
  rintro ⟨-, -, hgood, -⟩
  exact absurd (hgood.sends .nullClient (by decide)) (by decide)

end

end RenderStudioKit.Proofs
