import RenderStudioKit.Proofs.CatchUp

/-!
# Layers that are opened late

The history of all layers arrives when a user enters the channel, its layers are opened one by one.
What arrived for a layer waits for it as long as no updates are processed before it is opened.
-/

namespace RenderStudioKit.Proofs

open API

section

variable [Usd]

/-- Every numbered delta that `OnMessage` was called with waits for the layer, or stands in its
queue, or was applied to its data under its number. -/
def Kept (layer : String) (w : Watched) : Prop :=
  ∀ v ∈ w.received, ∀ number, v.sequence = some number →
    v ∈ (w.participant.client.mAccumulatedDeltas.lookup layer).getD [] ∨
      ∃ d, w.participant.client.mLayerRegistry.lookup layer = some d ∧
        (d.mRemoteDeltasQueue.lookup number = some v.updates ∨
          ∃ k, number = k + 1 ∧ w.applied[k]? = some v.updates)

/-- The user does not leave the channel. -/
def Remains : ParticipantAction → Prop
  | .disconnect => False
  | .lose => False
  | .drop _ => False
  | _ => True

/-- No updates are processed while something is accumulated for a layer that is not registered. -/
def OpensInTime (layer : String) (p : Participant) (action : ParticipantAction) : Prop :=
  ∀ files, action = .update files → p.client.mLayerRegistry.lookup layer = none →
    accumulatedUpdates p.client layer = []

/-- The client has the table, or has applied it, under the number. -/
def Knows (layer : String) (w : Watched) (number : Nat) (table : HashTable) : Prop :=
  w.participant.Holds layer number table ∨ ∃ k, number = k + 1 ∧ w.applied[k]? = some table

/-- The user has not entered the channel yet, or holds its first connection. -/
def Once (layer : String) (p : Participant) : Prop :=
  (p.created = 0 ∧ p.opened = [] ∧ p.current = none ∧ p.Ignorant layer) ∨
    (p.created = 1 ∧ p.opened = [0] ∧ p.current = some 0)

/-- The invariant: whatever the client knows under a number is the same. -/
structure Settles (account : Account) (layer : String) (w : Watched) : Prop where
  mirrors : Mirrors account layer w
  once : Once layer w.participant
  same : ∀ number table table', Knows layer w number table → Knows layer w number table' →
    table = table'
  kept : Kept layer w

section

variable {account : Account} {layer : String} {w : Watched}

lemma Mirrors.knows (h : Mirrors account layer w) {number : Nat} {table : HashTable}
    (hknows : Knows layer w number table) :
    1 ≤ number ∧ number ≤ (w.participant.history account layer).length := by
  rcases hknows with hholds | ⟨k, rfl, hk⟩
  · exact (h.holds number table hholds).bound
  · exact (h.fits k table hk).bound

lemma Once.alone (h : Once layer w.participant) {id : Nat} (hid : id ∈ w.participant.opened) :
    w.participant.Alone id := by
  intro other hother
  rcases h with ⟨-, hopened, -⟩ | ⟨-, hopened, -⟩
  · rw [hopened] at hid
    exact absurd hid List.not_mem_nil
  · rw [hopened] at hid
    have hother := hother.2
    rw [hopened] at hother
    rw [List.mem_singleton.1 hid, List.mem_singleton.1 hother]

lemma Settles.safe (h : Settles account layer w) {action : ParticipantAction}
    (hadmitted : w.participant.Admitted account action) (hremains : Remains action)
    (hopens : OpensInTime layer w.participant action) : w.participant.Safe account layer action := by
  refine ⟨?_, fun id _ hsends => h.once.alone hsends.1, ?_, hopens⟩
  · rintro id rfl -
    exact hremains.elim
  · intro leaver hleaving hchannel _ hnames
    rcases h.once with ⟨-, -, -, hignorant⟩ | ⟨-, hopened, hcurrent⟩
    · exact hignorant
    · have hworking : w.participant.Working 0 :=
        ⟨hcurrent, by rw [hopened]; exact List.mem_singleton.2 rfl⟩
      have hname := hnames _ (h.mirrors.member 0 hworking)
      cases action with
      | call call =>
        obtain rfl : call = .disconnected leaver := hleaving
        exact absurd hname.symm (hadmitted.2 hchannel)
      | drop id => exact hremains.elim
      | _ => exact hleaving.elim

lemma Kept.step (h : Kept layer w) {w' : Watched}
    (hreceived : ∀ v ∈ w'.received, v ∈ w.received ∨
      v ∈ (w'.participant.client.mAccumulatedDeltas.lookup layer).getD [])
    (haccumulated : ∀ v ∈ (w.participant.client.mAccumulatedDeltas.lookup layer).getD [],
      v ∈ (w'.participant.client.mAccumulatedDeltas.lookup layer).getD [])
    (hregistered : (w.participant.client.mLayerRegistry.lookup layer).isSome →
      (w'.participant.client.mLayerRegistry.lookup layer).isSome)
    (hdata : SameQueue (w.participant.data layer) (w'.participant.data layer))
    (happlied : w'.applied = w.applied) : Kept layer w' := by
  intro v hv number hnumber
  rcases hreceived v hv with hold | hnew
  · rcases h v hold number hnumber with hwaits | ⟨d, hd, hplace⟩
    · exact .inl (haccumulated v hwaits)
    · right
      obtain ⟨d', hd'⟩ := Option.isSome_iff_exists.1 (hregistered (by rw [hd]; rfl))
      have hqueue := hdata.queue
      unfold Participant.data layerData at hqueue
      rw [hd, hd', Option.getD_some, Option.getD_some] at hqueue
      refine ⟨d', hd', ?_⟩
      rwa [hqueue, happlied]
  · exact .inl hnew

lemma Settles.ofClient (h : Settles account layer w) {w' : Watched}
    (hmirrors : Mirrors account layer w')
    (hcreated : w'.participant.created = w.participant.created)
    (hopened : w'.participant.opened = w.participant.opened)
    (hcurrent : w'.participant.current = w.participant.current)
    (hholds : ∀ number table, w'.participant.Holds layer number table →
      w.participant.Holds layer number table)
    (hdata : SameQueue (w.participant.data layer) (w'.participant.data layer))
    (happlied : w'.applied = w.applied) (hkept : Kept layer w') : Settles account layer w' := by
  refine ⟨hmirrors, ?_, ?_, hkept⟩
  · rcases h.once with ⟨h0, h1, h2, hzero, hnone⟩ | ⟨h0, h1, h2⟩
    · left
      refine ⟨hcreated.trans h0, hopened.trans h1, hcurrent.trans h2, hdata.latest.trans hzero, ?_⟩
      exact fun number table hheld => hnone number table (hholds number table hheld)
    · exact .inr ⟨hcreated.trans h0, hopened.trans h1, hcurrent.trans h2⟩
  · have hknows : ∀ number table, Knows layer w' number table → Knows layer w number table := by
      rintro number table (hheld | happly)
      · exact .inl (hholds number table hheld)
      · rw [happlied] at happly
        exact .inr happly
    exact fun number table table' hone hother =>
      h.same number table table' (hknows number table hone) (hknows number table' hother)

/-- The delta `OnMessage` is called with waits for its layer. -/
lemma mem_accumulatedDeltas {f : RenderStudioFileFormat} {text : Json} {v : DeltaEvent}
    (hreload : ¬IsReload text) (hv : v ∈ ((f.mAccumulatedDeltas.lookup layer).getD []) ∨
      layerDelta layer text = some v ∧ v.sequence.isSome) :
    v ∈ ((f.onMessage text).mAccumulatedDeltas.lookup layer).getD [] := by
  unfold layerDelta at hv
  unfold RenderStudioFileFormat.onMessage
  cases hparse : parseEvent text with
  | none => simpa [hparse] using hv
  | some e =>
    obtain ⟨name, body⟩ := e
    rw [hparse] at hv
    cases body with
    | delta received =>
      dsimp only at hv ⊢
      unfold RenderStudioFileFormat.processDeltaEvent
      by_cases hlayer : received.layer = layer
      · subst hlayer
        rw [if_pos rfl, Option.some.injEq] at hv
        cases hsequence : received.sequence with
        | none =>
          rcases hv with hold | ⟨rfl, hsome⟩
          · exact hold
          · rw [hsequence] at hsome
            exact absurd hsome (by simp)
        | some number =>
          simp only [AList.lookup_insert, Option.getD_some, List.mem_append, List.mem_singleton]
          exact hv.imp_right fun hnew => hnew.1.symm
      · rw [if_neg hlayer] at hv
        have hold := hv.resolve_right (by simp)
        split
        · exact hold
        · simpa only [AList.lookup_insert_ne (Ne.symm hlayer)] using hold
    | acknowledge received => exact hv.resolve_right (by simp)
    | history => exact hv.resolve_right (by simp)
    | reload received => exact absurd ⟨name, received, hparse⟩ hreload

lemma Settles.set (h : Settles account layer w) (edited : String) (path : SdfPath)
    (field : TfToken) (value : VtValue) :
    Settles account layer (w.perform account layer (.set edited path field value)) := by
  obtain ⟨-, -, haccumulated⟩ := setField_frame w.participant.client edited path field value
  have hdata := set_sameQueue w.participant.client edited path field value layer
  have hholds : ∀ number table,
      (w.perform account layer (.set edited path field value)).participant.Holds layer number table ↔
        w.participant.Holds layer number table := holds_congr rfl (haccumulated layer) hdata
  refine h.ofClient (h.mirrors.set edited path field value) rfl rfl rfl
    (fun number table => (hholds number table).1) hdata rfl
    (h.kept.step (fun v hv => .inl hv) ?_ ?_ hdata rfl)
  · intro v hv
    change v ∈ ((w.participant.client.setField edited path field value).mAccumulatedDeltas.lookup
      layer).getD []
    unfold RenderStudioFileFormat.setField
    split <;> exact hv
  · intro hregistered
    change ((w.participant.client.setField edited path field value).mLayerRegistry.lookup layer).isSome
    by_cases hlayer : edited = layer
    · subst hlayer
      obtain ⟨d, hd⟩ := Option.isSome_iff_exists.1 hregistered
      simp [RenderStudioFileFormat.setField, hd]
    · rwa [lookup_setField_ne hlayer]

lemma Settles.read (h : Settles account layer w) {opened : String} (file : HashTable)
    (hfirst : w.participant.client.mLayerRegistry.lookup opened = none) :
    Settles account layer (w.perform account layer (.read opened file)) := by
  have hdata := read_sameQueue hfirst file layer
  have happlied := h.mirrors.read_applied file hfirst
  have hholds : ∀ number table,
      (w.perform account layer (.read opened file)).participant.Holds layer number table ↔
        w.participant.Holds layer number table := holds_congr rfl rfl hdata
  refine h.ofClient (h.mirrors.read file hfirst) rfl rfl rfl
    (fun number table => (hholds number table).1) hdata happlied
    (h.kept.step (fun v hv => .inl hv) (fun v hv => hv) (fun hregistered => ?_) hdata happlied)
  change ((w.participant.client.mLayerRegistry.insert opened _).lookup layer).isSome
  by_cases hlayer : layer = opened
  · subst hlayer
    simp
  · rwa [AList.lookup_insert_ne hlayer]

lemma Settles.deliver (h : Settles account layer w) :
    Settles account layer (w.perform account layer .deliver) := by
  cases hdownlink : w.participant.downlink with
  | nil =>
    have hsame : w.perform account layer .deliver = w := by
      have hparticipant : w.participant.deliver = w.participant := by
        rw [Participant.deliver, hdownlink]
      change Watched.mk w.participant.deliver w.applied _ = w
      rw [hparticipant, hdownlink]
      simp
    rwa [hsame]
  | cons message rest =>
    have hreload := h.mirrors.incoming message (hdownlink ▸ List.mem_cons_self)
    have hparticipant : (w.perform account layer .deliver).participant =
        { w.participant with
          client := w.participant.client.onMessage message
          downlink := rest } := deliver_eq hdownlink
    obtain ⟨-, hregistry, -⟩ := onMessage_frame hreload w.participant.client
    have hdata : SameQueue (w.participant.data layer)
        ((w.perform account layer .deliver).participant.data layer) := by
      rw [hparticipant]
      unfold Participant.data layerData
      rw [hregistry]
      exact ⟨rfl, rfl, rfl⟩
    refine h.ofClient h.mirrors.deliver ?_ ?_ ?_
      (fun number table => (holds_deliver hdownlink hreload number table).1) hdata rfl
      (h.kept.step ?_ ?_ ?_ hdata rfl)
    · rw [hparticipant]
    · rw [hparticipant]
    · rw [hparticipant]
    · intro v hv
      change v ∈ w.received ++ _ at hv
      rw [hparticipant]
      rcases List.mem_append.1 hv with hold | hnew
      · exact .inl hold
      · right
        rw [hdownlink, Option.mem_toList, Option.filter_eq_some_iff] at hnew
        exact mem_accumulatedDeltas hreload (.inr hnew)
    · intro v hv
      rw [hparticipant]
      exact mem_accumulatedDeltas hreload (.inl hv)
    · rw [hparticipant]
      dsimp only
      rw [hregistry]
      exact fun hregistered => hregistered

lemma knows_update (h : Mirrors account layer w) (files : String → Option HashTable)
    (hread : w.participant.client.mLayerRegistry.lookup layer = none →
      accumulatedUpdates w.participant.client layer = []) {number : Nat} {table : HashTable}
    (hknows : Knows layer (w.perform account layer (.update files)) number table) :
    Knows layer w number table := by
  have hupdated := processLiveUpdates_updated files h.noReloads h.idle hread
  obtain ⟨-, -, hnone, -⟩ := processLiveUpdates_frame w.participant.client files
  rcases hknows with (hdownlink | haccumulated | hqueued) | ⟨k, rfl, hk⟩
  · exact .inl (.inl hdownlink)
  · change (number, table) ∈ accumulatedUpdates (w.participant.client.processLiveUpdates files).format
      layer at haccumulated
    rw [hnone layer] at haccumulated
    exact absurd haccumulated List.not_mem_nil
  · exact .inl (holds_of_queueOf (hupdated.queued number table hqueued))
  · change (w.applied ++ _)[k]? = some table at hk
    by_cases hold : k < w.applied.length
    · rw [List.getElem?_append_left hold] at hk
      exact .inr ⟨k, rfl, hk⟩
    · rw [List.getElem?_append_right (by omega)] at hk
      have hlookup := hupdated.applied _ table hk
      have hcount : w.applied.length =
        (layerData w.participant.client layer).mLatestAppliedSequence := h.count
      rw [show (layerData w.participant.client layer).mLatestAppliedSequence + 1 +
        (k - w.applied.length) = k + 1 by omega] at hlookup
      exact .inl (holds_of_queueOf hlookup)

lemma Kept.place (h : Kept layer w)
    (hread : w.participant.client.mLayerRegistry.lookup layer = none →
      accumulatedUpdates w.participant.client layer = []) {v : DeltaEvent} (hv : v ∈ w.received)
    {number : Nat} (hnumber : v.sequence = some number) :
    (∃ d, w.participant.client.mLayerRegistry.lookup layer = some d) ∧
      (((number, v.updates) ∈ accumulatedUpdates w.participant.client layer ∨
          (w.participant.data layer).mRemoteDeltasQueue.lookup number = some v.updates) ∨
        ∃ k, number = k + 1 ∧ w.applied[k]? = some v.updates) := by
  rcases h v hv number hnumber with hwaits | ⟨d, hd, hplace⟩
  · have harrived : (number, v.updates) ∈ accumulatedUpdates w.participant.client layer := by
      apply List.mem_append_right
      exact List.mem_filterMap.2 ⟨v, hwaits, by rw [hnumber]; rfl⟩
    refine ⟨?_, .inl (.inl harrived)⟩
    rw [← Option.isSome_iff_exists, Option.isSome_iff_ne_none]
    intro hnone
    rw [hread hnone] at harrived
    exact absurd harrived List.not_mem_nil
  · refine ⟨⟨d, hd⟩, hplace.imp_left fun hqueued => .inr ?_⟩
    unfold Participant.data layerData
    rwa [hd, Option.getD_some]

lemma Settles.update (h : Settles account layer w) (files : String → Option HashTable)
    (hread : w.participant.client.mLayerRegistry.lookup layer = none →
      accumulatedUpdates w.participant.client layer = []) :
    Settles account layer (w.perform account layer (.update files)) := by
  let f := w.participant.client
  let d := layerData f layer
  let d' := layerData (f.processLiveUpdates files).format layer
  have hupdated : Updated f layer d' (tablesUpTo f layer d'.mLatestAppliedSequence) :=
    processLiveUpdates_updated files h.mirrors.noReloads h.mirrors.idle hread
  have hmirrors := h.mirrors.update files hread
  have hknows : ∀ number table, Knows layer (w.perform account layer (.update files)) number table →
      Knows layer w number table := fun number table => knows_update h.mirrors files hread
  refine ⟨hmirrors, ?_, ?_, ?_⟩
  · rcases h.once with ⟨h0, h1, h2, hzero, hnone⟩ | ⟨h0, h1, h2⟩
    · left
      have hunknown : ∀ number table,
          ¬Knows layer (w.perform account layer (.update files)) number table := by
        intro number table hnew
        rcases hknows number table hnew with hheld | ⟨k, -, hk⟩
        · exact hnone number table hheld
        · have hbound := (List.getElem?_eq_some_iff.1 hk).1
          have hcount := h.mirrors.count
          omega
      refine ⟨h0, h1, h2, ?_, fun number table hheld => hunknown number table (.inl hheld)⟩
      rw [← hmirrors.count]
      by_contra hne
      exact hunknown 1 _ (.inr ⟨0, rfl, List.getElem?_eq_getElem (Nat.pos_of_ne_zero hne)⟩)
    · exact .inr ⟨h0, h1, h2⟩
  · exact fun number table table' hone hother =>
      h.same number table table' (hknows number table hone) (hknows number table' hother)
  · intro v hv number hnumber
    obtain ⟨⟨before, hlookup⟩, hplace⟩ := h.kept.place hread hv hnumber
    have hknown : Knows layer w number v.updates := hplace.imp_left Or.inr
    have hregistered := registered_iff files h.mirrors.noReloads layer
    rw [show w.participant.client.mLayerRegistry.lookup layer = some before from hlookup,
      Option.isSome_some, Option.isSome_iff_exists] at hregistered
    obtain ⟨after, hafter⟩ := hregistered
    have hdata : d' = after := by
      change (AList.lookup _ _).getD _ = _
      rw [hafter, Option.getD_some]
    refine .inr ⟨after, hafter, ?_⟩
    rw [← hdata]
    -- the number is behind the last applied one, or the table stands in the queue
    have hcount := hmirrors.count
    change _ = d'.mLatestAppliedSequence at hcount
    obtain ⟨hpositive, -⟩ := h.mirrors.knows hknown
    by_cases happlied : number ≤ d'.mLatestAppliedSequence
    · right
      obtain ⟨k, rfl⟩ : ∃ k, number = k + 1 := ⟨number - 1, by omega⟩
      have hk := List.getElem?_eq_getElem (l := (w.perform account layer (.update files)).applied)
        (i := k) (by omega)
      have heq := h.same _ _ _ hknown (hknows _ _ (.inr ⟨k, rfl, hk⟩))
      exact ⟨k, rfl, by rw [hk, ← heq]⟩
    · left
      rcases hplace with hheld | ⟨k, rfl, hk⟩
      · obtain ⟨table, htable⟩ := queueOf_isSome hheld
        have heq := h.same number _ _ hknown (.inl (holds_of_queueOf htable))
        rw [← heq] at htable
        exact hupdated.kept number _ (by omega) htable
      · have hbound := (List.getElem?_eq_some_iff.1 hk).1
        have hless : w.applied.length ≤ d'.mLatestAppliedSequence := by
          rw [h.mirrors.count]
          exact hupdated.latest ▸ Nat.le_add_right _ _
        omega

/-- The server answers, and the user is in the channel or has not entered it. -/
lemma Settles.answer (laws : UsdLaws) (h : Settles account layer w) {p q : Participant}
    {call : ServerCall} (hserver : p.server = w.participant.server)
    (hclient : p.client = w.participant.client) (hdownlink : p.downlink = w.participant.downlink)
    (hcurrent : p.current = w.participant.current) (hcreated : p.created = w.participant.created)
    (hopened : p.opened = w.participant.opened) (hpeaceful : Peaceful call)
    (hjoin : ∀ id, call ≠ .connected (account.connection id))
    (hq : q = p.withServer account (call.perform p.server))
    (hmirrors : Mirrors account layer { w with participant := q }) :
    Settles account layer { w with participant := q } := by
  subst hq
  have hheld : ∀ number table, p.Holds layer number table ↔
      w.participant.Holds layer number table := by
    intro number table
    unfold Participant.Holds Participant.data
    rw [hclient, hdownlink]
  have hknows : ∀ number table,
      Knows layer { w with participant := p.withServer account (call.perform p.server) } number table →
      Knows layer w number table ∨ ∃ id, p.current = some id ∧ (number, table) ∈
        told (call.perform p.server).sent (account.connection id) layer := by
    rintro number table (hnew | happlied)
    · rw [holds_withServer, hheld] at hnew
      exact hnew.imp_left Or.inl
    · exact .inl (.inr happlied)
  have hnews : ∀ id number table, (number, table) ∈
      told (call.perform p.server).sent (account.connection id) layer →
      (w.participant.history account layer).length < number ∧ ∀ table',
        (number, table') ∈ told (call.perform p.server).sent (account.connection id) layer →
        table = table' := by
    intro id number table ht
    rcases layer_cases laws (hserver ▸ h.mirrors.housed) hpeaceful (hjoin id) layer with
      ⟨-, hnothing⟩ | ⟨-, -, hnothing⟩ | ⟨channel, author, v, told, haccepts⟩
    · rw [hnothing] at ht
      exact absurd ht List.not_mem_nil
    · rw [hnothing] at ht
      exact absurd ht List.not_mem_nil
    · refine ⟨?_, fun table' ht' => haccepts.told_unique ht ht'⟩
      have hbefore : p.history account layer = deltas channel layer := haccepts.historyOf_eq
      rw [Participant.history, hserver] at hbefore
      rw [Participant.history, hbefore, (haccepts.told_cases ht).1]
      omega
  refine ⟨hmirrors, ?_, ?_, ?_⟩
  · rcases h.once with ⟨h0, h1, h2, hzero, hnone⟩ | ⟨h0, h1, h2⟩
    · left
      refine ⟨hcreated.trans h0, hopened.trans h1, hcurrent.trans h2, ?_, ?_⟩
      · change (p.data layer).mLatestAppliedSequence = 0
        unfold Participant.data at hzero ⊢
        rwa [hclient]
      · intro number table hnew
        rcases hknows number table (.inl hnew) with hold | ⟨id, hid, -⟩
        · rcases hold with hold | ⟨k, -, hk⟩
          · exact hnone number table hold
          · have hbound := (List.getElem?_eq_some_iff.1 hk).1
            have hcount := h.mirrors.count
            omega
        · rw [hcurrent, h2] at hid
          exact absurd hid (by simp)
    · exact .inr ⟨hcreated.trans h0, hopened.trans h1, hcurrent.trans h2⟩
  · intro number table table' hone hother
    rcases hknows number table hone with hold | ⟨id, hid, hnew⟩
    · rcases hknows number table' hother with hold' | ⟨id, hid, hnew'⟩
      · exact h.same number table table' hold hold'
      · have hbound := (h.mirrors.knows hold).2
        have hbeyond := (hnews id number table' hnew').1
        omega
    · rcases hknows number table' hother with hold' | ⟨id', hid', hnew'⟩
      · have hbound := (h.mirrors.knows hold').2
        have hbeyond := (hnews id number table hnew).1
        omega
      · obtain rfl : id = id' := Option.some.inj (hid.symm.trans hid')
        exact (hnews id number table hnew).2 table' hnew'
  · refine h.kept.step (fun v hv => .inl hv) ?_ ?_ ?_ rfl
    · change ∀ v ∈ _, v ∈ (p.client.mAccumulatedDeltas.lookup layer).getD []
      rw [hclient]
      exact fun v hv => hv
    · change _ → (p.client.mLayerRegistry.lookup layer).isSome
      rw [hclient]
      exact fun hregistered => hregistered
    · change SameQueue _ (p.data layer)
      unfold Participant.data
      rw [hclient]
      exact ⟨rfl, rfl, rfl⟩

/-- The user enters the channel for the first time. -/
lemma Settles.connect (laws : UsdLaws) (h : Settles account layer w) :
    Settles account layer (w.perform account layer .connect) := by
  have hmirrors := h.mirrors.connect laws
  change Settles account layer { w with participant := w.participant.connect account }
  change Mirrors account layer { w with participant := w.participant.connect account } at hmirrors
  rcases h.once with ⟨hcreated, hopened, hcurrent, hzero, hnone⟩ | ⟨-, -, hcurrent⟩
  · have hknows : ∀ number table,
        Knows layer { w with participant := w.participant.connect account } number table →
        (number, table) ∈ told ((ServerCall.connected (account.connection
          w.participant.created)).perform w.participant.server).sent
          (account.connection w.participant.created) layer := by
      rintro number table (hnew | ⟨k, -, hk⟩)
      · rw [connect_eq hcurrent] at hnew
        rcases (holds_withServer _ number table).1 hnew with (hdownlink | hold) | ⟨id, hid, htold⟩
        · exact absurd hdownlink List.not_mem_nil
        · exact absurd (.inr hold) (hnone number table)
        · obtain rfl : w.participant.created = id := Option.some.inj hid
          exact htold
      · have hbound := (List.getElem?_eq_some_iff.1 hk).1
        have hcount := h.mirrors.count
        change k < w.applied.length at hbound
        omega
    refine ⟨hmirrors, ?_, ?_, ?_⟩
    · right
      rw [connect_eq hcurrent, hcreated, hopened]
      exact ⟨rfl, rfl, rfl⟩
    · intro number table table' hone hother
      obtain ⟨k, v, rfl, hv, hrelay⟩ :=
        (h.mirrors.replayed laws _ number table).1 (hknows number table hone)
      obtain ⟨k', v', hk', hv', hrelay'⟩ :=
        (h.mirrors.replayed laws _ _ table').1 (hknows _ table' hother)
      obtain rfl : k = k' := by omega
      obtain rfl : v = v' := Option.some.inj (hv.symm.trans hv')
      exact congrArg Prod.snd (Option.some.inj (hrelay.symm.trans hrelay'))
    · rw [connect_eq hcurrent]
      exact h.kept.step (fun v hv => .inl hv) (fun v hv => hv) (fun hregistered => hregistered)
        ⟨rfl, rfl, rfl⟩ rfl
  · have hsame : w.participant.connect account = w.participant := by
      rw [Participant.connect, hcurrent]
    rwa [hsame]

/-- An admitted step of a user that remains and opens its layers in time. -/
theorem Settles.perform (laws : UsdLaws) (h : Settles account layer w) {action : ParticipantAction}
    (hadmitted : w.participant.Admitted account action) (hremains : Remains action)
    (hopens : OpensInTime layer w.participant action) :
    Settles account layer (w.perform account layer action) := by
  have hmirrors := h.mirrors.perform laws hadmitted (h.safe hadmitted hremains hopens)
  cases action with
  | set edited path field value => exact h.set edited path field value
  | update files => exact h.update files (hopens files rfl)
  | read opened file => exact h.read file hadmitted
  | connect => exact h.connect laws
  | disconnect => exact hremains.elim
  | lose => exact hremains.elim
  | deliver => exact h.deliver
  | drop id => exact hremains.elim
  | call call =>
    have hjoin : ∀ id, call ≠ .connected (account.connection id) := by
      rintro id rfl
      exact hadmitted.2 rfl rfl
    exact h.answer laws rfl rfl rfl rfl rfl rfl hadmitted.1 hjoin rfl hmirrors
  | serve id =>
    change Settles account layer { w with participant := w.participant.serve account id }
    change Mirrors account layer { w with participant := w.participant.serve account id } at hmirrors
    rcases serve_cases account w.participant id with hsame | ⟨-, text, rest, huplink, hserve⟩
    · rwa [hsame]
    · obtain ⟨written, -, hwritten⟩ := h.mirrors.outgoing id text (huplink ▸ List.mem_cons_self)
      have hpeaceful : Peaceful (.message (account.connection id) text) := ⟨written, hwritten⟩
      rw [hserve] at hmirrors ⊢
      exact h.answer laws (p := { w.participant with
          uplink := Function.update w.participant.uplink id rest }) rfl rfl rfl rfl rfl rfl hpeaceful
        (fun other => by simp) rfl hmirrors

lemma Settles.init (account : Account) (layer : String) :
    Settles account layer (.init account) := by
  have hmirrors := Mirrors.init account layer
  have hnone : ∀ number table, ¬(Watched.init account).participant.Holds layer number table := by
    intro number table hheld
    have hbound := (hmirrors.holds number table hheld).bound
    have hhistory : (Watched.init account).participant.history account layer = [] := by
      simp [Participant.history, Participant.init, Watched.init, historyOf]
    rw [hhistory, List.length_nil] at hbound
    omega
  refine ⟨hmirrors, .inl ⟨rfl, rfl, rfl, rfl, hnone⟩, ?_, ?_⟩
  · rintro number table table' (hheld | ⟨k, -, hk⟩) -
    · exact absurd hheld (hnone number table)
    · exact absurd hk (by simp [Watched.init])
  · intro v hv
    exact absurd hv List.not_mem_nil

end

/-- A user that opens every layer before it processes updates of it gets all of them, and is where
the server is as soon as it has processed everything. -/
theorem late_layers_receive_updates (laws : UsdLaws) (account : Account) (layer : String)
    (run : List ParticipantAction)
    (hadmitted : Runs.AllSteps (Watched.perform account layer)
      (fun w => w.participant.Admitted account) (.init account) run)
    (hremains : ∀ action ∈ run, Remains action)
    (hopens : Runs.AllSteps (Watched.perform account layer)
      (fun w => OpensInTime layer w.participant) (.init account) run) :
    Runs.AllStates (Watched.perform account layer)
      (fun w => Kept layer w ∧ CaughtUp account layer w) (.init account) run := by
  have hstay : Runs.AllSteps (Watched.perform account layer) (fun _ action => Remains action)
      (.init account) run := Runs.allSteps_of_forall (fun _ action hmem => hremains action hmem) _
  have hkeep : ∀ w action, Settles account layer w → (w.participant.Admitted account action ∧
      Remains action) ∧ OpensInTime layer w.participant action →
      Settles account layer (w.perform account layer action) :=
    fun w action h hok => h.perform laws hok.1.1 hok.1.2 hok.2
  have hsettles := Runs.allStates_of_invariant hkeep (Settles.init account layer)
    ((hadmitted.and hstay).and hopens)
  exact hsettles.mono fun w h => ⟨h.kept, h.mirrors.caughtUp⟩

end

section

attribute [local instance] Usd.sample

/-- Bob's delta is in the history Alice gets when she enters the channel. She opens the layer before
she processes updates. -/
theorem late_layers_receive_updates_in_time :
    let run : List ParticipantAction :=
      [.call (.connected bob), .call (.message bob bobsText), .connect, .deliver, .read "L" onePrim,
        .update noFiles, .deliver]
    let w := Runs.final (Watched.perform aliceInRoom "L") (.init aliceInRoom) run
    Runs.AllStates (Watched.perform aliceInRoom "L")
        (fun w => Kept "L" w ∧ CaughtUp aliceInRoom "L" w) (.init aliceInRoom) run ∧
      w.received.length = 1 ∧ ((w.participant.data "L").get "/a" "kind").getStdString = "y" := by
  intro run w
  refine ⟨late_layers_receive_updates sample_laws aliceInRoom "L" run ?_ (by simp [run, Remains]) ?_,
    by decide, by decide⟩
  · exact ⟨⟨trivial, fun _ => by decide⟩, ⟨bobsText_deltas, fun _ => by decide⟩, trivial, trivial,
      AList.lookup_empty "L", trivial, trivial, trivial⟩
  · refine ⟨nofun, nofun, nofun, nofun, nofun, fun files _ hnone => ?_, nofun, trivial⟩
    have hopened := congrArg Option.isSome hnone
    revert hopened
    decide

/-- Alice processes updates before she opens the layer: Bob's delta is gone, and what comes after it
waits for its number forever. -/
theorem delta_lost_before_open :
    let run : List ParticipantAction :=
      [.call (.connected bob), .call (.message bob bobsText), .connect, .deliver, .update noFiles,
        .read "L" onePrim, .deliver, .update noFiles]
    let w := Runs.final (Watched.perform aliceInRoom "L") (.init aliceInRoom) run
    Runs.AllSteps (Watched.perform aliceInRoom "L") (fun w => w.participant.Admitted aliceInRoom)
        (.init aliceInRoom) run ∧
      (∀ action ∈ run, Remains action) ∧ ¬Kept "L" w ∧ w.participant.downlink = [] ∧
      accumulatedUpdates w.participant.client "L" = [] ∧
      (w.participant.data "L").getSequence = 0 ∧
      (w.participant.history aliceInRoom "L").length = 1 := by
  intro run w
  refine ⟨?_, by simp [run, Remains], fun h => ?_, rfl, rfl, by decide, by decide⟩
  · exact ⟨⟨trivial, fun _ => by decide⟩, ⟨bobsText_deltas, fun _ => by decide⟩, trivial, trivial,
      trivial, AList.lookup_empty "L", trivial, trivial, trivial⟩
  · obtain ⟨v, hv⟩ : ∃ v, w.received = [v] := ⟨_, rfl⟩
    have hsequence : w.received.map (·.sequence) = [some 1] := by decide
    rw [hv] at hsequence
    rcases h v (hv ▸ List.mem_singleton.2 rfl) 1 (List.cons.inj hsequence).1 with
      hwaits | ⟨d, hd, hqueued | ⟨k, -, happlied⟩⟩
    · exact absurd hwaits List.not_mem_nil
    · have hdata : w.participant.data "L" = d := by
        unfold Participant.data layerData
        rw [hd, Option.getD_some]
      have hqueue : (w.participant.data "L").mRemoteDeltasQueue.lookup 1 = none := rfl
      rw [hdata, hqueued] at hqueue
      exact absurd hqueue (by simp)
    · have hnothing : w.applied = [] := rfl
      rw [hnothing] at happlied
      exact absurd happlied (by simp)

end

end RenderStudioKit.Proofs
