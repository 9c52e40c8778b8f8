import RenderStudioKit.Proofs.LinkedClient
import RenderStudioKit.Proofs.SessionSteps

/-!
# Stamps of a layer

A reload makes the server number the deltas of the layer from 1 again, and the numbers do not say
which reload they follow. A stamp does: it is the number of deltas and reloads of the layer that
the server has handled so far. Stamps are no part of the program, they only record in which order
the server handled what a client takes into its data.
-/

namespace RenderStudioKit.Proofs

open API

section

variable [Usd]

abbrev StampedUpdate := (Nat × HashTable) × Nat

/-- The stamps of one client: of the messages in its downlink, of the updates it accumulated and
of those it took into the data since the data was last reset, of the reloads it was requested and
has not carried out. `floor` is the stamp of the last reload that reset the data. -/
structure ClientStamps where
  downlink : List (Json × Nat) := []
  accumulated : List StampedUpdate := []
  taken : List StampedUpdate := []
  requested : List Nat := []
  floor : Nat := 0

structure Stamps where
  clock : Nat := 0
  client : String → ClientStamps

namespace ClientStamps

/-- `ProcessLiveUpdates`: a requested reload that finds its file resets the data, then the
accumulated updates are taken. -/
def update (layer : String) (f : RenderStudioFileFormat) (files : String → Option HashTable)
    (c : ClientStamps) : ClientStamps :=
  let registered := (f.mLayerRegistry.lookup layer).isSome
  let reset := layer ∈ f.mRequestedReloads ∧ registered ∧ (files layer).isSome
  let taken := if reset then [] else c.taken
  { c with
    accumulated := []
    requested := []
    taken := if registered then taken ++ c.accumulated else taken
    floor := if reset then c.requested.foldl max c.floor else c.floor }

/-- `OnMessage` with the next message of the downlink. -/
def deliver (layer : String) (c : ClientStamps) : ClientStamps :=
  match c.downlink with
  | [] => c
  | (text, stamp) :: rest =>
    match layerUpdate layer text with
    | some update =>
      { c with downlink := rest, accumulated := c.accumulated ++ [(update, stamp)] }
    | none =>
      if ((layerReload layer text).bind (·.sequence)).isSome then
        { c with downlink := rest, accumulated := [], requested := c.requested ++ [stamp] }
      else { c with downlink := rest }

/-- The server sends messages with the stamp of now. -/
def send (clock : Nat) (texts : List Json) (c : ClientStamps) : ClientStamps :=
  { c with downlink := c.downlink ++ texts.map (·, clock) }

end ClientStamps

namespace Stamps

def withClient (g : Stamps) (user : String) (c : ClientStamps) : Stamps :=
  { g with client := Function.update g.client user c }

/-- `OnMessage` of the server. The reload of a client reset its data before the server knows of
it, so its stamp is the floor of that client from now on. -/
def serve (room : Room) (layer : String) (g : Stamps) (s : Session) (user : String) : Stamps :=
  match s.uplink user with
  | [] => g
  | text :: _ =>
    let reload := (layerReload layer text).isSome
    let clock := if (layerDelta layer text).isSome || reload then g.clock + 1 else g.clock
    let sent := (s.server.onMessage (room.connection user) text).sent
    { clock := clock
      client := fun w =>
        let c := (g.client w).send clock (Session.received sent (room.connection w))
        if reload && w = user then { c with floor := clock } else c }

def perform (room : Room) (layer : String) (g : Stamps) (s : Session) (action : SessionAction) :
    Stamps :=
  if action.user ∉ room.members then g
  else match action with
    | .set _ _ _ _ _ => g
    | .update user files => g.withClient user ((g.client user).update layer (s.client user) files)
    | .reload user edited _ =>
      if edited = layer then g.withClient user { g.client user with taken := [] } else g
    | .serve user => g.serve room layer s user
    | .deliver user => g.withClient user ((g.client user).deliver layer)

end Stamps

/-- A session with its stamps. -/
structure Stamped where
  session : Session
  stamps : Stamps

namespace Stamped

def perform (room : Room) (layer : String) (x : Stamped) (action : SessionAction) : Stamped where
  session := x.session.perform room action
  stamps := x.stamps.perform room layer x.session action

def start (room : Room) (client : String → RenderStudioFileFormat) : Stamped where
  session := .start room client
  stamps := { client := fun user => ClientStamps.send 0 ((Session.start room client).downlink user) {} }

lemma session_final (room : Room) (layer : String) (x : Stamped) (run : List SessionAction) :
    (Runs.final (perform room layer) x run).session =
      Runs.final (Session.perform room) x.session run :=
  Runs.final_view (perform room layer) session (fun _ _ => rfl) x run

end Stamped

/-- The order of the stamps of one client. -/
structure Apart (layer : String) (clock : Nat) (uplink : List Json) (c : ClientStamps) : Prop where
  underWay : (∃ text ∈ uplink, (layerReload layer text).isSome) →
    c.taken = [] ∧ c.accumulated = [] ∧ ∀ m ∈ c.downlink, layerUpdate layer m.1 = none
  above : ∀ u ∈ c.taken ++ c.accumulated, c.floor < u.2
  requestedBelow : ∀ r ∈ c.requested, ∀ u ∈ c.accumulated, r < u.2
  coming : ∀ m ∈ c.downlink, (layerUpdate layer m.1).isSome →
    c.floor < m.2 ∧ ∀ r ∈ c.requested, r < m.2
  ordered : c.downlink.Pairwise fun m m' =>
    (layerReload layer m.1).isSome → (layerUpdate layer m'.1).isSome → m.2 < m'.2
  past : c.floor ≤ clock ∧ (∀ r ∈ c.requested, r ≤ clock) ∧ ∀ m ∈ c.downlink, m.2 ≤ clock

omit [Usd] in
lemma foldl_max_lt {start bound : Nat} {stamps : List Nat} (hstart : start < bound)
    (h : ∀ r ∈ stamps, r < bound) : stamps.foldl max start < bound := by
  induction stamps generalizing start with
  | nil => exact hstart
  | cons r stamps ih =>
    have hr := h r List.mem_cons_self
    exact ih (by omega) fun r' hr' => h r' (List.mem_cons_of_mem r hr')

namespace Apart

variable {layer : String} {clock : Nat} {uplink : List Json} {c : ClientStamps}

lemma fresh {texts : List Json} (htexts : ∀ text ∈ texts, layerUpdate layer text = none) :
    Apart layer 0 [] (ClientStamps.send 0 texts {}) := by
  have hnone : ∀ m ∈ (ClientStamps.send 0 texts {}).downlink,
      layerUpdate layer m.1 = none ∧ m.2 = 0 := by
    intro m hm
    obtain ⟨text, htext, rfl⟩ := List.mem_map.1 hm
    exact ⟨htexts text htext, rfl⟩
  constructor
  · intro h
    obtain ⟨text, htext, -⟩ := h
    exact absurd htext List.not_mem_nil
  · intro u hu
    exact absurd hu List.not_mem_nil
  · intro r hr
    exact absurd hr List.not_mem_nil
  · intro m hm hupdate
    rw [(hnone m hm).1] at hupdate
    exact absurd hupdate Bool.false_ne_true
  · apply List.pairwise_of_forall_mem_list
    intro m _ m' hm' _ hupdate
    rw [(hnone m' hm').1] at hupdate
    exact absurd hupdate Bool.false_ne_true
  · exact ⟨le_rfl, fun r hr => absurd hr List.not_mem_nil, fun m hm => (hnone m hm).2.le⟩

variable (h : Apart layer clock uplink c)

include h

lemma congr_uplink {uplink' : List Json}
    (hsub : ∀ text ∈ uplink', (layerReload layer text).isSome → text ∈ uplink) :
    Apart layer clock uplink' c := by
  refine ⟨fun hreload => ?_, h.above, h.requestedBelow, h.coming, h.ordered, h.past⟩
  obtain ⟨text, htext, htext'⟩ := hreload
  exact h.underWay ⟨text, hsub text htext htext', htext'⟩

omit h in
lemma floor_update_lt (f : RenderStudioFileFormat) (files : String → Option HashTable)
    {bound : Nat} (hfloor : c.floor < bound) (hrequested : ∀ r ∈ c.requested, r < bound) :
    (c.update layer f files).floor < bound := by
  unfold ClientStamps.update
  dsimp only
  split_ifs
  · exact foldl_max_lt hfloor hrequested
  · exact hfloor

omit h in
lemma mem_taken_update {f : RenderStudioFileFormat} {files : String → Option HashTable}
    {u : StampedUpdate} (hu : u ∈ (c.update layer f files).taken) :
    u ∈ c.accumulated ∨ u ∈ c.taken ∧ (c.update layer f files).floor = c.floor := by
  unfold ClientStamps.update at hu ⊢
  dsimp only at hu ⊢
  split_ifs at hu ⊢ with hreset hregistered
  · exact .inl hu
  · exact absurd hu List.not_mem_nil
  · exact (List.mem_append.1 hu).symm.imp_right fun hold => ⟨hold, rfl⟩
  · exact .inr ⟨hu, rfl⟩

lemma update (f : RenderStudioFileFormat) (files : String → Option HashTable) :
    Apart layer clock uplink (c.update layer f files) := by
  obtain ⟨hfloor, hrequested, hdownlink⟩ := h.past
  constructor
  · intro hreload
    obtain ⟨hnone, haccumulated, hcoming⟩ := h.underWay hreload
    refine ⟨List.eq_nil_iff_forall_not_mem.2 fun u hu => ?_, rfl, hcoming⟩
    rcases mem_taken_update hu with hnew | ⟨hold, -⟩
    · exact absurd (haccumulated ▸ hnew) List.not_mem_nil
    · exact absurd (hnone ▸ hold) List.not_mem_nil
  · intro u hu
    have hmem : u ∈ (c.update layer f files).taken := by
      rw [← List.append_nil (c.update layer f files).taken]
      exact hu
    rcases mem_taken_update hmem with hnew | ⟨hold, hsame⟩
    · apply floor_update_lt f files
      · exact h.above u (List.mem_append_right _ hnew)
      · exact fun r hr => h.requestedBelow r hr u hnew
    · rw [hsame]
      exact h.above u (List.mem_append_left _ hold)
  · intro r hr
    exact absurd hr List.not_mem_nil
  · intro m hm hupdate
    obtain ⟨hlt, hall⟩ := h.coming m hm hupdate
    exact ⟨floor_update_lt f files hlt hall, fun r hr => absurd hr List.not_mem_nil⟩
  · exact h.ordered
  · have hlt : (c.update layer f files).floor < clock + 1 := by
      apply floor_update_lt f files
      · omega
      · intro r hr
        have hle := hrequested r hr
        omega
    exact ⟨by omega, fun r hr => absurd hr List.not_mem_nil, hdownlink⟩

lemma reset (uplink' : List Json) (haccumulated : c.accumulated = [])
    (hcoming : ∀ m ∈ c.downlink, layerUpdate layer m.1 = none) :
    Apart layer clock uplink' { c with taken := [] } where
  underWay _ := ⟨rfl, haccumulated, hcoming⟩
  above u hu := h.above u (List.mem_append_right _ hu)
  requestedBelow := h.requestedBelow
  coming := h.coming
  ordered := h.ordered
  past := h.past

lemma forget : Apart layer clock uplink { c with taken := [] } where
  underWay hreload := ⟨rfl, (h.underWay hreload).2⟩
  above u hu := h.above u (List.mem_append_right _ hu)
  requestedBelow := h.requestedBelow
  coming := h.coming
  ordered := h.ordered
  past := h.past

lemma drop {m : Json × Nat} {rest : List (Json × Nat)} (hdownlink : c.downlink = m :: rest) :
    Apart layer clock uplink { c with downlink := rest } := by
  have hrest : ∀ m' ∈ rest, m' ∈ c.downlink := fun m' hm' =>
    hdownlink ▸ List.mem_cons_of_mem m hm'
  have hordered := h.ordered
  rw [hdownlink, List.pairwise_cons] at hordered
  constructor
  · intro hreload
    obtain ⟨htaken, haccumulated, hcoming⟩ := h.underWay hreload
    exact ⟨htaken, haccumulated, fun m' hm' => hcoming m' (hrest m' hm')⟩
  · exact h.above
  · exact h.requestedBelow
  · exact fun m' hm' => h.coming m' (hrest m' hm')
  · exact hordered.2
  · exact ⟨h.past.1, h.past.2.1, fun m' hm' => h.past.2.2 m' (hrest m' hm')⟩

lemma accumulate (update : Nat × HashTable) {stamp : Nat}
    (hquiet : ∀ text ∈ uplink, layerReload layer text = none)
    (hstamp : c.floor < stamp ∧ ∀ r ∈ c.requested, r < stamp) :
    Apart layer clock uplink { c with accumulated := c.accumulated ++ [(update, stamp)] } := by
  constructor
  · intro hreload
    obtain ⟨text, htext, hsome⟩ := hreload
    rw [hquiet text htext] at hsome
    exact absurd hsome Bool.false_ne_true
  · intro u hu
    rw [← List.append_assoc] at hu
    rcases List.mem_append.1 hu with hold | hnew
    · exact h.above u hold
    · rw [List.mem_singleton.1 hnew]
      exact hstamp.1
  · intro r hr u hu
    rcases List.mem_append.1 hu with hold | hnew
    · exact h.requestedBelow r hr u hold
    · rw [List.mem_singleton.1 hnew]
      exact hstamp.2 r hr
  · exact h.coming
  · exact h.ordered
  · exact h.past

lemma request {stamp : Nat} (hstamp : stamp ≤ clock)
    (hcoming : ∀ m ∈ c.downlink, (layerUpdate layer m.1).isSome → stamp < m.2) :
    Apart layer clock uplink
      { c with accumulated := [], requested := c.requested ++ [stamp] } := by
  constructor
  · intro hreload
    obtain ⟨htaken, -, hnone⟩ := h.underWay hreload
    exact ⟨htaken, rfl, hnone⟩
  · intro u hu
    rw [List.append_nil] at hu
    exact h.above u (List.mem_append_left _ hu)
  · intro r _ u hu
    exact absurd hu List.not_mem_nil
  · intro m hm hupdate
    obtain ⟨hlt, hall⟩ := h.coming m hm hupdate
    refine ⟨hlt, fun r hr => ?_⟩
    rcases List.mem_append.1 hr with hold | hnew
    · exact hall r hold
    · rw [List.mem_singleton.1 hnew]
      exact hcoming m hm hupdate
  · exact h.ordered
  · refine ⟨h.past.1, fun r hr => ?_, h.past.2.2⟩
    rcases List.mem_append.1 hr with hold | hnew
    · exact h.past.2.1 r hold
    · rw [List.mem_singleton.1 hnew]
      exact hstamp

lemma deliver : Apart layer clock uplink (c.deliver layer) := by
  unfold ClientStamps.deliver
  cases hdownlink : c.downlink with
  | nil => exact h
  | cons m rest =>
    obtain ⟨text, stamp⟩ := m
    have hhead : (text, stamp) ∈ c.downlink := hdownlink ▸ List.mem_cons_self
    have hdropped := h.drop hdownlink
    dsimp only
    cases hupdate : layerUpdate layer text with
    | some update =>
      apply hdropped.accumulate update
      · intro text' htext'
        by_contra hne
        have hnone := (h.underWay ⟨text', htext', Option.isSome_iff_ne_none.2 hne⟩).2.2 _ hhead
        rw [hupdate] at hnone
        exact absurd hnone (Option.some_ne_none update)
      · exact h.coming _ hhead (by rw [hupdate]; rfl)
    | none =>
      dsimp only
      split_ifs with hreload
      · have hsome : (layerReload layer text).isSome := by
          cases hlayer : layerReload layer text with
          | none => simp [hlayer] at hreload
          | some v => rfl
        have hordered := h.ordered
        rw [hdownlink, List.pairwise_cons] at hordered
        apply hdropped.request
        · exact h.past.2.2 _ hhead
        · exact fun m hm => hordered.1 m hm hsome
      · exact hdropped

/-- What is sent is new, and updates meet no reload. -/
lemma send {clock' : Nat} (hclock : clock ≤ clock') {texts : List Json}
    (hupdates : ∀ text ∈ texts, (layerUpdate layer text).isSome → clock < clock' ∧
      (∀ text ∈ uplink, layerReload layer text = none) ∧
        ∀ text ∈ texts, layerReload layer text = none) :
    Apart layer clock' uplink (c.send clock' texts) := by
  obtain ⟨hfloor, hrequested, hpast⟩ := h.past
  have hnew : ∀ m ∈ texts.map (·, clock'), m.1 ∈ texts ∧ m.2 = clock' := by
    intro m hm
    obtain ⟨text, htext, rfl⟩ := List.mem_map.1 hm
    exact ⟨htext, rfl⟩
  constructor
  · intro hreload
    obtain ⟨htaken, haccumulated, hcoming⟩ := h.underWay hreload
    refine ⟨htaken, haccumulated, fun m hm => ?_⟩
    rcases List.mem_append.1 hm with hold | hsent
    · exact hcoming m hold
    · by_contra hsome
      obtain ⟨text, htext, htext'⟩ := hreload
      have hnone := (hupdates m.1 (hnew m hsent).1 (Option.isSome_iff_ne_none.2 hsome)).2.1 text htext
      rw [hnone] at htext'
      exact absurd htext' Bool.false_ne_true
  · exact h.above
  · exact h.requestedBelow
  · intro m hm hupdate
    rcases List.mem_append.1 hm with hold | hsent
    · exact h.coming m hold hupdate
    · obtain ⟨htext, hstamp⟩ := hnew m hsent
      have hlt := (hupdates m.1 htext hupdate).1
      have hall : ∀ stamp ≤ clock, stamp < m.2 := fun stamp hle => by omega
      exact ⟨hall _ hfloor, fun r hr => hall r (hrequested r hr)⟩
  · apply List.pairwise_append.2
    refine ⟨h.ordered, List.pairwise_of_forall_mem_list fun m hm m' hm' hreload hupdate => ?_,
      fun m hm m' hm' _ hupdate => ?_⟩
    · have hnone := (hupdates m'.1 (hnew m' hm').1 hupdate).2.2 m.1 (hnew m hm).1
      rw [hnone] at hreload
      exact absurd hreload Bool.false_ne_true
    · obtain ⟨htext, hstamp⟩ := hnew m' hm'
      have hlt := (hupdates m'.1 htext hupdate).1
      have hle := hpast m hm
      omega
  · refine ⟨hfloor.trans hclock, fun r hr => (hrequested r hr).trans hclock, fun m hm => ?_⟩
    rcases List.mem_append.1 hm with hold | hsent
    · exact (hpast m hold).trans hclock
    · exact (hnew m hsent).2.le

lemma handled (hreload : ∃ text ∈ uplink, (layerReload layer text).isSome)
    (uplink' : List Json) : Apart layer clock uplink' { c with floor := clock } := by
  obtain ⟨htaken, haccumulated, hcoming⟩ := h.underWay hreload
  constructor
  · exact fun _ => ⟨htaken, haccumulated, hcoming⟩
  · intro u hu
    rw [htaken, haccumulated] at hu
    exact absurd hu List.not_mem_nil
  · exact h.requestedBelow
  · intro m hm hupdate
    rw [hcoming m hm] at hupdate
    exact absurd hupdate Bool.false_ne_true
  · exact h.ordered
  · exact ⟨le_rfl, h.past.2⟩

end Apart

end

end RenderStudioKit.Proofs
