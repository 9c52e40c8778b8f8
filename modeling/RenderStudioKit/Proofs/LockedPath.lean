import RenderStudioKit.Proofs.PathLog

/-!
# A path edited under a lock

Clients that take turns edit a path only when they have applied every delta of it the others
made. Then the deltas of the path form one chain, those the server has numbered and behind them
those of the client that edited last, and every client holds a beginning of it. Seen from a
client that receives a foreign delta, nothing of its own is unseen.
-/

namespace RenderStudioKit.Proofs

open PathState

variable [Usd]

/-- The value the last edit of the field gives it, or the one it had. -/
def editedValue (field : TfToken) (edits : List (TfToken × VtValue)) (start : Option VtValue) :
    Option VtValue :=
  edits.foldl (fun value edit => if edit.1 = field then some edit.2 else value) start

/-- The delta says what the edits say. -/
def Coalesces (edits : List (TfToken × VtValue)) (delta : String × SpecData) : Prop :=
  ∀ field start, editedValue field edits start = (delta.2.fields.lookup field).or start

/-- An edit joins those of the pending delta, or begins a new delta. -/
def batchEdit (pending : Bool) (edit : TfToken × VtValue)
    (batches : List (List (TfToken × VtValue))) : List (List (TfToken × VtValue)) :=
  if pending then batches.dropLast ++ [batches.getLastD [] ++ [edit]] else batches ++ [[edit]]

section

variable {field : TfToken} {edit : TfToken × VtValue} {batches : List (List (TfToken × VtValue))}

lemma editedValue_append (edits edits' : List (TfToken × VtValue)) (start : Option VtValue) :
    editedValue field (edits ++ edits') start =
      editedValue field edits' (editedValue field edits start) :=
  List.foldl_append

@[simp] lemma editedValue_nil (start : Option VtValue) : editedValue field [] start = start := rfl

@[simp] lemma editedValue_cons (edits : List (TfToken × VtValue)) (start : Option VtValue) :
    editedValue field (edit :: edits) start =
      editedValue field edits (if edit.1 = field then some edit.2 else start) := rfl

lemma editedValue_flatten {deltas : List (String × SpecData)}
    (h : List.Forall₂ Coalesces batches deltas) (start : Option VtValue) :
    editedValue field batches.flatten start =
      lastValue field (deltas.map fun delta => some delta.2) start := by
  induction h generalizing start with
  | nil => rfl
  | cons hfirst hrest ih =>
    rw [List.flatten_cons, editedValue_append, hfirst field start, ih]
    rfl

lemma batchEdit_flatten (pending : Bool) :
    (batchEdit pending edit batches).flatten = batches.flatten ++ [edit] := by
  cases pending with
  | false => simp [batchEdit]
  | true =>
    rcases List.eq_nil_or_concat batches with rfl | ⟨front, last, rfl⟩
    · simp [batchEdit]
    · simp [batchEdit]

lemma batchEdit_take {pending : Bool} {n : Nat} (hn : n ≤ batches.length)
    (hpending : pending = true → n < batches.length) :
    (batchEdit pending edit batches).take n = batches.take n := by
  cases pending with
  | false => simp [batchEdit, List.take_append_of_le_length hn]
  | true =>
    have hlt := hpending rfl
    rcases List.eq_nil_or_concat batches with rfl | ⟨front, last, rfl⟩
    · simp at hlt
    · have hle : n ≤ front.length := Nat.le_of_lt_succ (by simpa using hlt)
      simp [batchEdit, List.take_append_of_le_length hle]

lemma flatten_take (n : Nat) :
    batches.flatten.take (batches.take n).flatten.length = (batches.take n).flatten := by
  have hsplit : batches.flatten = (batches.take n).flatten ++ (batches.drop n).flatten := by
    rw [← List.flatten_append, List.take_append_drop]
  rw [hsplit, List.take_left']
  rfl

lemma flatten_take_mono {n m : Nat} (h : n ≤ m) :
    (batches.take n).flatten.length ≤ (batches.take m).flatten.length := by
  have hsplit : batches.take m = batches.take n ++ (batches.drop n).take (m - n) := by
    rw [← List.take_add, Nat.add_sub_cancel' h]
  rw [hsplit, List.flatten_append, List.length_append]
  exact Nat.le_add_right _ _

end

/-- The entries that concern the path, with their authors. -/
def pathDeltas (entries : List (String × Option SpecData)) : List (String × SpecData) :=
  entries.filterMap fun e => e.2.map fun delta => (e.1, delta)

/-- The deltas of the client that the server has not numbered. -/
def unnumbered (log : PathLog) (user : String) : List (String × SpecData) :=
  pathDeltas (((log.replica user).outbox ++ [(log.replica user).state.edit]).map (user, ·))

/-- The deltas of the client that it has not seen in the history. -/
def ownUnseen (log : PathLog) (user : String) : List (String × SpecData) :=
  pathDeltas ((log.awaited user ++ [(log.replica user).state.edit]).map (user, ·))

/-- The deltas whose values the client works on. -/
def held (log : PathLog) (user : String) : List (String × SpecData) :=
  pathDeltas (log.history.take (log.replica user).applied) ++ ownUnseen log user

/-- The client has applied every delta the others made. -/
def HasTurn (log : PathLog) (user : String) : Prop :=
  (∀ w, w ≠ user → unnumbered log w = []) ∧
    ∀ e ∈ log.history.drop (log.replica user).applied, e.1 ≠ user → e.2 = none

section

variable {log : PathLog} {user author : String}

lemma pathDeltas_append (entries entries' : List (String × Option SpecData)) :
    pathDeltas (entries ++ entries') = pathDeltas entries ++ pathDeltas entries' :=
  List.filterMap_append

@[simp] lemma pathDeltas_nil : pathDeltas [] = [] := rfl

@[simp] lemma pathDeltas_none (entries : List (String × Option SpecData)) :
    pathDeltas ((author, none) :: entries) = pathDeltas entries := rfl

@[simp] lemma pathDeltas_some (delta : SpecData) (entries : List (String × Option SpecData)) :
    pathDeltas ((author, some delta) :: entries) = (author, delta) :: pathDeltas entries := rfl

lemma mem_pathDeltas {entries : List (String × Option SpecData)} {delta : String × SpecData} :
    delta ∈ pathDeltas entries ↔ (delta.1, some delta.2) ∈ entries := by
  unfold pathDeltas
  constructor
  · intro h
    obtain ⟨e, he, hdelta⟩ := List.mem_filterMap.1 h
    obtain ⟨spec, hspec, rfl⟩ := Option.map_eq_some_iff.1 hdelta
    rwa [← hspec]
  · intro h
    exact List.mem_filterMap.2 ⟨_, h, rfl⟩

lemma ownUnseen_author {delta : String × SpecData} (h : delta ∈ ownUnseen log user) :
    delta.1 = user := by
  obtain ⟨entry, -, hentry⟩ := List.mem_map.1 (mem_pathDeltas.1 h)
  exact (congrArg Prod.fst hentry).symm

lemma pathDeltas_filter {entries : List (String × Option SpecData)}
    (h : ∀ e ∈ entries, e.1 ≠ user → e.2 = none) :
    pathDeltas (entries.filter (·.1 = user)) = pathDeltas entries := by
  unfold pathDeltas
  rw [List.filterMap_filter]
  refine List.filterMap_congr fun e he => ?_
  by_cases hown : e.1 = user
  · simp [hown]
  · simp [hown, h e he hown]

lemma ownUnseen_eq : ownUnseen log user =
    pathDeltas ((log.history.drop (log.replica user).applied).filter (·.1 = user)) ++
      unnumbered log user := by
  have hown : ((log.history.drop (log.replica user).applied).filter (·.1 = user)).map
      (fun e => (user, e.2)) =
      (log.history.drop (log.replica user).applied).filter (·.1 = user) := by
    refine (List.map_congr_left fun e he => ?_).trans (List.map_id _)
    exact Prod.ext (of_decide_eq_true (List.mem_filter.1 he).2).symm rfl
  unfold ownUnseen unnumbered SharedLog.awaited
  rw [List.append_assoc, List.map_append, List.map_map, pathDeltas_append]
  exact congrArg (pathDeltas · ++ _) hown

lemma pathDeltas_history {delta : SpecData}
    (hnext : log.history[(log.replica user).applied]? = some (author, some delta)) :
    pathDeltas log.history =
      pathDeltas (log.history.take (log.replica user).applied) ++ (author, delta) ::
        pathDeltas (log.history.drop ((log.replica user).applied + 1)) := by
  rw [← pathDeltas_some, ← SharedLog.drop_applied hnext, ← pathDeltas_append,
    List.take_append_drop]

lemma HasTurn.held (h : HasTurn log user) :
    held log user = pathDeltas log.history ++ unnumbered log user := by
  unfold Proofs.held
  rw [ownUnseen_eq, pathDeltas_filter h.2, ← List.append_assoc, ← pathDeltas_append,
    List.take_append_drop]

end

/-- The log of the path and the edits made so far, those of one delta together. -/
structure TracedLog where
  log : PathLog
  batches : List (List (TfToken × VtValue)) := []

/-- A path without a spec cannot be edited. -/
def TracedLog.perform (path : SdfPath) (t : TracedLog) (action : LogAction) : TracedLog where
  log := action.perform path t.log
  batches := match action with
    | .set user field value =>
      if (t.log.replica user).state.spec.isSome then
        batchEdit (t.log.replica user).state.edit.isSome (field, value) t.batches
      else t.batches
    | _ => t.batches

/-- The number of edits the client has seen or made. -/
def place (t : TracedLog) (user : String) : Nat :=
  (t.batches.take (held t.log user).length).flatten.length

/-- Members edit the path when it is their turn, and a flush loses nothing. -/
def LockedAction (members : List String) (log : PathLog) (action : LogAction) : Prop :=
  action.user ∈ members ∧ match action with
    | .set user field value =>
      HasTurn log user ∧ value.isEmpty = false ∧ removesSpec field value = false
    | .flush user sends => sends = false → (log.replica user).state.edit = none
    | _ => True

/-- The deltas form one chain, of which every client holds a beginning and the client that edited
last the whole. -/
structure Handed (members : List String) (base : Option SpecData) (t : TracedLog) : Prop where
  ordinary : OrdinaryLog members (fun _ => True) base t.log
  chain : ∃ holder, (∀ w, w ≠ holder → unnumbered t.log w = []) ∧
    List.Forall₂ Coalesces t.batches (pathDeltas t.log.history ++ unnumbered t.log holder)
  behind : ∀ user ∈ members, unnumbered t.log user = [] →
    held t.log user <+: pathDeltas t.log.history
  current : ∀ user ∈ members, unnumbered t.log user ≠ [] →
    held t.log user = pathDeltas t.log.history ++ unnumbered t.log user
  awaiting : ∀ user ∈ members, (t.log.replica user).state.unacknowledged = true →
    ownUnseen t.log user ≠ []
  value : ∀ user ∈ members, ∀ field, fieldAt (t.log.replica user).state.spec field =
    lastValue field ((held t.log user).map fun delta => some delta.2) (fieldAt base field)

section

variable {log : PathLog} {user w : String}

lemma unnumbered_eq (log : PathLog) (user : String) : unnumbered log user =
    pathDeltas ((log.replica user).outbox.map (user, ·)) ++
      pathDeltas [(user, (log.replica user).state.edit)] := by
  unfold unnumbered
  rw [List.map_append, pathDeltas_append]
  rfl

lemma held_congr {log' : PathLog} (happlied : (log'.replica w).applied = (log.replica w).applied)
    (hseen : log'.history.take (log.replica w).applied = log.history.take (log.replica w).applied)
    (hawaited : log'.awaited w = log.awaited w)
    (hedit : (log'.replica w).state.edit = (log.replica w).state.edit) :
    held log' w = held log w := by
  unfold held ownUnseen
  rw [happlied, hseen, hawaited, hedit]

lemma unnumbered_edit_ne (change : PathState → PathState) (hne : w ≠ user) :
    unnumbered (log.edit user change) w = unnumbered log w := by
  unfold unnumbered
  rw [SharedLog.edit_replica_ne _ hne]

lemma held_edit_ne (change : PathState → PathState) (hne : w ≠ user) :
    held (log.edit user change) w = held log w := by
  have hreplica : (log.edit user change).replica w = log.replica w :=
    SharedLog.edit_replica_ne change hne
  exact held_congr (by rw [hreplica]) rfl (SharedLog.awaited_edit change) (by rw [hreplica])

lemma ownUnseen_serve (hbounded : log.Bounded) : ownUnseen (log.serve user) w = ownUnseen log w := by
  unfold ownUnseen
  rw [SharedLog.serve_state, SharedLog.awaited_serve (hbounded w)]

lemma held_serve (hbounded : log.Bounded) : held (log.serve user) w = held log w := by
  have happlied : (log.serve user).history.take ((log.serve user).replica w).applied =
      log.history.take (log.replica w).applied := by
    unfold SharedLog.serve
    split
    · rfl
    · rw [List.take_append_of_le_length]
      · by_cases hwu : w = user
        · subst hwu
          simp
        · simp [hwu]
      · by_cases hwu : w = user
        · subst hwu
          simpa using hbounded w
        · simpa [hwu] using hbounded w
  unfold held
  rw [ownUnseen_serve hbounded, happlied]

lemma unnumbered_serve_ne (hne : w ≠ user) :
    unnumbered (log.serve user) w = unnumbered log w := by
  unfold unnumbered SharedLog.serve
  split
  · rfl
  · simp [hne]

lemma unnumbered_serve {entry : Option SpecData} {rest : List (Option SpecData)}
    (houtbox : (log.replica user).outbox = entry :: rest) :
    unnumbered log user = pathDeltas [(user, entry)] ++ unnumbered (log.serve user) user := by
  have hrest : ((log.serve user).replica user).outbox = rest := by
    rw [SharedLog.serve, houtbox]
    simp
  rw [unnumbered_eq, unnumbered_eq, SharedLog.serve_state, houtbox, hrest, ← List.append_assoc]
  exact congrArg (· ++ _) (pathDeltas_append [(user, entry)] (rest.map (user, ·)))

lemma HasTurn.edit (h : HasTurn log user) (change : PathState → PathState) :
    HasTurn (log.edit user change) user := by
  refine ⟨fun w hw => (unnumbered_edit_ne change hw).trans (h.1 w hw), ?_⟩
  have happlied : ((log.edit user change).replica user).applied = (log.replica user).applied := by
    simp [SharedLog.edit]
  rw [happlied]
  exact h.2

lemma ownUnseen_edit_ne (change : PathState → PathState) (hne : w ≠ user) :
    ownUnseen (log.edit user change) w = ownUnseen log w := by
  unfold ownUnseen
  rw [SharedLog.edit_replica_ne _ hne, SharedLog.awaited_edit]

/-- The edits stay grouped by the delta they go into. -/
lemma batchEdit_coalesces {field : TfToken} {value : VtValue}
    {batches : List (List (TfToken × VtValue))} {front : List (String × SpecData)}
    {edit : Option SpecData} {delta : SpecData}
    (h : List.Forall₂ Coalesces batches (front ++ pathDeltas [(user, edit)]))
    (hdelta : ∀ key, delta.fields.lookup key =
      if key = field then some value else edit.bind (·.fields.lookup key)) :
    List.Forall₂ Coalesces (batchEdit edit.isSome (field, value) batches)
      (front ++ [(user, delta)]) := by
  cases edit with
  | none =>
    rw [pathDeltas_none, pathDeltas_nil, List.append_nil] at h
    refine List.rel_append h (.cons (fun key start => ?_) .nil)
    rw [editedValue_cons, editedValue_nil, hdelta]
    by_cases hkey : key = field
    · simp [hkey]
    · have hne : field ≠ key := fun heq => hkey heq.symm
      simp [hkey, hne]
  | some pending =>
    rw [pathDeltas_some, pathDeltas_nil] at h
    have hfront := List.forall₂_take_append batches front _ h
    have hlast := List.forall₂_drop_append batches front _ h
    obtain ⟨last, hdrop⟩ : ∃ last, batches.drop front.length = [last] :=
      List.length_eq_one_iff.1 hlast.length_eq
    have hbatches : batches = batches.take front.length ++ [last] := by
      rw [← hdrop, List.take_append_drop]
    rw [hdrop] at hlast
    obtain ⟨hlast, -⟩ := List.forall₂_cons.1 hlast
    rw [hbatches]
    simp only [batchEdit, Option.isSome_some, if_true, List.dropLast_concat, List.getLastD_concat]
    refine List.rel_append hfront (.cons (fun key start => ?_) .nil)
    rw [editedValue_append, hlast key start, editedValue_cons, editedValue_nil, hdelta]
    by_cases hkey : key = field
    · simp [hkey]
    · have hne : field ≠ key := fun heq => hkey heq.symm
      simp [hkey, hne]

lemma unnumbered_set {value : VtValue}
    (hspec : (log.replica user).state.spec.isSome) (field : TfToken)
    (hvalue : value.isEmpty = false) : ∃ delta : SpecData,
      (∀ key, delta.fields.lookup key = if key = field then some value else
        (log.replica user).state.edit.bind (·.fields.lookup key)) ∧
      unnumbered (log.edit user (PathState.set field value)) user =
        pathDeltas ((log.replica user).outbox.map (user, ·)) ++ [(user, delta)] := by
  have hset : (log.replica user).state.set field value =
      (log.replica user).state.setField field value := by simp [PathState.set, hvalue]
  have houtbox : ((log.edit user (PathState.set field value)).replica user).outbox =
      (log.replica user).outbox := by simp [SharedLog.edit]
  obtain ⟨delta, hdelta⟩ := Option.isSome_iff_exists.1 (setField_edit_isSome hspec field value)
  refine ⟨delta, fun key => ?_, ?_⟩
  · rw [← (setField_field hspec field value key).2, hdelta]
    rfl
  · rw [unnumbered_eq, houtbox, SharedLog.edit_state, hset, hdelta]
    rfl

lemma lastValue_edit {field : TfToken} {value : VtValue} {front : List (String × SpecData)}
    {edit : Option SpecData} {delta : SpecData} (hdelta : ∀ key, delta.fields.lookup key =
      if key = field then some value else edit.bind (·.fields.lookup key)) {key : TfToken}
    {start : Option VtValue} :
    lastValue key ((front ++ [(user, delta)]).map fun delta => some delta.2) start =
      if key = field then some value else
        lastValue key ((front ++ pathDeltas [(user, edit)]).map fun delta => some delta.2) start := by
  rw [List.map_append, lastValue_append, List.map_append, lastValue_append]
  by_cases hkey : key = field
  · simp [hdelta, hkey]
  · cases edit <;> simp [hdelta, hkey]

section

variable {path : SdfPath} {author : String} {entry : Option SpecData}
  (hnext : log.history[(log.replica user).applied]? = some (author, entry))

include hnext

lemma unnumbered_receive (w : String) :
    unnumbered (log.receive user (receiveEntry path)) w = unnumbered log w := by
  unfold unnumbered
  by_cases hwu : w = user
  · subst hwu
    rw [SharedLog.receive_state hnext, OrdinaryLog.receiveEntry_edit, SharedLog.receive_eq hnext]
    simp
  · rw [SharedLog.receive_replica_ne _ hwu]

lemma held_receive : held (log.receive user (receiveEntry path)) user =
    pathDeltas (log.history.take (log.replica user).applied) ++
      (pathDeltas [(author, entry)] ++ ownUnseen (log.receive user (receiveEntry path)) user) := by
  have happlied : ((log.receive user (receiveEntry path)).replica user).applied =
      (log.replica user).applied + 1 := by
    rw [SharedLog.receive_eq hnext]
    simp
  unfold held
  rw [happlied, SharedLog.receive_history, List.take_add_one, hnext, pathDeltas_append,
    List.append_assoc]
  rfl

lemma ownUnseen_receive_own (hown : author = user) : ownUnseen log user =
    pathDeltas [(user, entry)] ++ ownUnseen (log.receive user (receiveEntry path)) user := by
  unfold ownUnseen
  rw [SharedLog.awaited_receive_own hnext hown, SharedLog.receive_state hnext,
    OrdinaryLog.receiveEntry_edit]
  exact pathDeltas_append [(user, entry)] _

lemma ownUnseen_receive_foreign (hforeign : author ≠ user) :
    ownUnseen (log.receive user (receiveEntry path)) user = ownUnseen log user := by
  unfold ownUnseen
  rw [SharedLog.awaited_receive_foreign hnext hforeign, SharedLog.receive_state hnext,
    OrdinaryLog.receiveEntry_edit]

end

end

lemma place_le (t : TracedLog) (user : String) : place t user ≤ t.batches.flatten.length := by
  have hmono : place t user ≤
      (t.batches.take ((held t.log user).length + t.batches.length)).flatten.length :=
    flatten_take_mono (Nat.le_add_right _ _)
  rwa [List.take_of_length_le (Nat.le_add_left _ _)] at hmono

lemma place_mono {t t' : TracedLog} (hbatches : t'.batches = t.batches) {user : String}
    (hheld : (held t.log user).length ≤ (held t'.log user).length) : place t user ≤ place t' user := by
  unfold place
  rw [hbatches]
  exact flatten_take_mono hheld

namespace Handed

variable {members : List String} {path : SdfPath} {base : Option SpecData} {t : TracedLog}
  (h : Handed members base t)

include h

lemma turn_chain {user : String} (hturn : HasTurn t.log user) :
    List.Forall₂ Coalesces t.batches (pathDeltas t.log.history ++ unnumbered t.log user) := by
  obtain ⟨holder, hnone, hchain⟩ := h.chain
  by_cases hholder : holder = user
  · rwa [← hholder]
  · rw [hnone user fun heq => hholder heq.symm]
    rwa [hturn.1 holder hholder] at hchain

lemma held_prefix {user : String} (hmember : user ∈ members) :
    held t.log user <+: pathDeltas t.log.history ++ unnumbered t.log user := by
  by_cases hnone : unnumbered t.log user = []
  · exact (h.behind user hmember hnone).trans (List.prefix_append _ _)
  · rw [h.current user hmember hnone]

lemma ownUnseen_eq_nil {user author : String} (hmember : user ∈ members) {delta : SpecData}
    (hnext : t.log.history[(t.log.replica user).applied]? = some (author, some delta))
    (hforeign : author ≠ user) : ownUnseen t.log user = [] := by
  have hprefix := h.held_prefix hmember
  rw [pathDeltas_history hnext, List.append_assoc] at hprefix
  unfold held at hprefix
  rw [List.prefix_append_right_inj] at hprefix
  cases hout : ownUnseen t.log user with
  | nil => rfl
  | cons first rest =>
    have hown : first.1 = user := ownUnseen_author (hout ▸ List.mem_cons_self)
    rw [hout, List.cons_append, List.cons_prefix_cons] at hprefix
    exact absurd ((congrArg Prod.fst hprefix.1).symm.trans hown) hforeign

lemma place_value {user : String} (hmember : user ∈ members) (field : TfToken) :
    fieldAt (t.log.replica user).state.spec field =
      editedValue field (t.batches.flatten.take (place t user)) (fieldAt base field) := by
  have hprefix : ∃ holder, held t.log user <+:
      pathDeltas t.log.history ++ unnumbered t.log holder ∧
      List.Forall₂ Coalesces t.batches (pathDeltas t.log.history ++ unnumbered t.log holder) := by
    obtain ⟨holder, hnone, hchain⟩ := h.chain
    refine ⟨holder, ?_, hchain⟩
    by_cases hholder : user = holder
    · rw [← hholder]
      exact h.held_prefix hmember
    · exact (h.behind user hmember (hnone user hholder)).trans (List.prefix_append _ _)
  obtain ⟨holder, hprefix, hchain⟩ := hprefix
  have hheld := List.prefix_iff_eq_take.1 hprefix
  have htake := List.forall₂_take (held t.log user).length hchain
  rw [← hheld] at htake
  rw [h.value user hmember field, place, flatten_take, editedValue_flatten htake]

lemma held_behind {user w : String} (hturn : HasTurn t.log user) (hw : w ∈ members)
    (hwu : w ≠ user) : (held t.log w).length ≤ t.batches.length ∧
      ((t.log.replica user).state.edit.isSome = true →
        (held t.log w).length < t.batches.length) := by
  have hbehind := (h.behind w hw (hturn.1 w hwu)).length_le
  have hbatches := (h.turn_chain hturn).length_eq
  rw [unnumbered_eq, List.length_append, List.length_append] at hbatches
  refine ⟨by omega, fun hpending => ?_⟩
  obtain ⟨pending, hedit⟩ := Option.isSome_iff_exists.1 hpending
  rw [hedit] at hbatches
  simp at hbatches
  omega

lemma set_chain {user : String} {field : TfToken} {value : VtValue}
    (hturn : HasTurn t.log user) {delta : SpecData}
    (hdelta : ∀ key, delta.fields.lookup key = if key = field then some value else
      (t.log.replica user).state.edit.bind (·.fields.lookup key))
    (hnew : unnumbered (t.log.edit user (PathState.set field value)) user =
      pathDeltas ((t.log.replica user).outbox.map (user, ·)) ++ [(user, delta)]) :
    List.Forall₂ Coalesces
      (batchEdit (t.log.replica user).state.edit.isSome (field, value) t.batches)
      (pathDeltas t.log.history ++
        unnumbered (t.log.edit user (PathState.set field value)) user) := by
  have hchain := h.turn_chain hturn
  rw [unnumbered_eq, ← List.append_assoc] at hchain
  rw [hnew, ← List.append_assoc]
  exact batchEdit_coalesces hchain hdelta

lemma set_value {user : String} {field : TfToken} {value : VtValue} (hmember : user ∈ members)
    (hturn : HasTurn t.log user) (hvalue : value.isEmpty = false)
    (hspec : (t.log.replica user).state.spec.isSome) {delta : SpecData}
    (hdelta : ∀ key, delta.fields.lookup key = if key = field then some value else
      (t.log.replica user).state.edit.bind (·.fields.lookup key))
    (hnew : unnumbered (t.log.edit user (PathState.set field value)) user =
      pathDeltas ((t.log.replica user).outbox.map (user, ·)) ++ [(user, delta)])
    (key : TfToken) :
    fieldAt ((t.log.edit user (PathState.set field value)).replica user).state.spec key =
      lastValue key ((held (t.log.edit user (PathState.set field value)) user).map
        fun delta => some delta.2) (fieldAt base key) := by
  have hset : (t.log.replica user).state.set field value =
      (t.log.replica user).state.setField field value := by simp [PathState.set, hvalue]
  have hbefore := h.value user hmember key
  rw [hturn.held, unnumbered_eq, ← List.append_assoc] at hbefore
  rw [(hturn.edit _).held, hnew, SharedLog.edit_history, ← List.append_assoc,
    lastValue_edit hdelta, ← hbefore, SharedLog.edit_state, hset]
  exact (setField_field hspec field value key).1

/-- A client edits the path in its turn. -/
lemma set_present {user : String} {field : TfToken} {value : VtValue}
    (hok : LockedAction members t.log (.set user field value))
    (hspec : (t.log.replica user).state.spec.isSome) :
    Handed members base (t.perform path (.set user field value)) ∧
      ∀ w ∈ members, place t w ≤ place (t.perform path (.set user field value)) w := by
  obtain ⟨hmember, hturn, hvalue, hremove⟩ := hok
  obtain ⟨delta, hdelta, hnew⟩ := unnumbered_set hspec field hvalue
  have hturn' := hturn.edit (PathState.set field value)
  have hchain := h.set_chain hturn hdelta hnew
  have hperform : t.perform path (.set user field value) =
      ⟨t.log.edit user (PathState.set field value),
        batchEdit (t.log.replica user).state.edit.isSome (field, value) t.batches⟩ :=
    congrArg (TracedLog.mk _) (if_pos hspec)
  rw [hperform]
  refine ⟨⟨?_, ⟨user, hturn'.1, hchain⟩, fun w hw hnone => ?_, fun w hw hsome => ?_,
    fun w hw hunack => ?_, fun w hw key => ?_⟩, fun w hw => ?_⟩
  · exact h.ordinary.set ⟨hmember, hspec, fun _ => ⟨hremove, trivial⟩⟩
  · by_cases hwu : w = user
    · subst hwu
      rw [hnew] at hnone
      simp at hnone
    · rw [held_edit_ne _ hwu, SharedLog.edit_history]
      exact h.behind w hw (hturn.1 w hwu)
  · by_cases hwu : w = user
    · rw [hwu]
      exact hturn'.held
    · exact absurd (hturn'.1 w hwu) hsome
  · by_cases hwu : w = user
    · subst hwu
      rw [ownUnseen_eq, hnew]
      simp
    · rw [SharedLog.edit_replica_ne _ hwu] at hunack
      rw [ownUnseen_edit_ne _ hwu]
      exact h.awaiting w hw hunack
  · by_cases hwu : w = user
    · subst hwu
      exact h.set_value hw hturn hvalue hspec hdelta hnew key
    · rw [held_edit_ne _ hwu, SharedLog.edit_replica_ne _ hwu]
      exact h.value w hw key
  · unfold place
    by_cases hwu : w = user
    · subst hwu
      rw [hturn'.held, SharedLog.edit_history, ← hchain.length_eq, List.take_length,
        batchEdit_flatten, List.length_append]
      exact (place_le t w).trans (Nat.le_add_right _ _)
    · obtain ⟨hle, hlt⟩ := h.held_behind hturn hw hwu
      rw [held_edit_ne _ hwu, batchEdit_take hle hlt]

/-- A step of one client that neither edits the path nor adds to the history. -/
lemma client_step {t' : TracedLog} {user : String} (hmember : user ∈ members)
    (hordinary : OrdinaryLog members (fun _ => True) base t'.log)
    (hbatches : t'.batches = t.batches) (hhistory : t'.log.history = t.log.history)
    (hunnumbered : ∀ w, unnumbered t'.log w = unnumbered t.log w)
    (hothers : ∀ w, w ≠ user → t'.log.replica w = t.log.replica w)
    (hheld : held t'.log user = held t.log user ∨ unnumbered t.log user = [] ∧
      held t.log user <+: held t'.log user ∧ held t'.log user <+: pathDeltas t.log.history)
    (hawaiting : (t'.log.replica user).state.unacknowledged = true →
      ownUnseen t'.log user ≠ [])
    (hvalue : ∀ field, fieldAt (t'.log.replica user).state.spec field =
      lastValue field ((held t'.log user).map fun delta => some delta.2) (fieldAt base field)) :
    Handed members base t' ∧ ∀ w ∈ members, place t w ≤ place t' w := by
  have hsame : ∀ w, w ≠ user → ownUnseen t'.log w = ownUnseen t.log w ∧
      held t'.log w = held t.log w := by
    intro w hw
    have hout : ownUnseen t'.log w = ownUnseen t.log w := by
      rw [ownUnseen_eq, ownUnseen_eq, hhistory, hunnumbered w, hothers w hw]
    unfold held
    rw [hout, hhistory, hothers w hw]
    exact ⟨rfl, rfl⟩
  obtain ⟨holder, hnone, hchain⟩ := h.chain
  refine ⟨⟨hordinary, ⟨holder, fun w hw => ?_, ?_⟩, fun w hw hnew => ?_, fun w hw hsome => ?_,
    fun w hw hunack => ?_, fun w hw field => ?_⟩, fun w hw => place_mono hbatches ?_⟩
  · rw [hunnumbered w]
    exact hnone w hw
  · rw [hbatches, hhistory, hunnumbered holder]
    exact hchain
  · rw [hunnumbered w] at hnew
    rw [hhistory]
    by_cases hwu : w = user
    · subst hwu
      rcases hheld with hheld | ⟨-, -, hprefix⟩
      · rw [hheld]
        exact h.behind w hw hnew
      · exact hprefix
    · rw [(hsame w hwu).2]
      exact h.behind w hw hnew
  · rw [hunnumbered w] at hsome ⊢
    rw [hhistory]
    by_cases hwu : w = user
    · subst hwu
      rcases hheld with hheld | ⟨hnew, -⟩
      · rw [hheld]
        exact h.current w hw hsome
      · exact absurd hnew hsome
    · rw [(hsame w hwu).2]
      exact h.current w hw hsome
  · by_cases hwu : w = user
    · subst hwu
      exact hawaiting hunack
    · rw [(hsame w hwu).1]
      rw [hothers w hwu] at hunack
      exact h.awaiting w hw hunack
  · by_cases hwu : w = user
    · subst hwu
      exact hvalue field
    · rw [hothers w hwu, (hsame w hwu).2]
      exact h.value w hw field
  · by_cases hwu : w = user
    · subst hwu
      rcases hheld with hheld | ⟨-, hprefix, -⟩
      · rw [hheld]
      · exact hprefix.length_le
    · rw [(hsame w hwu).2]

/-- A flush that loses nothing changes no list of deltas. -/
lemma flush {user : String} {sends : Bool}
    (hok : LockedAction members t.log (.flush user sends)) :
    Handed members base (t.perform path (.flush user sends)) ∧
      ∀ w ∈ members, place t w ≤ place (t.perform path (.flush user sends)) w := by
  have hordinary : OrdinaryLog members (fun _ => True) base
      (LogAction.perform path t.log (.flush user sends)) := h.ordinary.perform hok
  have hunnumbered : ∀ w, unnumbered (LogAction.perform path t.log (.flush user sends)) w =
      unnumbered t.log w := by
    intro w
    unfold unnumbered
    rw [perform_flush]
    by_cases hwu : w = user
    · subst hwu
      simp only [Function.update_self, flush_edit]
      cases sends with
      | true => cases (t.log.replica w).state.edit <;> simp [pathDeltas_append]
      | false => simp [hok.2 rfl]
    · simp [hwu]
  have hreplica : let replica := (LogAction.perform path t.log (.flush user sends)).replica user
      replica.applied = (t.log.replica user).applied ∧
      replica.state.spec = (t.log.replica user).state.spec ∧
      replica.state.unacknowledged = (t.log.replica user).state.unacknowledged := by
    rw [perform_flush]
    simp
  have hhistory : (LogAction.perform path t.log (.flush user sends)).history = t.log.history := by
    rw [perform_flush]
  have hout : ownUnseen (LogAction.perform path t.log (.flush user sends)) user =
      ownUnseen t.log user := by
    rw [ownUnseen_eq, ownUnseen_eq, hhistory, hreplica.1, hunnumbered user]
  have hheld : held (LogAction.perform path t.log (.flush user sends)) user =
      held t.log user := by
    unfold held
    rw [hhistory, hreplica.1, hout]
  refine h.client_step hok.1 hordinary rfl hhistory hunnumbered (fun w hw => ?_) (.inl hheld)
    (fun hunack => ?_) fun field => ?_
  · change (LogAction.perform path t.log (.flush user sends)).replica w = _
    rw [perform_flush]
    exact Function.update_of_ne hw _ _
  · exact fun hnone => h.awaiting user hok.1 (hreplica.2.2.symm.trans hunack) (hout.symm.trans hnone)
  · have hbefore := h.value user hok.1 field
    rw [← hheld, ← hreplica.2.1] at hbefore
    exact hbefore

/-- The server numbers a delta of the client that edited last. -/
lemma serve {user : String} (hmember : user ∈ members) :
    Handed members base (t.perform path (.serve user)) ∧
      ∀ w ∈ members, place t w ≤ place (t.perform path (.serve user)) w := by
  generalize ht : t.perform path (.serve user) = t'
  have hlog : t'.log = t.log.serve user := by rw [← ht]; rfl
  have hbatches : t'.batches = t.batches := by rw [← ht]; rfl
  have hordinary : OrdinaryLog members (fun _ => True) base t'.log := by
    rw [← ht]
    have hok : OrdinaryAction members (fun _ => True) t.log (.serve user) := ⟨hmember, trivial⟩
    have hnext : OrdinaryLog members (fun _ => True) base
        (LogAction.perform path t.log (.serve user)) := h.ordinary.perform hok
    exact hnext
  have hbounded := h.ordinary.bounded
  cases houtbox : (t.log.replica user).outbox with
  | nil =>
    have hsame : t'.log = t.log := by rw [hlog, SharedLog.serve, houtbox]
    have hsame' : t' = t := by
      cases t
      cases t'
      cases hsame
      cases hbatches
      rfl
    rw [hsame']
    exact ⟨h, fun _ _ => le_rfl⟩
  | cons entry rest =>
    have hheld : ∀ w, held t'.log w = held t.log w := by
      intro w
      rw [hlog, held_serve hbounded]
    have hothers : ∀ w, w ≠ user → unnumbered t'.log w = unnumbered t.log w := by
      intro w hwu
      rw [hlog, unnumbered_serve_ne hwu]
    have hnumbered : unnumbered t.log user =
        pathDeltas [(user, entry)] ++ unnumbered t'.log user := by
      rw [hlog, unnumbered_serve houtbox]
    have hdeltas : pathDeltas t'.log.history =
        pathDeltas t.log.history ++ pathDeltas [(user, entry)] := by
      rw [hlog, SharedLog.serve, houtbox, pathDeltas_append]
    have hchained : pathDeltas t'.log.history ++ unnumbered t'.log user =
        pathDeltas t.log.history ++ unnumbered t.log user := by
      rw [hdeltas, hnumbered, List.append_assoc]
    have hidle : unnumbered t.log user = [] → pathDeltas t'.log.history = pathDeltas t.log.history ∧
        unnumbered t'.log user = [] := by
      intro hnone
      rw [hnumbered, List.append_eq_nil_iff] at hnone
      rw [hdeltas, hnone.1, List.append_nil]
      exact ⟨rfl, hnone.2⟩
    obtain ⟨holder, hnone, hchain⟩ := h.chain
    refine ⟨⟨hordinary, ⟨holder, fun w hw => ?_, ?_⟩, fun w hw hnew => ?_, fun w hw hsome => ?_,
      fun w hw hunack => ?_, fun w hw key => ?_⟩, fun w hw => place_mono hbatches (by rw [hheld w])⟩
    · by_cases hwu : w = user
      · subst hwu
        exact (hidle (hnone w hw)).2
      · rw [hothers w hwu]
        exact hnone w hw
    · by_cases hholder : holder = user
      · subst hholder
        rwa [hbatches, hchained]
      · obtain ⟨hsame, -⟩ := hidle (hnone user fun heq => hholder heq.symm)
        rwa [hbatches, hsame, hothers holder hholder]
    · rw [hheld w]
      by_cases hwu : w = user
      · subst hwu
        have hprefix := h.held_prefix hw
        rwa [← hchained, hnew, List.append_nil] at hprefix
      · rw [hothers w hwu] at hnew
        rw [hdeltas]
        exact (h.behind w hw hnew).trans (List.prefix_append _ _)
    · rw [hheld w]
      by_cases hwu : w = user
      · subst hwu
        rw [hchained]
        exact h.current w hw fun hnew => hsome (hidle hnew).2
      · rw [hothers w hwu] at hsome ⊢
        have hholder : user ≠ holder := by
          rintro rfl
          exact hsome (hnone w hwu)
        rw [(hidle (hnone user hholder)).1]
        exact h.current w hw hsome
    · rw [hlog, SharedLog.serve_state] at hunack
      rw [hlog, ownUnseen_serve hbounded]
      exact h.awaiting w hw hunack
    · rw [hheld w, hlog, SharedLog.serve_state]
      exact h.value w hw key

/-- An acknowledge arrives: the client has seen a delta of its own. -/
lemma receive_own {user : String} (hmember : user ∈ members) {entry : Option SpecData}
    (hnext : t.log.history[(t.log.replica user).applied]? = some (user, entry)) :
    Handed members base (t.perform path (.receive user)) ∧
      ∀ w ∈ members, place t w ≤ place (t.perform path (.receive user)) w := by
  have hstate : ((t.log.receive user (receiveEntry path)).replica user).state =
      receiveEntry path true entry (t.log.replica user).state := by
    rw [SharedLog.receive_state hnext, decide_eq_true rfl]
  have hspec : ((t.log.receive user (receiveEntry path)).replica user).state.spec =
      (t.log.replica user).state.spec := by
    rw [hstate, OrdinaryLog.receiveEntry_own_spec]
  have hout : ownUnseen t.log user = pathDeltas [(user, entry)] ++
      ownUnseen (t.log.receive user (receiveEntry path)) user :=
    ownUnseen_receive_own hnext rfl
  have hheld : held (t.log.receive user (receiveEntry path)) user = held t.log user := by
    rw [held_receive hnext, ← hout]
    rfl
  refine h.client_step hmember (h.ordinary.receive user) rfl (SharedLog.receive_history _)
    (unnumbered_receive hnext) (fun w hw => SharedLog.receive_replica_ne _ hw) (.inl hheld)
    (fun hunack => ?_) fun field => ?_
  · change ((t.log.receive user (receiveEntry path)).replica user).state.unacknowledged = true
      at hunack
    rw [hstate] at hunack
    cases entry with
    | none =>
      have hbefore := h.awaiting user hmember hunack
      rwa [hout] at hbefore
    | some delta => simp [receiveEntry, PathState.receive] at hunack
  · have hbefore := h.value user hmember field
    rw [← hheld, ← hspec] at hbefore
    exact hbefore

/-- A foreign delta arrives: the client awaits nothing and stores every field. -/
lemma receive_foreign {user author : String} (hmember : user ∈ members) {delta : SpecData}
    (hnext : t.log.history[(t.log.replica user).applied]? = some (author, some delta))
    (hforeign : author ≠ user) :
    Handed members base (t.perform path (.receive user)) ∧
      ∀ w ∈ members, place t w ≤ place (t.perform path (.receive user)) w := by
  have hnone := h.ownUnseen_eq_nil hmember hnext hforeign
  have hstate : ((t.log.receive user (receiveEntry path)).replica user).state =
      receiveEntry path false (some delta) (t.log.replica user).state := by
    rw [SharedLog.receive_state hnext, decide_eq_false hforeign]
  have hout : ownUnseen (t.log.receive user (receiveEntry path)) user = ownUnseen t.log user :=
    ownUnseen_receive_foreign hnext hforeign
  obtain ⟨hbase, hordinary⟩ := h.ordinary.next hnext
  have hunack : (t.log.replica user).state.unacknowledged = false := by
    by_contra hnot
    exact h.awaiting user hmember (by simpa using hnot) hnone
  have hnumbered : unnumbered t.log user = [] := by
    rw [ownUnseen_eq, List.append_eq_nil_iff] at hnone
    exact hnone.2
  have hheldBefore : held t.log user =
      pathDeltas (t.log.history.take (t.log.replica user).applied) := by
    rw [held, hnone, List.append_nil]
  have hheld : held (t.log.receive user (receiveEntry path)) user =
      held t.log user ++ [(author, delta)] := by
    rw [held_receive hnext, hout, hnone, hheldBefore]
    rfl
  have hprefix : held (t.log.receive user (receiveEntry path)) user <+:
      pathDeltas t.log.history := by
    rw [hheld, hheldBefore, pathDeltas_history hnext]
    exact ⟨_, List.append_assoc ..⟩
  refine h.client_step hmember (h.ordinary.receive user) rfl (SharedLog.receive_history _)
    (unnumbered_receive hnext) (fun w hw => SharedLog.receive_replica_ne _ hw)
    (.inr ⟨hnumbered, ?_, hprefix⟩) (fun hunack' => ?_) fun field => ?_
  · change held t.log user <+: held (t.log.receive user (receiveEntry path)) user
    rw [hheld]
    exact List.prefix_append _ _
  · change ((t.log.receive user (receiveEntry path)).replica user).state.unacknowledged = true
      at hunack'
    rw [hstate] at hunack'
    simp [receiveEntry, PathState.receive, hordinary.nonempty, hunack] at hunack'
  · change fieldAt ((t.log.receive user (receiveEntry path)).replica user).state.spec field =
      lastValue field ((held (t.log.receive user (receiveEntry path)) user).map _) _
    have hspec := (h.ordinary.present user hmember).trans hbase
    rw [hstate, OrdinaryLog.receiveEntry_foreign_spec hordinary.nonempty, hunack,
      fieldAt_entryAt hordinary.storable hordinary.nodup hspec, h.value user hmember field, hheld,
      List.map_append, lastValue_append]
    cases hlookup : delta.fields.lookup field with
    | none => simp [hlookup]
    | some value => simp [hlookup, skipped, storedValue]

/-- A client applies the next entry of the history. -/
lemma receive {user : String} (hmember : user ∈ members) :
    Handed members base (t.perform path (.receive user)) ∧
      ∀ w ∈ members, place t w ≤ place (t.perform path (.receive user)) w := by
  have hperform : t.perform path (.receive user) =
      ⟨t.log.receive user (receiveEntry path), t.batches⟩ := rfl
  cases hnext : t.log.history[(t.log.replica user).applied]? with
  | none =>
    rw [hperform, SharedLog.receive_none hnext]
    exact ⟨h, fun _ _ => le_rfl⟩
  | some next =>
    obtain ⟨author, entry⟩ := next
    by_cases hown : author = user
    · subst hown
      exact h.receive_own hmember hnext
    · cases entry with
      | some delta => exact h.receive_foreign hmember hnext hown
      | none =>
        have hstate : ((t.log.receive user (receiveEntry path)).replica user).state =
            receiveEntry path false none (t.log.replica user).state := by
          rw [SharedLog.receive_state hnext, decide_eq_false hown]
        have hout : ownUnseen (t.log.receive user (receiveEntry path)) user =
            ownUnseen t.log user := ownUnseen_receive_foreign hnext hown
        have hheld : held (t.log.receive user (receiveEntry path)) user = held t.log user := by
          rw [held_receive hnext, hout]
          rfl
        refine h.client_step hmember (h.ordinary.receive user) rfl (SharedLog.receive_history _)
          (unnumbered_receive hnext) (fun w hw => SharedLog.receive_replica_ne _ hw) (.inl hheld)
          (fun hunack hnone => ?_) fun field => ?_
        · exact h.awaiting user hmember ((congrArg PathState.unacknowledged hstate).symm.trans hunack)
            (hout.symm.trans hnone)
        · have hbefore := h.value user hmember field
          rw [← hheld] at hbefore
          exact (congrArg (fieldAt ·.spec field) hstate).trans hbefore

lemma set_missing {user : String} {field : TfToken} {value : VtValue} (hmember : user ∈ members)
    (hvalue : value.isEmpty = false) (hspec : ¬(t.log.replica user).state.spec.isSome) :
    t.perform path (.set user field value) = t := by
  have hedit : (t.log.replica user).state.edit = none := by
    rw [Option.eq_none_iff_forall_ne_some]
    intro delta hdelta
    exact hspec ((h.ordinary.present user hmember).trans (h.ordinary.edits user hmember delta hdelta).1)
  have hnone : (t.log.replica user).state.spec = none := by simpa using hspec
  have hlog : t.log.edit user (PathState.set field value) = t.log :=
    SharedLog.edit_eq_self (set_eq_self_of_missing hnone hedit hvalue field)
  unfold TracedLog.perform
  simp only [hspec]
  exact congrArg (fun log => (⟨log, t.batches⟩ : TracedLog)) hlog

/-- Every step of clients that take turns keeps the chain and moves no client back. -/
theorem perform {action : LogAction} (hok : LockedAction members t.log action) :
    Handed members base (t.perform path action) ∧
      ∀ w ∈ members, place t w ≤ place (t.perform path action) w := by
  cases action with
  | set user field value =>
    by_cases hspec : (t.log.replica user).state.spec.isSome
    · exact h.set_present hok hspec
    · have hmember : user ∈ members := hok.1
      rw [h.set_missing hmember hok.2.2.1 hspec]
      exact ⟨h, fun _ _ => le_rfl⟩
  | flush user sends => exact h.flush hok
  | serve user => exact h.serve hok.1
  | receive user => exact h.receive hok.1

lemma settled {user : String} (hnone : ∀ w, unnumbered t.log w = [])
    (happlied : (t.log.replica user).applied = t.log.history.length) :
    place t user = t.batches.flatten.length := by
  obtain ⟨holder, -, hchain⟩ := h.chain
  have hheld : held t.log user = pathDeltas t.log.history := by
    unfold held
    rw [ownUnseen_eq, happlied, List.take_length, List.drop_length, hnone user]
    simp
  rw [hnone holder, List.append_nil, ← hheld] at hchain
  unfold place
  rw [← hchain.length_eq, List.take_length]

omit h in
/-- A log nobody has written to. -/
lemma fresh {log : PathLog} (hordinary : OrdinaryLog members (fun _ => True) base log)
    (hhistory : log.history = []) (hstate : ∀ user, (log.replica user).outbox = [] ∧
      (log.replica user).state.edit = none)
    (hmembers : ∀ user ∈ members, (log.replica user).state.spec = base ∧
      (log.replica user).state.unacknowledged = false) :
    Handed members base ⟨log, []⟩ := by
  have hnone : ∀ user, unnumbered log user = [] := by
    intro user
    rw [unnumbered_eq, (hstate user).1, (hstate user).2]
    rfl
  have hheld : ∀ user, held log user = [] := by
    intro user
    unfold held
    rw [ownUnseen_eq, hhistory, hnone user]
    simp
  refine ⟨hordinary, ⟨"", fun user _ => hnone user, ?_⟩, fun user _ _ => ?_, fun user _ hsome => ?_,
    fun user hmember hunack => ?_, fun user hmember field => ?_⟩
  · dsimp only
    rw [hhistory, hnone]
    exact .nil
  · dsimp only
    rw [hheld user]
    exact List.nil_prefix
  · exact absurd (hnone user) hsome
  · dsimp only at hunack
    rw [(hmembers user hmember).2] at hunack
    exact absurd hunack Bool.false_ne_true
  · dsimp only
    rw [(hmembers user hmember).1, hheld user]
    rfl

end Handed

section

variable {members : List String} {path : SdfPath} {base : Option SpecData} {t : TracedLog}

lemma tracedLog_final (t : TracedLog) (actions : List LogAction) :
    (Runs.final (TracedLog.perform path) t actions).log =
      Runs.final (LogAction.perform path) t.log actions :=
  Runs.final_view _ TracedLog.log (fun _ _ => rfl) t actions

/-- A run of clients that take turns. -/
theorem Handed.final (h : Handed members base t) {actions : List LogAction}
    (hok : Runs.AllSteps (LogAction.perform path) (LockedAction members) t.log actions) :
    Handed members base (Runs.final (TracedLog.perform path) t actions) ∧
      ∀ w ∈ members, place t w ≤ place (Runs.final (TracedLog.perform path) t actions) w := by
  induction actions generalizing t with
  | nil => exact ⟨h, fun _ _ => le_rfl⟩
  | cons action actions ih =>
    obtain ⟨hnext, hmono⟩ := h.perform hok.1
    obtain ⟨hlast, hmono'⟩ := ih hnext hok.2
    exact ⟨hlast, fun w hw => (hmono w hw).trans (hmono' w hw)⟩

lemma final_batches {actions : List LogAction}
    (h : ∀ user field value, .set user field value ∉ actions) (t : TracedLog) :
    (Runs.final (TracedLog.perform path) t actions).batches = t.batches := by
  induction actions generalizing t with
  | nil => rfl
  | cons action actions ih =>
    rw [Runs.final_cons, ih fun user field value hmem =>
      h user field value (List.mem_cons_of_mem action hmem)]
    cases action with
    | set user field value => exact absurd List.mem_cons_self (h user field value)
    | flush | serve | receive => rfl

end

end RenderStudioKit.Proofs
