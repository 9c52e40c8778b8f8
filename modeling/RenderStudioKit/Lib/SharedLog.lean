import Mathlib.Data.List.Basic
import Mathlib.Logic.Function.Basic

/-!
# Replicas of a shared log

Replicas change their own state at once and put entries into an outbox. A server appends the
entries to one history, and every replica applies the history in order, its own entries
included. What a replica has applied followed by its own entries that it still awaits is the
history it works on: no step of another replica and no step of the server changes it, except
that an applied entry of another replica comes in between the two.
-/

structure Replica (σ E : Type*) where
  state : σ
  applied : Nat := 0
  outbox : List E := []

structure SharedLog (ι σ E : Type*) where
  history : List (ι × E) := []
  replica : ι → Replica σ E

namespace SharedLog

variable {ι σ E : Type*} [DecidableEq ι]

section

variable (log : SharedLog ι σ E) (i : ι)

/-- The replica changes its own state. -/
def edit (change : σ → σ) : SharedLog ι σ E :=
  { log with
    replica := Function.update log.replica i
      { log.replica i with state := change (log.replica i).state } }

def send (entry : E) : SharedLog ι σ E :=
  { log with
    replica := Function.update log.replica i
      { log.replica i with outbox := (log.replica i).outbox ++ [entry] } }

/-- The server takes the next entry of the replica. -/
def serve : SharedLog ι σ E :=
  match (log.replica i).outbox with
  | [] => log
  | entry :: rest =>
    { history := log.history ++ [(i, entry)]
      replica := Function.update log.replica i { log.replica i with outbox := rest } }

/-- The replica applies the next entry of the history; `apply` is told whether the entry is its
own. -/
def receive (apply : Bool → E → σ → σ) : SharedLog ι σ E :=
  match log.history[(log.replica i).applied]? with
  | none => log
  | some (author, entry) =>
    { log with replica := Function.update log.replica i { log.replica i with
        state := apply (decide (author = i)) entry (log.replica i).state
        applied := (log.replica i).applied + 1 } }

/-- The entries the replica has applied. -/
def seen : List E := (log.history.take (log.replica i).applied).map Prod.snd

/-- The entries of the replica that it has not applied yet, the oldest one first. -/
def awaited : List E :=
  ((log.history.drop (log.replica i).applied).filter (·.1 = i)).map Prod.snd ++
    (log.replica i).outbox

/-- Nobody has applied more than there is. -/
def Bounded : Prop := ∀ i, (log.replica i).applied ≤ log.history.length

/-- Every entry, in the history or in an outbox, has the property. -/
def AllEntries (P : ι → E → Prop) : Prop :=
  (∀ e ∈ log.history, P e.1 e.2) ∧ ∀ i, ∀ entry ∈ (log.replica i).outbox, P i entry

end

section

variable {log : SharedLog ι σ E} {i j : ι}

@[simp] lemma edit_state (change : σ → σ) :
    ((log.edit i change).replica i).state = change (log.replica i).state := by
  simp [edit]

@[simp] lemma send_state (entry : E) :
    ((log.send i entry).replica j).state = (log.replica j).state := by
  by_cases hj : j = i
  · subst hj
    simp [send]
  · simp [send, hj]

@[simp] lemma serve_state : ((log.serve i).replica j).state = (log.replica j).state := by
  unfold serve
  split
  · rfl
  · by_cases hj : j = i
    · subst hj
      simp
    · simp [hj]

lemma edit_eq_self {change : σ → σ} (h : change (log.replica i).state = (log.replica i).state) :
    log.edit i change = log := by
  unfold edit
  rw [h, Function.update_eq_self]

lemma edit_replica_ne (change : σ → σ) (hj : j ≠ i) :
    (log.edit i change).replica j = log.replica j := by
  simp [edit, hj]

lemma receive_replica_ne (apply : Bool → E → σ → σ) (hj : j ≠ i) :
    (log.receive i apply).replica j = log.replica j := by
  unfold receive
  split
  · rfl
  · simp [hj]

@[simp] lemma seen_edit (change : σ → σ) : (log.edit i change).seen j = log.seen j := by
  by_cases hj : j = i
  · subst hj
    simp [seen, edit]
  · simp [seen, edit, hj]

@[simp] lemma awaited_edit (change : σ → σ) : (log.edit i change).awaited j = log.awaited j := by
  by_cases hj : j = i
  · subst hj
    simp [awaited, edit]
  · simp [awaited, edit, hj]

@[simp] lemma seen_send (entry : E) : (log.send i entry).seen j = log.seen j := by
  by_cases hj : j = i
  · subst hj
    simp [seen, send]
  · simp [seen, send, hj]

lemma awaited_send (entry : E) : (log.send i entry).awaited i = log.awaited i ++ [entry] := by
  simp [awaited, send]

lemma awaited_send_ne (entry : E) (hj : j ≠ i) :
    (log.send i entry).awaited j = log.awaited j := by
  simp [awaited, send, hj]

lemma seen_serve (hlength : (log.replica j).applied ≤ log.history.length) :
    (log.serve i).seen j = log.seen j := by
  unfold serve
  split
  · rfl
  · by_cases hj : j = i
    · subst hj
      simp [seen, List.take_append_of_le_length hlength]
    · simp [seen, hj, List.take_append_of_le_length hlength]

lemma awaited_serve (hlength : (log.replica j).applied ≤ log.history.length) :
    (log.serve i).awaited j = log.awaited j := by
  unfold serve
  split
  · rfl
  · rename_i entry rest houtbox
    by_cases hj : j = i
    · subst hj
      simp [awaited, houtbox, List.drop_append_of_le_length hlength, List.filter_append]
    · have hne : ¬i = j := fun h => hj h.symm
      simp [awaited, hj, hne, List.drop_append_of_le_length hlength, List.filter_append]

section

variable {apply : Bool → E → σ → σ} {author : ι} {entry : E}
  (hnext : log.history[(log.replica i).applied]? = some (author, entry))

include hnext

lemma receive_eq : log.receive i apply =
    { log with replica := Function.update log.replica i { log.replica i with
        state := apply (decide (author = i)) entry (log.replica i).state
        applied := (log.replica i).applied + 1 } } := by
  unfold receive
  rw [hnext]

lemma receive_state :
    ((log.receive i apply).replica i).state =
      apply (decide (author = i)) entry (log.replica i).state := by
  rw [receive_eq hnext]
  simp

lemma seen_receive : (log.receive i apply).seen i = log.seen i ++ [entry] := by
  rw [receive_eq hnext]
  simp [seen, List.take_add_one, hnext]

omit [DecidableEq ι] in
lemma drop_applied : log.history.drop (log.replica i).applied =
    (author, entry) :: log.history.drop ((log.replica i).applied + 1) := by
  obtain ⟨hlength, hget⟩ := List.getElem?_eq_some_iff.1 hnext
  rw [List.drop_eq_getElem_cons hlength, hget]

lemma awaited_receive_own (hown : author = i) :
    log.awaited i = entry :: (log.receive i apply).awaited i := by
  rw [receive_eq hnext]
  simp [awaited, drop_applied hnext, hown]

lemma awaited_receive_foreign (hforeign : author ≠ i) :
    (log.receive i apply).awaited i = log.awaited i := by
  rw [receive_eq hnext]
  simp [awaited, drop_applied hnext, hforeign]

end

lemma mem_drop_receive {apply : Bool → E → σ → σ} {e : ι × E}
    (h : e ∈ (log.receive i apply).history.drop ((log.receive i apply).replica i).applied) :
    e ∈ log.history.drop (log.replica i).applied := by
  unfold receive at h
  split at h
  · exact h
  · rename_i author entry hnext
    rw [drop_applied hnext]
    simp only [Function.update_self] at h
    exact List.mem_cons_of_mem _ h

lemma receive_applied_le {apply : Bool → E → σ → σ}
    (h : (log.replica i).applied ≤ log.history.length) :
    ((log.receive i apply).replica i).applied ≤ (log.receive i apply).history.length := by
  unfold receive
  split
  · exact h
  · rename_i author entry hnext
    obtain ⟨hlt, -⟩ := List.getElem?_eq_some_iff.1 hnext
    simp only [Function.update_self]
    omega

lemma receive_none {apply : Bool → E → σ → σ}
    (hnext : log.history[(log.replica i).applied]? = none) : log.receive i apply = log := by
  unfold receive
  rw [hnext]

@[simp] lemma edit_history (change : σ → σ) : (log.edit i change).history = log.history := rfl

@[simp] lemma receive_history (apply : Bool → E → σ → σ) :
    (log.receive i apply).history = log.history := by
  unfold receive
  split <;> rfl

lemma seen_settled (h : (log.replica i).applied = log.history.length)
    (houtbox : (log.replica i).outbox = []) :
    log.seen i = log.history.map Prod.snd ∧ log.awaited i = [] := by
  simp [seen, awaited, h, houtbox]

lemma Bounded.edit (h : log.Bounded) (change : σ → σ) : (log.edit i change).Bounded := by
  intro j
  by_cases hj : j = i
  · subst hj
    simpa [SharedLog.edit] using h j
  · simpa [SharedLog.edit, hj] using h j

lemma Bounded.send (h : log.Bounded) (entry : E) : (log.send i entry).Bounded := by
  intro j
  by_cases hj : j = i
  · subst hj
    simpa [SharedLog.send] using h j
  · simpa [SharedLog.send, hj] using h j

lemma Bounded.serve (h : log.Bounded) : (log.serve i).Bounded := by
  intro j
  have hlength := h j
  unfold SharedLog.serve
  split
  · exact hlength
  · by_cases hj : j = i
    · subst hj
      simp only [Function.update_self, List.length_append]
      omega
    · simp only [Function.update_of_ne hj, List.length_append]
      omega

lemma Bounded.receive (h : log.Bounded) (apply : Bool → E → σ → σ) :
    (log.receive i apply).Bounded := by
  intro j
  have hlength := h j
  unfold SharedLog.receive
  split
  · exact hlength
  · rename_i author entry hnext
    obtain ⟨hlt, -⟩ := List.getElem?_eq_some_iff.1 hnext
    by_cases hj : j = i
    · subst hj
      simp only [Function.update_self]
      omega
    · simpa [hj] using hlength

variable {P : ι → E → Prop}

lemma AllEntries.edit (h : log.AllEntries P) (change : σ → σ) :
    (log.edit i change).AllEntries P := by
  refine ⟨h.1, fun j => ?_⟩
  by_cases hj : j = i
  · subst hj
    simpa [SharedLog.edit] using h.2 j
  · simpa [SharedLog.edit, hj] using h.2 j

lemma AllEntries.send (h : log.AllEntries P) {entry : E} (hentry : P i entry) :
    (log.send i entry).AllEntries P := by
  refine ⟨h.1, fun j => ?_⟩
  by_cases hj : j = i
  · subst hj
    intro e he
    simp only [SharedLog.send, Function.update_self, List.mem_append, List.mem_singleton] at he
    rcases he with hold | rfl
    · exact h.2 j e hold
    · exact hentry
  · simpa [SharedLog.send, hj] using h.2 j

lemma AllEntries.serve (h : log.AllEntries P) : (log.serve i).AllEntries P := by
  unfold SharedLog.serve
  split
  · exact h
  · rename_i entry rest houtbox
    have hall := h.2 i
    rw [houtbox] at hall
    refine ⟨fun e he => ?_, fun j => ?_⟩
    · rcases List.mem_append.1 he with hold | hnew
      · exact h.1 e hold
      · rw [List.mem_singleton.1 hnew]
        exact hall entry List.mem_cons_self
    · by_cases hj : j = i
      · subst hj
        simpa using fun e he => hall e (List.mem_cons_of_mem entry he)
      · simpa [hj] using h.2 j

lemma AllEntries.receive (h : log.AllEntries P) (apply : Bool → E → σ → σ) :
    (log.receive i apply).AllEntries P := by
  unfold SharedLog.receive
  split
  · exact h
  · refine ⟨h.1, fun j => ?_⟩
    by_cases hj : j = i
    · subst hj
      simpa using h.2 j
    · simpa [hj] using h.2 j

end

end SharedLog
