import Mathlib.Data.List.Perm.Basic
import RenderStudioKit.Lib.Runs

/-!
# Calls that read, modify and write one store

A call reads the whole store, and what it makes of it replaces the store at a later step; other
calls may take steps in between. A call that finds nothing to write is finished after its read. The
calls whose writes the store builds on are its lineage.
-/

namespace ReadModifyWrite

variable {S C : Type*}

inductive Phase (S : Type*) where
  | reading
  | writing (value : S)
  | finished

structure System (S C : Type*) where
  store : S
  calls : List (C × Phase S)

section

variable (modify : C → S → Option S)

/-- The phase of a call after its read. -/
def afterRead (call : C) (store : S) : Phase S :=
  match modify call store with
  | none => .finished
  | some value => .writing value

/-- The call at a position takes its next step. -/
def step (s : System S C) (i : Nat) : System S C :=
  match s.calls[i]? with
  | some (call, .reading) =>
    { s with calls := s.calls.set i (call, afterRead modify call s.store) }
  | some (call, .writing value) => { store := value, calls := s.calls.set i (call, .finished) }
  | _ => s

def init (store : S) (calls : List C) : System S C :=
  ⟨store, calls.map fun call => (call, .reading)⟩

/-- The calls one after another. -/
def serial (store : S) (calls : List C) : S :=
  calls.foldl (fun store call => (modify call store).getD store) store

/-- The call that writes at a step, if one does. -/
def writtenBy (s : System S C) (i : Nat) : List C :=
  match s.calls[i]? with
  | some (call, .writing _) => [call]
  | _ => []

/-- The calls that write, in the order of their writes. -/
def writes : System S C → List Nat → List C
  | _, [] => []
  | s, i :: run => writtenBy s i ++ writes (step modify s i) run

/-- The store with the calls whose writes it builds on. -/
def logged (call : C) (store : S × List C) : Option (S × List C) :=
  (modify call store.1).map fun value => (value, store.2 ++ [call])

def lineage (store : S) (calls : List C) (run : List Nat) : List C :=
  (Runs.final (step (logged modify)) (init (store, []) calls) run).store.2

end

def Phase.isFinished : Phase S → Bool
  | .finished => true
  | _ => false

def Phase.isWriting : Phase S → Bool
  | .writing _ => true
  | _ => false

@[simp] lemma isFinished_finished : (.finished : Phase S).isFinished = true := rfl

@[simp] lemma isFinished_reading : (.reading : Phase S).isFinished = false := rfl

@[simp] lemma isFinished_writing (value : S) : (Phase.writing value).isFinished = false := rfl

/-- Every call is finished. -/
def Finished (s : System S C) : Prop := ∀ c ∈ s.calls, c.2.isFinished = true

instance (s : System S C) : Decidable (Finished s) :=
  inferInstanceAs (Decidable (∀ c ∈ s.calls, c.2.isFinished = true))

/-- The next step of the call at a position is its write. -/
def System.isWriting (s : System S C) (i : Nat) : Bool := s.calls[i]?.any (·.2.isWriting)

/-- A write does not fall between the read and the write of another call. -/
def Alone (s : System S C) (i : Nat) : Prop :=
  s.isWriting i = true → ∀ j < s.calls.length, s.isWriting j = true → j = i

instance (s : System S C) (i : Nat) : Decidable (Alone s i) :=
  inferInstanceAs (Decidable
    (s.isWriting i = true → ∀ j < s.calls.length, s.isWriting j = true → j = i))

section

variable {modify : C → S → Option S}

lemma step_cases (modify : C → S → Option S) (s : System S C) (i : Nat) :
    (∃ call, s.calls[i]? = some (call, .reading) ∧
      step modify s i = ⟨s.store, s.calls.set i (call, afterRead modify call s.store)⟩) ∨
    (∃ call value, s.calls[i]? = some (call, .writing value) ∧
      step modify s i = ⟨value, s.calls.set i (call, .finished)⟩) ∨
    (s.isWriting i = false ∧ step modify s i = s) := by
  unfold step System.isWriting
  cases hi : s.calls[i]? with
  | none => simp
  | some c =>
    obtain ⟨call, phase⟩ := c
    cases phase <;> simp [Phase.isWriting]

lemma serial_append (store : S) (calls : List C) (call : C) :
    serial modify store (calls ++ [call]) =
      (modify call (serial modify store calls)).getD (serial modify store calls) := by
  simp [serial]

def Phase.forget : Phase (S × List C) → Phase S
  | .reading => .reading
  | .writing value => .writing value.1
  | .finished => .finished

@[simp] lemma forget_reading : (.reading : Phase (S × List C)).forget = .reading := rfl

@[simp] lemma forget_writing (value : S × List C) :
    (Phase.writing value).forget = .writing value.1 := rfl

@[simp] lemma forget_finished : (.finished : Phase (S × List C)).forget = .finished := rfl

def System.forget (s : System (S × List C) C) : System S C :=
  ⟨s.store.1, s.calls.map fun c => (c.1, c.2.forget)⟩

lemma forget_afterRead (call : C) (store : S × List C) :
    (afterRead (logged modify) call store).forget = afterRead modify call store.1 := by
  unfold afterRead logged
  cases modify call store.1 <;> rfl

lemma forget_step (s : System (S × List C) C) (i : Nat) :
    (step (logged modify) s i).forget = step modify s.forget i := by
  unfold step System.forget
  rw [List.getElem?_map]
  cases hi : s.calls[i]? with
  | none => rfl
  | some c =>
    obtain ⟨call, phase⟩ := c
    cases phase with
    | reading => simp [List.map_set, forget_afterRead]
    | writing value => simp [List.map_set]
    | finished => simp

lemma forget_init (store : S) (calls : List C) :
    (init (store, []) calls).forget = init store calls := by
  simp [System.forget, init, Function.comp_def]

lemma forget_final (store : S) (calls : List C) (run : List Nat) :
    (Runs.final (step (logged modify)) (init (store, []) calls) run).forget =
      Runs.final (step modify) (init store calls) run := by
  rw [Runs.final_view (step (logged modify)) System.forget forget_step, forget_init]

/-- A store and its log, and the values with their logs that are about to be written. -/
structure Logs (modify : C → S → Option S) (start : S) (s : System (S × List C) C) : Prop where
  store : s.store.1 = serial modify start s.store.2
  writing : ∀ call value, (call, .writing value) ∈ s.calls →
    value.1 = serial modify start value.2

lemma logged_eq_some {call : C} {store value : S × List C}
    (h : logged modify call store = some value) :
    modify call store.1 = some value.1 ∧ value.2 = store.2 ++ [call] := by
  obtain ⟨written, hmodify, rfl⟩ := Option.map_eq_some_iff.1 h
  exact ⟨hmodify, rfl⟩

lemma afterRead_eq_writing {call : C} {store value : S}
    (h : afterRead modify call store = .writing value) : modify call store = some value := by
  unfold afterRead at h
  cases hmodify : modify call store with
  | none => simp [hmodify] at h
  | some written => simpa [hmodify] using h

lemma Logs.advance {start : S} {s : System (S × List C) C} (h : Logs modify start s) (i : Nat) :
    Logs modify start (step (logged modify) s i) := by
  obtain ⟨call, hi, hstep⟩ | ⟨call, value, hi, hstep⟩ | ⟨-, hstep⟩ := step_cases (logged modify) s i
  · rw [hstep]
    refine ⟨h.store, ?_⟩
    intro call' value hmem
    rcases List.mem_or_eq_of_mem_set hmem with hmem | heq
    · exact h.writing call' value hmem
    · obtain ⟨rfl, hread⟩ := Prod.mk.inj heq
      obtain ⟨hmodify, hlog⟩ := logged_eq_some (afterRead_eq_writing hread.symm)
      rw [hlog, serial_append, ← h.store, hmodify, Option.getD_some]
  · rw [hstep]
    refine ⟨h.writing call value (List.mem_of_getElem? hi), ?_⟩
    intro call' value' hmem
    rcases List.mem_or_eq_of_mem_set hmem with hmem | heq
    · exact h.writing call' value' hmem
    · exact absurd (Prod.mk.inj heq).2 (by simp)
  · rw [hstep]
    exact h

lemma not_writing_of_mem_init {store : S} {calls : List C} {call : C} {value : S} :
    (call, .writing value) ∉ (init store calls).calls := by
  simp [init]

/-- After every run the store is the one of its lineage, one call after another. -/
theorem store_eq_serial_lineage (modify : C → S → Option S) (start : S) (calls : List C)
    (run : List Nat) : (Runs.final (step modify) (init start calls) run).store =
      serial modify start (lineage modify start calls run) := by
  have hinit : Logs modify start (init (start, []) calls) :=
    ⟨rfl, fun _ _ hmem => absurd hmem not_writing_of_mem_init⟩
  have hlogs := Runs.final_of_invariant (Logs modify start) (fun _ i h => h.advance i) hinit run
  rw [← forget_final]
  exact hlogs.store

/-- The lineage of the store and of the values about to be written, against the writes so far. -/
structure Extends (written : List C) (s : System (S × List C) C) : Prop where
  store : s.store.2.Sublist written
  last : s.store.2.getLast? = written.getLast?
  writing : ∀ call value, (call, .writing value) ∈ s.calls →
    ∃ log, value.2 = log ++ [call] ∧ log.Sublist written

lemma writtenBy_forget (s : System (S × List C) C) (i : Nat) :
    writtenBy s.forget i = writtenBy s i := by
  unfold writtenBy System.forget
  rw [List.getElem?_map]
  cases s.calls[i]? with
  | none => rfl
  | some c =>
    obtain ⟨call, phase⟩ := c
    cases phase <;> rfl

lemma writtenBy_of_not_writing {s : System S C} {i : Nat} (h : s.isWriting i = false) :
    writtenBy s i = [] := by
  unfold System.isWriting at h
  unfold writtenBy
  cases hi : s.calls[i]? with
  | none => rfl
  | some c =>
    obtain ⟨call, phase⟩ := c
    cases phase with
    | writing value => simp [hi, Phase.isWriting] at h
    | reading => rfl
    | finished => rfl

lemma Extends.advance (modify : C → S → Option S) {written : List C}
    {s : System (S × List C) C} (h : Extends written s) (i : Nat) :
    Extends (written ++ writtenBy s i) (step (logged modify) s i) := by
  obtain ⟨call, hi, hstep⟩ | ⟨call, value, hi, hstep⟩ | ⟨hidle, hstep⟩ :=
    step_cases (logged modify) s i
  · have hnone : writtenBy s i = [] := by simp [writtenBy, hi]
    rw [hstep, hnone, List.append_nil]
    refine ⟨h.store, h.last, ?_⟩
    intro call' value hmem
    rcases List.mem_or_eq_of_mem_set hmem with hmem | heq
    · exact h.writing call' value hmem
    · obtain ⟨rfl, hread⟩ := Prod.mk.inj heq
      exact ⟨s.store.2, (logged_eq_some (afterRead_eq_writing hread.symm)).2, h.store⟩
  · have hone : writtenBy s i = [call] := by simp [writtenBy, hi]
    obtain ⟨log, hlog, hsublist⟩ := h.writing call value (List.mem_of_getElem? hi)
    rw [hstep, hone]
    refine ⟨?_, ?_, ?_⟩
    · rw [hlog]
      exact hsublist.append_right [call]
    · simp [hlog]
    · intro call' value' hmem
      rcases List.mem_or_eq_of_mem_set hmem with hmem | heq
      · obtain ⟨log', hlog', hsublist'⟩ := h.writing call' value' hmem
        exact ⟨log', hlog', hsublist'.trans (List.sublist_append_left written [call])⟩
      · exact absurd (Prod.mk.inj heq).2 (by simp)
  · rw [hstep, writtenBy_of_not_writing hidle, List.append_nil]
    exact h

lemma Extends.final (modify : C → S → Option S) {written : List C}
    {s : System (S × List C) C} (h : Extends written s) (run : List Nat) :
    Extends (written ++ writes modify s.forget run) (Runs.final (step (logged modify)) s run) := by
  induction run generalizing s written with
  | nil => simpa [writes] using h
  | cons i run ih =>
    have hnext := ih (h.advance modify i)
    rw [forget_step] at hnext
    rwa [writes, writtenBy_forget, ← List.append_assoc, Runs.final_cons]

/-- The lineage has calls that wrote, in the order of their writes, and always the last one. -/
theorem lineage_writes (modify : C → S → Option S) (start : S) (calls : List C) (run : List Nat) :
    (lineage modify start calls run).Sublist (writes modify (init start calls) run) ∧
      (lineage modify start calls run).getLast? =
        (writes modify (init start calls) run).getLast? := by
  have hinit : Extends [] (init (start, []) calls) :=
    ⟨List.Sublist.refl [], rfl, fun _ _ hmem => absurd hmem not_writing_of_mem_init⟩
  have hfinal := hinit.final modify run
  rw [List.nil_append, forget_init] at hfinal
  exact ⟨hfinal.store, hfinal.last⟩

def unfinishedCalls (s : System S C) : List C :=
  (s.calls.filter fun c => !c.2.isFinished).map Prod.fst

/-- The store is the one of the finished calls in this order, and no read is out of date. -/
structure Serialized (modify : C → S → Option S) (start : S) (calls : List C) (s : System S C)
    (order : List C) : Prop where
  store : s.store = serial modify start order
  perm : (order ++ unfinishedCalls s).Perm calls
  writing : ∀ call value, (call, .writing value) ∈ s.calls → modify call s.store = some value

lemma exists_split_set {α : Type*} {l : List α} {i : Nat} {x : α} (h : l[i]? = some x) :
    ∃ before after, l = before ++ x :: after ∧ ∀ y, l.set i y = before ++ y :: after := by
  obtain ⟨hlt, rfl⟩ := List.getElem?_eq_some_iff.1 h
  refine ⟨l.take i, l.drop (i + 1), ?_, fun y => ?_⟩
  · simp
  · rw [List.set_eq_take_append_cons_drop, if_pos hlt]

lemma perm_of_finish {s : System S C} {i : Nat} {call : C} {phase : Phase S} {order calls : List C}
    (hi : s.calls[i]? = some (call, phase)) (hphase : phase.isFinished = false) (store : S)
    (h : (order ++ unfinishedCalls s).Perm calls) :
    (order ++ [call] ++ unfinishedCalls ⟨store, s.calls.set i (call, .finished)⟩).Perm calls := by
  obtain ⟨before, after, hcalls, hset⟩ := exists_split_set hi
  refine List.Perm.trans ?_ h
  unfold unfinishedCalls
  rw [hset, hcalls, List.append_assoc]
  apply List.Perm.append_left
  simp [hphase, List.perm_middle.symm]

lemma Serialized.advance {start : S} {calls order : List C} {s : System S C} {i : Nat}
    (h : Serialized modify start calls s order) (halone : Alone s i) :
    ∃ order, Serialized modify start calls (step modify s i) order := by
  obtain ⟨call, hi, hstep⟩ | ⟨call, value, hi, hstep⟩ | ⟨-, hstep⟩ := step_cases modify s i
  · cases hmodify : modify call s.store with
    | none =>
      have hread : afterRead modify call s.store = .finished := by simp [afterRead, hmodify]
      refine ⟨order ++ [call], ?_⟩
      rw [hstep, hread]
      refine ⟨?_, perm_of_finish hi rfl s.store h.perm, ?_⟩
      · rw [serial_append, ← h.store, hmodify, Option.getD_none]
      · intro call' value hmem
        rcases List.mem_or_eq_of_mem_set hmem with hmem | heq
        · exact h.writing call' value hmem
        · exact absurd (Prod.mk.inj heq).2 (by simp)
    | some value =>
      have hread : afterRead modify call s.store = .writing value := by simp [afterRead, hmodify]
      refine ⟨order, ?_⟩
      rw [hstep, hread]
      refine ⟨h.store, ?_, ?_⟩
      · obtain ⟨before, after, hcalls, hset⟩ := exists_split_set hi
        have hperm := h.perm
        unfold unfinishedCalls at hperm ⊢
        rw [hset]
        rw [hcalls] at hperm
        simpa using hperm
      · intro call' value' hmem
        rcases List.mem_or_eq_of_mem_set hmem with hmem | heq
        · exact h.writing call' value' hmem
        · obtain ⟨rfl, hvalue⟩ := Prod.mk.inj heq
          obtain rfl := Phase.writing.inj hvalue
          exact hmodify
  · have hmodify := h.writing call value (List.mem_of_getElem? hi)
    refine ⟨order ++ [call], ?_⟩
    rw [hstep]
    refine ⟨?_, perm_of_finish hi rfl value h.perm, ?_⟩
    · rw [serial_append, ← h.store, hmodify, Option.getD_some]
    · intro call' value' hmem
      -- The only call that was about to write is the one that just did.
      obtain ⟨j, hj⟩ := List.getElem?_of_mem hmem
      have hwriting : s.isWriting i = true := by simp [System.isWriting, hi, Phase.isWriting]
      by_cases hji : j = i
      · subst hji
        obtain ⟨hlt, -⟩ := List.getElem?_eq_some_iff.1 hi
        rw [List.getElem?_set_self hlt] at hj
        simp at hj
      · rw [List.getElem?_set_ne (Ne.symm hji)] at hj
        obtain ⟨hlt, -⟩ := List.getElem?_eq_some_iff.1 hj
        have hother : s.isWriting j = true := by simp [System.isWriting, hj, Phase.isWriting]
        exact absurd (halone hwriting j hlt hother) hji
  · rw [hstep]
    exact ⟨order, h⟩

/-- Calls whose writes do not overlap are serializable. -/
theorem exists_serial_order {start : S} {calls : List C} {run : List Nat}
    (halone : Runs.AllSteps (step modify) Alone (init start calls) run)
    (hfinished : Finished (Runs.final (step modify) (init start calls) run)) :
    ∃ order, order.Perm calls ∧
      (Runs.final (step modify) (init start calls) run).store = serial modify start order := by
  have hinit : ∃ order, Serialized modify start calls (init start calls) order := by
    refine ⟨[], rfl, ?_, fun _ _ hmem => absurd hmem not_writing_of_mem_init⟩
    simp [unfinishedCalls, init, List.filter_map, Function.comp_def]
  have hkeep : ∀ (s : System S C) (i : Nat),
      (∃ order, Serialized modify start calls s order) → Alone s i →
        ∃ order, Serialized modify start calls (step modify s i) order :=
    fun _ _ ⟨_, h⟩ hstep => h.advance hstep
  obtain ⟨order, horder⟩ := (Runs.allStates_of_invariant hkeep hinit halone).last
  have hnone : unfinishedCalls (Runs.final (step modify) (init start calls) run) = [] := by
    unfold unfinishedCalls
    rw [List.map_eq_nil_iff, List.filter_eq_nil_iff]
    intro c hc
    simp [hfinished c hc]
  have hperm := horder.perm
  rw [hnone, List.append_nil] at hperm
  exact ⟨order, hperm, horder.store⟩

end

end ReadModifyWrite
