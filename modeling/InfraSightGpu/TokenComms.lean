import InfraSightGpu.TokenHistory

namespace InfraSightGpu.TokenComms

open InfraSightGpu.Events InfraSightGpu.TimeSeries InfraSightGpu.TokenHistory
open InfraSightGpu.Lib.Maps InfraSightGpu.Lib.Runs

variable {F : Type} [GoFloat F]

/-- The call of `Update` in progress and the calls that have added a token
since the last flush are ghost state. -/
structure State (F : Type) where
  trace : Trace F
  current : Option (Time × Event)
  added : List (Time × Event)

def start (flushInterval : Duration) : State F where
  trace := TokenHistory.start flushInterval
  current := none
  added := []

def step (s : State F) (a : Action) : Option (State F) :=
  (TokenHistory.step s.trace a).map fun trace =>
    match a with
    | .stamp now ev => { s with trace := trace, current := some (now, ev) }
    | .commit => { trace := trace, current := none, added := s.added ++ s.current.toList }
    | .flush _ => { s with trace := trace, added := [] }

def command (ev : Event) : GoString :=
  (ev.source.map fun s => byteSliceToString s.2.toList).getD []

def addedOf (p : UInt32) (s : State F) : List (Time × Event) :=
  s.added.filter fun x => x.2.IsOf p

def MadeFrom (tk : GpuEventToken F) (x : Time × Event) : Prop := eventToToken x.1 x.2 = some tk

def CarriesComm (e : GpuEvent F) (x : Time × Event) : Prop :=
  (∃ tk, e.payload = .token tk ∧ MadeFrom tk x) ∧ e.comm = command x.2

def OwnComms (s : State F) : Action → Prop
  | .stamp _ _ => True
  | .commit => True
  | .flush order => Enumerates order s.trace.tc.buffers → ∀ p, List.Forall₂ CarriesComm
      ((batchEvents (flush s.trace.tc order).2).filter fun e => e.pid = p) (addedOf p s)

/-- The calls of each process that a flush reports come with one command. -/
def OneComm (s : State F) : Action → Prop
  | .stamp _ _ => True
  | .commit => True
  | .flush order => Enumerates order s.trace.tc.buffers → ∀ p, ∀ x ∈ addedOf p s,
      ∀ y ∈ addedOf p s, command x.2 = command y.2

structure Inv (s : State F) : Prop where
  pending : s.trace.pending = s.current.bind fun x => prepare x.1 x.2
  tokens : ∀ p, List.Forall₂ MadeFrom (held p s.trace.tc) (addedOf p s)
  comms : ∀ p, ∀ x ∈ (addedOf p s).getLast?, s.trace.tc.comms.lookup p = some (command x.2)

theorem inv_start (flushInterval : Duration) : Inv (start (F := F) flushInterval) :=
  ⟨rfl, fun _ => .nil, fun p x hx => by simp [addedOf, start] at hx⟩

theorem inv_stamp {s u : State F} (hi : Inv s) {now : Time} {ev : Event}
    (hs : step s (.stamp now ev) = some u) : Inv u := by
  obtain ⟨trace, htrace, rfl⟩ := Option.map_eq_some_iff.mp hs
  obtain ⟨-, rfl⟩ := step_stamp.mp htrace
  exact ⟨rfl, hi.tokens, hi.comms⟩

theorem inv_commit {s u : State F} (hi : Inv s) (hs : step s .commit = some u) : Inv u := by
  obtain ⟨trace, htrace, rfl⟩ := Option.map_eq_some_iff.mp hs
  obtain ⟨v, hv, rfl⟩ := step_commit.mp htrace
  rw [hi.pending] at hv
  obtain ⟨x, hx, hprep⟩ := Option.bind_eq_some_iff.mp hv
  obtain ⟨comm, hsrc, hcomm, htok⟩ := prepare_eq_some.mp hprep
  have hown : ∀ p, x.2.IsOf p ↔ v.pid = p := by simp [Event.IsOf, hsrc]
  have hadded : ∀ p, addedOf p
      { trace := { s.trace with tc := commit s.trace.tc v, pending := none }
        current := none
        added := s.added ++ s.current.toList } =
      addedOf p s ++ if v.pid = p then [x] else [] := by
    intro p
    by_cases hp : v.pid = p <;> simp [addedOf, hx, hown, hp]
  refine ⟨rfl, fun p => ?_, fun p y hy => ?_⟩
  · rw [hadded, held_commit]
    refine List.rel_append (hi.tokens p) ?_
    by_cases hp : v.pid = p
    · rw [if_pos hp, if_pos hp]
      exact .cons htok .nil
    · rw [if_neg hp, if_neg hp]
      exact .nil
  · rw [hadded] at hy
    simp only [commit, lookup_insert]
    by_cases hp : v.pid = p
    · subst hp
      have hxy : x = y := by simpa using hy
      rw [if_pos rfl, ← hxy, hcomm, command, hsrc]
      rfl
    · rw [if_neg hp, List.append_nil] at hy
      rw [if_neg (Ne.symm hp)]
      exact hi.comms p y hy

theorem inv_flush {s u : State F} (hi : Inv s) {order : List UInt32}
    (hs : step s (.flush order) = some u) : Inv u := by
  obtain ⟨trace, htrace, rfl⟩ := Option.map_eq_some_iff.mp hs
  obtain ⟨-, rfl⟩ := step_flush.mp htrace
  refine ⟨hi.pending, fun p => ?_, fun p x hx => by simp [addedOf] at hx⟩
  dsimp only
  rw [held_flush]
  exact .nil

theorem inv_run {interval : Duration} {acts : List Action} {s : State F}
    (h : exec step (start interval) acts = some s) : Inv s := by
  refine exec_induction (I := fun _ s => Inv s) (inv_start interval) ?_ h
  intro as t a u _ hi hs
  cases a with
  | stamp now ev => exact inv_stamp hi hs
  | commit => exact inv_commit hi hs
  | flush order => exact inv_flush hi hs

theorem carriesComm_iff {s : State F} (hi : Inv s) {order : List UInt32}
    (ho : Enumerates order s.trace.tc.buffers) (p : UInt32) :
    List.Forall₂ CarriesComm
        ((batchEvents (flush s.trace.tc order).2).filter fun e => e.pid = p) (addedOf p s) ↔
      ∀ x ∈ addedOf p s, command x.2 = (s.trace.tc.comms.lookup p).getD [] := by
  rw [flush_events_of s.trace.tc ho p, List.forall₂_map_left_iff]
  have hmade := hi.tokens p
  generalize held p s.trace.tc = tks at hmade ⊢
  generalize addedOf p s = xs at hmade ⊢
  induction hmade with
  | nil => simp
  | @cons tk x tks xs htk _ ih =>
    rw [List.forall₂_cons, List.forall_mem_cons]
    refine and_congr ?_ ih
    constructor
    · exact fun hx => hx.2.symm
    · exact fun hx => ⟨⟨tk, rfl, htk⟩, hx.symm⟩

theorem ownComms_iff {s : State F} (hi : Inv s) (a : Action) : OwnComms s a ↔ OneComm s a := by
  cases a with
  | stamp now ev => exact Iff.rfl
  | commit => exact Iff.rfl
  | flush order =>
    refine forall_congr' fun ho => forall_congr' fun p => ?_
    rw [carriesComm_iff hi ho p]
    constructor
    · intro hall x hx y hy
      rw [hall x hx, hall y hy]
    · intro hone x hx
      have hne := List.ne_nil_of_mem hx
      have hlast := hi.comms p _ (List.getLast?_eq_some_getLast hne)
      rw [hlast, Option.getD_some]
      exact hone x hx _ (List.getLast_mem hne)

/-- The flushes of a run report every event under its own command exactly when
no flush finds two commands for one process. -/
theorem own_comms_iff (interval : Duration) (acts : List Action) :
    Along step OwnComms (start (F := F) interval) acts ↔
      Along step OneComm (start (F := F) interval) acts :=
  along_congr fun _ _ a h => ownComms_iff (inv_run h) a

def threadCopy (letter : UInt8) : Event :=
  .memcpy ⟨3, Vector.replicate 3 0, 7, Vector.ofFn fun i => if i.val = 0 then letter else 0, 64, 0⟩

/-- Two threads of one process make a call each between two flushes. -/
def threadsRun : List Action :=
  [.stamp 1 (threadCopy 97), .commit, .stamp 2 (threadCopy 98), .commit]

theorem threadsRun_not_own : ∃ s, exec step (start (F := ℚ) 5) threadsRun = some s ∧
    ¬ OwnComms s (.flush [7]) := by
  obtain ⟨s, hs, ho, x, hx, hne⟩ : ∃ s, exec step (start (F := ℚ) 5) threadsRun = some s ∧
      Enumerates [7] s.trace.tc.buffers ∧
      ∃ x ∈ addedOf 7 s, command x.2 ≠ (s.trace.tc.comms.lookup 7).getD [] := by
    decide +kernel
  refine ⟨s, hs, fun hown => ?_⟩
  exact hne ((carriesComm_iff (inv_run hs) ho 7).mp (hown ho 7) x hx)

end InfraSightGpu.TokenComms
