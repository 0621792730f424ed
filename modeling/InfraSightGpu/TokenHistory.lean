import InfraSightGpu.TimeSeries
import InfraSightGpu.Lib.Runs
import Mathlib.Data.List.DropRight
import Mathlib.Algebra.Order.Ring.Int

namespace InfraSightGpu.TokenHistory

open InfraSightGpu.Events InfraSightGpu.TimeSeries
open InfraSightGpu.Lib.Maps InfraSightGpu.Lib.Runs

variable {F : Type} [GoFloat F]

/-- A call of `Update` is two steps: the token is stamped before the mutex is
taken. A flush may come in between. -/
inductive Action where
  | stamp (now : Time) (ev : Event)
  | commit
  | flush (order : List UInt32)
deriving DecidableEq

/-- The collector, the call of `Update` in progress in the one goroutine that
reads the ring, and what the flushes have returned. -/
structure Trace (F : Type) where
  tc : TimeSeriesCollector F
  pending : Option (Pending F)
  returned : List (Option (GpuBatch F))

def start (flushInterval : Duration) : Trace F where
  tc := newTimeSeriesCollector flushInterval
  pending := none
  returned := []

def step (t : Trace F) : Action → Option (Trace F)
  | .stamp now ev =>
    match t.pending with
    | none => some { t with pending := prepare now ev }
    | some _ => none
  | .commit =>
    match t.pending with
    | none => none
    | some u => some { t with tc := commit t.tc u, pending := none }
  | .flush order =>
    if Enumerates order t.tc.buffers then
      let (tc, batch) := flush t.tc order
      some { t with tc := tc, returned := t.returned ++ [batch] }
    else none

theorem step_stamp {t u : Trace F} {now : Time} {ev : Event} :
    step t (.stamp now ev) = some u ↔
      t.pending = none ∧ { t with pending := prepare now ev } = u := by
  cases hp : t.pending <;> simp [step, hp]

theorem step_commit {t u : Trace F} :
    step t .commit = some u ↔
      ∃ v, t.pending = some v ∧ { t with tc := commit t.tc v, pending := none } = u := by
  cases hp : t.pending <;> simp [step, hp]

theorem step_flush {t u : Trace F} {order : List UInt32} :
    step t (.flush order) = some u ↔ Enumerates order t.tc.buffers ∧
      { t with
        tc := (flush t.tc order).1
        returned := t.returned ++ [(flush t.tc order).2] } = u := by
  rw [step, Option.ite_none_right_eq_some, Option.some.injEq]

def calls (acts : List Action) : List (Time × Event) :=
  acts.filterMap fun
    | .stamp now ev => some (now, ev)
    | .commit => none
    | .flush _ => none

def callsOf (p : UInt32) (acts : List Action) : List (Time × Event) :=
  (calls acts).filter fun x => x.2.IsOf p

def eventToken (e : GpuEvent F) : Option (GpuEventToken F) :=
  match e.payload with
  | .token tk => some tk
  | .tw _ => none

def flushedTokens (p : UInt32) (t : Trace F) : List (GpuEventToken F) :=
  ((t.returned.flatMap batchEvents).filter fun e => e.pid = p).filterMap eventToken

def pendingTokens (p : UInt32) (t : Trace F) : List (GpuEventToken F) :=
  (t.pending.filter fun u => u.pid = p).toList.map Pending.token

def tokensOf (p : UInt32) (t : Trace F) : List (GpuEventToken F) :=
  flushedTokens p t ++ held p t.tc ++ pendingTokens p t

def sinceFlush (acts : List Action) : List Action :=
  acts.rtakeWhile fun
    | .flush _ => false
    | _ => true

def Describes (tk : GpuEventToken F) (x : Time × Event) : Prop :=
  tk.timestamp = x.1 ∧
    match x.2 with
    | .kernelLaunch e =>
        tk.eventType = .eventKernelLaunch ∧ tk.value = GoFloat.ofUInt64 e.totalThreads
    | .memalloc e => tk.eventType = .eventMemalloc ∧ tk.value = GoFloat.ofUInt64 e.byteSize
    | .memcpy e => tk.eventType = .eventMemcpy ∧ tk.value = GoFloat.ofUInt64 e.byteSize ∧
        tk.dir = if e.kind = 0 then 0 else 1
    | .stream e => tk.eventType = .eventStreamSync ∧ tk.value = GoFloat.ofUInt64 e.deltaNs
    | .other => False

theorem describes_eventToToken {now : Time} {ev : Event} {tk : GpuEventToken F}
    (h : eventToToken now ev = some tk) : Describes tk (now, ev) := by
  cases ev with
  | kernelLaunch e | memalloc e | stream e =>
    cases h
    exact ⟨rfl, rfl, rfl⟩
  | memcpy e =>
    cases h
    refine ⟨rfl, rfl, rfl, ?_⟩
    by_cases hk : e.kind = 0 <;> simp [hk, dirHtod, dirDtoh]
  | other => cases h

theorem prepare_isOf {now : Time} {ev : Event} {p : UInt32} :
    ((prepare (F := F) now ev).filter fun u => u.pid = p).toList.map Pending.token =
      if ev.IsOf p then (eventToToken now ev).toList else [] := by
  cases hp : prepare (F := F) now ev with
  | none =>
    have htok : ev.source = none ∧ eventToToken (F := F) now ev = none := by
      cases ev <;> simp_all [prepare, eventToToken, Event.source]
    simp [htok.2]
  | some u =>
    obtain ⟨comm, hs, -, htok⟩ := prepare_eq_some.mp hp
    by_cases hu : u.pid = p <;> simp [Event.IsOf, hs, htok, hu]

theorem isOf_prepare (now : Time) {ev : Event} {p : UInt32} (h : ev.IsOf p) :
    ∃ tk, eventToToken (F := F) now ev = some tk := by
  cases ev <;> simp_all [Event.IsOf, Event.source, eventToToken]

theorem tokensOf_step {t u : Trace F} {a : Action} (hs : step t a = some u) (p : UInt32) :
    tokensOf p u = tokensOf p t ++
      (callsOf p [a]).filterMap fun x => eventToToken x.1 x.2 := by
  cases a with
  | stamp now ev =>
    obtain ⟨hnone, rfl⟩ := step_stamp.mp hs
    simp only [tokensOf, flushedTokens, pendingTokens, hnone, prepare_isOf]
    by_cases hp : ev.IsOf p
    · obtain ⟨tk, htk⟩ := isOf_prepare (F := F) now hp
      simp [callsOf, calls, hp, htk]
    · simp [callsOf, calls, hp]
  | commit =>
    obtain ⟨v, hv, rfl⟩ := step_commit.mp hs
    by_cases hp : v.pid = p <;>
      simp [tokensOf, flushedTokens, pendingTokens, hv, held_commit, callsOf, calls, hp,
        Option.filter_some]
  | flush order =>
    obtain ⟨ho, rfl⟩ := step_flush.mp hs
    have hev := flush_events_of t.tc ho p
    have htok : ((batchEvents (flush t.tc order).2).filter fun e => e.pid = p).filterMap
        eventToken = held p t.tc := by
      rw [hev, List.filterMap_map]
      exact List.filterMap_some
    simp only [tokensOf, flushedTokens, pendingTokens, held_flush, List.flatMap_append,
      List.filter_append, List.filterMap_append, List.flatMap_singleton, htok]
    simp [callsOf, calls]

theorem tokensOf_run {interval : Duration} {acts : List Action} {t : Trace F}
    (h : exec step (start interval) acts = some t) (p : UInt32) :
    tokensOf p t = (callsOf p acts).filterMap fun x => eventToToken x.1 x.2 := by
  refine exec_induction (I := fun acts t => tokensOf p t =
    (callsOf p acts).filterMap fun x => eventToToken x.1 x.2) rfl ?_ h
  intro as t a u _ ih hs
  rw [tokensOf_step hs, ih]
  simp [callsOf, calls, List.filterMap_append, List.filter_append]

theorem held_run {interval : Duration} {acts : List Action} {t : Trace F}
    (h : exec step (start interval) acts = some t) :
    (∀ p, held p t.tc = []) ↔ Action.commit ∉ sinceFlush acts := by
  refine exec_induction (I := fun acts t => (∀ p, held p t.tc = []) ↔
    Action.commit ∉ sinceFlush acts) ?_ ?_ h
  · simp [start, held, newTimeSeriesCollector, sinceFlush]
  · intro as t a u _ ih hs
    cases a with
    | stamp now ev =>
      obtain ⟨-, rfl⟩ := step_stamp.mp hs
      rw [ih]
      simp [sinceFlush, List.rtakeWhile_concat_pos]
    | commit =>
      obtain ⟨v, hv, rfl⟩ := step_commit.mp hs
      refine iff_of_false (fun hall => ?_) ?_
      · have hp := hall v.pid
        simp [held_commit] at hp
      · simp [sinceFlush, List.rtakeWhile_concat_pos]
    | flush order =>
      obtain ⟨-, rfl⟩ := step_flush.mp hs
      refine iff_of_true (fun p => held_flush t.tc order p) ?_
      rw [sinceFlush, List.rtakeWhile_concat_neg _ _ _ (by simp)]
      simp

theorem forall₂_filterMap {A B : Type} {R : B → A → Prop} {g : A → Option B} {as : List A}
    (h : ∀ a ∈ as, ∃ b, g a = some b ∧ R b a) : List.Forall₂ R (as.filterMap g) as := by
  induction as with
  | nil => exact List.Forall₂.nil
  | cons a as ih =>
    obtain ⟨b, hb, hr⟩ := h a (by simp)
    rw [List.filterMap_cons, hb]
    exact List.Forall₂.cons hr (ih fun x hx => h x (by simp [hx]))

theorem describes_run {interval : Duration} {acts : List Action} {t : Trace F}
    (h : exec step (start interval) acts = some t) (p : UInt32) :
    List.Forall₂ Describes (tokensOf p t) (callsOf p acts) := by
  rw [tokensOf_run h p]
  apply forall₂_filterMap
  intro x hx
  have hp : x.2.IsOf p := by simpa using (List.mem_filter.mp hx).2
  obtain ⟨tk, htk⟩ := isOf_prepare (F := F) x.1 hp
  exact ⟨tk, htk, describes_eventToToken htk⟩

theorem timestamps_sorted {tks : List (GpuEventToken F)} {xs : List (Time × Event)}
    (h : List.Forall₂ Describes tks xs) (hs : xs.Pairwise fun x y => x.1 ≤ y.1) :
    tks.Pairwise fun a b => a.timestamp ≤ b.timestamp := by
  have hmap : List.Forall₂ Eq (tks.map GpuEventToken.timestamp) (xs.map Prod.fst) :=
    List.forall₂_map_left_iff.mpr (List.forall₂_map_right_iff.mpr (h.imp fun _ _ hd => hd.1))
  rw [List.forall₂_eq_eq_eq] at hmap
  rw [← List.pairwise_map (R := fun a b : Time => a ≤ b), hmap, List.pairwise_map]
  exact hs

/-- No token is lost, duplicated or reordered: what was flushed, what is
buffered and what a call in progress is about to add describe the events of
the process one by one. Other events change nothing, and a flush returns nil
exactly when nothing was added since the one before. -/
theorem tokens_follow_events (interval : Duration) (acts : List Action) (t : Trace F)
    (h : exec step (start interval) acts = some t)
    (hclock : (calls acts).Pairwise fun x y => x.1 ≤ y.1) :
    (∀ p, List.Forall₂ Describes
        (flushedTokens p t ++ held p t.tc ++ pendingTokens p t) (callsOf p acts) ∧
      (flushedTokens p t ++ held p t.tc ++ pendingTokens p t).Pairwise
        fun a b => a.timestamp ≤ b.timestamp) ∧
    (∀ now u, step t (.stamp now .other) = some u → u.tc = t.tc ∧ u.pending = none) ∧
    ∀ order u, step t (.flush order) = some u → ∃ batch, u.returned = t.returned ++ [batch] ∧
      (batch = none ↔ Action.commit ∉ sinceFlush acts) := by
  refine ⟨fun p => ?_, fun now u hs => ?_, fun order u hs => ?_⟩
  · have hd := describes_run h p
    exact ⟨hd, timestamps_sorted hd (hclock.filter _)⟩
  · obtain ⟨-, rfl⟩ := step_stamp.mp hs
    exact ⟨rfl, rfl⟩
  · obtain ⟨ho, rfl⟩ := step_flush.mp hs
    exact ⟨_, rfl, (flush_eq_none_iff t.tc ho).trans (held_run h)⟩

def racingRun : List Action :=
  [.flush [], .stamp 1 (sampleLaunch 7 32), .commit, .stamp 2 (sampleMemcpy 7 100 0), .flush [7],
    .commit, .stamp 3 .other, .stamp 3 (sampleMemcpy 8 5 1), .commit, .flush [8, 7]]

theorem tokens_follow_events_racingRun :
    ∃ t, exec step (start (F := ℚ) 5) racingRun = some t ∧
    (∀ p, List.Forall₂ Describes
        (flushedTokens p t ++ held p t.tc ++ pendingTokens p t) (callsOf p racingRun) ∧
      (flushedTokens p t ++ held p t.tc ++ pendingTokens p t).Pairwise
        fun a b => a.timestamp ≤ b.timestamp) ∧
    (∀ now u, step t (.stamp now .other) = some u → u.tc = t.tc ∧ u.pending = none) ∧
    ∀ order u, step t (.flush order) = some u → ∃ batch, u.returned = t.returned ++ [batch] ∧
      (batch = none ↔ Action.commit ∉ sinceFlush racingRun) := by
  have h : (exec step (start (F := ℚ) 5) racingRun).isSome := by decide +kernel
  have ht := (Option.some_get h).symm
  exact ⟨_, ht, tokens_follow_events 5 racingRun _ ht (by decide)⟩

end InfraSightGpu.TokenHistory
