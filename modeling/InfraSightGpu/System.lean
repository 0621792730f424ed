import InfraSightGpu.Tracer
import InfraSightGpu.Pipeline
import Mathlib.Data.Fintype.Defs

namespace InfraSightGpu.System

open InfraSightGpu.Events InfraSightGpu.Handlers InfraSightGpu.Aggregator InfraSightGpu.TimeSeries
open InfraSightGpu.Pipeline InfraSightGpu.Lib.Maps InfraSightGpu.Lib.Runs

variable {F Loader : Type} {n : Nat}

inductive Kind where
  | windows | series
deriving DecidableEq

instance : Fintype Kind where
  elems := {.windows, .series}
  complete := by rintro (_ | _) <;> simp

/-- Where the goroutine that reads the ring stands when it is not in
`sendToCollectors`. -/
inductive ReadLoop where
  | notStarted | selecting | reading | returned
deriving DecidableEq

/-- The whole program: for every loader its eBPF programs, ring, reader and
collectors, and the goroutines that carry the batches to the client. What the
flushes returned and what was passed to `SendGpuBatch` is ghost state. -/
structure State (F : Type) (n : Nat) (Loader : Type) where
  cancelled : Bool
  tracer : Loader → Tracer.State F n
  readLoop : Loader → ReadLoop
  runner : Loader × Kind → Goroutine F (Loader × Kind)
  forwarder : Loader × Kind → Goroutine F (Loader × Kind)
  loader : Loader → Goroutine F (Loader × Kind)
  eventCh : List (Parcel F (Loader × Kind))
  client : ClientLoop F (Loader × Kind)
  returned : Loader × Kind → List (Option (GpuBatch F))
  sent : List (Parcel F (Loader × Kind))

def seriesInterval : Duration := 5 * 1000000000

def start (F : Type) (n : Nat) (timeWindow : Duration) (now : Loader → Time) :
    State F n Loader where
  cancelled := false
  tracer := fun l => Tracer.start n timeWindow seriesInterval (now l)
  readLoop := fun _ => .notStarted
  runner := fun _ => .notStarted
  forwarder := fun _ => .notStarted
  loader := fun _ => .notStarted
  eventCh := []
  client := .selecting
  returned := fun _ => []
  sent := []

def collectorOf (t : Tracer.State F n) : Kind → Collector F
  | .windows => .aggregator t.windows.ga
  | .series => .timeSeries t.series.tc

def State.pipeline (s : State F n Loader) : Pipeline.State F Loader (Loader × Kind) where
  cancelled := s.cancelled
  collector := fun c => collectorOf (s.tracer c.1) c.2
  runner := s.runner
  forwarder := s.forwarder
  loader := s.loader
  eventCh := s.eventCh
  client := s.client
  returned := s.returned
  sent := s.sent

def State.withPipeline (s : State F n Loader) (p : Pipeline.State F Loader (Loader × Kind)) :
    State F n Loader :=
  { s with
    cancelled := p.cancelled
    runner := p.runner
    forwarder := p.forwarder
    loader := p.loader
    eventCh := p.eventCh
    client := p.client
    returned := p.returned
    sent := p.sent }

/-- The steps of the pipeline are those of its goroutines and the cancellation;
`Run` of a loader also starts the goroutine that reads its ring. -/
inductive Action (n : Nat) (Loader : Type) where
  | program (l : Loader) (call : Call n)
  | select (l : Loader)
  | read (l : Loader) (garbage : Nat → UInt8)
  | readError (l : Loader)
  | updateWindows (l : Loader) (now : Time)
  | stampToken (l : Loader) (now : Time)
  | commitToken (l : Loader)
  | tick (c : Loader × Kind) (now : Time) (order : List UInt32)
  | startLoader (l : Loader)
  | pipeline (a : Pipeline.Action Loader (Loader × Kind))

def flushAction (now : Time) (order : List UInt32) : Kind → Tracer.Action n
  | .windows => .flushWindows now order
  | .series => .flushSeries order

/-- The steps of the pipeline that touch neither a collector nor a reader. -/
def isHandover : Pipeline.Action Loader (Loader × Kind) → Bool
  | .update _ _ _ => false
  | .tick _ _ _ => false
  | .startLoader _ => false
  | _ => true

section Steps

variable [GoFloat F] [DecidableEq Loader]

def State.withTracer (s : State F n Loader) (l : Loader) (t : Tracer.State F n) :
    State F n Loader :=
  { s with tracer := Function.update s.tracer l t }

def State.withReadLoop (s : State F n Loader) (l : Loader) (r : ReadLoop) : State F n Loader :=
  { s with readLoop := Function.update s.readLoop l r }

omit [GoFloat F] in
@[simp] theorem State.tracer_self (s : State F n Loader) (l : Loader) (t : Tracer.State F n) :
    (s.withTracer l t).tracer l = t := Function.update_self _ _ _

omit [GoFloat F] in
theorem State.tracer_of_ne (s : State F n Loader) {l k : Loader} (h : k ≠ l)
    (t : Tracer.State F n) : (s.withTracer l t).tracer k = s.tracer k :=
  Function.update_of_ne h _ _

def trace (s : State F n Loader) (l : Loader) (a : Tracer.Action n) : Option (State F n Loader) :=
  (Tracer.step (s.tracer l) a).map (s.withTracer l)

def stepPipeline (s : State F n Loader) (a : Pipeline.Action Loader (Loader × Kind)) :
    Option (State F n Loader) :=
  (Pipeline.step Prod.fst s.pipeline a).map s.withPipeline

/-- The reader looks at the context before each `Rb.Read`, and not while it waits in it. -/
def step (s : State F n Loader) : Action n Loader → Option (State F n Loader)
  | .program l call => trace s l (.program call)
  | .select l =>
    match s.readLoop l, (s.tracer l).reader with
    | .selecting, .idle => some (s.withReadLoop l (if s.cancelled then .returned else .reading))
    | _, _ => none
  | .read l garbage =>
    match s.readLoop l with
    | .reading => (trace s l (.read garbage)).map fun u => u.withReadLoop l .selecting
    | _ => none
  | .readError l =>
    match s.readLoop l with
    | .reading => some (s.withReadLoop l .selecting)
    | _ => none
  | .updateWindows l now => trace s l (.updateWindows now)
  | .stampToken l now => trace s l (.stampToken now)
  | .commitToken l => trace s l .commitToken
  | .tick c now order =>
    (stepPipeline s (.tick c now order)).bind fun u => trace u c.1 (flushAction now order c.2)
  | .startLoader l =>
    (stepPipeline s (.startLoader l)).map fun u => u.withReadLoop l .selecting
  | .pipeline a => if isHandover a then stepPipeline s a else none

inductive Steps (s : State F n Loader) : Action n Loader → State F n Loader → Prop where
  | program {l call t} (ht : Tracer.step (s.tracer l) (.program call) = some t) :
    Steps s (.program l call) (s.withTracer l t)
  | select {l} (hl : s.readLoop l = .selecting) (hr : (s.tracer l).reader = .idle) :
    Steps s (.select l) (s.withReadLoop l (if s.cancelled then .returned else .reading))
  | read {l garbage t} (hl : s.readLoop l = .reading)
      (ht : Tracer.step (s.tracer l) (.read garbage) = some t) :
    Steps s (.read l garbage) ((s.withTracer l t).withReadLoop l .selecting)
  | readError {l} (hl : s.readLoop l = .reading) :
    Steps s (.readError l) (s.withReadLoop l .selecting)
  | updateWindows {l now t} (ht : Tracer.step (s.tracer l) (.updateWindows now) = some t) :
    Steps s (.updateWindows l now) (s.withTracer l t)
  | stampToken {l now t} (ht : Tracer.step (s.tracer l) (.stampToken now) = some t) :
    Steps s (.stampToken l now) (s.withTracer l t)
  | commitToken {l t} (ht : Tracer.step (s.tracer l) .commitToken = some t) :
    Steps s (.commitToken l) (s.withTracer l t)
  | tick {c now order p t}
      (hp : Pipeline.step Prod.fst s.pipeline (.tick c now order) = some p)
      (ht : Tracer.step (s.tracer c.1) (flushAction now order c.2) = some t) :
    Steps s (.tick c now order) ((s.withPipeline p).withTracer c.1 t)
  | startLoader {l p} (hp : Pipeline.step Prod.fst s.pipeline (.startLoader l) = some p) :
    Steps s (.startLoader l) ((s.withPipeline p).withReadLoop l .selecting)
  | pipeline {a p} (ha : isHandover a)
      (hp : Pipeline.step Prod.fst s.pipeline a = some p) :
    Steps s (.pipeline a) (s.withPipeline p)

theorem trace_eq_some {s u : State F n Loader} {l : Loader} {a : Tracer.Action n} :
    trace s l a = some u ↔ ∃ t, Tracer.step (s.tracer l) a = some t ∧ s.withTracer l t = u :=
  Option.map_eq_some_iff

theorem stepPipeline_eq_some {s u : State F n Loader}
    {a : Pipeline.Action Loader (Loader × Kind)} :
    stepPipeline s a = some u ↔
      ∃ p, Pipeline.step Prod.fst s.pipeline a = some p ∧ s.withPipeline p = u :=
  Option.map_eq_some_iff

theorem steps_of_eq_some {s u : State F n Loader} {a : Action n Loader}
    (h : step s a = some u) : Steps s a u := by
  cases a with
  | program l call =>
    obtain ⟨t, ht, rfl⟩ := trace_eq_some.mp h
    exact .program ht
  | select l =>
    simp only [step] at h
    split at h <;> cases h
    next hl hr => exact .select hl hr
  | read l garbage =>
    simp only [step] at h
    split at h
    · next hl =>
      obtain ⟨v, hv, rfl⟩ := Option.map_eq_some_iff.mp h
      obtain ⟨t, ht, rfl⟩ := trace_eq_some.mp hv
      exact .read hl ht
    · cases h
  | readError l =>
    simp only [step] at h
    split at h <;> cases h
    next hl => exact .readError hl
  | updateWindows l now =>
    obtain ⟨t, ht, rfl⟩ := trace_eq_some.mp h
    exact .updateWindows ht
  | stampToken l now =>
    obtain ⟨t, ht, rfl⟩ := trace_eq_some.mp h
    exact .stampToken ht
  | commitToken l =>
    obtain ⟨t, ht, rfl⟩ := trace_eq_some.mp h
    exact .commitToken ht
  | tick c now order =>
    obtain ⟨v, hv, hu⟩ := Option.bind_eq_some_iff.mp h
    obtain ⟨p, hp, rfl⟩ := stepPipeline_eq_some.mp hv
    obtain ⟨t, ht, rfl⟩ := trace_eq_some.mp hu
    exact .tick hp ht
  | startLoader l =>
    obtain ⟨v, hv, rfl⟩ := Option.map_eq_some_iff.mp h
    obtain ⟨p, hp, rfl⟩ := stepPipeline_eq_some.mp hv
    exact .startLoader hp
  | pipeline a =>
    simp only [step] at h
    split at h
    · next ha =>
      obtain ⟨p, hp, rfl⟩ := stepPipeline_eq_some.mp h
      exact .pipeline ha hp
    · cases h

def tracerView (l : Loader) : Action n Loader → Option (Tracer.Action n)
  | .program l' call => if l' = l then some (.program call) else none
  | .read l' garbage => if l' = l then some (.read garbage) else none
  | .updateWindows l' now => if l' = l then some (.updateWindows now) else none
  | .stampToken l' now => if l' = l then some (.stampToken now) else none
  | .commitToken l' => if l' = l then some .commitToken else none
  | .tick c now order => if c.1 = l then some (flushAction now order c.2) else none
  | _ => none

theorem exec_withTracer {s : State F n Loader} {l : Loader} {a : Tracer.Action n}
    {t : Tracer.State F n} (ht : Tracer.step (s.tracer l) a = some t) (k : Loader) :
    exec Tracer.step (s.tracer k) (if l = k then some a else none).toList =
      some ((s.withTracer l t).tracer k) := by
  by_cases hk : l = k
  · subst hk
    simp [State.withTracer, ht]
  · simp [State.withTracer, hk, Ne.symm hk]

/-- The tracer of a loader moves as a tracer of its own. -/
theorem tracer_step {s u : State F n Loader} {a : Action n Loader} (h : step s a = some u)
    (l : Loader) : exec Tracer.step (s.tracer l) (tracerView l a).toList = some (u.tracer l) := by
  cases steps_of_eq_some h with
  | select | readError | startLoader | pipeline => rfl
  | program ht | read hl ht | updateWindows ht | stampToken ht | commitToken ht =>
    exact exec_withTracer ht l
  | tick hp ht => exact exec_withTracer (s := s.withPipeline _) ht l

theorem tracer_run {timeWindow : Duration} {now : Loader → Time} {acts : List (Action n Loader)}
    {s : State F n Loader} (h : exec step (start F n timeWindow now) acts = some s) (l : Loader) :
    exec Tracer.step (Tracer.start n timeWindow seriesInterval (now l))
      (acts.filterMap (tracerView l)) = some (s.tracer l) :=
  exec_project (g := fun s => s.tracer l) (I := fun _ => True) (fun _ _ _ _ _ => trivial)
    (fun _ _ _ _ hs => tracer_step hs l) trivial h

end Steps

end InfraSightGpu.System
