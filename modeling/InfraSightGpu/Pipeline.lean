import InfraSightGpu.Aggregator
import InfraSightGpu.TimeSeries
import InfraSightGpu.Lib.Runs

namespace InfraSightGpu.Pipeline

open InfraSightGpu.Events InfraSightGpu.Aggregator InfraSightGpu.TimeSeries
open InfraSightGpu.Lib.Maps InfraSightGpu.Lib.Runs

variable {F Loader Col : Type}

inductive Collector (F : Type) where
  | aggregator (ga : GPUAggregator F)
  | timeSeries (tc : TimeSeriesCollector F)

def Collector.update [GoFloat F] (now : Time) (ev : Event) : Collector F → Collector F
  | .aggregator ga => .aggregator (Aggregator.update ga now ev)
  | .timeSeries tc => .timeSeries (TimeSeries.update tc now ev)

def Collector.flush [GoFloat F] (now : Time) (order : List UInt32) :
    Collector F → Option (Collector F × Option (GpuBatch F))
  | .aggregator ga =>
    if Enumerates order ga.windows then
      let (ga, batch) := Aggregator.flush ga now order
      some (.aggregator ga, batch)
    else none
  | .timeSeries tc =>
    if Enumerates order tc.buffers then
      let (tc, batch) := TimeSeries.flush tc order
      some (.timeSeries tc, batch)
    else none

inductive Call where
  | update (now : Time) (ev : Event)
  | flush (now : Time) (order : List UInt32)
deriving DecidableEq

def Collector.call [GoFloat F] (c : Collector F) : Call → Option (Collector F)
  | .update now ev => some (c.update now ev)
  | .flush now order => (c.flush now order).map Prod.fst

inductive Flushes [GoFloat F] (now : Time) (order : List UInt32) :
    Collector F → Collector F → Option (GpuBatch F) → Prop where
  | aggregator {ga : GPUAggregator F} (ho : Enumerates order ga.windows) :
    Flushes now order (.aggregator ga) (.aggregator (Aggregator.flush ga now order).1)
      (Aggregator.flush ga now order).2
  | timeSeries {tc : TimeSeriesCollector F} (ho : Enumerates order tc.buffers) :
    Flushes now order (.timeSeries tc) (.timeSeries (TimeSeries.flush tc order).1)
      (TimeSeries.flush tc order).2

theorem flushes_of_eq_some [GoFloat F] {c c' : Collector F} {now : Time} {order : List UInt32}
    {batch : Option (GpuBatch F)} (h : c.flush now order = some (c', batch)) :
    Flushes now order c c' batch := by
  cases c with
  | aggregator ga =>
    rw [Collector.flush, Option.ite_none_right_eq_some, Option.some.injEq, Prod.mk.injEq] at h
    obtain ⟨ho, rfl, rfl⟩ := h
    exact .aggregator ho
  | timeSeries tc =>
    rw [Collector.flush, Option.ite_none_right_eq_some, Option.some.injEq, Prod.mk.injEq] at h
    obtain ⟨ho, rfl, rfl⟩ := h
    exact .timeSeries ho

/-- A batch pointer on its way. The collector that it comes from is ghost state. -/
structure Parcel (F Col : Type) where
  origin : Col
  batch : Option (GpuBatch F)

/-- A goroutine that receives or is woken, then holds what it has to send until
the receiver takes it. -/
inductive Goroutine (F Col : Type) where
  | notStarted
  | waiting
  | holding (p : Parcel F Col)
  | returned

def Goroutine.held : Goroutine F Col → List (Parcel F Col)
  | .holding p => [p]
  | _ => []

@[simp] theorem held_holding (p : Parcel F Col) : (Goroutine.holding p).held = [p] := rfl
@[simp] theorem held_waiting : (Goroutine.waiting : Goroutine F Col).held = [] := rfl
@[simp] theorem held_notStarted : (Goroutine.notStarted : Goroutine F Col).held = [] := rfl

inductive ClientLoop (F Col : Type) where
  | selecting
  | sendingGpuBatch (p : Parcel F Col)
  | returned

inductive Outcome where
  | ok | unavailable | canceled | otherError
deriving DecidableEq

def eventChCap : Nat := 500

/-- For every collector the goroutine of its `Run` and the one that forwards
from it, for every loader the one in `Client.Run` that forwards from it. The
results of the flushes and the batches passed to `SendGpuBatch` are ghost state. -/
structure State (F Loader Col : Type) where
  cancelled : Bool
  collector : Col → Collector F
  runner : Col → Goroutine F Col
  forwarder : Col → Goroutine F Col
  loader : Loader → Goroutine F Col
  eventCh : List (Parcel F Col)
  client : ClientLoop F Col
  returned : Col → List (Option (GpuBatch F))
  sent : List (Parcel F Col)

def start (Loader : Type) (collector : Col → Collector F) : State F Loader Col where
  cancelled := false
  collector := collector
  runner := fun _ => .notStarted
  forwarder := fun _ => .notStarted
  loader := fun _ => .notStarted
  eventCh := []
  client := .selecting
  returned := fun _ => []
  sent := []

inductive Action (Loader Col : Type) where
  | update (c : Col) (now : Time) (ev : Event)
  | startLoader (l : Loader)
  | startCollector (c : Col)
  | tick (c : Col) (now : Time) (order : List UInt32)
  | stopRunner (c : Col)
  | handToForwarder (c : Col)
  | stopForwarder (c : Col)
  | handToLoader (c : Col)
  | stopLoader (l : Loader)
  | enqueue (l : Loader)
  | dequeue
  | finishSend (o : Outcome)
  | stopClient
  | cancel
deriving DecidableEq

/-- An unbuffered send and the receive of it are one step. A select may choose
any of its ready cases. -/
def step [GoFloat F] [DecidableEq Loader] [DecidableEq Col] (owner : Col → Loader)
    (s : State F Loader Col) : Action Loader Col → Option (State F Loader Col)
  | .update c now ev =>
    some { s with collector := Function.update s.collector c ((s.collector c).update now ev) }
  | .startLoader l =>
    match s.loader l with
    | .notStarted => some { s with loader := Function.update s.loader l .waiting }
    | _ => none
  | .startCollector c =>
    match s.loader (owner c), s.forwarder c, s.runner c with
    | .notStarted, _, _ => none
    | _, .notStarted, .notStarted => some { s with
        runner := Function.update s.runner c .waiting
        forwarder := Function.update s.forwarder c .waiting }
    | _, _, _ => none
  | .tick c now order =>
    match s.runner c, (s.collector c).flush now order with
    | .waiting, some (col, batch) => some { s with
        collector := Function.update s.collector c col
        runner := if batch.isSome then Function.update s.runner c (.holding ⟨c, batch⟩)
          else s.runner
        returned := Function.update s.returned c (s.returned c ++ [batch]) }
    | _, _ => none
  | .stopRunner c =>
    match s.cancelled, s.runner c with
    | true, .waiting => some { s with runner := Function.update s.runner c .returned }
    | _, _ => none
  | .handToForwarder c =>
    match s.runner c, s.forwarder c with
    | .holding p, .waiting => some { s with
        runner := Function.update s.runner c .waiting
        forwarder := Function.update s.forwarder c (.holding p) }
    | _, _ => none
  | .stopForwarder c =>
    -- the runner closes its channel when it returns, which ends the range loop
    match s.runner c, s.forwarder c with
    | .returned, .waiting => some { s with
        forwarder := Function.update s.forwarder c .returned }
    | _, _ => none
  | .handToLoader c =>
    match s.forwarder c, s.loader (owner c) with
    | .holding p, .waiting => some { s with
        forwarder := Function.update s.forwarder c .waiting
        loader := Function.update s.loader (owner c) (.holding p) }
    | _, _ => none
  | .stopLoader l =>
    match s.cancelled, s.loader l with
    | true, .waiting => some { s with loader := Function.update s.loader l .returned }
    | _, _ => none
  | .enqueue l =>
    match s.loader l with
    | .holding p =>
      if s.eventCh.length < eventChCap then some { s with
        loader := Function.update s.loader l .waiting
        eventCh := s.eventCh ++ [p] }
      else none
    | _ => none
  | .dequeue =>
    match s.client, s.eventCh with
    | .selecting, p :: rest => some { s with
        eventCh := rest
        client := .sendingGpuBatch p
        sent := s.sent ++ [p] }
    | _, _ => none
  | .finishSend o =>
    match s.client with
    | .sendingGpuBatch _ => some { s with
        client := match o with
          | .ok | .otherError => .selecting
          | .unavailable | .canceled => .returned }
    | _ => none
  | .stopClient =>
    match s.cancelled, s.client with
    | true, .selecting => some { s with client := .returned }
    | _, _ => none
  | .cancel => some { s with cancelled := true }

section Steps

variable [GoFloat F] [DecidableEq Loader] [DecidableEq Col] {owner : Col → Loader}

inductive Steps (owner : Col → Loader) (s : State F Loader Col) :
    Action Loader Col → State F Loader Col → Prop where
  | update (c now ev) : Steps owner s (.update c now ev)
      { s with collector := Function.update s.collector c ((s.collector c).update now ev) }
  | startLoader {l} (hl : s.loader l = .notStarted) : Steps owner s (.startLoader l)
      { s with loader := Function.update s.loader l .waiting }
  | startCollector {c} (hr : s.runner c = .notStarted) (hf : s.forwarder c = .notStarted) :
    Steps owner s (.startCollector c) { s with
      runner := Function.update s.runner c .waiting
      forwarder := Function.update s.forwarder c .waiting }
  | quietTick {c now order col} (hr : s.runner c = .waiting)
      (hflush : (s.collector c).flush now order = some (col, none)) :
    Steps owner s (.tick c now order) { s with
      collector := Function.update s.collector c col
      returned := Function.update s.returned c (s.returned c ++ [none]) }
  | tick {c now order col b} (hr : s.runner c = .waiting)
      (hflush : (s.collector c).flush now order = some (col, some b)) :
    Steps owner s (.tick c now order) { s with
      collector := Function.update s.collector c col
      runner := Function.update s.runner c (.holding ⟨c, some b⟩)
      returned := Function.update s.returned c (s.returned c ++ [some b]) }
  | stopRunner {c} (hr : s.runner c = .waiting) : Steps owner s (.stopRunner c)
      { s with runner := Function.update s.runner c .returned }
  | handToForwarder {c p} (hr : s.runner c = .holding p) (hf : s.forwarder c = .waiting) :
    Steps owner s (.handToForwarder c) { s with
      runner := Function.update s.runner c .waiting
      forwarder := Function.update s.forwarder c (.holding p) }
  | stopForwarder {c} (hr : s.runner c = .returned) (hf : s.forwarder c = .waiting) :
    Steps owner s (.stopForwarder c)
      { s with forwarder := Function.update s.forwarder c .returned }
  | handToLoader {c p} (hf : s.forwarder c = .holding p) (hl : s.loader (owner c) = .waiting) :
    Steps owner s (.handToLoader c) { s with
      forwarder := Function.update s.forwarder c .waiting
      loader := Function.update s.loader (owner c) (.holding p) }
  | stopLoader {l} (hl : s.loader l = .waiting) : Steps owner s (.stopLoader l)
      { s with loader := Function.update s.loader l .returned }
  | enqueue {l p} (hl : s.loader l = .holding p) (hch : s.eventCh.length < eventChCap) :
    Steps owner s (.enqueue l) { s with
      loader := Function.update s.loader l .waiting
      eventCh := s.eventCh ++ [p] }
  | dequeue {p rest} (hc : s.client = .selecting) (hch : s.eventCh = p :: rest) :
    Steps owner s .dequeue { s with
      eventCh := rest
      client := .sendingGpuBatch p
      sent := s.sent ++ [p] }
  | keepSending {p o} (hc : s.client = .sendingGpuBatch p) (ho : o = .ok ∨ o = .otherError) :
    Steps owner s (.finishSend o) { s with client := .selecting }
  | giveUp {p o} (hc : s.client = .sendingGpuBatch p) (ho : o = .unavailable ∨ o = .canceled) :
    Steps owner s (.finishSend o) { s with client := .returned }
  | stopClient (hc : s.client = .selecting) : Steps owner s .stopClient
      { s with client := .returned }
  | cancel : Steps owner s .cancel { s with cancelled := true }

theorem steps_of_eq_some {s u : State F Loader Col} {a : Action Loader Col}
    (h : step owner s a = some u) : Steps owner s a u := by
  cases a with
  | update c now ev =>
    cases h
    exact .update c now ev
  | startLoader l =>
    simp only [step] at h
    split at h <;> cases h
    next hl => exact .startLoader hl
  | startCollector c =>
    simp only [step] at h
    split at h <;> cases h
    next hf hr _ => exact .startCollector hr hf
  | tick c now order =>
    simp only [step] at h
    split at h <;> cases h
    next batch hr hflush =>
    cases batch with
    | none => exact .quietTick hr hflush
    | some b => exact .tick hr hflush
  | stopRunner c =>
    simp only [step] at h
    split at h <;> cases h
    next hr => exact .stopRunner hr
  | handToForwarder c =>
    simp only [step] at h
    split at h <;> cases h
    next hr hf => exact .handToForwarder hr hf
  | stopForwarder c =>
    simp only [step] at h
    split at h <;> cases h
    next hr hf => exact .stopForwarder hr hf
  | handToLoader c =>
    simp only [step] at h
    split at h <;> cases h
    next hf hl => exact .handToLoader hf hl
  | stopLoader l =>
    simp only [step] at h
    split at h <;> cases h
    next hl => exact .stopLoader hl
  | enqueue l =>
    simp only [step] at h
    split at h
    · next hl =>
      split at h <;> cases h
      next hch => exact .enqueue hl hch
    · cases h
  | dequeue =>
    simp only [step] at h
    split at h <;> cases h
    next hc hch => exact .dequeue hc hch
  | finishSend o =>
    simp only [step] at h
    split at h <;> cases h
    next hc =>
    cases o with
    | ok => exact .keepSending hc (.inl rfl)
    | otherError => exact .keepSending hc (.inr rfl)
    | unavailable => exact .giveUp hc (.inl rfl)
    | canceled => exact .giveUp hc (.inr rfl)
  | stopClient =>
    simp only [step] at h
    split at h <;> cases h
    next hc => exact .stopClient hc
  | cancel =>
    cases h
    exact .cancel

end Steps

section Places

variable [DecidableEq Col]

def batchesOf (c : Col) (ps : List (Parcel F Col)) : List (Option (GpuBatch F)) :=
  (ps.filter fun p => p.origin = c).map Parcel.batch

@[simp] theorem batchesOf_append (c : Col) (ps qs : List (Parcel F Col)) :
    batchesOf c (ps ++ qs) = batchesOf c ps ++ batchesOf c qs := by
  simp [batchesOf]

theorem batchesOf_own (c : Col) (b : Option (GpuBatch F)) : batchesOf c [⟨c, b⟩] = [b] := by
  simp [batchesOf]

theorem batchesOf_other {c : Col} {p : Parcel F Col} (h : p.origin ≠ c) (ps : List (Parcel F Col)) :
    batchesOf c (p :: ps) = batchesOf c ps := by
  simp [batchesOf, h]

/-- The parcels that `eventCh` and the goroutines hold on the way from a
collector, oldest first. -/
def inTransit (owner : Col → Loader) (c : Col) (s : State F Loader Col) : List (Parcel F Col) :=
  s.eventCh ++ (s.loader (owner c)).held ++ (s.forwarder c).held ++ (s.runner c).held

/-- Every batch of a collector is sent or at exactly one place on the way, in
the order of the flushes, and every parcel is where its origin sends it. -/
structure Inv (owner : Col → Loader) (s : State F Loader Col) : Prop where
  order : ∀ c, (s.returned c).filter Option.isSome =
    batchesOf c s.sent ++ batchesOf c (inTransit owner c s)
  atForwarder : ∀ c, ∀ p ∈ (s.forwarder c).held, p.origin = c
  atRunner : ∀ c, ∀ p ∈ (s.runner c).held, p.origin = c
  atLoader : ∀ l, ∀ p ∈ (s.loader l).held, owner p.origin = l
  nonempty : ∀ c b, some b ∈ s.returned c → b.batch ≠ []

theorem inv_start (owner : Col → Loader) (collector : Col → Collector F) :
    Inv owner (start Loader collector) :=
  ⟨fun _ => rfl, by simp [start], by simp [start], by simp [start], by simp [start]⟩

end Places

theorem held_update {I : Type} [DecidableEq I] {f : I → Goroutine F Col}
    {P : I → Parcel F Col → Prop} (h : ∀ i, ∀ p ∈ (f i).held, P i p) {i : I}
    {g : Goroutine F Col} (hg : ∀ p ∈ g.held, P i p) :
    ∀ j, ∀ p ∈ (Function.update f i g j).held, P j p := by
  intro j p hp
  by_cases hj : j = i
  · subst hj
    rw [Function.update_self] at hp
    exact hg p hp
  · rw [Function.update_of_ne hj] at hp
    exact h j p hp

theorem held_update_nil {I : Type} [DecidableEq I] {f : I → Goroutine F Col} {i : I}
    (hf : (f i).held = []) {g : Goroutine F Col} (hg : g.held = []) (j : I) :
    (Function.update f i g j).held = (f j).held := by
  by_cases hj : j = i
  · subst hj
    rw [Function.update_self, hf, hg]
  · rw [Function.update_of_ne hj]

theorem nonempty_update [DecidableEq Col] {returned : Col → List (Option (GpuBatch F))}
    (h : ∀ c b, some b ∈ returned c → b.batch ≠ []) {c : Col} {batch : Option (GpuBatch F)}
    (hne : ∀ b, batch = some b → b.batch ≠ []) :
    ∀ d b, some b ∈ Function.update returned c (returned c ++ [batch]) d → b.batch ≠ [] := by
  intro d b hb
  by_cases hd : d = c
  · subst hd
    rw [Function.update_self, List.mem_append, List.mem_singleton] at hb
    obtain hb | hb := hb
    · exact h d b hb
    · exact hne b hb.symm
  · rw [Function.update_of_ne hd] at hb
    exact h d b hb

theorem flush_nonempty [GoFloat F] {col col' : Collector F} {now : Time} {order : List UInt32}
    {b : GpuBatch F} (h : col.flush now order = some (col', some b)) : b.batch ≠ [] := by
  generalize hbatch : some b = batch at h
  cases flushes_of_eq_some h with
  | aggregator ho => exact Aggregator.flush_nonempty _ now order b hbatch.symm
  | timeSeries ho => exact TimeSeries.flush_nonempty _ order b hbatch.symm

section Moves

variable [DecidableEq Col] {owner : Col → Loader} {s : State F Loader Col} (hi : Inv owner s)
include hi

theorem inv_runner (c : Col) {g : Goroutine F Col} (hr : (s.runner c).held = [])
    (hg : g.held = []) : Inv owner { s with runner := Function.update s.runner c g } := by
  refine ⟨fun d => ?_, hi.atForwarder, held_update hi.atRunner (by simp [hg]), hi.atLoader,
    hi.nonempty⟩
  rw [hi.order d]
  simp only [inTransit, held_update_nil hr hg]

theorem inv_forwarder (c : Col) {g : Goroutine F Col} (hf : (s.forwarder c).held = [])
    (hg : g.held = []) : Inv owner { s with forwarder := Function.update s.forwarder c g } := by
  refine ⟨fun d => ?_, held_update hi.atForwarder (by simp [hg]), hi.atRunner, hi.atLoader,
    hi.nonempty⟩
  rw [hi.order d]
  simp only [inTransit, held_update_nil hf hg]

theorem inv_loader [DecidableEq Loader] (l : Loader) {g : Goroutine F Col}
    (hl : (s.loader l).held = []) (hg : g.held = []) :
    Inv owner { s with loader := Function.update s.loader l g } := by
  refine ⟨fun d => ?_, hi.atForwarder, hi.atRunner, held_update hi.atLoader (by simp [hg]),
    hi.nonempty⟩
  rw [hi.order d]
  simp only [inTransit, held_update_nil hl hg]

theorem inv_quietTick (c : Col) (col : Collector F) :
    Inv owner { s with
      collector := Function.update s.collector c col
      returned := Function.update s.returned c (s.returned c ++ [none]) } := by
  refine ⟨fun d => ?_, hi.atForwarder, hi.atRunner, hi.atLoader,
    nonempty_update hi.nonempty (by simp)⟩
  have hsame : (Function.update s.returned c (s.returned c ++ [none]) d).filter Option.isSome =
      (s.returned d).filter Option.isSome := by
    by_cases hd : d = c
    · subst hd; simp
    · simp [hd]
  dsimp only
  rw [hsame, hi.order d]
  rfl

theorem inv_tick (c : Col) (hr : s.runner c = .waiting) (col : Collector F) {b : GpuBatch F}
    (hne : b.batch ≠ []) :
    Inv owner { s with
      collector := Function.update s.collector c col
      runner := Function.update s.runner c (.holding ⟨c, some b⟩)
      returned := Function.update s.returned c (s.returned c ++ [some b]) } := by
  refine ⟨fun d => ?_, hi.atForwarder, held_update hi.atRunner (by simp), hi.atLoader,
    nonempty_update hi.nonempty (by simpa using hne)⟩
  by_cases hd : d = c
  · subst hd
    have hold := hi.order d
    simp only [inTransit, hr, held_waiting, List.append_nil] at hold
    simp [inTransit, hold, batchesOf_own]
  · simpa [inTransit, hd] using hi.order d

theorem inv_handToForwarder (c : Col) {p : Parcel F Col} (hr : s.runner c = .holding p)
    (hf : s.forwarder c = .waiting) :
    Inv owner { s with
      runner := Function.update s.runner c .waiting
      forwarder := Function.update s.forwarder c (.holding p) } := by
  have hp : p.origin = c := hi.atRunner c p (by simp [hr])
  refine ⟨fun d => ?_, held_update hi.atForwarder (by simp [hp]),
    held_update hi.atRunner (by simp), hi.atLoader, hi.nonempty⟩
  rw [hi.order d]
  by_cases hd : d = c
  · subst hd
    simp [inTransit, hr, hf]
  · simp [inTransit, hd]

/-- The loaders share no parcel: a parcel of another collector that passes
through the same loader does not count. -/
theorem inv_handToLoader [DecidableEq Loader] (c : Col) {p : Parcel F Col}
    (hf : s.forwarder c = .holding p) (hl : s.loader (owner c) = .waiting) :
    Inv owner { s with
      forwarder := Function.update s.forwarder c .waiting
      loader := Function.update s.loader (owner c) (.holding p) } := by
  have hp : p.origin = c := hi.atForwarder c p (by simp [hf])
  refine ⟨fun d => ?_, held_update hi.atForwarder (by simp), hi.atRunner,
    held_update hi.atLoader (by simp [hp]), hi.nonempty⟩
  rw [hi.order d]
  by_cases hd : d = c
  · subst hd
    simp [inTransit, hf, hl]
  · have hother := batchesOf_other (c := d) (p := p) (hp ▸ Ne.symm hd)
    by_cases ho : owner d = owner c
    · simp [inTransit, hd, ho, hl, hother]
    · simp [inTransit, hd, ho]

theorem inv_enqueue [DecidableEq Loader] (l : Loader) {p : Parcel F Col}
    (hl : s.loader l = .holding p) :
    Inv owner { s with
      loader := Function.update s.loader l .waiting
      eventCh := s.eventCh ++ [p] } := by
  have hp : owner p.origin = l := hi.atLoader l p (by simp [hl])
  refine ⟨fun d => ?_, hi.atForwarder, hi.atRunner, held_update hi.atLoader (by simp), hi.nonempty⟩
  rw [hi.order d]
  by_cases hd : owner d = l
  · subst hd
    simp [inTransit, hl]
  · have hother := batchesOf_other (c := d) (p := p) fun h => hd (h ▸ hp)
    simp [inTransit, hd, hother]

theorem inv_dequeue {p : Parcel F Col} {rest : List (Parcel F Col)} (hch : s.eventCh = p :: rest) :
    Inv owner { s with
      eventCh := rest
      client := .sendingGpuBatch p
      sent := s.sent ++ [p] } := by
  refine ⟨fun d => ?_, hi.atForwarder, hi.atRunner, hi.atLoader, hi.nonempty⟩
  have hcons : batchesOf d s.eventCh = batchesOf d [p] ++ batchesOf d rest := by
    rw [hch, ← batchesOf_append, List.singleton_append]
  rw [hi.order d]
  simp [inTransit, hcons]

end Moves

variable [GoFloat F] [DecidableEq Loader] [DecidableEq Col] {owner : Col → Loader}

theorem inv_step {s u : State F Loader Col} {a : Action Loader Col} (hi : Inv owner s)
    (hs : step owner s a = some u) : Inv owner u := by
  cases steps_of_eq_some hs with
  | update | keepSending | giveUp | stopClient | cancel =>
    exact ⟨hi.order, hi.atForwarder, hi.atRunner, hi.atLoader, hi.nonempty⟩
  | @startLoader l hl => exact inv_loader hi l (by simp [hl]) rfl
  | @startCollector c hr hf =>
    exact inv_runner (inv_forwarder hi c (by simp [hf]) rfl) c (by simp [hr]) rfl
  | @quietTick c now order col hr hflush => exact inv_quietTick hi c col
  | @tick c now order col b hr hflush => exact inv_tick hi c hr col (flush_nonempty hflush)
  | @stopRunner c hr => exact inv_runner hi c (by simp [hr]) rfl
  | @handToForwarder c p hr hf => exact inv_handToForwarder hi c hr hf
  | @stopForwarder c hr hf => exact inv_forwarder hi c (by simp [hf]) rfl
  | @handToLoader c p hf hl => exact inv_handToLoader hi c hf hl
  | @stopLoader l hl => exact inv_loader hi l (by simp [hl]) rfl
  | @enqueue l p hl hch => exact inv_enqueue hi l hl
  | dequeue hc hch => exact inv_dequeue hi hch

theorem inv_run {collector : Col → Collector F} {acts : List (Action Loader Col)}
    {s : State F Loader Col} (h : exec (step owner) (start Loader collector) acts = some s) :
    Inv owner s :=
  exec_induction (I := fun _ s => Inv owner s) (inv_start owner collector)
    (fun _ _ _ _ _ hi hs => inv_step hi hs) h

/-- In every state of a run, the non-nil batches of a collector are those sent,
in order, followed by those on the way, each of which is at one place. No nil
and no empty batch is sent. -/
theorem batches_delivered_in_order (owner : Col → Loader) (collector : Col → Collector F)
    (acts : List (Action Loader Col)) (s : State F Loader Col)
    (h : exec (step owner) (start Loader collector) acts = some s) :
    (∀ c, batchesOf c s.sent <+: (s.returned c).filter Option.isSome) ∧
      (∀ c, (s.returned c).filter Option.isSome =
        batchesOf c s.sent ++ batchesOf c (inTransit owner c s)) ∧
      (∀ l, ∀ p ∈ (s.loader l).held, owner p.origin = l) ∧
      (∀ c, ∀ p ∈ (s.forwarder c).held ++ (s.runner c).held, p.origin = c) ∧
      ∀ p ∈ s.sent, ∃ b, p.batch = some b ∧ b.batch ≠ [] := by
  have hi := inv_run h
  refine ⟨fun c => ⟨_, (hi.order c).symm⟩, hi.order, hi.atLoader, fun c p hp => ?_, fun p hp => ?_⟩
  · obtain hp | hp := List.mem_append.mp hp
    · exact hi.atForwarder c p hp
    · exact hi.atRunner c p hp
  · have hsent : p.batch ∈ batchesOf p.origin s.sent :=
      List.mem_map.mpr ⟨p, List.mem_filter.mpr ⟨hp, by simp⟩, rfl⟩
    have hret : p.batch ∈ (s.returned p.origin).filter Option.isSome := by
      rw [hi.order]
      exact List.mem_append_left _ hsent
    obtain ⟨hmem, hsome⟩ := List.mem_filter.mp hret
    obtain ⟨b, hb⟩ := Option.isSome_iff_exists.mp hsome
    exact ⟨b, hb, hi.nonempty p.origin b (hb ▸ hmem)⟩

def sampleCollector : Bool → Collector ℚ
  | false => .aggregator (newGPUAggregator 1 0)
  | true => .timeSeries (newTimeSeriesCollector 5)

def cancelledRun : List (Action Bool Bool) :=
  [.startLoader false, .startLoader true, .startCollector false, .startCollector true,
    .tick true 1 [], .update false 1 (sampleLaunch 7 32), .update true 1 (sampleLaunch 7 32),
    .tick true 5 [7], .tick false 9 [7], .handToForwarder true, .handToLoader true,
    .handToForwarder false, .enqueue false, .handToLoader false, .dequeue, .cancel,
    .stopRunner true, .finishSend .otherError, .enqueue false, .dequeue, .stopLoader true]

theorem batches_delivered_in_order_cancelledRun :
    ∃ s, exec (step fun _ => false) (start Bool sampleCollector) cancelledRun = some s ∧
    (∀ c, batchesOf c s.sent <+: (s.returned c).filter Option.isSome) ∧
      (∀ c, (s.returned c).filter Option.isSome =
        batchesOf c s.sent ++ batchesOf c (inTransit (fun _ => false) c s)) ∧
      (∀ l, ∀ p ∈ (s.loader l).held, (fun _ => false) p.origin = l) ∧
      (∀ c, ∀ p ∈ (s.forwarder c).held ++ (s.runner c).held, p.origin = c) ∧
      ∀ p ∈ s.sent, ∃ b, p.batch = some b ∧ b.batch ≠ [] := by
  have h : (exec (step fun _ => false) (start Bool sampleCollector) cancelledRun).isSome := by
    decide +kernel
  have ht := (Option.some_get h).symm
  exact ⟨_, ht, batches_delivered_in_order (fun _ => false) sampleCollector cancelledRun _ ht⟩

end InfraSightGpu.Pipeline
