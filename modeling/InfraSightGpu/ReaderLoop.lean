import InfraSightGpu.Pipeline
import InfraSightGpu.Records

namespace InfraSightGpu.ReaderLoop

open InfraSightGpu.Events InfraSightGpu.Pipeline InfraSightGpu.Records
open InfraSightGpu.Lib.Layout InfraSightGpu.Lib.Runs

variable {F : Type}

inductive ReadResult where
  | record (rawSample : List UInt8)
  | errClosed
  | otherError
deriving DecidableEq

/-- Where the reader is: at the select of its loop, in the call of `Rb.Read`,
or in `sendToCollectors`, with the index of the next collector. -/
inductive Reader where
  | selecting
  | reading
  | sending (ev : Event) (next : ℕ)
  | returned
deriving DecidableEq

/-- The calls made of each collector are ghost state. -/
structure State (F : Type) where
  cancelled : Bool
  reader : Reader
  collectors : List (Collector F)
  calls : ℕ → List Call

def start (collectors : List (Collector F)) : State F where
  cancelled := false
  reader := .selecting
  collectors := collectors
  calls := fun _ => []

/-- The flushes are those of the runners of the collectors. -/
inductive Action where
  | select
  | read (r : ReadResult)
  | send (now : Time)
  | flush (i : ℕ) (now : Time) (order : List UInt32)
  | cancel
deriving DecidableEq

def callAt [GoFloat F] (s : State F) (i : ℕ) (x : Call) : Option (State F) :=
  (s.collectors[i]?.bind (·.call x)).map fun c => { s with
    collectors := s.collectors.set i c
    calls := Function.update s.calls i (s.calls i ++ [x]) }

def step [GoFloat F] (s : State F) : Action → Option (State F)
  | .select =>
    match s.reader with
    | .selecting => some { s with reader := if s.cancelled then .returned else .reading }
    | _ => none
  | .read r =>
    match s.reader, r with
    | .reading, .record raw => some { s with
        reader := match decodeRecord raw with
          | some ev => .sending ev 0
          | none => .selecting }
    | .reading, .errClosed => some { s with reader := .returned }
    | .reading, .otherError => some { s with reader := .selecting }
    | _, _ => none
  | .send now =>
    match s.reader with
    | .sending ev next =>
      if next < s.collectors.length then
        callAt { s with reader := .sending ev (next + 1) } next (.update now ev)
      else some { s with reader := .selecting }
    | _ => none
  | .flush i now order => callAt s i (.flush now order)
  | .cancel => some { s with cancelled := true }

def structSize (flag : UInt8) : Option ℕ :=
  if flag = 1 then some 208
  else if flag = 2 then some 168
  else if flag = 3 then some 176
  else if flag = 4 then some 184
  else none

def WellFormed (raw : List UInt8) : Prop :=
  ∃ size, raw.head?.bind structSize = some size ∧ size ≤ raw.length

/-- The event of a result of `Rb.Read`, if it is a well-formed record. -/
def readEvent : ReadResult → Option Event
  | .record raw => decodeRecord raw
  | .errClosed => none
  | .otherError => none

def eventsRead (acts : List Action) : List Event :=
  acts.filterMap fun
    | .read r => readEvent r
    | _ => none

def received (xs : List Call) : List Event :=
  xs.filterMap fun
    | .update _ ev => some ev
    | .flush _ _ => none

/-- The event that the collector is still to receive of the record in hand. -/
def pending (s : State F) (i : ℕ) : List Event :=
  match s.reader with
  | .sending ev next => if next ≤ i then [ev] else []
  | _ => []

theorem decodes_struct {ts : List Ty} (fs : Fields ts) (f : Vals ts → Event) {raw : List UInt8}
    (hdec : ∀ rest, decodeRecord (raw ++ rest) = (binaryRead fs (raw ++ rest)).map f)
    (hlen : packedSize fs ≤ raw.length) :
    ∃ ev, ∀ rest, decodeRecord (raw ++ rest) = some ev := by
  refine ⟨f (readFields fs raw), fun rest => ?_⟩
  have hlong : ¬ (raw ++ rest).length < packedSize fs := by
    rw [List.length_append]
    omega
  rw [hdec, binaryRead, if_neg hlong, readFields_append fs hlen, Option.map_some]

theorem decodeRecord_of_wellFormed {raw : List UInt8} (h : WellFormed raw) :
    ∃ ev, ∀ rest, decodeRecord (raw ++ rest) = some ev := by
  obtain ⟨size, hsize, hlen⟩ := h
  cases raw with
  | nil => cases hsize
  | cons flag raw =>
    simp only [List.head?_cons, Option.bind_some, structSize] at hsize
    split_ifs at hsize with h1 h2 h3 h4
    · subst h1
      cases hsize
      exact decodes_struct kernelLaunchFields _ (fun rest => rfl) hlen
    · subst h2
      cases hsize
      exact decodes_struct memallocFields _ (fun rest => rfl) hlen
    · subst h3
      cases hsize
      exact decodes_struct memcpyFields _ (fun rest => rfl) hlen
    · subst h4
      cases hsize
      exact decodes_struct streamFields _ (fun rest => rfl) hlen

theorem decodeRecord_eq_none {raw : List UInt8} (h : ¬ WellFormed raw) :
    decodeRecord raw = none := by
  cases raw with
  | nil => rfl
  | cons flag raw =>
    have hshort : ∀ size, structSize flag = some size → (flag :: raw).length < size :=
      fun size hsize => not_le.mp fun hlen => h ⟨size, hsize, hlen⟩
    simp only [decodeRecord]
    split_ifs with h1 h2 h3 h4
    · exact congrArg (Option.map _) (if_pos (hshort 208 (by rw [h1]; rfl)))
    · exact congrArg (Option.map _) (if_pos (hshort 168 (by rw [h2]; rfl)))
    · exact congrArg (Option.map _) (if_pos (hshort 176 (by rw [h3]; rfl)))
    · exact congrArg (Option.map _) (if_pos (hshort 184 (by rw [h4]; rfl)))
    · rfl

variable [GoFloat F]

theorem callAt_eq_some {s u : State F} {i : ℕ} {x : Call} :
    callAt s i x = some u ↔ ∃ c d, s.collectors[i]? = some c ∧ c.call x = some d ∧
      u = { s with
        collectors := s.collectors.set i d
        calls := Function.update s.calls i (s.calls i ++ [x]) } := by
  simp only [callAt, Option.map_eq_some_iff, Option.bind_eq_some_iff]
  constructor
  · rintro ⟨d, ⟨c, hc, hd⟩, rfl⟩
    exact ⟨c, d, hc, hd, rfl⟩
  · rintro ⟨c, d, hc, hd, rfl⟩
    exact ⟨d, ⟨c, hc, hd⟩, rfl⟩

def Replayed (collectors : List (Collector F)) (s : State F) : Prop :=
  s.collectors.length = collectors.length ∧
    ∀ i c, collectors[i]? = some c → ∃ d, s.collectors[i]? = some d ∧
      exec Collector.call c (s.calls i) = some d

theorem replayed_callAt {collectors : List (Collector F)} {s u : State F} {i : ℕ} {x : Call}
    (hr : Replayed collectors s) (hs : callAt s i x = some u) : Replayed collectors u := by
  obtain ⟨c', d', hc', hd', rfl⟩ := callAt_eq_some.mp hs
  refine ⟨by rw [List.length_set, hr.1], fun j c hc => ?_⟩
  obtain ⟨d, hd, hexec⟩ := hr.2 j c hc
  by_cases hj : i = j
  · subst hj
    have hlt : i < s.collectors.length := (List.getElem?_eq_some_iff.mp hc').1
    have hcd : d = c' := Option.some.inj (hd.symm.trans hc')
    refine ⟨d', List.getElem?_set_self hlt, ?_⟩
    dsimp only
    rw [Function.update_self]
    exact exec_snoc_eq_some.mpr ⟨d, hexec, hcd ▸ hd'⟩
  · refine ⟨d, (List.getElem?_set_ne hj).trans hd, ?_⟩
    dsimp only
    rw [Function.update_of_ne (Ne.symm hj)]
    exact hexec

/-- The reader has looped until now: it returns when the context is cancelled
or the ring buffer closed. -/
structure Inv (collectors : List (Collector F)) (acts : List Action) (s : State F) : Prop where
  replayed : Replayed collectors s
  received : ∀ i < collectors.length, received (s.calls i) ++ pending s i = eventsRead acts
  looping : s.reader = .returned → .cancel ∈ acts ∨ .read .errClosed ∈ acts
  cancelled : s.cancelled = true → .cancel ∈ acts

theorem inv_start (collectors : List (Collector F)) : Inv collectors [] (start collectors) where
  replayed := ⟨rfl, fun i c hc => ⟨c, hc, rfl⟩⟩
  received _ _ := rfl
  looping h := by cases h
  cancelled h := by cases h

theorem eventsRead_append (as bs : List Action) :
    eventsRead (as ++ bs) = eventsRead as ++ eventsRead bs :=
  List.filterMap_append

section Steps

variable {collectors : List (Collector F)} {acts : List Action} {s u : State F}
  (hi : Inv collectors acts s)
include hi

theorem inv_select (hs : step s .select = some u) : Inv collectors (acts ++ [.select]) u := by
  simp only [step] at hs
  split at hs <;> cases hs
  next hr =>
  refine ⟨hi.replayed, fun i hlt => ?_, fun hret => ?_, fun hc => ?_⟩
  · have hrec := hi.received i hlt
    rw [eventsRead_append, ← hrec]
    cases s.cancelled <;> simp [pending, hr, eventsRead]
  · refine .inl (List.mem_append_left _ (hi.cancelled ?_))
    cases hc : s.cancelled
    · simp [hc] at hret
    · rfl
  · exact List.mem_append_left _ (hi.cancelled hc)

theorem inv_read {r : ReadResult} (hs : step s (.read r) = some u) :
    Inv collectors (acts ++ [.read r]) u := by
  have hcancelled : s.cancelled = true → .cancel ∈ acts ++ [.read r] :=
    fun hc => List.mem_append_left _ (hi.cancelled hc)
  simp only [step] at hs
  split at hs <;> cases hs
  · next raw hr =>
    refine ⟨hi.replayed, fun i hlt => ?_, fun hret => ?_, hcancelled⟩
    · have hrec := hi.received i hlt
      rw [eventsRead_append, ← hrec]
      cases hd : decodeRecord raw <;> simp [pending, hr, hd, eventsRead, readEvent]
    · cases hd : decodeRecord raw <;> simp [hd] at hret
  · next hr =>
    refine ⟨hi.replayed, fun i hlt => ?_, fun _ => .inr (by simp), hcancelled⟩
    have hrec := hi.received i hlt
    rw [eventsRead_append, ← hrec]
    simp [pending, hr, eventsRead, readEvent]
  · next hr =>
    refine ⟨hi.replayed, fun i hlt => ?_, fun hret => (by cases hret), hcancelled⟩
    have hrec := hi.received i hlt
    rw [eventsRead_append, ← hrec]
    simp [pending, hr, eventsRead, readEvent]

theorem inv_send {now : Time} (hs : step s (.send now) = some u) :
    Inv collectors (acts ++ [.send now]) u := by
  have hlooping : ∀ r : Reader, r ≠ .returned → r = .returned →
      .cancel ∈ acts ++ [.send now] ∨ .read .errClosed ∈ acts ++ [.send now] :=
    fun r hne he => absurd he hne
  have hcancelled : s.cancelled = true → .cancel ∈ acts ++ [.send now] :=
    fun hc => List.mem_append_left _ (hi.cancelled hc)
  simp only [step] at hs
  split at hs <;> try cases hs
  next ev next hr =>
  split_ifs at hs with hnext
  · have hreplayed := replayed_callAt (s := { s with reader := .sending ev (next + 1) })
      hi.replayed hs
    obtain ⟨c, d, hc, hd, rfl⟩ := callAt_eq_some.mp hs
    refine ⟨hreplayed, fun i hlt => ?_, hlooping _ (by simp), hcancelled⟩
    have hrec := hi.received i hlt
    rw [eventsRead_append, ← hrec]
    by_cases hin : i = next
    · subst hin
      simp [pending, hr, eventsRead, received]
    · have hle : next + 1 ≤ i ↔ next ≤ i := by omega
      simp [pending, hr, eventsRead, hin, hle]
  · cases hs
    refine ⟨hi.replayed, fun i hlt => ?_, hlooping _ (by simp), hcancelled⟩
    have hrec := hi.received i hlt
    have hle : ¬ next ≤ i := by
      rw [hi.replayed.1] at hnext
      omega
    rw [eventsRead_append, ← hrec]
    simp [pending, hr, eventsRead, hle]

theorem inv_flush {i : ℕ} {now : Time} {order : List UInt32}
    (hs : step s (.flush i now order) = some u) :
    Inv collectors (acts ++ [.flush i now order]) u := by
  have hreplayed := replayed_callAt hi.replayed hs
  obtain ⟨c, d, hc, hd, rfl⟩ := callAt_eq_some.mp hs
  refine ⟨hreplayed, fun j hlt => ?_, fun hret => ?_, fun hc => ?_⟩
  · have hrec := hi.received j hlt
    rw [eventsRead_append, ← hrec]
    by_cases hj : j = i
    · subst hj
      simp [pending, eventsRead, received]
    · simp [pending, eventsRead, hj]
  · exact (hi.looping hret).imp (List.mem_append_left _) (List.mem_append_left _)
  · exact List.mem_append_left _ (hi.cancelled hc)

theorem inv_step {a : Action} (hs : step s a = some u) : Inv collectors (acts ++ [a]) u := by
  cases a with
  | select => exact inv_select hi hs
  | read r => exact inv_read hi hs
  | send now => exact inv_send hi hs
  | flush i now order => exact inv_flush hi hs
  | cancel =>
    cases hs
    refine ⟨hi.replayed, fun i hlt => ?_, fun _ => .inl (by simp), fun _ => by simp⟩
    have hrec := hi.received i hlt
    rw [eventsRead_append, ← hrec]
    simp [pending, eventsRead]

end Steps

theorem inv_run {collectors : List (Collector F)} {acts : List Action} {s : State F}
    (h : exec step (start collectors) acts = some s) : Inv collectors acts s :=
  exec_induction (I := Inv collectors) (inv_start collectors)
    (fun _ _ _ _ _ hi hs => inv_step hi hs) h

theorem callAt_reader (s : State F) (r : Reader) (i : ℕ) (x : Call) :
    callAt { s with reader := r } i x = (callAt s i x).map fun u => { u with reader := r } := by
  simp only [callAt, Option.map_map]
  rfl

def Action.IsFlush : Action → Prop
  | .flush _ _ _ => True
  | _ => False

theorem exec_flushes {acts : List Action} (hf : ∀ a ∈ acts, a.IsFlush) (s : State F) (r : Reader) :
    exec step { s with reader := r } acts =
      (exec step s acts).map fun u => { u with reader := r } := by
  induction acts generalizing s with
  | nil => rfl
  | cons a acts ih =>
    rw [List.forall_mem_cons] at hf
    cases a with
    | flush i now order =>
      rw [exec_cons, exec_cons, step, callAt_reader]
      change _ = Option.map _ ((callAt s i (.flush now order)).bind _)
      cases callAt s i (.flush now order) with
      | none => rfl
      | some t => exact ih hf.2 t
    | select | read r | send now | cancel => exact absurd hf.1 id

theorem step_read_of_none {t : State F} {r : ReadResult} (hr : readEvent r = none)
    (hopen : r ≠ .errClosed) :
    step { t with reader := .reading } (.read r) = some { t with reader := .selecting } := by
  cases r with
  | record raw =>
    have hd : decodeRecord raw = none := hr
    simp [step, hd]
  | errClosed => exact absurd rfl hopen
  | otherError => rfl

/-- A run is the same without the record that is skipped, or the error. -/
theorem exec_skip {s : State F} (hs : s.reader = .selecting) (hc : s.cancelled = false)
    {r : ReadResult} (hr : readEvent r = none) (hopen : r ≠ .errClosed) {mid : List Action}
    (hmid : ∀ a ∈ mid, a.IsFlush) (post : List Action) :
    exec step s (.select :: (mid ++ .read r :: post)) = exec step s (mid ++ post) := by
  have hsel : step s .select = some { s with reader := .reading } := by
    simp [step, hs, hc]
  have hself : s = { s with reader := .selecting } := by rw [← hs]
  have hback := exec_flushes hmid s .selecting
  rw [← hself] at hback
  rw [exec_cons, hsel, Option.bind_some, exec_append, exec_flushes hmid s .reading, exec_append]
  cases hexec : exec step s mid with
  | none => rfl
  | some t =>
    have ht : t = { t with reader := .selecting } := by
      rw [hexec] at hback
      exact Option.some.inj hback
    rw [Option.map_some, Option.bind_some, exec_cons, step_read_of_none hr hopen, ← ht]

theorem step_read_collectors {s u : State F} {r : ReadResult}
    (hs : step s (.read r) = some u) : u.collectors = s.collectors ∧ u.calls = s.calls := by
  simp only [step] at hs
  split at hs <;> cases hs <;> exact ⟨rfl, rfl⟩

/-- Each collector is the result of its own flushes and of one update for every
well-formed record, in order, the record in hand possibly still to come. The
other records and the errors have no effect and do not end the loop. -/
theorem records_folded (collectors : List (Collector F)) (acts : List Action) (s : State F)
    (h : exec step (start collectors) acts = some s) :
    (∀ i c, collectors[i]? = some c → received (s.calls i) ++ pending s i = eventsRead acts ∧
        ∃ d, s.collectors[i]? = some d ∧ exec Collector.call c (s.calls i) = some d) ∧
      (∀ raw, (WellFormed raw → ∃ ev, ∀ rest, decodeRecord (raw ++ rest) = some ev) ∧
        (¬ WellFormed raw → decodeRecord raw = none)) ∧
      (s.reader = .returned → .cancel ∈ acts ∨ .read .errClosed ∈ acts) ∧
      (∀ r u, step s (.read r) = some u → u.collectors = s.collectors ∧ u.calls = s.calls) ∧
      ∀ r, readEvent r = none → r ≠ .errClosed → s.reader = .selecting → s.cancelled = false →
        ∀ mid, (∀ a ∈ mid, a.IsFlush) → ∀ post,
          exec step s (.select :: (mid ++ .read r :: post)) = exec step s (mid ++ post) := by
  have hi := inv_run h
  refine ⟨fun i c hc => ⟨?_, hi.replayed.2 i c hc⟩, fun raw => ?_, hi.looping, ?_, ?_⟩
  · exact hi.received i (List.getElem?_eq_some_iff.mp hc).1
  · exact ⟨decodeRecord_of_wellFormed, decodeRecord_eq_none⟩
  · exact fun _ _ => step_read_collectors
  · exact fun r hr hopen hs hc mid hmid post => exec_skip hs hc hr hopen hmid post

def noisyRun : List Action :=
  [.select, .read .otherError, .select, .read (.record []), .select, .read (.record [9, 9]),
    .select, .read (.record [1, 0, 0, 0]), .select,
    .read (.record (sampleRecord.rawSample fun _ => 0)), .send 3, .flush 0 9 [4321], .send 4,
    .flush 1 9 [4321], .send 5, .select, .read (.record [3]), .cancel, .select]

theorem records_folded_noisyRun : ∃ s,
    exec step (start [sampleCollector false, sampleCollector true]) noisyRun = some s ∧
    ∀ i c, [sampleCollector false, sampleCollector true][i]? = some c →
      received (s.calls i) ++ pending s i = eventsRead noisyRun := by
  have h : (exec step (start [sampleCollector false, sampleCollector true]) noisyRun).isSome := by
    decide +kernel
  have hs := (Option.some_get h).symm
  exact ⟨_, hs, fun i c hc => ((records_folded _ noisyRun _ hs).1 i c hc).1⟩

end InfraSightGpu.ReaderLoop
