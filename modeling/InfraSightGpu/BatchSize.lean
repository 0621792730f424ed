import InfraSightGpu.TokenComms
import InfraSightGpu.WindowHistory
import InfraSightGpu.Lib.Wire
import Mathlib.Algebra.Order.BigOperators.Group.List
import Mathlib.Algebra.Order.Ring.Nat

namespace InfraSightGpu.BatchSize

open InfraSightGpu.Events InfraSightGpu.Fingerprint InfraSightGpu.TimeSeries
open InfraSightGpu.TokenComms InfraSightGpu.Lib.Maps InfraSightGpu.Lib.Runs InfraSightGpu.Lib.Wire

variable {F : Type}

def maxMsgSize : ℕ := 64 * 1024 * 1024

/-- The most bytes that an event takes besides its two strings: six for the
PID, five for the tag and length of each string, and the payload. -/
def overhead : Payload F → ℕ
  | .token _ => 51
  | .tw _ => 260

/-- What is used of the protobuf encoding: its size in bytes. A batch is its
type followed by its events, each with its tag and length before it. -/
structure Encoding (F : Type) where
  eventSize : GpuEvent F → ℕ
  elementSize : ℕ → ℕ
  typeSize : String → ℕ
  batchSize : GpuBatch F → ℕ
  batchSize_eq : ∀ b, batchSize b =
    typeSize b.type + (b.batch.map fun e => elementSize (eventSize e)).sum
  lt_elementSize : ∀ n, n < elementSize n
  elementSize_le : ∀ n < 2 ^ 28, elementSize n ≤ n + 5
  le_eventSize : ∀ e, e.comm.length + e.eventType.utf8ByteSize ≤ eventSize e
  eventSize_le : ∀ e, e.comm.length < 2 ^ 28 → e.eventType.utf8ByteSize < 2 ^ 28 →
    eventSize e ≤ e.comm.length + e.eventType.utf8ByteSize + overhead e.payload
  le_typeSize : ∀ type : String, type.utf8ByteSize ≤ typeSize type
  typeSize_le : ∀ type : String, type.utf8ByteSize < 2 ^ 28 → typeSize type ≤ type.utf8ByteSize + 5

section Proto

variable (unset : F → Bool)

def enumNumber : GpuEventType → ℕ
  | .eventUnknown => 0
  | .eventKernelLaunch => 1
  | .eventMemalloc => 2
  | .eventMemcpy => 3
  | .eventStreamSync => 4

def tokenSize (tk : GpuEventToken F) : ℕ :=
  intField 1 tk.timestamp + uintField 2 (enumNumber tk.eventType) +
    doubleField 3 (unset tk.value) + intField 4 tk.dir

def windowSize (tw : GpuTimeWindow F) : ℕ :=
  intField 1 tw.windowStartNs + intField 2 tw.windowEndNs +
    uintField 3 tw.kernelLaunchCount.toNat + uintField 4 tw.memAllocCount.toNat +
    uintField 5 tw.memcpyCount.toNat + uintField 6 tw.streamSyncCount.toNat +
    doubleField 7 (unset tw.avgThreadsPerKernel) + uintField 8 tw.maxThreadsPerKernel.toNat +
    doubleField 9 (unset tw.avgBlocksPerKernel) + uintField 10 tw.totalThreadsLaunched.toNat +
    uintField 11 tw.totalMemAllocBytes.toNat + doubleField 12 (unset tw.avgMemAllocBytes) +
    uintField 13 tw.totalMemcpyBytes.toNat + doubleField 14 (unset tw.avgMemcpyBytes) +
    uintField 15 tw.htodBytes.toNat + uintField 16 tw.dtohBytes.toNat +
    doubleField 17 (unset tw.htodRatio) + doubleField 18 (unset tw.avgSyncTimeNs) +
    uintField 19 tw.maxSyncTimeNs.toNat + doubleField 20 (unset tw.syncFraction) +
    doubleField 21 (unset tw.launchRate) + doubleField 22 (unset tw.memcpyRate) +
    doubleField 23 (unset tw.allocRate)

def payloadSize : Payload F → ℕ
  | .token tk => messageField 4 (tokenSize unset tk)
  | .tw tw => messageField 5 (windowSize unset tw)

def eventSize (e : GpuEvent F) : ℕ :=
  uintField 1 e.pid.toNat + stringField 2 e.comm.length +
    stringField 3 e.eventType.utf8ByteSize + payloadSize unset e.payload

theorem tokenSize_le (tk : GpuEventToken F) : tokenSize unset tk ≤ 33 := by
  have henum : enumNumber tk.eventType < 2 ^ (7 * 1) := by
    cases tk.eventType <;> decide
  have hts := intField_le 1 tk.timestamp
  have htype := uintField_le 2 (by decide) henum
  have hvalue := doubleField_le 3 (unset tk.value)
  have hdir := intField_le 4 tk.dir
  have htag : ∀ field < 16, tagSize field ≤ 1 := fun _ h => tagSize_le_one h
  have h1 := htag 1 (by decide)
  have h2 := htag 2 (by decide)
  have h3 := htag 3 (by decide)
  have h4 := htag 4 (by decide)
  unfold tokenSize
  omega

theorem windowSize_le (tw : GpuTimeWindow F) : windowSize unset tw ≤ 241 := by
  have hone : ∀ field < 16, ∀ n < 2 ^ 64, uintField field n ≤ 11 := fun field hf n hn =>
    (uintField_le_of_lt field hn).trans (Nat.add_le_add_right (tagSize_le_one hf) 10)
  have htwo : ∀ field < 2048, ∀ n < 2 ^ 64, uintField field n ≤ 12 := fun field hf n hn =>
    (uintField_le_of_lt field hn).trans (Nat.add_le_add_right (tagSize_le_two hf) 10)
  have hdone : ∀ field < 16, ∀ x, doubleField field (unset x) ≤ 9 := fun field hf x =>
    (doubleField_le field (unset x)).trans (Nat.add_le_add_right (tagSize_le_one hf) 8)
  have hdtwo : ∀ field < 2048, ∀ x, doubleField field (unset x) ≤ 10 := fun field hf x =>
    (doubleField_le field (unset x)).trans (Nat.add_le_add_right (tagSize_le_two hf) 8)
  have h1 : intField 1 tw.windowStartNs ≤ 11 := hone 1 (by decide) _ (UInt64.toNat_lt _)
  have h2 : intField 2 tw.windowEndNs ≤ 11 := hone 2 (by decide) _ (UInt64.toNat_lt _)
  have h3 := hone 3 (by decide) _ tw.kernelLaunchCount.toNat_lt
  have h4 := hone 4 (by decide) _ tw.memAllocCount.toNat_lt
  have h5 := hone 5 (by decide) _ tw.memcpyCount.toNat_lt
  have h6 := hone 6 (by decide) _ tw.streamSyncCount.toNat_lt
  have h7 := hdone 7 (by decide) tw.avgThreadsPerKernel
  have h8 := hone 8 (by decide) _ tw.maxThreadsPerKernel.toNat_lt
  have h9 := hdone 9 (by decide) tw.avgBlocksPerKernel
  have h10 := hone 10 (by decide) _ tw.totalThreadsLaunched.toNat_lt
  have h11 := hone 11 (by decide) _ tw.totalMemAllocBytes.toNat_lt
  have h12 := hdone 12 (by decide) tw.avgMemAllocBytes
  have h13 := hone 13 (by decide) _ tw.totalMemcpyBytes.toNat_lt
  have h14 := hdone 14 (by decide) tw.avgMemcpyBytes
  have h15 := hone 15 (by decide) _ tw.htodBytes.toNat_lt
  have h16 := htwo 16 (by decide) _ tw.dtohBytes.toNat_lt
  have h17 := hdtwo 17 (by decide) tw.htodRatio
  have h18 := hdtwo 18 (by decide) tw.avgSyncTimeNs
  have h19 := htwo 19 (by decide) _ tw.maxSyncTimeNs.toNat_lt
  have h20 := hdtwo 20 (by decide) tw.syncFraction
  have h21 := hdtwo 21 (by decide) tw.launchRate
  have h22 := hdtwo 22 (by decide) tw.memcpyRate
  have h23 := hdtwo 23 (by decide) tw.allocRate
  unfold windowSize
  omega

theorem payloadSize_le (p : Payload F) : payloadSize unset p + 16 ≤ overhead p := by
  cases p with
  | token tk =>
    have hsize := tokenSize_le unset tk
    have htag : tagSize 4 ≤ 1 := tagSize_le_one (by decide)
    have hmessage := messageField_le 4 (k := 1) (by decide) (hsize.trans_lt (by decide))
    simp only [payloadSize, overhead]
    omega
  | tw tw =>
    have hsize := windowSize_le unset tw
    have htag : tagSize 5 ≤ 1 := tagSize_le_one (by decide)
    have hmessage := messageField_le 5 (k := 2) (by decide) (hsize.trans_lt (by decide))
    simp only [payloadSize, overhead]
    omega

theorem eventSize_le (e : GpuEvent F) (hcomm : e.comm.length < 2 ^ 28)
    (htype : e.eventType.utf8ByteSize < 2 ^ 28) :
    eventSize unset e ≤ e.comm.length + e.eventType.utf8ByteSize + overhead e.payload := by
  have hpid : uintField 1 e.pid.toNat ≤ tagSize 1 + 5 :=
    uintField_le 1 (by decide) (e.pid.toNat_lt.trans (by decide))
  have hname : stringField 2 e.comm.length ≤ tagSize 2 + 4 + e.comm.length :=
    stringField_le 2 (by decide) hcomm
  have hkind : stringField 3 e.eventType.utf8ByteSize ≤ tagSize 3 + 4 + e.eventType.utf8ByteSize :=
    stringField_le 3 (by decide) htype
  have hpayload := payloadSize_le unset e.payload
  have h1 : tagSize 1 ≤ 1 := tagSize_le_one (by decide)
  have h2 : tagSize 2 ≤ 1 := tagSize_le_one (by decide)
  have h3 : tagSize 3 ≤ 1 := tagSize_le_one (by decide)
  unfold eventSize
  omega

/-- The wire format of `gpu_event.proto`. A double is left out when its bits
are those of zero. -/
def proto3 : Encoding F where
  eventSize := eventSize unset
  elementSize := messageField 11
  typeSize type := stringField 10 type.utf8ByteSize
  batchSize b := stringField 10 b.type.utf8ByteSize +
    (b.batch.map fun e => messageField 11 (eventSize unset e)).sum
  batchSize_eq _ := rfl
  lt_elementSize := lt_messageField 11
  elementSize_le n hn := by
    have hsize : messageField 11 n ≤ tagSize 11 + 4 + n := messageField_le 11 (by decide) hn
    have htag : tagSize 11 ≤ 1 := tagSize_le_one (by decide)
    omega
  le_eventSize e := by
    have hcomm := le_stringField 2 e.comm.length
    have htype := le_stringField 3 e.eventType.utf8ByteSize
    unfold eventSize
    omega
  eventSize_le := eventSize_le unset
  le_typeSize type := le_stringField 10 _
  typeSize_le type ht := by
    have hsize : stringField 10 type.utf8ByteSize ≤ tagSize 10 + 4 + type.utf8ByteSize :=
      stringField_le 10 (by decide) ht
    have htag : tagSize 10 ≤ 1 := tagSize_le_one (by decide)
    omega

end Proto

def elementsSize (enc : Encoding F) (events : List (GpuEvent F)) : ℕ :=
  (events.map fun e => enc.elementSize (enc.eventSize e)).sum

def Fits (enc : Encoding F) (batch : Option (GpuBatch F)) : Prop :=
  ∀ b, batch = some b → enc.batchSize b ≤ maxMsgSize

/-- The encoding that takes as much as the laws allow. -/
def widest : Encoding F where
  eventSize e := e.comm.length + e.eventType.utf8ByteSize + overhead e.payload
  elementSize n := n + 5
  typeSize type := type.utf8ByteSize + 5
  batchSize b := b.type.utf8ByteSize + 5 +
    (b.batch.map fun e => e.comm.length + e.eventType.utf8ByteSize + overhead e.payload + 5).sum
  batchSize_eq _ := rfl
  lt_elementSize n := by omega
  elementSize_le _ _ := le_rfl
  le_eventSize _ := Nat.le_add_right _ _
  eventSize_le _ _ _ := le_rfl
  le_typeSize _ := Nat.le_add_right _ _
  typeSize_le _ _ := le_rfl

/-- The lengths of the commands and a number of bytes for each of them. -/
def volume (k : ℕ) (comms : List GoString) : ℕ := (comms.map fun comm => k + comm.length).sum

def commsOf (events : List (GpuEvent F)) : List GoString := events.map GpuEvent.comm

theorem fits_iff (enc : Encoding F) {batch : Option (GpuBatch F)} {type : String}
    (htype : ∀ b, batch = some b → b.type = type ∧ b.batch ≠ []) :
    Fits enc batch ↔ (batchEvents batch ≠ [] →
      enc.typeSize type + elementsSize enc (batchEvents batch) ≤ maxMsgSize) := by
  cases batch with
  | none => exact iff_of_true (fun b hb => by cases hb) fun hne => absurd rfl hne
  | some b =>
    obtain ⟨rfl, hne⟩ := htype b rfl
    constructor
    · intro hfits _
      have hsmall := hfits b rfl
      rw [enc.batchSize_eq] at hsmall
      exact hsmall
    · intro hsmall b' hb'
      cases hb'
      rw [enc.batchSize_eq]
      exact hsmall hne

/-- The events of a collector: of one type and one kind of payload, with a
command out of the 150 bytes of a record. -/
def Uniform (type : String) (k : ℕ) (events : List (GpuEvent F)) : Prop :=
  ∀ e ∈ events, e.eventType = type ∧ overhead e.payload = k ∧ e.comm.length ≤ 150

section Bounds

variable {type : String} {k : ℕ} {events : List (GpuEvent F)} (h : Uniform type k events)
include h

theorem volume_le_elementsSize (enc : Encoding F) :
    volume (type.utf8ByteSize + 1) (commsOf events) ≤ elementsSize enc events := by
  rw [volume, commsOf, List.map_map]
  apply List.sum_le_sum
  intro e he
  obtain ⟨htype, -, -⟩ := h e he
  have hevent := enc.le_eventSize e
  have helement := enc.lt_elementSize (enc.eventSize e)
  rw [htype] at hevent
  simp only [Function.comp_apply]
  omega

theorem elementsSize_le_volume (enc : Encoding F) (hsmall : type.utf8ByteSize + k ≤ 1000) :
    elementsSize enc events ≤ volume (type.utf8ByteSize + k + 5) (commsOf events) := by
  rw [volume, commsOf, List.map_map]
  apply List.sum_le_sum
  intro e he
  obtain ⟨htype, hk, hcomm⟩ := h e he
  have hevent := enc.eventSize_le e (by omega) (by rw [htype]; omega)
  rw [htype, hk] at hevent
  have helement := enc.elementSize_le (enc.eventSize e) (by omega)
  simp only [Function.comp_apply]
  omega

theorem elementsSize_widest :
    elementsSize widest events = volume (type.utf8ByteSize + k + 5) (commsOf events) := by
  rw [elementsSize, volume, commsOf, List.map_map]
  congr 1
  apply List.map_congr_left
  intro e he
  obtain ⟨htype, hk, -⟩ := h e he
  simp only [widest, htype, hk, Function.comp_apply]
  omega

end Bounds

section Batches

variable {batch : Option (GpuBatch F)} {batchType type : String} {k : ℕ}
  (htype : ∀ b, batch = some b → b.type = batchType ∧ b.batch ≠ [])
  (h : Uniform type k (batchEvents batch))
include htype h

theorem volume_le_of_fits (enc : Encoding F) (hsize : batchType.utf8ByteSize ≤ 1000)
    (hfits : Fits enc batch) : batchType.utf8ByteSize +
      volume (type.utf8ByteSize + 1) (commsOf (batchEvents batch)) ≤ maxMsgSize := by
  rw [fits_iff enc htype] at hfits
  by_cases hne : batchEvents batch = []
  · rw [hne]
    exact hsize.trans (by decide)
  · have hsmall := hfits hne
    have hbatch := enc.le_typeSize batchType
    have hevents := volume_le_elementsSize h enc
    omega

/-- Within the laws of the encoding the bound on the events is the exact one. -/
theorem all_fit_iff (hk : type.utf8ByteSize + k ≤ 1000) (hsize : batchType.utf8ByteSize ≤ 1000) :
    (∀ enc : Encoding F, Fits enc batch) ↔ batchType.utf8ByteSize + 5 +
      volume (type.utf8ByteSize + k + 5) (commsOf (batchEvents batch)) ≤ maxMsgSize := by
  constructor
  · intro hall
    have hfits := hall widest
    rw [fits_iff widest htype] at hfits
    by_cases hne : batchEvents batch = []
    · rw [hne]
      exact (Nat.add_le_add_right hsize 5).trans (by decide)
    · rw [← elementsSize_widest h]
      exact hfits hne
  · intro hsmall enc
    rw [fits_iff enc htype]
    intro _
    have hbatch := enc.typeSize_le batchType (by omega)
    have hevents := elementsSize_le_volume h enc hk
    omega

end Batches

theorem volume_perm (k : ℕ) {xs ys : List GoString} (h : xs.Perm ys) : volume k xs = volume k ys :=
  (h.map _).sum_eq

theorem length_le_volume (k : ℕ) (comms : List GoString) :
    comms.length * k ≤ volume k comms := by
  have hle := List.card_nsmul_le_sum (comms.map fun comm => k + comm.length) k (by simp)
  rwa [List.length_map] at hle

theorem perm_of_filter_pid {xs ys : List (GpuEvent F)}
    (h : ∀ p, xs.filter (fun e => e.pid = p) = ys.filter fun e => e.pid = p) : xs.Perm ys := by
  classical
  rw [List.perm_iff_count]
  intro e
  have hcount : ∀ zs : List (GpuEvent F),
      (zs.filter fun x => x.pid = e.pid).count e = zs.count e :=
    fun zs => List.count_filter (by simp)
  rw [← hcount xs, h, hcount ys]

variable [GoFloat F]

theorem length_command (ev : Event) : (command ev).length ≤ 150 := by
  rw [command]
  cases ev.source with
  | none => exact Nat.zero_le _
  | some src =>
    have hsub : (byteSliceToString src.2.toList).Sublist src.2.toList :=
      List.takeWhile_sublist _
    have hle := hsub.length_le
    rw [Vector.length_toList] at hle
    exact hle

section TimeSeries

def eventOf (comm : UInt32 → GoString) (x : Time × Event) : Option (GpuEvent F) :=
  x.2.source.bind fun src => (eventToToken x.1 x.2).map (tokenEvent src.1 (comm src.1))

def lastCommand (calls : List (Time × Event)) (p : UInt32) : GoString :=
  ((calls.filter fun x => x.2.IsOf p).getLast?.map fun x => command x.2).getD []

def eventsOf (calls : List (Time × Event)) : List (GpuEvent F) :=
  calls.filterMap (eventOf (lastCommand calls))

theorem filter_filterMap_eventOf (comm : UInt32 → GoString) (p : UInt32)
    (calls : List (Time × Event)) :
    (calls.filterMap (eventOf (F := F) comm)).filter (fun e => e.pid = p) =
      (calls.filter fun x => x.2.IsOf p).filterMap fun x =>
        (eventToToken x.1 x.2).map (tokenEvent p (comm p)) := by
  induction calls with
  | nil => rfl
  | cons x calls ih =>
    rw [List.filterMap_cons]
    cases hsrc : x.2.source with
    | none =>
      have hno : ¬ x.2.IsOf p := by simp [Event.IsOf, hsrc]
      simp [eventOf, hsrc, hno, ih]
    | some src =>
      have hown : x.2.IsOf p ↔ src.1 = p := by simp [Event.IsOf, hsrc]
      cases htok : eventToToken (F := F) x.1 x.2 with
      | none => by_cases hp : src.1 = p <;> simp [eventOf, hsrc, hown, hp, htok, ih]
      | some tk => by_cases hp : src.1 = p <;> simp [eventOf, hsrc, hown, hp, htok, ih, tokenEvent]

theorem map_of_madeFrom {tks : List (GpuEventToken F)} {calls : List (Time × Event)}
    (h : List.Forall₂ MadeFrom tks calls) (f : GpuEventToken F → GpuEvent F) :
    calls.filterMap (fun x => (eventToToken x.1 x.2).map f) = tks.map f := by
  induction h with
  | nil => rfl
  | cons hmade _ ih => rw [List.filterMap_cons, hmade, ih]; rfl

theorem batchEvents_perm {s : State F} (hi : Inv s) {order : List UInt32}
    (ho : Enumerates order s.trace.tc.buffers) :
    (batchEvents (flush s.trace.tc order).2).Perm (eventsOf s.added) := by
  apply perm_of_filter_pid
  intro p
  rw [flush_events_of s.trace.tc ho p, eventsOf, filter_filterMap_eventOf]
  have hmade := hi.tokens p
  have hcomm := hi.comms p
  rw [addedOf] at hmade hcomm
  rw [map_of_madeFrom hmade, lastCommand]
  cases hlast : (s.added.filter fun x => x.2.IsOf p).getLast? with
  | none =>
    rw [List.getLast?_eq_none_iff.mp hlast, List.forall₂_nil_right_iff] at hmade
    rw [hmade]
    rfl
  | some x => rw [hcomm x hlast]; rfl

def commsFor (calls : List (Time × Event)) : List GoString :=
  calls.filterMap fun x => x.2.source.map fun src => lastCommand calls src.1

theorem commsOf_eventsOf (calls : List (Time × Event)) :
    commsOf (eventsOf (F := F) calls) = commsFor calls := by
  rw [commsOf, eventsOf, List.map_filterMap, commsFor]
  apply List.filterMap_congr
  intro x _
  cases hsrc : x.2.source with
  | none => simp [eventOf, hsrc]
  | some src =>
    have hown : x.2.IsOf src.1 := by simp [Event.IsOf, hsrc]
    obtain ⟨tk, htk⟩ := TokenHistory.isOf_prepare (F := F) x.1 hown
    simp [eventOf, hsrc, htk, tokenEvent]

theorem length_lastCommand (calls : List (Time × Event)) (p : UInt32) :
    (lastCommand calls p).length ≤ 150 := by
  rw [lastCommand]
  cases (calls.filter fun x => x.2.IsOf p).getLast? with
  | none => exact Nat.zero_le _
  | some x => exact length_command x.2

theorem uniform_eventsOf (calls : List (Time × Event)) :
    Uniform "timeserie" 51 (eventsOf (F := F) calls) := by
  intro e he
  obtain ⟨x, -, hmade⟩ := List.mem_filterMap.mp he
  obtain ⟨src, -, hmade⟩ := Option.bind_eq_some_iff.mp hmade
  obtain ⟨tk, -, rfl⟩ := Option.map_eq_some_iff.mp hmade
  exact ⟨rfl, rfl, length_lastCommand calls src.1⟩

def SeriesFits (enc : Encoding F) (s : State F) : TokenHistory.Action → Prop
  | .stamp _ _ => True
  | .commit => True
  | .flush order => Enumerates order s.trace.tc.buffers → Fits enc (flush s.trace.tc order).2

/-- The calls since the last flush are few and the commands of their processes
are short: some bytes for the batch, `k` for each call, and the command. -/
def CallsWithin (base k : ℕ) (s : State F) : TokenHistory.Action → Prop
  | .stamp _ _ => True
  | .commit => True
  | .flush order => Enumerates order s.trace.tc.buffers →
      base + volume k (commsFor s.added) ≤ maxMsgSize

section Flush

variable {s : State F} (hi : Inv s) {order : List UInt32}
  (ho : Enumerates order s.trace.tc.buffers)
include hi ho

theorem uniform_series : Uniform "timeserie" 51 (batchEvents (flush s.trace.tc order).2) :=
  fun e he => uniform_eventsOf s.added e ((batchEvents_perm hi ho).mem_iff.mp he)

theorem commsOf_series :
    (commsOf (batchEvents (flush s.trace.tc order).2)).Perm (commsFor s.added) := by
  rw [← commsOf_eventsOf (F := F)]
  exact (batchEvents_perm hi ho).map _

end Flush

omit [GoFloat F] in
theorem series_type (s : State F) (order : List UInt32) (b : GpuBatch F)
    (hb : (flush s.trace.tc order).2 = some b) : b.type = "gpu_time_series" ∧ b.batch ≠ [] :=
  ⟨flush_type _ order b hb, flush_nonempty _ order b hb⟩

theorem all_seriesFit_iff {s : State F} (hi : Inv s) (a : TokenHistory.Action) :
    (∀ enc : Encoding F, SeriesFits enc s a) ↔ CallsWithin 20 65 s a := by
  cases a with
  | stamp now ev => simp [SeriesFits, CallsWithin]
  | commit => simp [SeriesFits, CallsWithin]
  | flush order =>
    simp only [SeriesFits, CallsWithin]
    rw [forall_comm]
    apply forall_congr'
    intro ho
    rw [all_fit_iff (series_type s order) (uniform_series hi ho) (by decide +kernel)
      (by decide +kernel), volume_perm _ (commsOf_series hi ho)]
    rfl

theorem callsWithin_of_seriesFits {s : State F} (hi : Inv s) {a : TokenHistory.Action}
    (enc : Encoding F) (hfits : SeriesFits enc s a) : CallsWithin 15 10 s a := by
  cases a with
  | stamp now ev => trivial
  | commit => trivial
  | flush order =>
    intro ho
    rw [← volume_perm _ (commsOf_series hi ho)]
    exact volume_le_of_fits (series_type s order) (uniform_series hi ho) enc (by decide +kernel)
      (hfits ho)

end TimeSeries

section Windows

open InfraSightGpu.Aggregator

def expired (D : Duration) (now : Time) (seg : List (Time × Event)) : List (GpuEvent F) :=
  ((WindowHistory.windowOf D seg).bind (report now)).toList

/-- The command of the window of a segment, when it has expired: the first of
its events is older than the duration of a window. -/
def expiredComm (D : Duration) (now : Time) (seg : List (Time × Event)) : Option GoString :=
  seg.head?.bind fun x => if x.1 + D < now then x.2.source.map fun _ => command x.2 else none

theorem comm_windowEvent (w : GPUFingerprint F) :
    (windowEvent (deriveMetrics w)).comm = w.comm := by
  simp only [windowEvent, deriveMetrics]
  split_ifs <;> rfl

theorem commsOf_expired (D : Duration) (now : Time) (seg : List (Time × Event)) :
    commsOf (expired (F := F) D now seg) = (expiredComm D now seg).toList := by
  cases seg with
  | nil => rfl
  | cons x xs =>
    cases hsrc : x.2.source with
    | none => simp [expired, WindowHistory.windowOf, expiredComm, hsrc, commsOf]
    | some src =>
      obtain ⟨-, hcomm, -, hend⟩ := WindowHistory.foldl_record_frame
        (newWindow (F := F) D x.1 src.1 src.2.toList) (x :: xs)
      have hcommand : command x.2 = byteSliceToString src.2.toList := by simp [command, hsrc]
      simp only [expired, WindowHistory.windowOf, expiredComm, hsrc, Option.map_some,
        Option.bind_some, List.head?_cons, report, hend, hcommand]
      change commsOf (if x.1 + D < now then _ else none).toList = _
      by_cases hnow : x.1 + D < now
      · simp only [hnow, if_true, commsOf, Option.toList_some, List.map_cons, List.map_nil,
          comm_windowEvent, hcomm]
        rfl
      · simp [hnow, commsOf]

def WindowsFit (enc : Encoding F) (t : WindowHistory.Trace F) : WindowHistory.Action → Prop
  | .update _ _ => True
  | .flush now order => Enumerates order t.ga.windows → Fits enc (Aggregator.flush t.ga now order).2

/-- Few windows have expired and the commands of their processes are short. -/
def WindowsWithin (D : Duration) (base k : ℕ) (t : WindowHistory.Trace F) :
    WindowHistory.Action → Prop
  | .update _ _ => True
  | .flush now order => Enumerates order t.ga.windows →
      base + volume k (order.filterMap fun p => expiredComm D now (t.segments p).current) ≤
        maxMsgSize

section Flush

variable {D : Duration} {t : WindowHistory.Trace F} (hr : WindowHistory.Refines D t) (now : Time)
  {order : List UInt32} (ho : Enumerates order t.ga.windows)
include hr ho

theorem batchEvents_windows : batchEvents (Aggregator.flush t.ga now order).2 =
    order.flatMap fun p => expired D now (t.segments p).current := by
  rw [Aggregator.flush_snd, (foldl_drainStep (report now) order ho.nodup t.ga.windows []).1,
    List.nil_append, List.filterMap_eq_flatMap_toList]
  simp only [hr.live, expired]

theorem commsOf_windows : commsOf (batchEvents (Aggregator.flush t.ga now order).2) =
    order.filterMap fun p => expiredComm D now (t.segments p).current := by
  rw [batchEvents_windows hr now ho, commsOf, List.map_flatMap, List.filterMap_eq_flatMap_toList]
  simp only [← commsOf_expired (F := F), commsOf]

theorem uniform_windows :
    Uniform "GPU_TIME_WINDOW" 260 (batchEvents (Aggregator.flush t.ga now order).2) := by
  intro e he
  have hmem : e.comm ∈ commsOf (batchEvents (Aggregator.flush t.ga now order).2) :=
    List.mem_map_of_mem he
  rw [commsOf_windows hr now ho] at hmem
  obtain ⟨p, -, hp⟩ := List.mem_filterMap.mp hmem
  rw [batchEvents_windows hr now ho] at he
  obtain ⟨q, -, he⟩ := List.mem_flatMap.mp he
  obtain ⟨w, -, hw⟩ := Option.bind_eq_some_iff.mp (Option.mem_toList.mp he)
  obtain ⟨-, rfl⟩ := Aggregator.report_eq_some.mp hw
  refine ⟨rfl, rfl, ?_⟩
  rw [expiredComm, Option.bind_eq_some_iff] at hp
  obtain ⟨x, -, hx⟩ := hp
  rw [Option.ite_none_right_eq_some, Option.map_eq_some_iff] at hx
  obtain ⟨-, -, -, hcomm⟩ := hx
  rw [← hcomm]
  exact length_command x.2

end Flush

theorem windows_type (t : WindowHistory.Trace F) (now : Time) (order : List UInt32)
    (b : GpuBatch F) (hb : (Aggregator.flush t.ga now order).2 = some b) :
    b.type = "gpu_time_window" ∧ b.batch ≠ [] :=
  ⟨Aggregator.flush_type _ now order b hb, Aggregator.flush_nonempty _ now order b hb⟩

theorem all_windowsFit_iff {D : Duration} {t : WindowHistory.Trace F}
    (hr : WindowHistory.Refines D t) (a : WindowHistory.Action) :
    (∀ enc : Encoding F, WindowsFit enc t a) ↔ WindowsWithin D 20 280 t a := by
  cases a with
  | update now ev => simp [WindowsFit, WindowsWithin]
  | flush now order =>
    simp only [WindowsFit, WindowsWithin]
    rw [forall_comm]
    apply forall_congr'
    intro ho
    rw [all_fit_iff (windows_type t now order) (uniform_windows hr now ho) (by decide +kernel)
      (by decide +kernel), commsOf_windows hr now ho]
    rfl

theorem windowsWithin_of_windowsFit {D : Duration} {t : WindowHistory.Trace F}
    (hr : WindowHistory.Refines D t) {a : WindowHistory.Action} (enc : Encoding F)
    (hfits : WindowsFit enc t a) : WindowsWithin D 15 16 t a := by
  cases a with
  | update now ev => trivial
  | flush now order =>
    intro ho
    rw [← commsOf_windows hr now ho]
    exact volume_le_of_fits (windows_type t now order) (uniform_windows hr now ho) enc
      (by decide +kernel) (hfits ho)

end Windows

/-- The batches of a run can be sent, by every encoding with these laws, exactly
when at each flush the events are few enough and the commands short enough. No
such encoding makes them smaller than the lengths of their strings. -/
theorem batches_fit_iff :
    (∀ interval acts,
      ((∀ enc : Encoding F, Along step (SeriesFits enc) (start interval) acts) ↔
        Along step (CallsWithin 20 65) (start (F := F) interval) acts) ∧
      ∀ enc : Encoding F, Along step (SeriesFits enc) (start interval) acts →
        Along step (CallsWithin 15 10) (start (F := F) interval) acts) ∧
    ∀ D now acts,
      ((∀ enc : Encoding F,
        Along WindowHistory.step (WindowsFit enc) (WindowHistory.start D now) acts) ↔
        Along WindowHistory.step (WindowsWithin D 20 280)
          (WindowHistory.start (F := F) D now) acts) ∧
      ∀ enc : Encoding F,
        Along WindowHistory.step (WindowsFit enc) (WindowHistory.start D now) acts →
        Along WindowHistory.step (WindowsWithin D 15 16)
          (WindowHistory.start (F := F) D now) acts := by
  refine ⟨fun interval acts => ⟨?_, fun enc h => ?_⟩, fun D now acts => ⟨?_, fun enc h => ?_⟩⟩
  · rw [along_forall, along_congr fun _ _ a h => all_seriesFit_iff (inv_run h) a]
  · intro pre a post he t ht
    exact callsWithin_of_seriesFits (inv_run ht) enc (h pre a post he t ht)
  · rw [along_forall,
      along_congr fun _ _ a h => all_windowsFit_iff (WindowHistory.refines_run h) a]
  · intro pre a post he t ht
    exact windowsWithin_of_windowsFit (WindowHistory.refines_run ht) enc (h pre a post he t ht)

def floodRun : ℕ → List TokenHistory.Action
  | 0 => []
  | m + 1 => floodRun m ++ [.stamp 1 (sampleLaunch 7 32), .commit]

theorem floodRun_exec (m : ℕ) : ∃ s, exec step (start (F := F) 5) (floodRun m) = some s ∧
    s.trace.pending = none ∧ (held 7 s.trace.tc).length = m ∧
    ∀ p, p ∈ s.trace.tc.buffers ↔ p = 7 ∧ 0 < m := by
  induction m with
  | zero =>
    refine ⟨_, rfl, rfl, rfl, fun p => ?_⟩
    simp [start, TokenHistory.start, newTimeSeriesCollector, Finmap.notMem_empty]
  | succ m ih =>
    obtain ⟨s, hs, hidle, hheld, hkeys⟩ := ih
    rw [floodRun, exec_append, hs]
    simp only [step, TokenHistory.step, hidle, prepare, eventToToken, sampleLaunch, exec_cons,
      exec_nil, Option.map_some, Option.bind_some]
    refine ⟨_, rfl, rfl, ?_, fun p => ?_⟩
    · rw [held_commit]
      simp [hheld]
    · simp only [commit, Finmap.mem_insert, hkeys]
      by_cases hp : p = 7 <;> simp [hp]

theorem floodRun_not_fits (enc : Encoding F) {m : ℕ} (hm : maxMsgSize < m * 10) :
    ∃ s, exec step (start 5) (floodRun m) = some s ∧ ¬ SeriesFits enc s (.flush [7]) := by
  obtain ⟨s, hs, -, hheld, hkeys⟩ := floodRun_exec (F := F) m
  have hpos : 0 < m := by omega
  have ho : Enumerates [7] s.trace.tc.buffers :=
    enumerates_singleton fun p => by rw [hkeys, and_iff_left hpos]
  refine ⟨s, hs, fun hfits => ?_⟩
  have hwithin := callsWithin_of_seriesFits (inv_run hs) enc hfits ho
  have hlarge := length_le_volume 10 (commsFor s.added)
  rw [← (commsOf_series (inv_run hs) ho).length_eq, flush_snd, List.flatMap_singleton, commsOf,
    List.length_map, List.length_map, hheld] at hlarge
  omega

/-- Seven million launches between two flushes are more than the client sends. -/
theorem flood_too_large : ∃ s, exec step (start (F := ℚ) 5) (floodRun 7000000) = some s ∧
    ¬ SeriesFits (proto3 fun x => x = 0) s (.flush [7]) :=
  floodRun_not_fits _ (by decide)

end InfraSightGpu.BatchSize
