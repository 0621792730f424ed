import InfraSightGpu.BatchSize

namespace InfraSightGpu.BatchText

open InfraSightGpu.Events InfraSightGpu.TimeSeries InfraSightGpu.TokenComms
open InfraSightGpu.BatchSize InfraSightGpu.Lib.Maps InfraSightGpu.Lib.Runs

variable {F : Type}

def ValidUTF8 (s : GoString) : Prop := (ByteArray.mk s.toArray).IsValidUTF8

instance (s : GoString) : Decidable (ValidUTF8 s) :=
  inferInstanceAs (Decidable (ByteArray.IsValidUTF8 _))

def stringBytes (s : String) : GoString := s.toByteArray.data.toList

def stringFields (b : GpuBatch F) : List GoString :=
  stringBytes b.type :: b.batch.flatMap fun e => [e.comm, stringBytes e.eventType]

/-- What is used of marshalling a protobuf message: it fails on a string field
that is not valid UTF-8, and on nothing else that a batch can hold. -/
structure Marshalling (F : Type) where
  marshals : GpuBatch F → Prop
  marshals_iff : ∀ b, marshals b ↔ ∀ s ∈ stringFields b, ValidUTF8 s

def checkFields : Marshalling F where
  marshals b := ((stringFields b).all fun s => decide (ValidUTF8 s)) = true
  marshals_iff b := by simp

theorem validUTF8_stringBytes (s : String) : ValidUTF8 (stringBytes s) := by
  have hbytes : ByteArray.mk (stringBytes s).toArray = s.toByteArray := by
    rw [stringBytes, Array.toArray_toList]
  rw [ValidUTF8, hbytes]
  exact s.isValidUTF8

section Flush

variable (m : Marshalling F)

def Marshals (batch : Option (GpuBatch F)) : Prop := ∀ b, batch = some b → m.marshals b

theorem marshals_iff (batch : Option (GpuBatch F)) :
    Marshals m batch ↔ ∀ comm ∈ commsOf (batchEvents batch), ValidUTF8 comm := by
  cases batch with
  | none => simp [Marshals, batchEvents, commsOf]
  | some b =>
    have hfields : Marshals m (some b) ↔ ∀ s ∈ stringFields b, ValidUTF8 s := by
      rw [← m.marshals_iff]
      simp [Marshals]
    rw [hfields, stringFields, List.forall_mem_cons]
    constructor
    · rintro ⟨-, hall⟩ comm hcomm
      obtain ⟨e, he, rfl⟩ := List.mem_map.mp hcomm
      exact hall e.comm (List.mem_flatMap.mpr ⟨e, he, List.mem_cons_self⟩)
    · intro hall
      refine ⟨validUTF8_stringBytes b.type, fun s hs => ?_⟩
      obtain ⟨e, he, hs⟩ := List.mem_flatMap.mp hs
      rw [List.mem_cons, List.mem_singleton] at hs
      obtain rfl | rfl := hs
      · exact hall e.comm (List.mem_map_of_mem he)
      · exact validUTF8_stringBytes e.eventType

end Flush

variable [GoFloat F]

def SeriesMarshals (m : Marshalling F) (s : State F) : TokenHistory.Action → Prop
  | .stamp _ _ => True
  | .commit => True
  | .flush order => Enumerates order s.trace.tc.buffers → Marshals m (flush s.trace.tc order).2

/-- The last command of every process with a call since the last flush is text. -/
def CommandsAreText (s : State F) : TokenHistory.Action → Prop
  | .stamp _ _ => True
  | .commit => True
  | .flush order => Enumerates order s.trace.tc.buffers →
      ∀ x ∈ s.added, ∀ p, x.2.IsOf p → ValidUTF8 (lastCommand s.added p)

theorem forall_commsFor (calls : List (Time × Event)) (Q : GoString → Prop) :
    (∀ comm ∈ commsFor calls, Q comm) ↔
      ∀ x ∈ calls, ∀ p, x.2.IsOf p → Q (lastCommand calls p) := by
  constructor
  · intro hall x hx p hp
    obtain ⟨comm, hsrc⟩ := WindowHistory.source_of_isOf hp
    exact hall _ (List.mem_filterMap.mpr ⟨x, hx, by rw [hsrc]; rfl⟩)
  · intro hall comm hcomm
    obtain ⟨x, hx, hmade⟩ := List.mem_filterMap.mp hcomm
    obtain ⟨src, hsrc, rfl⟩ := Option.map_eq_some_iff.mp hmade
    apply hall x hx
    rw [Event.IsOf, hsrc, Option.map_some]

theorem seriesMarshals_iff (m : Marshalling F) {s : State F} (hi : Inv s)
    (a : TokenHistory.Action) : SeriesMarshals m s a ↔ CommandsAreText s a := by
  cases a with
  | stamp now ev => exact Iff.rfl
  | commit => exact Iff.rfl
  | flush order =>
    apply forall_congr'
    intro ho
    rw [marshals_iff, ← forall_commsFor]
    apply forall_congr'
    intro comm
    rw [(commsOf_series hi ho).mem_iff]

def WindowsMarshal (m : Marshalling F) (t : WindowHistory.Trace F) : WindowHistory.Action → Prop
  | .update _ _ => True
  | .flush now order =>
      Enumerates order t.ga.windows → Marshals m (Aggregator.flush t.ga now order).2

/-- The first command of every window that has expired is text. -/
def FirstCommandsAreText (D : Duration) (t : WindowHistory.Trace F) :
    WindowHistory.Action → Prop
  | .update _ _ => True
  | .flush now order => Enumerates order t.ga.windows →
      ∀ p ∈ t.ga.windows, ∀ comm ∈ expiredComm D now (t.segments p).current, ValidUTF8 comm

theorem windowsMarshal_iff (m : Marshalling F) {D : Duration} {t : WindowHistory.Trace F}
    (hr : WindowHistory.Refines D t) (a : WindowHistory.Action) :
    WindowsMarshal m t a ↔ FirstCommandsAreText D t a := by
  cases a with
  | update now ev => exact Iff.rfl
  | flush now order =>
    apply forall_congr'
    intro ho
    rw [marshals_iff, commsOf_windows hr now ho]
    constructor
    · intro hall p hp comm hcomm
      exact hall comm (List.mem_filterMap.mpr ⟨p, (ho.mem_iff p).mpr hp, hcomm⟩)
    · intro hall comm hcomm
      obtain ⟨p, hp, hcomm⟩ := List.mem_filterMap.mp hcomm
      exact hall p ((ho.mem_iff p).mp hp) comm hcomm

/-- Every batch of a run can be marshalled exactly when, at each flush, the
commands that the collectors kept are text. One that is not holds back the
events of every process in the batch. -/
theorem batches_marshal_iff (m : Marshalling F) :
    (∀ interval acts, Along step (SeriesMarshals m) (start interval) acts ↔
      Along step CommandsAreText (start (F := F) interval) acts) ∧
    ∀ D now acts, Along WindowHistory.step (WindowsMarshal m) (WindowHistory.start D now) acts ↔
      Along WindowHistory.step (FirstCommandsAreText D)
        (WindowHistory.start (F := F) D now) acts :=
  ⟨fun _ _ => along_congr fun _ _ a h => seriesMarshals_iff m (inv_run h) a,
    fun _ _ _ => along_congr fun _ _ a h =>
      windowsMarshal_iff m (WindowHistory.refines_run h) a⟩

/-- A copy by a process whose name is cut off inside a letter of two bytes. -/
def cutNameCopy : Event :=
  .memcpy ⟨3, Vector.replicate 3 0, 8, Vector.ofFn fun i => if i.val = 0 then 195 else 0, 64, 0⟩

def cutNameRun : List TokenHistory.Action :=
  [.stamp 1 (threadCopy 97), .commit, .stamp 2 cutNameCopy, .commit]

theorem cutNameRun_not_marshals :
    ∃ s, exec step (start (F := ℚ) 5) cutNameRun = some s ∧
      ¬ SeriesMarshals checkFields s (.flush [7, 8]) := by
  obtain ⟨s, hs, ho, x, hx, hp, hcut⟩ : ∃ s, exec step (start (F := ℚ) 5) cutNameRun = some s ∧
      Enumerates [7, 8] s.trace.tc.buffers ∧
      ∃ x ∈ s.added, x.2.IsOf 8 ∧ ¬ ValidUTF8 (lastCommand s.added 8) := by
    decide +kernel
  refine ⟨s, hs, fun hm => ?_⟩
  have htext := (seriesMarshals_iff checkFields (inv_run hs) _).mp hm
  exact hcut (htext ho x hx 8 hp)

end InfraSightGpu.BatchText
