import InfraSightGpu.Delivery
import InfraSightGpu.Draining

namespace InfraSightGpu.Completion

open InfraSightGpu.Events InfraSightGpu.Fingerprint InfraSightGpu.TimeSeries
open InfraSightGpu.Pipeline InfraSightGpu.System InfraSightGpu.TracerOrder
open InfraSightGpu.Delivery InfraSightGpu.Draining
open InfraSightGpu.Lib.Maps InfraSightGpu.Lib.Runs InfraSightGpu.Lib.Segments
open InfraSightGpu.Lib.Quiescence

variable {F Loader : Type} {n : Nat}

/-- The steps that the goroutines take without a tick, a new record, a failure
or the cancellation. -/
def isInternal : System.Action n Loader → Bool
  | .select _ => true
  | .read _ _ => true
  | .updateWindows _ _ => true
  | .stampToken _ _ => true
  | .commitToken _ => true
  | .startLoader _ => true
  | .pipeline (.startCollector _) => true
  | .pipeline a => isMove a
  | _ => false

def readerRank : Tracer.Reader → ℕ
  | .idle => 0
  | .committing => 1
  | .updatingSeries _ => 2
  | .updatingWindows _ => 3

def tracerRank (t : Tracer.State F n) : ℕ :=
  5 * t.kernel.gpuRingbuf.length + readerRank t.reader

def loopRank : ReadLoop → ℕ
  | .selecting => 1
  | _ => 0

def unstarted : Goroutine F (Loader × Kind) → ℕ
  | .notStarted => 1
  | _ => 0

def readersRank [Fintype Loader] (s : System.State F n Loader) : ℕ :=
  (∑ l, tracerRank (s.tracer l)) + ∑ l, loopRank (s.readLoop l)

def goroutinesRank [Fintype Loader] (q : Pipeline.State F Loader (Loader × Kind)) : ℕ :=
  2 * (∑ l, unstarted (q.loader l)) + (∑ c, unstarted (q.runner c)) + Draining.rank q

/-- The number of internal steps that are left, at most. -/
def rank [Fintype Loader] (s : System.State F n Loader) : ℕ :=
  readersRank s + goroutinesRank s.pipeline

section Ranks

theorem unstarted_update {J : Type} [Fintype J] [DecidableEq J]
    (f : J → Goroutine F (Loader × Kind)) (i : J) {g : Goroutine F (Loader × Kind)}
    (hg : unstarted g = 0) :
    (∑ j, unstarted (Function.update f i g j)) + unstarted (f i) = ∑ j, unstarted (f j) := by
  have h := sum_update unstarted f i g
  rwa [hg, Nat.add_zero] at h

theorem unstarted_le {J : Type} [Fintype J] [DecidableEq J]
    (f : J → Goroutine F (Loader × Kind)) (i : J) {g : Goroutine F (Loader × Kind)}
    (hg : unstarted g = 0) :
    (∑ j, unstarted (Function.update f i g j)) ≤ ∑ j, unstarted (f j) :=
  Nat.le_of_add_right_le (unstarted_update f i hg).le

theorem move_or_start {a : Pipeline.Action Loader (Loader × Kind)}
    (ha : isInternal (n := n) (.pipeline a)) :
    isHandover a ∧ (isMove a ∨ ∃ c, a = .startCollector c) := by
  cases a with
  | startCollector c => exact ⟨rfl, .inr ⟨c, rfl⟩⟩
  | handToForwarder | handToLoader | enqueue | dequeue => exact ⟨rfl, .inl rfl⟩
  | finishSend o => exact ⟨rfl, .inl ha⟩
  | update | startLoader | tick | stopRunner | stopForwarder | stopLoader | stopClient
  | cancel => cases ha

variable [Fintype Loader] [DecidableEq Loader]

theorem readersRank_withTracer (s : System.State F n Loader) (l : Loader)
    (t : Tracer.State F n) :
    readersRank (s.withTracer l t) + tracerRank (s.tracer l) =
      readersRank s + tracerRank t := by
  have hsum := sum_update tracerRank s.tracer l t
  simp only [readersRank, State.withTracer]
  omega

theorem readersRank_withReadLoop (s : System.State F n Loader) (l : Loader) (r : ReadLoop) :
    readersRank (s.withReadLoop l r) + loopRank (s.readLoop l) = readersRank s + loopRank r := by
  have hsum := sum_update loopRank s.readLoop l r
  simp only [readersRank, State.withReadLoop]
  omega

theorem rank_withTracer {s : System.State F n Loader} {l : Loader} {t : Tracer.State F n}
    (h : tracerRank t < tracerRank (s.tracer l)) : rank (s.withTracer l t) < rank s := by
  have hsum := readersRank_withTracer s l t
  have hsame : goroutinesRank (s.withTracer l t).pipeline = goroutinesRank s.pipeline := rfl
  rw [rank, rank, hsame]
  omega

variable [GoFloat F]

theorem unstarted_step {q p : Pipeline.State F Loader (Loader × Kind)}
    {a : Pipeline.Action Loader (Loader × Kind)} (h : Pipeline.step Prod.fst q a = some p) :
    (∑ l, unstarted (p.loader l)) ≤ (∑ l, unstarted (q.loader l)) ∧
      (∑ c, unstarted (p.runner c)) ≤ ∑ c, unstarted (q.runner c) := by
  cases Pipeline.steps_of_eq_some h with
  | update | quietTick | stopForwarder | dequeue | keepSending | giveUp | stopClient | cancel =>
    exact ⟨le_rfl, le_rfl⟩
  | startLoader | handToLoader | stopLoader | enqueue => exact ⟨unstarted_le _ _ rfl, le_rfl⟩
  | startCollector | tick | stopRunner | handToForwarder => exact ⟨le_rfl, unstarted_le _ _ rfl⟩

theorem goroutinesRank_handover {q p : Pipeline.State F Loader (Loader × Kind)}
    {a : Pipeline.Action Loader (Loader × Kind)} (h : Pipeline.step Prod.fst q a = some p)
    (ha : isMove a ∨ ∃ c, a = .startCollector c) : goroutinesRank p < goroutinesRank q := by
  obtain ⟨hloader, hrunner⟩ := unstarted_step h
  obtain hmove | ⟨c, rfl⟩ := ha
  · have hlower := rank_of_move h hmove
    simp only [goroutinesRank]
    omega
  · have hkeep := rank_le_of_step h rfl
    cases Pipeline.steps_of_eq_some h with
    | startCollector hr hf =>
    have hstart := unstarted_update q.runner c (g := .waiting) rfl
    rw [hr] at hstart
    change _ + 1 = _ at hstart
    simp only [goroutinesRank]
    omega

theorem goroutinesRank_startLoader {q p : Pipeline.State F Loader (Loader × Kind)} {l : Loader}
    (h : Pipeline.step Prod.fst q (.startLoader l) = some p) :
    goroutinesRank p + 2 ≤ goroutinesRank q := by
  have hkeep := rank_le_of_step h rfl
  cases Pipeline.steps_of_eq_some h with
  | startLoader hl =>
  have hstart := unstarted_update q.loader l (g := .waiting) rfl
  rw [hl] at hstart
  change _ + 1 = _ at hstart
  simp only [goroutinesRank]
  omega

theorem tracerRank_read {t u : Tracer.State F n} {garbage : Nat → UInt8}
    (h : Tracer.step t (.read garbage) = some u) : tracerRank u + 2 ≤ tracerRank t := by
  cases TracerOrder.steps_of_eq_some h with
  | @read _ r rest hr hring =>
  have hreader : readerRank (((Records.decodeRecord (r.rawSample garbage)).map
      Tracer.Reader.updatingWindows).getD .idle) ≤ 3 := by
    cases Records.decodeRecord (r.rawSample garbage) <;> simp [readerRank]
  simp only [tracerRank, hring, List.length_cons]
  omega

theorem rank_internal {s u : System.State F n Loader} {a : System.Action n Loader}
    (ha : isInternal a) (h : System.step s a = some u) : rank u < rank s := by
  cases System.steps_of_eq_some h with
  | program | tick | readError => cases ha
  | @pipeline a p hhandover hp =>
    have hpipe := pipeline_withPipeline (collector_of_handover hhandover hp).1
    have hsame : readersRank (s.withPipeline p) = readersRank s := rfl
    have hlower := goroutinesRank_handover hp (move_or_start ha).2
    rw [rank, rank, hpipe, hsame]
    omega
  | @startLoader l p hp =>
    have hcol : p.collector = s.pipeline.collector := by
      cases Pipeline.steps_of_eq_some hp with
      | startLoader => rfl
    have hpipe : ((s.withPipeline p).withReadLoop l .selecting).pipeline = p :=
      pipeline_withPipeline hcol
    have hloop := readersRank_withReadLoop (s.withPipeline p) l .selecting
    have hsame : readersRank (s.withPipeline p) = readersRank s := rfl
    have hlower := goroutinesRank_startLoader hp
    have hone : loopRank .selecting = 1 := rfl
    rw [rank, rank, hpipe]
    omega
  | @select l hl hr =>
    have hloop := readersRank_withReadLoop s l (if s.cancelled then .returned else .reading)
    have hzero : loopRank (if s.cancelled then .returned else .reading) = 0 := by
      split <;> rfl
    rw [hl, hzero] at hloop
    have hone : loopRank .selecting = 1 := rfl
    have hsame : ∀ r, (s.withReadLoop l r).pipeline = s.pipeline := fun _ => rfl
    rw [rank, rank, hsame]
    omega
  | @read l garbage t hl ht =>
    have htracer := tracerRank_read ht
    have hsum := readersRank_withTracer s l t
    have hloop := readersRank_withReadLoop (s.withTracer l t) l .selecting
    have hone : loopRank .selecting = 1 := rfl
    have hsame : goroutinesRank ((s.withTracer l t).withReadLoop l .selecting).pipeline =
        goroutinesRank s.pipeline := rfl
    rw [rank, rank, hsame]
    omega
  | updateWindows ht =>
    apply rank_withTracer
    cases TracerOrder.steps_of_eq_some ht with
    | updateWindows hr => simp [tracerRank, readerRank, hr]
  | @stampToken l now t ht =>
    apply rank_withTracer
    cases TracerOrder.steps_of_eq_some ht with
    | @stampToken _ ev hr hpending =>
    have hreader : readerRank (if (prepare (F := F) now ev).isSome then .committing else .idle) <
        readerRank (s.tracer l).reader := by
      rw [hr]
      split <;> simp [readerRank]
    simp only [tracerRank]
    omega
  | commitToken ht =>
    apply rank_withTracer
    cases TracerOrder.steps_of_eq_some ht with
    | commitToken hr hpending => simp [tracerRank, readerRank, hr]

theorem lowers_internal : Lowers (S := System.State F n Loader) System.step (isInternal ·)
    (fun _ => True) rank where
  keeps _ _ _ _ _ _ := trivial
  lower _ _ _ _ ha h := rank_internal ha h

end Ranks

section Quiet

variable [DecidableEq Loader] [GoFloat F]

theorem loader_notStarted {q p : Pipeline.State F Loader (Loader × Kind)}
    {a : Pipeline.Action Loader (Loader × Kind)} (h : Pipeline.step Prod.fst q a = some p)
    (ha : ∀ l, a ≠ .startLoader l) (l : Loader) (hl : q.loader l = .notStarted) :
    p.loader l = .notStarted := by
  have hupdate : ∀ l' g, q.loader l' ≠ .notStarted →
      Function.update q.loader l' g l = .notStarted := by
    intro l' g hl'
    have hne : l ≠ l' := fun he => hl' (he ▸ hl)
    rw [Function.update_of_ne hne, hl]
  cases Pipeline.steps_of_eq_some h with
  | update | startCollector | quietTick | tick | stopRunner | handToForwarder | stopForwarder
  | dequeue | keepSending | giveUp | stopClient | cancel => exact hl
  | startLoader => exact absurd rfl (ha _)
  | handToLoader hf hw => exact hupdate _ _ (by simp [hw])
  | stopLoader hw => exact hupdate _ _ (by simp [hw])
  | enqueue hw hch => exact hupdate _ _ (by simp [hw])

theorem uncancelled_of_step {q p : Pipeline.State F Loader (Loader × Kind)}
    {a : Pipeline.Action Loader (Loader × Kind)} (h : Pipeline.step Prod.fst q a = some p)
    (hc : p.cancelled = false) : q.cancelled = false := by
  cases Pipeline.steps_of_eq_some h with
  | cancel => cases hc
  | update | startLoader | startCollector | quietTick | tick | stopRunner | handToForwarder
  | stopForwarder | handToLoader | stopLoader | enqueue | dequeue | keepSending | giveUp
  | stopClient => exact hc

/-- The goroutine that reads a ring runs from the start of its loader until
the cancellation, at least. -/
structure Reading (s : System.State F n Loader) : Prop where
  started : ∀ l, s.loader l ≠ .notStarted → s.readLoop l ≠ .notStarted
  running : s.cancelled = false → ∀ l, s.readLoop l ≠ .returned

omit [GoFloat F] in
theorem reading_withReadLoop {s : System.State F n Loader} (hr : Reading s) (l : Loader)
    {r : ReadLoop} (hstarted : r ≠ .notStarted) (hrunning : s.cancelled = false → r ≠ .returned) :
    Reading (s.withReadLoop l r) := by
  refine ⟨fun k hk => ?_, fun hc k => ?_⟩
  · by_cases hkl : k = l
    · subst hkl
      simpa [State.withReadLoop] using hstarted
    · simpa [State.withReadLoop, hkl] using hr.started k hk
  · by_cases hkl : k = l
    · subst hkl
      simpa [State.withReadLoop] using hrunning hc
    · simpa [State.withReadLoop, hkl] using hr.running hc k

theorem reading_withPipeline {s : System.State F n Loader} (hr : Reading s)
    {a : Pipeline.Action Loader (Loader × Kind)} {p : Pipeline.State F Loader (Loader × Kind)}
    (hp : Pipeline.step Prod.fst s.pipeline a = some p) (ha : ∀ l, a ≠ .startLoader l) :
    Reading (s.withPipeline p) :=
  ⟨fun l hl => hr.started l fun hn => hl (loader_notStarted hp ha l hn),
    fun hc => hr.running (uncancelled_of_step hp hc)⟩

theorem reading_step {s u : System.State F n Loader} {a : System.Action n Loader}
    (hr : Reading s) (h : System.step s a = some u) : Reading u := by
  cases System.steps_of_eq_some h with
  | program | updateWindows | stampToken | commitToken => exact ⟨hr.started, hr.running⟩
  | @select l hl hidle =>
    refine reading_withReadLoop hr l ?_ fun hc => ?_
    · split <;> simp
    · simp [hc]
  | read | readError =>
    refine reading_withReadLoop ?_ _ (by simp) (by simp)
    exact ⟨hr.started, hr.running⟩
  | tick hp ht =>
    have hpipe := reading_withPipeline hr hp (by simp)
    exact ⟨hpipe.started, hpipe.running⟩
  | @startLoader l p hp =>
    refine ⟨fun k hk => ?_, fun hc k => ?_⟩
    · by_cases hkl : k = l
      · subst hkl
        simp [State.withReadLoop]
      · cases Pipeline.steps_of_eq_some hp with
        | startLoader hl =>
        have hstarted := hr.started k
        simp only [State.withReadLoop, State.withPipeline, State.pipeline] at hk ⊢
        rw [Function.update_of_ne hkl] at hk ⊢
        exact hstarted hk
    · by_cases hkl : k = l
      · subst hkl
        simp [State.withReadLoop]
      · simp only [State.withReadLoop, State.withPipeline]
        rw [Function.update_of_ne hkl]
        exact hr.running (uncancelled_of_step hp hc) k
  | pipeline ha hp =>
    refine reading_withPipeline hr hp fun l hl => ?_
    rw [hl] at ha
    cases ha

variable {timeWindow : Duration} {now : Loader → Time} {acts : List (System.Action n Loader)}
  {s : System.State F n Loader}

theorem reading_run
    (h : exec System.step (System.start F n timeWindow now) acts = some s) : Reading s :=
  exec_induction (I := fun _ s => Reading s)
    ⟨fun _ hl => absurd rfl hl, fun _ _ hl => by cases hl⟩
    (fun _ _ _ _ _ hr hs => reading_step hr hs) h

/-- The reader has nothing in hand and waits at the empty ring. -/
structure AtRest (s : System.State F n Loader) (l : Loader) : Prop where
  loop : s.readLoop l = .reading
  reader : (s.tracer l).reader = .idle
  ring : (s.tracer l).kernel.gpuRingbuf = []

theorem idle_of_none (h : exec System.step (System.start F n timeWindow now) acts = some s)
    (l : Loader) (hwindows : System.step s (.updateWindows l 0) = none)
    (hstamp : System.step s (.stampToken l 0) = none)
    (hcommit : System.step s (.commitToken l) = none) : (s.tracer l).reader = .idle := by
  have hconsistent := Tracer.consistent_run (tracer_run h l)
  cases hr : (s.tracer l).reader with
  | idle => rfl
  | updatingWindows ev =>
    simp [System.step, trace, Tracer.step, hr, WindowHistory.step] at hwindows
  | updatingSeries ev =>
    have hpending := hconsistent.pending (by simp [hr])
    simp [System.step, trace, Tracer.step, hr, TokenHistory.step, hpending] at hstamp
  | committing =>
    obtain ⟨v, hv⟩ := Option.ne_none_iff_exists'.mp ((ordered_tracer h l).committing hr)
    simp [System.step, trace, Tracer.step, hr, TokenHistory.step, hv] at hcommit

theorem atRest_of_none {l : Loader} (hloop : s.readLoop l = .reading)
    (hreader : (s.tracer l).reader = .idle)
    (hread : System.step s (.read l fun _ => 0) = none) : AtRest s l := by
  refine ⟨hloop, hreader, ?_⟩
  cases hring : (s.tracer l).kernel.gpuRingbuf with
  | nil => rfl
  | cons r rest =>
    simp [System.step, trace, Tracer.step, Tracer.readRecord, hloop, hreader, hring] at hread

theorem atRest_of_quiet (h : exec System.step (System.start F n timeWindow now) acts = some s)
    (hc : s.cancelled = false) (hq : Quiet System.step (isInternal ·) s) (l : Loader) :
    AtRest s l := by
  have hread := reading_run h
  have hloader : s.loader l ≠ .notStarted := by
    intro hl
    have hstart := hq (.startLoader l) rfl
    simp [System.step, stepPipeline, Pipeline.step, State.pipeline, hl] at hstart
  have hreader := idle_of_none h l (hq (.updateWindows l 0) rfl) (hq (.stampToken l 0) rfl)
    (hq (.commitToken l) rfl)
  have hloop : s.readLoop l = .reading := by
    cases hl : s.readLoop l with
    | notStarted => exact absurd hl (hread.started l hloader)
    | selecting =>
      have hstep := hq (.select l) rfl
      simp [System.step, hl, hreader] at hstep
    | reading => rfl
    | returned => exact absurd hl (hread.running hc l)
  exact atRest_of_none hloop hreader (hq (.read l fun _ => 0) rfl)

omit [DecidableEq Loader] [GoFloat F] in
theorem internal_of_move {a : Pipeline.Action Loader (Loader × Kind)} (ha : isMove a) :
    isInternal (n := n) (.pipeline a) ∧ isHandover a := by
  cases a with
  | handToForwarder | handToLoader | enqueue | dequeue => exact ⟨rfl, rfl⟩
  | finishSend o => exact ⟨ha, rfl⟩
  | update | startLoader | startCollector | tick | stopRunner | stopForwarder | stopLoader
  | stopClient | cancel => cases ha

theorem moves_of_quiet (hq : Quiet System.step (isInternal ·) s) :
    Quiet (Pipeline.step Prod.fst) (isMove ·) s.pipeline := by
  intro a ha
  obtain ⟨hinternal, hhandover⟩ := internal_of_move (n := n) ha
  have hstep := hq (.pipeline a) hinternal
  simpa [System.step, hhandover, stepPipeline] using hstep

theorem onTheWay_of_quiet (h : exec System.step (System.start F n timeWindow now) acts = some s)
    (hc : s.cancelled = false) (hclient : s.client ≠ .returned)
    (hq : Quiet System.step (isInternal ·) s) (c : Loader × Kind) : onTheWay c s = [] := by
  obtain ⟨bs, hbs⟩ := pipeline_run h
  exact inTransit_of_quiet (open_run hbs) hc hclient (moves_of_quiet hq) c

structure Settled (s : System.State F n Loader) : Prop where
  atRest : ∀ l, AtRest s l
  loader : ∀ l, s.loader l = .waiting
  collector : ∀ c, s.runner c = .waiting ∧ s.forwarder c = .waiting
  channel : s.eventCh = []
  client : s.client = .selecting

instance decidableWaiting : (g : Goroutine F (Loader × Kind)) → Decidable (g = .waiting)
  | .waiting => isTrue rfl
  | .notStarted => isFalse (by simp)
  | .holding _ => isFalse (by simp)
  | .returned => isFalse (by simp)

instance decidableSelecting : (c : ClientLoop F (Loader × Kind)) → Decidable (c = .selecting)
  | .selecting => isTrue rfl
  | .sendingGpuBatch _ => isFalse (by simp)
  | .returned => isFalse (by simp)

instance decidableSettled [Fintype Loader] (s : System.State F n Loader) :
    Decidable (Settled s) :=
  decidable_of_iff ((∀ l, s.readLoop l = .reading ∧ (s.tracer l).reader = .idle ∧
      (s.tracer l).kernel.gpuRingbuf = []) ∧ (∀ l, s.loader l = .waiting) ∧
      (∀ c, s.runner c = .waiting ∧ s.forwarder c = .waiting) ∧ s.eventCh.isEmpty ∧
      s.client = .selecting)
    ⟨fun ⟨ht, hl, hc, hch, hclient⟩ =>
      ⟨fun l => ⟨(ht l).1, (ht l).2.1, (ht l).2.2⟩, hl, hc, List.isEmpty_iff.mp hch, hclient⟩,
    fun hs => ⟨fun l => ⟨(hs.atRest l).loop, (hs.atRest l).reader, (hs.atRest l).ring⟩, hs.loader,
      hs.collector, List.isEmpty_iff.mpr hs.channel, hs.client⟩⟩

theorem quiet_of_settled (hs : Settled s) : Quiet System.step (isInternal ·) s := by
  intro a ha
  cases a with
  | program | tick | readError => cases ha
  | select l => simp [System.step, (hs.atRest l).loop]
  | read l garbage =>
    simp [System.step, trace, Tracer.step, Tracer.readRecord, (hs.atRest l).loop,
      (hs.atRest l).ring]
  | updateWindows l now =>
    simp [System.step, trace, Tracer.step, (hs.atRest l).reader]
  | stampToken l now => simp [System.step, trace, Tracer.step, (hs.atRest l).reader]
  | commitToken l => simp [System.step, trace, Tracer.step, (hs.atRest l).reader]
  | startLoader l =>
    simp [System.step, stepPipeline, Pipeline.step, State.pipeline, hs.loader l]
  | pipeline a =>
    have hnone : Pipeline.step Prod.fst s.pipeline a = none := by
      cases a with
      | update | startLoader | tick | stopRunner | stopForwarder | stopLoader | stopClient
      | cancel => cases ha
      | startCollector c =>
        simp [Pipeline.step, State.pipeline, hs.loader, (hs.collector c).1, (hs.collector c).2]
      | handToForwarder c => simp [Pipeline.step, State.pipeline, (hs.collector c).1]
      | handToLoader c => simp [Pipeline.step, State.pipeline, (hs.collector c).2]
      | enqueue l => simp [Pipeline.step, State.pipeline, hs.loader l]
      | dequeue => simp [Pipeline.step, State.pipeline, hs.channel]
      | finishSend o => simp [Pipeline.step, State.pipeline, hs.client]
    simp [System.step, stepPipeline, hnone]

/-- Nothing internal happens in a tracer whose reader waits at the empty ring. -/
theorem tracer_of_internal {u : System.State F n Loader} {l : Loader}
    (hidle : (s.tracer l).reader = .idle) (hring : (s.tracer l).kernel.gpuRingbuf = [])
    {a : System.Action n Loader} (ha : isInternal a) (h : System.step s a = some u) :
    u.tracer l = s.tracer l := by
  have hother : ∀ k t, k ≠ l → (s.withTracer k t).tracer l = s.tracer l :=
    fun k t hk => State.tracer_of_ne s hk.symm t
  cases System.steps_of_eq_some h with
  | program | tick | readError => cases ha
  | select | startLoader | pipeline => rfl
  | read hl ht =>
    refine hother _ _ ?_
    rintro rfl
    cases TracerOrder.steps_of_eq_some ht with
    | read hr hne => simp [hring] at hne
  | updateWindows ht =>
    refine hother _ _ ?_
    rintro rfl
    cases TracerOrder.steps_of_eq_some ht with
    | updateWindows hr => simp [hidle] at hr
  | stampToken ht =>
    refine hother _ _ ?_
    rintro rfl
    cases TracerOrder.steps_of_eq_some ht with
    | stampToken hr hp => simp [hidle] at hr
  | commitToken ht =>
    refine hother _ _ ?_
    rintro rfl
    cases TracerOrder.steps_of_eq_some ht with
    | commitToken hr hp => simp [hidle] at hr

theorem tracer_of_internals {t : System.State F n Loader} {l : Loader}
    (hidle : (s.tracer l).reader = .idle) (hring : (s.tracer l).kernel.gpuRingbuf = [])
    {more : List (System.Action n Loader)} (hmore : ∀ a ∈ more, isInternal a)
    (h : exec System.step s more = some t) : t.tracer l = s.tracer l := by
  refine keeps_run (I := fun u => u.tracer l = s.tracer l) ?_ rfl hmore h
  intro u a v hsame ha hv
  rw [tracer_of_internal (by rw [hsame, hidle]) (by rw [hsame, hring]) ha hv, hsame]

def Serving (s : System.State F n Loader) : Prop :=
  s.cancelled = false ∧ s.client ≠ .returned

theorem serving_pipeline {q p : Pipeline.State F Loader (Loader × Kind)}
    {a : Pipeline.Action Loader (Loader × Kind)} (h : Pipeline.step Prod.fst q a = some p)
    (ha : ∀ o, a = .finishSend o → isMove a) (hstop : a ≠ .stopClient) (hcancel : a ≠ .cancel)
    (hs : q.cancelled = false ∧ q.client ≠ .returned) :
    p.cancelled = false ∧ p.client ≠ .returned := by
  cases Pipeline.steps_of_eq_some h with
  | update | startLoader | startCollector | quietTick | tick | stopRunner | handToForwarder
  | stopForwarder | handToLoader | stopLoader | enqueue => exact hs
  | dequeue | keepSending => exact ⟨hs.1, by simp⟩
  | giveUp hc ho =>
    have hmove := ha _ rfl
    obtain rfl | rfl := ho <;> cases hmove
  | stopClient => exact absurd rfl hstop
  | cancel => exact absurd rfl hcancel

theorem serving_step {u : System.State F n Loader} {a : System.Action n Loader}
    (ha : isInternal a ∨ ∃ c now order, a = .tick c now order)
    (h : System.step s a = some u) (hs : Serving s) : Serving u := by
  cases System.steps_of_eq_some h with
  | program | select | read | readError | updateWindows | stampToken | commitToken => exact hs
  | tick hp ht => exact serving_pipeline hp (by simp) (by simp) (by simp) hs
  | startLoader hp => exact serving_pipeline hp (by simp) (by simp) (by simp) hs
  | @pipeline a p hhandover hp =>
    have hinternal : isInternal (n := n) (.pipeline a) := ha.resolve_right (by simp)
    refine serving_pipeline hp ?_ ?_ ?_ hs
    · rintro o rfl
      exact hinternal
    · rintro rfl
      cases hinternal
    · rintro rfl
      cases hinternal

theorem serving_run {t : System.State F n Loader} {more : List (System.Action n Loader)}
    (hmore : ∀ a ∈ more, isInternal a ∨ ∃ c now order, a = .tick c now order)
    (h : exec System.step s more = some t) (hs : Serving s) : Serving t :=
  keeps_run (fun _ _ _ hs ha hu => serving_step ha hu hs) hs hmore h

theorem tracer_of_tick {u : System.State F n Loader} {c : Loader × Kind} {now : Time}
    {order : List UInt32} (h : System.step s (.tick c now order) = some u) :
    Tracer.step (s.tracer c.1) (flushAction now order c.2) = some (u.tracer c.1) := by
  simpa [tracerView] using tracer_step h c.1

omit [DecidableEq Loader] in
theorem lookup_flush_all {ga : Aggregator.GPUAggregator F} {now : Time} {order : List UInt32}
    (ho : Enumerates order ga.windows)
    (hend : ∀ p w, ga.windows.lookup p = some w → w.windowEnd < now) (p : UInt32) :
    (Aggregator.flush ga now order).1.windows.lookup p = none := by
  rw [Aggregator.lookup_flush ga now ho]
  cases hw : ga.windows.lookup p with
  | none => rfl
  | some w => simp [Aggregator.report, hend p w hw]

theorem tracer_of_ticks {u : System.State F n Loader} {l : Loader} {t₁ t₂ : Time}
    {order₁ order₂ : List UInt32}
    (hend : ∀ p w, (s.tracer l).windows.ga.windows.lookup p = some w → w.windowEnd < t₂)
    (h : exec System.step s [.tick (l, .series) t₁ order₁, .tick (l, .windows) t₂ order₂] =
      some u) :
    (u.tracer l).reader = (s.tracer l).reader ∧
      (u.tracer l).kernel = (s.tracer l).kernel ∧
      (u.tracer l).submitted = (s.tracer l).submitted ∧
      (∀ p, held p (u.tracer l).series.tc = []) ∧
      ∀ p, (u.tracer l).windows.ga.windows.lookup p = none := by
  obtain ⟨v, hv, h⟩ := Option.bind_eq_some_iff.mp h
  obtain ⟨w, hw, h⟩ := Option.bind_eq_some_iff.mp h
  cases h
  have hseries := tracer_of_tick hv
  have hwindows := tracer_of_tick hw
  dsimp only at hseries hwindows
  generalize v.tracer l = x at hseries hwindows
  generalize u.tracer l = y at hwindows ⊢
  cases TracerOrder.steps_of_eq_some hseries with
  | flushSeries ho₁ =>
  cases TracerOrder.steps_of_eq_some hwindows with
  | flushWindows ho₂ =>
  exact ⟨rfl, rfl, rfl, fun p => held_flush _ _ p, lookup_flush_all ho₂ hend⟩

/-- What the client has sent and the collectors keep tells of every record, when
nothing internal is left to do. -/
theorem told_of_quiet (h : exec System.step (System.start F n timeWindow now) acts = some s)
    (hc : s.cancelled = false) (hclient : s.client ≠ .returned)
    (hq : Quiet System.step (isInternal ·) s) (l : Loader) (p : UInt32) :
    List.Forall₂ Tells (tokensIn p (batchesOf (l, .series) s.sent) ++
        held p (s.tracer l).series.tc) (eventsOf p (s.tracer l).submitted) ∧
      ∃ hist : History WindowHistory.Timed,
        eventsOf p (s.tracer l).submitted = hist.flat.map Prod.snd ∧
        (eventsIn p (batchesOf (l, .windows) s.sent)).map some =
          hist.closed.map (fun seg => (WindowHistory.windowOf timeWindow seg).map
            fun w => windowEvent (deriveMetrics w)) ∧
        (s.tracer l).windows.ga.windows.lookup p =
          WindowHistory.windowOf timeWindow hist.current := by
  have hrest := atRest_of_quiet h hc hq l
  have hnone := onTheWay_of_quiet h hc hclient hq
  have hconsistent := Tracer.consistent_run (tracer_run h l)
  constructor
  · obtain ⟨evs, hevs, htells⟩ := (ordered_tracer h l).series p
    rw [TokenHistory.tokensOf, tokens_flushed h, hnone, TokenHistory.pendingTokens,
      hconsistent.pending (by simp [hrest.reader])] at htells
    rw [hevs, hrest.reader, hrest.ring]
    simpa [batchesOf, tokensIn, eventsIn, readForSeries, eventsOf] using htells
  · refine ⟨(s.tracer l).windows.segments p, ?_, ?_, hconsistent.refines.live p⟩
    · rw [(ordered_tracer h l).windows p, hrest.reader, hrest.ring]
      simp [readForWindows, eventsOf]
    · rw [← hconsistent.refines.reported p, windows_flushed h, hnone]
      simp [batchesOf, eventsIn]

end Quiet

section Runs

variable [Fintype Loader] [DecidableEq Loader] [GoFloat F]

/-- Until the cancellation, and while the client keeps sending, whatever was
submitted leaves the ring. Internal steps can be taken until none is left, at
most `rank s` of them in any order. Then every ring and reader is empty, and the
records of a process are those whose tokens were sent or are buffered, and
those of the windows sent and of the open one. -/
theorem submitted_settles (timeWindow : Duration) (now : Loader → Time)
    (acts : List (System.Action n Loader)) (s : System.State F n Loader)
    (h : exec System.step (System.start F n timeWindow now) acts = some s)
    (hc : s.cancelled = false) (hclient : s.client ≠ .returned) :
    (∀ more t, (∀ a ∈ more, isInternal a) → exec System.step s more = some t →
      more.length ≤ rank s) ∧
    (∃ more t, (∀ a ∈ more, isInternal a) ∧ exec System.step s more = some t ∧
      Quiet System.step (isInternal ·) t) ∧
    (Quiet System.step (isInternal ·) s → ∀ l, AtRest s l ∧ ∀ p,
      List.Forall₂ Tells (tokensIn p (batchesOf (l, .series) s.sent) ++
          held p (s.tracer l).series.tc) (eventsOf p (s.tracer l).submitted) ∧
      ∃ hist : History WindowHistory.Timed,
        eventsOf p (s.tracer l).submitted = hist.flat.map Prod.snd ∧
        (eventsIn p (batchesOf (l, .windows) s.sent)).map some =
          hist.closed.map (fun seg => (WindowHistory.windowOf timeWindow seg).map
            fun w => windowEvent (deriveMetrics w)) ∧
        (s.tracer l).windows.ga.windows.lookup p =
          WindowHistory.windowOf timeWindow hist.current) := by
  refine ⟨fun more t hmore ht => ?_, lowers_internal.exists_quiet trivial, fun hq l =>
    ⟨atRest_of_quiet h hc hq l, fun p => told_of_quiet h hc hclient hq l p⟩⟩
  have hle := lowers_internal.length_le trivial hmore ht
  omega

theorem submitted_settles_sampleRun : ∃ s,
    exec System.step (System.start ℚ 1 3 fun _ => 0) sampleRun = some s ∧
    (∀ more t, (∀ a ∈ more, isInternal a) → exec System.step s more = some t →
      more.length ≤ rank s) ∧
    (∃ more t, (∀ a ∈ more, isInternal a) ∧ exec System.step s more = some t ∧
      Quiet System.step (isInternal ·) t) ∧
    (Quiet System.step (isInternal ·) s → ∀ l, AtRest s l ∧ ∀ p,
      List.Forall₂ Tells (tokensIn p (batchesOf (l, .series) s.sent) ++
          held p (s.tracer l).series.tc) (eventsOf p (s.tracer l).submitted) ∧
      ∃ hist : History WindowHistory.Timed,
        eventsOf p (s.tracer l).submitted = hist.flat.map Prod.snd ∧
        (eventsIn p (batchesOf (l, .windows) s.sent)).map some =
          hist.closed.map (fun seg => (WindowHistory.windowOf 3 seg).map
            fun w => windowEvent (deriveMetrics w)) ∧
        (s.tracer l).windows.ga.windows.lookup p =
          WindowHistory.windowOf 3 hist.current) := by
  obtain ⟨s, hs, hc, hclient⟩ : ∃ s, exec System.step (System.start ℚ 1 3 fun _ => 0) sampleRun =
      some s ∧ s.cancelled = false ∧ s.client ≠ .returned := by
    decide +kernel
  exact ⟨s, hs, submitted_settles 3 (fun _ => 0) sampleRun s hs hc hclient⟩

omit [Fintype Loader] in
/-- Once everything has settled, a tick of each collector of a loader, that of
the aggregator after the end of all windows, puts all that is left on the way:
when the internal steps have ended again, one token was sent for each record
of a process, in the order of submission, and its records are those of the
windows that were sent. -/
theorem all_sent (timeWindow : Duration) (now : Loader → Time)
    (acts : List (System.Action n Loader)) (s : System.State F n Loader)
    (h : exec System.step (System.start F n timeWindow now) acts = some s)
    (hc : s.cancelled = false) (hclient : s.client ≠ .returned)
    (hq : Quiet System.step (isInternal ·) s) (l : Loader) (t₁ t₂ : Time)
    (order₁ order₂ : List UInt32)
    (hend : ∀ p w, (s.tracer l).windows.ga.windows.lookup p = some w → w.windowEnd < t₂)
    (u : System.State F n Loader)
    (hu : exec System.step s [.tick (l, .series) t₁ order₁, .tick (l, .windows) t₂ order₂] = some u)
    (more : List (System.Action n Loader)) (hmore : ∀ a ∈ more, isInternal a)
    (t : System.State F n Loader) (ht : exec System.step u more = some t)
    (htq : Quiet System.step (isInternal ·) t) (p : UInt32) :
    List.Forall₂ Tells (tokensIn p (batchesOf (l, .series) t.sent))
        (eventsOf p (s.tracer l).submitted) ∧
      ∃ segs : List (List WindowHistory.Timed), (∀ seg ∈ segs, seg ≠ []) ∧
        eventsOf p (s.tracer l).submitted = segs.flatten.map Prod.snd ∧
        (eventsIn p (batchesOf (l, .windows) t.sent)).map some =
          segs.map (fun seg => (WindowHistory.windowOf timeWindow seg).map
            fun w => windowEvent (deriveMetrics w)) := by
  have hrest := atRest_of_quiet h hc hq l
  obtain ⟨hreader, hkernel, hsub, hheld, hlookup⟩ := tracer_of_ticks hend hu
  have hring : (u.tracer l).kernel.gpuRingbuf = [] := by rw [hkernel, hrest.ring]
  have hsame := tracer_of_internals (hreader.trans hrest.reader) hring hmore ht
  have hserving : Serving t := by
    refine serving_run (fun a ha => .inl (hmore a ha)) ht
      (serving_run (fun a ha => ?_) hu ⟨hc, hclient⟩)
    simp only [List.mem_cons, List.not_mem_nil, or_false] at ha
    obtain rfl | rfl := ha
    · exact .inr ⟨_, _, _, rfl⟩
    · exact .inr ⟨_, _, _, rfl⟩
  have hrun : exec System.step (System.start F n timeWindow now)
      (acts ++ ([.tick (l, .series) t₁ order₁, .tick (l, .windows) t₂ order₂] ++ more)) =
        some t := by
    rw [exec_append, h, Option.bind_some, exec_append, hu, Option.bind_some, ht]
  obtain ⟨htokens, hist, hflat, hclosed, hlive⟩ :=
    told_of_quiet hrun hserving.1 hserving.2 htq l p
  rw [hsame, hsub] at htokens hflat
  rw [hsame, hlookup] at hlive
  rw [hheld, List.append_nil] at htokens
  refine ⟨htokens, hist.closed, hist.closed_ne, ?_, hclosed⟩
  have hcurrent : hist.current = [] := by
    cases hx : hist.current with
    | nil => rfl
    | cons x xs =>
      have hmem : x.2 ∈ eventsOf p (s.tracer l).submitted := by
        rw [hflat]
        exact List.mem_map_of_mem (List.mem_append_right _ (by simp [hx]))
      obtain ⟨_, -, hwin⟩ :=
        WindowHistory.windowOf_cons (F := F) timeWindow xs (isOf_of_mem_eventsOf hmem)
      rw [hx, hwin] at hlive
      cases hlive
  rw [hflat, History.flat, hcurrent, List.append_nil]

end Runs

def settledRun : List (System.Action 1 Unit) :=
  [.startLoader (), .pipeline (.startCollector ((), .windows)),
    .pipeline (.startCollector ((), .series)), .select (),
    .program () (Handlers.sampleCall (.cuMemAlloc 64) 1 10 true), .read () fun _ => 0,
    .updateWindows () 1, .stampToken () 2, .commitToken (), .select ()]

def deliveries : List (System.Action 1 Unit) :=
  [.pipeline (.handToForwarder ((), .series)), .pipeline (.handToForwarder ((), .windows)),
    .pipeline (.handToLoader ((), .windows)), .pipeline (.enqueue ()),
    .pipeline (.handToLoader ((), .series)), .pipeline .dequeue, .pipeline (.enqueue ()),
    .pipeline (.finishSend .ok), .pipeline .dequeue, .pipeline (.finishSend .ok)]

theorem all_sent_settledRun : ∃ s,
    exec System.step (System.start ℚ 1 3 fun _ => 0) settledRun = some s ∧
    ∃ u, exec System.step s [.tick ((), .series) 5 [7], .tick ((), .windows) 6 [7]] = some u ∧
    ∃ t, exec System.step u deliveries = some t ∧
    List.Forall₂ Tells (tokensIn 7 (batchesOf ((), .series) t.sent))
        (eventsOf 7 (s.tracer ()).submitted) ∧
      ∃ segs : List (List WindowHistory.Timed), (∀ seg ∈ segs, seg ≠ []) ∧
        eventsOf 7 (s.tracer ()).submitted = segs.flatten.map Prod.snd ∧
        (eventsIn 7 (batchesOf ((), .windows) t.sent)).map some =
          segs.map (fun seg => (WindowHistory.windowOf 3 seg).map
            fun w => windowEvent (deriveMetrics w)) := by
  obtain ⟨s, hs, hsettled, hc, ⟨hkeys, hlast⟩, u, hu, t, ht, htsettled⟩ : ∃ s,
      exec System.step (System.start ℚ 1 3 fun _ => 0) settledRun = some s ∧ Settled s ∧
      s.cancelled = false ∧ ((s.tracer ()).windows.ga.windows.keys = {7} ∧
        ∀ w ∈ (s.tracer ()).windows.ga.windows.lookup 7, w.windowEnd < 6) ∧
      ∃ u, exec System.step s [.tick ((), .series) 5 [7], .tick ((), .windows) 6 [7]] = some u ∧
      ∃ t, exec System.step u deliveries = some t ∧ Settled t := by
    decide +kernel
  have hend : ∀ p w, (s.tracer ()).windows.ga.windows.lookup p = some w → w.windowEnd < 6 := by
    intro p w hw
    have hp := Finmap.mem_keys.mpr (Finmap.mem_of_lookup_eq_some hw)
    rw [hkeys, Finset.mem_singleton] at hp
    exact hlast w (hp ▸ hw)
  exact ⟨s, hs, u, hu, t, ht, all_sent 3 (fun _ => 0) settledRun s hs hc (by simp [hsettled.client])
    (quiet_of_settled hsettled) () 5 6 [7] [7] hend u hu deliveries (by decide) t ht
    (quiet_of_settled htsettled) 7⟩

end InfraSightGpu.Completion
