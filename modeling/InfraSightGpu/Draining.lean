import InfraSightGpu.Shutdown
import InfraSightGpu.Lib.Quiescence

namespace InfraSightGpu.Draining

open InfraSightGpu.Events InfraSightGpu.TimeSeries InfraSightGpu.Pipeline InfraSightGpu.Shutdown
open InfraSightGpu.Lib.Runs InfraSightGpu.Lib.Quiescence

variable {F Loader Col : Type}

/-- The steps that bring a batch nearer to `SendGpuBatch`. -/
def isMove : Action Loader Col → Bool
  | .handToForwarder _ => true
  | .handToLoader _ => true
  | .enqueue _ => true
  | .dequeue => true
  | .finishSend .ok => true
  | .finishSend .otherError => true
  | _ => false

def isTick : Action Loader Col → Bool
  | .tick _ _ _ => true
  | _ => false

def sending : ClientLoop F Col → ℕ
  | .sendingGpuBatch _ => 1
  | _ => 0

/-- A batch counts for each of the moves that are still before it. -/
def rank [Fintype Loader] [Fintype Col] (s : State F Loader Col) : ℕ :=
  5 * heldBy s.runner + 4 * heldBy s.forwarder + 3 * heldBy s.loader + 2 * s.eventCh.length +
    sending s.client

/-- The goroutines of a collector start after that of its loader, and none
returns before the cancellation. -/
structure Open (owner : Col → Loader) (s : State F Loader Col) : Prop where
  wired : Wired s
  started : ∀ c, s.forwarder c ≠ .notStarted → s.loader (owner c) ≠ .notStarted
  runners : s.cancelled = false → ∀ c, s.runner c ≠ .returned
  loaders : s.cancelled = false → ∀ l, s.loader l ≠ .returned

variable [GoFloat F] [DecidableEq Loader] [DecidableEq Col] {owner : Col → Loader}
  {s u : State F Loader Col}

theorem loader_of_startCollector {c : Col} (h : step owner s (.startCollector c) = some u) :
    s.loader (owner c) ≠ .notStarted := by
  intro hl
  simp [step, hl] at h

theorem cancelled_of_stopRunner {c : Col} (h : step owner s (.stopRunner c) = some u) :
    s.cancelled = true := by
  simp only [step] at h
  split at h
  · assumption
  · cases h

theorem cancelled_of_stopLoader {l : Loader} (h : step owner s (.stopLoader l) = some u) :
    s.cancelled = true := by
  simp only [step] at h
  split at h
  · assumption
  · cases h

omit [GoFloat F] [DecidableEq Loader] [DecidableEq Col] in
theorem open_start (collector : Col → Collector F) :
    Open owner (start Loader collector) where
  wired := wired_start collector
  started c h := absurd rfl h
  runners _ c h := by cases h
  loaders _ l h := by cases h

omit [GoFloat F] [DecidableEq Loader] [DecidableEq Col] in
theorem ne_update {I : Type} [DecidableEq I] {f : I → Goroutine F Col} {x : Goroutine F Col}
    (h : ∀ i, f i ≠ x) {i : I} {g : Goroutine F Col} (hg : g ≠ x) (j : I) :
    Function.update f i g j ≠ x := by
  by_cases hj : j = i
  · subst hj
    rwa [Function.update_self]
  · rw [Function.update_of_ne hj]
    exact h j

omit [GoFloat F] [DecidableEq Col] in
theorem started_update
    (h : ∀ c, s.forwarder c ≠ .notStarted → s.loader (owner c) ≠ .notStarted) (l : Loader)
    {g : Goroutine F Col} (hg : g ≠ .notStarted) (c : Col) (hc : s.forwarder c ≠ .notStarted) :
    Function.update s.loader l g (owner c) ≠ .notStarted := by
  by_cases hl : owner c = l
  · rwa [hl, Function.update_self]
  · rw [Function.update_of_ne hl]
    exact h c hc

omit [GoFloat F] [DecidableEq Loader] in
theorem started_forwarder
    (h : ∀ c, s.forwarder c ≠ .notStarted → s.loader (owner c) ≠ .notStarted) {c : Col}
    (hc : s.loader (owner c) ≠ .notStarted) {g : Goroutine F Col} (d : Col)
    (hd : Function.update s.forwarder c g d ≠ .notStarted) :
    s.loader (owner d) ≠ .notStarted := by
  by_cases hdc : d = c
  · rwa [hdc]
  · rw [Function.update_of_ne hdc] at hd
    exact h d hd

theorem open_step {a : Action Loader Col} (ho : Open owner s) (h : step owner s a = some u) :
    Open owner u := by
  have hsteps := steps_of_eq_some h
  refine ⟨wired_step ho.wired hsteps, ?_, ?_, ?_⟩
  · cases hsteps with
    | update | quietTick | tick | stopRunner | dequeue | keepSending | giveUp | stopClient
    | cancel => exact ho.started
    | @startLoader l hl => exact started_update ho.started l (by simp)
    | @stopLoader l hl => exact started_update ho.started l (by simp)
    | @enqueue l p hl hch => exact started_update ho.started l (by simp)
    | @startCollector c hr hf => exact started_forwarder ho.started (loader_of_startCollector h)
    | @handToForwarder c p hr hf =>
      refine started_forwarder ho.started (ho.started c fun hn => ?_)
      rw [hf] at hn
      cases hn
    | @stopForwarder c hr hf =>
      refine started_forwarder ho.started (ho.started c fun hn => ?_)
      rw [hf] at hn
      cases hn
    | @handToLoader c p hf hl =>
      intro d hd
      refine started_update ho.started (owner c) (by simp) d fun hn => ?_
      by_cases hdc : d = c
      · subst hdc
        rw [hf] at hn
        cases hn
      · exact hd ((Function.update_of_ne hdc _ _).trans hn)
  · intro hc
    cases hsteps with
    | update | startLoader | quietTick | stopForwarder | stopLoader | enqueue | dequeue
    | keepSending | giveUp | stopClient => exact ho.runners hc
    | handToLoader => exact ho.runners hc
    | startCollector => exact ne_update (ho.runners hc) (by simp)
    | tick => exact ne_update (ho.runners hc) (by simp)
    | handToForwarder => exact ne_update (ho.runners hc) (by simp)
    | stopRunner => exact absurd (cancelled_of_stopRunner h) (by simp_all)
    | cancel => cases hc
  · intro hc
    cases hsteps with
    | update | startCollector | quietTick | tick | stopRunner | handToForwarder | stopForwarder
    | dequeue | keepSending | giveUp | stopClient => exact ho.loaders hc
    | startLoader => exact ne_update (ho.loaders hc) (by simp)
    | handToLoader => exact ne_update (ho.loaders hc) (by simp)
    | enqueue => exact ne_update (ho.loaders hc) (by simp)
    | stopLoader => exact absurd (cancelled_of_stopLoader h) (by simp_all)
    | cancel => cases hc

theorem open_run {collector : Col → Collector F} {acts : List (Action Loader Col)}
    (h : exec (step owner) (start Loader collector) acts = some s) : Open owner s :=
  exec_induction (I := fun _ s => Open owner s) (open_start collector)
    (fun _ _ _ _ _ ho hs => open_step ho hs) h

/-- Before the cancellation, while the client sends, a batch on the way can
always be moved: a goroutine that holds one waits for the next, and the client
takes from the channel. -/
theorem inTransit_of_quiet (ho : Open owner s) (hc : s.cancelled = false)
    (hclient : s.client ≠ .returned) (hq : Quiet (step owner) (isMove ·) s) (c : Col) :
    inTransit owner c s = [] := by
  have hselecting : s.client = .selecting := by
    cases hcl : s.client with
    | selecting => rfl
    | sendingGpuBatch p => exact absurd (hq (.finishSend .ok) rfl) (by simp [step, hcl])
    | returned => exact absurd hcl hclient
  have hch : s.eventCh = [] := by
    cases hch : s.eventCh with
    | nil => rfl
    | cons p rest => exact absurd (hq .dequeue rfl) (by simp [step, hselecting, hch])
  have hloader : ∀ l, s.loader l = .notStarted ∨ s.loader l = .waiting := by
    intro l
    cases hl : s.loader l with
    | notStarted => exact .inl rfl
    | waiting => exact .inr rfl
    | holding p => exact absurd (hq (.enqueue l) rfl) (by simp [step, hl, hch, eventChCap])
    | returned => exact absurd hl (ho.loaders hc l)
  have hforwarder : (s.forwarder c).held = [] := by
    cases hf : s.forwarder c with
    | notStarted | waiting | returned => rfl
    | holding p =>
      have hl := (hloader (owner c)).resolve_left (ho.started c (by simp [hf]))
      exact absurd (hq (.handToLoader c) rfl) (by simp [step, hf, hl])
  have hrunner : (s.runner c).held = [] := by
    cases hr : s.runner c with
    | notStarted | waiting | returned => rfl
    | holding p =>
      cases hf : s.forwarder c with
      | notStarted => exact absurd ((ho.wired.started c).mpr hf) (by simp [hr])
      | waiting => exact absurd (hq (.handToForwarder c) rfl) (by simp [step, hr, hf])
      | holding q => simp [hf, Goroutine.held] at hforwarder
      | returned => exact absurd (ho.wired.closing c hf) (by simp [hr])
  have hl : (s.loader (owner c)).held = [] := by
    obtain hl | hl := hloader (owner c) <;> rw [hl] <;> rfl
  rw [inTransit, hch, hl, hforwarder, hrunner]
  rfl

section Counting

variable [Fintype Loader] [Fintype Col]

theorem rank_step {a : Action Loader Col} (h : step owner s a = some u) :
    rank u + (if isMove a then 1 else 0) ≤ rank s + if isTick a then 5 else 0 := by
  cases steps_of_eq_some h with
  | update | cancel | quietTick => simp [rank, isMove, isTick]
  | @tick c now order col b hr hflush =>
    have hmore := heldBy_put (f := s.runner) (i := c) (by rw [hr]; rfl) ⟨c, some b⟩
    simp only [rank, isMove, isTick, hmore, if_true, Bool.false_eq_true, if_false]
    omega
  | @startLoader l hl =>
    have hsame := heldBy_same (f := s.loader) (i := l) (g := .waiting) (by rw [hl]; rfl) rfl
    simp [rank, isMove, isTick, hsame]
  | @startCollector c hr hf =>
    have hrunner := heldBy_same (f := s.runner) (i := c) (g := .waiting) (by rw [hr]; rfl) rfl
    have hforwarder :=
      heldBy_same (f := s.forwarder) (i := c) (g := .waiting) (by rw [hf]; rfl) rfl
    simp [rank, isMove, isTick, hrunner, hforwarder]
  | @stopRunner c hr =>
    have hsame := heldBy_same (f := s.runner) (i := c) (g := .returned) (by rw [hr]; rfl) rfl
    simp [rank, isMove, isTick, hsame]
  | @stopForwarder c hr hf =>
    have hsame := heldBy_same (f := s.forwarder) (i := c) (g := .returned) (by rw [hf]; rfl) rfl
    simp [rank, isMove, isTick, hsame]
  | @stopLoader l hl =>
    have hsame := heldBy_same (f := s.loader) (i := l) (g := .returned) (by rw [hl]; rfl) rfl
    simp [rank, isMove, isTick, hsame]
  | @handToForwarder c p hr hf =>
    have hrunner := heldBy_take hr (g := .waiting) rfl
    have hforwarder := heldBy_put (f := s.forwarder) (i := c) (by rw [hf]; rfl) p
    simp only [rank, isMove, isTick, if_true, Bool.false_eq_true, if_false]
    omega
  | @handToLoader c p hf hl =>
    have hforwarder := heldBy_take hf (g := .waiting) rfl
    have hloader := heldBy_put (f := s.loader) (i := owner c) (by rw [hl]; rfl) p
    simp only [rank, isMove, isTick, if_true, Bool.false_eq_true, if_false]
    omega
  | @enqueue l p hl hch =>
    have hloader := heldBy_take hl (g := .waiting) rfl
    simp only [rank, isMove, isTick, if_true, Bool.false_eq_true, if_false, List.length_append,
      List.length_singleton]
    omega
  | dequeue hc hch =>
    simp only [rank, isMove, isTick, if_true, Bool.false_eq_true, if_false, hc, hch, sending,
      List.length_cons]
    omega
  | keepSending hc ho =>
    obtain rfl | rfl := ho <;> simp [rank, isMove, isTick, hc, sending]
  | giveUp hc ho =>
    obtain rfl | rfl := ho <;> simp [rank, isMove, isTick, hc, sending]
  | stopClient hc => simp [rank, isMove, isTick, hc, sending]

theorem rank_le_of_step {a : Action Loader Col} (h : step owner s a = some u)
    (ha : isTick a = false) : rank u ≤ rank s := by
  have hstep := rank_step h
  rw [ha] at hstep
  exact (Nat.le_add_right _ _).trans hstep

theorem rank_of_move {a : Action Loader Col} (h : step owner s a = some u) (ha : isMove a) :
    rank u < rank s := by
  have htick : isTick a = false := by
    cases a <;> first | rfl | cases ha
  have hstep := rank_step h
  rw [ha, htick] at hstep
  simp only [if_true, Bool.false_eq_true, if_false] at hstep
  omega

omit [GoFloat F] [DecidableEq Loader] [DecidableEq Col] in
theorem rank_le (s : State F Loader Col) : rank s ≤ 5 * inPipeline s + 1 := by
  have hsending : sending s.client ≤ 1 := by cases s.client <;> simp [sending]
  simp only [rank, inPipeline]
  omega

/-- Until the cancellation, and while the client keeps sending, no batch is
stuck. What the runners flushed has all been sent when no move is left, and a
continuation makes at most five moves for each batch on the way and each tick,
and one more. -/
theorem batches_drained (owner : Col → Loader) (collector : Col → Collector F)
    (acts : List (Action Loader Col)) (s : State F Loader Col)
    (h : exec (step owner) (start Loader collector) acts = some s) (hc : s.cancelled = false)
    (hclient : s.client ≠ .returned) :
    (Quiet (step owner) (isMove ·) s →
      ∀ c, batchesOf c s.sent = (s.returned c).filter Option.isSome) ∧
    ∀ more t, exec (step owner) s more = some t →
      more.countP isMove ≤ 5 * (inPipeline s + more.countP isTick) + 1 := by
  refine ⟨fun hq c => ?_, fun more t ht => ?_⟩
  · have horder := (inv_run h).order c
    rw [inTransit_of_quiet (open_run h) hc hclient hq c] at horder
    rw [horder]
    simp [batchesOf]
  · have hcount := countP_le (I := fun _ => True) (p := isMove) (q := isTick) (k := 5)
      (fun _ _ _ _ _ => trivial) (fun _ _ _ _ hs => rank_step hs) trivial ht
    have hrank := rank_le s
    omega

end Counting

def busyRun : List (Pipeline.Action Unit Unit) :=
  [.startLoader (), .startCollector (), .update () 1 (sampleLaunch 7 32), .tick () 5 [7],
    .handToForwarder (), .handToLoader (), .enqueue (), .update () 6 (sampleLaunch 8 64),
    .tick () 10 [8], .dequeue, .handToForwarder (), .handToLoader ()]

theorem batches_drained_busyRun : ∃ s,
    exec (step oneOwner) (start Unit oneCollector) busyRun = some s ∧
      (Quiet (step oneOwner) (isMove ·) s →
        ∀ c, batchesOf c s.sent = (s.returned c).filter Option.isSome) ∧
      ∀ more t, exec (step oneOwner) s more = some t →
        more.countP isMove ≤ 5 * (inPipeline s + more.countP isTick) + 1 := by
  obtain ⟨s, hs, hc, hclient⟩ : ∃ s, exec (step oneOwner) (start Unit oneCollector) busyRun =
      some s ∧ s.cancelled = false ∧ s.client ≠ .returned := by
    decide +kernel
  exact ⟨s, hs, batches_drained oneOwner oneCollector busyRun s hs hc hclient⟩

end InfraSightGpu.Draining
