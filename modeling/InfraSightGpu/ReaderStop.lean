import InfraSightGpu.Completion

namespace InfraSightGpu.ReaderStop

open InfraSightGpu.Events InfraSightGpu.System InfraSightGpu.Completion
open InfraSightGpu.Lib.Maps InfraSightGpu.Lib.Runs InfraSightGpu.Lib.Quiescence

variable {F Loader : Type} {n : ℕ} [DecidableEq Loader]

inductive Move where
  | select | read | readError | updateWindows | stampToken | commitToken
deriving DecidableEq

def moveOf (l : Loader) : System.Action n Loader → Option Move
  | .select l' => if l' = l then some .select else none
  | .read l' _ => if l' = l then some .read else none
  | .readError l' => if l' = l then some .readError else none
  | .updateWindows l' _ => if l' = l then some .updateWindows else none
  | .stampToken l' _ => if l' = l then some .stampToken else none
  | .commitToken l' => if l' = l then some .commitToken else none
  | _ => none

def isMoveOf (l : Loader) (p : Move → Bool) (a : System.Action n Loader) : Bool :=
  (moveOf l a).any p

def endsRead : Move → Bool
  | .read | .readError => true
  | _ => false

/-- The measure of a reader, from where its loop stands and what it has in hand. -/
structure Measure where
  loop : ReadLoop → ℕ
  reader : Tracer.Reader → ℕ

def Measure.left (m : Measure) (l : Loader) (s : System.State F n Loader) : ℕ :=
  m.loop (s.readLoop l) + m.reader (s.tracer l).reader

def cost (p : Move → Bool) (m : Move) : ℕ := if p m then 1 else 0

/-- After the cancellation every move of the reader that counts lowers the
measure, and no move raises it. -/
structure Pays (m : Measure) (p : Move → Bool) : Prop where
  start : m.loop .selecting ≤ m.loop .notStarted
  select : m.loop .returned + cost p .select ≤ m.loop .selecting
  read : ∀ r, m.loop .selecting + m.reader r + cost p .read ≤ m.loop .reading + m.reader .idle
  readError : m.loop .selecting + cost p .readError ≤ m.loop .reading
  updateWindows : ∀ ev, m.reader (.updatingSeries ev) + cost p .updateWindows ≤
    m.reader (.updatingWindows ev)
  stampToken : ∀ ev, m.reader .committing + cost p .stampToken ≤ m.reader (.updatingSeries ev) ∧
    m.reader .idle + cost p .stampToken ≤ m.reader (.updatingSeries ev)
  commitToken : m.reader .idle + cost p .commitToken ≤ m.reader .committing

def reads : ReadLoop → ℕ
  | .reading => 1
  | _ => 0

def heldForWindows : Tracer.Reader → ℕ
  | .updatingWindows _ => 1
  | _ => 0

def heldForSeries : Tracer.Reader → ℕ
  | .updatingWindows _ | .updatingSeries _ => 1
  | _ => 0

def loopMoves : ReadLoop → ℕ
  | .notStarted | .selecting => 1
  | .reading => 5
  | .returned => 0

theorem pays_reads : Pays ⟨reads, fun _ => 0⟩ endsRead := by
  constructor <;> simp [reads, cost, endsRead]

theorem pays_windows : Pays ⟨reads, heldForWindows⟩ (· = .updateWindows) := by
  constructor <;> simp [reads, cost, heldForWindows]
  rintro (_ | _ | _ | _) <;> simp

theorem pays_series : Pays ⟨reads, heldForSeries⟩ (· = .stampToken) := by
  constructor <;> simp [reads, cost, heldForSeries]
  rintro (_ | _ | _ | _) <;> simp

theorem pays_moves : Pays ⟨loopMoves, readerRank⟩ (· ≠ .readError) := by
  constructor <;> simp [loopMoves, cost, readerRank]
  rintro (_ | _ | _ | _) <;> simp

section Steps

theorem left_withReadLoop (m : Measure) (s : System.State F n Loader) (l l' : Loader)
    (r : ReadLoop) : m.left l (s.withReadLoop l' r) =
      if l' = l then m.loop r + m.reader (s.tracer l).reader else m.left l s := by
  by_cases hl : l' = l
  · subst hl
    simp [Measure.left, State.withReadLoop]
  · simp [Measure.left, State.withReadLoop, hl, Ne.symm hl]

theorem left_withTracer (m : Measure) (s : System.State F n Loader) (l l' : Loader)
    (t : Tracer.State F n) : m.left l (s.withTracer l' t) =
      if l' = l then m.loop (s.readLoop l) + m.reader t.reader else m.left l s := by
  by_cases hl : l' = l
  · subst hl
    simp [Measure.left, State.withTracer]
  · simp [Measure.left, State.withTracer, hl, Ne.symm hl]

theorem any_moveOf (l l' : Loader) (p : Move → Bool) (m : Move) :
    (if ((if l' = l then some m else none).any p) then 1 else 0) =
      if l' = l then cost p m else 0 := by
  by_cases hl : l' = l <;> simp [hl, cost]

/-- The loop has not started before its loader has, and it has nothing in hand
while it reads. -/
structure Standing (s : System.State F n Loader) : Prop where
  unstarted : ∀ l, s.loader l = .notStarted → s.readLoop l = .notStarted
  idle : ∀ l, s.readLoop l = .reading → (s.tracer l).reader = .idle

variable [GoFloat F]

omit [DecidableEq Loader] in
theorem reader_of_flush {t u : Tracer.State F n} {now : Time} {order : List UInt32} {k : Kind}
    (h : Tracer.step t (flushAction now order k) = some u) : u.reader = t.reader := by
  cases k with
  | windows =>
    cases TracerOrder.steps_of_eq_some h with
    | flushWindows ho => rfl
  | series =>
    cases TracerOrder.steps_of_eq_some h with
    | flushSeries ho => rfl

omit [GoFloat F] in
theorem left_of_own {m : Measure} {s u : System.State F n Loader} {l' : Loader} {c : ℕ}
    (hother : ∀ l, l' ≠ l → m.left l u = m.left l s) (hown : m.left l' u + c ≤ m.left l' s)
    (l : Loader) : m.left l u + (if l' = l then c else 0) ≤ m.left l s := by
  by_cases hl : l' = l
  · subst hl
    rwa [if_pos rfl]
  · rw [if_neg hl, hother l hl, Nat.add_zero]

omit [GoFloat F] in
theorem left_trace {m : Measure} {s : System.State F n Loader} {l' : Loader}
    {t : Tracer.State F n} {c : ℕ}
    (hown : m.reader t.reader + c ≤ m.reader (s.tracer l').reader) (l : Loader) :
    m.left l (s.withTracer l' t) + (if l' = l then c else 0) ≤ m.left l s := by
  apply left_of_own
  · intro k hk
    rw [left_withTracer, if_neg hk]
  · rw [left_withTracer, if_pos rfl, Measure.left]
    omega

theorem left_step {m : Measure} {p : Move → Bool} (hpays : Pays m p)
    {s u : System.State F n Loader} {a : System.Action n Loader} (hc : s.cancelled = true)
    (hstand : Standing s) (h : System.step s a = some u) (l : Loader) :
    m.left l u + (if isMoveOf l p a then 1 else 0) ≤ m.left l s := by
  cases System.steps_of_eq_some h with
  | @program l' call t ht =>
    cases ht
    have hown : m.left l (s.withTracer l' (Tracer.runProgram (s.tracer l') call)) +
        (if l' = l then 0 else 0) ≤ m.left l s := left_trace le_rfl l
    rw [ite_self] at hown
    exact hown
  | @select l' hloop hidle =>
    rw [isMoveOf, moveOf, any_moveOf, if_pos hc]
    apply left_of_own
    · intro k hk
      rw [left_withReadLoop, if_neg hk]
    · have hsel := hpays.select
      rw [left_withReadLoop, if_pos rfl, Measure.left, hloop]
      omega
  | @read l' garbage t hloop ht =>
    cases TracerOrder.steps_of_eq_some ht with
    | @read _ r rest hidle hring =>
      rw [isMoveOf, moveOf, any_moveOf]
      apply left_of_own
      · intro k hk
        rw [left_withReadLoop, if_neg hk, left_withTracer, if_neg hk]
      · have hread := hpays.read
          (((Records.decodeRecord (r.rawSample garbage)).map .updatingWindows).getD .idle)
        rw [left_withReadLoop, if_pos rfl, State.tracer_self, Measure.left, hloop, hidle]
        omega
  | @readError l' hloop =>
    rw [isMoveOf, moveOf, any_moveOf]
    apply left_of_own
    · intro k hk
      rw [left_withReadLoop, if_neg hk]
    · have hread := hpays.readError
      rw [left_withReadLoop, if_pos rfl, Measure.left, hloop]
      omega
  | updateWindows ht =>
    cases TracerOrder.steps_of_eq_some ht with
    | @updateWindows _ ev hr =>
      rw [isMoveOf, moveOf, any_moveOf]
      apply left_trace
      rw [hr]
      exact hpays.updateWindows ev
  | stampToken ht =>
    cases TracerOrder.steps_of_eq_some ht with
    | @stampToken _ ev hr hp =>
      rw [isMoveOf, moveOf, any_moveOf]
      apply left_trace
      rw [hr]
      dsimp only
      split
      · exact (hpays.stampToken ev).1
      · exact (hpays.stampToken ev).2
  | commitToken ht =>
    cases TracerOrder.steps_of_eq_some ht with
    | commitToken hr hp =>
      rw [isMoveOf, moveOf, any_moveOf]
      apply left_trace
      rw [hr]
      exact hpays.commitToken
  | @tick c now order q t hp ht =>
    have hown := left_trace (s := s.withPipeline q) (c := 0)
      (congrArg m.reader (reader_of_flush ht)).le l
    rw [ite_self] at hown
    exact hown
  | @startLoader l' q hp =>
    have hown : m.left l ((s.withPipeline q).withReadLoop l' .selecting) +
        (if l' = l then 0 else 0) ≤ m.left l s := by
      apply left_of_own
      · intro k hk
        rw [left_withReadLoop, if_neg hk]
        rfl
      · cases Pipeline.steps_of_eq_some hp with
        | startLoader hloader =>
          rw [left_withReadLoop, if_pos rfl, Measure.left, hstand.unstarted l' hloader]
          exact Nat.add_le_add_right hpays.start _
    rw [ite_self] at hown
    exact hown
  | pipeline => exact le_rfl

theorem cancelled_step {s u : System.State F n Loader} {a : System.Action n Loader}
    (hc : s.cancelled = true) (h : System.step s a = some u) : u.cancelled = true := by
  cases System.steps_of_eq_some h with
  | program | select | read | readError | updateWindows | stampToken | commitToken => exact hc
  | tick hp | startLoader hp | pipeline _ hp =>
    cases Pipeline.steps_of_eq_some hp <;> first | exact hc | rfl

theorem notStarted_of_step {q p : Pipeline.State F Loader (Loader × Kind)}
    {a : Pipeline.Action Loader (Loader × Kind)} (h : Pipeline.step Prod.fst q a = some p)
    {l : Loader} (hl : p.loader l = .notStarted) : q.loader l = .notStarted := by
  have hupdate : ∀ {l' g}, g ≠ .notStarted → Function.update q.loader l' g l = .notStarted →
      q.loader l = .notStarted := by
    intro l' g hg hup
    by_cases hself : l = l'
    · subst hself
      rw [Function.update_self] at hup
      exact absurd hup hg
    · rwa [Function.update_of_ne hself] at hup
  cases Pipeline.steps_of_eq_some h with
  | update | startCollector | quietTick | tick | stopRunner | handToForwarder | stopForwarder
  | dequeue | keepSending | giveUp | stopClient | cancel => exact hl
  | startLoader | handToLoader | stopLoader | enqueue => exact hupdate (by simp) hl

omit [GoFloat F] in
theorem standing_withReadLoop {s : System.State F n Loader} (hs : Standing s) {l : Loader}
    {r : ReadLoop} (hl : s.loader l ≠ .notStarted)
    (hr : r = .reading → (s.tracer l).reader = .idle) : Standing (s.withReadLoop l r) := by
  constructor
  · intro k hk
    have hne : k ≠ l := fun he => hl (he ▸ hk)
    simp only [State.withReadLoop, Function.update_of_ne hne]
    exact hs.unstarted k hk
  · intro k hk
    by_cases hkl : k = l
    · subst hkl
      apply hr
      simpa [State.withReadLoop] using hk
    · simp only [State.withReadLoop, Function.update_of_ne hkl] at hk
      exact hs.idle k hk

omit [GoFloat F] in
theorem standing_withTracer {s : System.State F n Loader} (hs : Standing s) {l : Loader}
    {t : Tracer.State F n} (ht : s.readLoop l = .reading → t.reader = .idle) :
    Standing (s.withTracer l t) := by
  refine ⟨hs.unstarted, fun k hk => ?_⟩
  by_cases hkl : k = l
  · subst hkl
    rw [State.tracer_self]
    exact ht hk
  · rw [State.tracer_of_ne s hkl]
    exact hs.idle k hk

theorem standing_withPipeline {s : System.State F n Loader} (hs : Standing s)
    {a : Pipeline.Action Loader (Loader × Kind)} {p : Pipeline.State F Loader (Loader × Kind)}
    (hp : Pipeline.step Prod.fst s.pipeline a = some p) : Standing (s.withPipeline p) :=
  ⟨fun l hl => hs.unstarted l (notStarted_of_step hp hl), hs.idle⟩

theorem standing_step {s u : System.State F n Loader} {a : System.Action n Loader}
    (hs : Standing s) (h : System.step s a = some u) : Standing u := by
  have hstarted : ∀ l, s.readLoop l ≠ .notStarted → s.loader l ≠ .notStarted :=
    fun l hne hl => hne (hs.unstarted l hl)
  cases System.steps_of_eq_some h with
  | program ht =>
    cases ht
    exact standing_withTracer hs (hs.idle _)
  | @select l hloop hidle =>
    apply standing_withReadLoop hs (hstarted l (by simp [hloop]))
    exact fun _ => hidle
  | @read l garbage t hloop ht =>
    have hrest : Standing (s.withReadLoop l .selecting) :=
      standing_withReadLoop hs (hstarted l (by simp [hloop])) (by simp)
    have hboth := standing_withTracer (t := t) hrest (l := l) (by simp [State.withReadLoop])
    exact hboth
  | @readError l hloop =>
    exact standing_withReadLoop hs (hstarted l (by simp [hloop])) (by simp)
  | @updateWindows l now t ht =>
    cases TracerOrder.steps_of_eq_some ht with
    | updateWindows hr =>
      exact standing_withTracer hs fun hl => absurd (hs.idle l hl) (by simp [hr])
  | @stampToken l now t ht =>
    cases TracerOrder.steps_of_eq_some ht with
    | stampToken hr hp =>
      exact standing_withTracer hs fun hl => absurd (hs.idle l hl) (by simp [hr])
  | @commitToken l t ht =>
    cases TracerOrder.steps_of_eq_some ht with
    | commitToken hr hp =>
      exact standing_withTracer hs fun hl => absurd (hs.idle l hl) (by simp [hr])
  | @tick c now order q t hp ht =>
    have hpipe := standing_withPipeline hs hp
    apply standing_withTracer hpipe
    intro hl
    rw [reader_of_flush ht]
    exact hs.idle c.1 hl
  | @startLoader l q hp =>
    have hpipe := standing_withPipeline hs hp
    apply standing_withReadLoop hpipe
    · cases Pipeline.steps_of_eq_some hp with
      | startLoader hl => simp [State.withPipeline]
    · simp
  | pipeline ha hp => exact standing_withPipeline hs hp

end Steps

section Runs

variable [GoFloat F] {timeWindow : Duration} {now : Loader → Time}

theorem standing_run {acts : List (System.Action n Loader)} {s : System.State F n Loader}
    (h : exec System.step (System.start F n timeWindow now) acts = some s) : Standing s :=
  exec_induction (I := fun _ s => Standing s)
    ⟨fun _ _ => rfl, fun _ hl => by cases hl⟩
    (fun _ _ _ _ _ hs h => standing_step hs h) h

theorem countP_moves {m : Measure} {p : Move → Bool} (hpays : Pays m p)
    {s t : System.State F n Loader} (hs : Standing s) (hc : s.cancelled = true)
    {more : List (System.Action n Loader)} (h : exec System.step s more = some t) (l : Loader) :
    more.countP (isMoveOf l p) ≤ m.left l s := by
  have hle : m.left l t + more.countP (isMoveOf l p) ≤
      m.left l s + 0 * more.countP fun _ => false :=
    countP_le (I := fun s => s.cancelled = true ∧ Standing s)
      (fun s a u hi hstep => ⟨cancelled_step hi.1 hstep, standing_step hi.2 hstep⟩)
      (fun s a u hi hstep => left_step hpays hi.1 hi.2 hstep l) ⟨hc, hs⟩ h
  omega

/-- After the cancellation a reader sees one more record at most and passes it
on once to each collector. When it has no move left, it has returned, or waits
for a record in an empty ring. -/
theorem reader_stops (timeWindow : Duration) (now : Loader → Time)
    (acts : List (System.Action n Loader)) (s : System.State F n Loader)
    (h : exec System.step (System.start F n timeWindow now) acts = some s)
    (hc : s.cancelled = true) (more : List (System.Action n Loader))
    (t : System.State F n Loader) (hmore : exec System.step s more = some t) (l : Loader) :
    more.countP (isMoveOf l endsRead) ≤ 1 ∧
      more.countP (isMoveOf l (· = .updateWindows)) ≤ 1 ∧
      more.countP (isMoveOf l (· = .stampToken)) ≤ 1 ∧
      more.countP (isMoveOf l (· ≠ .readError)) ≤ 5 ∧
      ((∀ a, isMoveOf l (· ≠ .readError) a → System.step t a = none) →
        t.readLoop l = .notStarted ∨ t.readLoop l = .returned ∨ AtRest t l) := by
  have hs := standing_run h
  have hidle := hs.idle l
  refine ⟨?_, ?_, ?_, ?_, fun hquiet => ?_⟩
  · apply (countP_moves pays_reads hs hc hmore l).trans
    simp only [Measure.left]
    cases s.readLoop l <;> simp [reads]
  · apply (countP_moves pays_windows hs hc hmore l).trans
    simp only [Measure.left]
    cases hl : s.readLoop l with
    | reading => simp [reads, hidle hl, heldForWindows]
    | notStarted | selecting | returned =>
      cases (s.tracer l).reader <;> simp [reads, heldForWindows]
  · apply (countP_moves pays_series hs hc hmore l).trans
    simp only [Measure.left]
    cases hl : s.readLoop l with
    | reading => simp [reads, hidle hl, heldForSeries]
    | notStarted | selecting | returned =>
      cases (s.tracer l).reader <;> simp [reads, heldForSeries]
  · apply (countP_moves pays_moves hs hc hmore l).trans
    simp only [Measure.left]
    cases hl : s.readLoop l with
    | reading => simp [loopMoves, hidle hl, readerRank]
    | notStarted | selecting | returned =>
      cases (s.tracer l).reader <;> simp [loopMoves, readerRank]
  · have hrun : exec System.step (System.start F n timeWindow now) (acts ++ more) = some t := by
      rw [exec_append, h, Option.bind_some, hmore]
    have hreader := idle_of_none hrun l (hquiet _ (by simp [isMoveOf, moveOf]))
      (hquiet _ (by simp [isMoveOf, moveOf])) (hquiet _ (by simp [isMoveOf, moveOf]))
    cases hl : t.readLoop l with
    | notStarted => exact .inl rfl
    | returned => exact .inr (.inl rfl)
    | selecting =>
      have hselect := hquiet (.select l) (by simp [isMoveOf, moveOf])
      simp [System.step, hl, hreader] at hselect
    | reading =>
      exact .inr (.inr (atRest_of_none hl hreader (hquiet _ (by simp [isMoveOf, moveOf]))))

def readingRun : List (System.Action 1 Unit) :=
  [.startLoader (), .select (), .pipeline .cancel]

def lastRecord : List (System.Action 1 Unit) :=
  [.program () (Handlers.sampleCall (.cuMemAlloc 64) 1 10 true),
    .program () (Handlers.sampleCall (.cuMemAlloc 32) 1 11 true), .read () fun _ => 0,
    .updateWindows () 1, .stampToken () 2, .commitToken (), .select ()]

theorem reader_stops_readingRun : ∃ s t,
    exec System.step (System.start ℚ 1 3 fun _ => 0) readingRun = some s ∧
    exec System.step s lastRecord = some t ∧
    lastRecord.countP (isMoveOf () endsRead) ≤ 1 ∧
    lastRecord.countP (isMoveOf () (· = .updateWindows)) ≤ 1 ∧
    lastRecord.countP (isMoveOf () (· = .stampToken)) ≤ 1 ∧
    lastRecord.countP (isMoveOf () (· ≠ .readError)) ≤ 5 ∧
    ((∀ a, isMoveOf () (· ≠ .readError) a → System.step t a = none) →
      t.readLoop () = .notStarted ∨ t.readLoop () = .returned ∨ AtRest t ()) := by
  obtain ⟨s, hs, hc, ht⟩ : ∃ s,
      exec System.step (System.start ℚ 1 3 fun _ => 0) readingRun = some s ∧
      s.cancelled = true ∧ (exec System.step s lastRecord).isSome := by
    decide +kernel
  obtain ⟨t, ht⟩ := Option.isSome_iff_exists.mp ht
  exact ⟨s, t, hs, ht, reader_stops 3 (fun _ => 0) readingRun s hs hc lastRecord t ht ()⟩

end Runs

end InfraSightGpu.ReaderStop
