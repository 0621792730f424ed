import InfraSightGpu.Pipeline
import Mathlib.Algebra.Order.BigOperators.Group.Finset
import Mathlib.Data.Fintype.BigOperators

namespace InfraSightGpu.Shutdown

open InfraSightGpu.Events InfraSightGpu.TimeSeries InfraSightGpu.Pipeline InfraSightGpu.Lib.Runs

variable {F Loader Col : Type}

/-- The steps of the goroutines of the pipeline: the ring reader and the
cancellation are not theirs. -/
def IsGoroutine : Action Loader Col → Prop
  | .update _ _ _ => False
  | .cancel => False
  | _ => True

instance decidableReturned : (g : Goroutine F Col) → Decidable (g = .returned)
  | .returned => isTrue rfl
  | .notStarted => isFalse (by simp)
  | .waiting => isFalse (by simp)
  | .holding _ => isFalse (by simp)

instance decidableHolding : (g : Goroutine F Col) → Decidable (∃ p, g = .holding p)
  | .holding p => isTrue ⟨p, rfl⟩
  | .notStarted => isFalse (by simp)
  | .waiting => isFalse (by simp)
  | .returned => isFalse (by simp)

instance decidableClientReturned : (c : ClientLoop F Col) → Decidable (c = .returned)
  | .returned => isTrue rfl
  | .selecting => isFalse (by simp)
  | .sendingGpuBatch _ => isFalse (by simp)

def AllReturned (s : State F Loader Col) : Prop :=
  (∀ c, s.runner c = .returned ∧ s.forwarder c = .returned) ∧ (∀ l, s.loader l = .returned) ∧
    s.client = .returned

section Places

variable {owner : Col → Loader}

/-- The channel is within its capacity, the two goroutines of a collector start
together, and the forwarder returns after the runner. -/
structure Wired (s : State F Loader Col) : Prop where
  channel : s.eventCh.length ≤ eventChCap
  started : ∀ c, s.runner c = .notStarted ↔ s.forwarder c = .notStarted
  closing : ∀ c, s.forwarder c = .returned → s.runner c = .returned

theorem wired_start (collector : Col → Collector F) : Wired (start Loader collector) where
  channel := Nat.zero_le _
  started _ := Iff.rfl
  closing _ h := by cases h

theorem Wired.setCollector [DecidableEq Col] {s : State F Loader Col} (hw : Wired s) (c : Col)
    {r f : Goroutine F Col} (hstarted : r = .notStarted ↔ f = .notStarted)
    (hclosing : f = .returned → r = .returned) :
    Wired { s with
      runner := Function.update s.runner c r
      forwarder := Function.update s.forwarder c f } := by
  refine ⟨hw.channel, fun d => ?_, fun d => ?_⟩
  · by_cases hd : d = c
    · subst hd
      simpa using hstarted
    · simpa [hd] using hw.started d
  · by_cases hd : d = c
    · subst hd
      simpa using hclosing
    · simpa [hd] using hw.closing d

def HandsFree (s : State F Loader Col) (c : Col) : Prop :=
  (s.runner c).held = [] ∧ (s.forwarder c).held = []

def NoneStranded (owner : Col → Loader) (s : State F Loader Col) : Prop :=
  ∀ c, s.loader (owner c) = .returned → HandsFree s c

theorem handsFree_congr {s u : State F Loader Col} {c : Col} (hr : u.runner c = s.runner c)
    (hf : u.forwarder c = s.forwarder c) : HandsFree u c ↔ HandsFree s c := by
  rw [HandsFree, HandsFree, hr, hf]

theorem not_handsFree_of_runner {s : State F Loader Col} {c : Col} {p : Parcel F Col}
    (h : s.runner c = .holding p) : ¬ HandsFree s c := by
  rintro ⟨hr, -⟩
  rw [h] at hr
  cases hr

theorem not_handsFree_of_forwarder {s : State F Loader Col} {c : Col} {p : Parcel F Col}
    (h : s.forwarder c = .holding p) : ¬ HandsFree s c := by
  rintro ⟨-, hf⟩
  rw [h] at hf
  cases hf

theorem noneStranded_keep {s u : State F Loader Col} {q : Prop} (hq : q)
    (hl : ∀ c, u.loader (owner c) = .returned ↔ s.loader (owner c) = .returned)
    (hh : ∀ c, s.loader (owner c) = .returned → (HandsFree u c ↔ HandsFree s c)) :
    NoneStranded owner u ↔ NoneStranded owner s ∧ q := by
  refine Iff.trans (forall_congr' fun c => ?_) (and_iff_left hq).symm
  rw [hl c]
  exact forall_congr' (hh c)

theorem noneStranded_tick [DecidableEq Col] {s : State F Loader Col} {c : Col} {p : Parcel F Col} :
    NoneStranded owner { s with runner := Function.update s.runner c (.holding p) } ↔
      NoneStranded owner s ∧ s.loader (owner c) ≠ .returned := by
  have hother : ∀ d, d ≠ c →
      (HandsFree { s with runner := Function.update s.runner c (.holding p) } d ↔
        HandsFree s d) :=
    fun d hd => handsFree_congr (Function.update_of_ne hd _ _) rfl
  constructor
  · intro h
    have hloader : s.loader (owner c) ≠ .returned :=
      fun hl => not_handsFree_of_runner (Function.update_self c _ _) (h c hl)
    refine ⟨fun d hd => ?_, hloader⟩
    have hdc : d ≠ c := fun he => hloader (he ▸ hd)
    exact (hother d hdc).mp (h d hd)
  · rintro ⟨h, hloader⟩ d hd
    have hdc : d ≠ c := fun he => hloader (he ▸ hd)
    exact (hother d hdc).mpr (h d hd)

theorem noneStranded_stopLoader [DecidableEq Loader] {s : State F Loader Col} {l : Loader}
    (hl : s.loader l = .waiting) :
    NoneStranded owner { s with loader := Function.update s.loader l .returned } ↔
      NoneStranded owner s ∧ ∀ c, owner c = l → HandsFree s c := by
  constructor
  · intro h
    refine ⟨fun c hc => h c ?_, fun c hc => h c ?_⟩
    · have hne : owner c ≠ l := by
        rintro rfl
        rw [hl] at hc
        cases hc
      exact (Function.update_of_ne hne _ _).trans hc
    · subst hc
      exact Function.update_self _ _ _
  · rintro ⟨h, hfree⟩ c hc
    by_cases hcl : owner c = l
    · exact hfree c hcl
    · exact h c ((Function.update_of_ne hcl _ _).symm.trans hc)

end Places

section Steps

variable [GoFloat F] [DecidableEq Loader] [DecidableEq Col] {owner : Col → Loader}

def Stuck (owner : Col → Loader) (s : State F Loader Col) : Prop :=
  ∀ a, IsGoroutine a → step owner s a = none

theorem wired_step {s u : State F Loader Col} {a : Action Loader Col} (hw : Wired s)
    (h : Steps owner s a u) : Wired u := by
  have hrunner : ∀ c r, (r = .notStarted ↔ s.forwarder c = .notStarted) →
      (s.forwarder c = .returned → r = .returned) →
      Wired { s with runner := Function.update s.runner c r } := by
    intro c r hstarted hclosing
    have h := hw.setCollector c hstarted hclosing
    rwa [Function.update_eq_self] at h
  have hforwarder : ∀ c f, (s.runner c = .notStarted ↔ f = .notStarted) →
      (f = .returned → s.runner c = .returned) →
      Wired { s with forwarder := Function.update s.forwarder c f } := by
    intro c f hstarted hclosing
    have h := hw.setCollector c hstarted hclosing
    rwa [Function.update_eq_self] at h
  cases h with
  | update | startLoader | quietTick | stopLoader | keepSending | giveUp | stopClient | cancel =>
    exact ⟨hw.channel, hw.started, hw.closing⟩
  | @startCollector c hr hf => exact hw.setCollector c (by simp) (by simp)
  | @tick c now order col b hr hflush =>
    have hs := hw.started c
    have hc := hw.closing c
    have h := hrunner c (.holding ⟨c, some b⟩) (by simp_all) (by simp_all)
    exact ⟨h.channel, h.started, h.closing⟩
  | @stopRunner c hr =>
    have hs := hw.started c
    exact hrunner c .returned (by simp_all) (by simp)
  | @handToForwarder c p hr hf => exact hw.setCollector c (by simp) (by simp)
  | @stopForwarder c hr hf => exact hforwarder c .returned (by simp [hr]) (fun _ => hr)
  | @handToLoader c p hf hl =>
    have hs := hw.started c
    have h := hforwarder c .waiting (by simp_all) (by simp)
    exact ⟨h.channel, h.started, h.closing⟩
  | enqueue hl hch =>
    refine ⟨?_, hw.started, hw.closing⟩
    rw [List.length_append, List.length_singleton]
    exact hch
  | dequeue hc hch =>
    have hlen := hw.channel
    rw [hch, List.length_cons] at hlen
    exact ⟨Nat.le_of_succ_le hlen, hw.started, hw.closing⟩

def Emits (s : State F Loader Col) (c : Col) (now : Time) (order : List UInt32) : Prop :=
  ∃ col b, (s.collector c).flush now order = some (col, some b)

/-- A loader goroutine returns when no batch waits for it, and no batch is made
for one that has returned. -/
def LoaderOutlasts (owner : Col → Loader) (s : State F Loader Col) : Action Loader Col → Prop
  | .stopLoader l => ∀ c, owner c = l → HandsFree s c
  | .tick c now order => Emits s c now order → s.loader (owner c) ≠ .returned
  | _ => True

theorem noneStranded_step {s u : State F Loader Col} {a : Action Loader Col}
    (h : Steps owner s a u) :
    NoneStranded owner u ↔ NoneStranded owner s ∧ LoaderOutlasts owner s a := by
  cases h with
  | update | dequeue | keepSending | giveUp | stopClient | cancel =>
    exact (and_iff_left trivial).symm
  | @quietTick c now order col hr hflush =>
    refine (and_iff_left ?_).symm
    rintro ⟨col', b, hemit⟩
    rw [hflush] at hemit
    cases hemit
  | @tick c now order col b hr hflush =>
    refine noneStranded_tick.trans (and_congr_right fun _ => ?_)
    exact ⟨fun h _ => h, fun h => h ⟨col, b, hflush⟩⟩
  | stopLoader hl => exact noneStranded_stopLoader hl
  | @startLoader l hl =>
    refine noneStranded_keep trivial (fun c => ?_) fun _ _ => Iff.rfl
    by_cases hc : owner c = l <;> simp [hc, hl]
  | @enqueue l p hl hch =>
    refine noneStranded_keep trivial (fun c => ?_) fun _ _ => Iff.rfl
    by_cases hc : owner c = l <;> simp [hc, hl]
  | @startCollector c hr hf =>
    refine noneStranded_keep trivial (fun _ => Iff.rfl) fun d _ => ?_
    by_cases hd : d = c
    · subst hd
      simp [HandsFree, hr, hf]
    · exact handsFree_congr (Function.update_of_ne hd _ _) (Function.update_of_ne hd _ _)
  | @stopRunner c hr =>
    refine noneStranded_keep trivial (fun _ => Iff.rfl) fun d _ => ?_
    by_cases hd : d = c
    · subst hd
      simp [HandsFree, hr, Goroutine.held]
    · exact handsFree_congr (Function.update_of_ne hd _ _) rfl
  | @handToForwarder c p hr hf =>
    refine noneStranded_keep trivial (fun _ => Iff.rfl) fun d _ => ?_
    by_cases hd : d = c
    · subst hd
      exact iff_of_false (not_handsFree_of_forwarder (Function.update_self _ _ _))
        (not_handsFree_of_runner hr)
    · exact handsFree_congr (Function.update_of_ne hd _ _) (Function.update_of_ne hd _ _)
  | @stopForwarder c hr hf =>
    refine noneStranded_keep trivial (fun _ => Iff.rfl) fun d _ => ?_
    by_cases hd : d = c
    · subst hd
      simp [HandsFree, hf, Goroutine.held]
    · exact handsFree_congr rfl (Function.update_of_ne hd _ _)
  | @handToLoader c p hf hl =>
    refine noneStranded_keep trivial (fun d => ?_) fun d hd => ?_
    · by_cases hd : owner d = owner c <;> simp [hd, hl]
    · have hdc : d ≠ c := by
        rintro rfl
        rw [hl] at hd
        cases hd
      exact handsFree_congr rfl (Function.update_of_ne hdc _ _)

structure Blocked (s : State F Loader Col) : Prop where
  client : s.client = .returned
  loader : ∀ l, s.loader l = .returned ∨
    (∃ p, s.loader l = .holding p) ∧ eventChCap ≤ s.eventCh.length
  runner : ∀ c, s.runner c = .returned ∨ ∃ p, s.runner c = .holding p
  forwarder : ∀ c, s.forwarder c = .returned ∨ ∃ p, s.forwarder c = .holding p

instance decidableBlocked [Fintype Loader] [Fintype Col] (s : State F Loader Col) :
    Decidable (Blocked s) :=
  decidable_of_iff (s.client = .returned ∧
      (∀ l, s.loader l = .returned ∨
        (∃ p, s.loader l = .holding p) ∧ eventChCap ≤ s.eventCh.length) ∧
      (∀ c, s.runner c = .returned ∨ ∃ p, s.runner c = .holding p) ∧
      ∀ c, s.forwarder c = .returned ∨ ∃ p, s.forwarder c = .holding p)
    ⟨fun ⟨hc, hl, hr, hf⟩ => ⟨hc, hl, hr, hf⟩, fun h => ⟨h.client, h.loader, h.runner, h.forwarder⟩⟩

/-- Once the context is cancelled only a send can block. -/
theorem blocked_of_stuck {s : State F Loader Col} (hw : Wired s) (hc : s.cancelled = true)
    (h : Stuck owner s) : Blocked s := by
  have hloader : ∀ l, s.loader l = .returned ∨
      (∃ p, s.loader l = .holding p) ∧ eventChCap ≤ s.eventCh.length := by
    intro l
    cases hl : s.loader l with
    | notStarted => exact absurd (h (.startLoader l) trivial) (by simp [step, hl])
    | waiting => exact absurd (h (.stopLoader l) trivial) (by simp [step, hc, hl])
    | holding p =>
      have hfull := h (.enqueue l) trivial
      exact .inr ⟨⟨p, rfl⟩, by simpa [step, hl] using hfull⟩
    | returned => exact .inl rfl
  have hrunner : ∀ c, s.runner c = .returned ∨ ∃ p, s.runner c = .holding p := by
    intro c
    cases hr : s.runner c with
    | notStarted =>
      have hf := (hw.started c).mp hr
      have hstart := h (.startCollector c) trivial
      obtain hl | ⟨⟨p, hl⟩, -⟩ := hloader (owner c) <;> simp [step, hl, hr, hf] at hstart
    | waiting => exact absurd (h (.stopRunner c) trivial) (by simp [step, hc, hr])
    | holding p => exact .inr ⟨p, rfl⟩
    | returned => exact .inl rfl
  refine ⟨?_, hloader, hrunner, fun c => ?_⟩
  · cases hcl : s.client with
    | selecting => exact absurd (h .stopClient trivial) (by simp [step, hc, hcl])
    | sendingGpuBatch p => exact absurd (h (.finishSend .ok) trivial) (by simp [step, hcl])
    | returned => rfl
  · cases hf : s.forwarder c with
    | notStarted =>
      have hr := (hw.started c).mpr hf
      obtain hr' | ⟨p, hr'⟩ := hrunner c <;> rw [hr] at hr' <;> cases hr'
    | waiting =>
      obtain hr | ⟨p, hr⟩ := hrunner c
      · exact absurd (h (.stopForwarder c) trivial) (by simp [step, hr, hf])
      · exact absurd (h (.handToForwarder c) trivial) (by simp [step, hr, hf])
    | holding p => exact .inr ⟨p, rfl⟩
    | returned => exact .inl rfl

theorem stuck_of_blocked {s : State F Loader Col} (hb : Blocked s) : Stuck owner s := by
  intro a ha
  cases a with
  | update c now ev => exact absurd ha id
  | cancel => exact absurd ha id
  | startLoader l => obtain h | ⟨⟨p, h⟩, -⟩ := hb.loader l <;> simp [step, h]
  | stopLoader l => obtain h | ⟨⟨p, h⟩, -⟩ := hb.loader l <;> simp [step, h]
  | enqueue l => obtain h | ⟨⟨p, h⟩, hfull⟩ := hb.loader l <;> simp_all [step]
  | startCollector c =>
    obtain hl | ⟨⟨p, hl⟩, -⟩ := hb.loader (owner c) <;>
      obtain hf | ⟨p, hf⟩ := hb.forwarder c <;> simp [step, hl, hf]
  | tick c now order => obtain h | ⟨p, h⟩ := hb.runner c <;> simp [step, h]
  | stopRunner c => obtain h | ⟨p, h⟩ := hb.runner c <;> simp [step, h]
  | handToForwarder c => obtain h | ⟨p, h⟩ := hb.forwarder c <;> simp [step, h]
  | stopForwarder c => obtain h | ⟨p, h⟩ := hb.forwarder c <;> simp [step, h]
  | handToLoader c => obtain h | ⟨⟨p, h⟩, -⟩ := hb.loader (owner c) <;> simp [step, h]
  | dequeue => simp [step, hb.client]
  | finishSend o => simp [step, hb.client]
  | stopClient => simp [step, hb.client]

end Steps

section Counting

def heldBy {I : Type} [Fintype I] (f : I → Goroutine F Col) : ℕ := ∑ i, (f i).held.length

theorem heldBy_update {I : Type} [Fintype I] [DecidableEq I] (f : I → Goroutine F Col) (i : I)
    (g : Goroutine F Col) :
    heldBy (Function.update f i g) + (f i).held.length = heldBy f + g.held.length := by
  have hupdate : (fun j => (Function.update f i g j).held.length) =
      Function.update (fun j => (f j).held.length) i g.held.length := by
    funext j
    by_cases hj : j = i
    · subst hj
      simp
    · simp [hj]
  rw [heldBy, heldBy, hupdate, Finset.sum_update_of_mem (Finset.mem_univ i),
    ← Finset.sum_sdiff (Finset.subset_univ {i}), Finset.sum_singleton]
  omega

theorem heldBy_same {I : Type} [Fintype I] [DecidableEq I] {f : I → Goroutine F Col} {i : I}
    {g : Goroutine F Col} (hf : (f i).held = []) (hg : g.held = []) :
    heldBy (Function.update f i g) = heldBy f := by
  have h := heldBy_update f i g
  rwa [hf, hg] at h

theorem heldBy_put {I : Type} [Fintype I] [DecidableEq I] {f : I → Goroutine F Col} {i : I}
    (hf : (f i).held = []) (p : Parcel F Col) :
    heldBy (Function.update f i (.holding p)) = heldBy f + 1 := by
  have h := heldBy_update f i (.holding p)
  rwa [hf] at h

theorem heldBy_take {I : Type} [Fintype I] [DecidableEq I] {f : I → Goroutine F Col} {i : I}
    {p : Parcel F Col} {g : Goroutine F Col} (hf : f i = .holding p) (hg : g.held = []) :
    heldBy (Function.update f i g) + 1 = heldBy f := by
  have h := heldBy_update f i g
  rwa [hf, hg] at h

variable [Fintype Loader] [Fintype Col]

def inPipeline (s : State F Loader Col) : ℕ :=
  heldBy s.runner + heldBy s.forwarder + heldBy s.loader + s.eventCh.length

/-- When the client has returned, the channel can take all that is left. -/
def RoomLeft (s : State F Loader Col) : Prop :=
  s.client = .returned → inPipeline s ≤ eventChCap

variable [GoFloat F]

/-- The client returns when the channel can take all that is left, and no
batch is made afterwards that it cannot take. -/
def LeavesRoom (s : State F Loader Col) : Action Loader Col → Prop
  | .tick c now order => Emits s c now order → s.client = .returned → inPipeline s < eventChCap
  | .finishSend .unavailable => inPipeline s ≤ eventChCap
  | .finishSend .canceled => inPipeline s ≤ eventChCap
  | .stopClient => inPipeline s ≤ eventChCap
  | _ => True

variable [DecidableEq Loader] [DecidableEq Col] {owner : Col → Loader}

omit [GoFloat F] [DecidableEq Loader] [DecidableEq Col] in
theorem roomLeft_keep {s u : State F Loader Col} {q : Prop} (hq : q) (hc : u.client = s.client)
    (hsame : inPipeline u = inPipeline s) : RoomLeft u ↔ RoomLeft s ∧ q := by
  rw [RoomLeft, RoomLeft, hc, hsame, and_iff_left hq]

theorem roomLeft_step {s u : State F Loader Col} {a : Action Loader Col} (h : Steps owner s a u) :
    RoomLeft u ↔ RoomLeft s ∧ LeavesRoom s a := by
  cases h with
  | update | cancel => exact roomLeft_keep trivial rfl rfl
  | @quietTick c now order col hr hflush =>
    refine roomLeft_keep ?_ rfl rfl
    rintro ⟨col', b, hemit⟩
    rw [hflush] at hemit
    cases hemit
  | @tick c now order col b hr hflush =>
    have hmore := heldBy_put (f := s.runner) (i := c) (by rw [hr]; rfl) ⟨c, some b⟩
    have hemits : Emits s c now order := ⟨col, b, hflush⟩
    simp only [RoomLeft, LeavesRoom, hemits, true_implies]
    rw [← imp_and]
    refine imp_congr_right fun _ => ?_
    simp only [inPipeline]
    omega
  | @startLoader l hl =>
    have hsame := heldBy_same (f := s.loader) (i := l) (g := .waiting) (by rw [hl]; rfl) rfl
    exact roomLeft_keep trivial rfl (by simp only [inPipeline, hsame])
  | @startCollector c hr hf =>
    have hrunner := heldBy_same (f := s.runner) (i := c) (g := .waiting) (by rw [hr]; rfl) rfl
    have hforwarder :=
      heldBy_same (f := s.forwarder) (i := c) (g := .waiting) (by rw [hf]; rfl) rfl
    exact roomLeft_keep trivial rfl (by simp only [inPipeline, hrunner, hforwarder])
  | @stopRunner c hr =>
    have hsame := heldBy_same (f := s.runner) (i := c) (g := .returned) (by rw [hr]; rfl) rfl
    exact roomLeft_keep trivial rfl (by simp only [inPipeline, hsame])
  | @handToForwarder c p hr hf =>
    have hrunner := heldBy_take hr (g := .waiting) rfl
    have hforwarder := heldBy_put (f := s.forwarder) (i := c) (by rw [hf]; rfl) p
    exact roomLeft_keep trivial rfl (by simp only [inPipeline]; omega)
  | @stopForwarder c hr hf =>
    have hsame := heldBy_same (f := s.forwarder) (i := c) (g := .returned) (by rw [hf]; rfl) rfl
    exact roomLeft_keep trivial rfl (by simp only [inPipeline, hsame])
  | @handToLoader c p hf hl =>
    have hforwarder := heldBy_take hf (g := .waiting) rfl
    have hloader := heldBy_put (f := s.loader) (i := owner c) (by rw [hl]; rfl) p
    exact roomLeft_keep trivial rfl (by simp only [inPipeline]; omega)
  | @stopLoader l hl =>
    have hsame := heldBy_same (f := s.loader) (i := l) (g := .returned) (by rw [hl]; rfl) rfl
    exact roomLeft_keep trivial rfl (by simp only [inPipeline, hsame])
  | @enqueue l p hl hch =>
    have hloader := heldBy_take hl (g := .waiting) rfl
    refine roomLeft_keep trivial rfl ?_
    simp only [inPipeline, List.length_append, List.length_singleton]
    omega
  | dequeue hc hch => simp [RoomLeft, LeavesRoom, hc]
  | keepSending hc ho =>
    obtain rfl | rfl := ho <;> simp [RoomLeft, LeavesRoom, hc]
  | giveUp hc ho =>
    obtain rfl | rfl := ho <;> simp [RoomLeft, LeavesRoom, hc, inPipeline]
  | stopClient hc => simp [RoomLeft, LeavesRoom, hc, inPipeline]

omit [GoFloat F] [DecidableEq Loader] [DecidableEq Col] in
/-- Of the blocked states, those where all have returned are those where no
batch waits for a returned loader goroutine and the channel can take the rest. -/
theorem allReturned_iff {s : State F Loader Col} (hw : Wired s) (hb : Blocked s) :
    AllReturned s ↔ NoneStranded owner s ∧ RoomLeft s := by
  constructor
  · rintro ⟨hcol, hloader, -⟩
    refine ⟨fun c _ => ?_, fun _ => ?_⟩
    · rw [HandsFree, (hcol c).1, (hcol c).2]
      exact ⟨rfl, rfl⟩
    · have hempty : inPipeline s = s.eventCh.length := by
        simp [inPipeline, heldBy, hcol, hloader, Goroutine.held]
      rw [hempty]
      exact hw.channel
  · rintro ⟨hnone, hroom⟩
    have hloader : ∀ l, s.loader l = .returned := by
      intro l
      obtain hl | ⟨⟨p, hl⟩, hfull⟩ := hb.loader l
      · exact hl
      · have hheld : 1 ≤ heldBy s.loader := by
          have hle := Finset.single_le_sum (fun l _ => Nat.zero_le (s.loader l).held.length)
            (Finset.mem_univ l)
          rwa [hl] at hle
        have hle := hroom hb.client
        rw [inPipeline] at hle
        omega
    have hfree : ∀ c, HandsFree s c := fun c => hnone c (hloader (owner c))
    refine ⟨fun c => ⟨?_, ?_⟩, hloader, hb.client⟩
    · exact (hb.runner c).resolve_right fun ⟨p, hr⟩ => not_handsFree_of_runner hr (hfree c)
    · exact (hb.forwarder c).resolve_right fun ⟨p, hf⟩ => not_handsFree_of_forwarder hf (hfree c)

def Drains (owner : Col → Loader) (s : State F Loader Col) (a : Action Loader Col) : Prop :=
  LoaderOutlasts owner s a ∧ LeavesRoom s a

/-- A run that ends with the context cancelled and no goroutine able to take a
step has all of them returned exactly when each of its steps left every batch a
way to the channel. -/
theorem all_returned_iff (owner : Col → Loader) (collector : Col → Collector F)
    (acts : List (Action Loader Col)) (s : State F Loader Col)
    (h : exec (step owner) (start Loader collector) acts = some s) (hc : s.cancelled = true)
    (hstuck : Stuck owner s) :
    AllReturned s ↔ Along (step owner) (Drains owner) (start Loader collector) acts := by
  have hw : Wired s := exec_induction (I := fun _ s => Wired s) (wired_start collector)
    (fun _ _ _ _ _ hw hs => wired_step hw (steps_of_eq_some hs)) h
  rw [allReturned_iff hw (blocked_of_stuck hw hc hstuck)]
  refine holds_iff_along (P := fun s => NoneStranded owner s ∧ RoomLeft s) ?_ ?_ h
  · refine ⟨fun c hl => ?_, fun hcl => ?_⟩
    · cases hl
    · cases hcl
  · intro t a u hs
    have hsteps := steps_of_eq_some hs
    rw [noneStranded_step hsteps, roomLeft_step hsteps, Drains]
    tauto

end Counting

def oneCollector : Unit → Collector ℚ := fun _ => .timeSeries (newTimeSeriesCollector 5)

def oneOwner : Unit → Unit := id

def orderlyRun : List (Pipeline.Action Unit Unit) :=
  [.startLoader (), .startCollector (), .update () 1 (sampleLaunch 7 32), .tick () 5 [7],
    .handToForwarder (), .handToLoader (), .cancel, .stopRunner (), .enqueue (),
    .stopForwarder (), .stopLoader (), .dequeue, .finishSend .canceled]

theorem all_returned_orderlyRun : ∃ s,
    exec (step oneOwner) (start Unit oneCollector) orderlyRun = some s ∧
      (AllReturned s ↔
        Along (step oneOwner) (Drains oneOwner) (start Unit oneCollector) orderlyRun) := by
  obtain ⟨s, hs, hc, hblocked⟩ : ∃ s, exec (step oneOwner) (start Unit oneCollector) orderlyRun =
      some s ∧ s.cancelled = true ∧ Blocked s := by
    decide +kernel
  exact ⟨s, hs, all_returned_iff oneOwner oneCollector orderlyRun s hs hc
    (stuck_of_blocked hblocked)⟩

/-- The loader goroutine notices the cancellation before the last batch. -/
def strandedRun : List (Pipeline.Action Unit Unit) :=
  [.startLoader (), .startCollector (), .update () 1 (sampleLaunch 7 32), .tick () 5 [7],
    .handToForwarder (), .cancel, .stopLoader (), .stopRunner (), .stopClient]

theorem strandedRun_not_returned : ∃ s,
    exec (step oneOwner) (start Unit oneCollector) strandedRun = some s ∧
      s.cancelled = true ∧ Stuck oneOwner s ∧ ¬ AllReturned s := by
  obtain ⟨s, hs, hc, hblocked, hforwarder⟩ : ∃ s, exec (step oneOwner)
      (start Unit oneCollector) strandedRun = some s ∧ s.cancelled = true ∧ Blocked s ∧
        s.forwarder () ≠ .returned := by
    decide +kernel
  exact ⟨s, hs, hc, stuck_of_blocked hblocked, fun hall => hforwarder (hall.1 ()).2⟩

end InfraSightGpu.Shutdown
