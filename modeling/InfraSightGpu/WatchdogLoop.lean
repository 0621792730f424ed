import InfraSightGpu.AlertSoundness
import InfraSightGpu.DeviceIoctls
import InfraSightGpu.Tracer
import InfraSightGpu.Lib.Quiescence

namespace InfraSightGpu.WatchdogLoop

open InfraSightGpu.WatchdogMap InfraSightGpu.Watchdog InfraSightGpu.Handlers
open InfraSightGpu.Tracer (isProcessExit)
open InfraSightGpu.DeviceIoctls InfraSightGpu.Lib.Maps InfraSightGpu.Lib.Runs
open InfraSightGpu.Lib.Quiescence

variable {n : Nat}

def alertsCap : Nat := 10

/-- Where the goroutine of `WatchdogCollector.Run` stands: in its select, in
the iteration of `poll`, at the send of an alert, or past the deferred close. -/
inductive Poller where
  | selecting
  | polling (nowNs : UInt64)
  | sending (nowNs : UInt64) (alert : WatchdogAlert)
  | returned
deriving DecidableEq

inductive Logger where
  | receiving
  | logging (alert : WatchdogAlert)
  | returned
deriving DecidableEq

structure Activity where
  ioctls : Nat
  uprobes : Nat
deriving DecidableEq

/-- The kernel, the collector, and the two goroutines with the channel between
them, which is closed once the poller has returned. What was found, what each
process did since the last visit that stored its snapshot, and what it did
between the earlier ones is ghost state. -/
structure State (n : Nat) where
  cancelled : Bool
  kernel : Kernel n
  watchdog : WatchdogCollector
  poller : Poller
  alerts : List WatchdogAlert
  logger : Logger
  logged : List WatchdogAlert
  found : List WatchdogAlert
  current : UInt32 → Option Activity
  observed : UInt32 → List Activity

def start (n : Nat) : State n where
  cancelled := false
  kernel := emptyKernel n
  watchdog := newWatchdogCollector
  poller := .selecting
  alerts := []
  logger := .receiving
  logged := []
  found := []
  current := fun _ => none
  observed := fun _ => []

/-- The iteration may visit the keys that are in the map at the time in any
order, again or not at all, and may end at any point, with or without an error. -/
inductive Action (n : Nat) where
  | program (call : Call n)
  | tick (nowNs : UInt64)
  | visit (pid : UInt32)
  | endPoll
  | send
  | stop
  | receive
  | log
  | finish
  | cancel

def hitOf (k : Kernel n) (call : Call n) : Option UInt32 :=
  match call.program with
  | .watchdogIoctl mem fd =>
    if HasTable mem ∧ DeviceAt mem (slotAddress mem fd) then some ioctlHit else none
  | _ => if k.gpuRingbuf.length < (handle k call).gpuRingbuf.length then some uprobeHit else none

def Activity.add (a : Activity) (hitType : UInt32) : Activity where
  ioctls := a.ioctls + hits ioctlHit hitType
  uprobes := a.uprobes + hits uprobeHit hitType

def runProgram (s : State n) (call : Call n) : State n :=
  { s with
    kernel := handle s.kernel call
    current := match hitOf s.kernel call with
      | some hitType => Function.update s.current call.ctx.pid
          ((s.current call.ctx.pid).map fun a => a.add hitType)
      | none => s.current }

/-- The poller stores the snapshot before it sends the alert. -/
def visitEntry (s : State n) (nowNs : UInt64) (pid : UInt32) (slots : Slots n) : State n :=
  let (watchdog, alerts) := pollEntry nowNs (s.watchdog, []) (pid, List.ofFn slots)
  let stored := (qualify nowNs (List.ofFn slots)).isSome
  { s with
    watchdog := watchdog
    poller := match alerts with
      | [] => .polling nowNs
      | alert :: _ => .sending nowNs alert
    found := s.found ++ alerts
    current := if stored then Function.update s.current pid (some ⟨0, 0⟩) else s.current
    observed := if stored then
        Function.update s.observed pid (s.observed pid ++ (s.current pid).toList)
      else s.observed }

def step (s : State n) : Action n → Option (State n)
  | .program call => some (runProgram s call)
  | .tick nowNs =>
    match s.poller with
    | .selecting => some { s with poller := .polling nowNs }
    | _ => none
  | .visit pid =>
    match s.poller, s.kernel.ioctlWatchdogMap.lookup pid with
    | .polling nowNs, some slots => some (visitEntry s nowNs pid slots)
    | _, _ => none
  | .endPoll =>
    match s.poller with
    | .polling _ => some { s with poller := .selecting }
    | _ => none
  | .send =>
    match s.poller with
    | .sending nowNs alert =>
      if s.alerts.length < alertsCap then
        some { s with poller := .polling nowNs, alerts := s.alerts ++ [alert] }
      else none
    | _ => none
  | .stop =>
    match s.poller with
    | .selecting => if s.cancelled then some { s with poller := .returned } else none
    | _ => none
  | .receive =>
    match s.logger, s.alerts with
    | .receiving, alert :: rest => some { s with logger := .logging alert, alerts := rest }
    | _, _ => none
  | .log =>
    match s.logger with
    | .logging alert => some { s with logger := .receiving, logged := s.logged ++ [alert] }
    | _ => none
  | .finish =>
    match s.logger, s.alerts, s.poller with
    | .receiving, [], .returned => some { s with logger := .returned }
    | _, _, _ => none
  | .cancel => some { s with cancelled := true }

inductive Steps (s : State n) : Action n → State n → Prop where
  | program {call} : Steps s (.program call) (runProgram s call)
  | tick {nowNs} (hp : s.poller = .selecting) :
    Steps s (.tick nowNs) { s with poller := .polling nowNs }
  | visit {pid nowNs slots} (hp : s.poller = .polling nowNs)
      (hm : s.kernel.ioctlWatchdogMap.lookup pid = some slots) :
    Steps s (.visit pid) (visitEntry s nowNs pid slots)
  | endPoll {nowNs} (hp : s.poller = .polling nowNs) :
    Steps s .endPoll { s with poller := .selecting }
  | send {nowNs alert} (hp : s.poller = .sending nowNs alert)
      (hroom : s.alerts.length < alertsCap) :
    Steps s .send { s with poller := .polling nowNs, alerts := s.alerts ++ [alert] }
  | stop (hp : s.poller = .selecting) (hc : s.cancelled = true) :
    Steps s .stop { s with poller := .returned }
  | receive {alert rest} (hl : s.logger = .receiving) (hch : s.alerts = alert :: rest) :
    Steps s .receive { s with logger := .logging alert, alerts := rest }
  | log {alert} (hl : s.logger = .logging alert) :
    Steps s .log { s with logger := .receiving, logged := s.logged ++ [alert] }
  | finish (hl : s.logger = .receiving) (hch : s.alerts = []) (hp : s.poller = .returned) :
    Steps s .finish { s with logger := .returned }
  | cancel : Steps s .cancel { s with cancelled := true }

theorem steps_of_eq_some {s u : State n} {a : Action n} (h : step s a = some u) :
    Steps s a u := by
  cases a with
  | program call =>
    cases h
    exact .program
  | tick nowNs =>
    simp only [step] at h
    split at h <;> cases h
    next hp => exact .tick hp
  | visit pid =>
    simp only [step] at h
    split at h <;> cases h
    next hp hm => exact .visit hp hm
  | endPoll =>
    simp only [step] at h
    split at h <;> cases h
    next hp => exact .endPoll hp
  | send =>
    simp only [step] at h
    split at h
    · next hp =>
      split at h <;> cases h
      next hroom => exact .send hp hroom
    · cases h
  | stop =>
    simp only [step] at h
    split at h
    · next hp =>
      split at h <;> cases h
      next hc => exact .stop hp hc
    · cases h
  | receive =>
    simp only [step] at h
    split at h <;> cases h
    next hl hch => exact .receive hl hch
  | log =>
    simp only [step] at h
    split at h <;> cases h
    next hl => exact .log hl
  | finish =>
    simp only [step] at h
    split at h <;> cases h
    next hl hch hp => exact .finish hl hch hp
  | cancel =>
    cases h
    exact .cancel

theorem visitEntry_cases (s : State n) (nowNs : UInt64) (pid : UInt32) (slots : Slots n) :
    ((visitEntry s nowNs pid slots).poller = .polling nowNs ∧
      (visitEntry s nowNs pid slots).found = s.found) ∨
    ((visitEntry s nowNs pid slots).poller = .sending nowNs { pid := pid, comm := [] } ∧
      (visitEntry s nowNs pid slots).found = s.found ++ [{ pid := pid, comm := [] }]) := by
  have hentry := pollEntry_eq nowNs s.watchdog [] pid (List.ofFn slots)
  simp only [visitEntry, hentry]
  cases qualify nowNs (List.ofFn slots) with
  | none => simp
  | some cur =>
    cases s.watchdog.snapshots.lookup pid with
    | none => simp [alertsFor]
    | some prev => by_cases h : Suspicious prev cur <;> simp [alertsFor, h]

section Alerts

def Poller.held : Poller → List WatchdogAlert
  | .sending _ alert => [alert]
  | _ => []

def Logger.held : Logger → List WatchdogAlert
  | .logging alert => [alert]
  | _ => []

@[simp] theorem Poller.held_selecting : Poller.selecting.held = [] := rfl
@[simp] theorem Poller.held_polling (nowNs : UInt64) : (Poller.polling nowNs).held = [] := rfl
@[simp] theorem Poller.held_sending (nowNs : UInt64) (alert : WatchdogAlert) :
    (Poller.sending nowNs alert).held = [alert] := rfl
@[simp] theorem Poller.held_returned : Poller.returned.held = [] := rfl
@[simp] theorem Logger.held_receiving : Logger.receiving.held = [] := rfl
@[simp] theorem Logger.held_logging (alert : WatchdogAlert) :
    (Logger.logging alert).held = [alert] := rfl
@[simp] theorem Logger.held_returned : Logger.returned.held = [] := rfl

def pendingAlerts (s : State n) : List WatchdogAlert :=
  s.logger.held ++ s.alerts ++ s.poller.held

/-- Every alert is logged or at one place on the way, in the order in which
they were found, and the goroutines return in order. -/
structure Inv (s : State n) : Prop where
  order : s.found = s.logged ++ pendingAlerts s
  room : s.alerts.length ≤ alertsCap
  closed : s.poller = .returned → s.cancelled = true
  drained : s.logger = .returned → s.poller = .returned ∧ s.alerts = []

theorem inv_start : Inv (start n) :=
  ⟨rfl, Nat.zero_le _, by simp [start], by simp [start]⟩

theorem inv_visit {s : State n} (hi : Inv s) {nowNs : UInt64} (hp : s.poller = .polling nowNs)
    (pid : UInt32) (slots : Slots n) : Inv (visitEntry s nowNs pid slots) := by
  have hl : s.logger ≠ .returned := fun h => by simpa [hp] using (hi.drained h).1
  have horder := hi.order
  simp only [pendingAlerts, hp, Poller.held_polling, List.append_nil] at horder
  obtain ⟨hpoll, hfound⟩ | ⟨hpoll, hfound⟩ := visitEntry_cases s nowNs pid slots
  · refine ⟨?_, hi.room, by simp [hpoll], fun h => absurd h hl⟩
    rw [hfound, horder, pendingAlerts, hpoll, Poller.held_polling, List.append_nil]
    rfl
  · refine ⟨?_, hi.room, by simp [hpoll], fun h => absurd h hl⟩
    rw [hfound, horder, pendingAlerts, hpoll, Poller.held_sending, List.append_assoc]
    rfl

theorem inv_step {s u : State n} {a : Action n} (hi : Inv s) (h : step s a = some u) : Inv u := by
  obtain ⟨horder, hroom, hclosed, hdrained⟩ := hi
  cases steps_of_eq_some h with
  | program => exact ⟨horder, hroom, hclosed, hdrained⟩
  | tick hp =>
    refine ⟨?_, hroom, by simp, fun hl => by simpa [hp] using (hdrained hl).1⟩
    simpa [pendingAlerts, hp] using horder
  | visit hp hm => exact inv_visit ⟨horder, hroom, hclosed, hdrained⟩ hp _ _
  | endPoll hp =>
    refine ⟨?_, hroom, by simp, fun hl => by simpa [hp] using (hdrained hl).1⟩
    simpa [pendingAlerts, hp] using horder
  | send hp hlt =>
    refine ⟨?_, by simpa [Nat.succ_le_iff] using hlt, by simp,
      fun hl => by simpa [hp] using (hdrained hl).1⟩
    simpa [pendingAlerts, hp] using horder
  | stop hp hc =>
    refine ⟨?_, hroom, fun _ => hc, fun hl => ⟨rfl, (hdrained hl).2⟩⟩
    simpa [pendingAlerts, hp] using horder
  | receive hl hch =>
    refine ⟨?_, ?_, hclosed, by simp⟩
    · simpa [pendingAlerts, hl, hch] using horder
    · rw [hch, List.length_cons] at hroom
      exact (Nat.le_succ _).trans hroom
  | log hl =>
    refine ⟨?_, hroom, hclosed, by simp⟩
    simpa [pendingAlerts, hl] using horder
  | finish hl hch hp =>
    refine ⟨?_, hroom, hclosed, fun _ => ⟨hp, hch⟩⟩
    simpa [pendingAlerts, hl] using horder
  | cancel => exact ⟨horder, hroom, fun _ => rfl, hdrained⟩

theorem inv_run {acts : List (Action n)} {s : State n} (h : exec step (start n) acts = some s) :
    Inv s :=
  exec_induction (I := fun _ s => Inv s) inv_start (fun _ _ _ _ _ hi hs => inv_step hi hs) h

end Alerts

section Settling

/-- The steps that the two goroutines take without a tick and without another
entry to visit. -/
def isInternal : Action n → Bool
  | .endPoll => true
  | .send => true
  | .stop => true
  | .receive => true
  | .log => true
  | .finish => true
  | _ => false

def isWork : Action n → Bool
  | .tick _ => true
  | .visit _ => true
  | _ => false

def pollerRank : Poller → ℕ
  | .sending _ _ => 5
  | .polling _ => 2
  | .selecting => 1
  | .returned => 0

def loggerRank : Logger → ℕ
  | .logging _ => 2
  | .receiving => 1
  | .returned => 0

def rank (s : State n) : ℕ := pollerRank s.poller + 2 * s.alerts.length + loggerRank s.logger

theorem rank_le {s : State n} (hi : Inv s) : rank s ≤ 27 := by
  have hpoller : pollerRank s.poller ≤ 5 := by cases s.poller <;> simp [pollerRank]
  have hlogger : loggerRank s.logger ≤ 2 := by cases s.logger <;> simp [loggerRank]
  have hroom : s.alerts.length ≤ 10 := hi.room
  unfold rank
  omega

theorem rank_step {s u : State n} {a : Action n} (h : step s a = some u) :
    rank u + (if isInternal a then 1 else 0) ≤ rank s + if isWork a then 3 else 0 := by
  cases steps_of_eq_some h with
  | program | cancel => exact le_rfl
  | @visit pid nowNs slots hp hm =>
    have hpoller : pollerRank (visitEntry s nowNs pid slots).poller ≤ 5 := by
      cases (visitEntry s nowNs pid slots).poller <;> simp [pollerRank]
    have halerts : (visitEntry s nowNs pid slots).alerts = s.alerts := rfl
    have hlogger : (visitEntry s nowNs pid slots).logger = s.logger := rfl
    have hbefore : pollerRank s.poller = 2 := by rw [hp]; rfl
    simp only [rank, isInternal, isWork, halerts, hlogger, hbefore, if_true, Bool.false_eq_true,
      if_false]
    omega
  | tick hp | endPoll hp | send hp | stop hp =>
    simp only [rank, isInternal, isWork, hp, pollerRank, List.length_append, List.length_singleton,
      if_true, Bool.false_eq_true, if_false]
    omega
  | receive hl hch | finish hl hch =>
    simp only [rank, isInternal, isWork, hl, hch, loggerRank, List.length_cons, List.length_nil,
      if_true, Bool.false_eq_true, if_false]
    omega
  | log hl =>
    simp only [rank, isInternal, isWork, hl, loggerRank, if_true, Bool.false_eq_true, if_false]
    omega

structure Rested (s : State n) : Prop where
  channel : s.alerts = []
  poller : s.poller = if s.cancelled then .returned else .selecting
  logger : s.logger = if s.cancelled then .returned else .receiving

/-- A full channel does not block the poller for long: the other goroutine can
always take from it. -/
theorem rested_of_quiet {s : State n} (hi : Inv s) (hq : Quiet step (isInternal ·) s) :
    Rested s := by
  have hlogging : ∀ alert, s.logger ≠ .logging alert := by
    intro alert hl
    exact absurd (hq .log rfl) (by simp [step, hl])
  have hchannel : s.alerts = [] := by
    cases hl : s.logger with
    | logging alert => exact absurd hl (hlogging alert)
    | returned => exact (hi.drained hl).2
    | receiving =>
      cases hch : s.alerts with
      | nil => rfl
      | cons alert rest => exact absurd (hq .receive rfl) (by simp [step, hl, hch])
  have hpoller : s.poller = .selecting ∨ s.poller = .returned := by
    cases hp : s.poller with
    | selecting => exact .inl rfl
    | returned => exact .inr rfl
    | polling nowNs => exact absurd (hq .endPoll rfl) (by simp [step, hp])
    | sending nowNs alert =>
      exact absurd (hq .send rfl) (by simp [step, hp, hchannel, alertsCap])
  cases hc : s.cancelled with
  | true =>
    have hp : s.poller = .returned := by
      obtain hp | hp := hpoller
      · exact absurd (hq .stop rfl) (by simp [step, hp, hc])
      · exact hp
    refine ⟨hchannel, by simpa [hc] using hp, ?_⟩
    cases hl : s.logger with
    | logging alert => exact absurd hl (hlogging alert)
    | returned => simp [hc]
    | receiving => exact absurd (hq .finish rfl) (by simp [step, hl, hchannel, hp])
  | false =>
    have hp : s.poller = .selecting := by
      refine hpoller.resolve_right fun hp => ?_
      rw [hi.closed hp] at hc
      cases hc
    refine ⟨hchannel, by simpa [hc] using hp, ?_⟩
    cases hl : s.logger with
    | logging alert => exact absurd hl (hlogging alert)
    | receiving => simp [hc]
    | returned => exact absurd (hi.drained hl).1 (by simp [hp])

/-- The alerts are logged in the order in which they were found, none lost or
twice, and never more than ten wait. The goroutines take a bounded number of
steps for each tick and visit. When they are out of work, all is logged, and
after the cancellation both have returned. -/
theorem alerts_logged (acts : List (Action n)) (s : State n)
    (h : exec step (start n) acts = some s) :
    (s.found = s.logged ++ pendingAlerts s ∧ s.alerts.length ≤ 10) ∧
    (∀ more t, exec step s more = some t →
      more.countP isInternal ≤ 27 + 3 * more.countP isWork) ∧
    (Quiet step (isInternal ·) s → Rested s ∧ s.logged = s.found) := by
  have hi := inv_run h
  refine ⟨⟨hi.order, hi.room⟩, fun more t ht => ?_, fun hq => ?_⟩
  · have hcount := countP_le (I := fun _ => True) (p := isInternal) (q := isWork) (k := 3)
      (fun _ _ _ _ _ => trivial) (fun _ _ _ _ hs => rank_step hs) trivial ht
    have hrank := rank_le hi
    omega
  · have hrest := rested_of_quiet hi hq
    have hpoller : s.poller.held = [] := by
      rw [hrest.poller]
      split <;> rfl
    have hlogger : s.logger.held = [] := by
      rw [hrest.logger]
      split <;> rfl
    refine ⟨hrest, ?_⟩
    rw [hi.order, pendingAlerts, hrest.channel, hpoller, hlogger]
    simp

end Settling

def deviceIoctl : WatchdogLoop.Action 1 :=
  .program (sampleCall (.watchdogIoctl sampleMemory 3) 1 10 true)

def bypassRun : List (WatchdogLoop.Action 1) :=
  List.replicate 50 deviceIoctl ++ [.tick 5000000000, .visit 7, .endPoll] ++
    List.replicate 50 deviceIoctl ++ [.tick 10000000000, .visit 7, .send, .endPoll] ++
    .program (sampleCall (.cuMemAlloc 64) 1 20 true) :: List.replicate 50 deviceIoctl ++
    [.tick 15000000000, .visit 7]

theorem alerts_logged_bypassRun : ∃ s, exec step (start 1) bypassRun = some s ∧
    s.alerts.map WatchdogAlert.pid = [7] ∧
    (s.found = s.logged ++ pendingAlerts s ∧ s.alerts.length ≤ 10) ∧
    (∀ more t, exec step s more = some t →
      more.countP isInternal ≤ 27 + 3 * more.countP isWork) ∧
    (Quiet step (isInternal ·) s → Rested s ∧ s.logged = s.found) := by
  obtain ⟨s, hs, halerts⟩ : ∃ s, exec step (start 1) bypassRun = some s ∧
      s.alerts.map WatchdogAlert.pid = [7] := by
    decide +kernel
  exact ⟨s, hs, halerts, alerts_logged bypassRun s hs⟩

end InfraSightGpu.WatchdogLoop
