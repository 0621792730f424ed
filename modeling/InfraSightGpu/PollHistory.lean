import InfraSightGpu.Watchdog

namespace InfraSightGpu.PollHistory

open InfraSightGpu.WatchdogMap InfraSightGpu.Watchdog InfraSightGpu.Lib.Maps

/-- What one poll reads: the clock, and a finite map given by its keys in the
order of the iteration and its values. -/
structure Reading where
  nowNs : UInt64
  keys : List UInt32
  values : UInt32 → List IoctlWatchdogEvent
  distinct : keys.Nodup

def Reading.entries (q : Reading) : List (UInt32 × List IoctlWatchdogEvent) :=
  q.keys.map fun pid => (pid, q.values pid)

section Loop

variable (nowNs : UInt64) (values : UInt32 → List IoctlWatchdogEvent)

def visitAlerts (snapshots : Map UInt32 PidSnapshot) (pid : UInt32) : List WatchdogAlert :=
  match qualify nowNs (values pid) with
  | none => []
  | some cur => alertsFor pid (snapshots.lookup pid) cur

theorem poll_snoc (w : WatchdogCollector) (visits : List (UInt32 × List IoctlWatchdogEvent))
    (pid : UInt32) (vs : List IoctlWatchdogEvent) :
    poll w nowNs (visits ++ [(pid, vs)]) =
      match qualify nowNs vs with
      | none => poll w nowNs visits
      | some cur => ({ snapshots := (poll w nowNs visits).1.snapshots.insert pid cur },
          (poll w nowNs visits).2 ++
            alertsFor pid ((poll w nowNs visits).1.snapshots.lookup pid) cur) := by
  rw [poll, List.foldl_append]
  exact pollEntry_eq nowNs _ _ pid vs

/-- A poll stores the snapshots of the qualifying entries, however often it
visits them. -/
theorem lookup_poll_keys (w : WatchdogCollector) (keys : List UInt32) (pid : UInt32) :
    (poll w nowNs (keys.map fun pid => (pid, values pid))).1.snapshots.lookup pid =
      if pid ∈ keys then (qualify nowNs (values pid)).or (w.snapshots.lookup pid)
      else w.snapshots.lookup pid := by
  induction keys using List.reverseRecOn with
  | nil => rfl
  | append_singleton keys k ih =>
    rw [List.map_append, List.map_singleton, poll_snoc]
    by_cases hp : pid = k
    · subst hp
      cases hq : qualify nowNs (values pid) with
      | none => simp [ih, hq]
      | some cur => simp
    · cases hq : qualify nowNs (values k) with
      | none => simp [ih, hp]
      | some cur => simp [ih, hp]

theorem poll_alerts_keys (w : WatchdogCollector) (keys : List UInt32) (hn : keys.Nodup) :
    (poll w nowNs (keys.map fun pid => (pid, values pid))).2 =
      keys.flatMap (visitAlerts nowNs values w.snapshots) := by
  induction keys using List.reverseRecOn with
  | nil => rfl
  | append_singleton keys k ih =>
    obtain ⟨hn, -, hdisj⟩ := List.nodup_append.mp hn
    have hk : k ∉ keys := fun hm => hdisj k hm k (by simp) rfl
    rw [List.map_append, List.map_singleton, poll_snoc, List.flatMap_append, ← ih hn]
    have hold := lookup_poll_keys nowNs values w keys k
    rw [if_neg hk] at hold
    cases hq : qualify nowNs (values k) with
    | none => simp [visitAlerts, hq]
    | some cur => simp [visitAlerts, hq, hold]

theorem visitAlerts_ne_nil_iff {snapshots : Map UInt32 PidSnapshot} {pid : UInt32} :
    visitAlerts nowNs values snapshots pid ≠ [] ↔ ∃ cur prev,
      qualify nowNs (values pid) = some cur ∧ snapshots.lookup pid = some prev ∧
        Suspicious prev cur := by
  rw [visitAlerts]
  cases qualify nowNs (values pid) with
  | none => simp
  | some cur =>
    cases snapshots.lookup pid with
    | none => simp [alertsFor]
    | some prev => by_cases h : Suspicious prev cur <;> simp [alertsFor, h]

theorem visitAlerts_eq_or (snapshots : Map UInt32 PidSnapshot) (pid : UInt32) :
    visitAlerts nowNs values snapshots pid = [] ∨
      visitAlerts nowNs values snapshots pid = [{ pid := pid, comm := [] }] := by
  rw [visitAlerts]
  cases qualify nowNs (values pid) with
  | none => exact .inl rfl
  | some cur =>
    cases snapshots.lookup pid with
    | none => exact .inl rfl
    | some prev => by_cases h : Suspicious prev cur <;> simp [alertsFor, h]

theorem map_flatMap_visitAlerts (snapshots : Map UInt32 PidSnapshot) (keys : List UInt32) :
    (keys.flatMap (visitAlerts nowNs values snapshots)).map WatchdogAlert.pid =
      keys.filter fun pid => visitAlerts nowNs values snapshots pid ≠ [] := by
  induction keys with
  | nil => rfl
  | cons k keys ih =>
    rw [List.flatMap_cons, List.map_append, ih, List.filter_cons]
    obtain h | h := visitAlerts_eq_or nowNs values snapshots k <;> simp [h]

end Loop

/-- The snapshot with which a process qualifies at a poll: present, at least
50 ioctl hits, at least three seconds old. -/
def qualifying (pid : UInt32) (q : Reading) : Option PidSnapshot :=
  if pid ∈ q.keys then qualify q.nowNs (q.values pid) else none

def afterPolls (qs : List Reading) : WatchdogCollector :=
  qs.foldl (fun w q => (poll w q.nowNs q.entries).1) newWatchdogCollector

def alertsAt (qs : List Reading) (q : Reading) : List WatchdogAlert :=
  (poll (afterPolls qs) q.nowNs q.entries).2

def qualified (pid : UInt32) (qs : List Reading) : List PidSnapshot :=
  qs.filterMap (qualifying pid)

theorem lookup_poll (w : WatchdogCollector) (q : Reading) (pid : UInt32) :
    (poll w q.nowNs q.entries).1.snapshots.lookup pid =
      (qualifying pid q).or (w.snapshots.lookup pid) := by
  rw [Reading.entries, lookup_poll_keys]
  by_cases hp : pid ∈ q.keys <;> simp [qualifying, hp]

theorem lookup_afterPolls (pid : UInt32) (qs : List Reading) :
    (afterPolls qs).snapshots.lookup pid = (qualified pid qs).getLast? := by
  induction qs using List.reverseRecOn with
  | nil => rfl
  | append_singleton qs q ih =>
    have hsnoc : afterPolls (qs ++ [q]) = (poll (afterPolls qs) q.nowNs q.entries).1 := by
      simp [afterPolls]
    rw [hsnoc, lookup_poll, ih, qualified, qualified, List.filterMap_append]
    cases hq : qualifying pid q <;> simp [hq, List.getLast?_append]

theorem map_poll_alerts (w : WatchdogCollector) (q : Reading) :
    (poll w q.nowNs q.entries).2.map WatchdogAlert.pid =
      q.keys.filter fun pid => visitAlerts q.nowNs q.values w.snapshots pid ≠ [] := by
  rw [Reading.entries, poll_alerts_keys q.nowNs q.values w q.keys q.distinct,
    map_flatMap_visitAlerts]

theorem mem_poll_alerts (w : WatchdogCollector) (q : Reading) (pid : UInt32) :
    pid ∈ (poll w q.nowNs q.entries).2.map WatchdogAlert.pid ↔ ∃ cur prev,
      qualifying pid q = some cur ∧ w.snapshots.lookup pid = some prev ∧ Suspicious prev cur := by
  rw [map_poll_alerts, List.mem_filter, decide_eq_true_iff, visitAlerts_ne_nil_iff]
  by_cases hk : pid ∈ q.keys <;> simp [qualifying, hk]

/-- The detector in terms of the history of polls: the stored snapshot is that
of the latest poll at which the process qualified, and an alert compares with it. -/
theorem poll_detects (qs : List Reading) (q : Reading) (pid : UInt32) :
    (afterPolls qs).snapshots.lookup pid = (qualified pid qs).getLast? ∧
      (pid ∈ (alertsAt qs q).map WatchdogAlert.pid ↔ ∃ cur prev, qualifying pid q = some cur ∧
        (qualified pid qs).getLast? = some prev ∧ 50 ≤ cur.ioctlCount - prev.ioctlCount ∧
        cur.uprobeCount = prev.uprobeCount) ∧
      ((alertsAt qs q).map WatchdogAlert.pid).Nodup := by
  refine ⟨lookup_afterPolls pid qs, ?_, ?_⟩
  · rw [← lookup_afterPolls]
    exact mem_poll_alerts (afterPolls qs) q pid
  · rw [alertsAt, map_poll_alerts]
    exact q.distinct.filter _

end InfraSightGpu.PollHistory
