import InfraSightGpu.PollHistory

namespace InfraSightGpu.PollOrder

open InfraSightGpu.WatchdogMap InfraSightGpu.Watchdog InfraSightGpu.PollHistory
open InfraSightGpu.Lib.Maps

abbrev Visit := UInt32 × List IoctlWatchdogEvent

def Consistent (visits : List Visit) : Prop :=
  ∀ a ∈ visits, ∀ b ∈ visits, a.1 = b.1 → a.2 = b.2

instance (visits : List Visit) : Decidable (Consistent visits) :=
  inferInstanceAs (Decidable (∀ a ∈ visits, ∀ b ∈ visits, a.1 = b.1 → a.2 = b.2))

/-- Two iterations leave the same snapshots and alert the same processes, each
as often. -/
structure SamePoll (w : WatchdogCollector) (nowNs : UInt64) (visits visits' : List Visit) :
    Prop where
  snapshots : (poll w nowNs visits).1 = (poll w nowNs visits').1
  alerted : ((poll w nowNs visits).2.map WatchdogAlert.pid).Perm
    ((poll w nowNs visits').2.map WatchdogAlert.pid)

theorem Consistent.eq_map {visits : List Visit} (h : Consistent visits) :
    ∃ values : UInt32 → List IoctlWatchdogEvent, ∀ visits', visits' ⊆ visits →
      visits' = (visits'.map Prod.fst).map fun pid => (pid, values pid) := by
  let values : UInt32 → List IoctlWatchdogEvent := fun pid =>
    ((visits.find? fun v => v.1 = pid).map Prod.snd).getD []
  refine ⟨values, fun visits' hsub => ?_⟩
  have hvalue : ∀ v ∈ visits', (v.1, values v.1) = v := by
    intro v hv
    have hfound : (visits.find? fun x => x.1 = v.1).isSome :=
      List.find?_isSome.mpr ⟨v, hsub hv, by simp⟩
    obtain ⟨x, hx⟩ := Option.isSome_iff_exists.mp hfound
    have hpid : x.1 = v.1 := by simpa using List.find?_some hx
    have hsame := h x (List.mem_of_find?_eq_some hx) v (hsub hv) hpid
    simp only [values, hx, Option.map_some, Option.getD_some, hsame]
  rw [List.map_map]
  exact ((List.map_congr_left hvalue).trans (List.map_id visits')).symm

theorem not_suspicious_self (cur : PidSnapshot) : ¬ Suspicious cur cur := by
  rintro ⟨hle, -⟩
  rw [UInt64.sub_self] at hle
  exact absurd hle (by decide)

section Loop

variable (nowNs : UInt64) (values : UInt32 → List IoctlWatchdogEvent) (w : WatchdogCollector)

/-- A repeated visit compares the entry with its own snapshot, and alerts nobody. -/
theorem alertsFor_visited (keys : List UInt32) (k : UInt32) {cur : PidSnapshot}
    (hq : qualify nowNs (values k) = some cur) :
    alertsFor k ((poll w nowNs (keys.map fun pid => (pid, values pid))).1.snapshots.lookup k)
      cur = if k ∈ keys then [] else visitAlerts nowNs values w.snapshots k := by
  rw [lookup_poll_keys, hq]
  by_cases hk : k ∈ keys
  · simp [hk, alertsFor, not_suspicious_self]
  · simp [hk, visitAlerts, hq]

theorem poll_alerted_keys (keys : List UInt32) :
    let alerted := (poll w nowNs (keys.map fun pid => (pid, values pid))).2.map WatchdogAlert.pid
    alerted.Nodup ∧ ∀ pid, pid ∈ alerted ↔
      pid ∈ keys ∧ visitAlerts nowNs values w.snapshots pid ≠ [] := by
  induction keys using List.reverseRecOn with
  | nil => simp [poll]
  | append_singleton keys k ih =>
    obtain ⟨hnodup, hmem⟩ := ih
    rw [List.map_append, List.map_singleton, poll_snoc]
    cases hq : qualify nowNs (values k) with
    | none =>
      have hnone : visitAlerts nowNs values w.snapshots k = [] := by simp [visitAlerts, hq]
      refine ⟨hnodup, fun pid => ?_⟩
      rw [hmem]
      by_cases hp : pid = k
      · subst hp; simp [hnone]
      · simp [hp]
    | some cur =>
      dsimp only
      rw [alertsFor_visited nowNs values w keys k hq, List.map_append]
      by_cases hk : k ∈ keys
      · refine ⟨by simpa [hk] using hnodup, fun pid => ?_⟩
        have hsame : pid ∈ keys ++ [k] ↔ pid ∈ keys := by
          simp only [List.mem_append, List.mem_singleton, or_iff_left_iff_imp]
          rintro rfl
          exact hk
        simp [hk, hmem, hsame]
      · rw [if_neg hk]
        obtain h | h := visitAlerts_eq_or nowNs values w.snapshots k
        · refine ⟨by simpa [h] using hnodup, fun pid => ?_⟩
          by_cases hp : pid = k
          · subst hp; simp [h, hmem]
          · simp [h, hmem, hp]
        · have hnot := mt (hmem k).mp (fun hm => hk hm.1)
          refine ⟨?_, fun pid => ?_⟩
          · rw [h, List.map_singleton, List.nodup_append]
            exact ⟨hnodup, by simp, by simpa using hnot⟩
          · by_cases hp : pid = k
            · subst hp; simp [h]
            · simp [h, hmem, hp]

end Loop

theorem samePoll_of_mem_iff {w : WatchdogCollector} {nowNs : UInt64} {visits visits' : List Visit}
    (h : Consistent visits) (hmem : ∀ v, v ∈ visits' ↔ v ∈ visits) :
    SamePoll w nowNs visits' visits := by
  obtain ⟨values, heq⟩ := h.eq_map
  have hv := heq visits (List.Subset.refl _)
  have hv' := heq visits' fun v => (hmem v).mp
  have hkeys : ∀ pid, pid ∈ visits'.map Prod.fst ↔ pid ∈ visits.map Prod.fst := by
    intro pid
    simp only [List.mem_map, hmem]
  rw [hv, hv']
  obtain ⟨hnodup, halerted⟩ := poll_alerted_keys nowNs values w (visits.map Prod.fst)
  obtain ⟨hnodup', halerted'⟩ := poll_alerted_keys nowNs values w (visits'.map Prod.fst)
  constructor
  · refine congrArg WatchdogCollector.mk (Finmap.ext_lookup fun pid => ?_)
    simp only [lookup_poll_keys, hkeys]
  · refine (List.perm_ext_iff_of_nodup hnodup' hnodup).mpr fun pid => ?_
    rw [halerted, halerted', hkeys]

/-- The order of the visits and their repetition do not matter: any order, and
any part of the iteration that still shows every entry, gives the same
snapshots and alerts, and no process is alerted twice. -/
theorem poll_insensitive (w : WatchdogCollector) (nowNs : UInt64) (visits : List Visit)
    (h : Consistent visits) :
    (∀ visits', visits'.Perm visits → SamePoll w nowNs visits' visits) ∧
      (∀ visits', visits'.Sublist visits → (∀ v ∈ visits, v ∈ visits') →
        SamePoll w nowNs visits' visits) ∧
      SamePoll w nowNs visits.dedup visits ∧
      ((poll w nowNs visits).2.map WatchdogAlert.pid).Nodup := by
  refine ⟨fun visits' hp => ?_, fun visits' hsub hall => ?_, ?_, ?_⟩
  · exact samePoll_of_mem_iff h fun v => hp.mem_iff
  · exact samePoll_of_mem_iff h fun v => ⟨fun hv => hsub.subset hv, hall v⟩
  · exact samePoll_of_mem_iff h fun v => List.mem_dedup
  · obtain ⟨values, heq⟩ := h.eq_map
    rw [heq visits (List.Subset.refl _)]
    exact (poll_alerted_keys nowNs values w _).1

def sampleVisit (pid : UInt32) (ioctl uprobe : UInt64) : Visit := (pid, [⟨ioctl, uprobe, 1⟩])

def sampleWatchdog : WatchdogCollector where
  snapshots := (∅ : Map UInt32 PidSnapshot).insert 7 ⟨60, 4, 1⟩

def restartedVisits : List Visit :=
  [sampleVisit 7 200 4, sampleVisit 8 90 0, sampleVisit 7 200 4, sampleVisit 9 3 0,
    sampleVisit 8 90 0]

theorem poll_insensitive_restartedVisits :
    (poll sampleWatchdog 9000000000 restartedVisits).2.map WatchdogAlert.pid = [7] ∧
    (∀ visits', visits'.Perm restartedVisits →
      SamePoll sampleWatchdog 9000000000 visits' restartedVisits) ∧
    (∀ visits', visits'.Sublist restartedVisits → (∀ v ∈ restartedVisits, v ∈ visits') →
      SamePoll sampleWatchdog 9000000000 visits' restartedVisits) ∧
    SamePoll sampleWatchdog 9000000000 restartedVisits.dedup restartedVisits ∧
    ((poll sampleWatchdog 9000000000 restartedVisits).2.map WatchdogAlert.pid).Nodup :=
  ⟨by decide +kernel,
    poll_insensitive sampleWatchdog 9000000000 restartedVisits (by decide +kernel)⟩

end InfraSightGpu.PollOrder
