import RunAnywhere.Scheduler.Config

/-!
# What an accepted configuration promises

Every consumer of the configuration checks its part again: the fairness queue its weights and its
aging, the topology its limits. No accepted configuration fails there, and the timing settings are
ordered. The durations are checked against the range of a duration, not of a date, so the lease
deadline of a claim may lie outside the calendar (`accepted_config_safe_iff`).
-/

namespace RunAnywhere

namespace Env

open Logic.Chrono

/-- The instants of the years 2000 to 2100. -/
def IsCurrent (now : DateTime) : Prop :=
  946684800 * second ≤ now.nanos ∧ now.nanos < 4133980800 * second

/-- The configuration is safe to run. -/
structure Config.Safe (α : Type) (config : Config) : Prop where
  queue : ∃ q : FairQueue α, FairQueue.new config.fairness.queueConfig = .ok q ∧
    config.topology.maxAckPending ≤ q.capacity
  topology : ∃ topology, TopologyConfig.tryFrom config = .ok topology ∧
    validateConfig topology = .ok ()
  order : config.timing.workerHeartbeat < config.timing.staleWorkerThreshold ∧
    config.timing.staleWorkerThreshold < config.timing.ackWait ∧
    config.timing.ackWait < config.timing.databaseLeaseTtl
  dates : ∀ now, IsCurrent now → (config.timing.heartbeatCutoff now).isSome = true ∧
    (config.timing.leaseExpiresAt now).isSome = true

/-- The longest lease whose deadline is a date whenever it is granted before 2101, in seconds. -/
def maxLeaseSeconds : Nat := 8206132896000

/-! ## Dates -/

theorem toDelta_seconds {s : Nat} (h : s ≤ maxDeltaSeconds) :
    ∃ d, toDelta s = some d ∧ d.nanos = s * second := by
  obtain ⟨d, hd⟩ := Option.isSome_iff_exists.mp ((TimeDelta.isSome_fromStd_seconds_iff s).mpr h)
  refine ⟨d, hd, ?_⟩
  have hnanos := TimeDelta.ofNanos_eq_some_iff.mp hd
  rw [hnanos, Int.natCast_mul]
  rfl

/-- A deadline is a date iff it does not lie behind the last one. -/
theorem leaseExpiresAt_isSome_iff {timing : TimingSettings} (now : DateTime)
    (h : timing.databaseLeaseTtl ≤ maxDeltaSeconds) :
    (timing.leaseExpiresAt now).isSome = true ↔
      now.nanos + timing.databaseLeaseTtl * second ≤ maxUtc := by
  obtain ⟨d, hd, hnanos⟩ := toDelta_seconds h
  have heq : timing.leaseExpiresAt now = now.checkedAdd d := by
    unfold TimingSettings.leaseExpiresAt
    rw [hd]
    rfl
  rw [heq]
  unfold DateTime.checkedAdd
  rw [DateTime.isSome_ofNanos_iff, hnanos]
  have hlow := now.bounded.1
  unfold second
  constructor
  · exact fun hrange => hrange.2
  · intro hlast
    exact ⟨by omega, hlast⟩

/-- A cutoff is a date unless it lies before the first one. -/
theorem heartbeatCutoff_isSome {timing : TimingSettings} {now : DateTime}
    (h : timing.staleWorkerThreshold ≤ maxDeltaSeconds)
    (hfirst : minUtc ≤ now.nanos - timing.staleWorkerThreshold * second) :
    (timing.heartbeatCutoff now).isSome = true := by
  obtain ⟨d, hd, hnanos⟩ := toDelta_seconds h
  have heq : timing.heartbeatCutoff now = now.checkedSub d := by
    unfold TimingSettings.heartbeatCutoff
    rw [hd]
    rfl
  rw [heq]
  unfold DateTime.checkedSub
  rw [DateTime.isSome_ofNanos_iff, hnanos]
  have hlast := now.bounded.2
  unfold second at hfirst ⊢
  exact ⟨hfirst, by omega⟩

/-- The last instant of the year 2100. -/
def lastCurrent : DateTime := ⟨4133980800 * second - 1, by decide⟩

theorem isCurrent_last : IsCurrent lastCurrent := ⟨by decide, by decide⟩

/-- **Dates.** The date arithmetic of ordered settings stays in the calendar up to the year 2100 iff
the lease is short enough. -/
theorem dates_iff {timing : TimingSettings}
    (hstale : timing.staleWorkerThreshold < timing.databaseLeaseTtl)
    (hlease : timing.databaseLeaseTtl ≤ maxDeltaSeconds) :
    (∀ now, IsCurrent now → (timing.heartbeatCutoff now).isSome = true ∧
      (timing.leaseExpiresAt now).isSome = true) ↔ timing.databaseLeaseTtl ≤ maxLeaseSeconds := by
  constructor
  · intro h
    have hlast := (leaseExpiresAt_isSome_iff lastCurrent hlease).mp (h _ isCurrent_last).2
    have hnow : lastCurrent.nanos = 4133980800 * second - 1 := rfl
    rw [hnow] at hlast
    unfold second maxUtc at hlast
    unfold maxLeaseSeconds
    omega
  · intro h now hcurrent
    obtain ⟨hfrom, hto⟩ := hcurrent
    unfold maxLeaseSeconds at h
    unfold second at hfrom hto
    constructor
    · refine heartbeatCutoff_isSome (by omega) ?_
      unfold minUtc second
      omega
    · refine (leaseExpiresAt_isSome_iff now hlease).mpr ?_
      unfold maxUtc second
      omega

/-! ## The consumers -/

/-- The topology of accepted settings is accepted. -/
theorem topology_ok {values : Values} {config : Config} {bounds : Limits}
    (hbounds : limits values = .ok bounds)
    (htopology : topologySettings values bounds = .ok config.topology)
    (hack : config.timing.ackWait ≠ 0) (hattempts : 0 < config.maxRunAttempts) :
    ∃ topology, TopologyConfig.tryFrom config = .ok topology ∧ validateConfig topology = .ok () := by
  obtain ⟨hpull, hfits, hpending, _⟩ := limits_ok hbounds
  obtain ⟨hjob, hdlq, hadvisory, hreplicas, hdead, hadv, hbatch, hlimit⟩ :=
    topologySettings_ok htopology
  unfold TopologyConfig.tryFrom
  rw [if_neg (by rw [hbatch]; omega)]
  refine ⟨_, rfl, ?_⟩
  unfold validateConfig
  refine if_neg ?_
  rintro (h | h | h | h | h | h | h | h | h | h)
  · exact absurd hjob (Int.not_lt.mpr h)
  · exact absurd hdlq (Int.not_lt.mpr h)
  · exact absurd hadvisory (Int.not_lt.mpr h)
  · exact h hreplicas
  · exact hdead h
  · exact hadv h
  · exact hack h
  · have hattempts' : (config.maxRunAttempts : Int) + 1 < 2 := h
    omega
  · have hpending' : config.topology.maxAckPending ≤ 0 := h
    omega
  · have hpull' : (config.topology.pullBatchSize : Int) ≤ 0 := h
    omega

/-- **Accepted configurations.** An accepted configuration is safe to run iff its lease is at most
8206132896000 seconds. -/
theorem accepted_config_safe_iff (α : Type) (p : Parsers) (values : Values) {config : Config}
    (h : fromMap p values = .ok config) :
    config.Safe α ↔
      ∀ n, int .u64 values "SCHEDULER_DATABASE_LEASE_SECONDS" "75" = .ok n → n ≤ maxLeaseSeconds := by
  obtain ⟨htiming, ⟨bounds, hbounds, htopology, hfairness⟩, hattempts⟩ := fromMap_ok h
  obtain ⟨hheartbeat, hstale, hack, hlease, n, hn, hvalue⟩ := timingSettings_ok htiming
  obtain ⟨_, _, hpending, hholds⟩ := limits_ok hbounds
  have hdates := dates_iff (Nat.lt_trans hstale hack) hlease
  have hbuffer : 0 < bounds.bufferSize := by omega
  obtain ⟨haccepts, hcapacity⟩ := fairnessSettings_ok hfairness hbuffer
  have hrange := (int_range (by decide) (by decide) hn).1
  have hzero : IntType.u64.min = 0 := rfl
  -- the number in the variable is the lease
  have hsetting : (∀ m, int .u64 values "SCHEDULER_DATABASE_LEASE_SECONDS" "75" = .ok m →
      m ≤ maxLeaseSeconds) ↔ config.timing.databaseLeaseTtl ≤ maxLeaseSeconds := by
    constructor
    · intro hall
      have hle := hall n hn
      omega
    · intro hle m hm
      obtain rfl := Except.ok.inj (hn.symm.trans hm)
      omega
  rw [hsetting, ← hdates]
  constructor
  · exact fun hsafe => hsafe.dates
  · intro hall
    refine ⟨⟨_, FairQueue.new_eq_ok_iff.mpr ⟨haccepts, rfl⟩, ?_⟩, ?_, ⟨hheartbeat, hstale, hack⟩, hall⟩
    · obtain ⟨_, _, _, _, _, _, _, hlimit⟩ := topologySettings_ok htopology
      show config.topology.maxAckPending ≤ (config.fairness.bufferSize : Int)
      rw [hlimit, hcapacity]
      exact hholds
    · exact topology_ok hbounds htopology (by omega) (maxRunAttempts_ok hattempts)

namespace Sample

/-- The parsers, on the texts of the default configuration. -/
def parsers : Parsers where
  url := fun s =>
    if s = "nats://127.0.0.1:4222" then
      .ok ⟨"nats", "", none, none, some (.domain "127.0.0.1"), some 4222⟩
    else if s = "unix:///var/run/docker.sock" then .ok ⟨"unix", "", none, none, none, none⟩
    else .error "relative URL without a base"
  socketAddr := fun s =>
    if s = "127.0.0.1:9091" then .ok ⟨.v4 ⟨127, 0, 0, 1⟩, 9091⟩
    else .error "invalid socket address syntax"
  ipAddr := fun s => if s = "127.0.0.1" then some (.v4 ⟨127, 0, 0, 1⟩) else none

/-- The environment that sets the lease only. -/
def leaseOf (seconds : String) : Values := fun name =>
  if name = "SCHEDULER_DATABASE_LEASE_SECONDS" then some seconds else none

end Sample

/-- The default lease, written out. -/
theorem accepted_config_safe_iff_default : ∃ config,
    fromMap Sample.parsers (Sample.leaseOf "75") = .ok config ∧ config.Safe Unit := by
  have hok : (fromMap Sample.parsers (Sample.leaseOf "75")).toBool = true := by decide +kernel
  cases h : fromMap Sample.parsers (Sample.leaseOf "75") with
  | error e =>
      rw [h] at hok
      cases hok
  | ok config =>
      refine ⟨config, rfl, (accepted_config_safe_iff Unit _ _ h).mpr fun n hn => ?_⟩
      have hvalue : int .u64 (Sample.leaseOf "75") "SCHEDULER_DATABASE_LEASE_SECONDS" "75" =
          .ok 75 := by decide +kernel
      obtain rfl := Except.ok.inj (hvalue.symm.trans hn)
      decide

/-- **A lease of 260000 years** is accepted, and a claim in the year 2100 panics. -/
theorem long_lease_accepted : ∃ config,
    fromMap Sample.parsers (Sample.leaseOf "8206132896001") = .ok config ∧ IsCurrent lastCurrent ∧
      config.timing.leaseExpiresAt lastCurrent = none := by
  have hok : (fromMap Sample.parsers (Sample.leaseOf "8206132896001")).toOption.map (fun config =>
      config.timing.leaseExpiresAt lastCurrent) = some none := by decide +kernel
  cases h : fromMap Sample.parsers (Sample.leaseOf "8206132896001") with
  | error e =>
      rw [h] at hok
      cases hok
  | ok config =>
      rw [h] at hok
      exact ⟨config, rfl, isCurrent_last, Option.some.inj hok⟩

end Env

end RunAnywhere
