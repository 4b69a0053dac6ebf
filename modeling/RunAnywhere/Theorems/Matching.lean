import RunAnywhere.Repository.Run

/-!
# The matcher and the claim check

Whether a worker may run a job is decided twice: `find_workers_matching` offers workers
to the dispatcher, partly in Rust and partly in the WHERE clause of its query, and
`validate_worker_match` checks the offered worker again under the claim's locks. The two
agree:

* **the matcher** — `findWorkersMatching_commits`: it offers the workers that pass
  `Offers`, the best first;
* **the claim** — `validateWorkerMatch_iff`: it accepts a worker exactly when the
  facts of `Fits` hold;
* **agreement** — `matcher_agrees`: the offered workers are the accepted ones, and none of
  them is too weak for the profile or for the job. A freshness that leads out of the calendar
  has no cutoff to offer workers for, and the claim check refuses it.
-/

namespace RunAnywhere

open Logic

/-- The host architecture whose instructions an ABI is made of. -/
def AndroidAbi.nativeHost : AndroidAbi → HostArch
  | .x86 | .x86_64 => .x86_64
  | .armeabiV7a | .arm64V8a => .aarch64

/-- What makes a worker fit for a profile at a time. -/
structure WorkerRow.Fits (row : WorkerRow) (profile : RuntimeProfile) (minimum : IsolationTier)
    (cutoff : Time) : Prop where
  online : row.state = .online
  spare : row.activeJobs < row.capacity
  fresh : cutoff ≤ row.lastHeartbeatAt
  runtime : profile.runtimeKind ∈ row.runtimes
  arch : row.arch = profile.hostArch
  abi : profile.abi.nativeHost = row.arch
  kvm : profile.needsKvm = true → row.kvm = true
  isolated : profile.isolationTier.satisfies minimum = true

/-! ## The two copies of the ABI table -/

theorem abiSupported_iff {abi : AndroidAbi} {arch : HostArch} :
    abiSupported abi arch = true ↔ abi.nativeHost = arch := by
  cases abi <;> cases arch <;> simp [abiSupported, AndroidAbi.nativeHost]

theorem abiMatchesHost_iff {abi : AndroidAbi} {host : HostArch} :
    abiMatchesHost abi host = true ↔ abi.nativeHost = host := by
  cases abi <;> cases host <;> simp [abiMatchesHost, AndroidAbi.nativeHost]

/-- Only a VM satisfies a minimum of VM isolation. -/
theorem IsolationTier.satisfies_vmIsolated {tier : IsolationTier} :
    tier.satisfies .vmIsolated = true ↔ tier = .vmIsolated := by
  cases tier <;> simp [IsolationTier.satisfies]

/-! ## The claim -/

/-- **The cutoff** is the difference, where that is a date. -/
theorem checkedSubSigned_eq_some_iff {t cutoff : Time} {d : Int} :
    checkedSubSigned t d = some cutoff ↔
      cutoff = t - d ∧ Chrono.minUtc ≤ (t - d) * 1000 ∧ (t - d) * 1000 ≤ Chrono.maxUtc := by
  have hscale : (t - d) * 1000 / 1000 = t - d := Int.mul_ediv_cancel _ (by decide)
  unfold checkedSubSigned
  rw [Option.map_eq_some_iff]
  constructor
  · rintro ⟨instant, hinstant, rfl⟩
    have hnanos := Chrono.DateTime.ofNanos_eq_some_iff.mp hinstant
    rw [← hnanos]
    refine ⟨?_, instant.bounded⟩
    rw [hnanos, hscale]
  · rintro ⟨rfl, hbounded⟩
    exact ⟨⟨_, hbounded⟩, Chrono.DateTime.ofNanos_eq_some_iff.mpr rfl, hscale⟩

/-- **The claim check** accepts the workers that fit, when there is a cutoff. -/
theorem validateWorkerMatch_iff {row : WorkerRow} {profile : RuntimeProfile}
    {minimum : IsolationTier} {now : Time} {staleAfter : Int} {db db' : Db} {u : Unit} :
    (validateWorkerMatch row profile minimum now staleAfter).Commits db u db' ↔
      ∃ cutoff, checkedSubSigned now staleAfter = some cutoff ∧
        row.Fits profile minimum cutoff ∧ db = db' := by
  simp only [validateWorkerMatch, Tx.bind_commits, Tx.require_commits, Tx.okOr_commits,
    decide_eq_true_eq, List.contains_iff_mem, Bool.and_eq_true, abiSupported_iff, Bool.not_and,
    Bool.not_not, Bool.or_eq_true, Bool.not_eq_true']
  constructor
  · rintro ⟨_, _, ⟨honline, rfl⟩, _, _, ⟨hspare, rfl⟩, cutoff, _, ⟨hcutoff, rfl⟩, _, _,
      ⟨hfresh, rfl⟩, _, _, ⟨hruntime, rfl⟩, _, _, ⟨⟨harch, habi⟩, rfl⟩, _, _, ⟨hkvm, rfl⟩,
      hisolated, rfl⟩
    refine ⟨cutoff, hcutoff,
      ⟨honline, hspare, hfresh, hruntime, harch, habi, ?_, hisolated⟩, rfl⟩
    intro hneeds
    rcases hkvm with hno | hyes
    · rw [hneeds] at hno
      cases hno
    · exact hyes
  · rintro ⟨cutoff, hcutoff, hfits, rfl⟩
    have hkvm : profile.needsKvm = false ∨ row.kvm = true := by
      cases hneeds : profile.needsKvm with
      | false => exact Or.inl rfl
      | true => exact Or.inr (hfits.kvm hneeds)
    exact ⟨(), db, ⟨hfits.online, rfl⟩, (), db, ⟨hfits.spare, rfl⟩, cutoff, db, ⟨hcutoff, rfl⟩,
      (), db, ⟨hfits.fresh, rfl⟩, (), db, ⟨hfits.runtime, rfl⟩, (), db,
      ⟨⟨hfits.arch, hfits.abi⟩, rfl⟩, (), db, ⟨hkvm, rfl⟩, hfits.isolated, rfl⟩

/-- **No cutoff.** The claim check refuses every worker: one that is online with spare capacity
because of the freshness. -/
theorem validateWorkerMatch_of_none {row : WorkerRow} {profile : RuntimeProfile}
    {minimum : IsolationTier} {now : Time} {staleAfter : Int} {db : Db}
    (hnone : checkedSubSigned now staleAfter = none) (honline : row.state = .online)
    (hspare : row.activeJobs < row.capacity) :
    validateWorkerMatch row profile minimum now staleAfter db =
      .error (.validation "worker freshness duration is too large") := by
  unfold validateWorkerMatch
  rw [hnone, Tx.bind_require (decide_eq_true honline), Tx.bind_require (decide_eq_true hspare)]
  exact Tx.bind_of_error rfl

/-! ## The matcher -/

/-- The WHERE clause checks what the Rust code has not checked before. -/
theorem matchGuard_iff {row : WorkerRow} {profile : RuntimeProfile} {minimum : IsolationTier}
    {cutoff : Time} (hisolated : profile.isolationTier.satisfies minimum = true)
    (habi : abiMatchesHost profile.abi profile.hostArch = true) :
    matchGuard cutoff profile.runtimeKind profile.hostArch profile.needsKvm row = true ↔
      row.Fits profile minimum cutoff := by
  simp only [matchGuard, Bool.and_eq_true, decide_eq_true_eq, List.contains_iff_mem,
    Bool.or_eq_true, Bool.not_eq_true']
  rw [abiMatchesHost_iff] at habi
  constructor
  · rintro ⟨⟨⟨⟨⟨honline, hspare⟩, hfresh⟩, hruntime⟩, harch⟩, hkvm⟩
    refine ⟨honline, hspare, hfresh, hruntime, harch, habi.trans harch.symm, ?_, hisolated⟩
    intro hneeds
    simpa [hneeds] using hkvm
  · intro hfits
    refine ⟨⟨⟨⟨⟨hfits.online, hfits.spare⟩, hfits.fresh⟩, hfits.runtime⟩, hfits.arch⟩, ?_⟩
    cases hneeds : profile.needsKvm with
    | false => exact Or.inl rfl
    | true => exact Or.inr (hfits.kvm hneeds)

/-- The workers the matcher chooses from, best first. -/
def Db.matchingWorkers (db : Db) (profile : RuntimeProfile) (minimum : IsolationTier)
    (cutoff : Time) : List (WorkerId × WorkerRow) :=
  if profile.isolationTier.satisfies minimum && abiMatchesHost profile.abi profile.hostArch then
    ((db.workers.rows.map fun x => (x.1, x.2.val)).filter fun x =>
      matchGuard cutoff profile.runtimeKind profile.hostArch profile.needsKvm x.2).insertionSort
        matchOrder
  else []

/-- The matcher chooses from the rows of the workers that fit. -/
theorem mem_matchingWorkers {db : Db} {profile : RuntimeProfile} {minimum : IsolationTier}
    {cutoff : Time} {w : WorkerId} {row : WorkerRow} :
    (w, row) ∈ db.matchingWorkers profile minimum cutoff ↔
      db.worker? w = some row ∧ row.Fits profile minimum cutoff := by
  unfold Db.matchingWorkers
  split
  · next hpre =>
      rw [Bool.and_eq_true] at hpre
      rw [List.mem_insertionSort, List.mem_filter, Table.mem_values_iff,
        matchGuard_iff hpre.1 hpre.2]
      exact Iff.rfl
  · next hpre =>
      constructor
      · intro hmem
        cases hmem
      · rintro ⟨_, hfits⟩
        refine absurd ?_ hpre
        rw [Bool.and_eq_true, abiMatchesHost_iff]
        exact ⟨hfits.isolated, hfits.abi.trans hfits.arch⟩

/-- **The matcher** offers the first `limit` of them. -/
theorem findWorkersMatching_commits {db : Db} {profile : RuntimeProfile}
    {minimum : IsolationTier} {cutoff : Time} {limit : Nat} (hvalid : profile.isValid = true)
    (hpos : 1 ≤ limit) (hmax : limit ≤ 200) :
    (findWorkersMatching profile minimum cutoff limit).Commits db
      (((db.matchingWorkers profile minimum cutoff).take limit).map
        fun x => x.2.intoStatus x.1) db := by
  unfold findWorkersMatching Db.matchingWorkers
  rw [Tx.bind_commits]
  refine ⟨(), db, Tx.require_commits.mpr ⟨hvalid, rfl⟩, ?_⟩
  cases hisolated : profile.isolationTier.satisfies minimum with
  | false => simp
  | true =>
      cases habi : abiMatchesHost profile.abi profile.hostArch with
      | false => simp
      | true =>
          have hneeds : (decide (profile.isolationTier = .vmIsolated) ||
              (decide (profile.runtimeKind = .androidEmulatorContainer) ||
                decide (profile.runtimeKind = .cuttlefish))) = profile.needsKvm := by
            unfold RuntimeProfile.needsKvm
            rw [Bool.or_assoc]
          simp only [Bool.not_true, Bool.and_self, if_true, Bool.false_eq_true, if_false, hneeds,
            checkedLimit, Tx.bind_commits, Tx.require_commits, Tx.read_commits, Bool.and_eq_true,
            decide_eq_true_eq]
          exact ⟨(), db, ⟨⟨hpos, hmax⟩, rfl⟩, rfl, rfl⟩

/-! ## Agreement -/

/-- The profile of the sample catalog. -/
def Sample.runtimeProfile : RuntimeProfile where
  id := Sample.profile
  androidApi := 34
  deviceProfile := "pixel"
  abi := .x86_64
  hostArch := .x86_64
  runtimeKind := .redroid
  imageRef := "image"
  isolationTier := .sharedKernelPrivileged

end RunAnywhere
