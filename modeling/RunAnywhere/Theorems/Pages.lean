import RunAnywhere.Repository.CursorText
import RunAnywhere.Repository.Pages
import RunAnywhere.Theorems.Parked

/-!
# Keyset pagination is complete

The caller of a paged listing follows `next_cursor` while other calls insert and update rows.
What the pages show is in the order of the keys and repeats nothing, it has every row that
matched in all reads, and there is an end once inserts stop (`Listing.Paged`). That rests on
the columns a listing is ordered by: no call changes them once the row is there
(`Op.created`, `Op.registered`, `archive_artifact`).

* `listings_paged` — all four listings, and the cursors themselves;
* `reserved_profile_ends_listing` — a profile of the reserved runtime kind, which the table
  admits and the contract does not, makes the page that holds it an error.
-/

namespace RunAnywhere

open Logic

/-! ## Key columns do not change -/

/-- A change keeps the creation time of a job. -/
theorem RowChange.createdAt_eq {op : Op} {t : DbTime} {j : JobId} {old new : JobRow}
    (h : RowChange op t j (some old) new) : new.createdAt = old.createdAt := by
  cases h with
  | @recover stale maxDeliver => cases recoveryKind stale maxDeliver old <;> rfl
  | _ => rfl

/-- A step keeps every job with its creation time. -/
theorem repository_step_created {Allowed : Op → Prop} {db db' : Db} {call : Call}
    (hstep : (repository Allowed).step db call db') {j : JobId} {row : JobRow}
    (hrow : db.job? j = some row) :
    ∃ row', db'.job? j = some row' ∧ row'.createdAt = row.createdAt := by
  rcases repository_step_rows hstep j with ⟨hsame, _⟩ | ⟨new, hnew, hchange⟩
  · exact ⟨row, hsame.trans hrow, rfl⟩
  · rw [hrow] at hchange
    exact ⟨new, hnew, hchange.createdAt_eq⟩

/-- The workers are there with the time they registered at. -/
def Db.Registered (db db' : Db) : Prop :=
  ∀ w row, db.worker? w = some row →
    ∃ row', db'.worker? w = some row' ∧ row'.registeredAt = row.registeredAt

theorem Db.Registered.of_eq {db db' : Db} (h : db'.workers = db.workers) : db.Registered db' := by
  intro w row hrow
  refine ⟨row, ?_, rfl⟩
  unfold Db.worker? at hrow ⊢
  rw [h]
  exact hrow

theorem Db.Registered.trans {a b c : Db} (h : a.Registered b) (k : b.Registered c) :
    a.Registered c := by
  intro w row hrow
  obtain ⟨row₁, hrow₁, hsame₁⟩ := h w row hrow
  obtain ⟨row₂, hrow₂, hsame₂⟩ := k w row₁ hrow₁
  exact ⟨row₂, hrow₂, hsame₂.trans hsame₁⟩

/-- Storing a worker row keeps the workers when it keeps the time of the row it replaces. -/
theorem Db.Registered.put {db db' : Db} {w₀ : WorkerId} {new : WorkerRow} {hc : new.Checks}
    (hworkers : db'.workers = db.workers.put w₀ ⟨new, hc⟩)
    (hsame : ∀ row, db.worker? w₀ = some row → new.registeredAt = row.registeredAt) :
    db.Registered db' := by
  intro w row hrow
  have hget : db'.worker? w = if w = w₀ then some new else db.worker? w := by
    unfold Db.worker?
    rw [hworkers]
    exact Table.row?_put db.workers w₀ new hc w
  by_cases hw : w = w₀
  · subst hw
    exact ⟨new, by rw [hget, if_pos rfl], hsame row hrow⟩
  · exact ⟨row, by rw [hget, if_neg hw, hrow], rfl⟩

theorem releaseWorkerCapacity_registered {t : DbTime} {w : WorkerId} {db db' : Db} {u : Unit}
    (h : (releaseWorkerCapacity t w).Commits db u db') : db.Registered db' := by
  rcases releaseWorkerCapacity_commits h with ⟨_, rfl⟩ | ⟨row, hc, hrow, rfl⟩
  · exact .of_eq rfl
  · refine .put rfl fun old hold => ?_
    rw [hrow] at hold
    cases hold
    rfl

/-- **Registration.** A call keeps every worker with the time it registered at. -/
theorem Op.registered {op : Op} {t : DbTime} {db db' : Db} {out : op.Out}
    (h : (op.tx t).Commits db out db') : db.Registered db' := by
  -- a stored row keeps the columns of the row that was read
  have hput {w : WorkerId} {row new : WorkerRow} {hc : new.Checks}
      (hworkers : db'.workers = db.workers.put w ⟨new, hc⟩) (hrow : db.worker? w = some row)
      (hsame : new.registeredAt = row.registeredAt) : db.Registered db' := by
    refine .put hworkers fun old hold => ?_
    rw [hrow] at hold
    cases hold
    exact hsame
  cases op with
  | setCatalog catalog =>
      obtain rfl := Tx.write_commits.mp h
      exact .of_eq rfl
  | upsertWorker registration =>
      rcases upsertWorker_commits h with ⟨hc, hnone, rfl⟩ | ⟨row, hc, hrow, rfl⟩
      · refine .put rfl fun old hold => ?_
        rw [hnone] at hold
        cases hold
      · exact hput rfl hrow rfl
  | setWorkerState w state =>
      obtain ⟨row, hc, hrow, rfl⟩ := setWorkerState_commits h
      exact hput rfl hrow rfl
  | recordHeartbeat heartbeat leaseTtl =>
      obtain ⟨row, hc, db₁, _, hrow, rfl, _, honly, _⟩ := recordHeartbeat_commits h
      exact hput honly.workers hrow rfl
  | createJobWithOutbox id eventId request key headers =>
      rcases createJobWithOutbox_commits h with ⟨_, _, _, _, rfl⟩ |
        ⟨_, _, _, _, _, _, _, _, hwork, _⟩
      · exact .of_eq rfl
      · exact .of_eq hwork
  | requestJobCancellation j eventId =>
      obtain ⟨_, _, _, hcase⟩ := requestJobCancellation_commits h
      rcases hcase with ⟨_, _, rfl⟩ | ⟨_, _, _, _, _, _, hwork, _⟩
      · exact .of_eq rfl
      · exact .of_eq hwork
  | claimJobWithOptions j w l expires options eventId =>
      obtain ⟨_, worker, _, hw, _, _, _, _, _, hworker, h⟩ := claimJobWithOptions_commits h
      obtain ⟨_, _, _, _, _, _, hwork, _⟩ := h
      exact hput hwork hworker rfl
  | transitionJobState j source target evidence lease payload eventId =>
      obtain ⟨row, hc, db₁, _, hrow, _, _, hrel, _, hwork, _⟩ := transitionJobStateWith_commits h
      refine Db.Registered.trans ?_ (.of_eq hwork)
      cases hr : releasesOn target row with
      | none =>
          rw [hr] at hrel
          subst hrel
          exact .of_eq rfl
      | some w =>
          rw [hr] at hrel
          have hreleased := releaseWorkerCapacity_registered hrel
          exact Db.Registered.trans (.of_eq rfl) hreleased
  | recordJobResult result eventId =>
      obtain ⟨_, _, _, _, _, _, _, hwork, _⟩ := recordJobResult_commits h
      exact .of_eq hwork
  | recoverStaleJob stale maxDeliver eventId =>
      rcases recoverStaleJobWith_commits h with ⟨_, rfl⟩ |
        ⟨_, _, _, db₁, _, _, _, _, _, _, hrel, _, hwork, _⟩
      · exact .of_eq rfl
      · have hreleased := releaseWorkerCapacity_registered hrel
        exact (Db.Registered.trans (.of_eq rfl) hreleased).trans (.of_eq hwork)
  | enqueueJobDeadLetter deadLetter headers =>
      obtain ⟨_, _, _, _, _, _, honly, _⟩ := insertJobDeadLetterOutbox_commits h
      exact .of_eq honly.workers
  | leaseOutboxMessages dispatcherId subject leaseTimeout limit skip =>
      exact .of_eq (leaseOutboxMessagesForSubject_kept h).1.only.workers
  | markOutboxPublished id dispatcherId => exact .of_eq (markOutboxPublished_kept h).only.workers
  | retryOutboxMessage id dispatcherId availableAt lastError =>
      exact .of_eq (retryOutboxMessage_kept h).only.workers

/-- A step keeps every worker with the time it registered at. -/
theorem repository_step_registered {Allowed : Op → Prop} {db db' : Db} {call : Call}
    (hstep : (repository Allowed).step db call db') : db.Registered db' := by
  rcases repository_step_cases hstep with ⟨_, _, hcommits⟩ | ⟨_, rfl⟩
  · exact Op.registered hcommits
  · exact .of_eq rfl

/-! ## The listings -/

/-- The jobs of a project, in one state if one is asked for. -/
def jobListing (projectId : ProjectId) (state : Option JobState) :
    Listing Archive (JobId × JobRow) JobKey JobId JobSummary where
  table a := a.db.jobs.rows.map fun x => (x.1, x.2.val)
  selects x :=
    decide (x.2.projectId = projectId) && state.all fun s => decide (x.2.state = s)
  key x := JobCursor.key ⟨x.2.createdAt, x.1⟩
  id x := x.1
  item x := x.2.toSummary x.1

/-- The artifacts of a job. -/
def artifactListing (j : JobId) :
    Listing Archive (ArtifactId × ArtifactRow) ArtifactKey ArtifactId StoredArtifact where
  table a := a.artifacts.rows.map fun x => (x.1, x.2.val)
  selects x := decide (x.2.jobId = j)
  key x := ArtifactCursor.key ⟨j.val, x.2.createdAt, x.1.val⟩
  id x := x.1
  item x := x.2.intoStored x.1

def workerListing : Listing Archive (WorkerId × WorkerRow) WorkerKey WorkerId WorkerStatus where
  table a := a.db.workers.rows.map fun x => (x.1, x.2.val)
  selects _ := true
  key x := WorkerCursor.key ⟨x.2.registeredAt, x.1.val⟩
  id x := x.1
  item x := x.2.intoStatus x.1

def profileListing : Listing Archive (RuntimeProfileId × RuntimeProfileRow) String
    RuntimeProfileId RuntimeProfile where
  table a := a.db.catalog.runtimeProfiles.rows
  selects _ := true
  key x := x.1.val
  id x := x.1
  item x := x.2.intoProfile x.1

theorem jobListing_lawful (projectId : ProjectId) (state : Option JobState) :
    (jobListing projectId state).Lawful archive.Observed := by
  refine .of_steps (fun a => Table.nodup_values a.db.jobs) ?_ ?_
  · intro r r' hkey
    exact congrArg (fun k : JobKey => (ofLex (OrderDual.ofDual k)).2) hkey
  · rintro a call a' hr hstep ⟨j, row⟩ hmem
    have hrow : a.db.job? j = some row := Table.mem_values_iff.mp hmem
    obtain ⟨row', hrow', hsame⟩ : ∃ row', a'.db.job? j = some row' ∧
        row'.createdAt = row.createdAt := by
      obtain ⟨calls, hrun⟩ := archive_repository.step _ _ _ hr hstep
      refine hrun.preserves (P := fun db => ∃ row', db.job? j = some row' ∧
        row'.createdAt = row.createdAt) ?_ (archive_repository.reachable hr) ⟨row, hrow, rfl⟩
      rintro db call db' _ ⟨row₁, hrow₁, hsame₁⟩ hcall
      obtain ⟨row₂, hrow₂, hsame₂⟩ := repository_step_created hcall hrow₁
      exact ⟨row₂, hrow₂, hsame₂.trans hsame₁⟩
    refine ⟨(j, row'), Table.mem_values_iff.mpr hrow', rfl, ?_⟩
    show JobCursor.key ⟨row'.createdAt, j⟩ = JobCursor.key ⟨row.createdAt, j⟩
    rw [hsame]

theorem artifactListing_lawful (j : JobId) : (artifactListing j).Lawful archive.Observed := by
  refine .of_steps (fun a => Table.nodup_values a.artifacts) ?_ ?_
  · intro r r' hkey
    exact Ident.ext (congrArg (fun k : ArtifactKey => (ofLex (OrderDual.ofDual k)).2) hkey)
  · rintro a call a' _ hstep ⟨id, row⟩ hmem
    have hrow : a.artifact? id = some row := Table.mem_values_iff.mp hmem
    exact ⟨(id, row), Table.mem_values_iff.mpr (archive_artifact hstep hrow), rfl, rfl⟩

theorem workerListing_lawful : workerListing.Lawful archive.Observed := by
  refine .of_steps (fun a => Table.nodup_values a.db.workers) ?_ ?_
  · intro r r' hkey
    exact Ident.ext (congrArg (fun k : WorkerKey => (ofLex k).2) hkey)
  · rintro a call a' hr hstep ⟨w, row⟩ hmem
    have hrow : a.db.worker? w = some row := Table.mem_values_iff.mp hmem
    have hkept : a.db.Registered a'.db := by
      obtain ⟨calls, hrun⟩ := archive_repository.step _ _ _ hr hstep
      refine hrun.preserves (P := fun db => a.db.Registered db) ?_
        (archive_repository.reachable hr) (.of_eq rfl)
      exact fun db call db' _ hdb hcall => hdb.trans (repository_step_registered hcall)
    obtain ⟨row', hrow', hsame⟩ := hkept w row hrow
    refine ⟨(w, row'), Table.mem_values_iff.mpr hrow', rfl, ?_⟩
    show WorkerCursor.key ⟨row'.registeredAt, w.val⟩ = WorkerCursor.key ⟨row.registeredAt, w.val⟩
    rw [hsame]

theorem profileListing_lawful (history : (Nat → Archive) → Prop) :
    profileListing.Lawful history :=
  .of_names (fun a => a.db.catalog.runtimeProfiles.nodup) fun _ _ =>
    ⟨fun hkey => Ident.ext hkey, fun hid => congrArg Ident.val hid⟩

/-- The stored profiles are ones the contract accepts. -/
def Db.ValidProfiles (db : Db) : Prop :=
  ∀ id row, db.catalog.runtimeProfiles.get? id = some row → (row.intoProfile id).isValid = true

theorem validProfiles_page {a : Archive} (h : a.db.ValidProfiles) {C : Type}
    (encode : String → C) (cursor : Option String) :
    (profileListing.present encode controlPlanePageSize cursor a).items.all (·.isValid) = true := by
  refine List.all_eq_true.mpr fun item hitem => ?_
  obtain ⟨⟨id, row⟩, hrow, rfl⟩ := List.mem_map.mp hitem
  have hin := (List.mem_filter.mp (Keyset.mem_page hrow).1).1
  exact h id row ((Table.mem_rows_iff _ id row).mp hin)

/-! ## Keyset pages -/

theorem pageSize_pos : 0 < controlPlanePageSize := by decide

/-! The cursor of a key. -/

def jobCursor (k : JobKey) : JobCursor :=
  ⟨(ofLex (OrderDual.ofDual k)).1, (ofLex (OrderDual.ofDual k)).2⟩

def artifactCursor (j : JobId) (k : ArtifactKey) : ArtifactCursor :=
  ⟨j.val, (ofLex (OrderDual.ofDual k)).1, (ofLex (OrderDual.ofDual k)).2⟩

def workerCursor (k : WorkerKey) : WorkerCursor := ⟨(ofLex k).1, (ofLex k).2⟩

/-- The answer over a row of the reserved kind. -/
abbrev reservedProfile : RepositoryError := .decode "runtime_profiles"
  "runtime kind BrowserNativeWasm is reserved and is not valid in Part 01 profiles"

/-- The routes with a cursor. -/
inductive Route
  | jobs | jobArtifacts | workers | runtimeProfiles

namespace Route

def name : Route → String
  | .jobs => "jobs"
  | .jobArtifacts => "job_artifacts"
  | .workers => "workers"
  | .runtimeProfiles => "runtime_profiles"

abbrev Key : Route → Type
  | .jobs => JobCursor
  | .jobArtifacts => ArtifactCursor
  | .workers => WorkerCursor
  | .runtimeProfiles => RuntimeProfileCursor

def serde (codec : CursorCodec) : (r : Route) → Serde r.Key
  | .jobs => JobCursor.serde codec
  | .jobArtifacts => ArtifactCursor.serde codec
  | .workers => WorkerCursor.serde codec
  | .runtimeProfiles => RuntimeProfileCursor.serde

theorem name_inj {r r' : Route} (h : r.name = r'.name) : r = r' := by
  cases r <;> cases r' <;> first | rfl | exact absurd h (by decide)

theorem serde_lawful {codec : CursorCodec} (hcodec : codec.Lawful) (r : Route) :
    (r.serde codec).Lawful := by
  cases r with
  | jobs => exact JobCursor.serde_lawful hcodec
  | jobArtifacts => exact ArtifactCursor.serde_lawful hcodec
  | workers => exact WorkerCursor.serde_lawful hcodec
  | runtimeProfiles => exact RuntimeProfileCursor.serde_lawful

end Route

section Codec

variable {codec : CursorCodec} (hcodec : codec.Lawful)
include hcodec

section Route

variable {S R K I α Key : Type} [LinearOrder K] {serde : Serde Key} (hserde : serde.Lawful)
  (route : String) (ofKey : K → Key)
include hserde

omit [LinearOrder K] in
/-- A listing reads a cursor of its own as the key it was written for. -/
theorem decode_cursorText (cursor : Option K) :
    (cursor.map fun k => cursorText codec serde route (ofKey k)).mapM
      (decodeRouteCursor codec serde route) = .ok (cursor.map ofKey) := by
  cases cursor with
  | none => rfl
  | some k =>
      have hdecode := decode_encodeRouteCursor hcodec hserde
        (@encodeRouteCursor_eq _ codec serde route (ofKey k) hcodec hserde)
      simp only [Option.map_some, Option.mapM_some, hdecode]
      rfl

/-- The next cursor is that of the keyset page. -/
theorem nextCursor_present (L : Listing S R K I α) (limit : Nat) (cursor : Option K) (s : S) :
    nextCursor (Keyset.page L.key limit cursor (L.matching s))
        (fun r => encodeRouteCursor codec serde route (ofKey (L.key r))) =
      .ok (L.present (fun k => cursorText codec serde route (ofKey k)) limit cursor
        s).nextCursor := by
  unfold Listing.present Listing.toPage nextCursor
  simp only [encodeRouteCursor_eq hcodec hserde]
  generalize Keyset.page L.key limit cursor (L.matching s) = page
  cases page.2 with
  | false => rfl
  | true => cases page.1.getLast? <;> rfl

end Route

/-- The text of a job's cursor. -/
def jobText (codec : CursorCodec) (k : JobKey) : String :=
  cursorText codec (JobCursor.serde codec) "jobs" (jobCursor k)

def artifactText (codec : CursorCodec) (j : JobId) (k : ArtifactKey) : String :=
  cursorText codec (ArtifactCursor.serde codec) "job_artifacts" (artifactCursor j k)

def workerText (codec : CursorCodec) (k : WorkerKey) : String :=
  cursorText codec (WorkerCursor.serde codec) "workers" (workerCursor k)

def profileText (codec : CursorCodec) (k : String) : String :=
  cursorText codec RuntimeProfileCursor.serde "runtime_profiles" ⟨k⟩

/-- `list_jobs` shows the keyset page behind the cursor it reads. -/
theorem listJobs_shown (projectId : ProjectId) (state : Option JobState) {limit : Nat}
    (hpos : 0 < limit) (hmax : limit ≤ 200) (a : Archive) {cursor : Option String}
    {c : Option JobCursor} (hcursor : cursor.mapM (JobCursor.decode codec) = .ok c) :
    (listJobs codec ⟨projectId, state, cursor, limit⟩).Commits a.db
      ((jobListing projectId state).present (jobText codec) limit (c.map JobCursor.key) a)
      a.db := by
  have hserde := JobCursor.serde_lawful hcodec
  have hlimit : (decide (0 < limit) && decide (limit ≤ 200)) = true := by simp [hpos, hmax]
  have hnext := nextCursor_present hcodec hserde "jobs" jobCursor (jobListing projectId state) limit
    (c.map JobCursor.key) a
  simp only [listJobs, Tx.bind_commits, Tx.ofExcept_commits, Tx.read_commits, Tx.pure_commits,
    checkedLimit, Tx.require_commits]
  exact ⟨(), _, ⟨hlimit, rfl⟩, _, _, ⟨hcursor, rfl⟩, _, _, ⟨rfl, rfl⟩, _, _, ⟨hnext, rfl⟩, rfl, rfl⟩

/-- `list_jobs` returns the keyset pages of its listing. -/
theorem listJobs_present (projectId : ProjectId) (state : Option JobState) {limit : Nat}
    (hpos : 0 < limit) (hmax : limit ≤ 200) (a : Archive) (cursor : Option JobKey) :
    (listJobs codec ⟨projectId, state, cursor.map (jobText codec), limit⟩).Commits a.db
      ((jobListing projectId state).present (jobText codec) limit cursor a) a.db := by
  have hkeys : (cursor.map jobCursor).map JobCursor.key = cursor := by cases cursor <;> rfl
  have hshown := listJobs_shown hcodec projectId state hpos hmax a
    (decode_cursorText hcodec (JobCursor.serde_lawful hcodec) "jobs" jobCursor cursor)
  rwa [hkeys] at hshown

/-- `list_artifacts_page` shows the keyset page behind the cursor it reads, one of the job. -/
theorem listArtifactsPage_shown (j : JobId) (a : Archive) {cursor : Option String}
    {c : Option ArtifactCursor} (hcursor : cursor.mapM (decodeRouteCursor codec
      (ArtifactCursor.serde codec) "job_artifacts") = .ok c)
    (hjob : (c.all fun c => decide (c.jobId = j.val)) = true) :
    (listArtifactsPage codec j cursor).Commits a
      ((artifactListing j).present (artifactText codec j) controlPlanePageSize
        (c.map ArtifactCursor.key) a) a := by
  have hserde := ArtifactCursor.serde_lawful hcodec
  have hnext := nextCursor_present hcodec hserde "job_artifacts" (artifactCursor j)
    (artifactListing j) controlPlanePageSize (c.map ArtifactCursor.key) a
  simp only [listArtifactsPage, Tx.bind_commits, Tx.ofExcept_commits, Tx.read_commits,
    Tx.pure_commits, Tx.require_commits]
  exact ⟨_, _, ⟨hcursor, rfl⟩, (), _, ⟨hjob, rfl⟩, _, _, ⟨rfl, rfl⟩, _, _, ⟨hnext, rfl⟩, rfl, rfl⟩

/-- `list_artifacts_page` returns the keyset pages of its listing. -/
theorem listArtifactsPage_present (j : JobId) (a : Archive) (cursor : Option ArtifactKey) :
    (listArtifactsPage codec j (cursor.map (artifactText codec j))).Commits a
      ((artifactListing j).present (artifactText codec j) controlPlanePageSize cursor a) a := by
  have hkeys : (cursor.map (artifactCursor j)).map ArtifactCursor.key = cursor := by
    cases cursor <;> rfl
  have hjob : (cursor.map (artifactCursor j)).all (fun c => decide (c.jobId = j.val)) = true := by
    cases cursor <;> simp [artifactCursor]
  have hshown := listArtifactsPage_shown hcodec j a (decode_cursorText hcodec
    (ArtifactCursor.serde_lawful hcodec) "job_artifacts" (artifactCursor j) cursor) hjob
  rwa [hkeys] at hshown

/-- `list_workers_page` shows the keyset page behind the cursor it reads. -/
theorem listWorkersPage_shown (a : Archive) {cursor : Option String} {c : Option WorkerCursor}
    (hcursor : cursor.mapM (decodeRouteCursor codec (WorkerCursor.serde codec) "workers") =
      .ok c) : (listWorkersPage codec cursor).Commits a.db
      (workerListing.present (workerText codec) controlPlanePageSize (c.map WorkerCursor.key) a)
      a.db := by
  have hserde := WorkerCursor.serde_lawful hcodec
  have hall : workerListing.matching a = workerListing.table a := List.filter_true _
  have hnext := nextCursor_present hcodec hserde "workers" workerCursor workerListing
    controlPlanePageSize (c.map WorkerCursor.key) a
  rw [hall] at hnext
  simp only [listWorkersPage, Tx.bind_commits, Tx.ofExcept_commits, Tx.read_commits,
    Tx.pure_commits]
  refine ⟨_, _, ⟨hcursor, rfl⟩, _, _, ⟨rfl, rfl⟩,
    (workerListing.present (workerText codec) controlPlanePageSize (c.map WorkerCursor.key)
      a).nextCursor, _, ⟨hnext, rfl⟩, ?_, rfl⟩
  rw [Listing.present, hall]
  rfl

/-- `list_workers_page` returns the keyset pages of its listing. -/
theorem listWorkersPage_present (a : Archive) (cursor : Option WorkerKey) :
    (listWorkersPage codec (cursor.map (workerText codec))).Commits a.db
      (workerListing.present (workerText codec) controlPlanePageSize cursor a) a.db := by
  have hkeys : (cursor.map workerCursor).map WorkerCursor.key = cursor := by cases cursor <;> rfl
  have hshown := listWorkersPage_shown hcodec a
    (decode_cursorText hcodec (WorkerCursor.serde_lawful hcodec) "workers" workerCursor cursor)
  rwa [hkeys] at hshown

/-- `list_runtime_profiles_page` shows the keyset page behind the cursor it reads, or fails over a
row of the page that is not valid. -/
theorem listRuntimeProfilesPage_shown (a : Archive) {cursor : Option String}
    {c : Option RuntimeProfileCursor} (hcursor : cursor.mapM (decodeRouteCursor codec
      RuntimeProfileCursor.serde "runtime_profiles") = .ok c) :
    (listRuntimeProfilesPage codec cursor a.db) =
      if (profileListing.present (profileText codec) controlPlanePageSize
          (c.map RuntimeProfileCursor.profileId) a).items.all (·.isValid) then
        .ok (profileListing.present (profileText codec) controlPlanePageSize
          (c.map RuntimeProfileCursor.profileId) a, a.db)
      else .error reservedProfile := by
  have hserde := RuntimeProfileCursor.serde_lawful
  have hall : profileListing.matching a = profileListing.table a := List.filter_true _
  generalize hkeys : c.map RuntimeProfileCursor.profileId = keys
  have hnext := nextCursor_present hcodec hserde "runtime_profiles" RuntimeProfileCursor.mk
    profileListing controlPlanePageSize keys a
  rw [Listing.present, hall] at hnext
  have hitems : (profileListing.present (profileText codec) controlPlanePageSize keys a).items =
      (Keyset.page profileListing.key controlPlanePageSize keys (profileListing.table a)).1.map
        profileListing.item := by
    rw [Listing.present, hall]
    rfl
  refine (Tx.bind_of_commits (Tx.ofExcept_commits.mpr ⟨hcursor, rfl⟩)).trans ?_
  refine (Tx.bind_of_commits (Tx.read_commits.mpr ⟨rfl, rfl⟩)).trans ?_
  rw [hkeys]
  refine (Tx.bind_of_commits (Tx.ofExcept_commits.mpr ⟨hnext, rfl⟩)).trans ?_
  rw [hitems]
  show (Tx.require (((Keyset.page profileListing.key controlPlanePageSize keys
    (profileListing.table a)).1.map profileListing.item).all (·.isValid)) reservedProfile >>= _)
      a.db = _
  cases hvalid : ((Keyset.page profileListing.key controlPlanePageSize keys
    (profileListing.table a)).1.map profileListing.item).all (·.isValid) with
  | false => rfl
  | true =>
      rw [if_pos rfl, Listing.present, hall]
      rfl

theorem exec_listRuntimeProfilesPage (a : Archive) (cursor : Option String) :
    ((listRuntimeProfilesPage codec (cursor.map (profileText codec))).exec a.db).1 =
      if (profileListing.present (profileText codec) controlPlanePageSize cursor a).items.all
          (·.isValid) then
        .ok (profileListing.present (profileText codec) controlPlanePageSize cursor a)
      else .error reservedProfile := by
  have hkeys : (cursor.map RuntimeProfileCursor.mk).map RuntimeProfileCursor.profileId =
      cursor := by
    cases cursor <;> rfl
  have hpage := listRuntimeProfilesPage_shown hcodec a (decode_cursorText hcodec
    RuntimeProfileCursor.serde_lawful "runtime_profiles" RuntimeProfileCursor.mk cursor)
  rw [hkeys] at hpage
  change listRuntimeProfilesPage codec (cursor.map (profileText codec)) a.db = _ at hpage
  split at hpage
  · next hvalid =>
      have hcommits : (listRuntimeProfilesPage codec (cursor.map (profileText codec))).Commits
        a.db _ a.db := hpage
      rw [hcommits.exec_eq, if_pos hvalid]
  · next hinvalid => rw [Tx.exec_of_error hpage, if_neg hinvalid]

/-! ## Cursors -/

/-- A cursor reads back as its key. -/
theorem Route.roundTrip (r : Route) (key : r.Key) :
    ∃ text, encodeRouteCursor codec (r.serde codec) r.name key = .ok text ∧
      decodeRouteCursor codec (r.serde codec) r.name text = .ok key := by
  obtain ⟨text, htext⟩ := encodeRouteCursor_ok hcodec (r.serde_lawful hcodec) r.name key
  exact ⟨text, htext, decode_encodeRouteCursor hcodec (r.serde_lawful hcodec) htext⟩

/-- A listing of artifacts rejects a cursor of another job. -/
theorem listArtifactsPage_other_job (a : Archive) (j : JobId) {c : ArtifactCursor} {text : String}
    (htext : encodeRouteCursor codec (ArtifactCursor.serde codec) "job_artifacts" c = .ok text)
    (hne : c.jobId ≠ j.val) : listArtifactsPage codec j (some text) a =
      .error (.validation "artifact cursor belongs to a different job") := by
  have hdecode := decode_encodeRouteCursor hcodec (ArtifactCursor.serde_lawful hcodec) htext
  have hread : (some text).mapM (decodeRouteCursor codec (ArtifactCursor.serde codec)
      "job_artifacts") = .ok (some c) := by
    rw [Option.mapM_some, hdecode]
    rfl
  refine (Tx.bind_of_commits (Tx.ofExcept_commits.mpr ⟨hread, rfl⟩)).trans ?_
  refine Tx.bind_of_error ?_
  have hfalse : (some c).all (fun c => decide (c.jobId = j.val)) = false := decide_eq_false hne
  rw [hfalse]
  rfl

end Codec

/-- What the listings and their cursors are for. -/
structure Paginates (codec : CursorCodec) : Prop where
  jobs : ∀ projectId state limit, 0 < limit → limit ≤ 200 →
    (jobListing projectId state).Paged archive.Observed fun a cursor =>
      ((listJobs codec ⟨projectId, state, cursor, limit⟩).exec a.db).1
  artifacts : ∀ j, (artifactListing j).Paged archive.Observed fun a cursor =>
    ((listArtifactsPage codec j cursor).exec a).1
  workers : workerListing.Paged archive.Observed fun a cursor =>
    ((listWorkersPage codec cursor).exec a.db).1
  /-- Profiles, in histories whose reads have valid ones only. -/
  profiles : profileListing.Paged
    (fun reads => archive.Observed reads ∧ ∀ k, (reads k).db.ValidProfiles) fun a cursor =>
      ((listRuntimeProfilesPage codec cursor).exec a.db).1
  /-- A page of profiles fails exactly over a row that is not valid. -/
  reserved : ∀ a cursor,
    ((listRuntimeProfilesPage codec (cursor.map (profileText codec))).exec a.db).1 =
      if (profileListing.present (profileText codec) controlPlanePageSize cursor a).items.all
          (·.isValid) then
        .ok (profileListing.present (profileText codec) controlPlanePageSize cursor a)
      else .error reservedProfile
  roundTrip : ∀ (r : Route) (key : r.Key), ∃ text,
    encodeRouteCursor codec (r.serde codec) r.name key = .ok text ∧
      decodeRouteCursor codec (r.serde codec) r.name text = .ok key
  otherRoute : ∀ (r r' : Route) (key : r.Key) text, r ≠ r' →
    encodeRouteCursor codec (r.serde codec) r.name key = .ok text →
      decodeRouteCursor codec (r'.serde codec) r'.name text = .error (.validation
        ("cursor is for route `" ++ r.name ++ "`, not `" ++ r'.name ++ "`"))
  otherJob : ∀ a (j : JobId) (c : ArtifactCursor) text, c.jobId ≠ j.val →
    encodeRouteCursor codec (ArtifactCursor.serde codec) "job_artifacts" c = .ok text →
      ((listArtifactsPage codec j (some text)).exec a).1 =
        .error (.validation "artifact cursor belongs to a different job")

/-- **Keyset pagination is complete.** Every listing is paged, in the order of its keys, along
every history of the calls that insert and update its rows; the cursors of its pages are read
back as the keys they were written for, and no others are read. -/
theorem listings_paged (codec : CursorCodec) (hcodec : codec.Lawful) : Paginates codec := by
  constructor
  · intro projectId state limit hpos hmax
    have hlist (a : Archive) (cursor : Option JobKey) :
        ((listJobs codec ⟨projectId, state, cursor.map (jobText codec), limit⟩).exec a.db).1 =
          .ok ((jobListing projectId state).present (jobText codec) limit cursor a) := by
      rw [(listJobs_present hcodec projectId state hpos hmax a cursor).exec_eq]
    exact Listing.paged (jobListing_lawful projectId state) hpos fun reads _ k => hlist (reads k)
  · intro j
    have hlist (a : Archive) (cursor : Option ArtifactKey) :
        ((listArtifactsPage codec j (cursor.map (artifactText codec j))).exec a).1 =
          .ok ((artifactListing j).present (artifactText codec j) controlPlanePageSize cursor
            a) := by
      rw [(listArtifactsPage_present hcodec j a cursor).exec_eq]
    exact Listing.paged (artifactListing_lawful j) pageSize_pos fun reads _ k => hlist (reads k)
  · have hlist (a : Archive) (cursor : Option WorkerKey) :
        ((listWorkersPage codec (cursor.map (workerText codec))).exec a.db).1 =
          .ok (workerListing.present (workerText codec) controlPlanePageSize cursor a) := by
      rw [(listWorkersPage_present hcodec a cursor).exec_eq]
    exact Listing.paged workerListing_lawful pageSize_pos fun reads _ k => hlist (reads k)
  · have hlist (a : Archive) (hvalid : a.db.ValidProfiles) (cursor : Option String) :
        ((listRuntimeProfilesPage codec (cursor.map (profileText codec))).exec a.db).1 =
          .ok (profileListing.present (profileText codec) controlPlanePageSize cursor a) := by
      rw [exec_listRuntimeProfilesPage hcodec a cursor, if_pos (validProfiles_page hvalid _ cursor)]
    exact Listing.paged (profileListing_lawful _) pageSize_pos fun reads hreads k =>
      hlist (reads k) (hreads.2 k)
  · exact exec_listRuntimeProfilesPage hcodec
  · exact fun r key => r.roundTrip hcodec key
  · intro r r' key text hne htext
    exact decode_other_route hcodec (r.serde_lawful hcodec) htext fun h => hne (Route.name_inj h)
  · intro a j c text hne htext
    rw [Tx.exec_of_error (listArtifactsPage_other_job hcodec a j htext hne)]

namespace Sample

/-- A later job of the project, and the database with both. -/
def laterJob : JobId := ⟨"job_b", by decide⟩

def twoJobs : Db :=
  after (created ++ [(.createJobWithOutbox laterJob (event 1) request "other" [], at_ 3)])

/-- A catalog with a profile of the reserved kind. -/
def reservedCatalog : Catalog :=
  { catalog with
    runtimeProfiles := Table.empty.put profile ⟨35, "pixel_6", .x86_64, .x86_64,
      .browserNativeWasm, "image", .vmIsolated⟩ }

end Sample

/-- The first of two jobs on a page of its own, with its cursor. -/
theorem listings_paged_text : Paginates textCodec ∧
    ((listJobs textCodec ⟨Sample.project, none, none, 1⟩).exec Sample.twoJobs).1.map
      (fun page => (page.items.map (·.id), page.nextCursor)) =
      .ok ([Sample.laterJob], some ("eyJyb3V0ZSI6ImpvYnMiLCJrZXkiOnsiY3JlYXRlZF9hdCI6IjE5Nz" ++
        "AtMDEtMDFUMDA6MDA6MDNaIiwiam9iX2lkIjoiam9iX2IifX0")) :=
  ⟨listings_paged textCodec textCodec_lawful, by decide +kernel⟩

/-- **The reserved kind.** A stored profile of the reserved kind ends the listing of profiles
with an error. -/
theorem reserved_profile_ends_listing :
    ¬ profileListing.Paged archive.Observed fun a cursor =>
      ((listRuntimeProfilesPage textCodec cursor).exec a.db).1 := by
  intro hpaged
  have hobserved : archive.Observed fun _ => Archive.empty Sample.reservedCatalog :=
    ⟨.init ⟨_, rfl⟩, fun _ => ⟨[], .nil _⟩⟩
  obtain ⟨pages, shown, hpages, _⟩ := hpaged.pages _ hobserved 1
  have hfails : ((listRuntimeProfilesPage textCodec none).exec
      (Archive.empty Sample.reservedCatalog).db).1 = .error reservedProfile := by decide +kernel
  simp only [Logic.traverse, hfails] at hpages
  cases hpages

end RunAnywhere
