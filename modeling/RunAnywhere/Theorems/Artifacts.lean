import RunAnywhere.Repository.Run

/-!
# The artifact list of a result

`verify_artifact_ids` compares the number of artifacts of the job among the listed
identifiers with the length of the list. The count takes each artifact once, so

* a list without repetitions passes exactly if all of it belongs to the job;
* a list that repeats one of its identifiers never passes, though the same identifiers
  without the repetition may.

`record_job_result` reads the list nowhere else (`accepted_iff`).
-/

namespace RunAnywhere

open Logic

/-- The identifier is of an artifact of the job. -/
def Db.IsArtifactOf (db : Db) (j : JobId) (id : ArtifactId) : Prop :=
  db.catalog.artifacts.get? id = some j

namespace JobResult

/-- The result with another list. -/
def listing (result : JobResult) (ids : List ArtifactId) : JobResult :=
  { result with artifactIds := ids }

/-- `record_job_result` accepts the result. -/
def Accepted (result : JobResult) (eventId : JobEventId) (t : DbTime) (db : Db) : Prop :=
  ∃ job db', (recordJobResult result eventId t).exec db = (.ok job, db')

end JobResult

/-- **The check.** It passes for a list of artifacts of the job without repetitions. -/
theorem verifyArtifactIds_commits_iff {db : Db} {j : JobId} {ids : List ArtifactId} :
    (verifyArtifactIds j ids).Commits db () db ↔
      ids.Nodup ∧ ∀ id ∈ ids, db.IsArtifactOf j id := by
  have howner : ∀ id, (db.catalog.artifacts.get? id).any (fun job => decide (job = j)) = true ↔
      db.IsArtifactOf j id := by
    intro id
    unfold Db.IsArtifactOf
    cases db.catalog.artifacts.get? id <;> simp
  have hcount := Table.count_listed_iff db.catalog.artifacts (fun _ job => decide (job = j)) ids
  simp only [howner] at hcount
  rw [← hcount]
  cases ids with
  | nil => simp [verifyArtifactIds, Table.count]
  | cons id ids =>
      show (Tx.read _ >>= fun count => Tx.require (decide (count = (id :: ids).length)) _).Commits
        db () db ↔ _
      simp only [Tx.bind_commits, Tx.read_commits, Tx.require_commits, decide_eq_true_iff]
      constructor
      · rintro ⟨_, _, ⟨rfl, rfl⟩, h, _⟩
        exact h
      · intro h
        exact ⟨_, _, ⟨rfl, rfl⟩, h, rfl⟩

/-! ## The rest of `record_job_result` -/

/-- What `record_job_result` checks before the list; it returns the row. -/
private def checkResult (result : JobResult) : RepoTx JobRow := do
  .require (!(result.cleanupCompleted && !result.artifactsFinalized))
    (.validation "cleanup completion requires finalized artifacts")
  .require (!(decide (result.outcome = .passed) && result.error.isSome))
    (.validation "a passed result cannot include an error")
  let current ← .okOr (← lockJob result.jobId) (.notFound "job" result.jobId.val)
  .require (current.heldBy result.workerId result.leaseId)
    (.compareAndSwapLost "job lease" result.jobId.val)
  .require (!current.state.isTerminal) (.conflict "cannot record a result for a terminal job")
  .require (!(result.cleanupCompleted && !(current.artifactsFinalized || result.artifactsFinalized)))
    (.validation "cleanup completion requires finalized artifacts")
  match current.pendingOutcome with
  | some existing =>
      .require (decide (existing = result.outcome))
        (.conflict ("job already has pending outcome " ++ existing.debug))
  | none => pure ()
  pure current

/-- What it writes after the list. -/
private def storeResult (result : JobResult) (eventId : JobEventId) (t : DbTime) (current : JobRow) :
    RepoTx Job := do
  .require (result.error.all fun failure => jsonbHolds failure.message)
    (.sqlx .untranslatableCharacter)
  let row ← updateJob result.jobId (resultGuard result t) (·.withResult result)
  let row ← .okOr row (.compareAndSwapLost "job result" result.jobId.val)
  let _ ← appendEvent eventId result.jobId "job.result_recorded" (some current.state) false
    [("outcome", .outcome result.outcome), ("completed_at", .instant result.completedAt),
      ("artifact_ids", .artifacts result.artifactIds)] t
  pure (row.intoJob result.jobId)

private theorem recordJobResult_split (result : JobResult) (eventId : JobEventId) (t : DbTime) :
    recordJobResult result eventId t = (do
      let current ← checkResult result
      verifyArtifactIds result.jobId result.artifactIds
      storeResult result eventId t current) := by
  simp only [checkResult, bind_assoc]
  unfold recordJobResult
  refine congrArg _ (funext fun _ => congrArg _ (funext fun _ => congrArg _ (funext fun _ => ?_)))
  refine congrArg _ (funext fun current => congrArg _ (funext fun _ => congrArg _ ?_))
  refine funext fun _ => congrArg _ (funext fun _ => ?_)
  cases current.pendingOutcome with
  | none => rfl
  | some existing =>
      refine .trans ?_ (bind_assoc (Tx.require _ _) (fun _ => pure current) _).symm
      rfl

/-- An event that changes no state is appended whatever its payload. -/
private theorem appendEvent_accepts {eventId : JobEventId} {j : JobId} {eventType : String}
    {state : Option JobState} {payload payload' : List (String × EventValue)} {t : DbTime}
    {db db' : Db} {event : JobEvent}
    (h : (appendEvent eventId j eventType state false payload t).Commits db event db') :
    ∃ event' db₁, (appendEvent eventId j eventType state false payload' t).Commits db event' db₁ := by
  simp only [appendEvent, Tx.bind_commits, Tx.require_commits, Tx.read_commits,
    Bool.false_eq_true, if_false, Tx.pure_commits] at h ⊢
  obtain ⟨_, _, ⟨hblank, rfl⟩, _, _, ⟨rfl, rfl⟩, _, _, ⟨hjob, rfl⟩, _, _, ⟨hstate, rfl⟩, h⟩ := h
  obtain ⟨_, _, hinsert, _⟩ := h
  have hinsert' : ∃ event' db₁,
      (insertEvent eventId j eventType state payload' t).Commits db event' db₁ := by
    unfold Tx.Commits insertEvent at hinsert ⊢
    split at hinsert
    · cases hinsert
    · next hfresh =>
        rw [if_neg hfresh]
        exact ⟨_, _, rfl⟩
  obtain ⟨event', db₁, hinsert'⟩ := hinsert'
  exact ⟨event', db₁, (), db, ⟨hblank, rfl⟩, _, db, ⟨rfl, rfl⟩, (), db, ⟨hjob, rfl⟩, (), db,
    ⟨hstate, rfl⟩, event', db₁, hinsert', rfl, rfl⟩

/-- The list decides nothing after its check. -/
private theorem storeResult_accepts {result : JobResult} {l : List ArtifactId}
    {eventId : JobEventId} {t : DbTime} {current : JobRow} {db db' : Db} {job : Job}
    (h : (storeResult result eventId t current).Commits db job db') :
    ∃ job' db₁, (storeResult (result.listing l) eventId t current).Commits db job' db₁ := by
  simp only [storeResult, Tx.bind_commits, Tx.okOr_commits, Tx.pure_commits,
    Tx.require_commits] at h ⊢
  obtain ⟨_, _, ⟨htext, rfl⟩, updated, db₁, hup, row, _, ⟨hsome, rfl⟩, event, _, hevent, _⟩ := h
  obtain ⟨event', db₂, hevent'⟩ := appendEvent_accepts hevent
  exact ⟨_, db₂, (), db, ⟨htext, rfl⟩, updated, db₁, hup, row, db₁, ⟨hsome, rfl⟩, event', db₂,
    hevent', rfl, rfl⟩

private theorem checkResult_commits {result : JobResult} {db db' : Db} {row : JobRow}
    (h : (checkResult result).Commits db row db') : db = db' := by
  simp only [checkResult, Tx.bind_commits, Tx.okOr_commits, Tx.require_commits,
    lockJob_commits] at h
  obtain ⟨_, _, ⟨_, rfl⟩, _, _, ⟨_, rfl⟩, _, _, ⟨rfl, rfl⟩, current, _, ⟨_, rfl⟩, h⟩ := h
  obtain ⟨_, _, ⟨_, rfl⟩, _, _, ⟨_, rfl⟩, _, _, ⟨_, rfl⟩, h⟩ := h
  cases hp : current.pendingOutcome with
  | none =>
      rw [hp] at h
      exact (Tx.pure_commits.mp h).2
  | some existing =>
      rw [hp] at h
      simp only [Tx.bind_commits, Tx.require_commits, Tx.pure_commits] at h
      obtain ⟨_, _, ⟨_, rfl⟩, _, rfl⟩ := h
      rfl

/-- **Acceptance.** A result is accepted if and only if it is accepted without its list and the
list passes its check. -/
theorem accepted_iff {result : JobResult} {eventId : JobEventId} {t : DbTime} {db : Db} :
    result.Accepted eventId t db ↔ (result.listing []).Accepted eventId t db ∧
      result.artifactIds.Nodup ∧ ∀ id ∈ result.artifactIds, db.IsArtifactOf result.jobId id := by
  rw [← verifyArtifactIds_commits_iff]
  have hempty : (verifyArtifactIds result.jobId []).Commits db () db := rfl
  constructor
  · rintro ⟨job, db', h⟩
    have hc := Tx.commits_of_exec h
    rw [recordJobResult_split] at hc
    simp only [Tx.bind_commits] at hc
    obtain ⟨current, _, hcheck, _, _, hverify, hstore⟩ := hc
    obtain rfl := checkResult_commits hcheck
    obtain rfl := verifyArtifactIds_commits hverify
    obtain ⟨job', db₁, hstore'⟩ := storeResult_accepts (l := []) hstore
    refine ⟨⟨job', db₁, Tx.Commits.exec_eq ?_⟩, hverify⟩
    rw [recordJobResult_split]
    simp only [Tx.bind_commits]
    exact ⟨current, db, hcheck, (), db, hempty, hstore'⟩
  · rintro ⟨⟨job, db', h⟩, hverify⟩
    have hc := Tx.commits_of_exec h
    rw [recordJobResult_split] at hc
    simp only [Tx.bind_commits] at hc
    obtain ⟨current, _, hcheck, _, _, hnone, hstore⟩ := hc
    obtain rfl := checkResult_commits hcheck
    obtain rfl := verifyArtifactIds_commits hnone
    obtain ⟨job', db₁, hstore'⟩ := storeResult_accepts (l := result.artifactIds) hstore
    refine ⟨job', db₁, Tx.Commits.exec_eq ?_⟩
    rw [recordJobResult_split]
    simp only [Tx.bind_commits]
    exact ⟨current, db, hcheck, (), db, hverify, hstore'⟩

/-! ## The check of the list -/

/-- What a check of the list as a set means, for a result: the check passes if and only if every
listed artifact is the job's, the result is accepted whenever it is with a list of the same
identifiers, and with another artifact among them it is refused and changes nothing. -/
structure JobResult.ListIsSet (result : JobResult) (eventId : JobEventId) (t : DbTime)
    (db : Db) : Prop where
  checked : ((verifyArtifactIds result.jobId result.artifactIds).exec db).1 = .ok () ↔
    ∀ id ∈ result.artifactIds, db.IsArtifactOf result.jobId id
  accepted : ∀ ids, (∀ id, id ∈ ids ↔ id ∈ result.artifactIds) →
    (result.listing ids).Accepted eventId t db → result.Accepted eventId t db
  foreign : (∃ id ∈ result.artifactIds, ¬ db.IsArtifactOf result.jobId id) →
    ∃ e, (recordJobResult result eventId t).exec db = (.error e, db)

/-- **Artifact lists.** The list of a result is checked as a set if and only if it repeats no
identifier or has one that is not of an artifact of the job. -/
theorem artifact_lists_checked (result : JobResult) (eventId : JobEventId) (t : DbTime) (db : Db) :
    result.ListIsSet eventId t db ↔ result.artifactIds.Nodup ∨
      ∃ id ∈ result.artifactIds, ¬ db.IsArtifactOf result.jobId id := by
  have hok : ((verifyArtifactIds result.jobId result.artifactIds).exec db).1 = .ok () ↔
      result.artifactIds.Nodup ∧ ∀ id ∈ result.artifactIds, db.IsArtifactOf result.jobId id := by
    rw [← verifyArtifactIds_commits_iff]
    rcases Tx.exec_cases (verifyArtifactIds result.jobId result.artifactIds) db with
      ⟨u, db', hc, hexec⟩ | ⟨e, he, hexec⟩
    · obtain rfl := verifyArtifactIds_commits hc
      rw [hexec]
      exact ⟨fun _ => hc, fun _ => rfl⟩
    · rw [hexec]
      constructor
      · intro h
        cases h
      · intro hc
        cases he.symm.trans hc
  constructor
  · intro h
    by_cases hall : ∀ id ∈ result.artifactIds, db.IsArtifactOf result.jobId id
    · exact Or.inl (hok.mp (h.checked.mpr hall)).1
    · refine Or.inr (by_contra fun hnone => hall fun id hid => ?_)
      exact by_contra fun hforeign => hnone ⟨id, hid, hforeign⟩
  · intro h
    refine ⟨hok.trans ⟨fun hpass => hpass.2, fun hall => ⟨?_, hall⟩⟩, ?_, ?_⟩
    · rcases h with hnodup | ⟨id, hid, hforeign⟩
      · exact hnodup
      · exact absurd (hall id hid) hforeign
    · intro ids hsame haccepted
      obtain ⟨hrest, _, hall⟩ := accepted_iff.mp haccepted
      have hall' : ∀ id ∈ result.artifactIds, db.IsArtifactOf result.jobId id :=
        fun id hid => hall id ((hsame id).mpr hid)
      rcases h with hnodup | ⟨id, hid, hforeign⟩
      · exact accepted_iff.mpr ⟨hrest, hnodup, hall'⟩
      · exact absurd (hall' id hid) hforeign
    · rintro ⟨id, hid, hforeign⟩
      rcases Tx.exec_cases (recordJobResult result eventId t) db with ⟨job, db', _, hexec⟩ |
        ⟨e, _, hexec⟩
      · exact absurd ((accepted_iff.mp ⟨job, db', hexec⟩).2.2 id hid) hforeign
      · exact ⟨e, hexec⟩

namespace Sample

def artifact : ArtifactId := ⟨"art_a", by decide⟩

/-- The running job, and an artifact of it. -/
def withArtifact : List (Op × DbTime) :=
  running ++ [(.setCatalog { catalog with artifacts := Table.empty.put artifact job }, at_ 8)]

/-- A result that names the artifact `n` times. -/
def listed (n : Nat) : JobResult := (result .passed).listing (List.replicate n artifact)

end Sample

/-- **A repeated artifact is refused.** Its owner's result names the one artifact of the job
twice. -/
theorem repeated_artifact_refused :
    ∃ db, (repository fun _ => True).Reachable db ∧ ∃ (result : JobResult) (eventId : JobEventId)
      (t : DbTime), ¬ result.ListIsSet eventId t db := by
  refine ⟨Sample.after Sample.withArtifact, Sample.after_reachable fun _ _ => trivial,
    Sample.listed 2,
    Sample.event 6, Sample.at_ 9, fun h => ?_⟩
  have hone : ((recordJobResult (Sample.listed 1) (Sample.event 6) (Sample.at_ 9)).exec
      (Sample.after Sample.withArtifact)).1.isOk = true := by
    decide +kernel
  have htwo : ((recordJobResult (Sample.listed 2) (Sample.event 6) (Sample.at_ 9)).exec
      (Sample.after Sample.withArtifact)).1.isOk = false := by
    decide +kernel
  have haccepted : (Sample.listed 2).Accepted (Sample.event 6) (Sample.at_ 9)
      (Sample.after Sample.withArtifact) := by
    refine h.accepted [Sample.artifact] (by simp [Sample.listed, JobResult.listing]) ?_
    rcases Tx.exec_cases (recordJobResult (Sample.listed 1) (Sample.event 6) (Sample.at_ 9))
      (Sample.after Sample.withArtifact) with ⟨job, db', _, hexec⟩ | ⟨e, _, hexec⟩
    · exact ⟨job, db', hexec⟩
    · rw [hexec] at hone
      cases hone
  obtain ⟨job, db', hexec⟩ := haccepted
  rw [hexec] at htwo
  cases htwo

end RunAnywhere
