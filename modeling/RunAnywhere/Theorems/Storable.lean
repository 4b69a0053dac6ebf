import RunAnywhere.Repository.Columns
import RunAnywhere.Repository.Locks
import RunAnywhere.Scheduler.Keys

/-!
# What a create request may hold

A create request passes the contract types and the checks of `create_job_with_outbox` before its
row meets the CHECK constraints of table `jobs`. The two agree but for the script reference: the
type asks for a text without ASCII control characters, the schema for one that is not all spaces
and has none of the characters U+0080 to U+009F either (`create_requests_stored`).
-/

namespace RunAnywhere

open Logic

/-- The schema takes the script reference. -/
def AutomationSpec.Storable : AutomationSpec → Prop
  | .builtInSmoke => True
  | .appium scriptRef =>
      ¬ (∀ c ∈ scriptRef.val.toList, c = ' ') ∧
        ∀ c ∈ scriptRef.val.toList, ¬ (0x80 ≤ c.toNat ∧ c.toNat ≤ 0x9F)

/-- The upload exists, of this project and this kind. -/
def Db.HasUpload (db : Db) (p : ProjectId) (kind : UploadKind) (u : UploadId) : Prop :=
  ∃ upload, db.catalog.uploads.get? u = some upload ∧ upload.projectId = p ∧ upload.kind = kind

/-- The request refers to existing uploads of its project, of the right kinds, and to an existing
profile of sufficient isolation, in a project below its quota. -/
structure CreateJobRequest.RefersTo (request : CreateJobRequest) (db : Db)
    (profile : RuntimeProfileRow) : Prop where
  quota : ∃ project, db.catalog.projects.get? request.projectId = some project ∧
    db.outstandingJobs request.projectId < project.maxOutstandingJobs
  apk : db.HasUpload request.projectId .apk request.apkUploadId
  test : ∀ u ∈ request.testUploadId, db.HasUpload request.projectId .test u
  found : db.catalog.runtimeProfiles.get? request.runtimeProfile = some profile
  isolation : profile.isolationTier.satisfies request.minIsolation = true

/-- The drawn identifiers are not in use. -/
structure CreateCall.Fresh (c : CreateCall) (db : Db) : Prop where
  job : db.job? c.id = none
  message : db.message? c.id.val = none
  event : ∀ e ∈ db.events, e.id ≠ c.eventId

/-- A validation error. -/
def RepositoryError.IsValidation (e : RepositoryError) : Prop := ∃ message, e = .validation message

/-- The call returns a job or a validation error. -/
def CreateCall.Answered (c : CreateCall) (db : Db) : Prop :=
  (c.op.tx c.time).FailsIn db RepositoryError.IsValidation

/-! ## The row -/

/-- What the type leaves to the schema. -/
theorem AutomationSpec.storable_iff (request : CreateJobRequest) (key : String) (t : DbTime) :
    request.automation.Storable ↔ (newJobRow request key t).automationValid := by
  unfold JobRow.automationValid
  show _ ↔ match request.automation with
    | .builtInSmoke => True
    | .appium scriptRef =>
        btrimEmpty scriptRef.val = false ∧ scriptRef.val.toList.any isControl = false
  cases request.automation with
  | builtInSmoke => exact Iff.rfl
  | appium scriptRef =>
      have hascii : ∀ c ∈ scriptRef.val.toList, isAsciiControl c = false := by
        have hvalid := scriptRef.valid
        simp only [Bool.and_eq_true, Bool.not_eq_true', List.any_eq_false] at hvalid
        intro c hc
        exact Bool.eq_false_iff.mpr (hvalid.2 c hc)
      refine and_congr ?_ ?_
      · unfold btrimEmpty
        rw [Bool.eq_false_iff, Ne, List.all_eq_true]
        simp only [beq_iff_eq]
      · rw [List.any_eq_false]
        refine forall₂_congr fun c hc => ?_
        have hlow := hascii c hc
        simp only [isAsciiControl, isControl, Bool.or_eq_false_iff, decide_eq_false_iff_not,
          beq_eq_false_iff_ne, Bool.or_eq_true, decide_eq_true_eq, Bool.and_eq_true] at hlow ⊢
        omega

/-- The other constraints hold of every new row with a key and two uploads. -/
theorem newJobRow_checks_iff {request : CreateJobRequest} {key : String} (t : DbTime)
    (hkey : btrimEmpty key = false) (huploads : request.testUploadId ≠ some request.apkUploadId) :
    (newJobRow request key t).Checks ↔ request.automation.Storable := by
  rw [AutomationSpec.storable_iff request key t]
  constructor
  · exact fun h => h.automation
  · intro h
    exact {
      automation := h
      idempotencyKey := hkey
      failure := trivial
      distinctUploads := huploads
      lease := trivial
      leaseHasWorker := fun hlease => nomatch hlease
      queuedUnassigned := fun _ => ⟨rfl, rfl⟩
      cleanupAfterArtifacts := fun hcleanup => nomatch hcleanup
      terminalState := ⟨rfl, rfl⟩
      terminalEvidence := fun hterminal => nomatch hterminal
      startedOrder := fun _ hstarted => nomatch hstarted
      finishedOrder := fun _ hfinished => nomatch hfinished }

/-! ## The checks of the call -/

section Call

variable {request : CreateJobRequest} {db : Db} {profile : RuntimeProfileRow}

theorem requireUploadKind_of_has {p : ProjectId} {u : UploadId} {kind : UploadKind}
    (h : db.HasUpload p kind u) : (requireUploadKind p u kind).Commits db () db := by
  obtain ⟨upload, hget, hproject, hkind⟩ := h
  simp only [requireUploadKind, Tx.bind_commits, Tx.read_commits, Tx.okOr_commits,
    Tx.require_commits, decide_eq_true_eq]
  refine ⟨_, db, ⟨rfl, rfl⟩, upload, db, ⟨?_, rfl⟩, hkind, rfl⟩
  rw [hget]
  exact if_pos (decide_eq_true hproject)

/-- An upload has one kind. -/
theorem CreateJobRequest.RefersTo.distinct (h : request.RefersTo db profile) :
    request.testUploadId ≠ some request.apkUploadId := by
  intro hsame
  obtain ⟨_, hget, _, hkind⟩ := h.apk
  obtain ⟨_, hget', _, hkind'⟩ := h.test _ hsame
  rw [hget] at hget'
  cases hget'
  rw [hkind] at hkind'
  cases hkind'

/-- The checks come to the profile, which has to be of a kind that is not reserved. -/
theorem CreateJobRequest.RefersTo.admitJob_eq (h : request.RefersTo db profile) :
    admitJob request db =
      (loadProfile request.runtimeProfile >>= fun found => do
        let found ← .okOr found (.notFound "runtime profile" request.runtimeProfile.val)
        .require (found.isolationTier.satisfies request.minIsolation)
          (.validation ("runtime profile " ++ found.id.val ++ " does not satisfy "
            ++ request.minIsolation.debug ++ " isolation"))
        pure found : RepoTx RuntimeProfile) db := by
  obtain ⟨project, hproject, hbelow⟩ := h.quota
  have hquota : (outstandingQuota request.projectId).Commits db () db := by
    simp only [outstandingQuota, Tx.bind_commits, Tx.read_commits, lockProject_commits,
      requireQuota_commits]
    exact ⟨project, db, ⟨hproject, rfl⟩, _, db, ⟨rfl, rfl⟩, hbelow, rfl⟩
  rw [admitJob_split, Tx.bind_of_commits hquota]
  unfold admitBody
  rw [Tx.bind_require (decide_eq_true h.distinct),
    Tx.bind_of_commits (requireUploadKind_of_has h.apk)]
  cases htest : request.testUploadId with
  | none => rfl
  | some u => exact Tx.bind_of_commits (requireUploadKind_of_has (h.test u htest))

theorem CreateJobRequest.RefersTo.admitJob_commits (h : request.RefersTo db profile)
    (hvalid : (profile.intoProfile request.runtimeProfile).isValid = true) :
    (admitJob request).Commits db (profile.intoProfile request.runtimeProfile) db := by
  unfold Tx.Commits
  rw [h.admitJob_eq]
  have hload : (loadProfile request.runtimeProfile).Commits db
      (some (profile.intoProfile request.runtimeProfile)) db := by
    simp only [loadProfile, Tx.bind_commits, Tx.read_commits, Tx.require_commits,
      Tx.pure_commits]
    rw [h.found]
    exact ⟨_, db, ⟨rfl, rfl⟩, (), db, ⟨hvalid, rfl⟩, rfl, rfl⟩
  rw [Tx.bind_of_commits hload, Tx.bind_of_commits (Tx.okOr_commits.mpr ⟨rfl, rfl⟩)]
  exact Tx.bind_require h.isolation

/-- A profile of the reserved kind cannot be decoded. -/
theorem CreateJobRequest.RefersTo.admitJob_error (h : request.RefersTo db profile)
    (hvalid : (profile.intoProfile request.runtimeProfile).isValid = false) :
    admitJob request db = .error (.decode "runtime_profiles"
      "runtime kind BrowserNativeWasm is reserved and is not valid in Part 01 profiles") := by
  rw [h.admitJob_eq]
  refine Tx.bind_of_error ?_
  unfold loadProfile
  rw [Tx.bind_of_commits (Tx.read_commits.mpr ⟨rfl, rfl⟩)]
  refine Tx.bind_of_error ?_
  rw [h.found, Option.map_some, Option.all_some, hvalid]
  exact Tx.require_false_apply _ _

end Call

/-! ## The writes of the call -/

section Writes

variable {db : Db} {t : DbTime}

/-- A row of a channel with a name is inserted, or its key is taken. -/
theorem insertOutbox_never (key : String) {subject : String} (payload : OutboxPayload)
    (headers : List (String × String)) (hsubject : btrimEmpty subject = false) :
    (insertOutbox key subject payload headers t).FailsIn db fun _ => False := by
  intro e h
  unfold insertOutbox at h
  split at h
  · cases h
  · simp only at h
    split at h
    · cases h
    · next hchecks => exact hchecks ⟨hsubject, rfl, by simp, by simp, by simp⟩

/-- The fan-out never fails. -/
theorem insertWebhookRows_never (event : JobEvent) (webhooks : List (WebhookId × Webhook)) :
    (insertWebhookRows event t webhooks).FailsIn db fun _ => False := by
  induction webhooks generalizing db with
  | nil => exact Tx.failsIn_pure _
  | cons first rest ih =>
      exact .bind (insertOutbox_never _ _ _ (by decide)) fun _ _ _ => ih

/-- The first event of a job is appended. -/
theorem appendEvent_never {id : JobEventId} {j : JobId} (hjob : (db.job? j).isSome = true)
    (hfresh : ∀ e ∈ db.events, e.id ≠ id) :
    (appendEvent id j "job.queued" (some .queued) true [] t).FailsIn db fun _ => False := by
  unfold appendEvent
  refine .bind (Tx.failsIn_require fun h => absurd h (by decide)) fun _ _ hsame => ?_
  obtain ⟨_, rfl⟩ := Tx.require_commits.mp hsame
  refine .bind (fun _ h => nomatch h) fun found _ hread => ?_
  obtain ⟨rfl, rfl⟩ := Tx.read_commits.mp hread
  refine .bind (Tx.failsIn_require fun h => ?_) fun _ _ hsame => ?_
  · rw [hjob] at h
    cases h
  obtain ⟨_, rfl⟩ := Tx.require_commits.mp hsame
  refine .bind (Tx.failsIn_require fun h => absurd h (by decide)) fun _ _ hsame => ?_
  obtain ⟨_, rfl⟩ := Tx.require_commits.mp hsame
  refine .bind (fun e h => ?_) fun event _ _ => .bind ?_ fun _ _ _ => Tx.failsIn_pure _
  · unfold insertEvent at h
    split at h
    · next hused =>
        obtain ⟨e', he', hid⟩ := List.any_eq_true.mp hused
        exact hfresh e' he' (of_decide_eq_true hid)
    · cases h
  · exact .bind (fun _ h => nomatch h) fun webhooks _ _ => insertWebhookRows_never event webhooks

/-- The message of a job whose key is free is inserted, or a header name is blank. -/
theorem insertJobQueuedOutbox_failsIn {queued : JobQueued} {headers : List (String × String)}
    (hfree : db.message? queued.jobId.val = none) :
    (insertJobQueuedOutbox queued headers t).FailsIn db RepositoryError.IsValidation := by
  unfold insertJobQueuedOutbox
  refine .bind (Tx.failsIn_require fun _ => ⟨_, rfl⟩) fun _ _ hsame => ?_
  obtain ⟨_, rfl⟩ := Tx.require_commits.mp hsame
  refine .bind (fun e h => ?_) fun inserted _ hins => Tx.failsIn_require fun hnone => ?_
  · exact (insertOutbox_never _ _ _ (by decide) e h).elim
  · rcases insertOutbox_commits hins with ⟨_, _, htaken⟩ | ⟨row, _, rfl, _⟩
    · rw [hfree] at htaken
      cases htaken
    · cases hnone

end Writes

/-! ## The call -/

/-- **Accepted.** A request the schema takes, or whose timeout is no BIGINT, is answered. -/
theorem CreateCall.answered {c : CreateCall} {db : Db} {profile : RuntimeProfileRow}
    (hkey : (validateIdempotencyKey c.idempotencyKey).Commits db () db)
    (hblank : btrimEmpty c.idempotencyKey = false) (hrefers : c.request.RefersTo db profile)
    (hfresh : c.Fresh db)
    (h : (db.jobByKey? c.request.projectId c.idempotencyKey).isSome = true ∨
      ((profile.intoProfile c.request.runtimeProfile).isValid = true ∧
        (2 ^ 63 ≤ c.request.timeoutSeconds.seconds ∨ c.request.automation.Storable))) :
    c.Answered db := by
  show (createJobWithOutbox _ _ _ _ _ _).FailsIn db _
  unfold createJobWithOutbox
  refine .bind (fun e hfail => ?_) fun _ _ hsame => ?_
  · rw [hkey] at hfail
    cases hfail
  obtain ⟨_, rfl⟩ := hkey.unique hsame
  refine .bind (fun _ hfail => nomatch hfail) fun found _ hread => ?_
  obtain ⟨rfl, rfl⟩ := Tx.read_commits.mp hread
  cases hfound : db.jobByKey? c.request.projectId c.idempotencyKey with
  | some existing => exact Tx.failsIn_pure _
  | none =>
      rw [hfound] at h
      obtain ⟨hvalid, hstored⟩ := h.resolve_left (by simp)
      have hfits := hrefers.admitJob_commits hvalid
      refine .bind (fun e hfail => ?_) fun profile' _ hsame => ?_
      · rw [hfits] at hfail
        cases hfail
      obtain ⟨rfl, rfl⟩ := hfits.unique hsame
      refine .bind (fun e hfail => ?_) fun _ _ hsame => ?_
      · unfold checkedI64 at hfail
        split at hfail
        · cases hfail
        · exact ⟨_, (Except.error.inj hfail).symm⟩
      obtain ⟨hfits, rfl⟩ := Tx.ofExcept_commits.mp hsame
      have hchecks := (newJobRow_checks_iff c.time hblank hrefers.distinct).mpr
        (hstored.resolve_left fun hlarge => by
          unfold checkedI64 at hfits
          rw [if_neg (by omega)] at hfits
          cases hfits)
      -- the row is stored; what follows finds the job and free keys
      refine .bind (fun e hfail => ?_) fun _ db₁ hins => ?_
      · unfold insertJob at hfail
        rw [hfresh.job] at hfail
        simp only [dif_pos hchecks] at hfail
        cases hfail
      obtain ⟨_, _, rfl⟩ := insertJob_commits hins
      refine .bind (fun e hfail => ?_) fun event db₂ hevent => ?_
      · refine (appendEvent_never ?_ ?_ e hfail).elim
        · unfold Db.job?
          rw [Table.row?_put_self]
          rfl
        · exact hfresh.event
      obtain ⟨_, _, _, _, _, _, hgrew, _⟩ := appendEvent_commits hevent
      refine .bind (insertJobQueuedOutbox_failsIn ?_) fun _ _ _ => Tx.failsIn_pure _
      rcases hgrew.rows c.id.val with hsame | ⟨_, _, _, _, _, _, _, rest, hwebhook⟩
      · exact hsame.trans hfresh.message
      · have hw : startsWith 'w' ("webhook:" ++ rest) := startsWith_append (by decide)
        exact absurd hwebhook (startsWith_ne c.id.startsWith hw (by decide))

/-- **Refused.** Other requests are refused by the schema, or the profile cannot be decoded. -/
theorem CreateCall.not_answered {c : CreateCall} {db : Db} {profile : RuntimeProfileRow}
    (hkey : (validateIdempotencyKey c.idempotencyKey).Commits db () db)
    (hblank : btrimEmpty c.idempotencyKey = false) (hrefers : c.request.RefersTo db profile)
    (hfresh : c.Fresh db)
    (hnew : db.jobByKey? c.request.projectId c.idempotencyKey = none)
    (h : (profile.intoProfile c.request.runtimeProfile).isValid = true →
      c.request.timeoutSeconds.seconds < 2 ^ 63 ∧ ¬ c.request.automation.Storable) :
    ¬ c.Answered db := by
  have hlookup : (Tx.read fun d : Db =>
      d.jobByKey? c.request.projectId c.idempotencyKey : RepoTx _).Commits db none db :=
    Tx.read_commits.mpr ⟨hnew, rfl⟩
  intro hanswered
  cases hvalid : (profile.intoProfile c.request.runtimeProfile).isValid with
  | false =>
      obtain ⟨_, hmessage⟩ := hanswered _ (by
        show createJobWithOutbox _ _ _ _ _ _ db = _
        unfold createJobWithOutbox
        rw [Tx.bind_of_commits hkey, Tx.bind_of_commits hlookup]
        exact Tx.bind_of_error (hrefers.admitJob_error hvalid))
      cases hmessage
  | true =>
      obtain ⟨hfits, hstored⟩ := h hvalid
      have hfits' : checkedI64 "timeout_seconds" c.request.timeoutSeconds.seconds =
          .ok c.request.timeoutSeconds.seconds := if_pos hfits
      obtain ⟨_, hmessage⟩ := hanswered (.sqlx (.checkViolation "jobs")) (by
        show createJobWithOutbox _ _ _ _ _ _ db = _
        unfold createJobWithOutbox
        rw [Tx.bind_of_commits hkey, Tx.bind_of_commits hlookup]
        simp only
        rw [Tx.bind_of_commits (hrefers.admitJob_commits hvalid),
          Tx.bind_of_commits (Tx.ofExcept_commits.mpr ⟨hfits', rfl⟩)]
        refine Tx.bind_of_error ?_
        unfold insertJob
        rw [hfresh.job]
        refine dif_neg fun hchecks => hstored ?_
        exact (newJobRow_checks_iff c.time hblank hrefers.distinct).mp hchecks)
      cases hmessage

/-- A key that is accepted is not blank. -/
theorem validateIdempotencyKey_blank {key : String} {db : Db}
    (h : (validateIdempotencyKey key).Commits db () db) : btrimEmpty key = false := by
  unfold validateIdempotencyKey at h
  obtain ⟨hkey, _⟩ := Tx.require_commits.mp h
  simp only [Bool.not_eq_true', Bool.or_eq_false_iff, Bool.not_eq_false', List.all_eq_true,
    Bool.and_eq_true, decide_eq_true_eq] at hkey
  obtain ⟨⟨hne, _⟩, hvisible⟩ := hkey
  cases hchars : key.toList with
  | nil =>
      rw [hchars] at hne
      cases hne
  | cons c rest =>
      unfold btrimEmpty
      rw [Bool.eq_false_iff, hchars]
      intro hall
      have hspace : c = ' ' := by simpa using (List.all_eq_true.mp hall) c List.mem_cons_self
      have hlow := (hvisible c (hchars ▸ List.mem_cons_self)).1
      subst hspace
      revert hlow
      decide

/-- **Create requests.** Of a request with a key, existing uploads and an existing profile in a
project below its quota, the new row satisfies the constraints if and only if the schema takes the
script reference. The call returns a job or a validation error if and only if the key has its job,
or the profile is not reserved and the timeout is no BIGINT or the schema takes the script
reference. -/
theorem create_requests_stored {c : CreateCall} {db : Db} {profile : RuntimeProfileRow}
    (hkey : (validateIdempotencyKey c.idempotencyKey).Commits db () db)
    (hrefers : c.request.RefersTo db profile) (hfresh : c.Fresh db) :
    (((newJobRow c.request c.idempotencyKey c.time).Checks ∧
        jobsAutomationValid c.request.automation.toJson = true ∧
        jobsRequestedArtifactsValid c.request.artifacts.toJson = true) ↔
      c.request.automation.Storable) ∧
    (c.Answered db ↔
      (db.jobByKey? c.request.projectId c.idempotencyKey).isSome = true ∨
        ((profile.intoProfile c.request.runtimeProfile).isValid = true ∧
          (2 ^ 63 ≤ c.request.timeoutSeconds.seconds ∨ c.request.automation.Storable))) := by
  have hblank := validateIdempotencyKey_blank hkey
  have hrow := newJobRow_checks_iff c.time hblank hrefers.distinct
  refine ⟨⟨fun h => hrow.mp h.1, fun h => ?_⟩, fun h => ?_, CreateCall.answered hkey hblank hrefers hfresh⟩
  · have hchecks := hrow.mpr h
    exact ⟨hchecks, (automationValid_iff (newJobRow c.request c.idempotencyKey c.time)).mpr
      hchecks.automation, requestedArtifacts_valid _⟩
  · by_contra hnot
    simp only [not_or, not_and] at hnot
    refine CreateCall.not_answered hkey hblank hrefers hfresh ?_ (fun hvalid => ?_) h
    · exact Option.not_isSome_iff_eq_none.mp hnot.1
    · have := hnot.2 hvalid
      exact ⟨by omega, this.2⟩

/-! ## Runs -/

namespace Sample

def testUpload : UploadId := ⟨"upl_b", by decide⟩

/-- The database with an upload of either kind. -/
def stocked : Db :=
  Db.empty { catalog with uploads := catalog.uploads.put testUpload ⟨project, .test⟩ }

/-- The sample's create with a test upload and this automation. -/
def createWith (automation : AutomationSpec) : CreateCall :=
  { createCall with
    request := { request with testUploadId := some testUpload, automation := automation } }

def profileRow : RuntimeProfileRow :=
  ⟨34, "pixel", .x86_64, .x86_64, .redroid, "image", .sharedKernelPrivileged⟩

theorem createWith_refers (automation : AutomationSpec) :
    (createWith automation).request.RefersTo stocked profileRow := by
  have hproject : stocked.catalog.projects.get? project = some ⟨2, 10⟩ := by decide
  have hbelow : stocked.outstandingJobs project < 10 := by decide
  have hupload : stocked.catalog.uploads.get? upload = some ⟨project, .apk⟩ := by decide
  have htest : stocked.catalog.uploads.get? testUpload = some ⟨project, .test⟩ := by decide
  have hprofile : stocked.catalog.runtimeProfiles.get? profile = some profileRow := by decide
  refine ⟨⟨_, hproject, hbelow⟩, ⟨_, hupload, rfl, rfl⟩, fun u hu => ?_, hprofile, rfl⟩
  obtain rfl : testUpload = u := Option.some.inj hu
  exact ⟨_, htest, rfl, rfl⟩

theorem createWith_fresh (automation : AutomationSpec) : (createWith automation).Fresh stocked := by
  have hjob : stocked.job? job = none := by decide
  have hmessage : stocked.message? job.val = none := by decide
  exact ⟨hjob, hmessage, fun _ he => nomatch he⟩

theorem createWith_key (automation : AutomationSpec) :
    (validateIdempotencyKey (createWith automation).idempotencyKey).Commits stocked () stocked := by
  have hkey : (validateIdempotencyKey "key").Commits stocked () stocked :=
    Tx.require_commits.mpr ⟨by decide, rfl⟩
  exact hkey

def script : AutomationSpec := .appium ⟨"login.py", by decide⟩

theorem script_storable : script.Storable := by
  have hchars : "login.py".toList = ['l', 'o', 'g', 'i', 'n', '.', 'p', 'y'] := String.toList_ofList
  show (¬ ∀ c ∈ "login.py".toList, c = ' ') ∧
    ∀ c ∈ "login.py".toList, ¬ (0x80 ≤ c.toNat ∧ c.toNat ≤ 0x9F)
  rw [hchars]
  have hascii : (['l', 'o', 'g', 'i', 'n', '.', 'p', 'y'].all fun c => decide (c.toNat < 0x80)) =
      true := by decide
  refine ⟨fun hblank => ?_, fun c hc hhigh => ?_⟩
  · exact absurd (hblank 'l' List.mem_cons_self) (by decide)
  · have hlow := of_decide_eq_true (List.all_eq_true.mp hascii c hc)
    exact absurd hhigh.1 (Nat.not_le.mpr hlow)

/-- A script reference that is one space. -/
def blankScript : AutomationSpec := .appium ⟨" ", by decide⟩

end Sample

/-- A create with a script is answered, and its row can be stored. -/
theorem create_requests_stored_sample :
    (newJobRow (Sample.createWith Sample.script).request "key" (Sample.at_ 2)).Checks ∧
      (Sample.createWith Sample.script).Answered Sample.stocked := by
  obtain ⟨hrow, hanswered⟩ := create_requests_stored (Sample.createWith_key Sample.script)
    (Sample.createWith_refers Sample.script) (Sample.createWith_fresh Sample.script)
  exact ⟨(hrow.mpr Sample.script_storable).1,
    hanswered.mpr (Or.inr ⟨rfl, Or.inr Sample.script_storable⟩)⟩

/-- **A blank script reference** passes the types and breaks the schema. -/
theorem blank_script_refused : ∃ (c : CreateCall) (db : Db) (profile : RuntimeProfileRow),
    (validateIdempotencyKey c.idempotencyKey).Commits db () db ∧
      c.request.RefersTo db profile ∧ c.Fresh db ∧
      ¬ (newJobRow c.request c.idempotencyKey c.time).Checks ∧ ¬ c.Answered db := by
  have hstored : ¬ Sample.blankScript.Storable := by
    rintro ⟨hblank, _⟩
    have hspace : ∀ c ∈ [' '], c = ' ' := fun c hc => List.mem_singleton.mp hc
    exact hblank hspace
  have hkey := Sample.createWith_key Sample.blankScript
  have hrefers := Sample.createWith_refers Sample.blankScript
  have hfresh := Sample.createWith_fresh Sample.blankScript
  refine ⟨_, _, _, hkey, hrefers, hfresh, fun hchecks => ?_, ?_⟩
  · exact hstored ((newJobRow_checks_iff _ (by decide) hrefers.distinct).mp hchecks)
  · exact CreateCall.not_answered hkey (by decide) hrefers hfresh (by decide)
      fun _ => ⟨by decide, hstored⟩

end RunAnywhere
