import RunAnywhere.Api.Handlers
import RunAnywhere.Repository.CursorText
import RunAnywhere.Repository.Run

/-!
# Foreign resources

**A resource of another project looks like one that does not exist.** Each route of a job answers
a foreign job as it answers a missing one, and a new job with a foreign upload as one with a missing
upload. Neither writes.

* **one job** — what a route answers of a hidden job does not depend on the store at all
  (`JobRoute.handle_hidden`);
* **uploads** — a new job may be the answer to a replayed key, so there the two runs are compared
  step by step (`createJob_alike`).
-/

namespace RunAnywhere

open Logic

/-! ## One job -/

/-- A request for one job, with what the handler reads and draws. -/
inductive JobRoute
  | get
  | cancel (eventId : JobEventId) (t : DbTime)
  | events (lastEventId : Option String)
  | artifacts (cursor : Option String)
  | debugSession (mode : DebugSessionMode) (draw : Api.DebugDraw)

inductive JobReply
  | job (job : Job)
  | stream (state : EventStreamState)
  | artifacts (page : Page Artifact String)
  | debugSession (token : Api.DebugSessionToken)

/-- The handler of a route. -/
def JobRoute.handle (services : ApiServices) (auth : AuthContext) (j : JobId) :
    JobRoute → Handler JobReply
  | .get => do
      let job ← Api.getJob auth j
      pure (.job job)
  | .cancel eventId t => do
      let job ← Api.cancelJob auth j eventId t
      pure (.job job)
  | .events lastEventId => do
      let state ← Api.streamJobEvents auth j lastEventId
      pure (.stream state)
  | .artifacts cursor => do
      let page ← Api.listJobArtifacts services auth j cursor
      pure (.artifacts page)
  | .debugSession mode draw => do
      let token ← Api.createDebugSession services auth j mode draw
      pure (.debugSession token)

/-- The store has no such job, or one of another project. -/
def ApiStore.HidesJob (s : ApiStore) (auth : AuthContext) (j : JobId) : Prop :=
  ∀ row, s.db.job? j = some row → auth.projectId ≠ some row.projectId

namespace Api

variable {auth : AuthContext} {j : JobId} {s : ApiStore}

theorem requireOwnedResource_foreign {p : ProjectId} {name : String}
    (h : auth.projectId ≠ some p) :
    requireOwnedResource auth p name = .error (.notFound name) := if_neg h

/-- **The guard.** A hidden job is not found, whatever hides it. -/
theorem ownedJob_hidden (h : s.HidesJob auth j) :
    ownedJob auth j s = (.error (.error (.notFound "job")), s) := by
  have hread : onDb (RunAnywhere.getJob j) s = (.ok ((s.db.job? j).map (·.intoJob j)), s) := rfl
  unfold ownedJob
  rw [Script.bind_ok hread]
  cases hrow : s.db.job? j with
  | none => rfl
  | some row =>
      have hforeign : requireOwnedResource auth row.projectId "job" = .error (.notFound "job") :=
        requireOwnedResource_foreign (h row hrow)
      show (check (requireOwnedResource auth row.projectId "job") >>= fun _ =>
        pure (row.intoJob j) : Handler Job) s = _
      rw [hforeign]
      rfl

/-- A job of the caller's. -/
theorem ownedJob_owned {row : JobRow} (hjob : s.db.job? j = some row)
    (howned : auth.projectId = some row.projectId) :
    ownedJob auth j s = (.ok (row.intoJob j), s) := by
  have hread : onDb (RunAnywhere.getJob j) s = (.ok ((s.db.job? j).map (·.intoJob j)), s) := rfl
  unfold ownedJob
  rw [Script.bind_ok hread, hjob]
  show (check (requireOwnedResource auth row.projectId "job") >>= fun _ =>
    pure (row.intoJob j) : Handler Job) s = _
  rw [requireOwnedResource, if_pos howned]
  rfl

/-- One error for all the stores of a kind, and no write in any of them. -/
def Refuses {α : Type} (P : ApiStore → Prop) (x : Handler α) : Prop :=
  ∃ e, ∀ s, P s → x s = (.error (.error e), s)

section Refuses

variable {α β : Type} {P : ApiStore → Prop} {x : Handler α} {f : α → Handler β}

theorem Refuses.bind (h : Refuses P x) : Refuses P (x >>= f) := by
  obtain ⟨e, hx⟩ := h
  exact ⟨e, fun s hs => Script.bind_error (hx s hs)⟩

/-- A check of the request alone refuses by itself, or leaves it to the rest. -/
theorem Refuses.check_bind (r : Except ApiError α) (h : ∀ a, Refuses P (f a)) :
    Refuses P (check r >>= f) := by
  cases r with
  | error e => exact ⟨e, fun s _ => Script.bind_error rfl⟩
  | ok a =>
      obtain ⟨e, hf⟩ := h a
      exact ⟨e, fun s hs => hf s hs⟩

theorem refuses_ownedJob : Refuses (fun s => s.HidesJob auth j) (ownedJob auth j) :=
  ⟨.notFound "job", fun _ h => ownedJob_hidden h⟩

end Refuses

end Api

/-- **One answer.** What a route answers of a hidden job is fixed by the request. -/
theorem JobRoute.handle_hidden (services : ApiServices) (auth : AuthContext) (j : JobId)
    (route : JobRoute) :
    Api.Refuses (fun s => s.HidesJob auth j) (route.handle services auth j) := by
  cases route with
  | get =>
      apply Api.Refuses.bind
      apply Api.Refuses.check_bind
      intro _
      exact Api.refuses_ownedJob
  | cancel eventId t =>
      apply Api.Refuses.bind
      apply Api.Refuses.check_bind
      intro _
      exact Api.refuses_ownedJob.bind
  | events lastEventId =>
      apply Api.Refuses.bind
      apply Api.Refuses.check_bind
      intro _
      -- the header is parsed after the guard
      exact Api.refuses_ownedJob.bind
  | artifacts cursor =>
      apply Api.Refuses.bind
      apply Api.Refuses.check_bind
      intro _
      -- the cursor is checked before it
      apply Api.Refuses.check_bind
      intro _
      exact Api.refuses_ownedJob.bind
  | debugSession mode draw =>
      apply Api.Refuses.bind
      apply Api.Refuses.check_bind
      intro _
      exact Api.refuses_ownedJob.bind

/-! ## Uploads -/

/-- The store has no such upload, or one of another project. -/
def ApiStore.HidesUpload (s : ApiStore) (auth : AuthContext) (u : UploadId) : Prop :=
  ∀ row, s.db.catalog.uploads.get? u = some row → auth.projectId ≠ some row.projectId

namespace Api

variable {services : ApiServices} {auth : AuthContext} {s s' : ApiStore}

theorem verifiedUpload_hidden {u : UploadId} {kind : UploadKind} (h : s.HidesUpload auth u) :
    verifiedUpload services auth u kind s = (.error (.error (.notFound "upload")), s) := by
  have hload : loadOwnedUpload auth u s = (.error (.error (.notFound "upload")), s) := by
    have hread : onDb (.read fun db => db.catalog.uploads.get? u) s =
        (.ok (s.db.catalog.uploads.get? u), s) := rfl
    unfold loadOwnedUpload
    rw [Script.bind_ok hread]
    cases hrow : s.db.catalog.uploads.get? u with
    | none => rfl
    | some row =>
        have hforeign : requireOwnedResource auth row.projectId "upload" =
            .error (.notFound "upload") := requireOwnedResource_foreign (h row hrow)
        show (check (requireOwnedResource auth row.projectId "upload") >>= fun _ =>
          pure row : Handler UploadRow) s = _
        rw [hforeign]
        rfl
  exact Script.bind_error hload

/-- An upload that both stores have alike. -/
theorem verifiedUpload_alike {u : UploadId} {kind : UploadKind}
    (h : s.db.catalog.uploads.get? u = s'.db.catalog.uploads.get? u) :
    (verifiedUpload services auth u kind).Alike s s' := by
  have hread : (onDb (.read fun db => db.catalog.uploads.get? u)).Alike s s' := by
    refine ⟨.ok (s.db.catalog.uploads.get? u), rfl, ?_⟩
    rw [h]
    rfl
  unfold verifiedUpload loadOwnedUpload
  apply Script.Alike.bind
  · apply hread.bind
    intro found _
    apply Script.Alike.bind
    · exact ⟨_, rfl, rfl⟩
    · intro upload _
      apply (Script.alike_check _).bind
      intro _ _
      exact Script.alike_pure upload
  · intro upload _
    apply (Script.alike_check _).bind
    intro _ _
    exact Script.alike_check _

/-- The replay lookup reads the jobs only. -/
theorem findJobByIdempotencyKey_alike {p : ProjectId} {key : String}
    (h : s.db.jobs = s'.db.jobs) :
    (onDb (findJobByIdempotencyKey p key)).Alike s s' := by
  have hkey : s.db.jobByKey? p key = s'.db.jobByKey? p key := by simp only [Db.jobByKey?, h]
  unfold findJobByIdempotencyKey lookupKey validateIdempotencyKey
  -- the check of the key reads no store
  generalize (!(_ : Bool)) = valid
  cases valid with
  | false => exact ⟨_, rfl, rfl⟩
  | true =>
      refine ⟨.ok ((s.db.jobByKey? p key).map fun x => x.2.intoJob x.1), rfl, ?_⟩
      rw [hkey]
      rfl

/-- **A new job.** With a hidden upload among its own, the request is answered alike from any two
stores that agree on the jobs and on the other upload. -/
theorem createJob_alike {header : Option String} {request : CreateJobRequest} {draw : CreateDraw}
    {u : UploadId} (hnamed : u = request.apkUploadId ∨ request.testUploadId = some u)
    (hs : s.HidesUpload auth u) (hs' : s'.HidesUpload auth u) (hjobs : s.db.jobs = s'.db.jobs)
    (hrest : ∀ v, v ≠ u → s.db.catalog.uploads.get? v = s'.db.catalog.uploads.get? v) :
    (createJob services auth header request draw).Alike s s' := by
  unfold createJob
  apply (Script.alike_check _).bind
  intro _ _
  apply (Script.alike_check _).bind
  intro _ _
  apply (Script.alike_check _).bind
  intro key _
  apply (findJobByIdempotencyKey_alike hjobs).bind
  intro found _
  cases found with
  | some job => exact Script.alike_pure job
  | none =>
      apply (Script.alike_check _).bind
      intro _ _
      by_cases hapk : u = request.apkUploadId
      · subst hapk
        exact Script.alike_of_halt (verifiedUpload_hidden hs) (verifiedUpload_hidden hs')
      · -- the hidden upload is the tests', behind an upload both stores share
        have htest : request.testUploadId = some u := hnamed.resolve_left hapk
        have hshared := hrest request.apkUploadId fun h => hapk h.symm
        apply (verifiedUpload_alike hshared).bind
        intro _ _
        rw [htest]
        exact Script.alike_of_halt (verifiedUpload_hidden hs) (verifiedUpload_hidden hs')

end Api

/-! ## The headline -/

/-- The stores differ in a job: missing in one, in the other of a project not the caller's. -/
structure ApiStore.JobForeign (auth : AuthContext) (j : JobId) (s s' : ApiStore) : Prop where
  missing : s.db.job? j = none
  foreign : ∃ row, s'.db.job? j = some row ∧ auth.projectId ≠ some row.projectId

/-- The stores differ in an upload, and agree on the jobs and the other uploads. -/
structure ApiStore.UploadForeign (auth : AuthContext) (u : UploadId) (s s' : ApiStore) :
    Prop where
  missing : s.db.catalog.uploads.get? u = none
  foreign : ∃ row, s'.db.catalog.uploads.get? u = some row ∧ auth.projectId ≠ some row.projectId
  jobs : s.db.jobs = s'.db.jobs
  others : ∀ v, v ≠ u → s.db.catalog.uploads.get? v = s'.db.catalog.uploads.get? v

/-- **Foreign looks missing.** A route of a job halts with the same error where the job is another
project's as where there is none; a new job naming a foreign upload is answered as one naming a
missing upload. Both stores stay as they were. -/
theorem foreign_looks_missing (services : ApiServices) (auth : AuthContext) (s s' : ApiStore) :
    (∀ j, ApiStore.JobForeign auth j s s' → ∀ route : JobRoute, ∃ e : ApiError,
      route.handle services auth j s = (.error (.error e), s) ∧
      route.handle services auth j s' = (.error (.error e), s')) ∧
    (∀ u, ApiStore.UploadForeign auth u s s' →
      ∀ (header : Option String) (request : CreateJobRequest) (draw : Api.CreateDraw),
      u = request.apkUploadId ∨ request.testUploadId = some u →
      ∃ answer, Api.createJob services auth header request draw s = (answer, s) ∧
        Api.createJob services auth header request draw s' = (answer, s')) := by
  constructor
  · intro j h route
    have hs : s.HidesJob auth j := by
      intro row hrow
      rw [h.missing] at hrow
      exact nomatch hrow
    have hs' : s'.HidesJob auth j := by
      intro row hrow
      obtain ⟨row', hrow', hforeign⟩ := h.foreign
      rw [hrow'] at hrow
      cases hrow
      exact hforeign
    obtain ⟨e, hroute⟩ := route.handle_hidden services auth j
    exact ⟨e, hroute s hs, hroute s' hs'⟩
  · intro u h header request draw hnamed
    have hs : s.HidesUpload auth u := by
      intro row hrow
      rw [h.missing] at hrow
      exact nomatch hrow
    have hs' : s'.HidesUpload auth u := by
      intro row hrow
      obtain ⟨row', hrow', hforeign⟩ := h.foreign
      rw [hrow'] at hrow
      cases hrow
      exact hforeign
    exact Api.createJob_alike hnamed hs hs' h.jobs h.others

namespace Sample

def services : ApiServices where
  codec := textCodec
  verifyUpload _ := .ok ()
  presignDownload key := .ok ("https://objects.example.com/" ++ key, 0)
  encode claims := .ok claims.jti
  instantText t := toString t.nanos
  debugTokenTtl := 900000000000
  debugGatewayBaseUrl := "https://debug.example.com"

/-- A store without sessions and artifacts. -/
def store (db : Db) : ApiStore := ⟨⟨db, Table.empty, [], 1⟩, Table.empty⟩

def elsewhere : ProjectId := ⟨"proj_z", by decide⟩

/-- A caller of another project. -/
def stranger : AuthContext := ⟨"user", none, some elsewhere, [.projectRead, .projectWrite]⟩

/-- The catalog without its upload. -/
def noUpload : Catalog := { catalog with uploads := Table.empty }

end Sample

/-- A stranger cancels the sample job, and creates a job of its own project on the sample upload. -/
theorem foreign_looks_missing_sample :
    (∃ e : ApiError,
      (JobRoute.cancel (Sample.event 3) (Sample.at_ 5)).handle Sample.services Sample.stranger
        Sample.job (Sample.store (Db.empty Sample.catalog)) =
          (.error (.error e), Sample.store (Db.empty Sample.catalog)) ∧
      (JobRoute.cancel (Sample.event 3) (Sample.at_ 5)).handle Sample.services Sample.stranger
        Sample.job (Sample.store (Sample.after Sample.created)) =
          (.error (.error e), Sample.store (Sample.after Sample.created))) ∧
    ∃ answer,
      Api.createJob Sample.services Sample.stranger (some "key")
        { Sample.request with projectId := Sample.elsewhere }
        ⟨Sample.job, Sample.event 3, [], Sample.at_ 5⟩
        (Sample.store (Db.empty Sample.noUpload)) =
          (answer, Sample.store (Db.empty Sample.noUpload)) ∧
      Api.createJob Sample.services Sample.stranger (some "key")
        { Sample.request with projectId := Sample.elsewhere }
        ⟨Sample.job, Sample.event 3, [], Sample.at_ 5⟩
        (Sample.store (Db.empty Sample.catalog)) =
          (answer, Sample.store (Db.empty Sample.catalog)) := by
  constructor
  · have hrow : ((Sample.after Sample.created).job? Sample.job).any
        (fun row => decide (Sample.stranger.projectId ≠ some row.projectId)) = true := by
      decide +kernel
    obtain ⟨row, hjob, hforeign⟩ := (Option.any_eq_true _ _).mp hrow
    exact (foreign_looks_missing _ _ _ _).1 Sample.job
      ⟨rfl, row, hjob, of_decide_eq_true hforeign⟩ _
  · have hothers : ∀ v, v ≠ Sample.upload →
        Sample.noUpload.uploads.get? v = Sample.catalog.uploads.get? v := by
      intro v hv
      have hput := Table.get?_put_of_ne Table.empty (⟨Sample.project, .apk⟩ : UploadRow) hv
      exact hput.symm
    have hforeign : ApiStore.UploadForeign Sample.stranger Sample.upload
        (Sample.store (Db.empty Sample.noUpload)) (Sample.store (Db.empty Sample.catalog)) :=
      ⟨rfl, ⟨⟨Sample.project, .apk⟩, rfl, by decide⟩, rfl, hothers⟩
    apply (foreign_looks_missing _ _ _ _).2 Sample.upload hforeign
    exact .inl rfl

end RunAnywhere
