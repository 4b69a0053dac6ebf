import RunAnywhere.Repository.Locks

/-!
# Project quotas

Both quotas are counted and written in two steps, under the lock on the project's row.
The count taken by a create or a claim is still an upper bound when it writes
(`Session.Holds.step`), so a run of the server keeps both quotas of every project
(`quotas_held`). A call that concerns no job of a project leaves both checks of that
project as they were (`quotas_framed`).
-/

namespace RunAnywhere

open Logic

/-- The projects of the catalog have the quotas `quota`. -/
def Catalog.HasQuotas (quota : ProjectId → ProjectRow) (catalog : Catalog) : Prop :=
  ∀ p project, catalog.projects.get? p = some project → project = quota p

/-- Administration keeps the quotas at `quota`. -/
def Op.KeepsQuotas (quota : ProjectId → ProjectRow) : Op → Prop
  | .setCatalog catalog => catalog.HasQuotas quota
  | _ => True

/-- The call is about a job of project `p`, or changes the catalog. -/
def Op.Concerns (db : Db) (p : ProjectId) : Op → Prop
  | .setCatalog _ => True
  | .createJobWithOutbox _ _ request _ _ => request.projectId = p
  | .requestJobCancellation j _ | .claimJobWithOptions j _ _ _ _ _
  | .transitionJobState j _ _ _ _ _ _ => ∃ row, db.job? j = some row ∧ row.projectId = p
  | .recordJobResult result _ => ∃ row, db.job? result.jobId = some row ∧ row.projectId = p
  | .recoverStaleJob stale _ _ => ∃ row, db.job? stale.jobId = some row ∧ row.projectId = p
  | _ => False

/-! ## Both limits -/

/-- What holds of every committed database: the catalog has the quotas, and every project
is within both. -/
structure Db.WithinQuotas (quota : ProjectId → ProjectRow) (db : Db) : Prop where
  catalog : db.catalog.HasQuotas quota
  outstanding : ∀ p, db.outstandingJobs p ≤ (quota p).maxOutstandingJobs
  active : ∀ p, db.activeProjectJobs p ≤ (quota p).maxConcurrentJobs

/-- A create adds one job to a project below its quota. -/
theorem Op.Creates.outstandingJobs {op : Op} {t : DbTime} {db db' : Db} {out : op.Out}
    {p : ProjectId} (hop : op.Creates p) (h : (op.tx t).Commits db out db') :
    db'.outstandingJobs p ≤ db.outstandingJobs p ∨ ∃ project,
      db.catalog.projects.get? p = some project ∧
        db'.outstandingJobs p ≤ project.maxOutstandingJobs := by
  obtain ⟨id, eventId, request, key, headers, rfl, rfl⟩ := hop
  rcases createJobWithOutbox_commits h with ⟨_, _, _, _, rfl⟩ |
    ⟨hc, _, _, _, ⟨project, hproject, hquota⟩, _, _, _, _, hjobs, _⟩
  · exact Or.inl (Nat.le_refl _)
  · refine Or.inr ⟨project, hproject, ?_⟩
    have hle : db'.outstandingJobs request.projectId ≤
        db.outstandingJobs request.projectId + 1 := by
      rw [Db.outstandingJobs_eq, Db.outstandingJobs_eq]
      refine Table.countRows_le_succ id fun j hne hj => ?_
      rwa [hjobs, Table.row?_put_of_ne _ _ _ hne] at hj
    omega

/-- A claim adds one leased job to a project below its quota. -/
theorem Op.Claims.activeProjectJobs {op : Op} {t : DbTime} {db db' : Db} {out : op.Out}
    {p : ProjectId} (hop : op.Claims db p) (h : (op.tx t).Commits db out db') :
    ∃ project, db.catalog.projects.get? p = some project ∧
      db'.activeProjectJobs p ≤ project.maxConcurrentJobs := by
  obtain ⟨j, w, l, expires, options, eventId, row, rfl, hrow, rfl⟩ := hop
  obtain ⟨row', _, hc, _, hrow', _, _, _, _, hrest⟩ := claimJobWithOptions_commits h
  obtain ⟨_, _, ⟨project, hproject, hquota⟩, _, _, _, _, _, hjobs, _⟩ := hrest
  obtain rfl := Option.some.inj (hrow'.symm.trans hrow)
  refine ⟨project, hproject, ?_⟩
  have hle : db'.activeProjectJobs row'.projectId ≤ db.activeProjectJobs row'.projectId + 1 := by
    rw [Db.activeProjectJobs_eq, Db.activeProjectJobs_eq]
    refine Table.countRows_le_succ j fun j' hne hj => ?_
    rwa [hjobs, Table.row?_put_of_ne _ _ _ hne] at hj
  omega

/-- **One call.** A call that keeps the quotas' values keeps every project within them. -/
theorem Db.WithinQuotas.step {quota : ProjectId → ProjectRow} {db db' : Db} {call : Call}
    (hdb : db.WithinQuotas quota)
    (h : (repository (Op.KeepsQuotas quota)).step db call db') : db'.WithinQuotas quota := by
  rcases repository_step_cases h with ⟨out, _, hc⟩ | ⟨_, rfl⟩
  swap
  · exact hdb
  refine ⟨?_, fun p => ?_, fun p => ?_⟩
  · by_cases hcat : ∃ catalog, call.op = .setCatalog catalog
    · obtain ⟨op, t, answer⟩ := call
      obtain ⟨catalog, rfl⟩ := hcat
      obtain rfl := Tx.write_commits.mp hc
      exact h.1
    · rw [Op.catalog_eq hc fun catalog heq => hcat ⟨catalog, heq⟩]
      exact hdb.catalog
  · by_cases hop : call.op.Creates p
    · rcases hop.outstandingJobs hc with hle | ⟨project, hproject, hle⟩
      · exact Nat.le_trans hle (hdb.outstanding p)
      · rwa [hdb.catalog p project hproject] at hle
    · exact Nat.le_trans (Op.outstandingJobs_le hc hop) (hdb.outstanding p)
  · by_cases hop : call.op.Claims db p
    · obtain ⟨project, hproject, hle⟩ := hop.activeProjectJobs hc
      rwa [hdb.catalog p project hproject] at hle
    · exact Nat.le_trans (Op.activeProjectJobs_le hc hop) (hdb.active p)

/-- A run of the server stays within the quotas. -/
theorem quotas_invariant {quota : ProjectId → ProjectRow} {catalog : Catalog}
    (hcat : catalog.HasQuotas quota) :
    (server (Op.KeepsQuotas quota) catalog).Invariant fun s => s.db.WithinQuotas quota := by
  refine TSys.Inductive.invariant ⟨?_, ?_⟩
  · rintro s rfl
    exact ⟨hcat, fun _ => Nat.zero_le _, fun _ => Nat.zero_le _⟩
  · intro s l s' hs hdb hstep
    rcases server_step hs hstep with ⟨_, hsame⟩ | ⟨call, _, hcall⟩
    · rwa [hsame]
    · exact hdb.step hcall

/-! ## Other projects -/

/-- A change in a call that does not concern project `p` leaves what counts for `p`. -/
theorem RowChange.frame {op : Op} {t : DbTime} {db : Db} {j : JobId} {new : JobRow}
    {p : ProjectId} (h : RowChange op t j (db.job? j) new) (hop : ¬ op.Concerns db p) :
    new.outstandingOf p = (db.job? j).any (·.outstandingOf p) ∧
      new.activeOf p = (db.job? j).any (·.activeOf p) := by
  have hforeign : ∀ row : JobRow, row.projectId ≠ p →
      row.outstandingOf p = false ∧ row.activeOf p = false := by
    intro row hne
    simp [JobRow.outstandingOf, JobRow.activeOf, hne]
  cases hold : db.job? j with
  | none =>
      rw [hold] at h
      cases h with
      | create => exact hforeign _ fun hp => hop hp
  | some old =>
      rw [hold] at h
      by_cases hp : old.projectId = p
      · -- only a heartbeat changes a row of `p`, and it keeps state and lease
        have hrow : ∃ row, db.job? j = some row ∧ row.projectId = p := ⟨old, hold, hp⟩
        cases h with
        | heartbeat => exact ⟨rfl, rfl⟩
        | cancel | claim | transition | result | recover => exact absurd hrow hop
      · have hnew : new.projectId ≠ p := h.identity.1 ▸ hp
        obtain ⟨ho, ha⟩ := hforeign old hp
        obtain ⟨hno, hna⟩ := hforeign new hnew
        exact ⟨hno.trans ho.symm, hna.trans ha.symm⟩

/-- A call that does not concern project `p` leaves both counts of `p`. -/
theorem Op.counts_framed {op : Op} {t : DbTime} {db db' : Db} {out : op.Out}
    (h : (op.tx t).Commits db out db') {p : ProjectId} (hop : ¬ op.Concerns db p) :
    db'.outstandingJobs p = db.outstandingJobs p ∧
      db'.activeProjectJobs p = db.activeProjectJobs p := by
  have hrows : ∀ j, (db'.job? j).any (·.outstandingOf p) = (db.job? j).any (·.outstandingOf p) ∧
      (db'.job? j).any (·.activeOf p) = (db.job? j).any (·.activeOf p) := by
    intro j
    rcases Op.rows h j with ⟨hsame, _⟩ | ⟨new, hnew, hchange⟩
    · rw [hsame]
      exact ⟨rfl, rfl⟩
    · rw [hnew]
      exact hchange.frame hop
  constructor
  · rw [Db.outstandingJobs_eq, Db.outstandingJobs_eq]
    refine Nat.le_antisymm (Table.countRows_le fun j hj => ?_) (Table.countRows_le fun j hj => ?_)
    · exact (hrows j).1 ▸ hj
    · exact (hrows j).1.symm ▸ hj
  · rw [Db.activeProjectJobs_eq, Db.activeProjectJobs_eq]
    refine Nat.le_antisymm (Table.countRows_le fun j hj => ?_) (Table.countRows_le fun j hj => ?_)
    · exact (hrows j).2 ▸ hj
    · exact (hrows j).2.symm ▸ hj

/-- The outcome of a quota check depends on the catalog's row of the project and on the
count. -/
theorem quotaCheck_exec_congr {db db' : Db} {p : ProjectId} {count : Db → Nat}
    {limit : ProjectRow → Nat} (quota : ProjectQuota) (f g : String)
    (hcat : db'.catalog.projects.get? p = db.catalog.projects.get? p)
    (hcount : count db' = count db) :
    let check : RepoTx Unit := do
      let project ← lockProject p
      let current ← .read count
      requireQuota p quota f g current (limit project)
    (check.exec db').1 = (check.exec db).1 := by
  intro check
  have heval : ∀ d : Db, (check.exec d).1 =
      match d.catalog.projects.get? p with
      | none => .error (.notFound "project" p.val)
      | some project => ((requireQuota p quota f g (count d) (limit project)).exec d).1 := by
    intro d
    cases hproject : d.catalog.projects.get? p with
    | none =>
        have hlock : lockProject p d = .error (.notFound "project" p.val) := by
          unfold lockProject
          rw [Tx.bind_of_commits (Tx.read_commits.mpr ⟨rfl, rfl⟩), hproject]
          rfl
        show ((lockProject p >>= _).exec d).1 = _
        rw [Tx.exec_of_error (Tx.bind_of_error hlock)]
    | some project =>
        have hlock : (lockProject p).Commits d project d := lockProject_commits.mpr ⟨hproject, rfl⟩
        have hsplit : check d = requireQuota p quota f g (count d) (limit project) d := by
          show (lockProject p >>= _) d = _
          rw [Tx.bind_of_commits hlock]
          rfl
        rw [Tx.exec_congr hsplit]
  have hrequire : ∀ current limit, ((requireQuota p quota f g current limit).exec db').1 =
      ((requireQuota p quota f g current limit).exec db).1 := by
    intro current limit
    unfold requireQuota
    split
    · cases toU32 f current with
      | error e => rfl
      | ok n => cases toU32 g limit <;> rfl
    · rfl
  rw [heval, heval, hcat, hcount]
  cases db.catalog.projects.get? p with
  | none => rfl
  | some project => exact hrequire _ _

/-- **Frame.** A call that does not concern project `p` leaves the outcome of both quota
checks of `p`. -/
theorem quotas_framed {Allowed : Op → Prop} {db db' : Db} {call : Call}
    (h : (repository Allowed).step db call db') {p : ProjectId} (hop : ¬ call.op.Concerns db p) :
    ((outstandingQuota p).exec db').1 = ((outstandingQuota p).exec db).1 ∧
      ((concurrentQuota p).exec db').1 = ((concurrentQuota p).exec db).1 := by
  rcases repository_step_cases h with ⟨out, _, hc⟩ | ⟨_, rfl⟩
  · have hcat : db'.catalog = db.catalog := by
      refine Op.catalog_eq hc fun catalog heq => hop ?_
      rw [heq]
      trivial
    obtain ⟨hout, hact⟩ := Op.counts_framed hc hop
    have hproject : db'.catalog.projects.get? p = db.catalog.projects.get? p := by rw [hcat]
    exact ⟨quotaCheck_exec_congr _ _ _ hproject hout, quotaCheck_exec_congr _ _ _ hproject hact⟩
  · exact ⟨rfl, rfl⟩

/-! ## The result -/

/-- **Quotas.** With fixed quotas, in every run of the server every project is within
both of its quotas, and a step that concerns no job of a project leaves the outcome of
both checks of that project. -/
theorem quotas_held {quota : ProjectId → ProjectRow} {catalog : Catalog}
    (hcat : catalog.HasQuotas quota) {s : Server}
    (hs : (server (Op.KeepsQuotas quota) catalog).Reachable s) :
    (∀ p project, s.db.catalog.projects.get? p = some project →
      s.db.outstandingJobs p ≤ project.maxOutstandingJobs ∧
        s.db.activeProjectJobs p ≤ project.maxConcurrentJobs) ∧
    ∀ l s' p, (server (Op.KeepsQuotas quota) catalog).step s l s' →
      (∀ call ∈ l, ¬ call.op.Concerns s.db p) →
      ((outstandingQuota p).exec s'.db).1 = ((outstandingQuota p).exec s.db).1 ∧
        ((concurrentQuota p).exec s'.db).1 = ((concurrentQuota p).exec s.db).1 := by
  have hdb := quotas_invariant hcat s hs
  constructor
  · intro p project hproject
    obtain rfl := hdb.catalog p project hproject
    exact ⟨hdb.outstanding p, hdb.active p⟩
  · intro l s' p hstep hop
    rcases server_step hs hstep with ⟨_, hsame⟩ | ⟨call, hl, hcall⟩
    · rw [hsame]
      exact ⟨rfl, rfl⟩
    · exact quotas_framed hcall (hop call hl)

/-- Another create in the same project, under another key. -/
def Sample.rivalCall : CreateCall := ⟨⟨"job_rival", by decide⟩, event 1, request, "other", [], at_ 3⟩

/-- Its answer and the database after both. -/
def Sample.rivalInsertion : Except RepositoryError CreatedJob × Db :=
  (insertCreated rivalCall.id rivalCall.eventId rivalCall.request rivalCall.idempotencyKey
    rivalCall.traceHeaders rivalCall.time).exec Sample.insertion.2

/-- Both creates find nothing under their keys before either of them counts. Then they count and
write one after the other, as the lock on their project makes them. -/
theorem Sample.rivals_run (Allowed : Op → Prop) (hfirst : Allowed createCall.op)
    (hsecond : Allowed rivalCall.op) : (server Allowed catalog).Run ⟨Db.empty catalog, []⟩
      [none, none, none, some ⟨createCall.op, at_ 2, insertion.1⟩, none,
        some ⟨rivalCall.op, at_ 3, rivalInsertion.1⟩] ⟨rivalInsertion.2, []⟩ := by
  have hfree : ∀ l, ¬ Held [] l := by
    rintro l ⟨x, hx, _⟩
    cases hx
  have hsilent : ∀ call ∈ (none : Option Call), Allowed call.op := by
    intro call hc
    cases hc
  let sys := server Allowed catalog
  have hlookup : sys.step ⟨Db.empty catalog, []⟩ none ⟨Db.empty catalog, [.keyed createCall]⟩ :=
    ⟨@Server.Step.lookup ⟨Db.empty catalog, []⟩ _ (hfree _) (lookupKey_commits.mpr ⟨rfl, rfl, rfl⟩),
      hsilent⟩
  have hlookup' : sys.step ⟨Db.empty catalog, [.keyed createCall]⟩ none
      ⟨Db.empty catalog, [.keyed rivalCall, .keyed createCall]⟩ := by
    refine ⟨@Server.Step.lookup ⟨Db.empty catalog, [.keyed createCall]⟩ rivalCall ?_ ?_, hsilent⟩
    · simp [Held, Session.locks, rivalCall, createCall]
    · exact lookupKey_commits.mpr ⟨rfl, rfl, rfl⟩
  have hcount : sys.step ⟨Db.empty catalog, [.keyed rivalCall, .keyed createCall]⟩ none
      ⟨Db.empty catalog, [.keyed rivalCall, .counted createCall]⟩ := by
    refine ⟨@Server.Step.count ⟨Db.empty catalog, [.keyed rivalCall, .keyed createCall]⟩ _
      [.keyed rivalCall] [] rfl ?_ ?_, hsilent⟩
    · simp [Held, Session.locks]
    · exact outstandingQuota_commits.mpr ⟨rfl, ⟨2, 10⟩, by decide +kernel, by decide⟩
  have hinsert : sys.step ⟨Db.empty catalog, [.keyed rivalCall, .counted createCall]⟩
      (some ⟨createCall.op, at_ 2, insertion.1⟩) ⟨insertion.2, [.keyed rivalCall]⟩ := by
    refine ⟨@Server.Step.insert ⟨Db.empty catalog, [.keyed rivalCall, .counted createCall]⟩ _
      [.keyed rivalCall] [] _ _ rfl rfl ?_, fun call hc => ?_⟩
    · rintro l ⟨x, hx, hl⟩
      obtain rfl := List.mem_singleton.mp hx
      obtain rfl := List.mem_singleton.mp hl
      trivial
    · obtain rfl := Option.some.inj hc
      exact hfirst
  have hcount' : sys.step ⟨insertion.2, [.keyed rivalCall]⟩ none
      ⟨insertion.2, [.counted rivalCall]⟩ := by
    refine ⟨@Server.Step.count ⟨insertion.2, [.keyed rivalCall]⟩ _ [] [] rfl ?_ ?_, hsilent⟩
    · simp [Held, Session.locks]
    · exact outstandingQuota_commits.mpr ⟨rfl, ⟨2, 10⟩, by decide +kernel, by decide +kernel⟩
  have hinsert' : sys.step ⟨insertion.2, [.counted rivalCall]⟩
      (some ⟨rivalCall.op, at_ 3, rivalInsertion.1⟩) ⟨rivalInsertion.2, []⟩ := by
    refine ⟨@Server.Step.insert ⟨insertion.2, [.counted rivalCall]⟩ _ [] [] _ _ rfl rfl
      fun l hl => absurd hl (hfree l), fun call hc => ?_⟩
    obtain rfl := Option.some.inj hc
    exact hsecond
  exact .snoc (.snoc (.snoc (.snoc (.snoc (.snoc (.nil _) hlookup) hlookup') hcount) hinsert)
    hcount') hinsert'

/-- Two creates that overlap leave two jobs in a project of ten. -/
theorem quotas_held_inserted : Sample.rivalInsertion.2.outstandingJobs Sample.project = 2 ∧
    Sample.rivalInsertion.2.outstandingJobs Sample.project ≤ 10 := by
  have hcat : Sample.catalog.HasQuotas fun _ => ⟨2, 10⟩ := by
    intro p project hproject
    have hget := hproject
    unfold Sample.catalog at hget
    rw [Table.get?_put] at hget
    split at hget
    · exact (Option.some.inj hget).symm
    · cases hget
  have hreach : (server (Op.KeepsQuotas fun _ => ⟨2, 10⟩) Sample.catalog).Reachable
      ⟨Sample.rivalInsertion.2, []⟩ :=
    TSys.Reachable.run (.init rfl) (Sample.rivals_run _ trivial trivial)
  have hproject : Sample.rivalInsertion.2.catalog.projects.get? Sample.project = some ⟨2, 10⟩ := by
    decide +kernel
  exact ⟨by decide +kernel, ((quotas_held hcat hreach).1 Sample.project _ hproject).1⟩

end RunAnywhere
