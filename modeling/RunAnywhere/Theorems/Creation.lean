import RunAnywhere.Repository.Locks
import RunAnywhere.Repository.OutboxRun
import RunAnywhere.Theorems.Cancellation

/-!
# Creation

The first create that succeeds under a key stores the job, its `job.queued` event and its
queue message in one transaction (`CreatedOnce.of_create`); nothing removes or doubles any
of the three (`CreatedOnce.step`), and every later create under the key answers with the
stored job, before it looks at quota or body (`createJobWithOutbox_replay`). So along a
run the answers under a key are one creation and then replays (`creation_run`).
-/

namespace RunAnywhere

open Logic

/-! ## The queue channel -/

/-- Every message of the queue channel is keyed by the job it is for. -/
def Db.QueueRows (db : Db) : Prop := ∀ key message, db.message? key = some message →
  message.subject = jobsQueuedSubject →
    ∃ queued, message.payload = .jobQueued queued ∧ key = queued.jobId.val

theorem Db.QueueRows.step {op : Op} {t : DbTime} {db db' : Db} {out : op.Out}
    (hdb : db.QueueRows) (h : (op.tx t).Commits db out db') : db'.QueueRows := by
  intro key message hmessage hsubject
  cases (Op.outbox h).new key message hmessage with
  | kept old was keeps _ =>
      obtain ⟨queued, hpayload, hkey⟩ := hdb key old was (keeps.subject ▸ hsubject)
      exact ⟨queued, keeps.payload.trans hpayload, hkey⟩
  | webhook _ _ row =>
      have hfalse : webhookSubject = jobsQueuedSubject := row.1.symm.trans hsubject
      exact absurd hfalse (by decide)
  | created job _ _ _ keyed _ payload => exact ⟨_, payload, keyed⟩
  | marker _ _ _ _ _ _ _ _ _ _ channel =>
      have hfalse : jobsDeadSubject = jobsQueuedSubject := channel.symm.trans hsubject
      exact absurd hfalse (by decide)
  | letter _ _ _ _ channel =>
      have hfalse : jobsDeadSubject = jobsQueuedSubject := channel.symm.trans hsubject
      exact absurd hfalse (by decide)

/-! ## What a creation leaves behind -/

/-- The job of a key, with what its creation wrote: its row, its `job.queued` event and
its message on the queue channel, each once. -/
structure Db.CreatedOnce (db : Db) (p : ProjectId) (key : String) (j : JobId) (row : JobRow)
    (event : JobEvent) : Prop where
  valid : ∀ d : Db, (validateIdempotencyKey key).Commits d () d
  stored : db.job? j = some row
  project : row.projectId = p
  keyed : row.idempotencyKey = key
  only : ∀ j' row', db.job? j' = some row' → row'.projectId = p → row'.idempotencyKey = key → j' = j
  event : (db.eventsOf j).filter (fun e => decide (e.eventType = "job.queued")) = [event]
  message : ∃ message, db.message? j.val = some message ∧ message.subject = jobsQueuedSubject ∧
    message.payload = .jobQueued (row.queued j)
  onlyMessage : ∀ k message queued, db.message? k = some message →
    message.subject = jobsQueuedSubject → message.payload = .jobQueued queued → queued.jobId = j →
    k = j.val

/-- A change keeps what the queue message says about the job. -/
theorem RowChange.queued {op : Op} {t : DbTime} {j : JobId} {old new : JobRow}
    (h : RowChange op t j (some old) new) : new.queued j = old.queued j := by
  cases h with
  | @recover stale maxDeliver => cases recoveryKind stale maxDeliver old <;> rfl
  | cancel | claim | transition | result | heartbeat => rfl

theorem Db.jobByKey?_eq_none {db : Db} {p : ProjectId} {key : String} :
    db.jobByKey? p key = none ↔
      ∀ j row, db.job? j = some row → ¬ (row.projectId = p ∧ row.idempotencyKey = key) := by
  simp only [Db.jobByKey?, Option.map_eq_none_iff, List.find?_eq_none]
  constructor
  · intro h j row hrow hk
    unfold Db.job? Table.row? at hrow
    obtain ⟨r, hr, rfl⟩ := Option.map_eq_some_iff.mp hrow
    exact h (j, r) ((Table.mem_rows_iff _ _ _).mpr hr) (by simp [hk.1, hk.2])
  · rintro h ⟨j, row⟩ hmem hk
    simp only [Bool.and_eq_true, decide_eq_true_eq] at hk
    refine h j row.val ?_ hk
    unfold Db.job? Table.row?
    rw [(Table.mem_rows_iff _ _ _).mp hmem]
    rfl

theorem Db.jobByKey?_some {db : Db} {p : ProjectId} {key : String} {j : JobId} {row : JobRow}
    (h : db.jobByKey? p key = some (j, row)) :
    db.job? j = some row ∧ row.projectId = p ∧ row.idempotencyKey = key := by
  unfold Db.jobByKey? at h
  obtain ⟨⟨j', r⟩, hfind, heq⟩ := Option.map_eq_some_iff.mp h
  obtain ⟨rfl, rfl⟩ := Prod.mk.inj heq
  have hk := List.find?_some hfind
  simp only [Bool.and_eq_true, decide_eq_true_eq] at hk
  refine ⟨?_, hk⟩
  unfold Db.job? Table.row?
  rw [(Table.mem_rows_iff _ _ _).mp (List.mem_of_find?_eq_some hfind)]
  rfl

/-- The job of the key is the one the lookup finds. -/
theorem Db.CreatedOnce.lookup {db : Db} {p : ProjectId} {key : String} {j : JobId} {row : JobRow}
    {event : JobEvent} (h : db.CreatedOnce p key j row event) :
    db.jobByKey? p key = some (j, row) := by
  cases hfound : db.jobByKey? p key with
  | none => exact absurd ⟨h.project, h.keyed⟩ (Db.jobByKey?_eq_none.mp hfound j row h.stored)
  | some found =>
      obtain ⟨j', row'⟩ := found
      obtain ⟨hjob, hp, hk⟩ := Db.jobByKey?_some hfound
      obtain rfl := h.only j' row' hjob hp hk
      obtain rfl := Option.some.inj (hjob.symm.trans h.stored)
      rfl

/-- **Kept.** What a creation left behind stays, under the job's current row. -/
theorem Db.CreatedOnce.step {op : Op} {t : DbTime} {db db' : Db} {out : op.Out} {p : ProjectId}
    {key : String} {j : JobId} {row : JobRow} {event : JobEvent}
    (hdb : db.CreatedOnce p key j row event) (hqueue : db.QueueRows)
    (h : (op.tx t).Commits db out db') : ∃ row', db'.CreatedOnce p key j row' event := by
  have hrow : ∃ row', db'.job? j = some row' ∧ row'.projectId = p ∧ row'.idempotencyKey = key ∧
      row'.queued j = row.queued j := by
    rcases Op.rows h j with ⟨hsame, _⟩ | ⟨new, hnew, hchange⟩
    · exact ⟨row, hsame.trans hdb.stored, hdb.project, hdb.keyed, rfl⟩
    · rw [hdb.stored] at hchange
      obtain ⟨hp, hk, _⟩ := hchange.identity
      exact ⟨new, hnew, hp.trans hdb.project, hk.trans hdb.keyed, hchange.queued⟩
  obtain ⟨row', hjob, hproject, hkey, hqueued⟩ := hrow
  refine ⟨row', hdb.valid, hjob, hproject, hkey, ?_, ?_, ?_, ?_⟩
  · -- another row under the key would be an insert, and the lookup precedes it
    intro j' r hr hp hk
    rcases Op.rows h j' with ⟨hsame, _⟩ | ⟨new, hnew, hchange⟩
    · exact hdb.only j' r (hsame ▸ hr) hp hk
    · obtain rfl := Option.some.inj (hnew.symm.trans hr)
      cases hold : db.job? j' with
      | some old =>
          rw [hold] at hchange
          obtain ⟨hp', hk', _⟩ := hchange.identity
          exact hdb.only j' old hold (hp'.symm.trans hp) (hk'.symm.trans hk)
      | none =>
          rw [hold] at hchange
          cases hchange with
          | @create _ eventId request k headers t =>
              have hp' : request.projectId = p := hp
              have hk' : k = key := hk
              subst hp' hk'
              rcases createJobWithOutbox_commits h with ⟨_, _, _, _, rfl⟩ | ⟨_, _, hnone, _⟩
              · rw [hold] at hr
                cases hr
              · rw [hdb.lookup] at hnone
                cases hnone
  · obtain ⟨l, hevents, hl⟩ := Op.events h
    have hnil : (l.filter (·.jobId = j)).filter (fun e => decide (e.eventType = "job.queued")) =
        [] := by
      rw [List.filter_eq_nil_iff]
      intro e he htype
      obtain ⟨hmem, hj⟩ := List.mem_filter.mp he
      have hnone := (hl e hmem).2.fresh (of_decide_eq_true htype)
      rw [of_decide_eq_true hj, hdb.stored] at hnone
      cases hnone
    have hevent := hdb.event
    unfold Db.eventsOf at hevent ⊢
    rw [hevents, List.filter_append, List.filter_append, hevent, hnil]
    rfl
  · obtain ⟨message, hmessage, hsubject, hpayload⟩ := hdb.message
    obtain ⟨new, hnew, hkeeps⟩ := (Op.outbox h).old _ _ hmessage
    exact ⟨new, hnew, hkeeps.subject.trans hsubject, by rw [hkeeps.payload, hpayload, hqueued]⟩
  · intro k message queued hmessage hsubject hpayload hj
    obtain ⟨queued', hpayload', hk⟩ := hqueue.step h k message hmessage hsubject
    rw [hpayload] at hpayload'
    cases hpayload'
    rw [hk, hj]

/-! ## Creates under a key -/

/-- The call is a create under the key. -/
def Op.CreatesUnder (p : ProjectId) (key : String) : Op → Prop
  | .createJobWithOutbox _ _ request k _ => request.projectId = p ∧ k = key
  | _ => False

/-- The answer of a successful create under the key. -/
def Call.created? (p : ProjectId) (key : String) : Call → Option CreatedJob
  | ⟨.createJobWithOutbox _ _ request k _, _, .ok created⟩ =>
      if request.projectId = p ∧ k = key then some created else none
  | _ => none

/-- **Replay.** Once the key has its job, a create under it answers with that job and
writes nothing, whatever it asks for. -/
theorem Db.CreatedOnce.replay {db : Db} {p : ProjectId} {key : String} {j : JobId} {row : JobRow}
    {event : JobEvent} (hdb : db.CreatedOnce p key j row event) {call : Call} {db' : Db}
    (hop : call.op.CreatesUnder p key) (h : (call.op.tx call.time).exec db = (call.answer, db')) :
    call.created? p key = some ⟨row.intoJob j, false, none⟩ ∧ db' = db := by
  obtain ⟨op, t, answer⟩ := call
  cases op with
  | createJobWithOutbox id eventId request k headers =>
      obtain ⟨rfl, rfl⟩ := hop
      have hlookup : (lookupKey request.projectId k).Commits db (some (j, row)) db :=
        lookupKey_commits.mpr ⟨hdb.valid db, hdb.lookup, rfl⟩
      have hreplay := CreateCall.exec_replay (c := ⟨id, eventId, request, k, headers, t⟩) hlookup
      obtain ⟨rfl, rfl⟩ := Prod.mk.inj (h.symm.trans hreplay)
      exact ⟨if_pos ⟨rfl, rfl⟩, rfl⟩
  | _ => exact hop.elim

/-- **Creation.** The create that finds no job under its key leaves one behind, with its
event and its message, or fails. -/
theorem createdOnce_of_create {id : JobId} {eventId : JobEventId} {request : CreateJobRequest}
    {key : String} {headers : List (String × String)} {t : DbTime} {db db' : Db}
    {created : CreatedJob} (hqueue : db.QueueRows)
    (howned : ∀ e ∈ db.events, (db.job? e.jobId).isSome = true)
    (h : (createJobWithOutbox id eventId request key headers t).Commits db created db')
    (hnone : db.jobByKey? request.projectId key = none) : ∃ row event,
      created = ⟨row.intoJob id, true, some event⟩ ∧
        db'.CreatedOnce request.projectId key id row event := by
  have hvalid : ∀ d : Db, (validateIdempotencyKey key).Commits d () d := by
    intro d
    have hsplit := h
    simp only [createJobWithOutbox, validateIdempotencyKey, Tx.bind_commits,
      Tx.require_commits] at hsplit
    obtain ⟨_, _, ⟨hkey, _⟩, _⟩ := hsplit
    exact Tx.require_commits.mpr ⟨hkey, rfl⟩
  have hop : (Op.createJobWithOutbox id eventId request key headers).tx t |>.Commits db created db' :=
    h
  have hqueue' := hqueue.step hop
  rcases createJobWithOutbox_commits h with ⟨_, _, hfound, _⟩ |
    ⟨hc, event, _, hfresh, _, rfl, hevent, _, _, hjobs, hevents, _, hmessage⟩
  · rw [hnone] at hfound
    cases hfound
  · refine ⟨newJobRow request key t, event, rfl, hvalid, ?_, rfl, rfl, ?_, ?_, ?_, ?_⟩
    · unfold Db.job?
      rw [hjobs]
      exact Table.row?_put_self _ _ _ _
    · intro j' row' hrow' hp hk
      by_cases hj : j' = id
      · exact hj
      · unfold Db.job? at hrow'
        rw [hjobs, Table.row?_put_of_ne _ _ _ hj] at hrow'
        exact absurd ⟨hp, hk⟩ (Db.jobByKey?_eq_none.mp hnone j' row' hrow')
    · -- a fresh identifier has no events yet
      have hnil : db.events.filter (·.jobId = id) = [] := by
        rw [List.filter_eq_nil_iff]
        intro e he hj
        have hsome := howned e he
        rw [of_decide_eq_true hj, hfresh] at hsome
        cases hsome
      subst hevent
      unfold Db.eventsOf
      rw [hevents, List.filter_append, hnil]
      simp
    · obtain ⟨message, hrow, _, hsubject, hpayload⟩ := hmessage
      exact ⟨message, hrow, hsubject, hpayload⟩
    · intro k message queued hrow hsubject hpayload hj
      obtain ⟨queued', hpayload', hk⟩ := hqueue' k message hrow hsubject
      rw [hpayload] at hpayload'
      cases hpayload'
      rw [hk, hj]

/-! ## Along a run -/

/-- What the answers under a key and the database say together: nothing was created, or
the first answer created the job and every later one returned it. -/
def Db.AnswersFor (db : Db) (p : ProjectId) (key : String) (answers : List CreatedJob) : Prop :=
  (answers = [] ∧ db.jobByKey? p key = none) ∨
    ∃ j row event first rest, answers = first :: rest ∧
      first.job.id = j ∧ first.wasCreated = true ∧ first.queuedEvent = some event ∧
      (∀ x ∈ rest, x.job.id = j ∧ x.wasCreated = false ∧ x.queuedEvent = none) ∧
      db.CreatedOnce p key j row event

theorem Call.created?_error {p : ProjectId} {key : String} {op : Op} {t : DbTime}
    {e : RepositoryError} : Call.created? p key ⟨op, t, .error e⟩ = none := by
  cases op <;> rfl

theorem Call.created?_of_not {p : ProjectId} {key : String} {call : Call}
    (h : ¬ call.op.CreatesUnder p key) : call.created? p key = none := by
  obtain ⟨op, t, answer⟩ := call
  cases answer with
  | error e => exact Call.created?_error
  | ok out =>
      cases op with
      | createJobWithOutbox id eventId request k headers => exact if_neg h
      | _ => rfl

theorem Op.CreatesUnder.of_locks {p : ProjectId} {key : String} {op : Op} {db : Db}
    (h : .key p key ∈ op.locks db) : op.CreatesUnder p key := by
  cases op with
  | createJobWithOutbox id eventId request k headers =>
      simp only [Op.locks, List.mem_cons, Lock.key.injEq, reduceCtorEq, List.not_mem_nil,
        or_false] at h
      exact ⟨h.1.symm, h.2.symm⟩
  | claimJobWithOptions j w l expires options eventId =>
      unfold Op.locks at h
      cases hrow : db.job? j <;> simp [hrow] at h
  | _ => cases h

/-- **One call.** The answers under a key go on as they began. -/
theorem Db.AnswersFor.step {Allowed : Op → Prop} {db db' : Db} {call : Call} {p : ProjectId}
    {key : String} {answers : List CreatedJob} (hqueue : db.QueueRows)
    (howned : ∀ e ∈ db.events, (db.job? e.jobId).isSome = true)
    (hdb : db.AnswersFor p key answers) (h : (repository Allowed).step db call db') :
    db'.AnswersFor p key (answers ++ (call.created? p key).toList) := by
  by_cases hop : call.op.CreatesUnder p key
  · rcases hdb with ⟨rfl, hnone⟩ | ⟨j, row, event, first, rest, rfl, hj, hwas, hev, hrest, hdb⟩
    · -- the first create to get here
      obtain ⟨op, t, answer⟩ := call
      have hcases : (∃ out : op.Out, answer = .ok out ∧ (op.tx t).Commits db out db') ∨
          ((∃ e, answer = .error e) ∧ db' = db) := repository_step_cases h
      rcases hcases with ⟨out, rfl, hc⟩ | ⟨⟨e, rfl⟩, rfl⟩
      · cases op with
        | createJobWithOutbox id eventId request k headers =>
            obtain ⟨rfl, rfl⟩ := hop
            obtain ⟨row, event, hout, hcreated⟩ := createdOnce_of_create hqueue howned hc hnone
            have hanswer : Call.created? request.projectId k
                ⟨.createJobWithOutbox id eventId request k headers, t, .ok out⟩ = some out :=
              if_pos ⟨rfl, rfl⟩
            rw [hanswer]
            exact Or.inr ⟨id, row, event, out, [], rfl, by rw [hout]; rfl, by rw [hout],
              by rw [hout], fun x hx => absurd hx List.not_mem_nil, hcreated⟩
        | _ => exact hop.elim
      · rw [Call.created?_error]
        exact Or.inl ⟨rfl, hnone⟩
    · obtain ⟨hanswer, rfl⟩ := hdb.replay hop h.2
      rw [hanswer]
      refine Or.inr ⟨j, row, event, first, rest ++ [_], rfl, hj, hwas, hev, fun x hx => ?_, hdb⟩
      rcases List.mem_append.mp hx with hx | hx
      · exact hrest x hx
      · obtain rfl := List.mem_singleton.mp hx
        exact ⟨rfl, rfl, rfl⟩
  · rw [Call.created?_of_not hop, Option.toList_none, List.append_nil]
    rcases repository_step_cases h with ⟨out, _, hc⟩ | ⟨_, rfl⟩
    swap
    · exact hdb
    rcases hdb with ⟨rfl, hnone⟩ | ⟨j, row, event, first, rest, rfl, hj, hwas, hev, hrest, hdb⟩
    · exact Or.inl ⟨rfl, Op.jobByKey? hc hnone fun hl => hop (.of_locks hl)⟩
    · obtain ⟨row', hdb'⟩ := hdb.step hqueue hc
      exact Or.inr ⟨j, row', event, first, rest, rfl, hj, hwas, hev, hrest, hdb'⟩

/-- **Run.** From the empty database, the answers under a key are one creation and then
replays. -/
theorem creation_run {Allowed : Op → Prop} {catalog : Catalog} {calls : List Call} {db : Db}
    (hrun : (repository Allowed).Run (Db.empty catalog) calls db) (p : ProjectId) (key : String) :
    db.QueueRows ∧ (∀ e ∈ db.events, (db.job? e.jobId).isSome = true) ∧
      db.AnswersFor p key (calls.filterMap (·.created? p key)) := by
  induction hrun with
  | nil =>
      refine ⟨fun key message hm => ?_, fun e he => ?_, Or.inl ⟨rfl, rfl⟩⟩
      · cases hm
      · cases he
  | @snoc calls db₁ call db₂ hrun hstep ih =>
      obtain ⟨hqueue, howned, hanswers⟩ := ih
      rw [List.filterMap_append]
      have hlast : [call].filterMap (·.created? p key) = (call.created? p key).toList := by
        cases h : call.created? p key <;> simp [h]
      rw [hlast]
      have hnext := hanswers.step hqueue howned hstep
      rcases repository_step_cases hstep with ⟨out, _, hc⟩ | ⟨_, rfl⟩
      · refine ⟨hqueue.step hc, fun e he => ?_, hnext⟩
        obtain ⟨l, hevents, hl⟩ := Op.events hc
        rw [hevents] at he
        rcases List.mem_append.mp he with hold | hnew
        · rcases Op.rows hc e.jobId with ⟨hsame, _⟩ | ⟨new, hrow, _⟩
          · rw [hsame]
            exact howned e hold
          · rw [hrow]
            rfl
        · exact (hl e hnew).1
      · exact ⟨hqueue, howned, hnext⟩

/-- **Creation.** In every run of the server, from every interleaving: the successful
answers under a key are one creation, which reports its event, and then replays of that
job; the job's row, its `job.queued` event and its queue message exist once, and the
message says what a snapshot of the job says. A call that fails writes nothing, and a
create that ends after the creation answers with the job. -/
theorem creation_idempotent {Allowed : Op → Prop} {catalog : Catalog} {ls : List (Option Call)}
    {s : Server} (hrun : (server Allowed catalog).Run ⟨Db.empty catalog, []⟩ ls s)
    (p : ProjectId) (key : String) :
    s.db.AnswersFor p key ((ls.filterMap id).filterMap (·.created? p key)) ∧
    (∀ j row snap db', s.db.jobByKey? p key = some (j, row) →
      (getJobSchedulingSnapshot j).Commits s.db (some snap) db' →
      ∃ message, s.db.message? j.val = some message ∧ message.subject = jobsQueuedSubject ∧
        message.payload = .jobQueued snap.queued) ∧
    ∀ l s', (server Allowed catalog).step s l s' →
      (l = none → s'.db = s.db) ∧ ∀ call ∈ l,
        ((∃ e, call.answer = .error e) → s'.db = s.db) ∧
        (call.op.CreatesUnder p key → ∀ j row, s.db.jobByKey? p key = some (j, row) →
          call.created? p key = some ⟨row.intoJob j, false, none⟩ ∧ s'.db = s.db) := by
  have hinit : (server Allowed catalog).Reachable ⟨Db.empty catalog, []⟩ := .init rfl
  have hanswers := (creation_run (server_run hinit hrun) p key).2.2
  refine ⟨hanswers, fun j row snap db' hlookup hsnap => ?_, fun l s' hstep => ?_⟩
  · rcases hanswers with ⟨_, hnone⟩ | ⟨j', row', event, _, _, _, _, _, _, _, hdb⟩
    · rw [hnone] at hlookup
      cases hlookup
    · rw [hdb.lookup] at hlookup
      obtain ⟨rfl, rfl⟩ := Prod.mk.inj (Option.some.inj hlookup)
      obtain ⟨row, hrow, hshows⟩ := (getJobSchedulingSnapshot_commits hsnap).2 snap rfl
      obtain rfl := Option.some.inj (hrow.symm.trans hdb.stored)
      rw [hshows.queued]
      exact hdb.message
  rcases server_step (hinit.run hrun) hstep with ⟨rfl, hsame⟩ | ⟨call, rfl, hcall⟩
  · exact ⟨fun _ => hsame, fun call hc => absurd hc.symm (Option.some_ne_none _)⟩
  · refine ⟨fun hn => absurd hn (Option.some_ne_none _), fun call' hc => ?_⟩
    obtain rfl := Option.some.inj hc
    refine ⟨fun herror => ?_, fun hop j row hlookup => ?_⟩
    · obtain ⟨e, he⟩ := herror
      rcases repository_step_cases hcall with ⟨out, hout, _⟩ | ⟨_, hsame⟩
      · rw [hout] at he
        cases he
      · exact hsame
    · rcases hanswers with ⟨_, hnone⟩ | ⟨j', row', event, _, _, _, _, _, _, _, hdb⟩
      · rw [hnone] at hlookup
        cases hlookup
      · rw [hdb.lookup] at hlookup
        obtain ⟨rfl, rfl⟩ := Prod.mk.inj (Option.some.inj hlookup)
        exact hdb.replay hop hcall.2

/-- After the sample's create, another one under its key writes nothing. -/
theorem creation_idempotent_again :
    Sample.insertion.2.jobByKey? Sample.project "key" =
        some (Sample.job, newJobRow Sample.request "key" (Sample.at_ 2)) ∧
      ∀ call db', call.op.CreatesUnder Sample.project "key" →
        (server (fun _ => True) Sample.catalog).step ⟨Sample.insertion.2, []⟩ (some call)
          ⟨db', []⟩ → db' = Sample.insertion.2 := by
  have hlookup : Sample.insertion.2.jobByKey? Sample.project "key" =
      some (Sample.job, newJobRow Sample.request "key" (Sample.at_ 2)) := by
    decide +kernel
  refine ⟨hlookup, fun call db' hop hstep => ?_⟩
  have hnext := (creation_idempotent (Sample.create_run trivial) Sample.project "key").2.2 _ _ hstep
  exact ((hnext.2 call rfl).2 hop _ _ hlookup).2

end RunAnywhere
