import RunAnywhere.Theorems.Lifecycle

/-!
# Lease fencing

A lease identifier is drawn afresh for every claim. `fenced` is the repository
with that fact in its state: the identifiers claims were given so far. The
invariant ties rows to it (`leases_granted`): the lease on a row was given to a
claim, so once a row has lost a lease it never carries it again
(`lease_never_returns`), and whatever names that lease is rejected, in any
continuation.

One call can name two leases of a job: a heartbeat that lists an old lease and the
current one extends the current one, and only that.
-/

namespace RunAnywhere

open Logic

/-- The database and the leases its claims were given. -/
structure Ledger where
  db : Db
  granted : List LeaseId

/-- The lease a claim is given. -/
def Op.claimLease : Op → Option LeaseId
  | .claimJobWithOptions _ _ l _ _ _ => some l
  | _ => none

/-- The lease a committed claim was given. -/
def Call.grants (call : Call) : Option LeaseId :=
  if call.answer.isOk then call.op.claimLease else none

/-- A claim that committed grants its lease. -/
theorem Call.grants_claim {call : Call} {j : JobId} {w : WorkerId} {l : LeaseId} {expires : Time}
    {options : ClaimJobOptions} {eventId : JobEventId} {out : call.op.Out}
    (hop : call.op = .claimJobWithOptions j w l expires options eventId)
    (ha : call.answer = .ok out) : call.grants = some l := by
  have hok : call.answer.isOk = true := by rw [ha]; rfl
  unfold Call.grants
  rw [if_pos hok, hop]
  rfl

/-- A committed call grants the lease it was given, if it is a claim. -/
theorem Call.claimLease_of_grants {call : Call} {l : LeaseId} (h : call.grants = some l) :
    call.op.claimLease = some l := by
  unfold Call.grants at h
  split at h
  · exact h
  · cases h

/-- Runs of the repository in which no lease is given to a claim twice. -/
def fenced (Allowed : Op → Prop) : TSys Ledger Call where
  init s := (repository Allowed).init s.db ∧ s.granted = []
  step s call s' := (repository Allowed).step s.db call s'.db ∧
    (∀ l ∈ call.grants, l ∉ s.granted) ∧ s'.granted = call.grants.toList ++ s.granted

/-- Forgetting the leases gives a run of the repository. -/
theorem fenced_proj (Allowed : Op → Prop) :
    TSys.Proj (fenced Allowed) (repository Allowed) Ledger.db where
  init _ h := h.1
  step _ call _ _ h := ⟨[call], .single h.1⟩

/-- A replay of calls that claim under different leases is a run. -/
theorem Ledger.replay_reachable {Allowed : Op → Prop} {ops : List (Op × DbTime)}
    (hallowed : ∀ x ∈ ops, Allowed x.1) {s : Ledger} (hs : (fenced Allowed).Reachable s)
    (hnew : ∀ l ∈ ops.filterMap (·.1.claimLease), l ∉ s.granted)
    (hdiff : (ops.filterMap (·.1.claimLease)).Nodup) :
    ∃ granted, (fenced Allowed).Reachable ⟨s.db.replay ops, granted⟩ := by
  induction ops generalizing s with
  | nil => exact ⟨s.granted, hs⟩
  | cons x rest ih =>
      obtain ⟨op, t⟩ := x
      have hstep := repository_step_exec (hallowed (op, t) (by simp)) t s.db
      have hgrants : ∀ l ∈ Call.grants ⟨op, t, ((op.tx t).exec s.db).1⟩, op.claimLease = some l :=
        fun l hl => Call.claimLease_of_grants hl
      have hrest : rest.filterMap (·.1.claimLease) ⊆
          ((op, t) :: rest).filterMap (·.1.claimLease) := by
        intro l hl
        obtain ⟨x, hx, hxl⟩ := List.mem_filterMap.mp hl
        exact List.mem_filterMap.mpr ⟨x, List.mem_cons_of_mem _ hx, hxl⟩
      refine ih (s := ⟨((op.tx t).exec s.db).2,
        (Call.grants ⟨op, t, ((op.tx t).exec s.db).1⟩).toList ++ s.granted⟩)
        (fun x hx => hallowed x (List.mem_cons_of_mem _ hx)) ?_ ?_ ?_
      · refine .step hs ⟨hstep, fun l hl => ?_, rfl⟩
        exact hnew l (List.mem_filterMap.mpr ⟨(op, t), by simp, hgrants l hl⟩)
      · intro l hl hgranted
        rcases List.mem_append.mp hgranted with h | h
        · -- the lease of this call is in no later call
          have hop := hgrants l (Option.mem_toList.mp h)
          simp only [List.filterMap_cons, hop, List.nodup_cons] at hdiff
          exact hdiff.1 hl
        · exact hnew l (hrest hl) h
      · exact hdiff.sublist ((List.sublist_cons_self _ _).filterMap _)

/-! ## Leases on rows -/

/-- The call names lease `l` of job `j`. -/
def Op.Names (j : JobId) (l : LeaseId) : Op → Prop
  | .claimJobWithOptions j' _ l' _ _ _ => j' = j ∧ l' = l
  | .transitionJobState j' _ _ _ lease _ _ => j' = j ∧ ∃ g ∈ lease, g.leaseId = l
  | .recordJobResult result _ => result.jobId = j ∧ result.leaseId = l
  | .recordHeartbeat heartbeat _ => ⟨j, l⟩ ∈ heartbeat.leaseExtends
  | .recoverStaleJob stale _ _ => stale.jobId = j ∧ stale.leaseId = l
  | _ => False

/-- A change that names a lease is made under it, gives it to the job, or is a
heartbeat that lists another lease of the job, the live one. -/
theorem RowChange.named {op : Op} {t : DbTime} {j : JobId} {old : Option JobRow} {new : JobRow}
    {l : LeaseId} (h : RowChange op t j old new) (hn : op.Names j l) :
    (∃ row ∈ old, row.leaseId = some l) ∨ new.leaseId = some l ∨
      ∃ heartbeat leaseTtl, op = .recordHeartbeat heartbeat leaseTtl ∧
        ∃ l', l' ≠ l ∧ ⟨j, l'⟩ ∈ heartbeat.leaseExtends ∧
          ∃ row ∈ old, extendGuard heartbeat.workerId l' t.clock row = true := by
  cases h with
  | create | cancel => exact absurd hn id
  | claim => exact Or.inr (Or.inl (by rw [← hn.2]; rfl))
  | transition _ hguard =>
      obtain ⟨_, g, hg, rfl⟩ := hn
      exact Or.inl ⟨_, rfl, ((transitionGuard_iff.mp hguard).2.2 g hg).2.1⟩
  | result hguard => exact Or.inl ⟨_, rfl, by rw [← hn.2]; exact (resultGuard_iff.mp hguard).2.1⟩
  | @heartbeat heartbeat leaseTtl extension t row _ hmem hguard =>
      by_cases hl : extension.leaseId = l
      · exact Or.inl ⟨row, rfl, by rw [← hl]; exact (extendGuard_iff.mp hguard).2.1⟩
      · exact Or.inr (Or.inr ⟨heartbeat, leaseTtl, rfl, extension.leaseId, hl, hmem, row, rfl, hguard⟩)
  | recover hfence => exact Or.inl ⟨_, rfl, by rw [← hn.2]; exact hfence.lease⟩

/-- A change keeps the lease of the row and its worker, clears it, or is the claim that set
it. -/
theorem RowChange.lease {op : Op} {t : DbTime} {j : JobId} {old : Option JobRow} {new : JobRow}
    (h : RowChange op t j old new) {l : LeaseId} (hl : new.leaseId = some l) :
    (∃ row ∈ old, row.leaseId = some l ∧ row.workerId = new.workerId) ∨
      ∃ w expires options eventId, op = .claimJobWithOptions j w l expires options eventId := by
  cases h with
  | create => cases hl
  | cancel => exact Or.inl ⟨_, rfl, hl, rfl⟩
  | @claim _ w _ expires options eventId =>
      obtain rfl := Option.some.inj hl
      exact Or.inr ⟨w, expires, options, eventId, rfl⟩
  | @transition _ _ target _ _ _ _ _ row _ _ =>
      left
      refine ⟨row, rfl, ?_, rfl⟩
      have hl' : (if target.terminalOutcome.isSome then none else row.leaseId) = some l := hl
      split at hl'
      · cases hl'
      · exact hl'
  | result => exact Or.inl ⟨_, rfl, hl, rfl⟩
  | heartbeat => exact Or.inl ⟨_, rfl, hl, rfl⟩
  | @recover stale maxDeliver _ _ row _ =>
      have hnone : (row.recovered (recoveryKind stale maxDeliver row)).leaseId = none := by
        cases recoveryKind stale maxDeliver row <;> rfl
      rw [hnone] at hl
      cases hl

/-- Job `j` is leased under `l`. -/
def Db.LeasedUnder (db : Db) (j : JobId) (l : LeaseId) : Prop :=
  ∃ row, db.job? j = some row ∧ row.leaseId = some l

/-- A step that puts a lease on a row is a claim given that lease. -/
theorem repository_step_lease {Allowed : Op → Prop} {db db' : Db} {call : Call}
    (h : (repository Allowed).step db call db') {j : JobId} {l : LeaseId}
    (hl : db'.LeasedUnder j l) : db.LeasedUnder j l ∨ call.grants = some l := by
  obtain ⟨new, hnew, hlease⟩ := hl
  rcases repository_step_rows h j with ⟨hsame, _⟩ | ⟨new', hnew', hchange⟩
  · exact Or.inl ⟨new, hsame ▸ hnew, hlease⟩
  obtain rfl := Option.some.inj (hnew'.symm.trans hnew)
  rcases hchange.lease hlease with ⟨row, hrow, hl, _⟩ | ⟨w, expires, options, eventId, hop⟩
  · exact Or.inl ⟨row, hrow, hl⟩
  · rcases repository_step_cases h with ⟨out, ha, _⟩ | ⟨_, hdb⟩
    · exact Or.inr (Call.grants_claim hop ha)
    · exact Or.inl ⟨new', by rw [← hdb]; exact hnew, hlease⟩

/-- **Granted.** The lease on a row was given to a claim. -/
theorem leases_granted (Allowed : Op → Prop) :
    (fenced Allowed).Invariant fun s => ∀ j l, s.db.LeasedUnder j l → l ∈ s.granted := by
  refine TSys.Inductive.invariant ⟨?_, ?_⟩
  · rintro ⟨db, granted⟩ ⟨⟨catalog, hdb⟩, _⟩ j l ⟨row, hrow, _⟩
    have hdb' : db = Db.empty catalog := hdb
    subst hdb'
    cases hrow
  · intro s call s' _ ih hstep j l hl
    rw [hstep.2.2]
    rcases repository_step_lease hstep.1 hl with h | h
    · exact List.mem_append_right _ (ih j l h)
    · rw [h]
      exact List.mem_append_left _ (by simp)

/-- **No return.** A granted lease that is not on a job's row stays off it. -/
theorem lease_never_returns {Allowed : Op → Prop} {s s' : Ledger} {calls : List Call}
    (hs : (fenced Allowed).Reachable s) (hrun : (fenced Allowed).Run s calls s') {j : JobId}
    {l : LeaseId} (hgranted : l ∈ s.granted) (hoff : ¬ s.db.LeasedUnder j l) :
    l ∈ s'.granted ∧ ¬ s'.db.LeasedUnder j l := by
  refine TSys.Run.preserves (P := fun s => l ∈ s.granted ∧ ¬ s.db.LeasedUnder j l)
    (fun s call s' _ ⟨hg, hoff⟩ hstep => ⟨?_, fun hl => ?_⟩) hrun hs ⟨hgranted, hoff⟩
  · rw [hstep.2.2]
    exact List.mem_append_right _ hg
  · rcases repository_step_lease hstep.1 hl with h | h
    · exact hoff h
    · exact hstep.2.1 l h hg

/-! ## Calls of a lease that does not hold the job -/

/-- `(w, l)` is the current lease of `j` and has not expired at `time`. -/
def Db.HoldsAt (db : Db) (j : JobId) (w : WorkerId) (l : LeaseId) (time : Time) : Prop :=
  ∃ row, db.job? j = some row ∧ row.workerId = some w ∧ row.leaseId = some l ∧
    ∃ e, row.leaseExpiresAt = some e ∧ time < e

/-- A transition fenced by a lease that does not hold the job fails. -/
theorem transition_not_held {db : Db} {j : JobId} {w : WorkerId} {l : LeaseId} {t : DbTime}
    (hoff : ¬ db.HoldsAt j w l t.statement) (source target : JobState)
    (evidence : TransitionEvidence) (payload : List (String × EventValue)) (eventId : JobEventId) :
    ∃ e, (transitionJobState j source target evidence (some ⟨w, l⟩) payload eventId t).exec db =
      (.error e, db) := by
  rcases Tx.exec_cases
    (transitionJobState j source target evidence (some ⟨w, l⟩) payload eventId t) db with
    ⟨_, _, hc, _⟩ | ⟨e, _, he⟩
  · obtain ⟨row, _, _, _, hrow, hguard, _⟩ := transitionJobStateWith_commits hc
    obtain ⟨hw, hl, hexp⟩ := (transitionGuard_iff.mp hguard).2.2 _ rfl
    exact absurd ⟨row, hrow, hw, hl, hexp⟩ hoff
  · exact ⟨e, he⟩

/-- A result of a lease that does not hold the job fails. -/
theorem result_not_held {db : Db} {result : JobResult} {t : DbTime}
    (hoff : ¬ db.HoldsAt result.jobId result.workerId result.leaseId t.statement)
    (eventId : JobEventId) :
    ∃ e, (recordJobResult result eventId t).exec db = (.error e, db) := by
  rcases Tx.exec_cases (recordJobResult result eventId t) db with ⟨_, _, hc, _⟩ | ⟨e, _, he⟩
  · obtain ⟨row, _, hrow, hguard, _⟩ := recordJobResult_commits hc
    obtain ⟨hw, hl, hexp, _⟩ := resultGuard_iff.mp hguard
    exact absurd ⟨row, hrow, hw, hl, hexp⟩ hoff
  · exact ⟨e, he⟩

/-- A heartbeat does not extend a lease that does not hold the job, appends no
event, and changes the job's row only for another listed lease that does hold it. -/
theorem heartbeat_not_held {db db' : Db} {heartbeat : WorkerHeartbeat} {leaseTtl : Int}
    {t : DbTime} {receipt : HeartbeatReceipt} {j : JobId} {l : LeaseId}
    (h : (recordHeartbeat heartbeat leaseTtl t).Commits db receipt db')
    (hoff : ¬ db.HoldsAt j heartbeat.workerId l t.clock) :
    ⟨j, l⟩ ∉ receipt.extended ∧ db'.eventsOf j = db.eventsOf j ∧
      ((∀ l', ⟨j, l'⟩ ∈ heartbeat.leaseExtends → ¬ db.HoldsAt j heartbeat.workerId l' t.clock) →
        db'.job? j = db.job? j) := by
  obtain ⟨_, _, _, _, _, rfl, _, honly, hreceipt, hjobs⟩ := recordHeartbeat_commits h
  have holds : ∀ {l' row}, db.job? j = some row →
      extendGuard heartbeat.workerId l' t.clock row = true →
      db.HoldsAt j heartbeat.workerId l' t.clock := by
    intro l' row hrow hg
    obtain ⟨hw, hl, hexp, _⟩ := extendGuard_iff.mp hg
    exact ⟨row, hrow, hw, hl, hexp⟩
  refine ⟨?_, by unfold Db.eventsOf; rw [honly.events], ?_⟩
  · intro hmem
    rw [hreceipt.extended, List.mem_filter] at hmem
    have hout := of_decide_eq_true hmem.2
    cases hrow : db.job? j with
    | none => rw [hrow] at hout; cases hout
    | some row =>
        rw [hrow] at hout
        unfold extensionOutcome at hout
        split at hout
        · next hg => exact hoff (holds hrow (by simpa using hg))
        · split at hout <;> cases hout
  · intro hnone
    rw [hjobs j]
    cases hrow : db.job? j with
    | none => rfl
    | some row =>
        have hx : extendable heartbeat.workerId t.clock heartbeat.leaseExtends j row = false := by
          by_contra hx
          obtain ⟨⟨_, l'⟩, he, rfl, hg⟩ := extendable_iff.mp (Bool.not_eq_false _ |>.mp hx)
          exact hnone l' he (holds hrow hg)
        simp [JobRow.afterHeartbeat, hx]

/-- **After a lease.** Once a step has ended lease `l` of job `j`, no later call
that names it changes the row or the event log of `j`, unless it is a heartbeat
that also lists the lease that holds `j` then. -/
theorem ended_lease_fenced {Allowed : Op → Prop} {s s₁ s₂ s₃ : Ledger} {call call' : Call}
    {calls : List Call} {j : JobId} {l : LeaseId} (hs : (fenced Allowed).Reachable s)
    (hend : (fenced Allowed).step s call s₁) (hbefore : s.db.LeasedUnder j l)
    (hafter : ¬ s₁.db.LeasedUnder j l) (hrun : (fenced Allowed).Run s₁ calls s₂)
    (hstep : (fenced Allowed).step s₂ call' s₃) (hnames : call'.op.Names j l) :
    (s₃.db.job? j = s₂.db.job? j ∧ s₃.db.eventsOf j = s₂.db.eventsOf j) ∨
      ∃ heartbeat leaseTtl l', call'.op = .recordHeartbeat heartbeat leaseTtl ∧ l' ≠ l ∧
        ⟨j, l'⟩ ∈ heartbeat.leaseExtends ∧
        s₂.db.HoldsAt j heartbeat.workerId l' call'.time.clock ∧
        s₃.db.eventsOf j = s₂.db.eventsOf j := by
  have hs₁ : (fenced Allowed).Reachable s₁ := .step hs hend
  have hgranted : l ∈ s₁.granted := by
    rw [hend.2.2]
    exact List.mem_append_right _ (leases_granted Allowed s hs j l hbefore)
  obtain ⟨hgranted₂, hoff⟩ := lease_never_returns hs₁ hrun hgranted hafter
  obtain ⟨_, hoff'⟩ := lease_never_returns (hs₁.run hrun) (.single hstep) hgranted₂ hoff
  rcases repository_step_rows hstep.1 j with hsame | ⟨new, hnew, hchange⟩
  · exact Or.inl hsame
  rcases hchange.named hnames with ⟨row, hrow, hl⟩ | hl | h
  · exact absurd ⟨row, hrow, hl⟩ hoff
  · exact absurd ⟨new, hnew, hl⟩ hoff'
  · obtain ⟨heartbeat, leaseTtl, hop, l', hne, hmem, row, hrow, hg⟩ := h
    obtain ⟨hw, hl, hexp, _⟩ := extendGuard_iff.mp hg
    refine Or.inr ⟨heartbeat, leaseTtl, l', hop, hne, hmem, ⟨row, hrow, hw, hl, hexp⟩, ?_⟩
    -- a heartbeat appends no event
    obtain ⟨op, t, answer⟩ := call'
    have hop' : op = .recordHeartbeat heartbeat leaseTtl := hop
    subst hop'
    rcases repository_step_cases hstep.1 with ⟨out, _, hc⟩ | ⟨_, hdb⟩
    · obtain ⟨_, _, _, _, _, rfl, _, honly, _⟩ := recordHeartbeat_commits hc
      unfold Db.eventsOf
      rw [honly.events]
    · rw [hdb]

/-- **Fencing.** In every reachable state, a fenced transition or a result under a
lease that does not hold the job fails and changes nothing; a heartbeat does not
extend such a lease and leaves the job alone unless it also lists the lease that
holds it; and a lease that has ended stays powerless in every continuation. -/
theorem lease_fencing (Allowed : Op → Prop) {s : Ledger} (hs : (fenced Allowed).Reachable s)
    (j : JobId) (w : WorkerId) (l : LeaseId) :
    (∀ t, ¬ s.db.HoldsAt j w l t.statement →
      (∀ source target evidence payload eventId, ∃ e,
        (transitionJobState j source target evidence (some ⟨w, l⟩) payload eventId t).exec s.db =
          (.error e, s.db)) ∧
      ∀ (result : JobResult) eventId, result.jobId = j → result.workerId = w →
        result.leaseId = l → ∃ e, (recordJobResult result eventId t).exec s.db = (.error e, s.db)) ∧
    (∀ t heartbeat leaseTtl receipt db', ¬ s.db.HoldsAt j w l t.clock → heartbeat.workerId = w →
      (recordHeartbeat heartbeat leaseTtl t).Commits s.db receipt db' →
      ⟨j, l⟩ ∉ receipt.extended ∧ db'.eventsOf j = s.db.eventsOf j ∧
        ((∀ l', ⟨j, l'⟩ ∈ heartbeat.leaseExtends → ¬ s.db.HoldsAt j w l' t.clock) →
          db'.job? j = s.db.job? j)) ∧
    ∀ call s₁ calls s₂ call' s₃, s.db.LeasedUnder j l → (fenced Allowed).step s call s₁ →
      ¬ s₁.db.LeasedUnder j l → (fenced Allowed).Run s₁ calls s₂ →
      (fenced Allowed).step s₂ call' s₃ → call'.op.Names j l →
      (s₃.db.job? j = s₂.db.job? j ∧ s₃.db.eventsOf j = s₂.db.eventsOf j) ∨
        ∃ heartbeat leaseTtl l', call'.op = .recordHeartbeat heartbeat leaseTtl ∧ l' ≠ l ∧
          ⟨j, l'⟩ ∈ heartbeat.leaseExtends ∧
          s₂.db.HoldsAt j heartbeat.workerId l' call'.time.clock ∧
          s₃.db.eventsOf j = s₂.db.eventsOf j := by
  refine ⟨fun t hoff => ⟨transition_not_held hoff, ?_⟩, ?_, ?_⟩
  · rintro result eventId rfl rfl rfl
    exact result_not_held hoff eventId
  · rintro t heartbeat leaseTtl receipt db' hoff rfl h
    exact heartbeat_not_held h hoff
  · intro call s₁ calls s₂ call' s₃ hbefore hend hafter hrun hstep hnames
    exact ended_lease_fenced hs hend hbefore hafter hrun hstep hnames

namespace Sample

/-- The first lease ran out, the job was requeued and claimed again by the same
worker under another lease. -/
def reclaimed : List (Op × DbTime) :=
  claimed ++ [(recover .claimed 3 2, at_ 200), (register, at_ 201), (claim lease' 300 3, at_ 202)]

/-- A heartbeat that lists both leases. -/
def bothLeases : Op := .recordHeartbeat
  ⟨worker, 1, 2, [.redroid], false, false, .x86_64, [⟨job, lease⟩, ⟨job, lease'⟩], 0⟩ 30000000

theorem after_fenced {ops : List (Op × DbTime)} (h : (ops.filterMap (·.1.claimLease)).Nodup) :
    ∃ granted, (fenced fun _ => True).Reachable ⟨after ops, granted⟩ :=
  Ledger.replay_reachable (s := ⟨Db.empty catalog, []⟩) (fun _ _ => trivial)
    (.init ⟨⟨catalog, rfl⟩, rfl⟩) (fun _ _ => List.not_mem_nil) h

theorem reclaimed_reachable :
    ∃ granted, (fenced fun _ => True).Reachable ⟨after reclaimed, granted⟩ :=
  after_fenced (by decide +kernel)

theorem reclaimed_lease : ((after reclaimed).job? job).map (·.leaseId) = some (some lease') := by
  decide +kernel

theorem reclaimed_off : ¬ (after reclaimed).LeasedUnder job lease := by
  rintro ⟨row, hrow, hl⟩
  have h := reclaimed_lease
  rw [hrow, Option.map_some, hl] at h
  exact absurd h (by decide)

end Sample

/-- The first lease of the reclaimed job is powerless. -/
theorem lease_fencing_reclaimed : ∃ e,
    (transitionJobState Sample.job .claimed .provisioningRuntime .default
      (some ⟨Sample.worker, Sample.lease⟩) [] (Sample.event 4) (Sample.at_ 210)).exec
      (Sample.after Sample.reclaimed) = (.error e, Sample.after Sample.reclaimed) := by
  obtain ⟨granted, hreach⟩ := Sample.reclaimed_reachable
  have hoff : ¬ (Sample.after Sample.reclaimed).HoldsAt Sample.job Sample.worker Sample.lease
      (Sample.at_ 210).statement :=
    fun ⟨row, hrow, _, hl, _⟩ => Sample.reclaimed_off ⟨row, hrow, hl⟩
  generalize Sample.after Sample.reclaimed = db at hreach hoff
  exact ((lease_fencing (fun _ => True) hreach Sample.job Sample.worker Sample.lease).1
    (Sample.at_ 210) hoff).1 _ _ _ _ _

/-- **Two leases in one heartbeat.** A heartbeat names an ended lease, and the row
of the job changes: the same heartbeat lists the lease that holds the job now. -/
theorem heartbeat_with_ended_lease_changes_row :
    (∃ granted, (fenced fun _ => True).Reachable ⟨Sample.after Sample.reclaimed, granted⟩) ∧
    Sample.bothLeases.Names Sample.job Sample.lease ∧
    ¬ (Sample.after Sample.reclaimed).LeasedUnder Sample.job Sample.lease ∧
    ((Sample.bothLeases.tx (Sample.at_ 210)).exec (Sample.after Sample.reclaimed)).1.isOk = true ∧
    ((Sample.bothLeases.tx (Sample.at_ 210)).exec (Sample.after Sample.reclaimed)).2.job?
      Sample.job ≠ (Sample.after Sample.reclaimed).job? Sample.job := by
  refine ⟨Sample.reclaimed_reachable, ?_, Sample.reclaimed_off, by decide +kernel,
    by decide +kernel⟩
  show (⟨Sample.job, Sample.lease⟩ : JobLeaseExtension) ∈
    [⟨Sample.job, Sample.lease⟩, ⟨Sample.job, Sample.lease'⟩]
  exact List.mem_cons_self

end RunAnywhere
