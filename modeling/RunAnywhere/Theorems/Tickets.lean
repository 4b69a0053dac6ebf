import RunAnywhere.Logic.Board
import RunAnywhere.Scheduler.Markers
import RunAnywhere.Theorems.Attempts

/-!
# Jobs as tickets

A job row shows a ticket: a worker holds it under its lease, its stage is the rank of its state,
its verdict the pending outcome, and its grants are the delivery attempts. Every change the
components make of a row (`Db.Permits`) is at most two moves of its ticket:

* **workers** — a fenced transition is the holder's: it advances the ticket, passes a verdict
  with it, or closes it; a result passes the verdict;
* **finalizers** — an unfenced one settles or finishes a ticket that nobody holds;
* **recovery** — it reclaims a ticket while grants are left, and parks one that is cancelled or
  exhausted.
-/

namespace RunAnywhere

open Logic

/-! ## Tickets -/

/-- A job as a ticket: a worker holds it under its lease, its stage is the rank of its state and
its verdict the outcome that is pending. -/
def JobRow.ticket (r : JobRow) : Ticket WorkerId LeaseId JobOutcome :=
  match r.state.terminalOutcome, r.workerId, r.leaseId with
  | some o, _, _ => .closed r.deliveryAttempts o
  | none, some w, some l => .held r.deliveryAttempts w l r.state.rank r.pendingOutcome
  | none, _, _ =>
      if r.state = .queued then .waiting r.deliveryAttempts
      else .parked r.deliveryAttempts r.state.rank (r.pendingOutcome.getD .infraFailed)

/-- `m` runs a job; the stages end before the terminal states. -/
def jobRules (m : Nat) : Rules JobOutcome := ⟨m, JobState.cleaningUp.rank, .cancelled, .infraFailed⟩

theorem JobRow.ticket_closed {r : JobRow} {o : JobOutcome} (h : r.state.terminalOutcome = some o) :
    r.ticket = .closed r.deliveryAttempts o := by
  unfold ticket
  rw [h]

theorem JobRow.of_closed {r : JobRow} {n : Nat} {o : JobOutcome} (h : r.ticket = .closed n o) :
    r.state.terminalOutcome = some o ∧ r.deliveryAttempts = n := by
  unfold ticket at h
  split at h
  · next o' hend =>
      obtain ⟨rfl, rfl⟩ := Ticket.closed.inj h
      exact ⟨hend, rfl⟩
  · cases h
  · split at h <;> cases h

theorem JobRow.ticket_held {r : JobRow} {w : WorkerId} {l : LeaseId}
    (h : r.state.terminalOutcome = none) (hw : r.workerId = some w) (hl : r.leaseId = some l) :
    r.ticket = .held r.deliveryAttempts w l r.state.rank r.pendingOutcome := by
  unfold ticket
  rw [h, hw, hl]

theorem JobRow.ticket_waiting {r : JobRow} (h : r.state = .queued) (hl : r.leaseId = none) :
    r.ticket = .waiting r.deliveryAttempts := by
  have ho : r.state.terminalOutcome = none := by rw [h]; rfl
  unfold ticket
  rw [ho, hl, if_pos h]
  cases r.workerId <;> rfl

theorem JobRow.ticket_parked {r : JobRow} (h : r.state.terminalOutcome = none)
    (hq : r.state ≠ .queued) (hl : r.leaseId = none) :
    r.ticket = .parked r.deliveryAttempts r.state.rank (r.pendingOutcome.getD .infraFailed) := by
  unfold ticket
  rw [h, hl, if_neg hq]
  cases r.workerId <;> rfl

/-- Out of the queue. -/
theorem JobState.rank_pos {s : JobState} (h : s ≠ .queued) : 1 ≤ s.rank := by
  cases s <;> first | decide | exact absurd rfl h

/-- Under the top. -/
theorem JobState.rank_le {s : JobState} (h : s.terminalOutcome = none) :
    s.rank ≤ JobState.cleaningUp.rank := by
  cases s <;> first | decide | cases h

/-! ## Changes -/

/-- What is known of the row a component changes. -/
structure JobRow.Ready (m : Nat) (row : JobRow) : Prop where
  checks : row.Checks
  shape : row.Shape
  charged : row.Charged m
  driven : row.Driven

theorem JobRow.Ready.worker {m : Nat} {row : JobRow} (h : row.Ready m) {l : LeaseId}
    (hl : row.leaseId = some l) : ∃ w, row.workerId = some w :=
  Option.isSome_iff_exists.mp (h.checks.leaseHasWorker (by rw [hl]; rfl))

/-- The ticket of a job goes on as the board allows: not at all, by a move that grants what the
call does, or by two that grant nothing. -/
inductive Goes (m : Nat) (granted : Option LeaseId) :
    Option (Ticket WorkerId LeaseId JobOutcome) → Ticket WorkerId LeaseId JobOutcome → Prop
  | stays {t} : granted = none → Goes m granted (some t) t
  | move {old t mv} : Ticket.Step (jobRules m) mv old t → mv.grants = granted → Goes m granted old t
  | moves {old t t' mv mv'} : Ticket.Step (jobRules m) mv old t →
      Ticket.Step (jobRules m) mv' (some t) t' → mv.grants = none → mv'.grants = none →
      granted = none → Goes m granted old t'

/-- A holder passes a verdict, or has. -/
theorem judged {stored given : Option JobOutcome}
    (h : given = none ∨ stored = none ∨ stored = given) :
    given.or stored = stored ∨ ∃ o, given = some o ∧ stored = none := by
  rcases h with rfl | rfl | rfl
  · exact Or.inl rfl
  · cases given with
    | none => exact Or.inl rfl
    | some o => exact Or.inr ⟨o, rfl, rfl⟩
  · cases stored <;> exact Or.inl rfl

/-! ## One row -/

variable {m : Nat} {row : JobRow}

/-- A row with a lease is a ticket that is held. -/
theorem JobRow.Ready.held (h : row.Ready m) (hlive : row.state.isTerminal = false) {l : LeaseId}
    (hl : row.leaseId = some l) : ∃ w, row.workerId = some w ∧
      row.ticket = .held row.deliveryAttempts w l row.state.rank row.pendingOutcome := by
  obtain ⟨w, hw⟩ := h.worker hl
  exact ⟨w, hw, JobRow.ticket_held ((JobState.terminalOutcome_eq_none _).mpr hlive) hw hl⟩

/-- A row without an outcome is not past its tests. -/
theorem JobRow.Ready.rank_le (h : row.Ready m) (hlive : row.state.isTerminal = false)
    (hp : row.pendingOutcome = none) : row.state.rank ≤ JobState.debugAvailable.rank := by
  have hnone : ¬ row.pendingOutcome.isSome = true := by
    rw [hp]
    exact Bool.false_ne_true
  cases hstate : row.state with
  | collectingArtifacts => exact absurd (h.shape.pending (Or.inr (Or.inl hstate))) hnone
  | cleaningUp => exact absurd (h.shape.pending (Or.inr (Or.inr hstate))) hnone
  | passed | failed | cancelled | timedOut | infraFailed =>
      rw [hstate] at hlive
      cases hlive
  | _ => decide

/-- The states of the finalizers are within the stages. -/
theorem stage_le {s : JobState} (h : s = .collectingArtifacts ∨ s = .cleaningUp) :
    s.rank ≤ (jobRules m).top := by
  rcases h with rfl | rfl
  · show JobState.collectingArtifacts.rank ≤ JobState.cleaningUp.rank
    decide
  · exact Nat.le_refl _

/-- A cancellation gives the verdict. -/
theorem JobRow.Ready.cancel (h : row.Ready m) (hlive : row.state.isTerminal = false)
    (hp : row.pendingOutcome = none) :
    Goes m none (some row.ticket) row.cancelRequested.ticket := by
  have hrank := h.rank_le hlive hp
  have htop : JobState.collectingArtifacts.rank ≤ (jobRules m).top := stage_le (Or.inl rfl)
  cases hl : row.leaseId with
  | some l =>
      obtain ⟨w, hw, hold⟩ := h.held hlive hl
      have hnew : row.cancelRequested.ticket =
          .held row.deliveryAttempts w l JobState.collectingArtifacts.rank (some .cancelled) :=
        JobRow.ticket_held rfl hw hl
      have hstep : Ticket.Step (jobRules m) .cancel (some row.ticket)
          row.cancelRequested.ticket := by
        rw [hold, hnew, hp]
        exact .cancelHeld (Nat.le_succ_of_le hrank) htop
      exact .move hstep rfl
  | none =>
      -- without a lease the row is in the queue
      have hq : row.state = .queued := by
        by_contra hq
        have hleased := h.driven.leased (JobState.rank_pos hq) hrank
        rw [hl] at hleased
        cases hleased
      have hnew : row.cancelRequested.ticket =
          .parked row.deliveryAttempts JobState.collectingArtifacts.rank .cancelled :=
        JobRow.ticket_parked rfl (fun h => by cases h) hl
      have hstep : Ticket.Step (jobRules m) .cancel (some row.ticket)
          row.cancelRequested.ticket := by
        rw [JobRow.ticket_waiting hq hl, hnew]
        exact .cancelWaiting (Nat.succ_pos _) htop
      exact .move hstep rfl

/-- A claim grants the ticket under the lease of the claim. -/
theorem JobRow.Ready.claim (h : row.Ready m) (hq : row.state = .queued)
    (hl : row.leaseId = none) (w : WorkerId) (l : LeaseId) (expires at_ : Time) :
    Goes m (some l) (some row.ticket) (row.claimed w l expires at_).ticket := by
  have hp : row.pendingOutcome = none := (h.shape.queued hq).2.2.1
  have hnew : (row.claimed w l expires at_).ticket =
      .held (row.deliveryAttempts + 1) w l JobState.claimed.rank row.pendingOutcome :=
    JobRow.ticket_held rfl rfl rfl
  have hstep : Ticket.Step (jobRules m) (.grant w l) (some row.ticket)
      (row.claimed w l expires at_).ticket := by
    rw [JobRow.ticket_waiting hq hl, hnew, hp]
    exact .grant (h.charged.left hq)
  exact .move hstep rfl

/-- A transition under the lease passes a verdict, goes on to a stage, or does both; into a
terminal state it closes the ticket. -/
theorem JobRow.Ready.fenced (h : row.Ready m) {target : JobState} {evidence : TransitionEvidence}
    (hedge : Edge evidence row.state target)
    (hpending : evidence.pendingOutcome = none ∨ row.pendingOutcome = none ∨
      row.pendingOutcome = evidence.pendingOutcome)
    {w : WorkerId} {l : LeaseId} (hw : row.workerId = some w) (hl : row.leaseId = some l)
    (t : DbTime) : Goes m none (some row.ticket) (row.transitioned target evidence t).ticket := by
  have hlive := (JobState.terminalOutcome_eq_none _).mpr hedge.source_live
  have hold := JobRow.ticket_held hlive hw hl
  cases hend : target.terminalOutcome with
  | some o =>
      obtain ⟨hsource, _, ho⟩ := hedge.of_terminal ((JobState.isTerminal_iff _).mpr ⟨o, hend⟩)
      rw [hend] at ho
      -- the row has an outcome, so it is that of the evidence
      have hsome := h.shape.pending (Or.inr (Or.inr hsource))
      have hstored : row.pendingOutcome = some o := by
        rcases hpending with hnone | hnone | heq
        · rw [hnone] at ho
          cases ho
        · rw [hnone] at hsome
          cases hsome
        · rw [heq, ho]
      have hnew : (row.transitioned target evidence t).ticket = .closed row.deliveryAttempts o :=
        JobRow.ticket_closed hend
      have hstep : Ticket.Step (jobRules m) (.close w l) (some row.ticket)
          (row.transitioned target evidence t).ticket := by
        rw [hold, hnew, hstored]
        exact .close
      exact .move hstep rfl
  | none =>
      have hlease : (row.transitioned target evidence t).leaseId = some l := by
        show (if target.terminalOutcome.isSome then none else row.leaseId) = some l
        rw [hend]
        exact hl
      have hnew : (row.transitioned target evidence t).ticket = .held row.deliveryAttempts w l
          target.rank (evidence.pendingOutcome.or row.pendingOutcome) :=
        JobRow.ticket_held hend hw hlease
      have hup : row.state.rank < target.rank := hedge.rank_lt
      have htop : target.rank ≤ (jobRules m).top := JobState.rank_le hend
      rcases judged hpending with hkeep | ⟨o, hgiven, hnone⟩
      · have hstep : Ticket.Step (jobRules m) (.advance w l target.rank) (some row.ticket)
            (row.transitioned target evidence t).ticket := by
          rw [hold, hnew, hkeep]
          exact .advance hup htop
        exact .move hstep rfl
      · have hjudge : Ticket.Step (jobRules m) (.judge w l o) (some row.ticket)
            (.held row.deliveryAttempts w l row.state.rank (some o)) := by
          rw [hold, hnone]
          exact .judge
        have hstep : Ticket.Step (jobRules m) (.advance w l target.rank)
            (some (.held row.deliveryAttempts w l row.state.rank (some o)))
            (row.transitioned target evidence t).ticket := by
          rw [hnew, hgiven]
          exact .advance hup htop
        exact .moves hjudge hstep rfl rfl rfl

/-- A finalizer's transition settles a parked ticket, or finishes it. -/
theorem JobRow.Ready.unfenced (h : row.Ready m) {target : JobState}
    {evidence : TransitionEvidence} (hedge : Edge evidence row.state target)
    (hpending : evidence.pendingOutcome = none ∨ row.pendingOutcome = none ∨
      row.pendingOutcome = evidence.pendingOutcome)
    (hpath : (row.state = .collectingArtifacts ∧ target = .cleaningUp) ∨
      (row.state = .cleaningUp ∧ target.terminalOutcome = evidence.pendingOutcome))
    {o : JobOutcome} (ho : evidence.pendingOutcome = some o) (hl : row.leaseId = none)
    (t : DbTime) : Goes m none (some row.ticket) (row.transitioned target evidence t).ticket := by
  have hlive := (JobState.terminalOutcome_eq_none _).mpr hedge.source_live
  have hsome : row.pendingOutcome.isSome = true :=
    h.shape.pending (Or.inr (hpath.imp (fun h => h.1) fun h => h.1))
  have hstored : row.pendingOutcome = some o := by
    rcases hpending with hnone | hnone | heq
    · rw [hnone] at ho
      cases ho
    · rw [hnone] at hsome
      cases hsome
    · rw [heq, ho]
  have hqueued : row.state ≠ .queued := by
    intro hq
    rw [(h.shape.queued hq).2.2.1] at hsome
    cases hsome
  have hold : row.ticket = .parked row.deliveryAttempts row.state.rank o := by
    rw [JobRow.ticket_parked hlive hqueued hl, hstored]
    rfl
  rcases hpath with ⟨hsource, rfl⟩ | ⟨hsource, hend⟩
  · have hnew : (row.transitioned .cleaningUp evidence t).ticket =
        .parked row.deliveryAttempts JobState.cleaningUp.rank
          ((evidence.pendingOutcome.or row.pendingOutcome).getD .infraFailed) :=
      JobRow.ticket_parked rfl (fun h => by cases h) hl
    have hstep : Ticket.Step (jobRules m) (.settle JobState.cleaningUp.rank) (some row.ticket)
        (row.transitioned .cleaningUp evidence t).ticket := by
      rw [hold, hnew, ho]
      exact .settle hedge.rank_lt (Nat.le_refl _)
    exact .move hstep rfl
  · have hnew : (row.transitioned target evidence t).ticket = .closed row.deliveryAttempts o :=
      JobRow.ticket_closed (hend.trans ho)
    have hstep : Ticket.Step (jobRules m) .finish (some row.ticket)
        (row.transitioned target evidence t).ticket := by
      rw [hold, hnew]
      exact .finish
    exact .move hstep rfl

/-- A result passes the verdict, or repeats it. -/
theorem JobRow.goes_result {result : JobResult} {t : DbTime}
    (hguard : resultGuard result t row = true) :
    Goes m none (some row.ticket) (row.withResult result).ticket := by
  obtain ⟨hw, hl, _, hpending, hlive⟩ := resultGuard_iff.mp hguard
  have hnone := (JobState.terminalOutcome_eq_none _).mpr hlive
  have hold := JobRow.ticket_held hnone hw hl
  have hnew : (row.withResult result).ticket = .held row.deliveryAttempts result.workerId
      result.leaseId row.state.rank (some result.outcome) :=
    JobRow.ticket_held hnone hw hl
  rcases hpending with hp | hp
  · have hstep : Ticket.Step (jobRules m) (.judge result.workerId result.leaseId result.outcome)
        (some row.ticket) (row.withResult result).ticket := by
      rw [hold, hnew, hp]
      exact .judge
    exact .move hstep rfl
  · rw [hnew, ← hp, ← hold]
    exact .stays rfl

/-- A recovery takes the ticket back, or gives it up. -/
theorem JobRow.Ready.recover (h : row.Ready m) {stale : StaleJob} (hfence : Recoverable stale row) :
    Goes m none (some row.ticket) (row.recovered (recoveryKind stale m row)).ticket := by
  obtain ⟨w, hw, hold⟩ := h.held hfence.live hfence.lease
  have hparked : ∀ o failure, (row.toFinalizer o failure).ticket =
      .parked row.deliveryAttempts (row.toFinalizer o failure).state.rank o ∧
        (row.toFinalizer o failure).state.rank ≤ (jobRules m).top := by
    intro o failure
    have hstate : (row.toFinalizer o failure).state = .collectingArtifacts ∨
        (row.toFinalizer o failure).state = .cleaningUp := by
      by_cases hs : row.state = .cleaningUp
      · exact Or.inr (by simp [JobRow.toFinalizer, hs])
      · exact Or.inl (by simp [JobRow.toFinalizer, hs])
    refine ⟨?_, stage_le hstate⟩
    have hticket := JobRow.ticket_parked (r := row.toFinalizer o failure)
      (by rcases hstate with h | h <;> rw [h] <;> rfl)
      (by rcases hstate with h | h <;> rw [h] <;> intro hq <;> cases hq) rfl
    exact hticket
  unfold recoveryKind
  by_cases hc : row.pendingOutcome = some .cancelled
  · rw [if_pos hc]
    obtain ⟨hnew, htop⟩ := hparked .cancelled none
    have hstep : Ticket.Step (jobRules m) .giveUp (some row.ticket)
        (row.toFinalizer .cancelled none).ticket := by
      rw [hold, hnew, hc]
      exact .drop htop
    exact .move hstep rfl
  · rw [if_neg hc, ← hfence.attempts]
    by_cases hleft : row.deliveryAttempts < m
    · rw [if_pos hleft]
      have hnew : row.requeued.ticket = .waiting row.deliveryAttempts :=
        JobRow.ticket_waiting rfl rfl
      have hstep : Ticket.Step (jobRules m) .reclaim (some row.ticket) row.requeued.ticket := by
        rw [hold, hnew]
        exact .reclaim hc hleft
      exact .move hstep rfl
    · rw [if_neg hleft]
      obtain ⟨hnew, htop⟩ := hparked .infraFailed (some abandonedFailure)
      have hstep : Ticket.Step (jobRules m) .giveUp (some row.ticket)
          (row.toFinalizer .infraFailed (some abandonedFailure)).ticket := by
        rw [hold, hnew]
        exact .exhaust hc (Nat.le_of_not_lt hleft) htop
      exact .move hstep rfl

/-! ## One call -/

/-- **One change** of a row is at most two moves of its ticket, by the board or by the holder. -/
theorem RowChange.goes {op : Op} {t : DbTime} {j : JobId} {db : Db} {new : JobRow}
    (h : RowChange op t j (db.job? j) new) (hpermits : db.Permits m op)
    (hready : ∀ row, db.job? j = some row → row.Ready m) :
    Goes m op.claimLease ((db.job? j).map JobRow.ticket) new.ticket := by
  generalize hold : db.job? j = old at h
  cases h with
  | create => exact .move .submit rfl
  | cancel hlive hp => exact (hready _ hold).cancel hlive hp
  | claim hq _ hl => exact (hready _ hold).claim hq hl _ _ _ _
  | @transition _ source target evidence lease payload eventId _ row hval hguard =>
      have hr := hready row hold
      obtain ⟨rfl, hpending, hheld⟩ := transitionGuard_iff.mp hguard
      have hedge := validateTransition_edge hval
      cases lease with
      | some g =>
          obtain ⟨hw, hl, _⟩ := hheld g rfl
          exact hr.fenced hedge hpending hw hl t
      | none =>
          obtain ⟨hpath, hgiven⟩ := hpermits.issued
          have hl := (hpermits.unleased _ _ _ _ _ _ rfl row hold).1
          rcases hgiven with ho | ho
          · exact hr.unfenced hedge hpending hpath ho hl t
          · exact hr.unfenced hedge hpending hpath ho hl t
  | result hguard => exact JobRow.goes_result hguard
  | heartbeat => exact .stays rfl
  | recover hfence =>
      obtain rfl := hpermits.limit
      exact (hready _ hold).recover hfence

/-- A call changes one row, unless it is a heartbeat, which leaves every ticket. -/
theorem RowChange.same {op : Op} {t : DbTime} {j j' : JobId} {old old' : Option JobRow}
    {new new' : JobRow} (h : RowChange op t j old new) (h' : RowChange op t j' old' new') :
    j' = j ∨ some new'.ticket = old'.map JobRow.ticket := by
  cases h <;> cases h' <;> first | exact Or.inl rfl | exact Or.inr rfl

/-- The job claimed has a row that changes. -/
theorem claim_changes {op : Op} {t : DbTime} {db db' : Db} {out : op.Out} {l : LeaseId}
    (hc : (op.tx t).Commits db out db') (hl : op.claimLease = some l) :
    ∃ j new, db'.job? j = some new ∧ RowChange op t j (db.job? j) new := by
  cases op with
  | claimJobWithOptions j w l' expires options eventId =>
      obtain ⟨row, _, hchecks, _, hrow, hq, hw, hfree, hexp, h⟩ := claimJobWithOptions_commits hc
      obtain ⟨_, _, _, _, _, _, _, _, hjobs, _⟩ := h
      refine ⟨j, row.claimed w l' expires t.clock, ?_, ?_⟩
      · unfold Db.job?
        rw [hjobs]
        exact Table.row?_put_self _ _ _ _
      · rw [hrow]
        exact .claim hq hw hfree hexp
  | _ => cases hl

/-- The tickets of the jobs. -/
def Db.tickets (db : Db) : JobId → Option (Ticket WorkerId LeaseId JobOutcome) :=
  fun j => (db.job? j).map JobRow.ticket

/-- **One call** is a run of the board, in which the lease of a claim is granted. -/
theorem Db.Permits.board {op : Op} {t : DbTime} {db db' : Db} {out : op.Out}
    (hpermits : db.Permits m op) (hready : ∀ j row, db.job? j = some row → row.Ready m)
    (hc : (op.tx t).Commits db out db') {granted : Set LeaseId}
    (hfresh : ∀ l, op.claimLease = some l → l ∉ granted) :
    ∃ ms, (board (jobRules m)).Run ⟨db.tickets, granted⟩ ms
      ⟨db'.tickets, {l | op.claimLease = some l} ∪ granted⟩ := by
  by_cases hany : ∃ j new, db'.job? j = some new ∧ RowChange op t j (db.job? j) new
  · obtain ⟨j, new, hnew, hchange⟩ := hany
    have hgoes : Goes m op.claimLease (db.tickets j) new.ticket :=
      hchange.goes hpermits (hready j)
    -- the other tickets stay
    have hput : Board.put ⟨db.tickets, granted⟩ j new.ticket op.claimLease =
        ⟨db'.tickets, {l | op.claimLease = some l} ∪ granted⟩ := by
      have htickets : Function.update db.tickets j (some new.ticket) = db'.tickets := by
        funext j'
        rw [Function.update_apply]
        split
        · next hj =>
            subst hj
            show _ = (db'.job? j').map JobRow.ticket
            rw [hnew]
            rfl
        · next hj =>
            show (db.job? j').map JobRow.ticket = (db'.job? j').map JobRow.ticket
            rcases Op.rows hc j' with ⟨hsame, _⟩ | ⟨new', hnew', hchange'⟩
            · rw [hsame]
            · rw [hnew']
              rcases hchange.same hchange' with heq | hstays
              · exact absurd heq hj
              · exact hstays.symm
      show Board.mk _ _ = _
      rw [htickets]
    rw [← hput]
    generalize hgranted : op.claimLease = token at hgoes hfresh
    generalize hold : db.tickets j = old at hgoes
    cases hgoes with
    | stays hnone =>
        have hsame : Board.put ⟨db.tickets, granted⟩ j new.ticket token =
            ⟨db.tickets, granted⟩ := by
          rw [hnone]
          simp [Board.put, ← hold]
        rw [hsame]
        exact ⟨[], .nil _⟩
    | move hstep hgrants =>
        rw [← hold] at hstep
        have hrun := Board.run_move (b := ⟨db.tickets, granted⟩) hstep
          fun l hl => hfresh l (hgrants ▸ hl)
        rw [hgrants] at hrun
        exact ⟨_, hrun⟩
    | moves hfirst hsecond hnone hnone' htoken =>
        rw [← hold] at hfirst
        rw [htoken]
        exact ⟨_, Board.run_two (b := ⟨db.tickets, granted⟩) hfirst hsecond hnone hnone'⟩
  · -- no row changes, and nothing is claimed
    have hjobs : db'.tickets = db.tickets := by
      funext j
      show (db'.job? j).map JobRow.ticket = (db.job? j).map JobRow.ticket
      rcases Op.rows hc j with ⟨hsame, _⟩ | ⟨new, hnew, hchange⟩
      · rw [hsame]
      · exact absurd ⟨j, new, hnew, hchange⟩ hany
    have hnone : op.claimLease = none := by
      cases hl : op.claimLease with
      | none => rfl
      | some l => exact absurd (claim_changes hc hl) hany
    rw [hjobs, hnone]
    refine ⟨[], ?_⟩
    have hempty : {l : LeaseId | none = some l} ∪ granted = granted := by simp
    rw [hempty]
    exact .nil _

/-! ## What a ticket shows -/

theorem JobRow.Ready.verdict_eq (h : row.Ready m) : row.ticket.verdict = row.pendingOutcome := by
  cases hend : row.state.terminalOutcome with
  | some o =>
      have hterm := (JobState.isTerminal_iff _).mpr ⟨o, hend⟩
      rw [JobRow.ticket_closed hend, (h.shape.terminal hterm).2.1, hend]
      rfl
  | none =>
      cases hl : row.leaseId with
      | some l =>
          obtain ⟨w, hw⟩ := h.worker hl
          rw [JobRow.ticket_held hend hw hl]
          rfl
      | none =>
          by_cases hq : row.state = .queued
          · rw [JobRow.ticket_waiting hq hl, (h.shape.queued hq).2.2.1]
            rfl
          · -- the row waits for a finalizer, so it has an outcome
            have hrank : ¬ row.state.rank ≤ JobState.debugAvailable.rank := by
              intro hle
              have hleased := h.driven.leased (JobState.rank_pos hq) hle
              rw [hl] at hleased
              cases hleased
            have hsome : row.pendingOutcome.isSome = true := by
              refine h.shape.pending ?_
              cases hs : row.state with
              | collectingArtifacts => exact Or.inr (Or.inl rfl)
              | cleaningUp => exact Or.inr (Or.inr rfl)
              | passed | failed | cancelled | timedOut | infraFailed =>
                  rw [hs] at hend
                  cases hend
              | _ =>
                  rw [hs] at hrank
                  exact absurd (by decide) hrank
            obtain ⟨o, ho⟩ := Option.isSome_iff_exists.mp hsome
            rw [JobRow.ticket_parked hend hq hl, ho]
            rfl

theorem JobRow.Ready.heldUnder_iff (h : row.Ready m) {l : LeaseId} :
    row.ticket.HeldUnder l ↔ row.leaseId = some l := by
  cases hend : row.state.terminalOutcome with
  | some o =>
      have hterm := (JobState.isTerminal_iff _).mpr ⟨o, hend⟩
      rw [JobRow.ticket_closed hend, (h.shape.terminal hterm).2.2.2.2]
      constructor
      · rintro ⟨n, w, s, v, hheld⟩
        cases hheld
      · intro hl
        cases hl
  | none =>
      cases hl : row.leaseId with
      | some l' =>
          obtain ⟨w, hw⟩ := h.worker hl
          rw [JobRow.ticket_held hend hw hl]
          constructor
          · rintro ⟨n, w', s, v, hheld⟩
            cases hheld
            rfl
          · intro heq
            obtain rfl := Option.some.inj heq
            exact ⟨_, _, _, _, rfl⟩
      | none =>
          constructor
          · rintro ⟨n, w, s, v, hheld⟩
            by_cases hq : row.state = .queued
            · rw [JobRow.ticket_waiting hq hl] at hheld
              cases hheld
            · rw [JobRow.ticket_parked hend hq hl] at hheld
              cases hheld
          · intro heq
            cases heq

end RunAnywhere
