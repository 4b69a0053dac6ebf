import RunAnywhere.Repository.Run

/-!
# Why a transition fails

A transition whose edge is valid and whose UPDATE matches the row of its job can fail in the
driver only (`transitionJobState_sqlx`): a constraint is violated, or the drawn identifier is
taken.
-/

namespace RunAnywhere

open Logic

/-- The driver reports it. -/
def RepositoryError.IsSqlx (e : RepositoryError) : Prop := ∃ x, e = .sqlx x

section Statements

variable {db : Db} {t : DbTime}

theorem insertOutbox_sqlx (key subject : String) (payload : OutboxPayload)
    (headers : List (String × String)) :
    (insertOutbox key subject payload headers t).FailsIn db RepositoryError.IsSqlx := by
  intro e h
  unfold insertOutbox at h
  split at h
  · cases h
  · simp only at h
    split at h
    · cases h
    · exact ⟨_, (Except.error.inj h).symm⟩

theorem insertWebhookRows_sqlx (event : JobEvent) (webhooks : List (WebhookId × Webhook)) :
    (insertWebhookRows event t webhooks).FailsIn db RepositoryError.IsSqlx := by
  induction webhooks generalizing db with
  | nil => exact Tx.failsIn_pure _
  | cons first rest ih => exact .bind (insertOutbox_sqlx _ _ _ _) fun _ _ _ => ih

/-- An event of an existing job, of a type that is not blank, with the state if it changed. -/
theorem appendEvent_sqlx {id : JobEventId} {j : JobId} {eventType : String} {state : JobState}
    {stateChanged : Bool} {payload : List (String × EventValue)} (hjob : (db.job? j).isSome)
    (htype : isBlank eventType = false) :
    (appendEvent id j eventType (some state) stateChanged payload t).FailsIn db
      RepositoryError.IsSqlx := by
  refine .bind (Tx.failsIn_require fun hblank => ?_) fun _ _ hsame => ?_
  · rw [htype] at hblank
    cases hblank
  obtain ⟨_, rfl⟩ := Tx.require_commits.mp hsame
  refine .bind (fun _ h => nomatch h) fun found _ hread => ?_
  obtain ⟨rfl, rfl⟩ := Tx.read_commits.mp hread
  refine .bind (Tx.failsIn_require fun hnone => ?_) fun _ _ hsame => ?_
  · rw [hjob] at hnone
    cases hnone
  obtain ⟨_, rfl⟩ := Tx.require_commits.mp hsame
  refine .bind (Tx.failsIn_require fun hstate => ?_) fun _ _ _ => ?_
  · simp at hstate
  refine .bind (fun e h => ?_) fun event _ _ => ?_
  · unfold insertEvent at h
    split at h
    · exact ⟨_, (Except.error.inj h).symm⟩
    · cases h
  cases stateChanged with
  | false => exact Tx.failsIn_pure _
  | true =>
      refine .bind (.bind (fun _ h => nomatch h) fun webhooks _ _ => ?_)
        fun _ _ _ => Tx.failsIn_pure _
      exact insertWebhookRows_sqlx _ _

theorem updateJob_sqlx (j : JobId) (guard : JobRow → Bool) (set : JobRow → JobRow) :
    (updateJob j guard set).FailsIn db RepositoryError.IsSqlx := by
  intro e h
  unfold updateJob at h
  split at h
  · cases h
  · split at h
    · split at h
      · cases h
      · exact ⟨_, (Except.error.inj h).symm⟩
    · cases h

theorem releaseWorkerCapacity_sqlx (w : WorkerId) :
    (releaseWorkerCapacity t w).FailsIn db RepositoryError.IsSqlx := by
  refine .bind (fun e h => ?_) fun _ _ _ => Tx.failsIn_pure _
  unfold updateWorker at h
  split at h
  · cases h
  · split at h
    · split at h
      · cases h
      · exact ⟨_, (Except.error.inj h).symm⟩
    · cases h

theorem appendEvent_job_wire (target : JobState) : isBlank ("job." ++ target.wire) = false := by
  cases target <;> decide

/-- **Transitions.** -/
theorem transitionJobState_sqlx {j : JobId} {source target : JobState}
    {evidence : TransitionEvidence} {lease : Option LeaseGuard}
    (payload : List (String × EventValue)) (eventId : JobEventId) {row : JobRow}
    (hvalid : validateTransition source target evidence = .ok ()) (hrow : db.job? j = some row)
    (hguard : transitionGuard source evidence lease t row = true) :
    (transitionJobState j source target evidence lease payload eventId t).FailsIn db
      RepositoryError.IsSqlx := by
  refine .bind (fun e h => ?_) fun _ db₀ hsame => ?_
  · rw [hvalid] at h
    cases h
  obtain ⟨_, rfl⟩ := Tx.ofExcept_commits.mp hsame
  refine .bind (updateJob_sqlx _ _ _) fun updated db₁ hup => ?_
  rcases updateJob_commits hup with ⟨_, _, hnone⟩ | ⟨row', hc, _, _, rfl, rfl⟩
  · rw [hrow, Option.any_some, hguard] at hnone
    cases hnone
  refine .bind (Tx.failsIn_okOr fun hnone => nomatch hnone) fun row₁ db₂ hsome => ?_
  obtain ⟨_, rfl⟩ := Tx.okOr_commits.mp hsome
  -- the row is there when the event is written, whether a worker was released or not
  have hlast {db₂ : Db} (hjobs : db₂.jobs = (db.jobs.put j ⟨_, hc⟩)) :
      (do
        let _ ← appendEvent eventId j ("job." ++ target.wire) (some target)
          (decide (source ≠ target)) payload t
        pure (row₁.intoJob j) : RepoTx Job).FailsIn db₂ RepositoryError.IsSqlx := by
    refine .bind (appendEvent_sqlx ?_ (appendEvent_job_wire target)) fun _ _ _ => Tx.failsIn_pure _
    unfold Db.job?
    rw [hjobs, Table.row?_put_self]
    rfl
  split
  · split
    · refine .bind (releaseWorkerCapacity_sqlx _) fun _ _ hrel => hlast ?_
      rw [(releaseWorkerCapacity_frame hrel).1]
    · exact hlast rfl
  · exact hlast rfl

end Statements

end RunAnywhere
