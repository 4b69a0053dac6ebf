import RunAnywhere.Theorems.Lifecycle

/-!
# Run attempts

`delivery_attempts` counts the claims of a job and nothing else
(`attempts_step`), so along a run it is the number of claims that committed
(`attempts_run`). A claim does not check the limit: the bound holds because a row in
the queue always has an attempt left (`JobRow.Charged`), which only recovery, with the
attempt count of an older snapshot, could break.
-/

namespace RunAnywhere

open Logic

/-- Recoveries use the delivery limit `m`. -/
def Op.RecoversWith (m : Nat) : Op → Prop
  | .recoverStaleJob _ maxDeliver _ => maxDeliver = m
  | _ => True

/-- Recoveries use a delivery limit of at most `m`. -/
def Op.RecoversWithin (m : Nat) : Op → Prop
  | .recoverStaleJob _ maxDeliver _ => maxDeliver ≤ m
  | _ => True

theorem Op.RecoversWith.within {m : Nat} {op : Op} (h : op.RecoversWith m) :
    op.RecoversWithin m := by
  cases op with
  | recoverStaleJob stale maxDeliver eventId => exact Nat.le_of_eq h
  | _ => trivial

/-- The call is a claim of job `j` that committed. -/
def Call.claims (j : JobId) (call : Call) : Bool :=
  match call.op with
  | .claimJobWithOptions j' _ _ _ _ _ => decide (j' = j) && call.answer.isOk
  | _ => false

/-! ## The bound -/

/-- The attempts of a row are within the limit, and a queued row has one left. -/
structure JobRow.Charged (m : Nat) (row : JobRow) : Prop where
  bound : row.deliveryAttempts ≤ m
  left : row.state = .queued → row.deliveryAttempts < m

/-- **Bound.** Every change of a row keeps it within the limit. -/
theorem RowChange.charged {m : Nat} (hm : 0 < m) {op : Op} {t : DbTime} {j : JobId}
    {old : Option JobRow} {new : JobRow} (h : RowChange op t j old new)
    (hop : op.RecoversWithin m) (hold : ∀ row ∈ old, row.Charged m) : new.Charged m := by
  cases h with
  | create => exact ⟨Nat.zero_le m, fun _ => hm⟩
  | cancel => exact ⟨(hold _ rfl).bound, fun hq => by cases hq⟩
  | claim hq => exact ⟨(hold _ rfl).left hq, fun hq => by cases hq⟩
  | transition hval =>
      exact ⟨(hold _ rfl).bound, fun hq => absurd hq (validateTransition_edge hval).target_ne_queued⟩
  | result => exact ⟨(hold _ rfl).bound, (hold _ rfl).left⟩
  | heartbeat => exact ⟨(hold _ rfl).bound, (hold _ rfl).left⟩
  | @recover stale maxDeliver _ _ row hfence =>
      have hlimit : maxDeliver ≤ m := hop
      have hbound := (hold _ rfl).bound
      cases hk : recoveryKind stale maxDeliver row with
      | requeue =>
          -- the snapshot's count is the row's, so the row has an attempt left
          refine ⟨hbound, fun _ => ?_⟩
          show row.deliveryAttempts < m
          rw [hfence.attempts]
          unfold recoveryKind at hk
          split at hk
          · cases hk
          · split at hk
            · omega
            · cases hk
      | cancelling | exhausted =>
          refine ⟨hbound, fun hq => ?_⟩
          have hq' : (if decide (row.state = .cleaningUp) then JobState.cleaningUp
            else .collectingArtifacts) = .queued := hq
          split at hq' <;> cases hq'

/-- Every stored row is within the limit. -/
theorem charged_invariant {m : Nat} (hm : 0 < m) {Allowed : Op → Prop}
    (hallowed : ∀ op, Allowed op → op.RecoversWithin m) :
    (repository Allowed).Invariant fun db => ∀ j row, db.job? j = some row → row.Charged m :=
  rows_invariant fun _ _ _ _ _ hop h hold _ =>
    h.charged hm (hallowed _ hop) fun row hrow => (hold row hrow).2

/-! ## The count -/

/-- A change that is not a claim leaves the counter. -/
theorem RowChange.deliveryAttempts {op : Op} {t : DbTime} {j : JobId} {old new : JobRow}
    (h : RowChange op t j (some old) new) :
    new.deliveryAttempts = old.deliveryAttempts ∨
      ((∃ w l expires options eventId, op = .claimJobWithOptions j w l expires options eventId) ∧
        new.deliveryAttempts = old.deliveryAttempts + 1) := by
  cases h with
  | claim => exact Or.inr ⟨⟨_, _, _, _, _, rfl⟩, rfl⟩
  | @recover stale maxDeliver _ _ _ _ =>
      left
      cases recoveryKind stale maxDeliver old <;> rfl
  | cancel | transition | result | heartbeat => exact Or.inl rfl

/-- **One call.** The counter moves by one at a claim that commits, and at nothing
else; a claim needs a row, and a new row starts at 0. -/
theorem attempts_step {Allowed : Op → Prop} {db db' : Db} {call : Call}
    (h : (repository Allowed).step db call db') (j : JobId) :
    (∀ row, db.job? j = some row → ∃ row', db'.job? j = some row' ∧
      row'.deliveryAttempts = row.deliveryAttempts + (call.claims j).toNat) ∧
    (db.job? j = none → call.claims j = false ∧
      ∀ row', db'.job? j = some row' → row'.deliveryAttempts = 0) := by
  obtain ⟨op, t, answer⟩ := call
  have hcases : (∃ out : op.Out, answer = .ok out ∧ (op.tx t).Commits db out db') ∨
      ((∃ e, answer = .error e) ∧ db' = db) := repository_step_cases h
  rcases hcases with ⟨out, rfl, hc⟩ | ⟨⟨e, rfl⟩, rfl⟩
  · -- a claim of `j`, or a call that leaves the counter
    by_cases hclaim : ∃ w l expires options eventId,
        op = .claimJobWithOptions j w l expires options eventId
    · obtain ⟨w, l, expires, options, eventId, rfl⟩ := hclaim
      obtain ⟨row, _, hchecks, _, hrow, _, _, _, _, hrest⟩ := claimJobWithOptions_commits hc
      obtain ⟨_, _, _, _, _, _, _, _, hjobs, _⟩ := hrest
      have hnew : db'.job? j = some (row.claimed w l expires t.clock) := by
        unfold Db.job?
        rw [hjobs]
        exact Table.row?_put_self _ _ _ _
      have hclaims : Call.claims j ⟨.claimJobWithOptions j w l expires options eventId, t,
          .ok out⟩ = true := by
        simp [Call.claims, Except.isOk, Except.toBool]
      refine ⟨fun row₀ hrow₀ => ⟨_, hnew, ?_⟩, fun hnone => ?_⟩
      · obtain rfl := Option.some.inj (hrow.symm.trans hrow₀)
        rw [hclaims]
        rfl
      · rw [hnone] at hrow
        cases hrow
    · have hclaims : Call.claims j ⟨op, t, .ok out⟩ = false := by
        cases op with
        | claimJobWithOptions j' w l expires options eventId =>
            have hne : j' ≠ j := fun heq => hclaim ⟨w, l, expires, options, eventId, by rw [heq]⟩
            simp [Call.claims, hne]
        | _ => rfl
      rw [hclaims]
      rcases Op.rows hc j with ⟨hsame, _⟩ | ⟨new, hnew, hchange⟩
      · refine ⟨fun row hrow => ⟨row, hsame.trans hrow, rfl⟩, fun hnone => ⟨rfl, ?_⟩⟩
        intro row' hrow'
        rw [hsame, hnone] at hrow'
        cases hrow'
      · refine ⟨fun row hrow => ⟨new, hnew, ?_⟩, fun hnone => ⟨rfl, ?_⟩⟩
        · rw [hrow] at hchange
          rcases hchange.deliveryAttempts with hkeep | ⟨hop, _⟩
          · exact hkeep
          · exact absurd hop hclaim
        · intro row' hrow'
          obtain rfl := Option.some.inj (hnew.symm.trans hrow')
          rw [hnone] at hchange
          cases hchange
          rfl
  · -- a failed call
    have hclaims : Call.claims j ⟨op, t, .error e⟩ = false := by
      cases op <;> simp [Call.claims, Except.isOk, Except.toBool]
    rw [hclaims]
    refine ⟨fun row hrow => ⟨row, hrow, rfl⟩, fun hnone => ⟨rfl, fun row' hrow' => ?_⟩⟩
    rw [hnone] at hrow'
    cases hrow'

/-- **Runs.** From the empty database, the counter is the number of claims. -/
theorem attempts_run {Allowed : Op → Prop} {catalog : Catalog} {calls : List Call} {db : Db}
    (hrun : (repository Allowed).Run (Db.empty catalog) calls db) (j : JobId) :
    calls.countP (·.claims j) = ((db.job? j).map (·.deliveryAttempts)).getD 0 := by
  induction hrun with
  | nil => rfl
  | @snoc calls db₁ call db₂ hrun hstep ih =>
      obtain ⟨hold, hnew⟩ := attempts_step hstep j
      rw [List.countP_append, ih]
      cases hrow : db₁.job? j with
      | some row =>
          obtain ⟨row', hrow', hcount⟩ := hold row hrow
          rw [hrow']
          cases hc : call.claims j <;> simp [hc, hcount]
      | none =>
          obtain ⟨hc, hzero⟩ := hnew hrow
          cases hrow' : db₂.job? j with
          | none => simp [hc]
          | some row' => simp [hc, hzero row' hrow']

/-- **Attempts.** With one delivery limit `m`, the counter of a job is the number of
its claims, moves by one at each of them and at no other call, stays within `m`, and
below `m` in the queue: a job is claimed at most `m` times. -/
theorem attempts_charged {m : Nat} (hm : 0 < m) {catalog : Catalog} {calls : List Call} {db : Db}
    (hrun : (repository (Op.RecoversWith m)).Run (Db.empty catalog) calls db) (j : JobId) :
    (∀ row, db.job? j = some row → row.deliveryAttempts = calls.countP (·.claims j) ∧
      row.deliveryAttempts ≤ m ∧ (row.state = .queued → row.deliveryAttempts < m)) ∧
    calls.countP (·.claims j) ≤ m ∧
    ∀ call db', (repository (Op.RecoversWith m)).step db call db' →
      (∀ row, db.job? j = some row → ∃ row', db'.job? j = some row' ∧
        row'.deliveryAttempts = row.deliveryAttempts + (call.claims j).toNat) ∧
      (db.job? j = none → call.claims j = false ∧
        ∀ row', db'.job? j = some row' → row'.deliveryAttempts = 0) := by
  have hreach : (repository (Op.RecoversWith m)).Reachable db :=
    TSys.Reachable.run (.init ⟨catalog, rfl⟩) hrun
  have hcharged := charged_invariant hm (fun _ h => h.within) db hreach j
  have hcount := attempts_run hrun j
  refine ⟨fun row hrow => ⟨?_, (hcharged row hrow).bound, (hcharged row hrow).left⟩, ?_,
    fun call db' hstep => attempts_step hstep j⟩
  · rw [hcount, hrow]
    rfl
  · rw [hcount]
    cases hrow : db.job? j with
    | none => exact Nat.zero_le m
    | some row => exact (hcharged row hrow).bound

/-- A job claimed once under a limit of one has used its attempt. -/
theorem attempts_charged_once :
    ∃ row, (Sample.after Sample.claimed).job? Sample.job = some row ∧ row.deliveryAttempts = 1 ∧
      row.deliveryAttempts ≤ 1 ∧ row.state ≠ .queued := by
  obtain ⟨calls, _, hrun⟩ := @Db.replay_run (Op.RecoversWith 1) Sample.claimed
    (by simp [Sample.claimed, Sample.created, Sample.register, Sample.create, Sample.claim,
      Op.RecoversWith]) (Db.empty Sample.catalog)
  have hclaimed : ((Sample.after Sample.claimed).job? Sample.job).any
      (fun row => decide (row.deliveryAttempts = 1)) = true := by
    decide +kernel
  obtain ⟨row, hrow, hone⟩ := (Option.any_eq_true _ _).mp hclaimed
  have hbound := ((attempts_charged Nat.one_pos hrun Sample.job).1 row hrow).2
  refine ⟨row, hrow, of_decide_eq_true hone, hbound.1, fun hqueued => ?_⟩
  exact absurd (of_decide_eq_true hone) (Nat.ne_of_lt (hbound.2 hqueued))

end RunAnywhere
