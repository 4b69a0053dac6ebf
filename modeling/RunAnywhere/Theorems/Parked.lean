import RunAnywhere.Theorems.Recovery

/-!
# Jobs without a lease

What the leader finalizes are jobs on the finalizer path whose lease is gone. Such a row is
`Parked`, and no call gives it a lease or the queue back: it moves on along the finalizers'
edges only, with its outcome and its attempts (`RowChange.parked`), until it has ended and
nothing changes it any more (`RowChange.live`).

* `rows_run` — what each change of a row keeps, a run keeps;
* `parked_run`, `terminal_run`, `queued_run` — parked rows stay parked, rows of ended jobs
  stay as they are, and the canonical payload of a job is one for good.
-/

namespace RunAnywhere

open Logic

/-- **Run rule for rows.** A reflexive and transitive relation that every change of a row
respects holds between a row and what a run makes of it. -/
theorem rows_run {Allowed : Op → Prop} {R : JobRow → JobRow → Prop} (hrefl : ∀ row, R row row)
    (htrans : ∀ a b c, R a b → R b c → R a c)
    (hchange : ∀ op t j old new, Allowed op → old.Shape → RowChange op t j (some old) new →
      R old new)
    {db db' : Db} {calls : List Call} (hs : (repository Allowed).Reachable db)
    (hrun : (repository Allowed).Run db calls db') {j : JobId} {row : JobRow}
    (hrow : db.job? j = some row) : ∃ row', db'.job? j = some row' ∧ R row row' := by
  refine hrun.preserves (P := fun db => ∃ row', db.job? j = some row' ∧ R row row') ?_ hs
    ⟨row, hrow, hrefl row⟩
  rintro db₁ call db₂ hr ⟨row₁, hrow₁, hR⟩ hstep
  have hshape := shape_invariant Allowed db₁ hr j row₁ hrow₁
  rcases repository_step_rows hstep j with ⟨hsame, _⟩ | ⟨new, hnew, hch⟩
  · exact ⟨row₁, hsame.trans hrow₁, hR⟩
  · rw [hrow₁] at hch
    exact ⟨new, hnew, htrans _ _ _ hR (hchange _ _ _ _ _ hstep.1 hshape hch)⟩

/-! ## Canonical payloads -/

/-- A change keeps the canonical payload. -/
theorem RowChange.queued_eq {op : Op} {t : DbTime} {j : JobId} {old new : JobRow}
    (h : RowChange op t j (some old) new) (i : JobId) : new.queued i = old.queued i := by
  cases h with
  | @recover stale maxDeliver => cases recoveryKind stale maxDeliver old <;> rfl
  | _ => rfl

theorem queued_run {Allowed : Op → Prop} {db db' : Db} {calls : List Call}
    (hs : (repository Allowed).Reachable db) (hrun : (repository Allowed).Run db calls db')
    {j : JobId} {row : JobRow} (hrow : db.job? j = some row) :
    ∃ row', db'.job? j = some row' ∧ row'.queued j = row.queued j := by
  obtain ⟨row', hrow', hR⟩ := rows_run (R := fun a b => b.queued j = a.queued j) (fun _ => rfl)
    (fun _ _ _ h k => k.trans h) (fun _ _ _ _ _ _ _ h => h.queued_eq j) hs hrun hrow
  exact ⟨row', hrow', hR⟩

/-! ## Ended jobs -/

/-- No call changes the row of a job that has ended. -/
theorem RowChange.live {op : Op} {t : DbTime} {j : JobId} {old new : JobRow}
    (h : RowChange op t j (some old) new) : old.state.isTerminal = false := by
  cases h with
  | cancel hlive => exact hlive
  | claim hq => rw [hq]; rfl
  | transition hval hguard =>
      rw [(transitionGuard_iff.mp hguard).1]
      exact (validateTransition_edge hval).source_live
  | result hguard => exact (resultGuard_iff.mp hguard).2.2.2.2
  | heartbeat _ _ hguard => exact (extendGuard_iff.mp hguard).2.2.2.2.2
  | recover hfence => exact hfence.live

theorem terminal_run {Allowed : Op → Prop} {db db' : Db} {calls : List Call}
    (hs : (repository Allowed).Reachable db) (hrun : (repository Allowed).Run db calls db')
    {j : JobId} {row : JobRow} (hrow : db.job? j = some row) (hend : row.state.isTerminal = true) :
    db'.job? j = some row := by
  obtain ⟨row', hrow', hR⟩ := rows_run (R := fun a b => a.state.isTerminal = true → b = a)
    (fun _ _ => rfl) (fun a b c h k ha => by
      have hb := h ha
      rw [k (hb ▸ ha), hb])
    (fun _ _ _ _ _ _ _ h ha => by rw [h.live] at ha; cases ha) hs hrun hrow
  rw [hrow', hR hend]

/-! ## Parked jobs -/

/-- Without a lease, on the finalizer path or past it. -/
structure JobRow.Parked (row : JobRow) : Prop where
  lease : row.leaseId = none
  state : row.state = .collectingArtifacts ∨ row.state = .cleaningUp ∨ row.state.isTerminal = true

/-- What becomes of a parked row: it stays parked, with its worker, its outcome and its
attempts, and goes on along the path. -/
structure JobRow.Rests (old new : JobRow) : Prop where
  parked : new.Parked
  worker : new.workerId = old.workerId
  pending : new.pendingOutcome = old.pendingOutcome
  attempts : new.deliveryAttempts = old.deliveryAttempts
  rank : old.state.rank ≤ new.state.rank

theorem JobRow.Parked.rests {row : JobRow} (h : row.Parked) : row.Rests row :=
  ⟨h, rfl, rfl, rfl, Nat.le_refl _⟩

theorem JobRow.Rests.trans {a b c : JobRow} (h : a.Rests b) (k : b.Rests c) : a.Rests c :=
  ⟨k.parked, k.worker.trans h.worker, k.pending.trans h.pending, k.attempts.trans h.attempts,
    Nat.le_trans h.rank k.rank⟩

/-- **One change.** Of the calls that can change a row, an unfenced transition is the only
one a parked row takes. -/
theorem RowChange.parked {op : Op} {t : DbTime} {j : JobId} {old new : JobRow}
    (h : RowChange op t j (some old) new) (hs : old.Shape) (hp : old.Parked) : old.Rests new := by
  have hlive := h.live
  have hstate : old.state = .collectingArtifacts ∨ old.state = .cleaningUp := by
    rcases hp.state with hc | hc | hend
    · exact Or.inl hc
    · exact Or.inr hc
    · rw [hlive] at hend
      cases hend
  have hpending := hs.pending (Or.inr hstate)
  cases h with
  | cancel _ hnone =>
      rw [hnone] at hpending
      cases hpending
  | claim hq => rcases hstate with hc | hc <;> rw [hc] at hq <;> cases hq
  | @transition _ source target evidence lease _ _ t _ hval hguard =>
      obtain ⟨rfl, hsame, hlease⟩ := transitionGuard_iff.mp hguard
      have hedge := validateTransition_edge hval
      refine ⟨⟨?_, ?_⟩, rfl, ?_, rfl, Nat.le_of_lt hedge.rank_lt⟩
      · show (if target.terminalOutcome.isSome then none else old.leaseId) = none
        rw [hp.lease, ite_self]
      · show target = _ ∨ target = _ ∨ target.isTerminal = true
        generalize old.state = source at hedge hstate
        cases hedge with
        | spine hn => rcases hstate with rfl | rfl <;> cases hn
        | debug => rcases hstate with hc | hc <;> cases hc
        | collect | early => exact Or.inl rfl
        | cleanup => exact Or.inr (Or.inl rfl)
        | finish ht => exact Or.inr (Or.inr ((JobState.isTerminal_iff _).mpr ⟨_, ht⟩))
      · show evidence.pendingOutcome.or old.pendingOutcome = old.pendingOutcome
        rcases hsame with hnone | hnone | hsame
        · rw [hnone, Option.none_or]
        · rw [hnone] at hpending
          cases hpending
        · rw [← hsame, Option.or_self]
  | result hguard =>
      have hheld := (resultGuard_iff.mp hguard).2.1
      rw [hp.lease] at hheld
      cases hheld
  | heartbeat _ _ hguard =>
      have hheld := (extendGuard_iff.mp hguard).2.1
      rw [hp.lease] at hheld
      cases hheld
  | recover hfence =>
      have hheld := hfence.lease
      rw [hp.lease] at hheld
      cases hheld

/-- **Run.** A parked row stays parked, whatever is called. -/
theorem parked_run {Allowed : Op → Prop} {db db' : Db} {calls : List Call}
    (hs : (repository Allowed).Reachable db) (hrun : (repository Allowed).Run db calls db')
    {j : JobId} {row : JobRow} (hrow : db.job? j = some row) (hp : row.Parked) :
    ∃ row', db'.job? j = some row' ∧ row.Rests row' := by
  obtain ⟨row', hrow', hR⟩ := rows_run (R := fun a b => a.Parked → a.Rests b)
    (fun _ h => h.rests) (fun _ _ _ h k ha => (h ha).trans (k (h ha).parked))
    (fun _ _ _ _ _ _ hshape h ha => h.parked hshape ha) hs hrun hrow
  exact ⟨row', hrow', hR hp⟩

end RunAnywhere
