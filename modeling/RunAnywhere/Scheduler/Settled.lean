import RunAnywhere.Scheduler.Markers

/-!
# Settled jobs

What a component has read may be out of date when it acts, so it acts on what lasts. Along
the runs of the components (`Db.Later`) the canonical payload of a job, the row of an ended
job, a parked row's outcome and attempts, a publication and the absence of a marker of an
ended job last; hence `Db.Settled` does: the job has ended without a marker, or its marker
is published.
-/

namespace RunAnywhere

open Logic

/-- `db'` is `db` or comes after it. -/
def Db.Later (m : Nat) (db db' : Db) : Prop := ∃ calls, (components m).Run db calls db'

namespace Db.Later

variable {m : Nat} {db db' db'' : Db}

theorem refl (m : Nat) (db : Db) : Db.Later m db db := ⟨[], .nil db⟩

theorem trans (h : Db.Later m db db') (k : Db.Later m db' db'') : Db.Later m db db'' := by
  obtain ⟨calls, hrun⟩ := h
  obtain ⟨calls', hrun'⟩ := k
  exact ⟨_, hrun.append hrun'⟩

theorem reachable (h : Db.Later m db db') (hr : (components m).Reachable db) :
    (components m).Reachable db' := by
  obtain ⟨calls, hrun⟩ := h
  exact hr.run hrun

theorem queued (h : Db.Later m db db') (hr : (components m).Reachable db) {j : JobId}
    {row : JobRow} (hrow : db.job? j = some row) :
    ∃ row', db'.job? j = some row' ∧ row'.queued j = row.queued j := by
  obtain ⟨calls, hrun⟩ := h
  exact queued_run (components_reachable hr) (components_run hrun) hrow

theorem terminal (h : Db.Later m db db') (hr : (components m).Reachable db) {j : JobId}
    {row : JobRow} (hrow : db.job? j = some row) (hend : row.state.isTerminal = true) :
    db'.job? j = some row := by
  obtain ⟨calls, hrun⟩ := h
  exact terminal_run (components_reachable hr) (components_run hrun) hrow hend

theorem parked (h : Db.Later m db db') (hr : (components m).Reachable db) {j : JobId}
    {row : JobRow} (hrow : db.job? j = some row) (hp : row.Parked) :
    ∃ row', db'.job? j = some row' ∧ row.Rests row' := by
  obtain ⟨calls, hrun⟩ := h
  exact parked_run (components_reachable hr) (components_run hrun) hrow hp

theorem message (h : Db.Later m db db') {key : String} {old : OutboxRow}
    (hold : db.message? key = some old) : ∃ new, db'.message? key = some new ∧ old.Keeps new := by
  obtain ⟨calls, hrun⟩ := h
  induction hrun with
  | nil => exact ⟨old, hold, .refl old⟩
  | snoc _ hstep ih =>
      obtain ⟨new, hnew, hkeeps⟩ := ih
      rcases repository_step_cases (components_step hstep) with ⟨_, _, hc⟩ | ⟨_, rfl⟩
      · obtain ⟨new', hnew', hkeeps'⟩ := (Op.outbox hc).old _ _ hnew
        exact ⟨new', hnew', hkeeps.trans hkeeps'⟩
      · exact ⟨new, hnew, hkeeps⟩

end Db.Later

/-! ## Publications -/

/-- The row under `key` is published. -/
def Db.Published (db : Db) (key : String) : Prop :=
  ∃ message, db.message? key = some message ∧ message.publishedAt.isSome = true

theorem Db.Published.later {m : Nat} {db db' : Db} {key : String} (h : db.Published key)
    (hl : Db.Later m db db') : db'.Published key := by
  obtain ⟨message, hm, hp⟩ := h
  obtain ⟨message', hm', hkeeps⟩ := hl.message hm
  exact ⟨message', hm', by rw [hkeeps.published hp]; exact hp⟩

/-! ## Ended jobs without a marker -/

/-- The job has ended, and nothing is under the marker key of its last attempt. -/
def Db.EndedUnmarked (db : Db) (j : JobId) : Prop :=
  ∃ row, db.job? j = some row ∧ row.state.isTerminal = true ∧
    db.message? (exhaustionEventKey j row.deliveryAttempts) = none

/-- A job that has ended is not marked any more. -/
theorem Db.EndedUnmarked.later {m : Nat} {db db' : Db} {j : JobId} (h : db.EndedUnmarked j)
    (hr : (components m).Reachable db) (hl : Db.Later m db db') : db'.EndedUnmarked j := by
  obtain ⟨calls, hrun⟩ := hl
  refine hrun.preserves (P := fun db => db.EndedUnmarked j) ?_ hr h
  rintro db₁ call db₂ hr₁ ⟨row, hrow, hend, hnone⟩ hstep
  have hr₁' := components_reachable hr₁
  refine ⟨row, terminal_run hr₁' (.single (components_step hstep)) hrow hend, hend, ?_⟩
  rcases repository_step_cases (components_step hstep) with ⟨_, _, hc⟩ | ⟨_, rfl⟩
  · cases hm : db₂.message? (exhaustionEventKey j row.deliveryAttempts) with
    | none => rfl
    | some message =>
        -- recovery marks jobs that have not ended
        obtain ⟨stale, row', _, _, rfl, hrow', hfence, _⟩ :=
          new_marker (driven_invariant _ hr₁') hstep.1 hc hnone hm
        obtain rfl := Option.some.inj (hrow.symm.trans hrow')
        rw [hfence.live] at hend
        cases hend
  · exact hnone

/-! ## Settled jobs -/

/-- No queue message of the job is needed any more: its marker is published, or it has
ended, and for a strict reader without a marker. -/
def Db.Settled (strict : Bool) (db : Db) (j : JobId) : Prop :=
  ∃ row, db.job? j = some row ∧
    ((row.state.isTerminal = true ∧ (strict = true → db.EndedUnmarked j)) ∨
      db.Published (exhaustionEventKey j row.deliveryAttempts))

theorem Db.EndedUnmarked.settled {db : Db} {j : JobId} (h : db.EndedUnmarked j) (strict : Bool) :
    db.Settled strict j := by
  obtain ⟨row, hrow, hend, hnone⟩ := h
  exact ⟨row, hrow, Or.inl ⟨hend, fun _ => ⟨row, hrow, hend, hnone⟩⟩⟩

/-- A published marker settles its job. -/
theorem Db.Published.settled {m : Nat} {db : Db} (hr : (components m).Reachable db) {j : JobId}
    {a : Nat} (h : db.Published (exhaustionEventKey j a)) (strict : Bool) :
    db.Settled strict j := by
  obtain ⟨message, hm, hp⟩ := h
  obtain ⟨_, row, hrow, hmax, _⟩ := (marked_invariant m db hr).marker j a message hm
  refine ⟨row, hrow, Or.inr ⟨message, ?_, hp⟩⟩
  rw [← exhaustionEventKey_max, hmax, exhaustionEventKey_max]
  exact hm

/-- **Settled for good.** -/
theorem Db.Settled.later {strict : Bool} {m : Nat} {db db' : Db} {j : JobId}
    (h : db.Settled strict j) (hr : (components m).Reachable db) (hl : Db.Later m db db') :
    db'.Settled strict j := by
  obtain ⟨row, hrow, ⟨hend, hstrict⟩ | hpub⟩ := h
  · exact ⟨row, hl.terminal hr hrow hend,
      Or.inl ⟨hend, fun hs => (hstrict hs).later hr hl⟩⟩
  · exact (hpub.later hl).settled (hl.reachable hr) strict

end RunAnywhere
