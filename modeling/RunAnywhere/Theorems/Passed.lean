import RunAnywhere.Theorems.Lifecycle

/-!
# Passed means the tests ran

The outcome of a job is data beside its state, and evidence for an edge may come from the
request or from the row. What links them is the way the state was entered: a row that is
past its tests, or on its way to `passed`, proves entries (`JobRow.proven`), and the calls
after the last claim contain these entries, in order and under the lease of that claim
(`JobRow.Worked`).

* **leases** — only the claim gives one, so a fenced call carries the lease of the last claim;
* **finalizers** — an unfenced edge leaves collection or cleanup with an outcome other than
  `passed` (`Op.Issued`), so it proves nothing.
-/

namespace RunAnywhere

open Logic

/-- The calls the components make: without a lease only the edges of the finalizers. -/
def Op.Issued : Op → Prop
  | .transitionJobState _ source target evidence none _ _ =>
      (source = .collectingArtifacts ∧ target = .cleaningUp ∨
        source = .cleaningUp ∧ target.terminalOutcome = evidence.pendingOutcome) ∧
      (evidence.pendingOutcome = some .cancelled ∨ evidence.pendingOutcome = some .infraFailed)
  | _ => True

/-- The lease a committed claim of job `j` gave. -/
def Call.claimedUnder (j : JobId) : Call → Option LeaseGuard
  | ⟨.claimJobWithOptions j' w l _ _ _, _, .ok _⟩ => if j' = j then some ⟨w, l⟩ else none
  | _ => none

/-- The state a committed transition of job `j` under the lease `g` entered. -/
def Call.entered (j : JobId) (g : LeaseGuard) : Call → Option JobState
  | ⟨.transitionJobState j' _ target _ (some g') _ _, _, .ok _⟩ =>
      if j' = j ∧ g' = g then some target else none
  | _ => none

/-- The last claim of job `j` gave the lease `g`; `after` are the calls since. -/
def LastClaim (calls : List Call) (j : JobId) (g : LeaseGuard) (after : List Call) : Prop :=
  ∃ before claim, calls = before ++ claim :: after ∧ claim.claimedUnder j = some g ∧
    ∀ call ∈ after, call.claimedUnder j = none

/-- A call that claims nothing extends the history of the last claim. -/
theorem LastClaim.snoc {calls after : List Call} {j : JobId} {g : LeaseGuard} {call : Call}
    (h : LastClaim calls j g after) (hc : call.claimedUnder j = none) :
    LastClaim (calls ++ [call]) j g (after ++ [call]) := by
  obtain ⟨before, claim, rfl, hclaim, hafter⟩ := h
  refine ⟨before, claim, by simp, hclaim, fun c hmem => ?_⟩
  rcases List.mem_append.mp hmem with hold | hnew
  · exact hafter c hold
  · rw [List.mem_singleton.mp hnew]
    exact hc

/-- The entries a row proves: it can only be where it is by having made them. -/
def JobRow.proven (row : JobRow) : List JobState :=
  match row.state with
  | .runningTests | .debugAvailable => [.runningTests]
  | .collectingArtifacts =>
      if row.pendingOutcome = some .passed then [.runningTests, .collectingArtifacts] else []
  | .cleaningUp =>
      if row.pendingOutcome = some .passed then
        [.runningTests, .collectingArtifacts, .cleaningUp] else []
  | .passed => [.runningTests, .collectingArtifacts, .cleaningUp]
  | _ => []

/-- The row belongs to the last claim: its lease is that of the claim, and the entries it
proves were made under it. A row without a lease may prove nothing instead. -/
def JobRow.Worked (calls : List Call) (j : JobId) (row : JobRow) : Prop :=
  (row.leaseId = none ∧ row.proven = []) ∨
    ∃ g after, LastClaim calls j g after ∧
      (∀ l, row.leaseId = some l → row.workerId = some g.workerId ∧ l = g.leaseId) ∧
      row.proven.Sublist (after.filterMap (Call.entered j g))

/-! ## One edge -/

/-- A transition proves the entry it makes, and nothing else. -/
theorem JobRow.Shape.proven_transitioned {row : JobRow} {source target : JobState}
    {evidence : TransitionEvidence} {t : DbTime} (hrow : row.Shape) (hsource : row.state = source)
    (hpending : evidence.pendingOutcome = none ∨ row.pendingOutcome = none ∨
      row.pendingOutcome = evidence.pendingOutcome) (h : Edge evidence source target) :
    (row.transitioned target evidence t).proven.Sublist (row.proven ++ [target]) := by
  -- the outcome a row in collection or cleanup has stored is the one it goes on with
  have hkept : row.pendingOutcome.isSome →
      (row.transitioned target evidence t).pendingOutcome = row.pendingOutcome := by
    intro hsome
    show evidence.pendingOutcome.or row.pendingOutcome = row.pendingOutcome
    rcases hpending with hnone | hnone | hsame
    · rw [hnone, Option.none_or]
    · rw [hnone] at hsome
      cases hsome
    · rw [← hsame, Option.or_self]
  cases h with
  | spine hn =>
      cases source <;> cases hn
      all_goals first
        | exact List.nil_sublist _
        | exact List.sublist_append_right row.proven [_]
  | debug =>
      have hproven : row.proven = [.runningTests] := by
        unfold proven
        rw [hsource]
      rw [hproven]
      exact List.sublist_append_left [JobState.runningTests] _
  | @collect source o hs ho =>
      have hproven : row.proven = [.runningTests] := by
        unfold proven
        rcases hs with rfl | rfl <;> rw [hsource]
      rw [hproven]
      show List.Sublist (if _ then _ else []) _
      split
      · exact List.Sublist.refl _
      · exact List.nil_sublist _
  | @early source o he ho =>
      -- no early outcome is `passed`
      have hne : (row.transitioned .collectingArtifacts evidence t).pendingOutcome ≠
          some .passed := by
        show evidence.pendingOutcome.or row.pendingOutcome ≠ some .passed
        rw [ho]
        rintro ⟨⟩
        cases source <;> exact absurd he (by decide)
      have hproven : (row.transitioned .collectingArtifacts evidence t).proven = [] := if_neg hne
      rw [hproven]
      exact List.nil_sublist _
  | cleanup =>
      have hsame := hkept (hrow.pending (Or.inr (Or.inl hsource)))
      show List.Sublist (if (row.transitioned .cleaningUp evidence t).pendingOutcome = _ then _ else [])
        (row.proven ++ _)
      unfold proven
      rw [hsource, hsame]
      by_cases hp : row.pendingOutcome = some .passed
      · simp only [hp, if_true]
        exact List.Sublist.refl _
      · simp only [hp, if_false]
        exact List.nil_sublist _
  | @finish target o ht ho =>
      have hsome := hrow.pending (Or.inr (Or.inr hsource))
      cases target with
      | passed =>
          have hp : row.pendingOutcome = some .passed := by
            rw [← hkept hsome]
            show evidence.pendingOutcome.or row.pendingOutcome = _
            rw [ho, ← ht]
            rfl
          have hproven : row.proven = [.runningTests, .collectingArtifacts, .cleaningUp] := by
            unfold proven
            rw [hsource]
            exact if_pos hp
          rw [hproven]
          exact List.sublist_append_left [JobState.runningTests, _, _] _
      | failed | cancelled | timedOut | infraFailed => exact List.nil_sublist _
      | _ => cases ht

/-! ## One call -/

/-- A change that proves no more, keeps the lease or drops it, and claims nothing keeps the
row with its claim. -/
theorem JobRow.Worked.mono {calls : List Call} {j : JobId} {old new : JobRow} {call : Call}
    (h : old.Worked calls j) (hc : call.claimedUnder j = none)
    (hlease : new.leaseId = none ∨ (new.leaseId = old.leaseId ∧ new.workerId = old.workerId))
    (hproven : new.proven.Sublist old.proven) : new.Worked (calls ++ [call]) j := by
  rcases h with ⟨hnone, hnil⟩ | ⟨g, after, hlast, hheld, hsub⟩
  · left
    refine ⟨?_, ?_⟩
    · rcases hlease with h | ⟨h, _⟩
      · exact h
      · rw [h, hnone]
    · rw [hnil] at hproven
      exact List.eq_nil_of_sublist_nil hproven
  · right
    refine ⟨g, after ++ [call], hlast.snoc hc, fun l hl => ?_, ?_⟩
    · rcases hlease with h | ⟨hid, hworker⟩
      · rw [h] at hl
        cases hl
      · rw [hworker]
        exact hheld l (hid ▸ hl)
    · rw [List.filterMap_append]
      exact (hproven.trans hsub).trans (List.sublist_append_left _ _)

/-- A fenced transition is an entry under the lease of the last claim. -/
theorem JobRow.Worked.transitioned {calls : List Call} {j : JobId} {row : JobRow}
    {source target : JobState} {evidence : TransitionEvidence} {g : LeaseGuard}
    {payload : List (String × EventValue)} {eventId : JobEventId} {t : DbTime} {job : Job}
    (h : row.Worked calls j) (hshape : row.Shape)
    (hval : validateTransition source target evidence = .ok ())
    (hguard : transitionGuard source evidence (some g) t row = true) :
    (row.transitioned target evidence t).Worked (calls ++
      [⟨.transitionJobState j source target evidence (some g) payload eventId, t, .ok job⟩]) j := by
  obtain ⟨hsource, hpending, hlease⟩ := transitionGuard_iff.mp hguard
  obtain ⟨hworker, hid, _⟩ := hlease g rfl
  have hproven := hshape.proven_transitioned hsource hpending (validateTransition_edge hval) (t := t)
  rcases h with ⟨hnone, _⟩ | ⟨g', after, hlast, hheld, hsub⟩
  · rw [hnone] at hid
    cases hid
  · -- the fence names the lease of the claim
    obtain ⟨hw, hl⟩ := hheld _ hid
    have hg : g = g' := by
      rw [hworker] at hw
      cases g
      cases g'
      cases hw
      cases hl
      rfl
    subst hg
    refine Or.inr ⟨g, _, hlast.snoc rfl, fun l hl => ?_, ?_⟩
    · have hlease' : (row.transitioned target evidence t).leaseId =
          if target.terminalOutcome.isSome then none else row.leaseId := rfl
      rw [hlease'] at hl
      split at hl
      · cases hl
      · exact hheld l hl
    · rw [List.filterMap_append]
      refine hproven.trans (hsub.append ?_)
      show List.Sublist _ (List.filterMap _ [_])
      simp [Call.entered]

/-- A finalizer's edge proves nothing. -/
theorem proven_finalized {j : JobId} {row : JobRow} {source target : JobState}
    {evidence : TransitionEvidence} {payload : List (String × EventValue)} {eventId : JobEventId}
    {t : DbTime}
    (hissued : (Op.transitionJobState j source target evidence none payload eventId).Issued) :
    (row.transitioned target evidence t).proven = [] := by
  obtain ⟨hedge, houtcome⟩ := hissued
  have hpending : (row.transitioned target evidence t).pendingOutcome ≠ some .passed := by
    show evidence.pendingOutcome.or row.pendingOutcome ≠ some .passed
    rcases houtcome with h | h <;> rw [h] <;> rintro ⟨⟩
  rcases hedge with ⟨_, rfl⟩ | ⟨_, ht⟩
  · exact if_neg hpending
  · rcases houtcome with h | h <;> rw [h] at ht <;> cases target <;> first | rfl | cases ht

/-- **One change.** A change that claims nothing keeps the row with its claim. -/
theorem RowChange.worked {op : Op} {t : DbTime} {out : op.Out} {j : JobId}
    {calls : List Call} {old : Option JobRow} {new : JobRow} (h : RowChange op t j old new)
    (hissued : op.Issued) (hc : Call.claimedUnder j ⟨op, t, .ok out⟩ = none)
    (hold : ∀ row ∈ old, row.Shape ∧ row.Worked calls j) :
    new.Worked (calls ++ [⟨op, t, .ok out⟩]) j := by
  cases h with
  | create => exact Or.inl ⟨rfl, rfl⟩
  | @cancel _ _ _ row =>
      exact (hold row rfl).2.mono hc (Or.inr ⟨rfl, rfl⟩) (List.nil_sublist _)
  | claim => simp [Call.claimedUnder] at hc
  | @transition _ source target evidence lease payload eventId _ row hval hguard =>
      obtain ⟨hshape, hw⟩ := hold row rfl
      cases lease with
      | some g => exact hw.transitioned hshape hval hguard
      | none =>
          refine hw.mono hc ?_ ?_
          · show (if target.terminalOutcome.isSome then none else row.leaseId) = none ∨ _
            by_cases hends : target.terminalOutcome.isSome = true
            · exact Or.inl (if_pos hends)
            · exact Or.inr ⟨if_neg hends, rfl⟩
          · rw [proven_finalized hissued]
            exact List.nil_sublist _
  | @result result eventId _ row hguard =>
      obtain ⟨hshape, hw⟩ := hold row rfl
      obtain ⟨_, _, _, hpending, hlive⟩ := resultGuard_iff.mp hguard
      refine hw.mono hc (Or.inr ⟨rfl, rfl⟩) ?_
      -- a result agrees with the outcome of a row in collection or cleanup
      have hsame : row.state = .collectingArtifacts ∨ row.state = .cleaningUp →
          some result.outcome = row.pendingOutcome := by
        intro hs
        rcases hpending with hnone | hsame
        · have hsome := hshape.pending (Or.inr hs)
          rw [hnone] at hsome
          cases hsome
        · exact hsame.symm
      have hproven : (row.withResult result).proven = row.proven := by
        unfold JobRow.proven JobRow.withResult
        cases hs : row.state <;> simp_all
      rw [hproven]
  | @heartbeat _ _ _ _ row =>
      exact (hold row rfl).2.mono hc (Or.inr ⟨rfl, rfl⟩) (List.Sublist.refl row.proven)
  | @recover stale maxDeliver _ _ row =>
      -- recovery takes the lease, and a finalizer's outcome or none is left
      have hfinal : ∀ o failure, o ≠ .passed → (row.toFinalizer o failure).proven = [] := by
        intro o failure ho
        unfold JobRow.proven JobRow.toFinalizer
        by_cases hs : row.state = .cleaningUp <;> simp [hs, ho]
      left
      cases recoveryKind stale maxDeliver row with
      | requeue => exact ⟨rfl, rfl⟩
      | cancelling => exact ⟨rfl, hfinal _ _ (by decide)⟩
      | exhausted => exact ⟨rfl, hfinal _ _ (by decide)⟩

/-! ## Runs -/

/-- **One call.** Every row stays with its claim. -/
theorem worked_step {calls : List Call} {db db' : Db} {call : Call}
    (hshape : ∀ j row, db.job? j = some row → row.Shape)
    (hstep : (repository Op.Issued).step db call db')
    (h : ∀ j row, db.job? j = some row → row.Worked calls j) (j : JobId) (new : JobRow)
    (hnew : db'.job? j = some new) : new.Worked (calls ++ [call]) j := by
  obtain ⟨op, t, answer⟩ := call
  have hcases : (∃ out : op.Out, answer = .ok out ∧ (op.tx t).Commits db out db') ∨
      ((∃ e, answer = .error e) ∧ db' = db) := repository_step_cases hstep
  rcases hcases with ⟨out, hanswer, hcommits⟩ | ⟨⟨e, hanswer⟩, rfl⟩
  · subst hanswer
    cases hc : Call.claimedUnder j ⟨op, t, .ok out⟩ with
    | none =>
        rcases Op.rows hcommits j with ⟨hsame, _⟩ | ⟨row, hrow, hchange⟩
        · rw [hsame] at hnew
          exact (h j new hnew).mono hc (Or.inr ⟨rfl, rfl⟩) (List.Sublist.refl _)
        · obtain rfl := Option.some.inj (hrow.symm.trans hnew)
          exact hchange.worked hstep.1 hc fun row hrow => ⟨hshape j row hrow, h j row hrow⟩
    | some g =>
        -- a claim starts the history anew, with nothing proven
        unfold Call.claimedUnder at hc
        split at hc
        · next j' w l expires options eventId t' out' heq =>
            cases heq
            split at hc
            · next hj =>
                subst hj
                obtain rfl := Option.some.inj hc
                obtain ⟨row, worker, hchecks, _, _, _, _, _, _, hcl⟩ :=
                  claimJobWithOptions_commits hcommits
                obtain ⟨_, _, _, _, _, _, _, _, hjobs, _⟩ := hcl
                have hclaimed : db'.job? j' = some (row.claimed w l expires t.clock) := by
                  unfold Db.job?
                  rw [hjobs]
                  exact Table.row?_put_self _ _ _ _
                obtain rfl := Option.some.inj (hclaimed.symm.trans hnew)
                refine Or.inr ⟨⟨w, l⟩, [], ⟨calls, _, rfl, ?_, fun c hm => by cases hm⟩, ?_, ?_⟩
                · simp [Call.claimedUnder]
                · rintro l' ⟨⟩
                  exact ⟨rfl, rfl⟩
                · exact List.Sublist.refl _
            · cases hc
        · cases hc
  · subst hanswer
    have hc : Call.claimedUnder j ⟨op, t, .error e⟩ = none := by
      unfold Call.claimedUnder
      split
      · next heq => cases heq
      · rfl
    exact (h j new hnew).mono hc (Or.inr ⟨rfl, rfl⟩) (List.Sublist.refl _)

/-- **Passed.** The calls after the last claim of a passed job enter its tests, its
collection and its cleanup, in this order and under the lease of that claim. -/
theorem passed_ran_tests {catalog : Catalog} {calls : List Call} {db : Db}
    (hrun : (repository Op.Issued).Run (Db.empty catalog) calls db) {j : JobId} {row : JobRow}
    (hrow : db.job? j = some row) (hpassed : row.state = .passed) :
    ∃ g after, LastClaim calls j g after ∧
      [JobState.runningTests, .collectingArtifacts, .cleaningUp].Sublist
        (after.filterMap (Call.entered j g)) := by
  have hworked : ∀ j row, db.job? j = some row → row.Worked calls j := by
    clear hrow hpassed
    induction hrun with
    | nil =>
        intro j row hrow
        cases hrow
    | @snoc calls db₁ call db₂ hrun hstep ih =>
        have hreach : (repository Op.Issued).Reachable db₁ :=
          TSys.Reachable.run (.init ⟨catalog, rfl⟩) hrun
        exact worked_step (shape_invariant _ db₁ hreach) hstep ih
  have hproven : row.proven = [.runningTests, .collectingArtifacts, .cleaningUp] := by
    unfold JobRow.proven
    rw [hpassed]
  rcases hworked j row hrow with ⟨_, hnil⟩ | ⟨g, after, hlast, _, hsub⟩
  · rw [hproven] at hnil
    cases hnil
  · exact ⟨g, after, hlast, hproven ▸ hsub⟩

/-- The running job, up to `passed` by its worker. -/
def Sample.finished : List (Op × DbTime) :=
  running ++
    [(.transitionJobState job .runningTests .collectingArtifacts ⟨some .passed, false, false⟩
        (some ⟨worker, lease⟩) [] (event 6), at_ 8),
      (.transitionJobState job .collectingArtifacts .cleaningUp ⟨some .passed, true, false⟩
        (some ⟨worker, lease⟩) [] (event 7), at_ 9),
      (.transitionJobState job .cleaningUp .passed ⟨some .passed, true, true⟩
        (some ⟨worker, lease⟩) [] (event 8), at_ 10)]

theorem Sample.finished_issued : ∀ x ∈ finished, x.1.Issued := by
  intro x hx
  simp only [finished, running, claimed, created, List.cons_append, List.nil_append, List.mem_cons,
    List.not_mem_nil, or_false] at hx
  rcases hx with rfl | rfl | rfl | rfl | rfl | rfl | rfl | rfl | rfl | rfl <;> trivial

/-- A job that passed. -/
theorem passed_ran_tests_finished : ∃ calls g after,
    (repository Op.Issued).Run (Db.empty Sample.catalog) calls (Sample.after Sample.finished) ∧
    LastClaim calls Sample.job g after ∧
      [JobState.runningTests, .collectingArtifacts, .cleaningUp].Sublist
        (after.filterMap (Call.entered Sample.job g)) := by
  have hpassed : ((Sample.after Sample.finished).job? Sample.job).any
      (fun row => decide (row.state = .passed)) = true := by decide +kernel
  obtain ⟨row, hrow, hstate⟩ := (Option.any_eq_true _ _).mp hpassed
  obtain ⟨calls, _, hrun⟩ := Db.replay_run Sample.finished_issued (Db.empty Sample.catalog)
  obtain ⟨g, after, hlast, hsub⟩ := passed_ran_tests hrun hrow (of_decide_eq_true hstate)
  exact ⟨calls, g, after, hrun, hlast, hsub⟩

end RunAnywhere
