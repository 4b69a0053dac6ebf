import RunAnywhere.Scheduler.Sightings
import RunAnywhere.Theorems.Fencing

/-!
# The reaper never destroys a protected runtime

A removal is backed by the sightings of the passes before it. That it never hits a runtime
whose lease is live is a matter of leases: one that was granted and is not on the row of its
job never returns (`Cluster.Forfeited`), so what a lookup found holds until the removal.
-/

namespace RunAnywhere

open Logic Prog

/-! ## Leases -/

/-- A lease of job `j` that was granted and does not hold a live job. -/
def Cluster.Forfeited (s : Cluster) (j : JobId) (w : WorkerId) (l : LeaseId) : Prop :=
  l ∈ s.granted ∧ ∀ row, s.db.job? j = some row → row.heldBy w l = true →
    row.state.isTerminal = true

/-- Leases stay granted, and forfeited ones forfeited. -/
structure Cluster.Onward (s s' : Cluster) : Prop where
  granted : ∀ l ∈ s.granted, l ∈ s'.granted
  forfeited : ∀ j w l, s.Forfeited j w l → s'.Forfeited j w l

section Leases

variable {cfg : Config} {s s' s'' : Cluster}

theorem Cluster.Onward.refl (s : Cluster) : s.Onward s := ⟨fun _ h => h, fun _ _ _ h => h⟩

theorem Cluster.Onward.trans (h : s.Onward s') (h' : s'.Onward s'') : s.Onward s'' :=
  ⟨fun l hl => h'.granted l (h.granted l hl),
    fun j w l hl => h'.forfeited j w l (h.forfeited j w l hl)⟩

/-- A move that leaves jobs and leases alone. -/
theorem Cluster.Onward.of_eq (hdb : s'.db = s.db) (hgranted : s'.granted = s.granted) :
    s.Onward s' := by
  refine ⟨fun l hl => hgranted ▸ hl, fun j w l hl => ⟨hgranted ▸ hl.1, fun row hrow => ?_⟩⟩
  rw [hdb] at hrow
  exact hl.2 row hrow

/-- **Calls.** A claim is given a new lease, and no other call puts one on a row. -/
theorem execute_onward {op : Op} {t : DbTime} {answer : Except RepositoryError op.Out}
    (h : s.execute op t = some (answer, s')) : s.Onward s' := by
  have hstep : (repository fun _ => True).step s.db ⟨op, t, answer⟩ s'.db :=
    ⟨trivial, (execute_eq h).1⟩
  simp only [Cluster.execute] at h
  split at h
  · next hnew =>
      cases h
      refine ⟨fun l hl => List.mem_append_right _ hl, fun j w l hl => ?_⟩
      refine ⟨List.mem_append_right _ hl.1, fun row hrow hheld => ?_⟩
      obtain ⟨hworker, hlease⟩ := JobRow.heldBy_iff.mp hheld
      rcases repository_step_rows hstep j with ⟨hsame, _⟩ | ⟨row', hrow', hchange⟩
      · exact hl.2 row (hsame ▸ hrow) hheld
      obtain rfl := Option.some.inj (hrow'.symm.trans hrow)
      rcases hchange.lease hlease with ⟨old, hold, holdlease, holdworker⟩ |
        ⟨_, expires, options, eventId, hop⟩
      · -- a forfeited lease is on an ended job only, and such a row does not change
        have hend := hl.2 old hold (JobRow.heldBy_iff.mpr ⟨holdworker.trans hworker, holdlease⟩)
        rw [show s.db.job? j = some old from hold] at hchange
        rw [hchange.live] at hend
        cases hend
      · rcases repository_step_cases hstep with ⟨out, ha, _⟩ | ⟨_, hdb⟩
        · have hgrant := Call.grants_claim hop ha
          rw [hgrant] at hnew
          exact absurd hl.1 (of_decide_eq_true hnew)
        · exact hl.2 row' (by rw [← hdb]; exact hrow) hheld
  · cases h

theorem exchange_onward (s : Cluster) (fate : Fate) (f : WorkQueue → WorkQueue) :
    s.Onward (s.exchange fate f) := by
  unfold Cluster.exchange
  split
  · exact .refl s
  · exact .of_eq rfl rfl

/-- **Actions.** -/
theorem exec_onward {x : Action} {r : x.Res} (h : (machine cfg).Exec s x r s') : s.Onward s' := by
  cases x with
  | query q =>
      obtain ⟨rfl, _⟩ := exec_query h
      exact .refl s'
  | call op =>
      rcases exec_call h with ⟨rfl, _⟩ | ⟨t, answer, hexec, _⟩
      · exact .refl s'
      · exact execute_onward hexec
  | stream x =>
      obtain ⟨c, hrun⟩ := exec_stream h
      cases x with
      | publish message | doubleAck n | term n =>
          obtain ⟨_, rfl⟩ := Prod.mk.inj hrun
          exact exchange_onward s c.fate _
      | deleteMessage n =>
          simp only [StreamCall.run] at hrun
          repeat' split at hrun
          · obtain ⟨_, rfl⟩ := Prod.mk.inj hrun
            exact exchange_onward s .success _
          · obtain ⟨_, rfl⟩ := Prod.mk.inj hrun
            exact exchange_onward s .lost _
          · obtain ⟨_, rfl⟩ := Prod.mk.inj hrun
            exact .refl s
      | getRawMessage n =>
          simp only [StreamCall.run] at hrun
          repeat' split at hrun
          all_goals
            obtain ⟨_, rfl⟩ := Prod.mk.inj hrun
            exact .refl s
      | publishDead message | progress n | nak n =>
          obtain ⟨_, rfl⟩ := Prod.mk.inj hrun
          exact .refl s
  | memory x =>
      obtain ⟨_, rfl⟩ := exec_memory h
      exact .of_eq rfl rfl
  | outside x =>
      obtain rfl := exec_outside h
      exact .refl s'
  | stop => cases r

/-- **Moves.** -/
theorem next_onward {p p' : Pool Cluster Action Action.Res Request Report}
    {c : Cmd Request Choice Outer} (h : (machine cfg).next p c = some p') :
    p.state.Onward p'.state := by
  cases c with
  | spawn i =>
      simp only [Machine.next] at h
      split at h <;> cases h
      exact .refl _
  | act n o =>
      simp only [Machine.next] at h
      split at h
      · obtain ⟨⟨r, s'⟩, hexec, rfl⟩ := Option.map_eq_some_iff.mp h
        exact exec_onward ⟨o, hexec⟩
      · cases h
  | finish n =>
      simp only [Machine.next] at h
      split at h <;> cases h
      exact .refl _
  | kill n =>
      obtain rfl := Option.some.inj h
      exact .refl _
  | env e =>
      obtain ⟨s', he, rfl⟩ := Option.map_eq_some_iff.mp h
      cases e with
      | api op t =>
          simp only [machine, Cluster.outer] at he
          split at he
          · obtain ⟨⟨answer, s₁⟩, hexecute, rfl⟩ := Option.map_eq_some_iff.mp he
            exact execute_onward hexecute
          · cases he
      | publishForeign traceContext payload =>
          obtain rfl := Option.some.inj he
          exact .of_eq rfl rfl
  | crash =>
      obtain rfl := Option.some.inj h
      exact .of_eq rfl rfl

end Leases

/-! ## Runtimes and their leases -/

/-- An inventory lists only runtimes whose lease was granted. -/
def Cluster.believes (s : Cluster) : (x : Action) → x.Res → Bool
  | .outside .inventory, .ok listed => listed.all fun r => s.granted.contains r.leaseId
  | _, _ => true

/-- The scheduler over an engine on which a runtime labelled with a lease appears only after
the lease was granted. -/
def sighted (cfg : Config) : Machine Cluster Action Action.Res Request Report Choice Outer :=
  { machine cfg with
    perform := fun s x c => (x.perform s c).filter fun answer => s.believes x answer.1 }

/-- The runs of that scheduler. -/
def sightedScheduler (cfg : Config) :
    TSys (Pool Cluster Action Action.Res Request Report) (Cmd Request Choice Outer) :=
  (sighted cfg).system (fun s => ∃ catalog, s = Cluster.boot cfg catalog) fun _ _ => True

section Sighted

variable {cfg : Config} {s s' : Cluster}

theorem sighted_exec {x : Action} {r : x.Res} (h : (sighted cfg).Exec s x r s') :
    (machine cfg).Exec s x r s' ∧ s.believes x r = true := by
  obtain ⟨c, h⟩ := h
  obtain ⟨hperform, hbelieves⟩ := Option.filter_eq_some_iff.mp h
  exact ⟨⟨c, hperform⟩, hbelieves⟩

theorem sighted_next {p p' : Pool Cluster Action Action.Res Request Report}
    {c : Cmd Request Choice Outer} (h : (sighted cfg).next p c = some p') :
    (machine cfg).next p c = some p' := by
  cases c with
  | act n o =>
      simp only [Machine.next] at h ⊢
      split at h
      · obtain ⟨answer, hperform, rfl⟩ := Option.map_eq_some_iff.mp h
        obtain ⟨hperform, _⟩ := Option.filter_eq_some_iff.mp hperform
        exact Option.map_eq_some_iff.mpr ⟨answer, hperform, rfl⟩
      · cases h
  | _ => exact h

/-- It is the scheduler, in some of its runs. -/
theorem sighted_reachable {p : Pool Cluster Action Action.Res Request Report}
    (h : (sightedScheduler cfg).Reachable p) : (scheduler cfg fun _ _ => True).Reachable p :=
  TSys.Reachable.mono (T := sightedScheduler cfg) (U := scheduler cfg fun _ _ => True)
    (fun _ hi => hi) (fun _ _ _ hstep => ⟨sighted_next hstep.1, fun _ _ => trivial⟩) h

/-- A lookup that finds the runtime without its lease shows the lease forfeited. -/
theorem lookup_forfeited {r : RuntimeResource}
    {answer : (Action.query (.schedulingSnapshot r.jobId none)).Res}
    (h : (machine cfg).Exec s (.query (.schedulingSnapshot r.jobId none)) answer s')
    (hgone : (r.ownership answer).isUnsafe = true) (hgranted : r.leaseId ∈ s.granted) :
    s'.Forfeited r.jobId r.workerId r.leaseId := by
  obtain ⟨rfl, hanswer | rfl⟩ := exec_query h
  · refine ⟨hgranted, fun row hrow hheld => ?_⟩
    rcases Tx.exec_cases (Query.schedulingSnapshot r.jobId none).tx s'.db with
      ⟨found, db', hcommits, hexec⟩ | ⟨e, _, hexec⟩
    · rw [hexec] at hanswer
      subst hanswer
      obtain ⟨hmissing, hshows⟩ := getJobSchedulingSnapshot_commits hcommits
      cases found with
      | none =>
          rw [hmissing rfl] at hrow
          cases hrow
      | some snap =>
          obtain ⟨row', hrow', hshows⟩ := hshows snap rfl
          obtain rfl := Option.some.inj (hrow'.symm.trans hrow)
          by_contra hlive
          -- the snapshot shows the lease on a live job
          have hstate : snap.job.state.isTerminal = false := by
            rw [hshows.job]
            exact Bool.eq_false_iff.mpr hlive
          have hlease : snap.lease = some ⟨r.workerId, r.leaseId⟩ := by
            obtain ⟨hworker, hlease⟩ := JobRow.heldBy_iff.mp hheld
            have hshown := hshows.lease
            rw [JobRow.lease, hworker, hlease] at hshown
            exact (Except.ok.inj hshown).symm
          have hactive : r.ownership (.ok (some snap)) = .activeMatchingLease := by
            rw [RuntimeResource.ownership, hstate, hlease]
            simp
          rw [hactive] at hgone
          cases hgone
    · rw [hexec] at hanswer
      subst hanswer
      cases hgone
  · cases hgone

/-- In the loop: the lease of a runtime that is about to be removed is forfeited. -/
theorem reconcileEach_forfeited {t : Time} {listed : List RuntimeResource}
    {remaining : List JobId} {steps : List Step} {r : RuntimeResource}
    {k : (Action.outside (.reap r)).Res → Task (List JobId)}
    (h : (Reconciler.reconcileEach cfg t listed remaining).Trace
      ((sighted cfg).Interleaved Cluster.Onward) s steps s' (.act (.outside (.reap r)) k))
    (hgranted : ∀ x ∈ listed, x.leaseId ∈ s.granted) :
    s'.Forfeited r.jobId r.workerId r.leaseId := by
  have honward : ∀ a x (answer : x.Res) b, (sighted cfg).Interleaved Cluster.Onward a x answer b →
      a.Onward b := fun a x answer b ⟨c, hlater, hexec⟩ =>
    hlater.trans (exec_onward (sighted_exec hexec).1)
  induction listed generalizing s steps remaining with
  | nil => exact nomatch h.of_done.2.2
  | cons resource rest ih =>
      obtain ⟨answer, since, s₁, s₂, hlook, hobserve, hcases⟩ := reconcileEach_reap h
      rcases hcases with ⟨rfl, rfl, heval, _⟩ |
        ⟨keeps, s₃, settled, after, remaining', hsettle, hrest, _⟩
      · obtain ⟨hgone, _⟩ := evaluateReap_reap heval
        obtain ⟨s₀, hlater, hexec⟩ := hlook
        have hold : r.leaseId ∈ s₀.granted := hlater.granted _ (hgranted r List.mem_cons_self)
        have hforfeited := lookup_forfeited (sighted_exec hexec).1 hgone hold
        exact (honward _ _ _ _ hobserve).forfeited _ _ _ hforfeited
      · refine ih hrest fun x hx => ?_
        have hstart := hgranted x (List.mem_cons_of_mem _ hx)
        have hthere := (honward _ _ _ _ hobserve).granted _ ((honward _ _ _ _ hlook).granted _ hstart)
        exact hsettle.keeps (P := fun s => x.leaseId ∈ s.granted) (settle_all cfg t resource _ since)
          (fun a y answer b _ hexec ha => (honward a y answer b hexec).granted _ ha) hthere

/-- In a pass. -/
theorem reconcileRuntimes_forfeited {t : Time} {steps : List Step} {r : RuntimeResource}
    {k : (Action.outside (.reap r)).Res → TaskOr String (List JobId)}
    (h : (Reconciler.reconcileRuntimes cfg t).Trace
      ((sighted cfg).Interleaved Cluster.Onward) s steps s' (.act (.outside (.reap r)) k)) :
    s'.Forfeited r.jobId r.workerId r.leaseId := by
  obtain ⟨listed, s₁, _, _, hlisted, hrest, rfl⟩ :=
    Trace.skip h (.try_ (.perform trivial)) (φ := Action.KeepsRuntimes) id
  rcases Trace.andThen_act hrest with ⟨_, hin⟩ | ⟨jobs, s₂, _, _, _, hlast, rfl⟩
  · obtain ⟨_, htrace⟩ := Trace.map_act hin
    refine reconcileEach_forfeited htrace fun x hx => ?_
    obtain ⟨answer, hok, hinventory⟩ := Trace.map_done hlisted
    obtain ⟨⟨s₀, _, hexec⟩, _⟩ := Trace.perform_done hinventory
    obtain ⟨hexec, hbelieves⟩ := sighted_exec hexec
    obtain rfl := exec_outside hexec
    cases answer with
    | error e => cases hok
    | ok resources =>
        obtain rfl := Except.ok.inj hok
        exact List.contains_iff_mem.mp (List.all_eq_true.mp hbelieves x hx)
  · have hkeeps : Action.KeepsRuntimes (.outside (.reap r)) :=
      (retain_keepsRuntimes listed jobs).path hlast.path
    exact absurd hkeeps id

end Sighted

/-- **The reaper never destroys a protected runtime.** Whatever the inventories, the lookups and
the other components answer, a pass at time `t` is about to remove a runtime `r` only if some
pass of the history, at a time `t₀` at least the grace period ago, began a series in which every
pass whose inventory succeeded, the present one included, listed `r` and found its job missing,
terminal or held under another lease, and in which no later pass restarted the period.

In every run of the scheduler over an engine that shows a runtime only after its lease was
granted, the row of the job of a runtime that is about to be removed does not hold the lease. -/
theorem reaper_spares_protected (cfg : Config) :
    (∀ passes m at_ steps m' r k, Passes cfg passes m →
      (Reconciler.reconcileRuntimes cfg at_).Trace (Observes cfg) m steps m'
        (.act (.outside (.reap r)) k) →
      ∃ t₀, (cfg.timing.reapGrace : Int) ≤ at_ - t₀ ∧
        ∃ since, since <:+ passes ++ [⟨at_, steps⟩] ∧ since.head?.map (·.at_) = some t₀ ∧
          (∀ pass ∈ since, pass.Finds r) ∧ ∀ pass ∈ since.tail, ¬ pass.Restarts r) ∧
    (sightedScheduler cfg).Invariant fun p => ∀ th ∈ p.threads, ∀ rounds r k,
      th.tag = .runOnce rounds → th.rest = .act (.outside (.reap r)) k →
      ∀ row, p.state.db.job? r.jobId = some row → row.heldBy r.workerId r.leaseId = false := by
  refine ⟨fun passes m at_ steps m' r k hpasses htrace => ?_, ?_⟩
  · obtain ⟨t₀, hgrace, hevidence⟩ := reconcileRuntimes_evidence htrace hpasses.recalls
    exact ⟨t₀, hgrace, hevidence.unprotected⟩
  · intro p hp th hth rounds r k htag hrest row hrow
    obtain ⟨s, steps, htrace, hlater⟩ := (sighted cfg).trace_invariant Cluster.Onward.refl
      Cluster.Onward.trans (fun _ _ _ hstep => next_onward (sighted_next hstep.1)) p hp th hth
    have htrace' : ((Request.runOnce rounds).prog cfg).Trace
        ((sighted cfg).Interleaved Cluster.Onward) th.birth steps s
          (.act (.outside (.reap r)) k) := by
      rw [← hrest, ← htag]
      exact htrace
    obtain ⟨at_, s₁, steps', k', hpass⟩ := runOnce_reap htrace'
    have hforfeited := hlater.forfeited _ _ _ (reconcileRuntimes_forfeited hpass)
    rw [← Bool.not_eq_true]
    intro hheld
    -- an ended job has no lease
    have hdb := scheduler_sound (scheduler_reachable (sighted_reachable hp))
    have hshape := shape_invariant _ _ (components_reachable hdb.reachable) r.jobId row hrow
    obtain ⟨_, _, _, _, hnone⟩ := hshape.terminal (hforfeited.2 row hrow hheld)
    rw [(JobRow.heldBy_iff.mp hheld).2] at hnone
    cases hnone

/-- A runtime of the lease of `Sample.dispatched`. -/
def Sample.runtime : RuntimeResource := ⟨"container", Sample.job, Sample.worker, Sample.lease', 4⟩

/-- The lease runs out, a pass recovers the job and sights the runtime, and a pass 200 seconds
later sights it again. -/
def Sample.sighted : List (Cmd Request Choice Outer) :=
  let go (s : Int) (k : Nat) : Cmd Request Choice Outer :=
    .act 0 { time := at_ s, clock := s * 1000000, draw := ⟨event k, lease', fun _ => false⟩,
             inventory := .ok [runtime] }
  dispatched ++ [.spawn (.runOnce 3)] ++ List.replicate 15 (go 500 2) ++
    [.finish 0, .spawn (.runOnce 3)] ++ List.replicate 5 (go 700 3)

example : ((sighted (Sample.config 3)).replay
    ⟨Cluster.boot (Sample.config 3) Sample.catalog, []⟩ Sample.sighted).any (fun p =>
      p.threads.any fun
        | ⟨.runOnce _, _, .act (.outside (.reap r)) _⟩ => decide (r = Sample.runtime)
        | _ => false) = true := by decide +kernel

end RunAnywhere
