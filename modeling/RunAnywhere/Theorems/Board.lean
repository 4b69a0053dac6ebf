import RunAnywhere.Scheduler.Requests
import RunAnywhere.Theorems.Tickets

/-!
# The scheduler runs a board

Every step of the scheduler is a run of the board of its jobs (`scheduler_moves`), so a run is
one too: what holds of boards holds of the scheduler (`scheduler_on_board`). The measure of a
ticket bounds how often its job moves, whatever the threads, the API and the crashes do.
-/

namespace RunAnywhere

open Logic Machine

variable {m : Nat}

/-! ## The cluster -/

/-- The board of a cluster: its jobs as tickets, and the leases granted so far. -/
def Cluster.board (s : Cluster) : Board JobId WorkerId LeaseId JobOutcome :=
  ⟨s.db.tickets, {l | l ∈ s.granted}⟩

/-- The board of `s'` comes after that of `s`. -/
def Cluster.Moves (m : Nat) (s s' : Cluster) : Prop :=
  ∃ ms, (Logic.board (jobRules m)).Run s.board ms s'.board

theorem Cluster.Moves.of_eq {s s' : Cluster} (hdb : s'.db = s.db)
    (hgranted : s'.granted = s.granted) : s.Moves m s' := by
  refine ⟨[], ?_⟩
  unfold Cluster.board
  rw [hdb, hgranted]
  exact .nil _

/-- An exchange with JetStream writes no row and grants nothing. -/
theorem StreamCall.run_board (x : StreamCall) (s : Cluster) (c : Choice) :
    (x.run s c).2.db = s.db ∧ (x.run s c).2.granted = s.granted := by
  have hexchange : ∀ fate f, (s.exchange fate f).db = s.db ∧
      (s.exchange fate f).granted = s.granted := by
    intro fate f
    unfold Cluster.exchange
    split <;> exact ⟨rfl, rfl⟩
  cases x with
  | publish | doubleAck | term => exact hexchange _ _
  | publishDead | progress | nak => exact ⟨rfl, rfl⟩
  | deleteMessage n =>
      simp only [StreamCall.run]
      split
      · exact hexchange _ _
      · split
        · exact hexchange _ _
        · exact ⟨rfl, rfl⟩
  | getRawMessage n =>
      simp only [StreamCall.run]
      repeat' split
      all_goals exact ⟨rfl, rfl⟩

/-- The rows the components reach. -/
theorem components_ready (hm : 0 < m) {db : Db} (hr : (components m).Reachable db) (j : JobId)
    (row : JobRow) (hrow : db.job? j = some row) : row.Ready m := by
  have hr' := components_reachable hr
  refine ⟨Db.job?_checks hrow, shape_invariant _ db hr' j row hrow, ?_,
    driven_invariant db hr' j row hrow⟩
  have hlimited : (repository (Op.RecoversWith m)).Reachable db :=
    TSys.Reachable.mono (T := components m) (U := repository (Op.RecoversWith m))
      (fun _ hi => hi) (fun _ _ _ hstep => ⟨hstep.1.limit, hstep.2⟩) hr
  exact charged_invariant hm (fun _ h => h.within) db hlimited j row hrow

/-- A call that reaches the database. -/
theorem Cluster.Moves.execute (hm : 0 < m) {s s' : Cluster} (hr : (components m).Reachable s.db)
    {op : Op} {t : DbTime} {answer : Except RepositoryError op.Out}
    (hpermits : s.db.Permits m op) (hexec : s.execute op t = some (answer, s')) :
    s.Moves m s' := by
  rcases Tx.exec_cases (op.tx t) s.db with ⟨out, db', hc, hdone⟩ | ⟨e, _, hdone⟩
  · have hgrants : Call.grants ⟨op, t, .ok out⟩ = op.claimLease := rfl
    simp only [Cluster.execute, hdone, hgrants] at hexec
    split at hexec
    · next hfresh =>
        obtain ⟨_, rfl⟩ := Prod.mk.inj (Option.some.inj hexec)
        have hnew : ∀ l, op.claimLease = some l → l ∉ {l | l ∈ s.granted} := by
          intro l hl
          rw [hl] at hfresh
          exact of_decide_eq_true hfresh
        obtain ⟨ms, hrun⟩ := hpermits.board (components_ready hm hr) hc hnew
        have hset : {l | op.claimLease = some l} ∪ {l | l ∈ s.granted} =
            {l | l ∈ op.claimLease.toList ++ s.granted} := by
          ext l
          simp
        rw [hset] at hrun
        exact ⟨ms, hrun⟩
    · cases hexec
  · have hgrants : Call.grants ⟨op, t, .error e⟩ = none := rfl
    simp only [Cluster.execute, hdone, hgrants] at hexec
    obtain ⟨_, rfl⟩ := Prod.mk.inj (Option.some.inj hexec)
    exact .of_eq rfl rfl

/-! ## The scheduler -/

section Scheduler

variable {cfg : Config}

/-- **Refinement.** Every step of the scheduler is a run of the board: an action of a thread, a
move of the API or of an administrator, a crash. -/
theorem scheduler_moves (hm : 0 < cfg.maxRunAttempts)
    {p p' : Pool Cluster Action Action.Res Request Report} {c : Cmd Request Choice Outer}
    (hp : (scheduler cfg fun _ _ => True).Reachable p)
    (hstep : (scheduler cfg fun _ _ => True).step p c p') :
    p.state.Moves cfg.maxRunAttempts p'.state := by
  refine (scheduler_respects cfg false).relates (boot_sound cfg false)
    (R := Cluster.Moves cfg.maxRunAttempts) (fun s => .of_eq rfl rfl) ?_ ?_
    (fun s _ => .of_eq rfl rfl) (scheduler_reachable hp)
    ⟨hstep.1, fun _ _ h => absurd h Bool.false_ne_true⟩
  · intro s x r s' hs _ hx hexec
    cases x with
    | query q =>
        obtain ⟨rfl, _⟩ := exec_query hexec
        exact .of_eq rfl rfl
    | call op =>
        rcases exec_call hexec with ⟨rfl, _⟩ | ⟨t, answer, hexecute, _⟩
        · exact .of_eq rfl rfl
        · exact .execute hm (Cluster.Sound.reachable hs) hx.1 hexecute
    | stream x =>
        obtain ⟨c, hrun⟩ := exec_stream hexec
        obtain ⟨hdb, hgranted⟩ := x.run_board s c
        rw [hrun] at hdb hgranted
        exact .of_eq hdb hgranted
    | memory x =>
        obtain ⟨_, rfl⟩ := exec_memory hexec
        exact .of_eq rfl rfl
    | outside x =>
        obtain rfl := exec_outside hexec
        exact .of_eq rfl rfl
    | stop => cases r
  · intro s e s' hs he
    cases e with
    | api op t =>
        have he' : (if op.isOuter && s.freshFor op then (s.execute op t).map Prod.snd else none) =
            some s' := he
        split at he'
        · next hcond =>
            obtain ⟨houter, _⟩ := Bool.and_eq_true_iff.mp hcond
            obtain ⟨⟨answer, s₁⟩, hexecute, rfl⟩ := Option.map_eq_some_iff.mp he'
            have hplain : op.isPlain = true := by cases op <;> first | rfl | cases houter
            exact .execute hm (Cluster.Sound.reachable hs) (Cluster.permits_of_isPlain hplain)
              hexecute
        · cases he'
    | publishForeign traceContext payload =>
        obtain rfl := Option.some.inj he
        exact .of_eq rfl rfl

theorem scheduler_proj (hm : 0 < cfg.maxRunAttempts) :
    TSys.Proj (scheduler cfg fun _ _ => True) (board (jobRules cfg.maxRunAttempts))
      fun p => p.state.board := by
  refine ⟨?_, fun p c p' hp hstep => scheduler_moves hm hp hstep⟩
  rintro p ⟨⟨catalog, hboot⟩, _⟩
  rw [hboot]
  exact ⟨fun _ => rfl, by ext l; simp [Cluster.board, Cluster.boot]⟩

/-- The rows of a reachable pool. -/
theorem scheduler_ready (hm : 0 < cfg.maxRunAttempts)
    {p : Pool Cluster Action Action.Res Request Report}
    (hp : (scheduler cfg fun _ _ => True).Reachable p) (j : JobId) (row : JobRow)
    (hrow : p.state.db.job? j = some row) : row.Ready cfg.maxRunAttempts :=
  components_ready hm (scheduler_sound (scheduler_reachable hp)).reachable j row hrow

/-- The ticket of a row. -/
theorem Cluster.board_ticket {s : Cluster} {j : JobId} {row : JobRow}
    (h : s.db.job? j = some row) : s.board.ticket j = some row.ticket := by
  show (s.db.job? j).map JobRow.ticket = some row.ticket
  rw [h]
  rfl

end Scheduler

/-- **The scheduler runs a board.** Whatever its threads, the API and crashes do, in whatever
order, the jobs are tickets on a board that grants every job at most `max_run_attempts` times:

* a run of the scheduler is a run of the board, and however long it is it moves a job at most
  `10 * (max_run_attempts + 1)` times;
* a lease is on one job, and what has lost it never has it again;
* a cancelled job stays cancelled, and a job that has ended stays as it ended. -/
theorem scheduler_on_board {cfg : Config} (hm : 0 < cfg.maxRunAttempts)
    {p p' : Pool Cluster Action Action.Res Request Report} {cs : List (Cmd Request Choice Outer)}
    (hp : (scheduler cfg fun _ _ => True).Reachable p)
    (hrun : (scheduler cfg fun _ _ => True).Run p cs p') :
    (board (jobRules cfg.maxRunAttempts)).Reachable p.state.board ∧
    (∃ ms, (board (jobRules cfg.maxRunAttempts)).Run p.state.board ms p'.state.board ∧
      ∀ j, ms.countP (fun x => decide (x.1 = j)) ≤ 10 * (cfg.maxRunAttempts + 1)) ∧
    (∀ j j' row row' l, p.state.db.job? j = some row → p.state.db.job? j' = some row' →
      row.leaseId = some l → row'.leaseId = some l → j' = j) ∧
    (∀ j, ∀ l ∈ p.state.granted, (∀ row, p.state.db.job? j = some row → row.leaseId ≠ some l) →
      ∀ row', p'.state.db.job? j = some row' → row'.leaseId ≠ some l) ∧
    ∀ j row, p.state.db.job? j = some row → ∃ row', p'.state.db.job? j = some row' ∧
      (row.pendingOutcome = some .cancelled → row'.pendingOutcome = some .cancelled) ∧
      ∀ o, row.state.terminalOutcome = some o → row'.state.terminalOutcome = some o ∧
        row'.deliveryAttempts = row.deliveryAttempts := by
  have htop : 0 < (jobRules cfg.maxRunAttempts).top := Nat.succ_pos _
  have hreach := (scheduler_proj hm).reachable hp
  have hsound := Board.sound_invariant htop _ hreach
  obtain ⟨ms, hmoves⟩ := (scheduler_proj hm).run hp hrun
  have hready := scheduler_ready hm hp
  have hready' := scheduler_ready hm (hp.run hrun)
  refine ⟨hreach, ⟨ms, hmoves, fun j => ?_⟩, ?_, ?_, ?_⟩
  · obtain ⟨hsound', hpaid⟩ := Board.moved_le htop hsound hmoves j
    have hbound : Ticket.measure (jobRules cfg.maxRunAttempts) (p'.state.board.ticket j) ≤
        10 * (cfg.maxRunAttempts + 1) :=
      Ticket.measure_le fun t ht => hsound'.within j t ht
    omega
  · intro j j' row row' l hrow hrow' hl hl'
    exact hsound.single j j' _ _ l (Cluster.board_ticket hrow) (Cluster.board_ticket hrow')
      ((hready j row hrow).heldUnder_iff.mpr hl) ((hready j' row' hrow').heldUnder_iff.mpr hl')
  · intro j l hl hlost row' hrow' hl'
    have hnot : ∀ t, p.state.board.ticket j = some t → ¬ t.HeldUnder l := by
      intro t ht
      obtain ⟨row, hrow, rfl⟩ := Option.map_eq_some_iff.mp ht
      rw [(hready j row hrow).heldUnder_iff]
      exact hlost row hrow
    exact (Board.lost_run hmoves hl hnot).2 _ (Cluster.board_ticket hrow')
      ((hready' j row' hrow').heldUnder_iff.mpr hl')
  · intro j row hrow
    have hl := (scheduler_respects cfg false).run_later (boot_sound cfg false)
      (scheduler_reachable hp) (scheduler_run hrun)
    obtain ⟨row', hrow', _⟩ := (Cluster.Later.db hl).queued
      (scheduler_sound (scheduler_reachable hp)).reachable hrow
    refine ⟨row', hrow', fun hcancelled => ?_, fun o ho => ?_⟩
    · have hshown := (hready j row hrow).verdict_eq.trans hcancelled
      obtain ⟨t, ht, hverdict⟩ := Board.cancelled_run hmoves
        ⟨row.ticket, Cluster.board_ticket hrow, hshown⟩
      obtain rfl := Option.some.inj ((Cluster.board_ticket hrow').symm.trans ht)
      rw [← (hready' j row' hrow').verdict_eq, hverdict]
      rfl
    · have hticket := Cluster.board_ticket hrow
      rw [JobRow.ticket_closed ho] at hticket
      have hclosed := Board.closed_run hmoves hticket
      rw [Cluster.board_ticket hrow'] at hclosed
      exact JobRow.of_closed (Option.some.inj hclosed)

/-- A job that is claimed, abandoned and given up. -/
theorem scheduler_on_board_exhausted : ∃ p p' row row' cs ms,
    (scheduler (Sample.config 1) fun _ _ => True).Run p cs p' ∧
    p.state.db.job? Sample.job = some row ∧ row.leaseId = some Sample.lease' ∧
    p'.state.db.job? Sample.job = some row' ∧ row'.leaseId = none ∧
    (board (jobRules 1)).Run p.state.board ms p'.state.board ∧
    ms.countP (fun x => decide (x.1 = Sample.job)) ≤ 20 := by
  have hpools : (Sample.pool? (Sample.config 1) Sample.dispatched).any (fun p =>
      (p.state.db.job? Sample.job).any (fun row => decide (row.leaseId = some Sample.lease')) &&
      ((machine (Sample.config 1)).replay p (.spawn (.runOnce 3) :: Sample.goes 0 500 2 4)).any
        fun p' => (p'.state.db.job? Sample.job).any fun row => decide (row.leaseId = none)) =
      true := by decide +kernel
  obtain ⟨p, hpool, hrest⟩ := (Option.any_eq_true _ _).mp hpools
  obtain ⟨hleased, hafter⟩ := Bool.and_eq_true_iff.mp hrest
  obtain ⟨row, hrow, hlease⟩ := (Option.any_eq_true _ _).mp hleased
  obtain ⟨p', hpool', hleft⟩ := (Option.any_eq_true _ _).mp hafter
  obtain ⟨row', hrow', hlease'⟩ := (Option.any_eq_true _ _).mp hleft
  have hrun : (scheduler (Sample.config 1) fun _ _ => True).Run p
      (.spawn (.runOnce 3) :: Sample.goes 0 500 2 4) p' :=
    (machine (Sample.config 1)).replay_run hpool'
  obtain ⟨ms, hmoves, hcount⟩ := (scheduler_on_board Nat.one_pos (Sample.reachable hpool) hrun).2.1
  exact ⟨p, p', row, row', _, ms, hrun, hrow, of_decide_eq_true hlease, hrow',
    of_decide_eq_true hlease', hmoves, hcount Sample.job⟩

end RunAnywhere
