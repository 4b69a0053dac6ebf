import RunAnywhere.Theorems.Fencing

/-!
# Heartbeats and lease expiry

A heartbeat renews a live lease exactly while the job has no pending outcome
(`heartbeat_renews_iff`): the WHERE clause of the extension asks for
`pending_outcome IS NULL`. Up to then a worker that heartbeats in time never lets
its lease run out (`lastBeat_le_expiry`), so no recovery can take the job for its
expiry; once an outcome is recorded the lease can only run out.
-/

namespace RunAnywhere

open Logic

/-- The heartbeat answered that lease `l` of `j` was extended, to `ttl` from the
recorded time. -/
def Renewed (receipt : HeartbeatReceipt) (db' : Db) (j : JobId) (l : LeaseId) (ttl : Int) : Prop :=
  ⟨j, l⟩ ∈ receipt.extended ∧
    ∃ row', db'.job? j = some row' ∧ row'.leaseExpiresAt = some (receipt.recordedAt + ttl)

/-- A duration of whole seconds, the only kind the scheduler's settings admit. -/
def WholeSeconds (ttl : Int) : Prop := 1000000 ∣ ttl

theorem numSeconds_eq_iff (ttl : Int) : numSeconds ttl * 1000000 = ttl ↔ WholeSeconds ttl := by
  constructor
  · intro h
    exact ⟨numSeconds ttl, by rw [Int.mul_comm]; exact h.symm⟩
  · intro h
    exact Int.tdiv_mul_cancel h

/-- **Renewal.** An accepted heartbeat renews a live listed lease exactly when no
outcome is pending (and the duration is of whole seconds). -/
theorem heartbeat_renews_iff {db db' : Db} {heartbeat : WorkerHeartbeat} {ttl : Int} {t : DbTime}
    {receipt : HeartbeatReceipt} {j : JobId} {l : LeaseId} {row : JobRow} {e : Time}
    (h : (recordHeartbeat heartbeat ttl t).Commits db receipt db')
    (hlisted : ⟨j, l⟩ ∈ heartbeat.leaseExtends) (hrow : db.job? j = some row)
    (hw : row.workerId = some heartbeat.workerId) (hl : row.leaseId = some l)
    (he : row.leaseExpiresAt = some e) (hexp : t.clock < e)
    (hlive : row.state.isTerminal = false) :
    Renewed receipt db' j l ttl ↔ row.pendingOutcome = none ∧ WholeSeconds ttl := by
  obtain ⟨_, _, _, _, _, rfl, _, _, hreceipt, hjobs⟩ := recordHeartbeat_commits h
  -- a leased row is not queued
  have hqueued : row.state ≠ .queued := by
    intro hq
    rw [((Db.job?_checks hrow).queuedUnassigned hq).2] at hl
    cases hl
  have hguard : extendGuard heartbeat.workerId l t.clock row = true ↔
      row.pendingOutcome = none := by
    rw [extendGuard_iff]
    constructor
    · exact fun hg => hg.2.2.2.1
    · exact fun hp => ⟨hw, hl, ⟨e, he, hexp⟩, hp, hqueued, hlive⟩
  have hextended : ⟨j, l⟩ ∈ receipt.extended ↔ row.pendingOutcome = none := by
    rw [hreceipt.extended, List.mem_filter, decide_eq_true_eq]
    show _ ∧ extensionOutcome heartbeat.workerId t.clock l (db.job? j) = .extended ↔ _
    rw [hrow, ← hguard]
    unfold extensionOutcome
    constructor
    · rintro ⟨_, hout⟩
      split at hout
      · next hg => simpa using hg
      · split at hout <;> cases hout
    · intro hg
      exact ⟨hlisted, by simp [hg]⟩
  unfold Renewed
  rw [hextended]
  refine and_congr_right fun hp => ?_
  have hx : extendable heartbeat.workerId t.clock heartbeat.leaseExtends j row = true :=
    extendable_iff.mpr ⟨_, hlisted, rfl, hguard.mpr hp⟩
  have hafter : db'.job? j = some (row.extended t.clock (numSeconds ttl)) := by
    rw [hjobs j, hrow]
    simp [JobRow.afterHeartbeat, hx]
  rw [hreceipt.recordedAt, ← numSeconds_eq_iff]
  constructor
  · rintro ⟨row', hrow', hexpires⟩
    rw [hafter] at hrow'
    obtain rfl := Option.some.inj hrow'
    have heq : t.clock + numSeconds ttl * 1000000 = t.clock + ttl := Option.some.inj hexpires
    exact Int.add_left_cancel heq
  · intro hwhole
    refine ⟨_, hafter, ?_⟩
    show some (t.clock + numSeconds ttl * 1000000) = some (t.clock + ttl)
    rw [hwhole]

/-! ## Runs of a punctual worker -/

/-- The call is an accepted heartbeat of `w` that lists lease `l` of `j`. -/
def Call.beats (w : WorkerId) (j : JobId) (l : LeaseId) (call : Call) : Bool :=
  call.answer.isOk && match call.op with
    | .recordHeartbeat heartbeat _ =>
        decide (heartbeat.workerId = w) && decide (⟨j, l⟩ ∈ heartbeat.leaseExtends)
    | _ => false

theorem Call.beats_iff {w : WorkerId} {j : JobId} {l : LeaseId} {call : Call} :
    call.beats w j l = true ↔ call.answer.isOk = true ∧
      ∃ heartbeat ttl, call.op = .recordHeartbeat heartbeat ttl ∧ heartbeat.workerId = w ∧
        ⟨j, l⟩ ∈ heartbeat.leaseExtends := by
  unfold Call.beats
  rw [Bool.and_eq_true]
  refine and_congr_right fun _ => ?_
  constructor
  · intro h
    split at h
    · next heartbeat ttl hop =>
        simp only [Bool.and_eq_true, decide_eq_true_eq] at h
        exact ⟨heartbeat, ttl, hop, h.1, h.2⟩
    · cases h
  · rintro ⟨heartbeat, ttl, hop, rfl, hmem⟩
    rw [hop]
    simp [hmem]

/-- The time of the last accepted heartbeat for the lease, `start` before any. -/
def lastBeat (w : WorkerId) (j : JobId) (l : LeaseId) (start : Time) (calls : List Call) : Time :=
  calls.foldl (fun last call => if call.beats w j l then call.time.clock else last) start

theorem lastBeat_snoc (w : WorkerId) (j : JobId) (l : LeaseId) (start : Time)
    (calls : List Call) (call : Call) : lastBeat w j l start (calls ++ [call]) =
      if call.beats w j l then call.time.clock else lastBeat w j l start calls := by
  simp [lastBeat]

/-- Every call of the run comes less than `ttl` after the last accepted heartbeat
for the lease, and heartbeats are recorded with that `ttl`. -/
structure Punctual (w : WorkerId) (j : JobId) (l : LeaseId) (ttl : Int) (start : Time)
    (calls : List Call) : Prop where
  inTime : ∀ pre call post, calls = pre ++ call :: post →
    call.time.clock < lastBeat w j l start pre + ttl
  ttl : ∀ call ∈ calls, ∀ heartbeat ttl', call.op = .recordHeartbeat heartbeat ttl' → ttl' = ttl

theorem Punctual.init {w : WorkerId} {j : JobId} {l : LeaseId} {ttl : Int} {start : Time}
    {calls : List Call} {call : Call} (h : Punctual w j l ttl start (calls ++ [call])) :
    Punctual w j l ttl start calls := by
  refine ⟨fun pre c post hc => h.inTime pre c (post ++ [call]) ?_,
    fun c hc => h.ttl c (List.mem_append_left _ hc)⟩
  rw [hc, List.append_assoc, List.cons_append]

/-- A change that leaves lease `l` and no outcome on the row keeps its owner and
expiry, or is a heartbeat of the owner that lists the lease. -/
theorem RowChange.expiry {op : Op} {t : DbTime} {j : JobId} {old : Option JobRow} {new : JobRow}
    {l : LeaseId} (h : RowChange op t j old new) (hl : new.leaseId = some l)
    (hp : new.pendingOutcome = none) :
    op.claimLease = some l ∨ ∃ row ∈ old, row.workerId = new.workerId ∧ row.leaseId = some l ∧
      row.pendingOutcome = none ∧ (row.leaseExpiresAt = new.leaseExpiresAt ∨
        ∃ heartbeat ttl, op = .recordHeartbeat heartbeat ttl ∧
          new.workerId = some heartbeat.workerId ∧ ⟨j, l⟩ ∈ heartbeat.leaseExtends) := by
  cases h with
  | create => cases hl
  | cancel => cases hp
  | claim => exact Or.inl hl
  | @transition _ _ target evidence _ _ _ _ row _ _ =>
      right
      have hl' : (if target.terminalOutcome.isSome then none else row.leaseId) = some l := hl
      have hp' : evidence.pendingOutcome.or row.pendingOutcome = none := hp
      split at hl'
      · cases hl'
      next hends =>
      refine ⟨row, rfl, rfl, hl', (Option.or_eq_none_iff.mp hp').2, Or.inl ?_⟩
      show row.leaseExpiresAt = if target.terminalOutcome.isSome then none else row.leaseExpiresAt
      rw [if_neg hends]
  | result => cases hp
  | @heartbeat heartbeat ttl extension t row _ hmem hguard =>
      right
      obtain ⟨hw, hl', _⟩ := extendGuard_iff.mp hguard
      obtain rfl := Option.some.inj (hl'.symm.trans hl)
      exact ⟨row, rfl, rfl, hl, hp, Or.inr ⟨heartbeat, ttl, rfl, hw, hmem⟩⟩
  | @recover stale maxDeliver _ _ row _ =>
      have hnone : (row.recovered (recoveryKind stale maxDeliver row)).leaseId = none := by
        cases recoveryKind stale maxDeliver row <;> rfl
      rw [hnone] at hl
      cases hl

/-- A call that touches the row of a job committed, unless the row is the same. -/
theorem repository_step_ok {Allowed : Op → Prop} {db db' : Db} {call : Call}
    (h : (repository Allowed).step db call db') {j : JobId} (hne : db'.job? j ≠ db.job? j) :
    call.answer.isOk = true := by
  rcases repository_step_cases h with ⟨out, ha, _⟩ | ⟨_, rfl⟩
  · rw [ha]; rfl
  · exact absurd rfl hne

/-- The row of `j` is leased to `(w, l)` and no outcome is recorded. -/
structure JobRow.Working (w : WorkerId) (l : LeaseId) (row : JobRow) : Prop where
  worker : row.workerId = some w
  lease : row.leaseId = some l
  pending : row.pendingOutcome = none

/-- **One step.** If the lease runs at least to `ttl` after the last heartbeat, it
still does after a punctual step. -/
theorem expiry_step {Allowed : Op → Prop} {s s' : Ledger} {call : Call} {w : WorkerId} {j : JobId}
    {l : LeaseId} {ttl : Int} {last : Time} (hwhole : WholeSeconds ttl)
    (hs : (fenced Allowed).Reachable s) (hgranted : l ∈ s.granted)
    (hstep : (fenced Allowed).step s call s') (hintime : call.time.clock < last + ttl)
    (httl : ∀ heartbeat ttl', call.op = .recordHeartbeat heartbeat ttl' → ttl' = ttl)
    (ih : ∀ row, s.db.job? j = some row → row.Working w l →
      ∃ e, row.leaseExpiresAt = some e ∧ last + ttl ≤ e)
    {row' : JobRow} (hrow' : s'.db.job? j = some row') (hwork' : row'.Working w l) :
    ∃ e, row'.leaseExpiresAt = some e ∧
      (if call.beats w j l then call.time.clock else last) + ttl ≤ e := by
  obtain ⟨hw', hl', hp'⟩ := hwork'
  -- the row before: same owner, same lease, no outcome
  have hbefore : ∃ row, s.db.job? j = some row ∧ row.Working w l ∧
      (row.leaseExpiresAt = row'.leaseExpiresAt ∨ call.beats w j l = true) := by
    rcases repository_step_rows hstep.1 j with ⟨hsame, _⟩ | ⟨new, hnew, hchange⟩
    · exact ⟨row', hsame ▸ hrow', ⟨hw', hl', hp'⟩, Or.inl rfl⟩
    obtain rfl := Option.some.inj (hnew.symm.trans hrow')
    by_cases hsame : s'.db.job? j = s.db.job? j
    · exact ⟨new, hsame ▸ hrow', ⟨hw', hl', hp'⟩, Or.inl rfl⟩
    have hok := repository_step_ok hstep.1 hsame
    rcases hchange.expiry hl' hp' with hclaim | ⟨row, hrow, hw, hl, hp, hexp⟩
    · refine absurd hgranted (hstep.2.1 l ?_)
      show call.grants = some l
      unfold Call.grants
      rw [if_pos hok, hclaim]
    · refine ⟨row, hrow, ⟨hw.trans hw', hl, hp⟩, ?_⟩
      rcases hexp with hexp | ⟨heartbeat, ttl', hop, hwh, hmem⟩
      · exact Or.inl hexp
      · have hwid : heartbeat.workerId = w := Option.some.inj (hwh.symm.trans hw')
        exact Or.inr (Call.beats_iff.mpr ⟨hok, heartbeat, ttl', hop, hwid, hmem⟩)
  obtain ⟨row, hrow, hwork, hexp⟩ := hbefore
  obtain ⟨e, he, hle⟩ := ih row hrow hwork
  by_cases hbeat : call.beats w j l = true
  · -- the heartbeat finds the lease live and renews it
    rw [if_pos hbeat]
    obtain ⟨hok, heartbeat, ttl', hop, rfl, hmem⟩ := Call.beats_iff.mp hbeat
    obtain rfl := httl heartbeat ttl' hop
    obtain ⟨op, t, answer⟩ := call
    cases hop
    rcases repository_step_cases hstep.1 with ⟨receipt, _, hc⟩ | ⟨⟨err, herr⟩, _⟩
    · have hshape := shape_invariant Allowed s.db ((fenced_proj Allowed).reachable hs) j row hrow
      have hlive : row.state.isTerminal = false := by
        by_contra ht
        have := (hshape.terminal (by simpa using ht)).2.2.2.2
        rw [hwork.lease] at this
        cases this
      obtain ⟨_, row'', hrow'', hexpires⟩ := (heartbeat_renews_iff hc hmem hrow hwork.worker
        hwork.lease he (lt_of_lt_of_le hintime hle) hlive).mpr ⟨hwork.pending, hwhole⟩
      obtain rfl := Option.some.inj (hrow''.symm.trans hrow')
      obtain ⟨_, _, _, _, _, _, _, _, hreceipt, _⟩ := recordHeartbeat_commits hc
      rw [hreceipt.recordedAt] at hexpires
      exact ⟨_, hexpires, le_refl _⟩
    · have herr' : answer = .error err := herr
      have hok' : answer.isOk = true := hok
      rw [herr'] at hok'
      cases hok'
  · rw [if_neg hbeat]
    rcases hexp with hexp | h
    · exact ⟨e, hexp ▸ he, hle⟩
    · exact absurd h hbeat

/-- **A punctual run.** While the lease is on the row and no outcome is recorded,
it runs at least to `ttl` after the last heartbeat. -/
theorem lastBeat_le_expiry {Allowed : Op → Prop} {s s' : Ledger} {calls : List Call} {w : WorkerId}
    {j : JobId} {l : LeaseId} {ttl : Int} {start e₀ : Time} {row₀ : JobRow}
    (hwhole : WholeSeconds ttl) (hs : (fenced Allowed).Reachable s)
    (hrow₀ : s.db.job? j = some row₀) (hl₀ : row₀.leaseId = some l)
    (he₀ : row₀.leaseExpiresAt = some e₀) (hstart : start + ttl ≤ e₀)
    (hrun : (fenced Allowed).Run s calls s') (hpunctual : Punctual w j l ttl start calls) :
    ∀ row, s'.db.job? j = some row → row.Working w l →
      ∃ e, row.leaseExpiresAt = some e ∧ lastBeat w j l start calls + ttl ≤ e := by
  have hgranted : l ∈ s.granted := leases_granted Allowed s hs j l ⟨row₀, hrow₀, hl₀⟩
  induction hrun with
  | nil =>
      intro row hrow _
      obtain rfl := Option.some.inj (hrow₀.symm.trans hrow)
      exact ⟨e₀, he₀, hstart⟩
  | @snoc calls s₁ call s₂ hrun hstep ih =>
      intro row hrow hwork
      have hg₁ : l ∈ s₁.granted := by
        refine TSys.Run.preserves (P := fun s => l ∈ s.granted) (fun a c b _ hg hst => ?_) hrun hs
          hgranted
        rw [hst.2.2]
        exact List.mem_append_right _ hg
      rw [lastBeat_snoc]
      exact expiry_step hwhole (hs.run hrun) hg₁ hstep (hpunctual.inTime calls call [] rfl)
        (hpunctual.ttl call (by simp)) (ih hpunctual.init) hrow hwork

/-- **Heartbeats.** In every reachable state, an accepted heartbeat renews a listed
lease that is live and was not cancelled exactly when no outcome is recorded (and
the duration is of whole seconds). In every run of a punctual worker, a recovery
that takes a job before an outcome is recorded finds its lease live, and does not
take it for its expiry. -/
theorem heartbeat_keeps_lease (Allowed : Op → Prop) {s : Ledger}
    (hs : (fenced Allowed).Reachable s) (w : WorkerId) (j : JobId) (l : LeaseId) (ttl : Int)
    {row : JobRow} {e : Time} (hrow : s.db.job? j = some row) (hw : row.workerId = some w)
    (hl : row.leaseId = some l) (he : row.leaseExpiresAt = some e) :
    (∀ t heartbeat receipt db', heartbeat.workerId = w → ⟨j, l⟩ ∈ heartbeat.leaseExtends →
      (recordHeartbeat heartbeat ttl t).Commits s.db receipt db' → t.clock < e →
      row.state.isTerminal = false → row.pendingOutcome ≠ some .cancelled →
      (Renewed receipt db' j l ttl ↔ row.pendingOutcome = none ∧ WholeSeconds ttl)) ∧
    ∀ start calls s₁ call s₂ row₁, WholeSeconds ttl → start + ttl ≤ e →
      (fenced Allowed).Run s calls s₁ → (fenced Allowed).step s₁ call s₂ →
      Punctual w j l ttl start (calls ++ [call]) → s₁.db.job? j = some row₁ →
      row₁.Working w l → ¬ s₂.db.LeasedUnder j l →
      ∀ stale maxDeliver eventId, call.op = .recoverStaleJob stale maxDeliver eventId →
        call.time.clock < stale.leaseExpiresAt ∧
        (stale.leaseExpiredBefore ≤ call.time.clock →
          ¬ stale.leaseExpiresAt ≤ stale.leaseExpiredBefore) := by
  refine ⟨?_, ?_⟩
  · rintro t heartbeat receipt db' rfl hmem hc hexp hlive _
    exact heartbeat_renews_iff hc hmem hrow hw hl he hexp hlive
  · intro start calls s₁ call s₂ row₁ hwhole hstart hrun hstep hpunctual hrow₁ hwork hoff stale
      maxDeliver eventId hop
    obtain ⟨e₁, he₁, hle⟩ :=
      lastBeat_le_expiry hwhole hs hrow hl he hstart hrun hpunctual.init row₁ hrow₁ hwork
    -- the recovery's snapshot carries the expiry of the row it found
    rcases repository_step_rows hstep.1 j with ⟨hsame, _⟩ | ⟨new, hnew, hchange⟩
    · exact absurd ⟨row₁, hsame.trans hrow₁, hwork.lease⟩ hoff
    rw [hop, hrow₁] at hchange
    have hfence : Recoverable stale row₁ := by
      cases hchange with
      | recover hfence => exact hfence
    have hexpires : stale.leaseExpiresAt = e₁ :=
      Option.some.inj (hfence.expires.symm.trans he₁)
    have hclock : call.time.clock < stale.leaseExpiresAt := by
      rw [hexpires]
      exact lt_of_lt_of_le (hpunctual.inTime calls call [] rfl) hle
    exact ⟨hclock, fun hcut hexp => absurd (le_trans hexp hcut) (not_le_of_gt hclock)⟩

namespace Sample

/-- A heartbeat of the owner that lists its lease. -/
def beat : WorkerHeartbeat :=
  ⟨worker, 1, 2, [.redroid], false, false, .x86_64, [⟨job, lease⟩], 0⟩

/-- The passed job; its owner goes on to heartbeat once a minute. -/
def ignoredBeats : List (Op × DbTime) :=
  [(.recordHeartbeat beat 75000000, at_ 9), (.recordHeartbeat beat 75000000, at_ 69),
    (.recordHeartbeat beat 75000000, at_ 129)]

end Sample

/-- A heartbeat during the tests renews the lease. -/
theorem heartbeat_keeps_lease_running : ∃ row, ∃ e,
    (Sample.after Sample.running).job? Sample.job = some row ∧ row.leaseExpiresAt = some e ∧
    ∀ receipt db', (recordHeartbeat Sample.beat 75000000 (Sample.at_ 9)).Commits
      (Sample.after Sample.running) receipt db' →
      Renewed receipt db' Sample.job Sample.lease 75000000 := by
  obtain ⟨granted, hreach⟩ := @Sample.after_fenced Sample.running (by decide +kernel)
  have hfacts : ((Sample.after Sample.running).job? Sample.job).map (fun row => (row.workerId,
      row.leaseId, row.leaseExpiresAt, row.pendingOutcome, row.state)) =
      some (some Sample.worker, some Sample.lease, some 100000000, none, .runningTests) := by
    decide +kernel
  generalize Sample.after Sample.running = db at hreach hfacts ⊢
  obtain ⟨row, hrow, hfields⟩ := Option.map_eq_some_iff.mp hfacts
  simp only [Prod.mk.injEq] at hfields
  obtain ⟨hw, hl, he, hp, hstate⟩ := hfields
  refine ⟨row, 100000000, hrow, he, fun receipt db' hc => ?_⟩
  refine ((heartbeat_keeps_lease (fun _ => True) hreach Sample.worker Sample.job Sample.lease
    75000000 hrow hw hl he).1 (Sample.at_ 9) Sample.beat receipt db' rfl (by decide) hc (by decide)
    (by rw [hstate]; rfl) (by rw [hp]; decide)).mpr ⟨hp, ⟨75, rfl⟩⟩

/-- **A lost lease.** The tests passed under a live lease and nobody cancelled. The
owner's heartbeats are accepted but not one extends the lease; it runs out, and
the finished job is requeued for its expiry. -/
theorem heartbeats_after_outcome_lose_lease :
    let db := Sample.after Sample.passed
    (∃ granted, (fenced fun _ => True).Reachable ⟨db, granted⟩) ∧
    (db.job? Sample.job).map (fun row => (row.workerId, row.leaseId, row.leaseExpiresAt,
      row.state, row.pendingOutcome)) = some (some Sample.worker, some Sample.lease,
        some 100000000, .runningTests, some .passed) ∧
    ((recordHeartbeat Sample.beat 75000000 (Sample.at_ 9)).exec db).1 =
      .ok ⟨9000000, [], [], [⟨Sample.job, Sample.lease⟩]⟩ ∧
    ((db.replay (Sample.ignoredBeats ++ [(Sample.recover .runningTests 3 7, Sample.at_ 200)])).job?
      Sample.job).map (fun row => (row.state, row.leaseId)) = some (.queued, none) := by
  refine ⟨Sample.after_fenced (by decide +kernel), by decide +kernel, by decide +kernel,
    by decide +kernel⟩

end RunAnywhere
