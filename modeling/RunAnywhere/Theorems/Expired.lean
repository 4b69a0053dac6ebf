import RunAnywhere.Repository.OutboxRun

/-!
# Expired leases of the outbox

A finalization is fenced by the dispatcher's name, not by the lease: it loses exactly when
the row is published or not locked under that name (`finalization_lost_iff`). After a
newer lease under another name it always loses (`expired_lease_lost`); after a newer lease
under the same name, as the tasks that share one dead-letter publisher take it, the older
lease still unlocks, reschedules or publishes the row (`expired_lease_acts`).
-/

namespace RunAnywhere

open Logic

/-- The name under which the call leased row `id`. -/
def Call.leases (id : Nat) : Call → Option String
  | ⟨.leaseOutboxMessages d _ _ _ _, _, .ok messages⟩ =>
      if messages.any (fun m => decide (m.id = id)) then some d else none
  | _ => none

/-- The call finalizes row `id` in the name of `d`. -/
def Op.finalizes (id : Nat) (d : String) : Op → Prop
  | .markOutboxPublished id' d' | .retryOutboxMessage id' d' _ _ => id' = id ∧ d' = d
  | _ => False

/-- The call is a retry without an error text, which validation refuses. -/
def Op.blankError : Op → Bool
  | .retryOutboxMessage _ _ _ error => isBlank error
  | _ => false

/-- The error of a finalization whose lease is gone. -/
def leaseLost (id : Nat) : RepositoryError :=
  .compareAndSwapLost "outbox message lease" (toString id)

/-- Row `id` is unpublished and locked under the name `d`. -/
def Db.LockedBy (db : Db) (id : Nat) (d : String) : Prop :=
  ∃ key row, db.message? key = some row ∧ row.id = id ∧ row.publishedAt = none ∧
    row.lockedBy = some d

/-! ## One finalization -/

/-- An identity leads to the key of its row. -/
theorem Db.messageKey?_eq {db : Db} (hids : OutboxIds db) {key : String} {row : OutboxRow}
    (h : db.message? key = some row) : db.messageKey? row.id = some key := by
  cases hfound : db.messageKey? row.id with
  | some key' =>
      unfold messageKey? at hfound
      obtain ⟨⟨k, r⟩, hfind, rfl⟩ := Option.map_eq_some_iff.mp hfound
      have hid := List.find?_some hfind
      have hstored : db.message? k = some r.val := by
        unfold message? Table.row?
        rw [(Table.mem_rows_iff _ _ _).mp (List.mem_of_find?_eq_some hfind)]
        rfl
      rw [(hids key row h).2 k r.val hstored (of_decide_eq_true hid)]
  | none =>
      unfold messageKey? at hfound
      rw [Option.map_eq_none_iff, List.find?_eq_none] at hfound
      unfold message? Table.row? at h
      obtain ⟨r, hr, rfl⟩ := Option.map_eq_some_iff.mp h
      exact absurd (decide_eq_true rfl) (hfound (key, r) ((Table.mem_rows_iff _ _ _).mpr hr))

/-- The part both finalizations share: find the row, and change it under a guard. -/
theorem finalization_error_iff {db : Db} {id : Nat} {guard : OutboxRow → Bool}
    {set : OutboxRow → OutboxRow} :
    (do
      let key ← Tx.okOr (← .read fun db : Db => db.messageKey? id) (leaseLost id)
      let row ← updateOutbox key guard set
      let row ← .okOr row (leaseLost id)
      pure (row.intoMessage key) : RepoTx OutboxMessage) db = .error (leaseLost id) ↔
      ∀ key row, db.messageKey? id = some key → db.message? key = some row → guard row = false := by
  rw [Tx.bind_of_commits (Tx.read_commits.mpr ⟨rfl, rfl⟩)]
  cases hkey : db.messageKey? id with
  | none =>
      rw [Tx.bind_of_error (Tx.okOr_none_apply _ _)]
      exact ⟨fun _ key row h => (by cases h), fun _ => rfl⟩
  | some key =>
      rw [Tx.bind_of_commits (Tx.okOr_commits.mpr ⟨rfl, rfl⟩)]
      cases hrow : db.message? key with
      | none =>
          have hup : (updateOutbox key guard set).Commits db none db := by
            unfold Tx.Commits updateOutbox
            rw [hrow]
          rw [Tx.bind_of_commits hup, Tx.bind_of_error (Tx.okOr_none_apply _ _)]
          refine ⟨fun _ key' row hk hr => ?_, fun _ => rfl⟩
          cases hk
          rw [hrow] at hr
          cases hr
      | some row =>
          cases hg : guard row with
          | false =>
              have hup : (updateOutbox key guard set).Commits db none db := by
                unfold Tx.Commits updateOutbox
                rw [hrow]
                simp [hg]
              rw [Tx.bind_of_commits hup, Tx.bind_of_error (Tx.okOr_none_apply _ _)]
              refine ⟨fun _ key' row' hk hr => ?_, fun _ => rfl⟩
              cases hk
              obtain rfl := Option.some.inj (hrow.symm.trans hr)
              exact hg
          | true =>
              -- the row changes, or its new text violates a constraint
              refine ⟨fun h => ?_, fun h => ?_⟩
              · by_cases hc : (set row).Checks
                · have hup : (updateOutbox key guard set).Commits db (some (set row))
                      { db with outbox := db.outbox.put key ⟨set row, hc⟩ } := by
                    unfold Tx.Commits updateOutbox
                    rw [hrow]
                    simp [hg, hc]
                  rw [Tx.bind_of_commits hup,
                    Tx.bind_of_commits (Tx.okOr_commits.mpr ⟨rfl, rfl⟩)] at h
                  cases h
                · have hup : updateOutbox key guard set db =
                      .error (.sqlx (.checkViolation "outbox_messages")) := by
                    unfold updateOutbox
                    rw [hrow]
                    simp [hg, hc]
                  rw [Tx.bind_of_error hup] at h
                  cases h
              · have hfalse := h key row rfl hrow
                rw [hg] at hfalse
                cases hfalse

/-- The guard of both finalizations. -/
theorem not_lockedBy_iff {db : Db} {id : Nat} {d : String} (hids : OutboxIds db) :
    (∀ key row, db.messageKey? id = some key → db.message? key = some row →
      (row.publishedAt.isNone && decide (row.lockedBy = some d)) = false) ↔
      ¬ db.LockedBy id d := by
  constructor
  · rintro h ⟨key, row, hrow, rfl, hpub, hlocked⟩
    have hguard := h key row (Db.messageKey?_eq hids hrow) hrow
    rw [hpub, hlocked] at hguard
    simp at hguard
  · intro h key row hkey hrow
    cases hguard : row.publishedAt.isNone && decide (row.lockedBy = some d) with
    | false => rfl
    | true =>
        simp only [Bool.and_eq_true, Option.isNone_iff_eq_none, decide_eq_true_eq] at hguard
        exact absurd ⟨key, row, hrow, Db.messageKey?_row hkey hrow, hguard⟩ h

/-- **One finalization.** It loses exactly when the row is published, unlocked or locked
under another name; a retry has to bring an error text. -/
theorem finalization_lost_iff {db : Db} {op : Op} {t : DbTime} {id : Nat} {d : String}
    (hids : OutboxIds db) (hd : isBlank d = false) (hop : op.finalizes id d) :
    (op.tx t).exec db = (.error (leaseLost id), db) ↔
      ¬ db.LockedBy id d ∧ op.blankError = false := by
  rw [Tx.exec_error_iff]
  have hvalid : (validateDispatcherId d).Commits db () db := by
    unfold validateDispatcherId
    exact Tx.require_commits.mpr ⟨by rw [hd]; rfl, rfl⟩
  cases op with
  | markOutboxPublished id' d' =>
      obtain ⟨rfl, rfl⟩ := hop
      show markOutboxPublished id' d' t db = _ ↔ _
      unfold markOutboxPublished
      rw [Tx.bind_of_commits hvalid]
      refine finalization_error_iff.trans ((not_lockedBy_iff hids).trans ?_)
      exact ⟨fun h => ⟨h, rfl⟩, fun h => h.1⟩
  | retryOutboxMessage id' d' availableAt error =>
      obtain ⟨rfl, rfl⟩ := hop
      show retryOutboxMessage id' d' availableAt error db = _ ↔ _
      unfold retryOutboxMessage
      rw [Tx.bind_of_commits hvalid]
      cases herror : isBlank error with
      | true =>
          rw [Bool.not_true, Tx.bind_of_error (Tx.require_false_apply _ _)]
          refine ⟨fun h => (by cases h), fun h => ?_⟩
          have hblank : isBlank error = false := h.2
          rw [herror] at hblank
          cases hblank
      | false =>
          rw [Bool.not_false, Tx.bind_of_commits (a := ()) (Tx.require_commits.mpr ⟨rfl, rfl⟩)]
          refine finalization_error_iff.trans ((not_lockedBy_iff hids).trans ?_)
          exact ⟨fun h => ⟨h, herror⟩, fun h => h.1⟩
  | _ => exact hop.elim

/-! ## Later leases -/

/-- A lease is a committed call of a dispatcher whose identifier is not blank. -/
theorem Call.leases_cases {call : Call} {id : Nat} {d : String} (h : call.leases id = some d) :
    ∃ subject timeout limit skip t messages,
      call = ⟨.leaseOutboxMessages d subject timeout limit skip, t, .ok messages⟩ ∧
      ∃ m ∈ messages, m.id = id := by
  unfold leases at h
  split at h
  · next d' subject timeout limit skip t messages =>
      split at h
      · next hany =>
          obtain rfl := Option.some.inj h
          obtain ⟨m, hm, hid⟩ := List.any_eq_true.mp hany
          exact ⟨_, _, _, _, _, _, rfl, m, hm, of_decide_eq_true hid⟩
      · cases h
  · cases h

theorem Call.leases_valid {Allowed : Op → Prop} {db db' : Db} {call : Call} {id : Nat}
    {d : String} (hstep : (repository Allowed).step db call db') (h : call.leases id = some d) :
    isBlank d = false := by
  obtain ⟨subject, timeout, limit, skip, t, messages, rfl, _⟩ := Call.leases_cases h
  have hc := Tx.commits_of_exec hstep.2
  simp only [Op.tx, Op.txWith, leaseOutboxMessagesForSubject, validateDispatcherId,
    Tx.bind_commits, Tx.require_commits] at hc
  obtain ⟨_, _, ⟨hvalid, _⟩, _⟩ := hc
  simpa using hvalid

/-- **One step.** A call that leases a row leaves it locked under the leasing name; any
other call keeps the lock or takes it off. -/
theorem lockedBy_step {Allowed : Op → Prop} {db db' : Db} {call : Call} (hids : OutboxIds db)
    (hstep : (repository Allowed).step db call db') {id : Nat} {d : String}
    (h : db'.LockedBy id d) :
    call.leases id = some d ∨ (call.leases id = none ∧ db.LockedBy id d) := by
  obtain ⟨key, new, hnew, rfl, hpub, hlocked⟩ := h
  obtain ⟨op, t, answer⟩ := call
  have hcases : (∃ out : op.Out, answer = .ok out ∧ (op.tx t).Commits db out db') ∨
      ((∃ e, answer = .error e) ∧ db' = db) := repository_step_cases hstep
  rcases hcases with ⟨out, hanswer, hc⟩ | ⟨⟨e, hanswer⟩, rfl⟩
  · subst hanswer
    cases hold : db.message? key with
    | none =>
        obtain ⟨_, hunlocked, _⟩ := Op.newMessage hc hold hnew
        rw [hlocked] at hunlocked
        cases hunlocked
    | some old =>
        -- a row the call does not lease keeps or loses its lock
        have hkept : LeaseChange op t old new → (∀ d timeout limit skip subject,
            op ≠ .leaseOutboxMessages d timeout limit skip subject) →
            db.LockedBy new.id d := by
          intro hchange hop
          cases hchange with
          | kept => exact ⟨key, _, hold, rfl, hpub, hlocked⟩
          | leased heq _ => exact absurd heq (hop _ _ _ _ _)
          | published heq _ _ => cases hlocked
          | released heq _ _ => cases hlocked
        obtain ⟨new', hnew', hchange⟩ := Op.leases hc hold
        obtain rfl := Option.some.inj (hnew'.symm.trans hnew)
        cases op with
        | leaseOutboxMessages d' subject timeout limit skip =>
            obtain ⟨_, hframe, hout⟩ := leaseOutboxMessagesForSubject_commits hc
            by_cases hkey : key ∈ (out : List OutboxMessage).map (·.eventKey)
            · obtain ⟨m, hm, rfl⟩ := List.mem_map.mp hkey
              obtain ⟨row, hrow, _, hafter, heq⟩ := hout m hm
              obtain rfl := Option.some.inj (hafter.symm.trans hnew)
              obtain rfl : d' = d := Option.some.inj hlocked
              have hid : m.id = (row.lock d' t.clock).id := by rw [heq]; rfl
              left
              show (if (out : List OutboxMessage).any _ then some d' else none) = some d'
              rw [if_pos (List.any_eq_true.mpr ⟨m, hm, decide_eq_true hid⟩)]
            · have hsame := (hframe key hkey).symm.trans hnew
              right
              refine ⟨?_, key, _, hsame, rfl, hpub, hlocked⟩
              show (if (out : List OutboxMessage).any _ then some d' else none) = none
              rw [if_neg]
              intro hany
              -- a leased row with the same identity is the row itself
              obtain ⟨m, hm, hid⟩ := List.any_eq_true.mp hany
              obtain ⟨row, hrow, _, _, heq⟩ := hout m hm
              have hid' : row.id = new'.id := by
                rw [← of_decide_eq_true hid, heq]
                rfl
              have hkeys := (hids key _ hsame).2 m.eventKey row hrow hid'
              exact hkey (hkeys ▸ List.mem_map_of_mem hm)
        | _ => exact .inr ⟨rfl, hkept hchange fun _ _ _ _ _ heq => by cases heq⟩
  · refine .inr ⟨?_, key, new, hnew, rfl, hpub, hlocked⟩
    subst hanswer
    cases op <;> rfl

/-- **Later leases.** A row leased again since, and never under the name `d`, is not
locked under `d`. -/
theorem not_lockedBy_of_leased_again {Allowed : Op → Prop} {db₁ db₂ : Db} {calls : List Call}
    {id : Nat} {d : String} (hr : (repository Allowed).Reachable db₁)
    (hrun : (repository Allowed).Run db₁ calls db₂)
    (hagain : ∃ newer ∈ calls, newer.leases id ≠ none)
    (hname : ∀ newer ∈ calls, newer.leases id ≠ some d) : ¬ db₂.LockedBy id d := by
  -- induction on the run: the last lease locks under another name, and no call locks after it
  induction hrun with
  | nil =>
      obtain ⟨_, hmem, _⟩ := hagain
      cases hmem
  | @snoc calls db₂ call db₃ hrun hstep ih =>
      intro hlocked
      have hids := outboxIds_invariant Allowed _ (hr.run hrun)
      rcases lockedBy_step hids hstep hlocked with hsame | ⟨hnone, hbefore⟩
      · exact hname call (by simp) hsame
      · obtain ⟨newer, hnewer, hleases⟩ := hagain
        rcases List.mem_append.mp hnewer with hmem | hmem
        · exact ih ⟨newer, hmem, hleases⟩ (fun x hx => hname x (List.mem_append_left _ hx))
            hbefore
        · obtain rfl := List.mem_singleton.mp hmem
          exact hleases hnone

/-- **Expired leases.** A finalization in the name of an older lease loses and changes
nothing exactly when its row is published, unlocked or locked under another name; so it is
in every run that did not lease the row under the same name again. -/
theorem expired_lease_lost {Allowed : Op → Prop} {db₀ db₁ db₂ db₃ : Db} {lease call : Call}
    {calls : List Call} {id : Nat} {d : String} (hr : (repository Allowed).Reachable db₀)
    (hlease : (repository Allowed).step db₀ lease db₁) (hd : lease.leases id = some d)
    (hrun : (repository Allowed).Run db₁ calls db₂)
    (hagain : ∃ newer ∈ calls, newer.leases id ≠ none)
    (hcall : (repository Allowed).step db₂ call db₃) (hop : call.op.finalizes id d) :
    (call.answer = .error (leaseLost id) ∧ db₃ = db₂ ↔
      ¬ db₂.LockedBy id d ∧ call.op.blankError = false) ∧
    ((∀ newer ∈ calls, newer.leases id ≠ some d) → call.op.blankError = false →
      call.answer = .error (leaseLost id) ∧ db₃ = db₂) := by
  have hr₁ := hr.step hlease
  have hids := outboxIds_invariant Allowed _ (hr₁.run hrun)
  have hiff : call.answer = .error (leaseLost id) ∧ db₃ = db₂ ↔
      ¬ db₂.LockedBy id d ∧ call.op.blankError = false := by
    rw [← finalization_lost_iff hids (Call.leases_valid hlease hd) hop (t := call.time),
      hcall.2, Prod.mk.injEq]
  refine ⟨hiff, fun hname herror => ?_⟩
  exact hiff.mpr ⟨not_lockedBy_of_leased_again hr₁ hrun hagain hname, herror⟩

/-! ## Two tasks of one publisher -/

namespace Sample

/-- A malformed queue message is recorded for the dead-letter channel. -/
def enqueue : Op := .enqueueJobDeadLetter ⟨none, none, some 7, 1, .malformedMessage, 0⟩ []

/-- The event key of the recorded letter, which gets the identity `1`. -/
def letterKey : String := "dlq:JOB_QUEUE:7:malformed_message"

/-- A dead-letter publisher leases its batch. -/
def leaseLetters (d : String) : Op :=
  .leaseOutboxMessages d jobsDeadSubject (30 * 1000000) 64 fun _ => false

/-- It gives a letter back after a failed publication. -/
def giveBack (d : String) : Op :=
  .retryOutboxMessage 1 d (46 * 1000000) "JetStream did not confirm DLQ publication"

/-- The call `op` at second `n`, as `db` answers it. -/
def callAt (db : Db) (op : Op) (n : Int) : Call := ⟨op, at_ n, ((op.tx (at_ n)).exec db).1⟩

/-- The letter is leased under `d`, and 38 seconds later under `d'`. -/
def enqueued : Db := after [(enqueue, at_ 1)]
def leasedOnce (d : String) : Db := enqueued.replay [(leaseLetters d, at_ 2)]
def leasedTwice (d d' : String) : Db := (leasedOnce d).replay [(leaseLetters d', at_ 40)]

end Sample

open Sample in
/-- The second lease of the letter is under another name: the first one has lost it. -/
theorem expired_lease_lost_letter :
    (callAt (leasedTwice "scheduler-a" "scheduler-b") (giveBack "scheduler-a") 41).answer =
      .error (leaseLost 1) := by
  have hr : (repository fun _ => True).Reachable enqueued := after_reachable fun _ _ => trivial
  have hlease : (repository fun _ => True).step enqueued
      (callAt enqueued (leaseLetters "scheduler-a") 2) (leasedOnce "scheduler-a") :=
    repository_step_exec trivial _ _
  have hagain : (repository fun _ => True).step (leasedOnce "scheduler-a")
      (callAt (leasedOnce "scheduler-a") (leaseLetters "scheduler-b") 40)
      (leasedTwice "scheduler-a" "scheduler-b") :=
    repository_step_exec trivial _ _
  have hcall : (repository fun _ => True).step (leasedTwice "scheduler-a" "scheduler-b")
      (callAt (leasedTwice "scheduler-a" "scheduler-b") (giveBack "scheduler-a") 41) _ :=
    repository_step_exec trivial _ _
  refine ((@expired_lease_lost _ _ _ _ _ _ _ _ 1 "scheduler-a" hr hlease (by decide +kernel)
    (.single hagain) ?_ hcall ⟨rfl, rfl⟩).2 ?_ (by decide +kernel)).1
  · exact ⟨_, List.mem_singleton_self _, by decide +kernel⟩
  · intro newer hnewer
    obtain rfl := List.mem_singleton.mp hnewer
    decide +kernel

open Sample in
/-- Two tasks share one publisher. The second leases the letter after the first one's
lease ran out, and is still at work when the first one gives the letter back: the row is
unlocked, rescheduled and carries the error of the older lease. -/
theorem expired_lease_acts :
    (repository fun _ => True).Reachable enqueued ∧
    (repository fun _ => True).step enqueued
      (callAt enqueued (leaseLetters "scheduler-a") 2) (leasedOnce "scheduler-a") ∧
    (callAt enqueued (leaseLetters "scheduler-a") 2).leases 1 = some "scheduler-a" ∧
    (repository fun _ => True).step (leasedOnce "scheduler-a")
      (callAt (leasedOnce "scheduler-a") (leaseLetters "scheduler-a") 40)
      (leasedTwice "scheduler-a" "scheduler-a") ∧
    (callAt (leasedOnce "scheduler-a") (leaseLetters "scheduler-a") 40).leases 1 =
      some "scheduler-a" ∧
    ((leasedTwice "scheduler-a" "scheduler-a").message? letterKey).map
      (fun row => (row.lockedBy, row.attempts)) = some (some "scheduler-a", 2) ∧
    ∃ db, (repository fun _ => True).step (leasedTwice "scheduler-a" "scheduler-a")
        (callAt (leasedTwice "scheduler-a" "scheduler-a") (giveBack "scheduler-a") 41) db ∧
      (callAt (leasedTwice "scheduler-a" "scheduler-a") (giveBack "scheduler-a") 41).answer ≠
        .error (leaseLost 1) ∧
      (db.message? letterKey).map (fun row => (row.lockedBy, row.availableAt, row.lastError)) =
        some (none, 46 * 1000000, some "JetStream did not confirm DLQ publication") := by
  refine ⟨after_reachable fun _ _ => trivial, repository_step_exec trivial _ _,
    by decide +kernel, repository_step_exec trivial _ _, by decide +kernel, by decide +kernel,
    _, repository_step_exec trivial _ _, ?_, by decide +kernel⟩
  have hok : (callAt (leasedTwice "scheduler-a" "scheduler-a") (giveBack "scheduler-a")
      41).answer.isOk = true := by decide +kernel
  intro hlost
  rw [hlost] at hok
  cases hok

end RunAnywhere
