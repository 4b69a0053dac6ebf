import RunAnywhere.Logic.Rely
import RunAnywhere.Scheduler.Machine
import RunAnywhere.Scheduler.Settled

/-!
# The discipline of the components

What every thread of the scheduler keeps to, whatever it runs:

* **queue** — a message is retired only when its jobs are settled or a younger message
  carries their canonical payload (`Cluster.Retirable`), so the youngest canonical message
  of a job that is not settled stays;
* **identifiers** — a message under a job's or a redrive's identifier is canonical, and a
  redrive is younger than its source;
* **memory** — bindings and buffered deliveries name canonical messages of their jobs;
* **repository** — calls are those a component may make (`Db.Permits`).

`discipline cfg strict` is this as rely and guarantee. With `strict` a message of an
exhausted job is kept until the marker of the job is published, and the replayed
transitions assumed are those of `Cluster.Clear`.
-/

namespace RunAnywhere

open Logic

/-- The call is no unfenced transition, no recovery and no dead letter. -/
def Op.isPlain : Op → Bool
  | .transitionJobState _ _ _ _ none _ _ | .recoverStaleJob _ _ _
  | .enqueueJobDeadLetter _ _ => false
  | _ => true

namespace Cluster

/-! ## Messages and their jobs -/

/-- `message` is stored under sequence `n`. -/
def Stores (s : Cluster) (n : Nat) (message : QueueMessage) : Prop :=
  s.queue.message? n = some message

/-- Message `n` names job `j`. -/
def Names (s : Cluster) (n : Nat) (j : JobId) : Prop :=
  ∃ message, s.Stores n message ∧ message.payload.jobId? = some j

/-- Message `n` carries the canonical payload of job `j`. -/
def Canon (s : Cluster) (n : Nat) (j : JobId) : Prop :=
  ∃ message row, s.Stores n message ∧ s.db.job? j = some row ∧
    message.payload = .jobQueued (row.queued j)

/-- A younger message than `n` carries it. -/
def Newer (s : Cluster) (n : Nat) (j : JobId) : Prop := ∃ k, n < k ∧ s.Canon k j

/-- Message `n` names a job that does not exist. -/
def Orphan (s : Cluster) (n : Nat) (j : JobId) : Prop := s.Names n j ∧ s.db.job? j = none

/-- Message `n` is stored, and no job needs it. -/
structure Retirable (strict : Bool) (s : Cluster) (n : Nat) : Prop where
  stored : ∃ message, s.Stores n message
  named : ∀ j, s.Names n j → ¬ s.Orphan n j → s.db.Settled strict j ∨ s.Newer n j

/-- The payload names no job, or a live one with another payload. -/
def Inconsistent (s : Cluster) (queued : JobQueued) : Prop :=
  ∀ row, s.db.job? queued.jobId = some row →
    row.state.isTerminal = false ∧ row.queued queued.jobId ≠ queued

/-- If message `n` is malformed or inconsistent, the letter about it is published. -/
structure Recorded (s : Cluster) (n : Nat) : Prop where
  malformed : ∀ message, s.Stores n message → message.payload.jobId? = none →
    s.db.Published (sequenceEventKey n ":malformed_message")
  inconsistent : ∀ message queued, s.Stores n message → message.payload = .jobQueued queued →
    s.Inconsistent queued → s.db.Published (sequenceEventKey n ":canonical_job_inconsistent")

/-- Message `n` may be removed. -/
structure Discardable (strict : Bool) (s : Cluster) (n : Nat) : Prop extends
    Retirable strict s n, Recorded s n

/-- A snapshot of job `j` was read: it shows the row of a database that came before. -/
def Saw (m : Nat) (s : Cluster) (j : JobId) (snap : JobSchedulingSnapshot) : Prop :=
  ∃ db row, (components m).Reachable db ∧ Db.Later m db s.db ∧ db.job? j = some row ∧
    snap.Shows j row

/-! ## The invariant -/

/-- What holds of every cluster the components reach. -/
structure Sound (m : Nat) (strict : Bool) (s : Cluster) : Prop where
  reachable : (components m).Reachable s.db
  identified : ∀ n message id, s.Stores n message → message.messageId = some id →
    ∃ j, s.Canon n j ∧ (id = j.val ∨ ∃ k, k < n ∧ s.Names k j ∧ id = redriveId k)
  queued : ∀ j : JobId, s.db.Published j.val → s.queue.Seen j.val
  retired : ∀ n ∈ s.queue.retired, s.Retirable strict n
  bound : ∀ j b, s.memory.registry.get? j = some b → s.Canon b.streamSequence j
  buffered : ∀ e ∈ s.memory.fair.entries,
    e.payload.queued.jobId = e.jobId ∧ s.Canon e.payload.streamSequence e.jobId

/-- `s'` is `s` or comes after it. -/
structure Later (m : Nat) (s s' : Cluster) : Prop where
  db : Db.Later m s.db s'.db
  queue : s.queue.Extends s'.queue
  orphan : ∀ n j, s.Orphan n j → s'.db.job? j = none

/-! ## Actions -/

/-- The call publishes no queue row before its message is stored. -/
def Marks (s : Cluster) (op : Op) : Prop :=
  ∀ id dispatcherId, op = .markOutboxPublished id dispatcherId →
    ∀ (j : JobId) row, s.db.message? j.val = some row → row.id = id → s.queue.Seen j.val

/-- A message under an identifier is the canonical one of a job, under the job's identifier
or that of a redrive. -/
def Publishable (s : Cluster) (message : QueueMessage) : Prop :=
  ∀ id, message.messageId = some id → ∃ j row, s.db.job? j = some row ∧
    message.payload = .jobQueued (row.queued j) ∧
      (id = j.val ∨ ∃ k, s.Names k j ∧ id = redriveId k)

/-- The actions of a component. -/
def Allows (m : Nat) (strict : Bool) (s : Cluster) : Action → Prop
  | .call op => s.db.Permits m op ∧ op.isOuter = false ∧ s.Marks op
  | .stream (.publish message) => s.Publishable message
  | .stream (.doubleAck n) => s.Retirable strict n
  | .stream (.term n) | .stream (.deleteMessage n) => s.Discardable strict n
  | .memory (.bind j b) => s.Canon b.streamSequence j
  | .memory (.fairSet j payload) => payload.queued.jobId = j ∧ s.Canon payload.streamSequence j
  | .memory (.fairPush entry) =>
      entry.payload.queued.jobId = entry.jobId ∧ s.Canon entry.payload.streamSequence entry.jobId
  | _ => True

/-- No replayed transition to `infra_failed` is read back while the marker of the job waits
for its publication. -/
def Clear (s : Cluster) : Action → Prop
  | .query (.schedulingSnapshot j (some .infraFailed)) =>
      ∀ row message, s.db.job? j = some row → row.state = .infraFailed →
        s.db.message? (exhaustionEventKey j row.deliveryAttempts) = some message →
        message.publishedAt.isSome = true
  | _ => True

/-! ## What lasts -/

section Later

variable {m n : Nat} {strict : Bool} {s s' s'' : Cluster} {j : JobId}

theorem Later.refl (m : Nat) (s : Cluster) : Later m s s :=
  ⟨.refl m s.db, .refl s.queue, fun _ _ h => h.2⟩

theorem Later.stores (h : Later m s s') {message : QueueMessage} (hn : s.Stores n message) :
    s'.Stores n message :=
  h.queue.message? hn

theorem Later.names (h : Later m s s') (hn : s.Names n j) : s'.Names n j := by
  obtain ⟨message, hmessage, hj⟩ := hn
  exact ⟨message, h.stores hmessage, hj⟩

/-- A stored message names what it named. -/
theorem Later.names_of_stores (h : Later m s s') {message : QueueMessage}
    (hn : s.Stores n message) (hj : s'.Names n j) : s.Names n j := by
  obtain ⟨message', hmessage', hj⟩ := hj
  obtain rfl := Option.some.inj ((h.stores hn).symm.trans hmessage')
  exact ⟨message, hn, hj⟩

theorem Later.orphaned (h : Later m s s') (ho : s.Orphan n j) : s'.Orphan n j :=
  ⟨h.names ho.1, h.orphan n j ho⟩

theorem Later.trans (h : Later m s s') (k : Later m s' s'') : Later m s s'' where
  db := h.db.trans k.db
  queue := h.queue.trans k.queue
  orphan n j ho := k.orphan n j (h.orphaned ho)

theorem Later.canon (h : Later m s s') (hr : (components m).Reachable s.db) (hc : s.Canon n j) :
    s'.Canon n j := by
  obtain ⟨message, row, hmessage, hrow, hpayload⟩ := hc
  obtain ⟨row', hrow', hqueued⟩ := h.db.queued hr hrow
  exact ⟨message, row', h.stores hmessage, hrow', by rw [hpayload, hqueued]⟩

theorem Later.newer (h : Later m s s') (hr : (components m).Reachable s.db) (hn : s.Newer n j) :
    s'.Newer n j := by
  obtain ⟨k, hk, hcanon⟩ := hn
  exact ⟨k, hk, h.canon hr hcanon⟩

theorem Later.retirable (h : Later m s s') (hr : (components m).Reachable s.db)
    (hn : s.Retirable strict n) : s'.Retirable strict n := by
  obtain ⟨⟨message, hmessage⟩, hnamed⟩ := hn
  refine ⟨⟨message, h.stores hmessage⟩, fun j hj hlive => ?_⟩
  rcases hnamed j (h.names_of_stores hmessage hj) fun ho => hlive (h.orphaned ho) with hset | hnew
  · exact Or.inl (hset.later hr h.db)
  · exact Or.inr (h.newer hr hnew)

/-- A payload that is inconsistent was so before. -/
theorem Later.inconsistent (h : Later m s s') (hr : (components m).Reachable s.db)
    {queued : JobQueued} (hi : s'.Inconsistent queued) : s.Inconsistent queued := by
  intro row hrow
  obtain ⟨row', hrow', hqueued⟩ := h.db.queued hr hrow
  obtain ⟨hlive, hne⟩ := hi row' hrow'
  refine ⟨?_, hqueued ▸ hne⟩
  cases hend : row.state.isTerminal with
  | false => rfl
  | true =>
      obtain rfl := Option.some.inj (hrow'.symm.trans (h.db.terminal hr hrow hend))
      rw [hend] at hlive
      cases hlive

theorem Later.discardable (h : Later m s s') (hr : (components m).Reachable s.db)
    (hn : s.Discardable strict n) : s'.Discardable strict n := by
  obtain ⟨message, hmessage⟩ := hn.stored
  refine ⟨h.retirable hr hn.toRetirable, ⟨fun message' hm hj => ?_, fun message' queued hm hj hi => ?_⟩⟩
  · obtain rfl := Option.some.inj ((h.stores hmessage).symm.trans hm)
    exact (hn.malformed _ hmessage hj).later h.db
  · obtain rfl := Option.some.inj ((h.stores hmessage).symm.trans hm)
    exact (hn.inconsistent _ queued hmessage hj (h.inconsistent hr hi)).later h.db

theorem Later.saw (h : Later m s s') {snap : JobSchedulingSnapshot} (hsaw : s.Saw m j snap) :
    s'.Saw m j snap := by
  obtain ⟨db, row, hr, hl, hrow, hshows⟩ := hsaw
  exact ⟨db, row, hr, hl.trans h.db, hrow, hshows⟩

end Later

end Cluster

/-! ## The discipline -/

/-- What the threads of the scheduler keep, rely on and may do. -/
def discipline (cfg : Config) (strict : Bool) : Discipline Cluster Action where
  inv := Cluster.Sound cfg.maxRunAttempts strict
  later := Cluster.Later cfg.maxRunAttempts
  cond s x := strict = true → s.Clear x
  allowed := Cluster.Allows cfg.maxRunAttempts strict
  refl := Cluster.Later.refl _
  trans := Cluster.Later.trans

section Stable

variable {cfg : Config} {strict : Bool} (n : Nat) (j : JobId)

instance (message : QueueMessage) :
    (discipline cfg strict).Stable fun s => s.Stores n message :=
  ⟨fun _ _ _ _ hl h => Cluster.Later.stores hl h⟩

instance : (discipline cfg strict).Stable fun s => s.Names n j :=
  ⟨fun _ _ _ _ hl h => Cluster.Later.names hl h⟩

instance : (discipline cfg strict).Stable fun s => s.Orphan n j :=
  ⟨fun _ _ _ _ hl h => Cluster.Later.orphaned hl h⟩

instance : (discipline cfg strict).Stable fun s => s.Canon n j :=
  ⟨fun _ _ hi _ hl h => Cluster.Later.canon hl hi.reachable h⟩

instance : (discipline cfg strict).Stable fun s => s.Newer n j :=
  ⟨fun _ _ hi _ hl h => Cluster.Later.newer hl hi.reachable h⟩

instance : (discipline cfg strict).Stable fun s => s.Retirable strict n :=
  ⟨fun _ _ hi _ hl h => Cluster.Later.retirable hl hi.reachable h⟩

instance : (discipline cfg strict).Stable fun s => s.Discardable strict n :=
  ⟨fun _ _ hi _ hl h => Cluster.Later.discardable hl hi.reachable h⟩

instance (snap : JobSchedulingSnapshot) :
    (discipline cfg strict).Stable fun s => s.Saw cfg.maxRunAttempts j snap :=
  ⟨fun _ _ _ _ hl h => Cluster.Later.saw hl h⟩

instance : (discipline cfg strict).Stable fun s => s.db.Settled strict j :=
  ⟨fun _ _ hi _ hl h => h.later hi.reachable (Cluster.Later.db hl)⟩

instance (key : String) : (discipline cfg strict).Stable fun s => s.db.Published key :=
  ⟨fun _ _ _ _ hl h => h.later (Cluster.Later.db hl)⟩

end Stable

/-! ## What actions do -/

section Exec

variable {cfg : Config} {s s' : Cluster}

theorem exec_query {q : Query} {r : Except RepositoryError q.Out}
    (h : (machine cfg).Exec s (.query q) r s') :
    s' = s ∧ (r = (q.tx.exec s.db).1 ∨ r = .error (.sqlx .connection)) := by
  obtain ⟨c, h⟩ := h
  simp only [machine, Action.perform] at h
  split at h <;> cases h
  · exact ⟨rfl, Or.inl rfl⟩
  · exact ⟨rfl, Or.inr rfl⟩

theorem exec_call {op : Op} {r : Except RepositoryError op.Out}
    (h : (machine cfg).Exec s (.call op) r s') :
    (s' = s ∧ r = .error (.sqlx .connection)) ∨
      ∃ t answer, s.execute op t = some (answer, s') ∧
        (r = answer ∨ r = .error (.sqlx .connection)) := by
  obtain ⟨c, h⟩ := h
  simp only [machine, Action.perform] at h
  split at h
  · cases h
    exact Or.inl ⟨rfl, rfl⟩
  · obtain ⟨⟨answer, s₁⟩, hexec, heq⟩ := Option.map_eq_some_iff.mp h
    obtain ⟨hr, rfl⟩ := Prod.mk.inj heq
    refine Or.inr ⟨c.time, answer, hexec, ?_⟩
    split at hr
    · exact Or.inr hr.symm
    · exact Or.inl hr.symm

/-- A call that reached the database. -/
theorem execute_eq {op : Op} {t : DbTime} {answer : Except RepositoryError op.Out}
    (h : s.execute op t = some (answer, s')) :
    (op.tx t).exec s.db = (answer, s'.db) ∧ s'.queue = s.queue ∧ s'.memory = s.memory := by
  simp only [Cluster.execute] at h
  split at h
  · cases h
    exact ⟨rfl, rfl, rfl⟩
  · cases h

theorem exec_stream {x : StreamCall} {r : x.Out} (h : (machine cfg).Exec s (.stream x) r s') :
    ∃ c, x.run s c = (r, s') := by
  obtain ⟨c, h⟩ := h
  simp only [machine, Action.perform] at h
  exact ⟨c, Option.some.inj h⟩

theorem exec_memory {x : MemoryCall} {r : x.Out} (h : (machine cfg).Exec s (.memory x) r s') :
    (x.run s.memory).1 = r ∧ s' = { s with memory := (x.run s.memory).2 } := by
  obtain ⟨c, h⟩ := h
  simp only [machine, Action.perform] at h
  obtain ⟨hr, hs⟩ := Prod.mk.inj (Option.some.inj h)
  exact ⟨hr, hs.symm⟩

theorem exec_outside {x : Outside} {r : x.Out} (h : (machine cfg).Exec s (.outside x) r s') :
    s' = s := by
  obtain ⟨c, h⟩ := h
  simp only [machine, Action.perform] at h
  exact (Prod.mk.inj (Option.some.inj h)).2.symm

end Exec

/-! ## Steps keep the invariant -/

namespace Cluster

variable {m n : Nat} {strict : Bool} {s s' : Cluster}

/-- **Frame.** What a step adds has to be sound, the rest lasts. -/
theorem Sound.of_later (h : Sound m strict s) (hl : Later m s s')
    (hidentified : ∀ n message id, s'.Stores n message → message.messageId = some id →
      s.Stores n message ∨
        ∃ j, s'.Canon n j ∧ (id = j.val ∨ ∃ k, k < n ∧ s'.Names k j ∧ id = redriveId k))
    (hqueued : ∀ j : JobId, s'.db.Published j.val → s.db.Published j.val ∨ s'.queue.Seen j.val)
    (hretired : ∀ n ∈ s'.queue.retired, n ∈ s.queue.retired ∨ s'.Retirable strict n)
    (hbound : ∀ j b, s'.memory.registry.get? j = some b →
      s.memory.registry.get? j = some b ∨ s'.Canon b.streamSequence j)
    (hbuffered : ∀ e ∈ s'.memory.fair.entries, e ∈ s.memory.fair.entries ∨
      (e.payload.queued.jobId = e.jobId ∧ s'.Canon e.payload.streamSequence e.jobId)) :
    Sound m strict s' := by
  have hr := h.reachable
  refine ⟨hl.db.reachable hr, fun n message id hmessage hid => ?_, fun j hp => ?_, fun n hn => ?_,
    fun j b hb => ?_, fun e he => ?_⟩
  · rcases hidentified n message id hmessage hid with hold | hnew
    · obtain ⟨j, hcanon, hkey⟩ := h.identified n message id hold hid
      refine ⟨j, hl.canon hr hcanon, hkey.imp_right ?_⟩
      rintro ⟨k, hk, hnames, rfl⟩
      exact ⟨k, hk, hl.names hnames, rfl⟩
    · exact hnew
  · rcases hqueued j hp with hold | hnew
    · exact hl.queue.seen (h.queued j hold)
    · exact hnew
  · rcases hretired n hn with hold | hnew
    · exact hl.retirable hr (h.retired n hold)
    · exact hnew
  · rcases hbound j b hb with hold | hnew
    · exact hl.canon hr (h.bound j b hold)
    · exact hnew
  · rcases hbuffered e he with hold | hnew
    · exact ⟨(h.buffered e hold).1, hl.canon hr (h.buffered e hold).2⟩
    · exact hnew

/-- A step that leaves the database alone and only adds to the log. -/
theorem Later.of_db (hdb : s'.db = s.db) (hq : s.queue.Extends s'.queue) : Later m s s' := by
  refine ⟨?_, hq, fun n j ho => ?_⟩
  · rw [hdb]
    exact .refl m s.db
  · rw [hdb]
    exact ho.2

/-- Publishing. -/
theorem Sound.publish (h : Sound m strict s) {message : QueueMessage}
    (hp : s.Publishable message) :
    Sound m strict { s with queue := s.queue.publish message } ∧
      Later m s { s with queue := s.queue.publish message } := by
  have hl : Later m s { s with queue := s.queue.publish message } :=
    .of_db rfl (WorkQueue.publish_extends _ _)
  refine ⟨h.of_later hl (fun n e id he hid => ?_) (fun j hj => Or.inl hj) (fun n hn => ?_)
    (fun j b hb => Or.inl hb) (fun e he => Or.inl he), hl⟩
  · rcases WorkQueue.publish_message? he with hold | ⟨rfl, rfl, _⟩
    · exact Or.inl hold
    · -- the message is new: it comes after every stored one
      obtain ⟨j, row, hrow, hpayload, hkey⟩ := hp id hid
      refine Or.inr ⟨j, ⟨e, row, he, hrow, hpayload⟩, hkey.imp_right ?_⟩
      rintro ⟨k, hnames, rfl⟩
      have hk : k ≤ s.queue.log.length := by
        obtain ⟨source, hsource, _⟩ := hnames
        exact (WorkQueue.message?_le hsource).2
      exact ⟨k, by omega, hl.names hnames, rfl⟩
  · left
    have hret : n ∈ (s.queue.publish message).retired := hn
    rw [WorkQueue.publish_retired] at hret
    exact hret

/-- Retiring. -/
theorem Sound.retire (h : Sound m strict s) (hn : s.Retirable strict n) :
    Sound m strict { s with queue := s.queue.retire n } ∧
      Later m s { s with queue := s.queue.retire n } := by
  have hl : Later m s { s with queue := s.queue.retire n } := .of_db rfl (List.prefix_refl _)
  refine ⟨h.of_later hl (fun n e id he hid => Or.inl he) (fun j hj => Or.inl hj) (fun k hk => ?_)
    (fun j b hb => Or.inl hb) (fun e he => Or.inl he), hl⟩
  rcases List.mem_cons.mp hk with rfl | hold
  · exact Or.inr (hl.retirable h.reachable hn)
  · exact Or.inl hold

/-- A job identifier is published by a mark only. -/
theorem published_of_commits {op : Op} {t : DbTime} {out : op.Out} {db db' : Db} {key : String}
    (hc : (op.tx t).Commits db out db') (hp : db'.Published key) : db.Published key ∨
      ∃ row dispatcherId, db.message? key = some row ∧
        op = .markOutboxPublished row.id dispatcherId := by
  obtain ⟨message, hmessage, hpublished⟩ := hp
  cases (Op.outbox hc).new _ _ hmessage with
  | kept old was _ marked =>
      rcases marked hpublished with hold | ⟨dispatcherId, hop⟩
      · exact Or.inl ⟨old, was, hold⟩
      · exact Or.inr ⟨old, dispatcherId, was, hop⟩
  | webhook _ unpublished | created _ _ unpublished | marker _ _ unpublished
  | letter _ unpublished =>
      rw [unpublished] at hpublished
      cases hpublished

/-- A call to the database. -/
theorem Sound.execute (h : Sound m strict s) {op : Op} {t : DbTime}
    {answer : Except RepositoryError op.Out} (hpermits : s.db.Permits m op) (hmarks : s.Marks op)
    (hfresh : ∀ id eventId request key headers,
      op = .createJobWithOutbox id eventId request key headers → ∀ n, ¬ s.Names n id)
    (hexec : s.execute op t = some (answer, s')) : Sound m strict s' ∧ Later m s s' := by
  obtain ⟨hexec, hqueue, hmemory⟩ := execute_eq hexec
  have hstep : (components m).step s.db ⟨op, t, answer⟩ s'.db := ⟨hpermits, hexec⟩
  have hl : Later m s s' := by
    refine ⟨⟨_, .single hstep⟩, ?_, fun n j ho => ?_⟩
    · rw [hqueue]
      exact .refl _
    · have htouch : Touches op t j s.db s'.db := repository_step_rows (components_step hstep) j
      rcases htouch with ⟨hsame, _⟩ | ⟨row, _, hchange⟩
      · rw [hsame, ho.2]
      · rw [ho.2] at hchange
        cases hchange with
        | create => exact absurd ho.1 (hfresh _ _ _ _ _ rfl n)
  refine ⟨h.of_later hl (fun n message id hmessage hid => Or.inl ?_) (fun j hp => ?_)
    (fun n hn => Or.inl ?_) (fun j b hb => Or.inl ?_) (fun e he => Or.inl ?_), hl⟩
  · unfold Stores at hmessage ⊢
    rw [← hqueue]
    exact hmessage
  · have hcases : (∃ out : op.Out, answer = .ok out ∧ (op.tx t).Commits s.db out s'.db) ∨
        ((∃ e, answer = .error e) ∧ s'.db = s.db) := repository_step_cases (components_step hstep)
    rcases hcases with ⟨out, _, hc⟩ | ⟨_, hsame⟩
    · rcases published_of_commits hc hp with hold | ⟨row, dispatcherId, hrow, hop⟩
      · exact Or.inl hold
      · right
        rw [hqueue]
        exact hmarks _ _ hop j row hrow rfl
    · exact Or.inl (hsame ▸ hp)
  · rw [← hqueue]
    exact hn
  · rw [← hmemory]
    exact hb
  · rw [← hmemory]
    exact he

/-- An access to the memory. -/
theorem Sound.access (h : Sound m strict s) {x : MemoryCall}
    (hx : s.Allows m strict (.memory x)) :
    Sound m strict { s with memory := (x.run s.memory).2 } ∧
      Later m s { s with memory := (x.run s.memory).2 } := by
  have hl : Later m s { s with memory := (x.run s.memory).2 } := .of_db rfl (.refl _)
  refine ⟨h.of_later hl (fun n e id he hid => Or.inl he) (fun j hj => Or.inl hj)
    (fun n hn => Or.inl hn) ?_ ?_, hl⟩
  · intro j b hb
    cases x with
    | bind j₀ b₀ =>
        have hput : (s.memory.registry.put j₀ b₀).get? j = some b := hb
        rw [Table.get?_put] at hput
        split at hput
        · next hj =>
            obtain rfl := Option.some.inj hput
            subst hj
            exact Or.inr (hl.canon h.reachable hx)
        · exact Or.inl hput
    | settle j₀ w l confirmed =>
        simp only [MemoryCall.run] at hb
        repeat' split at hb
        all_goals first
          | exact Or.inl hb
          | exact Or.inl (Table.get?_of_get?_erase hb)
    | take j₀ w l =>
        simp only [MemoryCall.run] at hb
        split at hb
        · exact Or.inl (Table.get?_of_get?_erase hb)
        · exact Or.inl hb
    | fairPush entry =>
        simp only [MemoryCall.run] at hb
        split at hb <;> exact Or.inl hb
    | _ => exact Or.inl hb
  · intro e he
    cases x with
    | fairSet j payload =>
        rcases FairQueue.mem_setPayload he with hold | ⟨rfl, hpayload⟩
        · exact Or.inl hold
        · rw [hpayload]
          exact Or.inr ⟨hx.1, hl.canon h.reachable hx.2⟩
    | fairPush entry =>
        simp only [MemoryCall.run] at he
        split at he
        · next fair hpush =>
            rcases FairQueue.mem_push hpush he with rfl | hold
            · exact Or.inr ⟨hx.1, hl.canon h.reachable hx.2⟩
            · exact Or.inl hold
        · exact Or.inl he
    | fairPop now => exact Or.inl ((FairQueue.mem_pop rfl).2 e he)
    | settle j₀ w l confirmed =>
        simp only [MemoryCall.run] at he
        repeat' split at he
        all_goals exact Or.inl he
    | take j₀ w l =>
        simp only [MemoryCall.run] at he
        split at he <;> exact Or.inl he
    | _ => exact Or.inl he

/-- An exchange over the network. -/
theorem Sound.exchange (h : Sound m strict s) {x : StreamCall} {c : Choice} {r : x.Out}
    (hx : s.Allows m strict (.stream x)) (hrun : x.run s c = (r, s')) :
    Sound m strict s' ∧ Later m s s' := by
  have hsame : Sound m strict s ∧ Later m s s := ⟨h, .refl m s⟩
  cases x with
  | publish message =>
      obtain ⟨_, rfl⟩ := Prod.mk.inj hrun
      unfold Cluster.exchange
      split
      · exact hsame
      · exact h.publish hx
  | doubleAck n =>
      obtain ⟨_, rfl⟩ := Prod.mk.inj hrun
      unfold Cluster.exchange
      split
      · exact hsame
      · exact h.retire hx
  | term n =>
      obtain ⟨_, rfl⟩ := Prod.mk.inj hrun
      unfold Cluster.exchange
      split
      · exact hsame
      · exact h.retire hx.toRetirable
  | deleteMessage n =>
      have hdone : Sound m strict { s with queue := s.queue.retire n } ∧
          Later m s { s with queue := s.queue.retire n } := h.retire hx.toRetirable
      simp only [StreamCall.run] at hrun
      split at hrun
      · obtain ⟨_, rfl⟩ := Prod.mk.inj hrun
        exact hdone
      · split at hrun
        · obtain ⟨_, rfl⟩ := Prod.mk.inj hrun
          exact hdone
        · obtain ⟨_, rfl⟩ := Prod.mk.inj hrun
          exact hsame
  | getRawMessage n =>
      simp only [StreamCall.run] at hrun
      repeat' split at hrun
      all_goals
        obtain ⟨_, rfl⟩ := Prod.mk.inj hrun
        exact hsame
  | publishDead message | progress n | nak n =>
      obtain ⟨_, rfl⟩ := Prod.mk.inj hrun
      exact hsame

/-- **Actions.** An allowed action keeps the invariant. -/
theorem Sound.act {cfg : Config} (h : Sound cfg.maxRunAttempts strict s) {x : Action} {r : x.Res}
    (hx : s.Allows cfg.maxRunAttempts strict x) (hexec : (machine cfg).Exec s x r s') :
    Sound cfg.maxRunAttempts strict s' ∧ Later cfg.maxRunAttempts s s' := by
  cases x with
  | query q =>
      obtain ⟨rfl, _⟩ := exec_query hexec
      exact ⟨h, .refl _ _⟩
  | call op =>
      rcases exec_call hexec with ⟨rfl, _⟩ | ⟨t, answer, hexecute, _⟩
      · exact ⟨h, .refl _ _⟩
      · refine h.execute hx.1 hx.2.2 (fun id eventId request key headers hop => ?_) hexecute
        have houter := hx.2.1
        rw [hop] at houter
        cases houter
  | stream x =>
      obtain ⟨c, hrun⟩ := exec_stream hexec
      exact h.exchange hx hrun
  | memory x =>
      obtain ⟨_, rfl⟩ := exec_memory hexec
      exact h.access hx
  | outside x =>
      obtain rfl := exec_outside hexec
      exact ⟨h, .refl _ _⟩
  | stop => exact nomatch r

/-- A plain call is permitted. -/
theorem permits_of_isPlain {db : Db} {op : Op} (h : op.isPlain = true) : db.Permits m op := by
  refine ⟨?_, ?_, ?_, ?_⟩
  · cases op with
    | transitionJobState _ _ _ _ lease =>
        cases lease with
        | some g => trivial
        | none => cases h
    | _ => trivial
  · cases op with
    | recoverStaleJob => cases h
    | _ => trivial
  · rintro j source target evidence payload eventId rfl
    cases h
  · rintro deadLetter headers key rfl
    cases h

/-- **Environment.** -/
theorem Sound.outer (h : Sound m strict s) {e : Outer} (he : s.outer e = some s') :
    Sound m strict s' ∧ Later m s s' := by
  cases e with
  | api op t =>
      simp only [Cluster.outer] at he
      split at he
      · next hcond =>
          obtain ⟨houter, hfresh⟩ := Bool.and_eq_true_iff.mp hcond
          obtain ⟨⟨answer, s₁⟩, hexecute, rfl⟩ := Option.map_eq_some_iff.mp he
          have hplain : op.isPlain = true := by cases op <;> first | rfl | cases houter
          refine h.execute (permits_of_isPlain hplain) ?_ ?_ hexecute
          · rintro id dispatcherId rfl
            cases houter
          · rintro id eventId request key headers rfl n ⟨message, hmessage, hj⟩
            have hne := List.all_eq_true.mp hfresh message (WorkQueue.message?_mem hmessage)
            exact of_decide_eq_true hne hj
      · cases he
  | publishForeign traceContext payload =>
      obtain rfl := Option.some.inj he
      exact h.publish fun id hid => by cases hid

/-- **Crashes.** A new leader has nothing bound and nothing buffered. -/
theorem Sound.crash (h : Sound m strict s) (cfg : Config) :
    Sound m strict { s with memory := cfg.memory } ∧
      Later m s { s with memory := cfg.memory } := by
  have hl : Later m s { s with memory := cfg.memory } := .of_db rfl (.refl _)
  refine ⟨h.of_later hl (fun n e id he hid => Or.inl he) (fun j hj => Or.inl hj)
    (fun n hn => Or.inl hn) (fun j b hb => ?_) (fun e he => ?_), hl⟩
  · cases hb
  · cases he

/-- The cluster before any operation. -/
theorem sound_boot (cfg : Config) (strict : Bool) (catalog : Catalog) :
    Sound cfg.maxRunAttempts strict (boot cfg catalog) where
  reachable := .init ⟨catalog, rfl⟩
  identified n message id hn _ := by
    unfold Stores boot WorkQueue.empty WorkQueue.message? at hn
    split at hn <;> cases hn
  queued j hp := by
    obtain ⟨message, hmessage, _⟩ := hp
    cases hmessage
  retired n hn := by cases hn
  bound j b hb := by cases hb
  buffered e he := by cases he

end Cluster

end RunAnywhere
