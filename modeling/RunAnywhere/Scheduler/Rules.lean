import RunAnywhere.Scheduler.Discipline

/-!
# Triples for the actions of a component

One rule for each kind of action, and the programs every component shares: the
dead-letter publisher and the acknowledgement registry. A triple states what a program
needs of the cluster and what it leaves; both last whatever others do.
-/

namespace RunAnywhere

open Logic Machine

/-- The routine keeps to the discipline: from `P` it ends in `Q`, or fails with `E`. -/
abbrev Keeps (cfg : Config) (strict : Bool) {ε β : Type} (E : ε → Prop) (P : Cluster → Prop)
    (p : TaskOr ε β) (Q : β → Cluster → Prop) : Prop :=
  OkTriple (machine cfg) (discipline cfg strict) E P p Q

/-- The program keeps to the discipline: from `P` it ends in `Q`. -/
abbrev Runs (cfg : Config) (strict : Bool) {β : Type} (P : Cluster → Prop) (p : Task β)
    (Q : β → Cluster → Prop) : Prop :=
  Triple (machine cfg) (discipline cfg strict) P p Q

/-- Any failure. -/
abbrev anyError {ε : Type} : ε → Prop := fun _ => True

/-- Nothing is asserted. -/
abbrev anyState {β : Type} : β → Cluster → Prop := fun _ _ => True

section Rules

variable {cfg : Config} {strict : Bool} {P : Cluster → Prop}

/-- An action. -/
theorem runs_act [(discipline cfg strict).Stable P] (x : Action) (R : x.Res → Cluster → Prop)
    [∀ r, (discipline cfg strict).Stable (R r)]
    (ha : ∀ s, s.Sound cfg.maxRunAttempts strict → P s → s.Allows cfg.maxRunAttempts strict x)
    (h : ∀ s r s', s.Sound cfg.maxRunAttempts strict → (strict = true → s.Clear x) → P s →
      (machine cfg).Exec s x r s' → s'.Sound cfg.maxRunAttempts strict →
      s.Later cfg.maxRunAttempts s' → R r s') :
    Runs cfg strict P (act x) R :=
  Triple.act (M := machine cfg) (D := discipline cfg strict) (x := x) R
    (fun s hs _ hP => ha s hs hP) h

/-- A read. -/
theorem keeps_query [(discipline cfg strict).Stable P] (q : Query) {R : q.Out → Cluster → Prop}
    [∀ a, (discipline cfg strict).Stable (R a)]
    (h : ∀ s a db', s.Sound cfg.maxRunAttempts strict → (strict = true → s.Clear (.query q)) →
      P s → q.tx.Commits s.db a db' → R a s) :
    Keeps cfg strict anyError P (act (.query q)) R := by
  refine runs_act (.query q) (fun r s => (∀ a, r = .ok a → R a s) ∧
    ∀ e, r = .error e → anyError e) (fun _ _ _ => trivial) ?_
  intro s r s' hs hc hP hexec _ _
  obtain ⟨rfl, hr⟩ := exec_query hexec
  refine ⟨fun a ha => ?_, fun _ _ => trivial⟩
  subst ha
  rcases hr with hr | hr
  · refine h s' a (q.tx.exec s'.db).2 hs hc hP (Tx.commits_of_exec ?_)
    exact Prod.ext hr.symm rfl
  · cases hr

/-- A call. -/
theorem keeps_call [(discipline cfg strict).Stable P] (op : Op) {R : op.Out → Cluster → Prop}
    [∀ a, (discipline cfg strict).Stable (R a)]
    (ha : ∀ s, s.Sound cfg.maxRunAttempts strict → P s →
      s.Allows cfg.maxRunAttempts strict (.call op))
    (h : ∀ s t out s', s.Sound cfg.maxRunAttempts strict → P s →
      (op.tx t).Commits s.db out s'.db → s'.Sound cfg.maxRunAttempts strict →
      s.Later cfg.maxRunAttempts s' → R out s') :
    Keeps cfg strict anyError P (act (.call op)) R := by
  refine runs_act (.call op) (fun r s => (∀ a, r = .ok a → R a s) ∧
    ∀ e, r = .error e → anyError e) ha ?_
  intro s r s' hs _ hP hexec hs' hl
  refine ⟨fun out hout => ?_, fun _ _ => trivial⟩
  subst hout
  rcases exec_call hexec with ⟨_, hr⟩ | ⟨t, answer, hexecute, hr⟩
  · cases hr
  · rcases hr with rfl | hr
    · exact h s t out s' hs hP (Tx.commits_of_exec (execute_eq hexecute).1) hs' hl
    · cases hr

/-- An exchange that has only to be allowed. -/
theorem runs_stream [(discipline cfg strict).Stable P] {x : StreamCall}
    {R : x.Out → Cluster → Prop} [∀ r, (discipline cfg strict).Stable (R r)]
    (ha : ∀ s, s.Sound cfg.maxRunAttempts strict → P s →
      s.Allows cfg.maxRunAttempts strict (.stream x))
    (h : ∀ s c r s', s.Sound cfg.maxRunAttempts strict → P s → x.run s c = (r, s') →
      s'.Sound cfg.maxRunAttempts strict → s.Later cfg.maxRunAttempts s' → R r s') :
    Runs cfg strict P (act (.stream x)) R := by
  refine runs_act (.stream x) R ha ?_
  intro s r s' hs _ hP hexec hs' hl
  obtain ⟨c, hrun⟩ := exec_stream hexec
  exact h s c r s' hs hP hrun hs' hl

/-- An access to the memory. -/
theorem runs_memory [(discipline cfg strict).Stable P] {x : MemoryCall}
    {R : x.Out → Cluster → Prop} [∀ r, (discipline cfg strict).Stable (R r)]
    (ha : ∀ s, s.Sound cfg.maxRunAttempts strict → P s →
      s.Allows cfg.maxRunAttempts strict (.memory x))
    (h : ∀ s, s.Sound cfg.maxRunAttempts strict → P s → R (x.run s.memory).1 s) :
    Runs cfg strict P (act (.memory x)) R := by
  refine runs_act (.memory x) R ha ?_
  intro s r s' hs _ hP hexec hs' hl
  obtain ⟨rfl, rfl⟩ := exec_memory hexec
  have hR : (discipline cfg strict).Stable (R (x.run s.memory).1) := inferInstance
  exact hR.later s _ hs hs' hl (h s hs hP)

/-- What comes from outside. -/
theorem runs_outside [(discipline cfg strict).Stable P] (x : Outside) :
    Runs cfg strict P (act (.outside x)) anyState :=
  runs_act (.outside x) anyState (fun _ _ _ => trivial) fun _ _ _ _ _ _ _ _ _ => trivial

theorem runs_now [(discipline cfg strict).Stable P] : Runs cfg strict P now anyState :=
  runs_outside .now

theorem runs_draw [(discipline cfg strict).Stable P] : Runs cfg strict P draw anyState :=
  runs_outside .draw

/-- A thread that stops keeps to anything. -/
theorem runs_stop {β : Type} {Q : β → Cluster → Prop} : Runs cfg strict P (stop : Task β) Q := by
  intro s _ _ s₁ _ _ _
  exact ⟨trivial, fun r => nomatch r⟩

/-- From a contradiction anything is kept. -/
theorem keeps_absurd {ε β : Type} {E : ε → Prop} {p : TaskOr ε β} {Q : β → Cluster → Prop}
    (h : ∀ s, s.Sound cfg.maxRunAttempts strict → ¬ P s) : Keeps cfg strict E P p Q :=
  fun s hs hP => absurd hP (h s hs)

theorem keeps_ite {ε β : Type} {E : ε → Prop} {c : Prop} [Decidable c] {p q : TaskOr ε β}
    {Q : β → Cluster → Prop} (hp : c → Keeps cfg strict E P p Q)
    (hq : ¬ c → Keeps cfg strict E P q Q) : Keeps cfg strict E P (if c then p else q) Q := by
  split
  · next h => exact hp h
  · next h => exact hq h

/-- An expected result. -/
theorem keeps_expect [(discipline cfg strict).Stable P] {ε ε' β : Type} {E : ε' → Prop}
    {r : Except ε β} : Keeps cfg strict E P (expect r) fun a _ => r = .ok a := by
  cases r with
  | ok a => exact OkTriple.pure fun _ _ _ => rfl
  | error e => exact OkTriple.lift runs_stop

end Rules

/-- What holds of a program holds of it as a routine. -/
theorem Runs.keeps {cfg : Config} {strict : Bool} {P : Cluster → Prop} {ε β : Type}
    {p : TaskOr ε β} {R : Except ε β → Cluster → Prop} {Q : β → Cluster → Prop}
    (h : Runs cfg strict P p R)
    (hQ : ∀ s a, s.Sound cfg.maxRunAttempts strict → R (.ok a) s → Q a s) :
    Keeps cfg strict anyError P p Q := by
  refine Triple.conseq h (fun _ _ hp => hp) fun r s hs hr => ⟨fun a ha => ?_, fun _ _ => trivial⟩
  subst ha
  exact hQ s a hs hr

/-- A routine whose result is ignored. -/
theorem Keeps.runs {cfg : Config} {strict : Bool} {P : Cluster → Prop} {ε β : Type} {E : ε → Prop}
    {p : TaskOr ε β} {Q : β → Cluster → Prop} (h : Keeps cfg strict E P p Q) :
    Runs cfg strict P p anyState :=
  Triple.conseq h (fun _ _ hp => hp) fun _ _ _ _ => trivial

section Calls

variable {cfg : Config} {strict : Bool} {P : Cluster → Prop}
  [(discipline cfg strict).Stable P]

/-- An exchange of which nothing is asserted. -/
theorem runs_exchange {x : StreamCall} (ha : ∀ s, s.Sound cfg.maxRunAttempts strict → P s →
    s.Allows cfg.maxRunAttempts strict (.stream x)) :
    Runs cfg strict P (act (.stream x)) anyState :=
  runs_stream ha fun _ _ _ _ _ _ _ _ _ => trivial

/-- An access of which nothing is asserted. -/
theorem runs_access {x : MemoryCall} (ha : ∀ s, s.Sound cfg.maxRunAttempts strict → P s →
    s.Allows cfg.maxRunAttempts strict (.memory x)) :
    Runs cfg strict P (act (.memory x)) anyState :=
  runs_memory ha fun _ _ _ => trivial

/-- A plain call that marks no row. -/
theorem allows_of_isPlain {m : Nat} {s : Cluster} {op : Op} (hp : op.isPlain = true)
    (ho : op.isOuter = false) (hm : ∀ id d, op ≠ .markOutboxPublished id d) :
    s.Allows m strict (.call op) :=
  ⟨Cluster.permits_of_isPlain hp, ho, fun id d hop => absurd hop (hm id d)⟩

end Calls

/-! ## Dead letters -/

/-- The row with identity `id` is one of the dead-letter channel. -/
def Cluster.DeadRow (s : Cluster) (id : Nat) : Prop :=
  ∃ key row, s.db.message? key = some row ∧ row.id = id ∧ row.subject = jobsDeadSubject

instance {cfg : Config} {strict : Bool} (id : Nat) :
    (discipline cfg strict).Stable fun s => s.DeadRow id := by
  refine ⟨fun s s' _ _ hl h => ?_⟩
  obtain ⟨key, row, hrow, hid, hsub⟩ := h
  obtain ⟨row', hrow', hkeeps⟩ := (Cluster.Later.db hl).message hrow
  exact ⟨key, row', hrow', hkeeps.id.trans hid, hkeeps.subject.trans hsub⟩

/-- Marking a dead letter publishes no queue row. -/
theorem Cluster.DeadRow.marks {m : Nat} {strict : Bool} {s : Cluster} (hs : s.Sound m strict)
    {id : Nat} (h : s.DeadRow id) (d : String) : s.Marks (.markOutboxPublished id d) := by
  rintro id' d' hop j row hrow hid
  cases hop
  exfalso
  obtain ⟨key, dead, hdead, hdid, hsub⟩ := h
  have hr := components_reachable hs.reachable
  have hkey : j.val = key :=
    ((outboxIds_invariant _ s.db hr key dead hdead).2 j.val row hrow (hid.trans hdid.symm))
  subst hkey
  obtain rfl := Option.some.inj (hrow.symm.trans hdead)
  have hqueued := (queueMessages_invariant _ s.db hr j row hrow).1
  rw [hsub] at hqueued
  revert hqueued
  decide

/-- The key of the letter is taken, if it is one of an exhausted job. -/
def Cluster.Taken (s : Cluster) (deadLetter : JobDeadLetter) : Prop :=
  ∀ key, deadLetter.reason = .attemptsExhausted → deadLetter.idempotencyKey = .ok key →
    ∃ row, s.db.message? key = some row

instance {cfg : Config} {strict : Bool} (deadLetter : JobDeadLetter) :
    (discipline cfg strict).Stable fun s => s.Taken deadLetter := by
  refine ⟨fun s s' _ _ hl h key hreason hkey => ?_⟩
  obtain ⟨row, hrow⟩ := h key hreason hkey
  obtain ⟨row', hrow', _⟩ := (Cluster.Later.db hl).message hrow
  exact ⟨row', hrow'⟩

section Dlq

variable {cfg : Config} {strict : Bool} {P : Cluster → Prop}
  [(discipline cfg strict).Stable P]

theorem publishOne_keeps (message : OutboxMessage) :
    Keeps cfg strict anyError P (Dlq.publishOne message) anyState := by
  have h : Runs cfg strict P (act (.stream (.publishDead message))) anyState :=
    runs_exchange fun _ _ _ => trivial
  exact .try_ (h.keeps fun _ _ _ _ => trivial) fun _ _ => trivial

theorem markOutboxPublished_keeps {id : Nat} {d : String}
    (h : ∀ s, s.Sound cfg.maxRunAttempts strict → P s → s.Marks (.markOutboxPublished id d)) :
    Keeps cfg strict anyError P (Repository.markOutboxPublished id d) anyState :=
  keeps_call _ (fun s hs hP => ⟨Cluster.permits_of_isPlain rfl, rfl, h s hs hP⟩)
    fun _ _ _ _ _ _ _ _ _ => trivial

theorem retryOutboxMessage_keeps (id : Nat) (d : String) (at_ : Time) (error : String) :
    Keeps cfg strict anyError P (Repository.retryOutboxMessage id d at_ error) anyState :=
  keeps_call _ (fun _ _ _ => allows_of_isPlain rfl rfl fun _ _ h => nomatch h)
    fun _ _ _ _ _ _ _ _ _ => trivial

/-- A lease returns rows of its channel. -/
theorem leaseOutboxMessages_keeps (d subject : String) (timeout : Int) (limit : Nat) :
    Keeps cfg strict anyError P
      (Repository.leaseOutboxMessagesForSubject d subject timeout limit)
      fun messages s => subject = jobsDeadSubject → ∀ message ∈ messages, s.DeadRow message.id := by
  refine Triple.seq runs_draw fun draw => ?_
  refine keeps_call _ (fun _ _ _ => allows_of_isPlain rfl rfl fun _ _ h => nomatch h) ?_
  intro s t messages s' hs hP hc _ _ hsub message hmem
  obtain ⟨_, _, hout⟩ := leaseOutboxMessagesForSubject_commits hc
  obtain ⟨row, _, hleasable, hrow, heq⟩ := hout message hmem
  subst hsub
  simp only [OutboxRow.leasable, Bool.and_eq_true, decide_eq_true_eq] at hleasable
  refine ⟨_, _, hrow, ?_, hleasable.1.1.2⟩
  rw [heq]
  rfl

theorem publishAll_keeps {dispatcherId : String} {messages : List OutboxMessage}
    (h : ∀ message ∈ messages, ∀ s, P s → s.DeadRow message.id) (published : Nat) :
    Keeps cfg strict anyError P (Dlq.publishAll dispatcherId messages published) anyState := by
  induction messages generalizing published with
  | nil => exact .pure fun _ _ _ => trivial
  | cons message rest ih =>
      refine .bind (publishOne_keeps message).attempt fun r => ?_
      cases r with
      | error error =>
          refine .seq (.lift runs_now) fun at_ => ?_
          exact .seq (.lift (Keeps.runs (retryOutboxMessage_keeps _ _ _ _))) fun _ => .fail trivial
      | ok u =>
          have hmark : Keeps cfg strict anyError P
              (Repository.markOutboxPublished message.id dispatcherId) anyState :=
            markOutboxPublished_keeps fun s hs hP =>
              (h message List.mem_cons_self s hP).marks hs dispatcherId
          refine .pre (.seq (.try_ hmark fun _ _ => trivial) fun _ => ?_) fun _ _ hp => hp.1
          exact ih (fun m hm => h m (List.mem_cons_of_mem _ hm)) (published + 1)

/-- A read of an outbox row. -/
theorem outboxMessage_keeps {eventKey : String} {R : Option OutboxMessage → Cluster → Prop}
    [∀ a, (discipline cfg strict).Stable (R a)]
    (h : ∀ s, s.Sound cfg.maxRunAttempts strict → P s →
      R ((s.db.message? eventKey).map (·.intoMessage eventKey)) s) :
    Keeps cfg strict anyError P (Repository.getOutboxMessage eventKey) R := by
  refine keeps_query (.outboxMessage eventKey) fun s out db' hs _ hP hc => ?_
  obtain ⟨rfl, _⟩ := Tx.read_commits.mp hc
  exact h s hs hP

theorem publishReady_keeps (dispatcherId : String) :
    Keeps cfg strict anyError P (Dlq.publishReady dispatcherId) anyState := by
  refine .bind (.try_ (leaseOutboxMessages_keeps _ _ _ _) fun _ _ => trivial) fun messages => ?_
  exact publishAll_keeps (fun message hmem s hs => hs.2 rfl message hmem) 0

/-- A call for a dead letter that may be enqueued. -/
theorem enqueueJobDeadLetter_keeps {deadLetter : JobDeadLetter}
    (h : ∀ s, s.Sound cfg.maxRunAttempts strict → P s → s.Taken deadLetter)
    (headers : List (String × String)) :
    Keeps cfg strict anyError P (Repository.enqueueJobDeadLetter deadLetter headers) anyState := by
  refine keeps_call _ (fun s hs hP => ⟨⟨trivial, trivial, ?_, ?_⟩, rfl, ?_⟩)
    fun _ _ _ _ _ _ _ _ _ => trivial
  · intro j source target evidence payload eventId hop
    cases hop
  · intro deadLetter' headers' key hop hreason hkey
    cases hop
    obtain ⟨row, hrow⟩ := h s hs hP key hreason hkey
    rw [hrow]
    rfl
  · intro id d hop
    cases hop

/-- **Dead letters.** When the publisher returns, the row of the letter is published. -/
theorem ensurePublished_keeps {deadLetter : JobDeadLetter}
    (h : ∀ s, s.Sound cfg.maxRunAttempts strict → P s → s.Taken deadLetter) (dispatcherId : String)
    (headers : List (String × String)) :
    Keeps cfg strict anyError P (Dlq.ensurePublished dispatcherId deadLetter headers)
      fun _ s => ∀ key, deadLetter.idempotencyKey = .ok key → s.db.Published key := by
  refine .bind (.ofExcept fun _ _ => trivial) fun eventKey => ?_
  refine .seq (.try_ (enqueueJobDeadLetter_keeps (fun s hs hP => h s hs hP.1) headers)
    fun _ _ => trivial) fun message => ?_
  extract_lets rest
  have hrest : ∀ u, Keeps cfg strict anyError (fun s => P s ∧
      deadLetter.idempotencyKey.mapError (fun e => DlqError.trace e.message) = .ok eventKey)
      (rest u) fun _ s => ∀ key, deadLetter.idempotencyKey = .ok key → s.db.Published key := by
    intro u
    refine .bind (.try_ (outboxMessage_keeps (R := fun published s =>
      (published.bind (·.publishedAt)).isSome = true → s.db.Published eventKey)
      fun s _ _ hp => ?_) fun _ _ => trivial) fun published => ?_
    · cases hrow : s.db.message? eventKey with
      | none =>
          rw [hrow] at hp
          cases hp
      | some row =>
          rw [hrow] at hp
          exact ⟨row, hrow, hp⟩
    · split
      · next hp =>
          refine .pure fun s _ hs key hkey => ?_
          obtain ⟨⟨_, hevent⟩, hpublished⟩ := hs
          rw [hkey] at hevent
          obtain rfl := Except.ok.inj hevent
          exact hpublished hp
      · exact .fail trivial
  split
  · exact .seq (publishReady_keeps dispatcherId) fun _ => hrest ()
  · exact hrest ()

theorem acceptIfSourceIsAbsent_keeps (n : Nat) (error : String) :
    Keeps cfg strict anyError P (Dlq.acceptIfSourceIsAbsent n error) anyState := by
  have hread : Runs cfg strict P (act (.stream (.getRawMessage n))) anyState :=
    runs_exchange fun _ _ _ => trivial
  refine .seq (.lift hread) fun r => ?_
  split
  · exact .pure fun _ _ _ => trivial
  · exact .fail trivial

/-- A message that may be removed is deleted. -/
theorem deleteSource_keeps {n : Nat}
    (h : ∀ s, s.Sound cfg.maxRunAttempts strict → P s → s.Discardable strict n) :
    Keeps cfg strict anyError P (Dlq.deleteSource n) anyState := by
  have hdelete : Runs cfg strict P (act (.stream (.deleteMessage n))) anyState :=
    runs_exchange fun s hs hP => h s hs hP
  refine .seq (.lift hdelete) fun r => ?_
  split
  · exact .pure fun _ _ _ => trivial
  · exact acceptIfSourceIsAbsent_keeps n _
  · exact acceptIfSourceIsAbsent_keeps n _

/-- A termination, with the error of its caller. -/
theorem term_keeps {ε : Type} {E : ε → Prop} {f : String → ε} {n : Nat} (hE : ∀ text, E (f text))
    (h : ∀ s, s.Sound cfg.maxRunAttempts strict → P s → s.Discardable strict n) :
    Keeps cfg strict E P (Routine.try_ (act (.stream (.term n))) f) anyState := by
  have hterm : Runs cfg strict P (act (.stream (.term n))) anyState :=
    runs_exchange fun s hs hP => h s hs hP
  exact .try_ (hterm.keeps fun _ _ _ _ => trivial) fun text _ => hE text

/-- An acknowledgement, with the error of its caller. -/
theorem doubleAck_keeps {ε : Type} {E : ε → Prop} {f : String → ε} {n : Nat}
    (hE : ∀ text, E (f text))
    (h : ∀ s, s.Sound cfg.maxRunAttempts strict → P s → s.Retirable strict n) :
    Keeps cfg strict E P (Routine.try_ (act (.stream (.doubleAck n))) f) anyState := by
  have hack : Runs cfg strict P (act (.stream (.doubleAck n))) anyState :=
    runs_exchange fun s hs hP => h s hs hP
  exact .try_ (hack.keeps fun _ _ _ _ => trivial) fun text _ => hE text

/-- A progress report, with the error of its caller. -/
theorem progress_keeps {ε : Type} {E : ε → Prop} {f : String → ε} (n : Nat)
    (hE : ∀ text, E (f text)) :
    Keeps cfg strict E P (Routine.try_ (act (.stream (.progress n))) f) anyState := by
  have hreport : Runs cfg strict P (act (.stream (.progress n))) anyState :=
    runs_exchange fun _ _ _ => trivial
  exact .try_ (hreport.keeps fun _ _ _ _ => trivial) fun text _ => hE text

theorem retireDelivery_keeps {b : AckBinding}
    (h : ∀ s, s.Sound cfg.maxRunAttempts strict → P s → s.Discardable strict b.streamSequence) :
    Keeps cfg strict anyError P (Dlq.retireDelivery b) anyState :=
  .seq (term_keeps (fun _ => trivial) h) fun _ => deleteSource_keeps h

end Dlq

/-! ## The acknowledgement registry -/

/-- A message of a settled job, and of no other one, may be retired. -/
theorem Cluster.Canon.retirable {strict : Bool} {s : Cluster} {n : Nat} {j : JobId}
    (h : s.Canon n j) (hset : s.db.Settled strict j ∨ s.Newer n j) : s.Retirable strict n := by
  obtain ⟨message, row, hmessage, _, hpayload⟩ := h
  refine ⟨⟨message, hmessage⟩, fun i hi _ => ?_⟩
  obtain ⟨message', hmessage', hi⟩ := hi
  obtain rfl := Option.some.inj (hmessage.symm.trans hmessage')
  rw [hpayload] at hi
  obtain rfl : j = i := Option.some.inj hi
  exact hset

/-- A canonical message is neither malformed nor inconsistent. -/
theorem Cluster.Canon.discardable {strict : Bool} {s : Cluster} {n : Nat} {j : JobId}
    (h : s.Canon n j) (hset : s.db.Settled strict j ∨ s.Newer n j) : s.Discardable strict n := by
  refine ⟨h.retirable hset, ⟨fun message' hmessage' hj => ?_, fun message' queued hmessage' hp hi => ?_⟩⟩
  all_goals
    obtain ⟨message, row, hmessage, hrow, hpayload⟩ := h
    obtain rfl := Option.some.inj (hmessage.symm.trans hmessage')
  · rw [hpayload] at hj
    cases hj
  · rw [hpayload] at hp
    obtain rfl : row.queued j = queued := QueuePayload.jobQueued.inj hp
    exact absurd rfl (hi row hrow).2

section Registry

variable {cfg : Config} {strict : Bool} {P : Cluster → Prop}
  [(discipline cfg strict).Stable P] {j : JobId} {w : WorkerId} {l : LeaseId}

theorem bind_runs {b : AckBinding}
    (h : ∀ s, s.Sound cfg.maxRunAttempts strict → P s → s.Canon b.streamSequence j) :
    Runs cfg strict P (AckRegistry.bind j b) anyState :=
  runs_access h

/-- What the registry returns names a canonical message of the job. -/
theorem binding_keeps : Keeps cfg strict anyError P (AckRegistry.binding j w l)
    fun b s => s.Canon b.streamSequence j := by
  refine Runs.keeps (R := fun r s => ∀ b, r = .ok b → s.Canon b.streamSequence j) ?_
    fun s b _ hb => hb b rfl
  refine runs_memory (x := .binding j w l) (fun _ _ _ => trivial) fun s hs _ b hb => ?_
  exact hs.bound j b (binding_found hb).1

theorem take_keeps : Keeps cfg strict anyError P (AckRegistry.take j w l)
    fun b s => s.Canon b.streamSequence j := by
  refine Runs.keeps (R := fun r s => ∀ b, r = .ok b → s.Canon b.streamSequence j) ?_
    fun s b _ hb => hb b rfl
  refine runs_memory (x := .take j w l) (fun _ _ _ => trivial) fun s hs _ b hb => ?_
  simp only [MemoryCall.run] at hb
  split at hb
  · next b' hbinding =>
      obtain rfl := Except.ok.inj hb
      exact hs.bound j b' (binding_found hbinding).1
  · cases hb

theorem settle_keeps (confirmed : Nat) :
    Keeps cfg strict anyError P (AckRegistry.settle j w l confirmed)
      fun r s => ∀ b, r = some b → s.Canon b.streamSequence j := by
  refine Runs.keeps (R := fun r s => ∀ b, r = .ok (some b) → s.Canon b.streamSequence j) ?_
    fun s r _ hr b hb => hr b (by rw [hb])
  refine runs_memory (x := .settle j w l confirmed) (fun _ _ _ => trivial) fun s hs _ b hb => ?_
  exact hs.bound j b (settle_found hb).1

theorem registryProgress_keeps :
    Keeps cfg strict anyError P (AckRegistry.progress j w l) anyState :=
  .bind binding_keeps fun b => progress_keeps b.streamSequence fun _ => trivial

theorem nak_keeps : Keeps cfg strict anyError P (AckRegistry.nak j w l) anyState := by
  refine .bind take_keeps fun b => ?_
  have hnak : Runs cfg strict (fun s => P s ∧ s.Canon b.streamSequence j)
      (act (.stream (.nak b.streamSequence))) anyState := runs_exchange fun _ _ _ => trivial
  exact .try_ (hnak.keeps fun _ _ _ _ => trivial) fun _ _ => trivial

/-- Bindings of a settled job are acknowledged. -/
theorem confirmLoop_keeps (rounds : Nat) (b : AckBinding) :
    Keeps cfg strict anyError (fun s => s.db.Settled strict j ∧ s.Canon b.streamSequence j)
      (AckRegistry.confirmLoop j w l rounds b) anyState := by
  induction rounds generalizing b with
  | zero => exact .lift runs_stop
  | succ rounds ih =>
      refine .seq (doubleAck_keeps (fun _ => trivial) fun s _ hs => hs.2.retirable (Or.inl hs.1))
        fun _ => ?_
      refine .bind (settle_keeps b.streamSequence) fun r => ?_
      cases r with
      | none => exact .pure fun _ _ _ => trivial
      | some current => exact (ih current).pre fun s _ hs => ⟨hs.1.1, hs.2 current rfl⟩

/-- **Acknowledgements** of a settled job. -/
theorem confirmAck_keeps (h : ∀ s, s.Sound cfg.maxRunAttempts strict → P s → s.db.Settled strict j)
    (rounds : Nat) : Keeps cfg strict anyError P (AckRegistry.confirmAck rounds j w l) anyState :=
  .bind binding_keeps fun b =>
    (confirmLoop_keeps rounds b).pre fun s hs hP => ⟨h s hs hP.1, hP.2⟩

end Registry

end RunAnywhere
