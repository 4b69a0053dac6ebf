import RunAnywhere.Repository.EventSpec
import RunAnywhere.Repository.LockTrace

/-!
# Events become visible in order

Transactions that append events, taken apart at their statements, and a reader that polls
one job:

* **writers** — each holds locks, draws numbers from a global counter that no rollback
  turns back, and shows its events to others when it commits;
* **order** — an event is drawn under the lock on its job (`appendEvent_locks`), which is
  kept to the end, so the events of a job are committed in the order of their numbers;
* **reader** — what it was given is the front of the log of its job (`World.Sound.reader`),
  so it skips nothing and is given nothing twice.
-/

namespace RunAnywhere

open Logic
open Request (locks locks_append waitIf)

/-- The lock under which an event is drawn. -/
theorem appendEvent_locks {id : JobEventId} {j : JobId} {eventType : String}
    {state : Option JobState} {changed : Bool} {payload : List (String × EventValue)} {t : DbTime}
    {db db' : Db} {event : JobEvent}
    (h : (appendEvent id j eventType state changed payload t).Commits db event db') :
    .job j ∈ locks ((Traced.appendEvent id j eventType state changed payload t).requests db) := by
  have hjob : (db.job? j).isSome = true := by
    simp only [appendEvent, Tx.bind_commits, Tx.require_commits, Tx.read_commits] at h
    obtain ⟨_, _, ⟨_, rfl⟩, job, _, ⟨rfl, rfl⟩, _, _, ⟨hsome, rfl⟩, _⟩ := h
    exact hsome
  have hblank : (!isBlank eventType) = true := by
    simp only [appendEvent, Tx.bind_commits, Tx.require_commits] at h
    obtain ⟨_, _, ⟨hb, rfl⟩, _⟩ := h
    exact hb
  have hreq : (LockTx.require (!isBlank eventType)
      (.validation "job event type must not be blank") : Traced.RepoLockTx Unit).erase.Commits
      db () db := Tx.require_commits.mpr ⟨hblank, rfl⟩
  have hread : (Traced.lockJob j).erase.Commits db (db.job? j) db :=
    Tx.read_commits.mpr ⟨rfl, rfl⟩
  unfold Traced.appendEvent
  rw [LockTx.requests_bind hreq, locks_append, LockTx.requests_bind hread, locks_append]
  have hlock : (Traced.lockJob j).requests db = [.wait (.job j)] := by
    show waitIf (db.job? j).isSome _ = _
    rw [hjob]
    rfl
  rw [hlock]
  exact Or.inr (Or.inl ⟨_, List.mem_cons_self, rfl⟩)

/-! ## The system -/

/-- A transaction that appends events: the locks it holds and its uncommitted events. -/
structure Writer where
  held : Set RowLock
  drawn : List JobEvent

/-- Between transactions. -/
def Writer.idle : Writer := ⟨∅, []⟩

/-- The committed database, the identity counter, the transactions under way, and the
reader: its last seen sequence and what it was given. -/
structure World (ι : Type) where
  db : Db
  counter : Nat
  writer : ι → Writer
  seen : Nat
  got : List JobEvent

namespace World

/-- What happens next. -/
inductive Act (ι : Type)
  | lock (i : ι) (l : RowLock)
  | draw (i : ι)
  | gap
  | commit (i : ι)
  | rollback (i : ι)
  | read (limit : Nat)

variable {ι : Type} [DecidableEq ι]

/-- Transaction `i` becomes `t`. -/
def setWriter (w : World ι) (i : ι) (t : Writer) : World ι :=
  { w with writer := Function.update w.writer i t }

/-- One action. A transaction sees the committed events and its own; the counter belongs to
no transaction; the other tables of a commit are left open. -/
inductive Step (j : JobId) : World ι → Act ι → World ι → Prop
  | lock {w : World ι} {i l} (free : ∀ k, k ≠ i → l ∉ (w.writer k).held) :
      Step j w (.lock i l)
        (w.setWriter i { w.writer i with held := insert l (w.writer i).held })
  | draw {w : World ι} {i view view' id job eventType state changed payload t event}
      (sees : view.events = w.db.events ++ (w.writer i).drawn)
      (numbers : view.nextEventSequence = w.counter)
      (locked : locks ((Traced.appendEvent id job eventType state changed payload t).requests view) ⊆
        (w.writer i).held)
      (appended :
        (appendEvent id job eventType state changed payload t).Commits view event view') :
      Step j w (.draw i)
        { w.setWriter i { w.writer i with drawn := (w.writer i).drawn ++ [event] } with
          counter := view'.nextEventSequence }
  | gap {w : World ι} : Step j w .gap { w with counter := w.counter + 1 }
  | commit {w : World ι} {i db'} (adds : db'.events = w.db.events ++ (w.writer i).drawn) :
      Step j w (.commit i) { w.setWriter i .idle with db := db' }
  | rollback {w : World ι} {i} : Step j w (.rollback i) (w.setWriter i .idle)
  | read {w : World ι} {limit page}
      (lists : (listJobEventsAfter j w.seen limit).Commits w.db page w.db) :
      Step j w (.read limit)
        { w with seen := advance (·.sequence) w.seen page, got := w.got ++ page }

/-- Any number of transactions over a fresh database, and a reader of `j` that starts
behind `start`. -/
def system (ι : Type) [DecidableEq ι] (j : JobId) (start : Nat) : TSys (World ι) (Act ι) where
  init w := (∃ catalog, w.db = .empty catalog) ∧ w.counter = w.db.nextEventSequence ∧
    (∀ i, w.writer i = .idle) ∧ w.seen = start ∧ w.got = []
  step := Step j

/-! ## The order of a job's events -/

end World

/-- The uncommitted events of a transaction: drawn one after the other, under the locks of
their jobs, and above what is committed of these. -/
structure Writer.Sound (db : Db) (counter : Nat) (t : Writer) : Prop where
  numbered : ∀ e ∈ t.drawn, 0 < e.sequence ∧ e.sequence < counter
  locked : ∀ e ∈ t.drawn, .job e.jobId ∈ t.held
  above : ∀ e ∈ t.drawn, ∀ e' ∈ db.events, e'.jobId = e.jobId → e'.sequence < e.sequence
  ordered : t.drawn.Pairwise fun e e' => e.sequence < e'.sequence

theorem Writer.Sound.idle (db : Db) (counter : Nat) : Writer.idle.Sound db counter where
  numbered _ he := absurd he List.not_mem_nil
  locked _ he := absurd he List.not_mem_nil
  above _ he := absurd he List.not_mem_nil
  ordered := .nil

theorem Writer.Sound.later {db : Db} {counter : Nat} {t : Writer} (h : t.Sound db counter) :
    t.Sound db (counter + 1) where
  numbered e he := ⟨(h.numbered e he).1, Nat.lt_succ_of_lt (h.numbered e he).2⟩
  locked := h.locked
  above := h.above
  ordered := h.ordered

theorem Writer.Sound.lock {db : Db} {counter : Nat} {t : Writer} (h : t.Sound db counter)
    (l : RowLock) : Writer.Sound db counter { t with held := insert l t.held } where
  numbered := h.numbered
  locked e he := Or.inr (h.locked e he)
  above := h.above
  ordered := h.ordered

/-- The next number is above all that were drawn. -/
theorem Writer.Sound.draw {db : Db} {counter : Nat} {t : Writer} {event : JobEvent}
    (h : t.Sound db counter) (hdb : ∀ e ∈ db.events, e.sequence < counter) (hpos : 0 < counter)
    (hseq : event.sequence = counter) (hheld : .job event.jobId ∈ t.held) :
    Writer.Sound db (counter + 1) { t with drawn := t.drawn ++ [event] } where
  numbered e he := by
    rcases List.mem_append.mp he with hold | hnew
    · exact h.later.numbered e hold
    · rw [List.mem_singleton.mp hnew, hseq]
      exact ⟨hpos, Nat.lt_succ_self _⟩
  locked e he := by
    rcases List.mem_append.mp he with hold | hnew
    · exact h.locked e hold
    · rw [List.mem_singleton.mp hnew]
      exact hheld
  above e he e' he' hjob := by
    rcases List.mem_append.mp he with hold | hnew
    · exact h.above e hold e' he' hjob
    · rw [List.mem_singleton.mp hnew, hseq]
      exact hdb e' he'
  ordered := by
    refine List.pairwise_append.mpr ⟨h.ordered, List.pairwise_singleton _ _, fun e he e' he' => ?_⟩
    rw [List.mem_singleton.mp he', hseq]
    exact (h.numbered e he).2

namespace World

variable {ι : Type} [DecidableEq ι]

/-- What the schedule keeps true. -/
structure Sound (j : JobId) (start : Nat) (w : World ι) : Prop where
  exclusive : ∀ i k l, l ∈ (w.writer i).held → l ∈ (w.writer k).held → i = k
  writers : ∀ i, (w.writer i).Sound w.db w.counter
  numbered : ∀ e ∈ w.db.events, 0 < e.sequence ∧ e.sequence < w.counter
  ordered : ∀ job, (w.db.eventsOf job).Pairwise fun e e' => e.sequence < e'.sequence
  reader : w.got <+: unread (·.sequence) (w.db.eventsOf j) start
  seen : w.seen = advance (·.sequence) start w.got
  counting : 0 < w.counter

variable {j : JobId} {start : Nat} {w w' : World ι} {i : ι}

theorem setWriter_self (w : World ι) (i : ι) (t : Writer) : (w.setWriter i t).writer i = t := by
  simp [setWriter]

theorem setWriter_of_ne (w : World ι) {i k : ι} (t : Writer) (h : k ≠ i) :
    (w.setWriter i t).writer k = w.writer k := by
  simp [setWriter, h]

/-- The transactions, after one of them changed. -/
theorem writers_setWriter {t : Writer} {db : Db} {counter : Nat} (ht : t.Sound db counter)
    (h : ∀ k, k ≠ i → (w.writer k).Sound db counter) :
    ∀ k, ((w.setWriter i t).writer k).Sound db counter := by
  intro k
  by_cases hk : k = i
  · subst hk
    rw [setWriter_self]
    exact ht
  · rw [setWriter_of_ne w t hk]
    exact h k hk

/-- Locks stay exclusive when a transaction takes free ones, or gives up its own. -/
theorem exclusive_setWriter {t : Writer}
    (h : ∀ i k l, l ∈ (w.writer i).held → l ∈ (w.writer k).held → i = k)
    (ht : ∀ l ∈ t.held, ∀ k, k ≠ i → l ∉ (w.writer k).held) :
    ∀ a b l, l ∈ ((w.setWriter i t).writer a).held → l ∈ ((w.setWriter i t).writer b).held →
      a = b := by
  intro a b l ha hb
  by_cases hai : a = i <;> by_cases hbi : b = i
  · rw [hai, hbi]
  · subst hai
    rw [setWriter_self] at ha
    rw [setWriter_of_ne w t hbi] at hb
    exact absurd hb (ht l ha b hbi)
  · subst hbi
    rw [setWriter_self] at hb
    rw [setWriter_of_ne w t hai] at ha
    exact absurd ha (ht l hb a hai)
  · rw [setWriter_of_ne w t hai] at ha
    rw [setWriter_of_ne w t hbi] at hb
    exact h a b l ha hb

theorem Sound.init (h : (system ι j start).init w) : w.Sound j start := by
  obtain ⟨⟨catalog, hdb⟩, hcounter, hidle, hseen, hgot⟩ := h
  have hevents : w.db.events = [] := by rw [hdb]; rfl
  have hlog : ∀ job, w.db.eventsOf job = [] := fun job => by rw [Db.eventsOf, hevents]; rfl
  refine ⟨fun i k l hl => ?_, fun i => ?_, fun e he => ?_, fun job => ?_, ?_, ?_, ?_⟩
  · rw [hidle] at hl
    exact absurd hl (Set.notMem_empty l)
  · rw [hidle]
    exact .idle _ _
  · rw [hevents] at he
    exact absurd he List.not_mem_nil
  · rw [hlog]
    exact .nil
  · rw [hgot]
    exact List.nil_prefix
  · rw [hseen, hgot]
    rfl
  · rw [hcounter, hdb]
    exact Nat.one_pos

/-- A lock is taken. -/
theorem Sound.lock {l : RowLock} (h : w.Sound j start) (free : ∀ k, k ≠ i → l ∉ (w.writer k).held) :
    (w.setWriter i { w.writer i with held := insert l (w.writer i).held }).Sound j start := by
  refine { h with
    exclusive := exclusive_setWriter h.exclusive fun l' hl' k hk hmem => ?_
    writers := writers_setWriter ((h.writers i).lock l) fun k _ => h.writers k }
  rcases hl' with rfl | hold
  · exact free k hk hmem
  · exact hk (h.exclusive k i l' hmem hold)

/-- A number is drawn under the lock of its job. -/
theorem Sound.draw {event : JobEvent} (h : w.Sound j start) (hseq : event.sequence = w.counter)
    (hheld : .job event.jobId ∈ (w.writer i).held) :
    Sound j start { w.setWriter i { w.writer i with drawn := (w.writer i).drawn ++ [event] } with
      counter := w.counter + 1 } where
  exclusive := exclusive_setWriter h.exclusive fun l hl k hk hmem => hk (h.exclusive k i l hmem hl)
  writers := writers_setWriter
    ((h.writers i).draw (fun e he => (h.numbered e he).2) h.counting hseq hheld)
    fun k _ => (h.writers k).later
  numbered e he := ⟨(h.numbered e he).1, Nat.lt_succ_of_lt (h.numbered e he).2⟩
  ordered := h.ordered
  reader := h.reader
  seen := h.seen
  counting := Nat.succ_pos _

omit [DecidableEq ι] in
/-- A number is skipped. -/
theorem Sound.gap (h : w.Sound j start) : Sound j start { w with counter := w.counter + 1 } where
  exclusive := h.exclusive
  writers i := (h.writers i).later
  numbered e he := ⟨(h.numbered e he).1, Nat.lt_succ_of_lt (h.numbered e he).2⟩
  ordered := h.ordered
  reader := h.reader
  seen := h.seen
  counting := Nat.succ_pos _

/-- A transaction is rolled back. -/
theorem Sound.rollback (h : w.Sound j start) : (w.setWriter i .idle).Sound j start :=
  { h with
    exclusive := exclusive_setWriter h.exclusive fun l hl => absurd hl (Set.notMem_empty l)
    writers := writers_setWriter (.idle _ _) fun k _ => h.writers k }

/-- **Commit.** Nobody else has drawn a number for a job of the committed events. -/
theorem Sound.commit {db' : Db} (h : w.Sound j start)
    (adds : db'.events = w.db.events ++ (w.writer i).drawn) :
    Sound j start { w.setWriter i .idle with db := db' } := by
  obtain hmine := h.writers i
  have hlog : ∀ job, db'.eventsOf job =
      w.db.eventsOf job ++ (w.writer i).drawn.filter (·.jobId = job) := by
    intro job
    rw [Db.eventsOf, adds, List.filter_append]
    rfl
  have habove : ∀ job, ∀ e ∈ w.db.eventsOf job, ∀ e' ∈ (w.writer i).drawn.filter (·.jobId = job),
      e.sequence < e'.sequence := by
    intro job e he e' he'
    obtain ⟨hmem, hjob⟩ := List.mem_filter.mp he
    obtain ⟨hmem', hjob'⟩ := List.mem_filter.mp he'
    exact hmine.above e' hmem' e hmem ((of_decide_eq_true hjob).trans (of_decide_eq_true hjob').symm)
  refine ⟨exclusive_setWriter h.exclusive fun l hl => absurd hl (Set.notMem_empty l),
    writers_setWriter (.idle _ _) fun k hk => ?_, fun e he => ?_, fun job => ?_, ?_, h.seen,
    h.counting⟩
  · refine { h.writers k with above := fun e he e' he' hjob => ?_ }
    rw [adds] at he'
    rcases List.mem_append.mp he' with hold | hnew
    · exact (h.writers k).above e he e' hold hjob
    · -- both would hold the lock of the job
      have hlock := hmine.locked e' hnew
      rw [hjob] at hlock
      exact absurd (h.exclusive k i _ ((h.writers k).locked e he) hlock) hk
  · rw [adds] at he
    rcases List.mem_append.mp he with hold | hnew
    · exact h.numbered e hold
    · exact hmine.numbered e hnew
  · show (db'.eventsOf job).Pairwise _
    rw [hlog]
    exact List.pairwise_append.mpr ⟨h.ordered job, hmine.ordered.filter _, habove job⟩
  · show w.got <+: unread _ (db'.eventsOf j) start
    rw [hlog]
    exact prefix_unread_append h.reader

omit [DecidableEq ι] in
/-- **Read.** The page is the front of what is unread. -/
theorem Sound.read {limit : Nat} {page : List JobEvent} (h : w.Sound j start)
    (lists : (listJobEventsAfter j w.seen limit).Commits w.db page w.db) :
    Sound j start { w with seen := advance (·.sequence) w.seen page, got := w.got ++ page } := by
  obtain ⟨_, _, hpage⟩ := listJobEventsAfter_commits lists (h.ordered j)
  refine { h with reader := read_on (h.ordered j) h.reader ?_, seen := ?_ }
  · rw [← h.seen, hpage]
    exact List.take_prefix _ _
  · show advance _ w.seen page = advance _ start (w.got ++ page)
    rw [advance_append, h.seen]

/-- One action keeps it. -/
theorem Sound.step {a : Act ι} (h : w.Sound j start) (hs : Step j w a w') : w'.Sound j start := by
  cases hs with
  | lock free => exact h.lock free
  | draw sees numbers locked appended =>
      obtain ⟨hevent, _, _, _, _, hnext, _⟩ := appendEvent_commits appended
      rw [hnext, numbers]
      refine h.draw (by rw [hevent, numbers]) ?_
      rw [hevent]
      exact locked (appendEvent_locks appended)
  | gap => exact h.gap
  | commit adds => exact h.commit adds
  | rollback => exact h.rollback
  | read lists => exact h.read lists

theorem sound_invariant : (system ι j start).Invariant (Sound j start) :=
  TSys.Inductive.invariant ⟨fun _ => Sound.init, fun _ _ _ _ h hs => h.step hs⟩

/-! ## What the reader was given -/

omit [DecidableEq ι] in
theorem Sound.got_pairwise (h : w.Sound j start) :
    w.got.Pairwise fun e e' => e.sequence < e'.sequence :=
  (pairwise_unread (h.ordered j) start).sublist h.reader.sublist

omit [DecidableEq ι] in
/-- Exactly the events it has passed. -/
theorem Sound.mem_got (h : w.Sound j start) (e : JobEvent) :
    e ∈ w.got ↔ e ∈ w.db.events ∧ e.jobId = j ∧ start < e.sequence ∧ e.sequence ≤ w.seen := by
  rw [mem_read (h.ordered j) h.reader, ← h.seen, Db.eventsOf, List.mem_filter,
    decide_eq_true_iff, and_assoc]

/-! ## Later states -/

/-- The log of a job only grows, and at the end. -/
theorem Step.log {a : Act ι} (hs : Step j w a w') (job : JobId) :
    w.db.eventsOf job <+: w'.db.eventsOf job := by
  cases hs with
  | @commit i db' adds =>
      show w.db.eventsOf job <+: db'.eventsOf job
      unfold Db.eventsOf
      rw [adds, List.filter_append]
      exact List.prefix_append _ _
  | _ => exact List.prefix_rfl

theorem run_log {as : List (Act ι)} (hr : (system ι j start).Run w as w') (job : JobId) :
    w.db.eventsOf job <+: w'.db.eventsOf job := by
  induction hr with
  | nil => exact List.prefix_rfl
  | snoc _ hs ih => exact ih.trans (Step.log hs job)

/-- A read that returned. -/
def Act.isRead : Act ι → Bool
  | .read _ => true
  | _ => false

/-- **Progress.** Each read brings the reader closer to the end of an earlier log. -/
theorem run_reads {as : List (Act ι)} (hw : (system ι j start).Reachable w)
    (hr : (system ι j start).Run w as w') :
    (unread (·.sequence) (w.db.eventsOf j) w'.seen).length ≤
      (w.db.eventsOf j).length - as.countP Act.isRead := by
  induction hr with
  | nil => exact List.length_filter_le _ _
  | @snoc as w₁ a w₂ hrun hs ih =>
      have hsound := sound_invariant _ (hw.run hrun)
      obtain ⟨new, hnew⟩ := run_log hrun j
      rw [List.countP_append]
      cases hs with
      | @read limit page lists =>
          obtain ⟨_, hpos, hpage⟩ := listJobEventsAfter_commits lists (hsound.ordered j)
          show (unread (·.sequence) (w.db.eventsOf j)
            (advance (·.sequence) w₁.seen page)).length ≤ _ - (_ + 1)
          by_cases hempty : page = []
          · -- everything was read already
            subst hempty
            have hnone : unread (·.sequence) (w₁.db.eventsOf j) w₁.seen = [] := by
              rcases List.take_eq_nil_iff.mp hpage.symm with hz | hnil
              · omega
              · exact hnil
            rw [← hnew, unread_append, List.append_eq_nil_iff] at hnone
            rw [advance_nil, hnone.1]
            exact Nat.zero_le _
          · have hlog := hsound.ordered j
            rw [← hnew] at hlog
            have hsplit : unread (·.sequence) (w.db.eventsOf j ++ new) w₁.seen =
                page ++ (unread (·.sequence) (w.db.eventsOf j ++ new) w₁.seen).drop limit := by
              rw [hnew, hpage, List.take_append_drop]
            have hless : (unread (·.sequence) (w.db.eventsOf j)
                (advance (·.sequence) w₁.seen page)).length ≤
                (unread (·.sequence) (w.db.eventsOf j) w₁.seen).length - 1 :=
              unread_shorter hlog hempty hsplit
            omega
      | _ => exact ih

end World

open World in
/-- **Events become visible in order.** In every schedule of transactions that append
events, with a reader of job `j` that starts behind `start`:

* an event of a job below a visible one is visible, or never will be;
* the reader was given, once and in order, the visible events it has passed;
* after as many reads as the job has visible events, it was given all of these. -/
theorem events_visible_in_order (ι : Type) [DecidableEq ι] (j : JobId) (start : Nat) :
    (system ι j start).Invariant fun w =>
      (∀ as w', (system ι j start).Run w as w' → ∀ e ∈ w.db.events, ∀ e' ∈ w'.db.events,
        e'.jobId = e.jobId → e'.sequence < e.sequence → e' ∈ w.db.events) ∧
      (w.got.Pairwise (fun e e' => e.sequence < e'.sequence) ∧
        (∀ e, e ∈ w.got ↔
          e ∈ w.db.events ∧ e.jobId = j ∧ start < e.sequence ∧ e.sequence ≤ w.seen) ∧
        ∀ e ∈ w.db.events, 0 < e.sequence) ∧
      ∀ as w', (system ι j start).Run w as w' →
        (w.db.eventsOf j).length ≤ as.countP Act.isRead →
        ∀ e ∈ w.db.events, e.jobId = j → start < e.sequence → e ∈ w'.got := by
  intro w hw
  have hsound := sound_invariant w hw
  refine ⟨fun as w' hr e he e' he' hjob hlt => ?_,
    ⟨hsound.got_pairwise, hsound.mem_got, fun e he => (hsound.numbered e he).1⟩,
    fun as w' hr hreads e he hjob hstart => ?_⟩
  · have hsound' := sound_invariant w' (hw.run hr)
    obtain ⟨new, hnew⟩ := run_log hr e.jobId
    have hmem : e ∈ w.db.eventsOf e.jobId := List.mem_filter.mpr ⟨he, decide_eq_true rfl⟩
    have hmem' : e' ∈ w.db.eventsOf e.jobId ++ new :=
      hnew ▸ List.mem_filter.mpr ⟨he', decide_eq_true hjob⟩
    rcases List.mem_append.mp hmem' with hold | hlater
    · exact (List.mem_filter.mp hold).1
    · -- later events of the job are above `e`
      obtain ⟨_, _, habove⟩ := List.pairwise_append.mp (hnew ▸ hsound'.ordered e.jobId)
      have hgt := habove e hmem e' hlater
      omega
  · have hsound' := sound_invariant w' (hw.run hr)
    have hlog : e ∈ w.db.eventsOf j := List.mem_filter.mpr ⟨he, decide_eq_true hjob⟩
    have hnone : unread (·.sequence) (w.db.eventsOf j) w'.seen = [] := by
      have hlen := run_reads hw hr
      exact List.eq_nil_of_length_eq_zero (by omega)
    have hpast : ¬ w'.seen < e.sequence := by
      intro hlt
      have hunread := mem_unread.mpr ⟨hlog, hlt⟩
      rw [hnone] at hunread
      exact absurd hunread List.not_mem_nil
    have hvisible := (run_log hr j).subset hlog
    rw [hsound'.mem_got]
    exact ⟨(List.mem_filter.mp hvisible).1, hjob, hstart, Nat.not_lt.mp hpast⟩

end RunAnywhere
