import RunAnywhere.Api.Events
import RunAnywhere.Theorems.EventLog
import RunAnywhere.Theorems.Parked
import RunAnywhere.Theorems.Passed

/-!
# The event stream and the end of a job

A client streams the events of one job, comes back with the last id it received whenever it
likes, and any calls of the repository are made in between:

* **log** — the event with which a job ends is its last (`Db.endsLast_invariant`);
* **stream** — what a client received is the front of the log behind its first
  `Last-Event-ID` (`Streaming.Sound.received`);
* **the gap** — between an empty list and the read of the job the job may end; then the
  stream closes and its last event is not sent (`stream_misses_end`). In every run without
  this a closed stream sent everything (`stream_complete`).
-/

namespace RunAnywhere

open Logic

/-! ## The end of a log -/

/-- The job has ended. -/
def Db.ended (db : Db) (j : JobId) : Bool := (db.state? j).any (·.isTerminal)

/-- What a call does to the log of a job: nothing, or one event more of a job that had not
ended. -/
inductive Db.LogStep (j : JobId) (db db' : Db) : Prop
  | same (events : db'.eventsOf j = db.eventsOf j) (state : db'.state? j = db.state? j)
  | appended {event : JobEvent} (live : db.ended j = false)
      (events : db'.eventsOf j = db.eventsOf j ++ [event])
      (sequence : event.sequence = db.nextEventSequence) (state : db'.state? j = event.state)
      (carried : event.state.isSome = true)

/-- **Log steps.** Each step of the repository is one, for every job. -/
theorem repository_step_log {Allowed : Op → Prop} {db db' : Db} {call : Call}
    (hdb : (repository Allowed).Reachable db) (h : (repository Allowed).step db call db')
    (j : JobId) : Db.LogStep j db db' := by
  have hsound := logSound_invariant Allowed db hdb
  rcases repository_step_cases h with ⟨out, _, hc⟩ | ⟨_, rfl⟩
  · have hlogs := Op.logs hc
    cases hw : call.op.wrote out with
    | none =>
        rw [hw] at hlogs
        refine .same ?_ (hlogs.states j)
        unfold Db.eventsOf
        rw [hlogs.events]
    | some k =>
        rw [hw] at hlogs
        obtain ⟨row, hwrote⟩ := hlogs
        obtain ⟨event, hlogged, hseq, _⟩ := hwrote.logged hsound.keys
        have hevents := Db.eventsOf_append db j hlogged.events
        by_cases hk : k = j
        · subst hk
          rw [if_pos hlogged.job] at hevents
          have hstate : db'.state? k = event.state := by
            rw [hlogged.state, Db.state?, hlogged.row?]
            rfl
          refine .appended ?_ hevents hseq hstate (by rw [hlogged.state]; rfl)
          rcases Op.rows hc k with ⟨_, hsame⟩ | ⟨new, _, hchange⟩
          · rw [hsame] at hevents
            exact absurd hevents.symm (by simp)
          · cases hrow : db.job? k with
            | none => simp [Db.ended, Db.state?, hrow]
            | some old =>
                rw [hrow] at hchange
                simpa [Db.ended, Db.state?, hrow] using hchange.live
        · rw [if_neg fun heq => hk (hlogged.job.symm.trans heq), List.append_nil] at hevents
          refine .same hevents ?_
          unfold Db.state?
          rw [hwrote.others j (Ne.symm hk)]
  · exact .same rfl rfl

/-- The event with which a job ends is its last, and then the job has ended. -/
def Db.EndsLast (db : Db) : Prop :=
  ∀ j, ∀ e ∈ db.eventsOf j, e.ends = true →
    db.ended j = true ∧ ∀ e' ∈ db.eventsOf j, e'.sequence ≤ e.sequence

theorem Db.endsLast_invariant (Allowed : Op → Prop) :
    (repository Allowed).Invariant Db.EndsLast := by
  refine TSys.Inductive.invariant ⟨?_, fun db call db' hr h hstep j e he hends => ?_⟩
  · rintro _ ⟨catalog, rfl⟩ j e he
    exact absurd he List.not_mem_nil
  · have hsound := logSound_invariant Allowed db hr
    cases repository_step_log hr hstep j with
    | same hevents hstate =>
        rw [hevents] at he ⊢
        unfold Db.ended
        rw [hstate]
        exact h j e he hends
    | @appended event hlive hevents hseq hstate =>
        rw [hevents] at he ⊢
        rcases List.mem_append.mp he with hold | hnew
        · -- an ended job logs nothing
          rw [(h j e hold hends).1] at hlive
          cases hlive
        · obtain rfl := List.mem_singleton.mp hnew
          refine ⟨?_, fun e' he' => ?_⟩
          · unfold Db.ended
            rw [hstate]
            exact hends
          · rcases List.mem_append.mp he' with hold | hsame
            · have hlt := hsound.bounded e' (List.mem_filter.mp hold).1
              omega
            · rw [List.mem_singleton.mp hsame]

/-- A job that has ended has such an event. -/
theorem Db.LogSound.ending {db : Db} (h : db.LogSound) {j : JobId} (hend : db.ended j = true) :
    ∃ e ∈ db.eventsOf j, e.ends = true := by
  obtain ⟨state, hstate, hterminal⟩ := (Option.any_eq_true _ _).mp hend
  obtain ⟨row, hrow, rfl⟩ := Option.map_eq_some_iff.mp hstate
  obtain ⟨e, hlast, he⟩ := h.truth j row hrow
  refine ⟨e, hlast.mem, ?_⟩
  unfold JobEvent.ends
  rw [he]
  exact hterminal

theorem Db.LogSound.ordered {db : Db} (h : db.LogSound) (j : JobId) :
    (db.eventsOf j).Pairwise fun e e' => e.sequence < e'.sequence :=
  h.increasing.filter _

/-! ## The system -/

/-- The database, the shutdown signal, the stream of the client's connection and what the
client received, over all its connections. `header` came with the first of these. -/
structure Streaming where
  db : Db
  shutdown : Bool
  header : Option String
  state : EventStreamState
  phase : StreamPhase
  received : List JobEvent

namespace Streaming

/-- What happens next. -/
inductive Act
  | call (op : Op) (time : DbTime)
  | poll
  | fail
  | stop
  | reconnect

/-- The header of a client that comes back. -/
def lastEventId (s : Streaming) : Option String :=
  match s.received.getLast? with
  | some event => some (toString event.sequence)
  | none => s.header

/-- One action: a call of the repository, a poll of the stream, a read or a serialization
that fails, the shutdown signal, or a new connection, whatever became of the old one. -/
def act (s : Streaming) : Act → Option Streaming
  | .call op time => some { s with db := ((op.tx time).exec s.db).2 }
  | .poll =>
      let polled := s.state.poll s.phase s.shutdown s.db
      some { s with
        state := polled.state
        phase := polled.phase
        received := s.received ++ polled.event.toList }
  | .fail =>
      match s.phase with
      | .loop | .listed => some { s with phase := .ended .failed }
      | _ => none
  | .stop => some { s with shutdown := true }
  | .reconnect =>
      match parseLastEventId s.lastEventId with
      | .ok n => some { s with state := .opened s.state.jobId n, phase := .loop }
      | .error _ => none

/-- Actions one after the other. -/
def replay (s : Streaming) : List Act → Option Streaming
  | [] => some s
  | a :: rest => (s.act a).bind fun s' => replay s' rest

/-- The job ends between an empty list and the read of the job, with an event the client
has not passed. -/
def Misses (s s' : Streaming) : Prop :=
  s.phase = .listed ∧ s.db.ended s.state.jobId = false ∧ s'.db.ended s.state.jobId = true ∧
    s.state.afterSequence < s.db.nextEventSequence

/-- Streams of job `j` from event `n` on, opened over any reachable database. -/
def system (Allowed : Op → Prop) (cond : Streaming → Streaming → Prop) (j : JobId) (n : Nat) :
    TSys Streaming Act where
  init s := (repository Allowed).Reachable s.db ∧ (s.db.job? j).isSome = true ∧
    parseLastEventId s.header = .ok n ∧ s.state = .opened j n ∧ s.phase = .loop ∧ s.received = []
  step s a s' := s.act a = some s' ∧ (∀ op t, a = .call op t → Allowed op) ∧ cond s s'

/-! ## What a client received -/

variable {Allowed : Op → Prop} {cond : Streaming → Streaming → Prop} {j : JobId} {n : Nat}
  {s s' : Streaming}

/-- The last id received. -/
def cursor (n : Nat) (s : Streaming) : Nat := advance (·.sequence) n s.received

/-- What every step keeps. -/
structure Sound (Allowed : Op → Prop) (j : JobId) (n : Nat) (s : Streaming) : Prop where
  db : (repository Allowed).Reachable s.db
  found : (s.db.state? j).isSome = true
  header : parseLastEventId s.header = .ok n
  job : s.state.jobId = j
  received : s.received <+: unread (·.sequence) (s.db.eventsOf j) n
  after : (∀ why, s.phase ≠ .ended why) → s.state.afterSequence = s.cursor n
  pending : (∀ why, s.phase ≠ .ended why) →
    s.state.pending <+: unread (·.sequence) (s.db.eventsOf j) (s.cursor n)
  closing : s.state.closeNext = true → ∃ e ∈ s.received, e.ends = true
  listed : s.phase = .listed → s.state.pending = []
  closed : s.phase = .ended .closed → ∃ e ∈ s.received, e.ends = true
  there : s.phase ≠ .ended .disappeared

theorem Sound.log (h : s.Sound Allowed j n) : s.db.LogSound :=
  logSound_invariant Allowed _ h.db

theorem Sound.init (h : (system Allowed cond j n).init s) : s.Sound Allowed j n := by
  obtain ⟨hdb, hrow, hheader, hstate, hphase, hreceived⟩ := h
  have hcursor : s.cursor n = n := by
    unfold cursor
    rw [hreceived]
    rfl
  refine ⟨hdb, ?_, hheader, by rw [hstate]; rfl, ?_, fun _ => ?_, fun _ => ?_, ?_, ?_, ?_, ?_⟩
  · unfold Db.state?
    rw [Option.isSome_map]
    exact hrow
  · rw [hreceived]
    exact List.nil_prefix
  · rw [hcursor, hstate]
    rfl
  · rw [hstate]
    exact List.nil_prefix
  · rw [hstate]
    exact nofun
  · rw [hphase]
    exact nofun
  · rw [hphase]
    exact nofun
  · rw [hphase]
    exact nofun

/-- A call of the repository is a step of its log. -/
theorem Sound.logStep (h : s.Sound Allowed j n) {op : Op} (ha : Allowed op) (t : DbTime) :
    Db.LogStep j s.db ((op.tx t).exec s.db).2 :=
  repository_step_log h.db (repository_step_exec ha t s.db) j

theorem Sound.call (h : s.Sound Allowed j n) {op : Op} (ha : Allowed op) (t : DbTime) :
    Sound Allowed j n { s with db := ((op.tx t).exec s.db).2 } := by
  have hdb := h.db.step (repository_step_exec ha t s.db)
  cases h.logStep ha t with
  | same hevents hstate =>
      refine { h with db := hdb, found := ?_, received := ?_, pending := ?_ }
      · exact hstate ▸ h.found
      · exact hevents ▸ h.received
      · exact hevents ▸ h.pending
  | appended hlive hevents hseq hstate hsome =>
      refine { h with db := hdb, found := ?_, received := ?_, pending := ?_ }
      · exact hstate ▸ hsome
      · exact hevents ▸ prefix_unread_append h.received
      · exact hevents ▸ fun hopen => prefix_unread_append (h.pending hopen)

/-- The stream after a poll. -/
def polled (s : Streaming) (p : Polled) : Streaming :=
  { s with state := p.state, phase := p.phase, received := s.received ++ p.event.toList }

/-- A poll that sends nothing and leaves the stream's state alone. -/
theorem Sound.waits (h : s.Sound Allowed j n) {phase : StreamPhase}
    (hopen : (∃ why, phase = .ended why) ∨ ∀ why, s.phase ≠ .ended why)
    (hlisted : phase = .listed → s.state.pending = [])
    (hclosed : phase = .ended .closed → ∃ e ∈ s.received, e.ends = true)
    (hthere : phase ≠ .ended .disappeared) :
    (s.polled ⟨s.state, phase, none⟩).Sound Allowed j n := by
  have hsame : s.polled ⟨s.state, phase, none⟩ = { s with phase := phase } := by
    unfold polled
    rw [Option.toList_none, List.append_nil]
  have hwas : (∀ why, phase ≠ .ended why) → ∀ why, s.phase ≠ .ended why := by
    intro hphase
    rcases hopen with ⟨why, hended⟩ | hopen
    · exact absurd hended (hphase why)
    · exact hopen
  rw [hsame]
  exact { h with
    after := fun hphase => h.after (hwas hphase)
    pending := fun hphase => h.pending (hwas hphase)
    listed := hlisted
    closed := hclosed
    there := hthere }

/-- An event sent: the first pending one. -/
theorem Sound.emit (h : s.Sound Allowed j n) (hopen : ∀ why, s.phase ≠ .ended why)
    {event : JobEvent} {pending : List JobEvent} (hnext : s.state.pending = event :: pending) :
    (s.polled ⟨{ s.state with
      pending := pending
      afterSequence := event.sequence
      closeNext := event.ends }, .loop, some event⟩).Sound Allowed j n := by
  have hfront := h.pending hopen
  rw [hnext] at hfront
  have hcursor : advance (·.sequence) n (s.received ++ [event]) = event.sequence := advance_snoc _ _ _
  obtain ⟨rest, hrest⟩ := hfront
  have hsplit : unread (·.sequence) (s.db.eventsOf j) (s.cursor n) = [event] ++ (pending ++ rest) :=
    hrest.symm
  have hleft := unread_advance (h.log.ordered j) hsplit
  refine { h with
    received := read_on (h.log.ordered j) h.received ⟨pending ++ rest, hsplit.symm⟩
    after := fun _ => hcursor.symm
    pending := fun _ => ?_
    closing := fun hends => ⟨event, List.mem_append_right _ List.mem_cons_self, hends⟩
    listed := nofun
    closed := nofun
    there := nofun }
  show pending <+: unread _ (s.db.eventsOf j) (advance (·.sequence) n (s.received ++ [event]))
  rw [hcursor]
  exact ⟨rest, hleft.symm⟩

/-- A batch fetched. -/
theorem Sound.fetch (h : s.Sound Allowed j n) (hopen : ∀ why, s.phase ≠ .ended why)
    {page : List JobEvent}
    (hpage : page <+: unread (·.sequence) (s.db.eventsOf s.state.jobId) s.state.afterSequence) :
    (s.polled ⟨{ s.state with pending := page }, .loop, none⟩).Sound Allowed j n := by
  rw [h.job, h.after hopen] at hpage
  have hsame : s.polled ⟨{ s.state with pending := page }, .loop, none⟩ =
      { s with state := { s.state with pending := page }, phase := .loop } := by
    unfold polled
    rw [Option.toList_none, List.append_nil]
  rw [hsame]
  exact { h with
    after := fun _ => h.after hopen
    pending := fun _ => hpage
    listed := nofun
    closed := nofun
    there := nofun }

/-- The job of the stream, read. -/
theorem Sound.check_eq (h : s.Sound Allowed j n) :
    s.state.check s.db =
      if s.db.ended j then ⟨s.state, .ended .terminal, none⟩ else ⟨s.state, .sleeping, none⟩ := by
  obtain ⟨state, hstate⟩ := Option.isSome_iff_exists.mp h.found
  obtain ⟨row, hrow, rfl⟩ := Option.map_eq_some_iff.mp hstate
  have hread : getJob s.state.jobId s.db = .ok (some (row.intoJob j), s.db) := by
    show Except.ok ((s.db.job? s.state.jobId).map (·.intoJob s.state.jobId), s.db) = _
    rw [h.job, hrow]
    rfl
  unfold EventStreamState.check Db.ended
  rw [hread, hstate]
  rfl

theorem Sound.poll (h : s.Sound Allowed j n) :
    (s.polled (s.state.poll s.phase s.shutdown s.db)).Sound Allowed j n := by
  cases hphase : s.phase with
  | loop =>
      have hopen : ∀ why, s.phase ≠ .ended why := fun why => by rw [hphase]; exact nofun
      show (s.polled (s.state.turn s.shutdown s.db)).Sound Allowed j n
      have hturn := EventStreamState.turn_turned s.state s.shutdown (h.log.ordered s.state.jobId)
      generalize s.state.turn s.shutdown s.db = turned at hturn
      cases hturn with
      | closed hclose => exact h.waits (Or.inr hopen) nofun (fun _ => h.closing hclose) nofun
      | stopped => exact h.waits (Or.inr hopen) nofun nofun nofun
      | emitted hnext => exact h.emit hopen hnext
      | fetched _ hfront => exact h.fetch hopen hfront
      | listed hnone => exact h.waits (Or.inr hopen) (fun _ => hnone) nofun nofun
      | failed => exact h.waits (Or.inr hopen) nofun nofun nofun
  | listed =>
      have hopen : ∀ why, s.phase ≠ .ended why := fun why => by rw [hphase]; exact nofun
      show (s.polled (s.state.check s.db)).Sound Allowed j n
      rw [h.check_eq]
      by_cases hend : s.db.ended j = true
      · rw [if_pos hend]
        exact h.waits (Or.inr hopen) nofun nofun nofun
      · rw [if_neg hend]
        exact h.waits (Or.inr hopen) nofun nofun nofun
  | sleeping =>
      have hopen : ∀ why, s.phase ≠ .ended why := fun why => by rw [hphase]; exact nofun
      show (s.polled (s.state.wake s.shutdown)).Sound Allowed j n
      unfold EventStreamState.wake
      split
      · exact h.waits (Or.inr hopen) nofun nofun nofun
      · exact h.waits (Or.inr hopen) nofun nofun nofun
  | ended why =>
      show (s.polled ⟨s.state, .ended why, none⟩).Sound Allowed j n
      rw [← hphase]
      exact h.waits (Or.inl ⟨why, hphase⟩) h.listed h.closed h.there

/-- A new connection starts behind what was received. -/
theorem Sound.reconnect (h : s.Sound Allowed j n) {m : Nat}
    (hm : parseLastEventId s.lastEventId = .ok m) :
    Sound Allowed j n { s with state := .opened s.state.jobId m, phase := .loop } := by
  have hcursor : m = s.cursor n := by
    unfold cursor
    unfold lastEventId at hm
    rcases s.received.eq_nil_or_concat with hnil | ⟨init, last, hlast⟩
    · rw [hnil] at hm ⊢
      exact (Except.ok.inj (h.header.symm.trans hm)).symm
    · rw [hlast, List.concat_eq_append] at hm ⊢
      rw [List.getLast?_append_of_ne_nil _ (by simp)] at hm
      rw [advance_snoc]
      exact (parseLastEventId_toString.mp hm).2
  exact { h with
    after := fun _ => hcursor
    pending := fun _ => List.nil_prefix
    closing := nofun
    listed := nofun
    closed := nofun
    there := nofun }

theorem Sound.step {a : Act} (h : s.Sound Allowed j n) (hs : (system Allowed cond j n).step s a s') :
    s'.Sound Allowed j n := by
  obtain ⟨hact, hallowed, _⟩ := hs
  cases a with
  | call op time =>
      obtain rfl := Option.some.inj hact
      exact h.call (hallowed op time rfl) time
  | poll =>
      obtain rfl := Option.some.inj hact
      exact h.poll
  | fail =>
      have hend : ∀ why, why ≠ .closed → why ≠ .disappeared →
          Sound Allowed j n { s with phase := .ended why } := fun why hclosed hgone =>
        { h with
          after := fun hopen => absurd rfl (hopen why)
          pending := fun hopen => absurd rfl (hopen why)
          listed := nofun
          closed := fun heq => absurd (StreamPhase.ended.inj heq) hclosed
          there := fun heq => hgone (StreamPhase.ended.inj heq) }
      simp only [act] at hact
      split at hact
      · obtain rfl := Option.some.inj hact
        exact hend .failed nofun nofun
      · obtain rfl := Option.some.inj hact
        exact hend .failed nofun nofun
      · cases hact
  | stop =>
      obtain rfl := Option.some.inj hact
      exact { h with }
  | reconnect =>
      simp only [act] at hact
      split at hact
      · next m hm =>
          obtain rfl := Option.some.inj hact
          exact h.reconnect hm
      · cases hact

/-! ## Where the stream is right -/

theorem Sound.mem_received (h : s.Sound Allowed j n) (e : JobEvent) :
    e ∈ s.received ↔
      e ∈ s.db.events ∧ e.jobId = j ∧ n < e.sequence ∧ e.sequence ≤ s.cursor n := by
  rw [mem_read (h.log.ordered j) h.received, Db.eventsOf, List.mem_filter, decide_eq_true_iff,
    and_assoc]
  rfl

/-- A job that is found to have ended has nothing unread. -/
structure Whole (j : JobId) (n : Nat) (s : Streaming) : Prop where
  listed : s.phase = .listed → s.db.ended j = true →
    unread (·.sequence) (s.db.eventsOf j) (s.cursor n) = []
  terminal : s.phase = .ended .terminal → s.db.ended j = true ∧
    unread (·.sequence) (s.db.eventsOf j) (s.cursor n) = []

theorem Whole.call (h : s.Whole j n) (hs : s.Sound Allowed j n) {op : Op} (ha : Allowed op)
    (t : DbTime) (hmiss : ¬ s.Misses { s with db := ((op.tx t).exec s.db).2 }) :
    Whole j n { s with db := ((op.tx t).exec s.db).2 } := by
  cases hs.logStep ha t with
  | same hevents hstate =>
      have hended : Db.ended ((op.tx t).exec s.db).2 j = s.db.ended j := by
        unfold Db.ended
        rw [hstate]
      refine ⟨fun hphase hend => ?_, fun hphase => ?_⟩
      · show unread _ (Db.eventsOf ((op.tx t).exec s.db).2 j) _ = []
        rw [hevents]
        exact h.listed hphase (hended ▸ hend)
      · show Db.ended ((op.tx t).exec s.db).2 j = true ∧
          unread _ (Db.eventsOf ((op.tx t).exec s.db).2 j) _ = []
        rw [hevents, hended]
        exact h.terminal hphase
  | @appended event hlive hevents hseq hstate =>
      refine ⟨fun hphase hend => ?_, fun hphase => ?_⟩
      · -- the client has passed the number of the new event
        have hpast : s.db.nextEventSequence ≤ s.cursor n := by
          rw [← hs.after fun why heq => by rw [hphase] at heq; cases heq]
          by_contra hlt
          refine hmiss ⟨hphase, ?_, ?_, Nat.not_le.mp hlt⟩
          · rw [hs.job]
            exact hlive
          · rw [hs.job]
            exact hend
        show unread _ (Db.eventsOf ((op.tx t).exec s.db).2 j) _ = []
        rw [hevents]
        refine List.filter_eq_nil_iff.mpr fun e he => ?_
        rw [decide_eq_true_iff, Nat.not_lt]
        show e.sequence ≤ s.cursor n
        rcases List.mem_append.mp he with hold | hnew
        · have hlt := hs.log.bounded e (List.mem_filter.mp hold).1
          omega
        · rw [List.mem_singleton.mp hnew, hseq]
          exact hpast
      · rw [(h.terminal hphase).1] at hlive
        cases hlive

theorem Whole.poll (h : s.Whole j n) (hs : s.Sound Allowed j n) :
    (s.polled (s.state.poll s.phase s.shutdown s.db)).Whole j n := by
  have hquiet : ∀ {phase}, s.cursor n = (s.polled ⟨s.state, phase, none⟩).cursor n := by
    intro phase
    unfold cursor polled
    rw [Option.toList_none, List.append_nil]
  cases hphase : s.phase with
  | loop =>
      have hopen : ∀ why, s.phase ≠ .ended why := fun why => by rw [hphase]; exact nofun
      show (s.polled (s.state.turn s.shutdown s.db)).Whole j n
      have hturn := EventStreamState.turn_turned s.state s.shutdown (hs.log.ordered s.state.jobId)
      generalize s.state.turn s.shutdown s.db = turned at hturn
      cases hturn with
      | listed _ hread =>
          rw [hs.job, hs.after hopen] at hread
          exact ⟨fun _ _ => hquiet ▸ hread, nofun⟩
      | _ => exact ⟨nofun, nofun⟩
  | listed =>
      show (s.polled (s.state.check s.db)).Whole j n
      rw [hs.check_eq]
      by_cases hend : s.db.ended j = true
      · rw [if_pos hend]
        exact ⟨nofun, fun _ => ⟨hend, hquiet ▸ h.listed hphase hend⟩⟩
      · rw [if_neg hend]
        exact ⟨nofun, nofun⟩
  | sleeping =>
      show (s.polled (s.state.wake s.shutdown)).Whole j n
      unfold EventStreamState.wake
      split
      · exact ⟨nofun, nofun⟩
      · exact ⟨nofun, nofun⟩
  | ended why =>
      show (s.polled ⟨s.state, .ended why, none⟩).Whole j n
      refine ⟨nofun, fun heq => ?_⟩
      obtain ⟨hend, hread⟩ := h.terminal (hphase.trans heq)
      exact ⟨hend, hquiet ▸ hread⟩

theorem whole_invariant :
    (system Allowed (fun s s' => ¬ s.Misses s') j n).Invariant fun s =>
      s.Sound Allowed j n ∧ s.Whole j n := by
  refine TSys.Inductive.invariant ⟨fun s hi => ⟨.init hi, ?_⟩, fun s a s' _ ⟨hs, h⟩ hstep =>
    ⟨hs.step hstep, ?_⟩⟩
  · obtain ⟨_, _, _, _, hphase, _⟩ := hi
    constructor
    · rw [hphase]
      exact nofun
    · rw [hphase]
      exact nofun
  · obtain ⟨hact, hallowed, hmiss⟩ := hstep
    cases a with
    | call op time =>
        obtain rfl := Option.some.inj hact
        exact h.call hs (hallowed op time rfl) time hmiss
    | poll =>
        obtain rfl := Option.some.inj hact
        exact h.poll hs
    | fail =>
        simp only [act] at hact
        split at hact
        · obtain rfl := Option.some.inj hact
          exact ⟨nofun, nofun⟩
        · obtain rfl := Option.some.inj hact
          exact ⟨nofun, nofun⟩
        · cases hact
    | stop =>
        obtain rfl := Option.some.inj hact
        exact ⟨h.listed, h.terminal⟩
    | reconnect =>
        simp only [act] at hact
        split at hact
        · obtain rfl := Option.some.inj hact
          exact ⟨nofun, nofun⟩
        · cases hact

/-- The client has every event of the job behind `n`, once and in order, and the last of
them is the end of the job. -/
structure Complete (j : JobId) (n : Nat) (s : Streaming) : Prop where
  ordered : s.received.Pairwise fun e e' => e.sequence < e'.sequence
  covers : ∀ e, e ∈ s.received ↔ e ∈ s.db.events ∧ e.jobId = j ∧ n < e.sequence
  ending : ∃ e ∈ s.db.eventsOf j, e.ends = true ∧ ∀ e' ∈ s.db.eventsOf j, e'.sequence ≤ e.sequence

/-- Nothing unread, and the job has ended. -/
theorem Sound.complete (h : s.Sound Allowed j n) (hend : s.db.ended j = true)
    (hread : unread (·.sequence) (s.db.eventsOf j) (s.cursor n) = []) : s.Complete j n := by
  obtain ⟨e, he, hends⟩ := h.log.ending hend
  refine ⟨(pairwise_unread (h.log.ordered j) n).sublist h.received.sublist, fun e => ?_, e, he,
    hends, (Db.endsLast_invariant Allowed _ h.db j e he hends).2⟩
  rw [h.mem_received]
  constructor
  · rintro ⟨hmem, hjob, hlt, _⟩
    exact ⟨hmem, hjob, hlt⟩
  · rintro ⟨hmem, hjob, hlt⟩
    refine ⟨hmem, hjob, hlt, Nat.not_lt.mp fun habove => ?_⟩
    have hunread : e ∈ unread (·.sequence) (s.db.eventsOf j) (s.cursor n) :=
      mem_unread.mpr ⟨List.mem_filter.mpr ⟨hmem, decide_eq_true hjob⟩, habove⟩
    rw [hread] at hunread
    exact absurd hunread List.not_mem_nil

/-- Behind the end of a job nothing is unread. -/
theorem Sound.complete_of_end (h : s.Sound Allowed j n) {e : JobEvent} (he : e ∈ s.received)
    (hends : e.ends = true) : s.Complete j n := by
  obtain ⟨hmem, hjob, _, hle⟩ := (h.mem_received e).mp he
  have hlog : e ∈ s.db.eventsOf j := List.mem_filter.mpr ⟨hmem, decide_eq_true hjob⟩
  obtain ⟨hend, hlast⟩ := Db.endsLast_invariant Allowed _ h.db j e hlog hends
  refine h.complete hend (List.filter_eq_nil_iff.mpr fun e' he' => ?_)
  rw [decide_eq_true_iff, Nat.not_lt]
  exact Nat.le_trans (hlast e' he') hle

/-- **The gap.** The job ends between the two reads: the next poll closes the stream, and the
client lacks the last event. -/
theorem Sound.misses (h : s.Sound Allowed j n) {op : Op} (ha : Allowed op) {t : DbTime}
    (hact : s.act (.call op t) = some s') (hmiss : s.Misses s') :
    ∃ s'', s'.act .poll = some s'' ∧ s''.phase = .ended .terminal ∧ ¬ s''.Complete j n := by
  obtain rfl := Option.some.inj hact
  obtain ⟨hphase, hlive, hend, hlt⟩ := hmiss
  rw [h.job] at hlive hend
  have hs' := h.call ha t
  have hpoll : s.state.poll s.phase s.shutdown ((op.tx t).exec s.db).2 =
      ⟨s.state, .ended .terminal, none⟩ := by
    rw [hphase]
    show s.state.check ((op.tx t).exec s.db).2 = _
    exact hs'.check_eq.trans (if_pos hend)
  refine ⟨_, rfl, congrArg Polled.phase hpoll, fun hc => ?_⟩
  cases h.logStep ha t with
  | same _ hstate =>
      unfold Db.ended at hend hlive
      rw [hstate, hlive] at hend
      cases hend
  | @appended event _ hevents hseq =>
      have hcursor := h.after fun why heq => by rw [hphase] at heq; cases heq
      have hmem : event ∈ Db.eventsOf ((op.tx t).exec s.db).2 j := by
        rw [hevents]
        exact List.mem_append_right _ List.mem_cons_self
      obtain ⟨hdb, hjob⟩ := List.mem_filter.mp hmem
      have hstart : n ≤ s.cursor n := by
        refine (advance_spec (fun e he => ((h.mem_received e).mp he).2.2.1) ?_).1
        exact (pairwise_unread (h.log.ordered j) n).sublist h.received.sublist
      have hsent := (hc.covers event).mpr ⟨hdb, of_decide_eq_true hjob, by omega⟩
      have hsame : s.received ++ (s.state.poll s.phase s.shutdown
          ((op.tx t).exec s.db).2).event.toList = s.received := by
        rw [hpoll, Option.toList_none, List.append_nil]
      have hold := (h.mem_received event).mp (hsame ▸ hsent)
      omega

end Streaming

open Streaming in
/-- **The stream is complete** in every run in which the job does not end between an empty
list and the read of the job: whatever the connections in between, a stream that was closed
for another reason than an error or the shutdown has sent every event behind the first
`Last-Event-ID`. Where the job ends there, the next poll closes the stream without its last
event. -/
theorem stream_complete (Allowed : Op → Prop) (j : JobId) (n : Nat) :
    (system Allowed (fun s s' => ¬ s.Misses s') j n).Invariant (fun s =>
      ∀ why, s.phase = .ended why → why ≠ .failed → why ≠ .shutdown → s.Complete j n) ∧
    (system Allowed (fun _ _ => True) j n).Invariant (fun s =>
      (∀ e, e ∈ s.received ↔
        e ∈ s.db.events ∧ e.jobId = j ∧ n < e.sequence ∧ e.sequence ≤ s.cursor n) ∧
      ∀ op t s', Allowed op → s.act (.call op t) = some s' → s.Misses s' →
        ∃ s'', s'.act .poll = some s'' ∧ s''.phase = .ended .terminal ∧ ¬ s''.Complete j n) := by
  constructor
  · intro s hr why hwhy hfailed hshutdown
    obtain ⟨hs, hwhole⟩ := whole_invariant s hr
    cases why with
    | closed =>
        obtain ⟨e, he, hends⟩ := hs.closed hwhy
        exact hs.complete_of_end he hends
    | terminal =>
        obtain ⟨hend, hread⟩ := hwhole.terminal hwhy
        exact hs.complete hend hread
    | shutdown => exact absurd rfl hshutdown
    | failed => exact absurd rfl hfailed
    | disappeared => exact absurd hwhy hs.there
  · intro s hr
    have hs : s.Sound Allowed j n :=
      TSys.Inductive.invariant ⟨fun _ => Sound.init, fun _ _ _ _ h hstep => h.step hstep⟩ s hr
    exact ⟨hs.mem_received, fun op t s' ha hact hmiss => hs.misses ha hact hmiss⟩

/-! ## A stream that closes too early -/

/-- Replayed actions are a run. -/
theorem Streaming.replay_reachable {Allowed : Op → Prop} {j : JobId} {n : Nat}
    {acts : List Streaming.Act} (hallowed : ∀ op t, .call op t ∈ acts → Allowed op)
    {s s' : Streaming} (hs : (Streaming.system Allowed (fun _ _ => True) j n).Reachable s)
    (h : s.replay acts = some s') :
    (Streaming.system Allowed (fun _ _ => True) j n).Reachable s' := by
  induction acts generalizing s with
  | nil => exact Option.some.inj h ▸ hs
  | cons a rest ih =>
      obtain ⟨s₁, hact, hrest⟩ := Option.bind_eq_some_iff.mp h
      have hstep : (Streaming.system Allowed (fun _ _ => True) j n).step s a s₁ :=
        ⟨hact, fun op t heq => hallowed op t (heq ▸ List.mem_cons_self), trivial⟩
      exact ih (fun op t hmem => hallowed op t (List.mem_cons_of_mem _ hmem)) (hs.step hstep) hrest

/-- A stream without a `Last-Event-ID`, just opened. -/
def Streaming.fresh (db : Db) (j : JobId) : Streaming := ⟨db, false, none, .opened j 0, .loop, []⟩

theorem Streaming.fresh_reachable {Allowed : Op → Prop} {db : Db} {j : JobId}
    (hdb : (repository Allowed).Reachable db) (hfound : (db.job? j).isSome = true) :
    (Streaming.system Allowed (fun _ _ => True) j 0).Reachable (.fresh db j) :=
  .init ⟨hdb, hfound, rfl, rfl, rfl, rfl⟩

namespace Sample

/-- The stream sends what there is and finds nothing more; the job passes; the stream reads
the job. -/
def overtaken : List Streaming.Act :=
  List.replicate 8 .poll ++ (finished.drop running.length).map (fun x => .call x.1 x.2) ++ [.poll]

/-- The stream closed, and an event of the job was not sent. -/
def isCut (s : Streaming) : Bool :=
  decide (s.phase = .ended .terminal) && s.db.events.any fun e =>
    decide (e.jobId = job) && decide (0 < e.sequence) &&
      s.received.all fun sent => decide (sent.sequence ≠ e.sequence)

theorem overtaken_issued (op : Op) (t : DbTime) (h : .call op t ∈ overtaken) : op.Issued := by
  simp only [overtaken, List.mem_append, List.mem_replicate, List.mem_map, List.mem_singleton,
    reduceCtorEq, and_false, false_or, or_false] at h
  obtain ⟨x, hx, heq⟩ := h
  obtain ⟨rfl, rfl⟩ := Streaming.Act.call.inj heq
  exact finished_issued x (List.mem_of_mem_drop hx)

end Sample

/-- The job ends between an empty list and the read of the job; the stream closes, and the
client never learns of it. -/
theorem stream_misses_end : ∃ s,
    (Streaming.system Op.Issued (fun _ _ => True) Sample.job 0).Reachable s ∧
    s.phase = .ended .terminal ∧
    ∃ e ∈ s.db.events, e.jobId = Sample.job ∧ 0 < e.sequence ∧ e ∉ s.received := by
  have hcut : ((Streaming.fresh (Sample.after Sample.running) Sample.job).replay
      Sample.overtaken).any Sample.isCut = true := by decide +kernel
  obtain ⟨s, hs, hat⟩ := (Option.any_eq_true _ _).mp hcut
  have hdb : (repository Op.Issued).Reachable (Sample.after Sample.running) :=
    Sample.after_reachable fun x hx => Sample.finished_issued x (List.mem_append_left _ hx)
  have hfound : ((Sample.after Sample.running).job? Sample.job).isSome = true := by decide +kernel
  simp only [Sample.isCut, Bool.and_eq_true, decide_eq_true_eq, List.any_eq_true,
    List.all_eq_true] at hat
  obtain ⟨hphase, e, he, ⟨hjob, hpos⟩, hnone⟩ := hat
  exact ⟨s, Streaming.replay_reachable Sample.overtaken_issued
    (Streaming.fresh_reachable hdb hfound) hs, hphase, e, he, hjob, hpos,
    fun hmem => hnone e hmem rfl⟩

end RunAnywhere
