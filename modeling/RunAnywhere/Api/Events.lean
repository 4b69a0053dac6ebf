import RunAnywhere.Api.Errors
import RunAnywhere.Repository.EventSpec

/-!
# Streaming a job's events

`api/src/events.rs`: the server-sent event stream of one job.

* **resumption** — `parseLastEventId`: where a stream starts;
* **stream** — `next_event` between its awaits: the head of its loop (`turn`), the list of
  events, and the read of the job after an empty list are separate polls.

The data of a wire event is its `JobEvent`; its id is the sequence number. Counting
connections and the keep-alive text are left out.
-/

namespace RunAnywhere

open Logic

/-! ## Resumption -/

/-- `HeaderValue::to_str`: visible ASCII and tabs; the bytes of a header are characters
here. -/
def headerText (value : String) : Option String :=
  if value.toList.all fun c => decide (c = '\t') || (decide (' ' ≤ c) && decide (c ≤ '~')) then
    some value
  else none

/-- `str::parse::<u64>`: digits, perhaps behind a plus sign, in range. -/
def parseU64 (text : String) : Option Nat :=
  let digits := match text.toList with
    | '+' :: rest => rest
    | chars => chars
  if digits.isEmpty || !digits.all Char.isDigit then none
  else
    let value := Nat.ofDigitChars 10 digits 0
    if value < 18446744073709551616 then some value else none

/-- `parse_last_event_id`; `header` is the `last-event-id` header. -/
def parseLastEventId (header : Option String) : Except ApiError Nat :=
  match header with
  | none => .ok 0
  | some value =>
      match (headerText value).bind parseU64 with
      | none => .error (.validation "Last-Event-ID must be a non-negative integer")
      | some sequence =>
          if 9223372036854775807 < sequence then
            .error (.validation "Last-Event-ID exceeds the supported integer range")
          else .ok sequence

theorem headerText_of_digits {value : String} (h : ∀ c ∈ value.toList, c.isDigit = true) :
    headerText value = some value := by
  unfold headerText
  refine if_pos (List.all_eq_true.mpr fun c hc => ?_)
  have hd := h c hc
  rw [Char.isDigit, Bool.and_eq_true, decide_eq_true_iff, decide_eq_true_iff] at hd
  have hlow : ' ' ≤ c := Char.le_def.mpr (UInt32.le_trans (by decide) hd.1)
  have hhigh : c ≤ '~' := Char.le_def.mpr (UInt32.le_trans hd.2 (by decide))
  simp [hlow, hhigh]

theorem parseU64_toString (n : Nat) :
    parseU64 (toString n) = if n < 18446744073709551616 then some n else none := by
  have hlist : (toString n).toList = Nat.toDigits 10 n := Nat.toList_repr
  have hdigit : ∀ c ∈ Nat.toDigits 10 n, c.isDigit = true := fun c hc =>
    Nat.isDigit_of_mem_toDigits (by omega) (by omega) hc
  have hne : (Nat.toDigits 10 n).isEmpty = false := List.isEmpty_eq_false_iff.mpr Nat.toDigits_ne_nil
  -- no plus sign in front
  have hplain : (match Nat.toDigits 10 n with
      | '+' :: rest => rest
      | chars => chars) = Nat.toDigits 10 n := by
    split
    · next rest heq =>
        have hplus := hdigit '+' (heq ▸ List.mem_cons_self)
        exact absurd hplus (by decide)
    · rfl
  unfold parseU64
  simp only
  rw [hlist, hplain, hne, List.all_eq_true.mpr hdigit, Nat.ofDigitChars_ten_toDigits]
  rfl

/-- A client that sends back an id it received resumes there, if its id is in range. -/
theorem parseLastEventId_toString {sequence n : Nat} :
    parseLastEventId (some (toString sequence)) = .ok n ↔
      sequence ≤ 9223372036854775807 ∧ n = sequence := by
  have hdigits : ∀ c ∈ (toString sequence).toList, c.isDigit = true := by
    intro c hc
    rw [show (toString sequence).toList = Nat.toDigits 10 sequence from Nat.toList_repr] at hc
    exact Nat.isDigit_of_mem_toDigits (by omega) (by omega) hc
  unfold parseLastEventId
  simp only
  rw [headerText_of_digits hdigits, Option.bind_some, parseU64_toString]
  by_cases hrange : sequence < 18446744073709551616
  · rw [if_pos hrange]
    simp only
    by_cases hmax : 9223372036854775807 < sequence
    · rw [if_pos hmax]
      exact ⟨nofun, fun h => absurd h.1 (Nat.not_le.mpr hmax)⟩
    · rw [if_neg hmax]
      constructor
      · intro h
        exact ⟨Nat.not_lt.mp hmax, (Except.ok.inj h).symm⟩
      · rintro ⟨_, rfl⟩
        rfl
  · rw [if_neg hrange]
    exact ⟨nofun, fun h => by omega⟩

/-! ## The stream -/

/-- `EventStreamState`. -/
structure EventStreamState where
  jobId : JobId
  afterSequence : Nat
  pending : List JobEvent
  closeNext : Bool
  deriving DecidableEq

/-- An event with which a job ends. -/
def JobEvent.ends (event : JobEvent) : Bool := event.state.any (·.isTerminal)

/-- Why a stream ended. -/
inductive StreamEnd
  | closed
  | terminal
  | shutdown
  | failed
  | disappeared
  deriving DecidableEq

/-- Where `next_event` stands: at the head of its loop, between an empty list and the read
of the job, asleep, or past its end. -/
inductive StreamPhase
  | loop
  | listed
  | sleeping
  | ended (why : StreamEnd)
  deriving DecidableEq

def eventBatchSize : Nat := 100

/-- `get_job`. -/
def getJob (j : JobId) : RepoTx (Option Job) := .read fun db => (db.job? j).map (·.intoJob j)

/-- What one poll comes to: another phase, perhaps with an event for the client. -/
structure Polled where
  state : EventStreamState
  phase : StreamPhase
  event : Option JobEvent

namespace EventStreamState

/-- The stream a request opens. -/
def opened (j : JobId) (afterSequence : Nat) : EventStreamState := ⟨j, afterSequence, [], false⟩

/-- The head of the loop: close, emit a pending event, or list. -/
def turn (state : EventStreamState) (shutdown : Bool) (db : Db) : Polled :=
  if state.closeNext then ⟨state, .ended .closed, none⟩
  else if shutdown then ⟨state, .ended .shutdown, none⟩
  else
    match state.pending with
    | event :: pending =>
        ⟨{ state with
            pending := pending
            afterSequence := event.sequence
            closeNext := event.ends }, .loop, some event⟩
    | [] =>
        match listJobEventsAfter state.jobId state.afterSequence eventBatchSize db with
        | .ok ([], _) => ⟨state, .listed, none⟩
        | .ok (events, _) => ⟨{ state with pending := events }, .loop, none⟩
        | .error _ => ⟨state, .ended .failed, none⟩

/-- The read of the job after an empty list. -/
def check (state : EventStreamState) (db : Db) : Polled :=
  match getJob state.jobId db with
  | .ok (some job, _) =>
      if job.state.isTerminal then ⟨state, .ended .terminal, none⟩ else ⟨state, .sleeping, none⟩
  | .ok (none, _) => ⟨state, .ended .disappeared, none⟩
  | .error _ => ⟨state, .ended .failed, none⟩

/-- The sleep is over: shutdown, or another turn. -/
def wake (state : EventStreamState) (shutdown : Bool) : Polled :=
  ⟨state, if shutdown then .ended .shutdown else .loop, none⟩

/-- `next_event`, up to its next await. -/
def poll (state : EventStreamState) (phase : StreamPhase) (shutdown : Bool) (db : Db) : Polled :=
  match phase with
  | .loop => state.turn shutdown db
  | .listed => state.check db
  | .sleeping => state.wake shutdown
  | .ended why => ⟨state, .ended why, none⟩

/-- What one turn may come to. -/
inductive Turned (state : EventStreamState) (db : Db) : Polled → Prop
  | closed (close : state.closeNext = true) : Turned state db ⟨state, .ended .closed, none⟩
  | stopped : Turned state db ⟨state, .ended .shutdown, none⟩
  | emitted {event pending} (next : state.pending = event :: pending) :
      Turned state db ⟨{ state with
        pending := pending
        afterSequence := event.sequence
        closeNext := event.ends }, .loop, some event⟩
  | fetched {page} (none_ : state.pending = [])
      (front : page <+: unread (·.sequence) (db.eventsOf state.jobId) state.afterSequence) :
      Turned state db ⟨{ state with pending := page }, .loop, none⟩
  | listed (none_ : state.pending = [])
      (read : unread (·.sequence) (db.eventsOf state.jobId) state.afterSequence = []) :
      Turned state db ⟨state, .listed, none⟩
  | failed : Turned state db ⟨state, .ended .failed, none⟩

/-- **One turn** over an increasing log. -/
theorem turn_turned (state : EventStreamState) (shutdown : Bool) {db : Db}
    (hinc : (db.eventsOf state.jobId).Pairwise fun e e' => e.sequence < e'.sequence) :
    Turned state db (state.turn shutdown db) := by
  unfold turn
  split
  · next hclose => exact .closed hclose
  · split
    · exact .stopped
    · split
      · next event pending hnext => exact .emitted hnext
      · next hnone =>
          split
          · next db' hlist =>
              obtain ⟨_, _, hpage⟩ := listJobEventsAfter_commits hlist hinc
              refine .listed hnone ?_
              rcases List.take_eq_nil_iff.mp hpage.symm with hzero | hnil
              · cases hzero
              · exact hnil
          · next events db' _ hlist =>
              obtain ⟨_, _, hpage⟩ := listJobEventsAfter_commits hlist hinc
              refine .fetched hnone ?_
              rw [hpage]
              exact List.take_prefix _ _
          · exact .failed

end EventStreamState

end RunAnywhere
