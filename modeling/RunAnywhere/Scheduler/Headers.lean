import RunAnywhere.Scheduler.Loops
import RunAnywhere.Scheduler.Keys

/-!
# Publications up to the transport

What the two publishers of the outbox build before a message reaches the server: the queue
publisher of `api/src/queue.rs` and the dead-letter publisher of `scheduler/src/dlq.rs`, which
passes its trace context through `inject_trace_headers` of `scheduler/src/subjects.rs`.

* **syntax** — which header names and values the client library takes is a parameter
  (`HeaderSyntax`);
* **queue** — any name and value the library takes goes out, under the message identifier of the
  publisher (`publishOutboxMessage_ok_iff`);
* **dead letters** — three names go out, each with a value of bounded size
  (`publishOne_ok_iff`).
-/

namespace RunAnywhere

open Logic

/-! ## Header texts -/

/-- `str::eq_ignore_ascii_case`. -/
def eqIgnoreAsciiCase (a b : String) : Bool :=
  decide (a.toList.map Char.toLower = b.toList.map Char.toLower)

/-- A header name of visible ASCII without a colon. -/
def isHeaderToken (s : String) : Bool :=
  s.toList.all fun c => decide ('!' ≤ c) && decide (c ≤ '~') && decide (c ≠ ':')

/-- A text that stays on its line. -/
def isHeaderLine (s : String) : Bool := s.toList.all fun c => decide (c ≠ '\r') && decide (c ≠ '\n')

/-- `TRACE_HEADER_NAMES`. -/
def traceHeaderNames : List String := ["traceparent", "tracestate", "baggage"]

/-- `MAX_TRACE_HEADER_BYTES`. -/
def maxTraceHeaderBytes : Nat := 4096

/-- `NATS_MESSAGE_ID_HEADER`. -/
def natsMessageIdHeader : String := "Nats-Msg-Id"

/-- `HeaderName::from_str` and `HeaderValue::from_str`: the texts they take. The names of the trace
context are among them. -/
structure HeaderSyntax where
  name : String → Bool
  value : String → Bool
  trace : ∀ s ∈ traceHeaderNames, name s = true

/-- The syntax that takes every token and every line. -/
def HeaderSyntax.plain : HeaderSyntax := ⟨isHeaderToken, isHeaderLine, by decide⟩

/-- `HeaderMap`. -/
abbrev HeaderMap := Table String String

/-! ## The queue publisher -/

/-- `QueuePublishError`. -/
inductive QueuePublishError
  | invalidSubject
  | invalidMessageId
  | invalidHeaderName (name : String)
  | invalidHeaderValue (name : String)
  | serialize (text : String)
  | publish (text : String)
  | acknowledgement (text : String)
  deriving DecidableEq

def QueuePublishError.message : QueuePublishError → String
  | .invalidSubject => "queue subject must be a concrete non-empty NATS subject"
  | .invalidMessageId => "queue message ID must not be blank or contain control characters"
  | .invalidHeaderName name => "invalid NATS trace header name \x60" ++ name ++ "\x60"
  | .invalidHeaderValue name => "invalid value for NATS trace header \x60" ++ name ++ "\x60"
  | .serialize text => "failed to serialize JobQueued: " ++ text
  | .publish text => "failed to publish JobQueued: " ++ text
  | .acknowledgement text => "JetStream did not acknowledge JobQueued: " ++ text

namespace JetStreamPublisher

/-- `validate_subject`. -/
def validateSubject (subject : String) : Except QueuePublishError Unit :=
  if isBlank subject || (subject.toList.any fun c => isAsciiWhitespace c || isAsciiControl c) ||
      subject.toList.any fun c => c == '*' || c == '>' then .error .invalidSubject
  else .ok ()

/-- `validate_message_id`. -/
def validateMessageId (messageId : String) : Except QueuePublishError Unit :=
  if isBlank messageId || messageId.toList.any isAsciiControl then .error .invalidMessageId
  else .ok ()

/-- The loop of `build_headers`. -/
def insertHeaders (x : HeaderSyntax) :
    List (String × String) → HeaderMap → Except QueuePublishError HeaderMap
  | [], headers => .ok headers
  | (name, value) :: rest, headers =>
      if eqIgnoreAsciiCase name natsMessageIdHeader then insertHeaders x rest headers
      else if !x.name name then .error (.invalidHeaderName name)
      else if !x.value value then .error (.invalidHeaderValue name)
      else insertHeaders x rest (headers.put name value)

/-- `build_headers`: the message identifier is the publisher's own. -/
def buildHeaders (x : HeaderSyntax) (messageId : String) (traceHeaders : List (String × String)) :
    Except QueuePublishError HeaderMap := do
  let headers ← insertHeaders x traceHeaders .empty
  pure (headers.put natsMessageIdHeader messageId)

/-- `publish_job_queued`, up to the transport. -/
def publishJobQueued (x : HeaderSyntax) (subject : String) (message : JobQueued)
    (traceHeaders : List (String × String)) : Except QueuePublishError HeaderMap := do
  validateSubject subject
  validateMessageId message.jobId.val
  buildHeaders x message.jobId.val traceHeaders

end JetStreamPublisher

/-- `publish_outbox_message`, up to the transport; the publisher sends on the queue subject. -/
def Headers.publishOutboxMessage (x : HeaderSyntax) (outbox : OutboxMessage) :
    Except QueuePublishError HeaderMap :=
  if outbox.subject ≠ jobsQueuedSubject then .error .invalidSubject
  else
    match outbox.payload with
    | .jobQueued message =>
        if outbox.eventKey ≠ message.jobId.val then .error .invalidMessageId
        else JetStreamPublisher.publishJobQueued x jobsQueuedSubject message outbox.traceHeaders
    | _ => .error (.serialize "invalid JobQueued")

/-- The header goes out with a queue message: the publisher skips it, or the library takes it. -/
def HeaderSyntax.Sends (x : HeaderSyntax) (header : String × String) : Prop :=
  eqIgnoreAsciiCase header.1 natsMessageIdHeader = true ∨
    x.name header.1 = true ∧ x.value header.2 = true

theorem JetStreamPublisher.validateSubject_jobsQueued :
    validateSubject jobsQueuedSubject = .ok () := by decide

/-- A job identifier is a message identifier. -/
theorem JetStreamPublisher.validateMessageId_job (j : JobId) : validateMessageId j.val = .ok () := by
  obtain ⟨suffix, heq, hall⟩ := j.toList_eq
  have hblank : isBlank j.val = false := by
    unfold isBlank
    rw [heq, List.all_append]
    rfl
  have hcontrol : j.val.toList.any isAsciiControl = false := by
    rw [heq, List.any_append]
    have hsuffix : suffix.any isAsciiControl = false := by
      rw [List.any_eq_false]
      intro c hc
      exact isAsciiControl_of_identifier (hall c hc)
    rw [hsuffix]
    rfl
  unfold validateMessageId
  rw [hblank, hcontrol]
  rfl

theorem JetStreamPublisher.insertHeaders_ok_iff (x : HeaderSyntax) (l : List (String × String))
    (headers : HeaderMap) :
    (∃ out, insertHeaders x l headers = .ok out) ↔ ∀ header ∈ l, x.Sends header := by
  induction l generalizing headers with
  | nil => simp [insertHeaders]
  | cons header rest ih =>
      obtain ⟨name, value⟩ := header
      rw [List.forall_mem_cons]
      unfold insertHeaders HeaderSyntax.Sends
      by_cases hid : eqIgnoreAsciiCase name natsMessageIdHeader = true
      · rw [if_pos hid, ih]
        simp [hid, HeaderSyntax.Sends]
      · rw [if_neg hid]
        by_cases hname : x.name name = true
        · by_cases hvalue : x.value value = true
          · simp [hid, hname, hvalue, ih, HeaderSyntax.Sends]
          · simp [hid, hname, hvalue]
        · simp [hid, hname]

/-- **Queue.** A row that carries a queue message under its own key goes out iff its headers do. -/
theorem Headers.publishOutboxMessage_ok_iff (x : HeaderSyntax) {outbox : OutboxMessage}
    {queued : JobQueued} (h : OutboxDispatcher.checkMessage outbox = .ok queued) :
    (∃ headers, publishOutboxMessage x outbox = .ok headers) ↔
      ∀ header ∈ outbox.traceHeaders, x.Sends header := by
  have hparts : outbox.subject = jobsQueuedSubject ∧ outbox.payload = .jobQueued queued ∧
      outbox.eventKey = queued.jobId.val := by
    unfold OutboxDispatcher.checkMessage at h
    by_cases hsubject : outbox.subject = jobsQueuedSubject
    · rw [if_neg (not_not.mpr hsubject)] at h
      split at h
      · next message hpayload =>
          by_cases hkey : outbox.eventKey = message.jobId.val
          · rw [if_neg (not_not.mpr hkey)] at h
            obtain rfl := Except.ok.inj h
            exact ⟨hsubject, hpayload, hkey⟩
          · rw [if_pos hkey] at h
            cases h
      · cases h
    · rw [if_pos hsubject] at h
      cases h
  obtain ⟨hsubject, hpayload, hkey⟩ := hparts
  rw [← JetStreamPublisher.insertHeaders_ok_iff x outbox.traceHeaders .empty]
  unfold publishOutboxMessage
  rw [if_neg (not_not.mpr hsubject), hpayload]
  simp only [if_neg (not_not.mpr hkey), JetStreamPublisher.publishJobQueued,
    JetStreamPublisher.validateSubject_jobsQueued, JetStreamPublisher.validateMessageId_job,
    JetStreamPublisher.buildHeaders]
  cases hloop : JetStreamPublisher.insertHeaders x outbox.traceHeaders .empty with
  | ok headers => exact ⟨fun _ => ⟨_, rfl⟩, fun _ => ⟨_, rfl⟩⟩
  | error e => exact ⟨fun ⟨_, hok⟩ => (nomatch hok), fun ⟨_, hok⟩ => (nomatch hok)⟩

/-! ## The dead-letter publisher -/

/-- `TraceHeaderError`. -/
inductive TraceHeaderError
  | unsupported (name : String)
  | tooLarge (name : String)
  | invalidName (name : String)
  | invalidValue (name : String)
  deriving DecidableEq

def TraceHeaderError.message : TraceHeaderError → String
  | .unsupported name => "unsupported trace header \x60" ++ name ++ "\x60"
  | .tooLarge name => "trace header \x60" ++ name ++ "\x60 exceeds 4096 bytes"
  | .invalidName name => "invalid trace header name \x60" ++ name ++ "\x60"
  | .invalidValue name => "invalid value for trace header \x60" ++ name ++ "\x60"

/-- `inject_trace_headers`: unknown fields are rejected. -/
def injectTraceHeaders (x : HeaderSyntax) :
    HeaderMap → List (String × String) → Except TraceHeaderError HeaderMap
  | headers, [] => .ok headers
  | headers, (name, value) :: rest =>
      match traceHeaderNames.find? fun candidate => eqIgnoreAsciiCase candidate name with
      | none => .error (.unsupported name)
      | some canonical =>
          if maxTraceHeaderBytes < value.utf8ByteSize then .error (.tooLarge canonical)
          else if !x.name canonical then .error (.invalidName canonical)
          else if !x.value value then .error (.invalidValue canonical)
          else injectTraceHeaders x (headers.put canonical value) rest

/-- `publish_one`, up to the transport. -/
def Headers.publishOne (x : HeaderSyntax) (message : OutboxMessage) : Except DlqError HeaderMap :=
  (injectTraceHeaders x (Table.empty.put natsMessageIdHeader message.eventKey)
    message.traceHeaders).mapError fun e => .trace e.message

/-- The header goes out with a dead letter: a trace field of at most 4096 bytes. -/
def HeaderSyntax.Traces (x : HeaderSyntax) (header : String × String) : Prop :=
  (∃ canonical ∈ traceHeaderNames, eqIgnoreAsciiCase canonical header.1 = true) ∧
    header.2.utf8ByteSize ≤ maxTraceHeaderBytes ∧ x.value header.2 = true

theorem injectTraceHeaders_ok_iff (x : HeaderSyntax) (l : List (String × String))
    (headers : HeaderMap) :
    (∃ out, injectTraceHeaders x headers l = .ok out) ↔ ∀ header ∈ l, x.Traces header := by
  induction l generalizing headers with
  | nil => simp [injectTraceHeaders]
  | cons header rest ih =>
      obtain ⟨name, value⟩ := header
      rw [List.forall_mem_cons]
      unfold injectTraceHeaders
      cases hfind : traceHeaderNames.find? fun candidate => eqIgnoreAsciiCase candidate name with
      | none =>
          have hnone : ¬ x.Traces (name, value) := by
            rintro ⟨⟨canonical, hmem, heq⟩, _⟩
            exact List.find?_eq_none.mp hfind canonical hmem heq
          simp [hnone]
      | some canonical =>
          have hmem := List.mem_of_find?_eq_some hfind
          have hname := x.trace canonical hmem
          have heq : eqIgnoreAsciiCase canonical name = true := by
            simpa using List.find?_some hfind
          have htraces : x.Traces (name, value) ↔
              value.utf8ByteSize ≤ maxTraceHeaderBytes ∧ x.value value = true :=
            and_iff_right ⟨canonical, hmem, heq⟩
          rw [htraces]
          by_cases hsize : maxTraceHeaderBytes < value.utf8ByteSize
          · simp [hsize]
          · by_cases hvalue : x.value value = true
            · simp [hsize, hname, hvalue, ih]
              omega
            · simp [hsize, hname, hvalue]

/-- **Dead letters.** A row goes out iff its headers are trace fields. -/
theorem Headers.publishOne_ok_iff (x : HeaderSyntax) (message : OutboxMessage) :
    (∃ headers, publishOne x message = .ok headers) ↔
      ∀ header ∈ message.traceHeaders, x.Traces header := by
  rw [← injectTraceHeaders_ok_iff x message.traceHeaders
    (Table.empty.put natsMessageIdHeader message.eventKey)]
  unfold publishOne
  cases injectTraceHeaders x (Table.empty.put natsMessageIdHeader message.eventKey)
      message.traceHeaders with
  | ok headers => exact ⟨fun _ => ⟨_, rfl⟩, fun _ => ⟨_, rfl⟩⟩
  | error e => exact ⟨fun ⟨_, hok⟩ => (nomatch hok), fun ⟨_, hok⟩ => (nomatch hok)⟩

end RunAnywhere
