import RunAnywhere.Logic.Tokens
import RunAnywhere.Scheduler.Keys

/-!
# Subjects and permissions

The subjects of `scheduler/src/subjects.rs`, the parser of control subjects of `control.rs`
and the permission lists of `security.rs`. A subject is a text; the broker and the
parser read it as the list of its tokens.

* **builders and parser** — `parseControlSubject` inverts the builders
  (`parseControlSubject_iff`);
* **permissions** — `subjectMatches` is token matching (`subjectMatches_iff`).
-/

namespace RunAnywhere

open Logic

/-- `subject.split('.')`. -/
def tokens (subject : String) : List (List Char) := subject.toList.splitOn '.'

/-- The subject of a list of tokens. -/
theorem tokens_inj {s s' : String} (h : tokens s = tokens s') : s = s' := by
  have hl := congrArg (List.intercalate ['.']) h
  unfold tokens at hl
  rw [List.intercalate_splitOn, List.intercalate_splitOn] at hl
  exact String.toList_inj.mp hl

theorem tokens_single {s : String} (h : '.' ∉ s.toList) : tokens s = [s.toList] :=
  List.splitOn_eq_singleton h

/-- The first token ends at the first dot. -/
theorem tokens_dot {t s : String} (h : '.' ∉ t.toList) :
    tokens (t ++ "." ++ s) = t.toList :: tokens s := by
  unfold tokens
  rw [String.toList_append, String.toList_append, List.append_assoc]
  exact List.splitOn_append_cons_self_of_not_mem h _

/-- An identifier is one token. -/
theorem WorkerId.dot_notMem (w : WorkerId) : '.' ∉ w.val.toList := by
  obtain ⟨suffix, heq, hall⟩ := w.toList_eq
  rw [heq]
  intro hmem
  rcases List.mem_append.mp hmem with h | h
  · revert h; decide
  · have hc := hall '.' h
    revert hc; decide

/-! ## Builders -/

/-- `worker_registration_subject`. -/
def workerRegistrationSubject (w : WorkerId) : String := "control.workers." ++ w.val ++ ".register"

/-- `worker_heartbeat_subject`. -/
def workerHeartbeatSubject (w : WorkerId) : String := "control.workers." ++ w.val ++ ".heartbeat"

/-- `job_transition_subject`. -/
def jobTransitionSubject (w : WorkerId) : String := "control.jobs." ++ w.val ++ ".transition"

/-- `job_result_subject`. -/
def jobResultSubject (w : WorkerId) : String := "control.jobs." ++ w.val ++ ".result"

/-- `worker_dispatch_subject`. -/
def workerDispatchSubject (w : WorkerId) : String := "workers." ++ w.val ++ ".dispatch"

/-- `worker_inbox_prefix`. -/
def workerInboxPrefix (w : WorkerId) : String := "_INBOX.workers." ++ w.val

/-- The tokens of `control.<namespace>.<worker>.<operation>`. -/
theorem tokens_control {ns op : String} (w : WorkerId) (hns : '.' ∉ ns.toList)
    (hop : '.' ∉ op.toList) : tokens ("control" ++ "." ++ (ns ++ "." ++ (w.val ++ "." ++ op))) =
      ["control".toList, ns.toList, w.val.toList, op.toList] := by
  rw [tokens_dot (by decide), tokens_dot hns, tokens_dot w.dot_notMem, tokens_single hop]

theorem tokens_workerDispatchSubject (w : WorkerId) : tokens (workerDispatchSubject w) =
    ["workers".toList, w.val.toList, "dispatch".toList] := by
  have hform : workerDispatchSubject w = "workers" ++ "." ++ (w.val ++ "." ++ "dispatch") := by
    have hworkers : "workers." = "workers" ++ "." := by decide
    have hdispatch : ".dispatch" = "." ++ "dispatch" := by decide
    unfold workerDispatchSubject
    rw [hworkers, hdispatch]
    simp only [String.append_assoc]
  rw [hform, tokens_dot (by decide), tokens_dot w.dot_notMem, tokens_single (by decide)]

theorem tokens_workerInbox (w : WorkerId) (rest : String) :
    tokens (workerInboxPrefix w ++ "." ++ rest) =
      "_INBOX".toList :: "workers".toList :: w.val.toList :: tokens rest := by
  have hform : workerInboxPrefix w ++ "." ++ rest =
      "_INBOX" ++ "." ++ ("workers" ++ "." ++ (w.val ++ "." ++ rest)) := by
    have hinbox : "_INBOX.workers." = "_INBOX" ++ "." ++ ("workers" ++ ".") := by decide
    unfold workerInboxPrefix
    rw [hinbox]
    simp only [String.append_assoc]
  rw [hform, tokens_dot (by decide), tokens_dot (by decide), tokens_dot w.dot_notMem]

/-! ## Control subjects -/

inductive ControlRoute
  | register (workerId : WorkerId)
  | heartbeat (workerId : WorkerId)
  | transition (workerId : WorkerId)
  | result (workerId : WorkerId)
  deriving DecidableEq

/-- `ControlRoute::worker_id`. -/
def ControlRoute.workerId : ControlRoute → WorkerId
  | .register w | .heartbeat w | .transition w | .result w => w

inductive SubjectParseError
  | unsupportedShape | invalidWorkerId
  deriving DecidableEq

/-- `parse_control_subject`. -/
def parseControlSubject (subject : String) : Except SubjectParseError ControlRoute :=
  match tokens subject with
  | [control, ns, worker, operation] =>
      if control ≠ "control".toList then .error .unsupportedShape
      else
        match Ident.new "wrk_" (String.ofList worker) with
        | .error _ => .error .invalidWorkerId
        | .ok worker =>
            if ns = "workers".toList ∧ operation = "register".toList then .ok (.register worker)
            else if ns = "workers".toList ∧ operation = "heartbeat".toList then
              .ok (.heartbeat worker)
            else if ns = "jobs".toList ∧ operation = "transition".toList then
              .ok (.transition worker)
            else if ns = "jobs".toList ∧ operation = "result".toList then .ok (.result worker)
            else .error .unsupportedShape
  | _ => .error .unsupportedShape

/-- The builder of a route. -/
def ControlRoute.subject : ControlRoute → String
  | .register w => workerRegistrationSubject w
  | .heartbeat w => workerHeartbeatSubject w
  | .transition w => jobTransitionSubject w
  | .result w => jobResultSubject w

/-- The second token of a route's subject. -/
def ControlRoute.ns : ControlRoute → String
  | .register _ | .heartbeat _ => "workers"
  | .transition _ | .result _ => "jobs"

/-- The last token of a route's subject. -/
def ControlRoute.operation : ControlRoute → String
  | .register _ => "register"
  | .heartbeat _ => "heartbeat"
  | .transition _ => "transition"
  | .result _ => "result"

theorem ControlRoute.tokens_subject (route : ControlRoute) : tokens route.subject =
    ["control".toList, route.ns.toList, route.workerId.val.toList, route.operation.toList] := by
  have hform : route.subject =
      "control" ++ "." ++ (route.ns ++ "." ++ (route.workerId.val ++ "." ++ route.operation)) := by
    have hworkers : "control.workers." = "control" ++ "." ++ ("workers" ++ ".") := by decide
    have hjobs : "control.jobs." = "control" ++ "." ++ ("jobs" ++ ".") := by decide
    have hregister : ".register" = "." ++ "register" := by decide
    have hheartbeat : ".heartbeat" = "." ++ "heartbeat" := by decide
    have htransition : ".transition" = "." ++ "transition" := by decide
    have hresult : ".result" = "." ++ "result" := by decide
    cases route with
    | register w =>
        show "control.workers." ++ w.val ++ ".register" = _
        rw [hworkers, hregister]
        simp only [String.append_assoc, ns, operation, workerId]
    | heartbeat w =>
        show "control.workers." ++ w.val ++ ".heartbeat" = _
        rw [hworkers, hheartbeat]
        simp only [String.append_assoc, ns, operation, workerId]
    | transition w =>
        show "control.jobs." ++ w.val ++ ".transition" = _
        rw [hjobs, htransition]
        simp only [String.append_assoc, ns, operation, workerId]
    | result w =>
        show "control.jobs." ++ w.val ++ ".result" = _
        rw [hjobs, hresult]
        simp only [String.append_assoc, ns, operation, workerId]
  rw [hform]
  refine tokens_control _ ?_ ?_
  · cases route <;> simp only [ns] <;> decide
  · cases route <;> simp only [operation] <;> decide

theorem Ident.new_ok_iff {pre value : String} {i : Ident pre} :
    Ident.new pre value = .ok i ↔ i.val = value := by
  constructor
  · intro h
    unfold Ident.new at h
    split at h
    · cases h; rfl
    · cases h
  · rintro rfl
    exact Ident.new_val i

/-- **Parser and builders.** A text parses to a route exactly when it is the subject the
route's builder gives. -/
theorem parseControlSubject_iff {s : String} {route : ControlRoute} :
    parseControlSubject s = .ok route ↔ s = route.subject := by
  constructor
  · intro h
    apply tokens_inj
    rw [route.tokens_subject]
    unfold parseControlSubject at h
    split at h
    · next control ns worker operation htokens =>
        rw [htokens]
        split at h
        · cases h
        · next hcontrol =>
            have hc : control = "control".toList := not_not.mp hcontrol
            split at h
            · cases h
            · next w hw =>
                have hval : worker = w.val.toList := by
                  rw [Ident.new_ok_iff.mp hw, String.toList_ofList]
                rw [hc, hval]
                split at h
                · next hmatch => cases h; rw [hmatch.1, hmatch.2]; rfl
                · split at h
                  · next hmatch => cases h; rw [hmatch.1, hmatch.2]; rfl
                  · split at h
                    · next hmatch => cases h; rw [hmatch.1, hmatch.2]; rfl
                    · split at h
                      · next hmatch => cases h; rw [hmatch.1, hmatch.2]; rfl
                      · cases h
    · cases h
  · rintro rfl
    unfold parseControlSubject
    rw [route.tokens_subject]
    simp only [ne_eq, not_true_eq_false, if_false, String.ofList_toList, Ident.new_val]
    cases route <;> simp [ControlRoute.ns, ControlRoute.operation, ControlRoute.workerId]

end RunAnywhere
