import RunAnywhere.Scheduler.Subjects

/-!
# Permissions

`scheduler/src/security.rs`: which subjects the broker lets an identity publish to and
subscribe to, and the check of reply subjects in `control.rs`. `subjectMatches` is the
broker's token matching on concrete subjects (`subjectMatches_iff`), so that a permission
without a wildcard allows its own text only, and one with a wildcard fixes the tokens it
spells out.
-/

namespace RunAnywhere

open Logic

/-! ## Matching -/

/-- The wildcard tokens of the broker. -/
def nats : Wildcards (List Char) := ⟨['*'], ['>']⟩

/-- `matches!(token, "*" | ">")`. -/
def isWildcard (token : List Char) : Bool := token = ['*'] || token = ['>']

/-- `contains_wildcard`. -/
def containsWildcard (subject : String) : Bool := (tokens subject).any isWildcard

/-- The loop of `subject_matches` over both token iterators. -/
def tokensMatch : List (List Char) → List (List Char) → Bool
  | p :: ps, t :: ts =>
      if p = ['>'] then ps.isEmpty
      else if p = ['*'] then tokensMatch ps ts
      else p = t && tokensMatch ps ts
  | [], [] => true
  | _, _ => false

/-- `subject_matches`. -/
def subjectMatches (permission subject : String) : Bool :=
  tokensMatch (tokens permission) (tokens subject)

/-- A subject one can publish to: no token is empty or a wildcard. -/
def Concrete (subject : String) : Prop := ∀ t ∈ tokens subject, t ≠ [] ∧ nats.Literal t

theorem isWildcard_eq_false {t : List Char} : isWildcard t = false ↔ nats.Literal t := by
  unfold isWildcard Wildcards.Literal nats
  simp

theorem containsWildcard_eq_false {s : String} :
    containsWildcard s = false ↔ ∀ t ∈ tokens s, nats.Literal t := by
  unfold containsWildcard
  rw [List.any_eq_false]
  refine forall₂_congr fun t _ => ?_
  rw [Bool.not_eq_true, isWildcard_eq_false]

theorem tokensMatch_iff {p s : List (List Char)} (hs : ∀ t ∈ s, nats.Literal t) :
    tokensMatch p s = true ↔ nats.Matches p s := by
  induction p generalizing s with
  | nil =>
      cases s with
      | nil => exact ⟨fun _ => .done, fun _ => rfl⟩
      | cons t ts =>
          constructor
          · intro h; cases h
          · intro h; cases h
  | cons p ps ih =>
      cases s with
      | nil =>
          constructor
          · intro h; cases h
          · intro h; cases h
      | cons t ts =>
          have hrest : ∀ u ∈ ts, nats.Literal u := fun u hu => hs u (List.mem_cons_of_mem _ hu)
          have ht : nats.Literal t := hs t List.mem_cons_self
          unfold tokensMatch
          split
          · next hmany =>
              rw [List.isEmpty_iff]
              constructor
              · rintro rfl
                exact hmany ▸ .many
              · intro h
                cases h with
                | many => rfl
                | one => exact absurd hmany (by decide)
                | same hlit => exact absurd hmany hlit.2
          · next hmany =>
              split
              · next hone =>
                  rw [ih hrest]
                  constructor
                  · intro h
                    exact hone ▸ .one h
                  · intro h
                    cases h with
                    | many => exact absurd rfl hmany
                    | one h => exact h
                    | same hlit => exact absurd hone hlit.1
              · next hone =>
                  rw [Bool.and_eq_true, decide_eq_true_iff, ih hrest]
                  constructor
                  · rintro ⟨rfl, h⟩
                    exact .same ht h
                  · intro h
                    cases h with
                    | many => exact absurd rfl hmany
                    | one => exact absurd rfl hone
                    | same _ h => exact ⟨rfl, h⟩

/-- **Matching.** On concrete subjects `subject_matches` is token matching, whatever the
permission. -/
theorem subjectMatches_iff {p s : String} (hs : ∀ t ∈ tokens s, nats.Literal t) :
    subjectMatches p s = true ↔ nats.Matches (tokens p) (tokens s) :=
  tokensMatch_iff hs

/-! ## Policies -/

/-- `NatsPermissionPolicy`, the two lists. -/
structure NatsPermissionPolicy where
  publish : List String
  subscribe : List String

/-- `SCHEDULER_JETSTREAM_API_SUBJECTS`. -/
def schedulerJetstreamApiSubjects : List String :=
  ["$JS.API.STREAM.INFO.JOB_QUEUE",
    "$JS.API.STREAM.CREATE.JOB_QUEUE",
    "$JS.API.STREAM.UPDATE.JOB_QUEUE",
    "$JS.API.STREAM.MSG.GET.JOB_QUEUE",
    "$JS.API.STREAM.MSG.DELETE.JOB_QUEUE",
    "$JS.API.STREAM.INFO.JOB_DLQ",
    "$JS.API.STREAM.CREATE.JOB_DLQ",
    "$JS.API.STREAM.UPDATE.JOB_DLQ",
    "$JS.API.STREAM.INFO.JOB_ADVISORIES",
    "$JS.API.STREAM.CREATE.JOB_ADVISORIES",
    "$JS.API.STREAM.UPDATE.JOB_ADVISORIES",
    "$JS.API.CONSUMER.INFO.JOB_QUEUE.job-dispatch-v1",
    "$JS.API.CONSUMER.CREATE.JOB_QUEUE.job-dispatch-v1.jobs.queued",
    "$JS.API.CONSUMER.MSG.NEXT.JOB_QUEUE.job-dispatch-v1",
    "$JS.API.CONSUMER.INFO.JOB_ADVISORIES.job-advisory-recovery-v1",
    "$JS.API.CONSUMER.CREATE.JOB_ADVISORIES.job-advisory-recovery-v1",
    "$JS.API.CONSUMER.MSG.NEXT.JOB_ADVISORIES.job-advisory-recovery-v1"]

namespace NatsPermissionPolicy

/-- `NatsPermissionPolicy::api`. -/
def api : NatsPermissionPolicy where
  publish := [jobsQueuedSubject]
  subscribe := ["_INBOX.api.>"]

/-- `NatsPermissionPolicy::scheduler`. -/
def scheduler : NatsPermissionPolicy where
  publish := [jobsQueuedSubject, jobsDeadSubject, "workers.*.dispatch", "_INBOX.workers.*.>",
    "$JS.ACK.JOB_QUEUE.job-dispatch-v1.>",
    "$JS.ACK.JOB_ADVISORIES.job-advisory-recovery-v1.>"] ++ schedulerJetstreamApiSubjects
  subscribe := ["control.workers.*.register", "control.workers.*.heartbeat",
    "control.jobs.*.transition", "control.jobs.*.result",
    "$JS.EVENT.ADVISORY.CONSUMER.MAX_DELIVERIES.JOB_QUEUE.job-dispatch-v1",
    "$JS.EVENT.ADVISORY.CONSUMER.MSG_TERMINATED.JOB_QUEUE.job-dispatch-v1",
    "_INBOX.scheduler.>"]

/-- `NatsPermissionPolicy::worker`. -/
def worker (w : WorkerId) : NatsPermissionPolicy where
  publish := [workerRegistrationSubject w, workerHeartbeatSubject w, jobTransitionSubject w,
    jobResultSubject w]
  subscribe := [workerDispatchSubject w, workerInboxPrefix w ++ ".>"]

/-- `NatsPermissionPolicy::allows_publish`. -/
def allowsPublish (policy : NatsPermissionPolicy) (subject : String) : Bool :=
  if containsWildcard subject then false else policy.publish.any (subjectMatches · subject)

/-- `NatsPermissionPolicy::allows_subscribe`. -/
def allowsSubscribe (policy : NatsPermissionPolicy) (subject : String) : Bool :=
  policy.subscribe.any fun permission =>
    permission = subject || (!containsWildcard subject && subjectMatches permission subject)

/-- A publish permission is a match on a subject without wildcards. -/
theorem allowsPublish_iff {policy : NatsPermissionPolicy} {s : String} :
    policy.allowsPublish s = true ↔ (∀ t ∈ tokens s, nats.Literal t) ∧
      ∃ p ∈ policy.publish, nats.Matches (tokens p) (tokens s) := by
  unfold allowsPublish
  cases hwild : containsWildcard s with
  | true =>
      constructor
      · intro h; cases h
      · rintro ⟨hlit, _⟩
        rw [containsWildcard_eq_false.mpr hlit] at hwild
        cases hwild
  | false =>
      have hlit := containsWildcard_eq_false.mp hwild
      rw [if_neg nofun, List.any_eq_true]
      constructor
      · rintro ⟨p, hp, hmatch⟩
        exact ⟨hlit, p, hp, (subjectMatches_iff hlit).mp hmatch⟩
      · rintro ⟨_, p, hp, hmatch⟩
        exact ⟨p, hp, (subjectMatches_iff hlit).mpr hmatch⟩

/-- A subscription is one of the list, or a concrete subject one of the list matches. -/
theorem allowsSubscribe_iff {policy : NatsPermissionPolicy} {s : String} :
    policy.allowsSubscribe s = true ↔ ∃ p ∈ policy.subscribe, p = s ∨
      (∀ t ∈ tokens s, nats.Literal t) ∧ nats.Matches (tokens p) (tokens s) := by
  unfold allowsSubscribe
  rw [List.any_eq_true]
  refine exists_congr fun p => and_congr_right fun _ => ?_
  rw [Bool.or_eq_true, decide_eq_true_iff, Bool.and_eq_true, Bool.not_eq_true',
    containsWildcard_eq_false]
  refine or_congr_right (and_congr_right fun hlit => ?_)
  exact subjectMatches_iff hlit

end NatsPermissionPolicy

/-! ## Replies -/

/-- `reply_is_scoped_to_worker`. -/
def replyIsScopedToWorker (reply : String) (w : WorkerId) : Bool :=
  match stripPre (workerInboxPrefix w).toList reply.toList with
  | none => false
  | some suffix =>
      match stripPre ['.'] suffix with
      | none => false
      | some rest => !rest.isEmpty && (rest.splitOn '.').all fun t => !t.isEmpty && !isWildcard t

/-- A scoped reply is the worker's inbox and tokens of its own. -/
theorem replyIsScopedToWorker_tokens {reply : String} {w : WorkerId}
    (h : replyIsScopedToWorker reply w = true) : ∃ t ts,
      tokens reply = "_INBOX".toList :: "workers".toList :: w.val.toList :: t :: ts ∧
      ∀ u ∈ t :: ts, u ≠ [] ∧ nats.Literal u := by
  unfold replyIsScopedToWorker at h
  split at h
  · cases h
  · next suffix hsuffix =>
      split at h
      · cases h
      · next rest hrest =>
          obtain ⟨_, hall⟩ := Bool.and_eq_true_iff.mp h
          have hform : reply = workerInboxPrefix w ++ "." ++ String.ofList rest := by
            apply String.toList_inj.mp
            rw [stripPre_some hsuffix, stripPre_some hrest, String.toList_append,
              String.toList_append, String.toList_ofList (l := rest), List.append_assoc]
            rfl
          have htokens : tokens (String.ofList rest) = rest.splitOn '.' := by
            unfold tokens
            rw [String.toList_ofList]
          cases hsplit : rest.splitOn '.' with
          | nil => exact absurd hsplit (List.splitOn_ne_nil _ _)
          | cons t ts =>
              refine ⟨t, ts, ?_, fun u hu => ?_⟩
              · rw [hform, tokens_workerInbox, htokens, hsplit]
              · have hu' := List.all_eq_true.mp hall u (hsplit ▸ hu)
                obtain ⟨hempty, hwild⟩ := Bool.and_eq_true_iff.mp hu'
                refine ⟨?_, isWildcard_eq_false.mp (Bool.not_eq_true' _ ▸ hwild)⟩
                rintro rfl
                cases hempty

end RunAnywhere
