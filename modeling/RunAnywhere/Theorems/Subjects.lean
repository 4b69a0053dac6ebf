import RunAnywhere.Scheduler.Security

/-!
# Worker subjects do not overlap

Every permission of a worker spells out its identifier as one token, and so does the inbox
its replies go to. Identifiers may be prefixes of each other; tokens are compared whole.

* **builders** — the subjects a worker may publish to are those the parser reads, with its
  identifier third (`worker_publish`);
* **subscriptions** — its dispatch subject and its inbox (`worker_subscribe`);
* **replies** — a scoped reply is a subject of its inbox, and the scheduler may publish it
  (`reply_allowed`).
-/

namespace RunAnywhere

open Logic

/-- The tokens of an identifier are literal. -/
theorem WorkerId.literal (w : WorkerId) : nats.Literal w.val.toList := by
  obtain ⟨suffix, heq, _⟩ := w.toList_eq
  rw [heq]
  constructor
  · intro h
    have hlen := congrArg List.length h
    simp [nats] at hlen
  · intro h
    have hlen := congrArg List.length h
    simp [nats] at hlen

theorem WorkerId.toList_inj {w w' : WorkerId} (h : w.val.toList = w'.val.toList) : w = w' :=
  Ident.ext (String.toList_inj.mp h)

/-- The publish list is the list of the worker's control routes. -/
theorem worker_publish_iff {w : WorkerId} {p : String} :
    p ∈ (NatsPermissionPolicy.worker w).publish ↔
      ∃ route : ControlRoute, route.workerId = w ∧ route.subject = p := by
  constructor
  · intro h
    rcases List.mem_cons.mp h with rfl | h
    · exact ⟨.register w, rfl, rfl⟩
    · rcases List.mem_cons.mp h with rfl | h
      · exact ⟨.heartbeat w, rfl, rfl⟩
      · rcases List.mem_cons.mp h with rfl | h
        · exact ⟨.transition w, rfl, rfl⟩
        · obtain rfl := List.mem_singleton.mp h
          exact ⟨.result w, rfl, rfl⟩
  · rintro ⟨route, rfl, rfl⟩
    cases route <;> simp [NatsPermissionPolicy.worker, ControlRoute.subject, ControlRoute.workerId]

/-- **Publish.** What a worker may publish to names it third. -/
theorem worker_publish {w : WorkerId} {s : String}
    (h : (NatsPermissionPolicy.worker w).allowsPublish s = true) :
    (tokens s)[2]? = some w.val.toList := by
  obtain ⟨_, p, hp, hmatch⟩ := NatsPermissionPolicy.allowsPublish_iff.mp h
  obtain ⟨route, rfl, rfl⟩ := worker_publish_iff.mp hp
  refine hmatch.literal route.workerId.literal ?_
  rw [route.tokens_subject]
  rfl

/-- **Subscribe.** What a worker may subscribe to is named like its dispatch subject, or
like its inbox. -/
theorem worker_subscribe {w : WorkerId} {s : String}
    (h : (NatsPermissionPolicy.worker w).allowsSubscribe s = true) :
    ((tokens s)[0]? = some "workers".toList ∧ (tokens s)[1]? = some w.val.toList) ∨
      ((tokens s)[0]? = some "_INBOX".toList ∧ (tokens s)[2]? = some w.val.toList) := by
  obtain ⟨p, hp, hcase⟩ := NatsPermissionPolicy.allowsSubscribe_iff.mp h
  -- a permission that is the subject, or that matches it, gives it its literal tokens
  have hkeep : ∀ (i : Nat) (t : List Char), nats.Literal t → (tokens p)[i]? = some t →
      (tokens s)[i]? = some t := by
    intro i t ht hi
    rcases hcase with rfl | ⟨_, hmatch⟩
    · exact hi
    · exact hmatch.literal ht hi
  have hworkers : nats.Literal "workers".toList := by decide
  have hinbox : nats.Literal "_INBOX".toList := by decide
  rcases List.mem_cons.mp hp with rfl | hp
  · rw [tokens_workerDispatchSubject] at hkeep
    exact Or.inl ⟨hkeep 0 _ hworkers rfl, hkeep 1 _ w.literal rfl⟩
  · obtain rfl := List.mem_singleton.mp hp
    have hform : workerInboxPrefix w ++ ".>" = workerInboxPrefix w ++ "." ++ ">" := by
      rw [String.append_assoc]
      rfl
    rw [hform, tokens_workerInbox] at hkeep
    exact Or.inr ⟨hkeep 0 _ hinbox rfl, hkeep 2 _ w.literal rfl⟩

/-- **Reply.** A scoped reply is concrete, in the inbox of its worker and of no other, and
the scheduler may publish it. -/
theorem reply_allowed {w : WorkerId} {s : String} (h : replyIsScopedToWorker s w = true) :
    Concrete s ∧ (NatsPermissionPolicy.worker w).allowsSubscribe s = true ∧
      NatsPermissionPolicy.scheduler.allowsPublish s = true ∧
      ∀ w', replyIsScopedToWorker s w' = true → w' = w := by
  obtain ⟨t, ts, htokens, hrest⟩ := replyIsScopedToWorker_tokens h
  have hworkers : nats.Literal "workers".toList := by decide
  have hinbox : nats.Literal "_INBOX".toList := by decide
  have hconcrete : Concrete s := by
    intro u hu
    rw [htokens] at hu
    rcases List.mem_cons.mp hu with rfl | hu
    · exact ⟨by decide, hinbox⟩
    · rcases List.mem_cons.mp hu with rfl | hu
      · exact ⟨by decide, hworkers⟩
      · rcases List.mem_cons.mp hu with rfl | hu
        · refine ⟨fun hnil => ?_, w.literal⟩
          obtain ⟨suffix, heq, _⟩ := w.toList_eq
          rw [heq] at hnil
          cases hnil
        · exact hrest u hu
  have hlit : ∀ u ∈ tokens s, nats.Literal u := fun u hu => (hconcrete u hu).2
  refine ⟨hconcrete, ?_, ?_, fun w' h' => ?_⟩
  · refine NatsPermissionPolicy.allowsSubscribe_iff.mpr
      ⟨workerInboxPrefix w ++ ".>", List.mem_cons_of_mem _ List.mem_cons_self, Or.inr ⟨hlit, ?_⟩⟩
    have hform : workerInboxPrefix w ++ ".>" = workerInboxPrefix w ++ "." ++ ">" := by
      rw [String.append_assoc]
      rfl
    rw [hform, tokens_workerInbox, htokens]
    exact .same hinbox (.same hworkers (.same w.literal .many))
  · refine NatsPermissionPolicy.allowsPublish_iff.mpr
      ⟨hlit, "_INBOX.workers.*.>", by decide, ?_⟩
    have hpermission : tokens "_INBOX.workers.*.>" =
        ["_INBOX".toList, "workers".toList, ['*'], ['>']] := by decide
    rw [hpermission, htokens]
    exact .same hinbox (.same hworkers (.one .many))
  · obtain ⟨t', ts', htokens', _⟩ := replyIsScopedToWorker_tokens h'
    rw [htokens] at htokens'
    have hids := congrArg (·[2]?) htokens'
    exact WorkerId.toList_inj (Option.some.inj hids).symm

/-- **Worker subjects do not overlap.** For every text: it parses to a route exactly when
it is the subject the route's builder gives; no two workers may publish to it, nor
subscribe to it; a scoped reply is a concrete subject its worker may subscribe to and the
scheduler may publish to, and no reply of another worker; and permissions match it, if it
is concrete, as the broker matches tokens. -/
theorem worker_subjects_disjoint {w w' : WorkerId} (hne : w ≠ w') (s : String) :
    (∀ route, parseControlSubject s = .ok route ↔ s = route.subject) ∧
    ¬ ((NatsPermissionPolicy.worker w).allowsPublish s = true ∧
      (NatsPermissionPolicy.worker w').allowsPublish s = true) ∧
    ¬ ((NatsPermissionPolicy.worker w).allowsSubscribe s = true ∧
      (NatsPermissionPolicy.worker w').allowsSubscribe s = true) ∧
    (replyIsScopedToWorker s w = true → Concrete s ∧
      (NatsPermissionPolicy.worker w).allowsSubscribe s = true ∧
      NatsPermissionPolicy.scheduler.allowsPublish s = true ∧
      replyIsScopedToWorker s w' = false) ∧
    (Concrete s → ∀ permission,
      subjectMatches permission s = true ↔ nats.Matches (tokens permission) (tokens s)) := by
  refine ⟨fun route => parseControlSubject_iff, ?_, ?_, fun h => ?_, fun h permission => ?_⟩
  · rintro ⟨h, h'⟩
    have hids := (worker_publish h).symm.trans (worker_publish h')
    exact hne (WorkerId.toList_inj (Option.some.inj hids))
  · rintro ⟨h, h'⟩
    rcases worker_subscribe h with ⟨hfirst, hid⟩ | ⟨hfirst, hid⟩ <;>
      rcases worker_subscribe h' with ⟨hfirst', hid'⟩ | ⟨hfirst', hid'⟩
    · exact hne (WorkerId.toList_inj (Option.some.inj (hid.symm.trans hid')))
    · exact absurd (hfirst.symm.trans hfirst') (by decide)
    · exact absurd (hfirst.symm.trans hfirst') (by decide)
    · exact hne (WorkerId.toList_inj (Option.some.inj (hid.symm.trans hid')))
  · obtain ⟨hconcrete, hsubscribe, hpublish, hother⟩ := reply_allowed h
    refine ⟨hconcrete, hsubscribe, hpublish, ?_⟩
    cases h' : replyIsScopedToWorker s w' with
    | false => rfl
    | true => exact absurd (hother w' h').symm hne
  · exact subjectMatches_iff fun t ht => (h t ht).2

/-- Two workers of which one is named like the beginning of the other. -/
theorem worker_subjects_disjoint_prefixes :
    replyIsScopedToWorker "_INBOX.workers.wrk_ab.1" ⟨"wrk_a", by decide⟩ = false ∧
    NatsPermissionPolicy.scheduler.allowsPublish "_INBOX.workers.wrk_ab.1" = true := by
  have hne : (⟨"wrk_ab", by decide⟩ : WorkerId) ≠ ⟨"wrk_a", by decide⟩ := by decide
  have hscoped : replyIsScopedToWorker "_INBOX.workers.wrk_ab.1" ⟨"wrk_ab", by decide⟩ = true := by
    decide
  obtain ⟨_, _, _, hreply, _⟩ := worker_subjects_disjoint hne "_INBOX.workers.wrk_ab.1"
  obtain ⟨_, _, hpublish, hother⟩ := hreply hscoped
  exact ⟨hother, hpublish⟩

end RunAnywhere
