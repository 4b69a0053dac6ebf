import RunAnywhere.Contracts.Worker

/-!
# The work queue

The JetStream stream `JOB_QUEUE`: messages under increasing sequences, retired by
an acknowledgement, a termination or a deletion. A publication under a message
identifier the stream has seen is answered like a success and stores nothing.
Sequences start at 1, so message `n` is the `n`-th of the log.
-/

namespace RunAnywhere

/-! ## Payloads -/

/-- A message body, up to what the decoder tells apart. -/
inductive QueuePayload
  /-- a body that parses as a `JobQueued` -/
  | jobQueued (queued : JobQueued)
  | unparsable
  /-- a body above `MAX_QUEUE_PAYLOAD_BYTES` -/
  | oversized
  deriving DecidableEq

inductive QueuePayloadError
  | tooLarge | malformed
  deriving DecidableEq

/-- `decode_queue_payload`. -/
def decodeQueuePayload : QueuePayload → Except QueuePayloadError JobQueued
  | .oversized => .error .tooLarge
  | .unparsable => .error .malformed
  | .jobQueued queued => .ok queued

theorem decodeQueuePayload_ok {payload : QueuePayload} {queued : JobQueued} :
    decodeQueuePayload payload = .ok queued ↔ payload = .jobQueued queued := by
  cases payload <;> simp [decodeQueuePayload]

/-! ## The stream -/

/-- A stored message: its `Nats-Msg-Id`, its trace headers and its body. -/
structure QueueMessage where
  messageId : Option String
  traceContext : List (String × String)
  payload : QueuePayload
  deriving DecidableEq

/-- The messages ever stored, oldest first, and the sequences retired since. -/
structure WorkQueue where
  log : List QueueMessage
  retired : List Nat

namespace WorkQueue

def empty : WorkQueue := ⟨[], []⟩

/-- The message under sequence `n`, retired or not. -/
def message? (q : WorkQueue) (n : Nat) : Option QueueMessage :=
  if n = 0 then none else q.log[n - 1]?

/-- A message with identifier `id` was stored. -/
def Seen (q : WorkQueue) (id : String) : Prop := ∃ m ∈ q.log, m.messageId = some id

instance (q : WorkQueue) (id : String) : Decidable (q.Seen id) :=
  inferInstanceAs (Decidable (∃ m ∈ q.log, m.messageId = some id))

/-- Store a message, unless its identifier was seen. -/
def publish (q : WorkQueue) (m : QueueMessage) : WorkQueue :=
  match m.messageId with
  | some id => if q.Seen id then q else { q with log := q.log ++ [m] }
  | none => { q with log := q.log ++ [m] }

/-- Retire sequence `n`: repeating it changes nothing. -/
def retire (q : WorkQueue) (n : Nat) : WorkQueue := { q with retired := n :: q.retired }

/-- Sequence `n` is stored and not retired. -/
def Live (q : WorkQueue) (n : Nat) : Prop := (q.message? n).isSome ∧ n ∉ q.retired

instance (q : WorkQueue) (n : Nat) : Decidable (q.Live n) :=
  inferInstanceAs (Decidable (_ ∧ _))

/-! ## Reads after writes -/

@[simp] theorem message?_retire (q : WorkQueue) (n m : Nat) :
    (q.retire n).message? m = q.message? m := rfl

@[simp] theorem seen_retire (q : WorkQueue) (n : Nat) (id : String) :
    (q.retire n).Seen id ↔ q.Seen id := Iff.rfl

theorem message?_le {q : WorkQueue} {n : Nat} {m : QueueMessage} (h : q.message? n = some m) :
    0 < n ∧ n ≤ q.log.length := by
  unfold message? at h
  split at h
  · cases h
  · obtain ⟨hlt, _⟩ := List.getElem?_eq_some_iff.mp h
    omega

theorem message?_mem {q : WorkQueue} {n : Nat} {m : QueueMessage} (h : q.message? n = some m) :
    m ∈ q.log := by
  unfold message? at h
  split at h
  · cases h
  · exact List.mem_of_getElem? h

theorem seen_iff {q : WorkQueue} {id : String} :
    q.Seen id ↔ ∃ n m, q.message? n = some m ∧ m.messageId = some id := by
  constructor
  · rintro ⟨m, hm, hid⟩
    obtain ⟨n, hn, rfl⟩ := List.mem_iff_getElem.mp hm
    exact ⟨n + 1, q.log[n], by simp [message?], hid⟩
  · rintro ⟨n, m, hm, hid⟩
    exact ⟨m, message?_mem hm, hid⟩

/-- The log only grows. -/
def Extends (q q' : WorkQueue) : Prop := q.log <+: q'.log

theorem Extends.refl (q : WorkQueue) : q.Extends q := List.prefix_refl _

theorem Extends.trans {a b c : WorkQueue} (h : a.Extends b) (k : b.Extends c) : a.Extends c :=
  List.IsPrefix.trans h k

/-- A stored message stays under its sequence. -/
theorem Extends.message? {q q' : WorkQueue} (h : q.Extends q') {n : Nat} {m : QueueMessage}
    (hm : q.message? n = some m) : q'.message? n = some m := by
  obtain ⟨rest, hrest⟩ := h
  obtain ⟨hpos, hle⟩ := message?_le hm
  unfold WorkQueue.message? at hm ⊢
  rw [if_neg (by omega)] at hm ⊢
  rw [← hrest, List.getElem?_append_left (by omega)]
  exact hm

theorem Extends.seen {q q' : WorkQueue} (h : q.Extends q') {id : String} (hs : q.Seen id) :
    q'.Seen id := by
  obtain ⟨m, hm, hid⟩ := hs
  exact ⟨m, h.subset hm, hid⟩

/-- **Publication.** The identifier was seen and nothing changes, or the message is
stored under the next sequence. -/
theorem publish_cases (q : WorkQueue) (m : QueueMessage) :
    (∃ id, m.messageId = some id ∧ q.Seen id ∧ q.publish m = q) ∨
      ((∀ id, m.messageId = some id → ¬ q.Seen id) ∧
        q.publish m = { q with log := q.log ++ [m] }) := by
  unfold publish
  cases hid : m.messageId with
  | none => exact Or.inr ⟨by simp, rfl⟩
  | some id =>
      by_cases hs : q.Seen id
      · exact Or.inl ⟨id, rfl, hs, if_pos hs⟩
      · refine Or.inr ⟨fun id' h => ?_, if_neg hs⟩
        obtain rfl := Option.some.inj h
        exact hs

theorem publish_extends (q : WorkQueue) (m : QueueMessage) : q.Extends (q.publish m) := by
  rcases publish_cases q m with ⟨_, _, _, h⟩ | ⟨_, h⟩
  · rw [h]; exact .refl q
  · rw [h]; exact List.prefix_append _ _

/-- After a publication the identifier is seen. -/
theorem publish_seen (q : WorkQueue) {m : QueueMessage} {id : String}
    (hid : m.messageId = some id) : (q.publish m).Seen id := by
  rcases publish_cases q m with ⟨id', hid', hs, h⟩ | ⟨_, h⟩
  · obtain rfl := Option.some.inj (hid.symm.trans hid')
    rw [h]; exact hs
  · rw [h]; exact ⟨m, by simp, hid⟩

/-- What is stored after a publication was stored before, or is the new message under
the next sequence. -/
theorem publish_message? {q : WorkQueue} {m e : QueueMessage} {n : Nat}
    (h : (q.publish m).message? n = some e) :
    q.message? n = some e ∨ (e = m ∧ n = q.log.length + 1 ∧
      ∀ id, m.messageId = some id → ¬ q.Seen id) := by
  rcases publish_cases q m with ⟨_, _, _, hp⟩ | ⟨hnew, hp⟩
  · rw [hp] at h; exact Or.inl h
  · rw [hp] at h
    obtain ⟨hpos, hle⟩ := message?_le h
    unfold WorkQueue.message? at h ⊢
    rw [if_neg (by omega)] at h ⊢
    by_cases hlast : n - 1 < q.log.length
    · rw [List.getElem?_append_left hlast] at h
      exact Or.inl h
    · have hn : n = q.log.length + 1 := by
        simp only [List.length_append, List.length_singleton] at hle
        omega
      subst hn
      simp only [Nat.add_sub_cancel, List.getElem?_append_right (Nat.le_refl _), Nat.sub_self,
        List.getElem?_cons_zero] at h
      exact Or.inr ⟨(Option.some.inj h).symm, rfl, hnew⟩

/-- Publishing retires nothing. -/
@[simp] theorem publish_retired (q : WorkQueue) (m : QueueMessage) :
    (q.publish m).retired = q.retired := by
  rcases publish_cases q m with ⟨_, _, _, h⟩ | ⟨_, h⟩ <;> rw [h]

end WorkQueue

end RunAnywhere
