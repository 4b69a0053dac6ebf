import RunAnywhere.Scheduler.Dispatcher

/-!
# Keys

Outbox rows and queue messages meet under texts: a job identifier, a dead-letter key, a
redrive identifier, a webhook key. These texts never collide, and each gives back what
it was made of.
-/

namespace RunAnywhere

/-- Decimal numerals are read back. -/
theorem toString_nat_inj {a b : Nat} (h : toString a = toString b) : a = b := by
  have hlist : Nat.toDigits 10 a = Nat.toDigits 10 b := by
    have h' := congrArg String.toList h
    simpa [Nat.toString_eq_repr, Nat.toList_repr] using h'
  have hread := congrArg (fun l => Nat.ofDigitChars 10 l 0) hlist
  simpa using hread

/-- A text that ends in a numeral names the number. -/
theorem append_toString_inj (p : String) {a b : Nat} (h : p ++ toString a = p ++ toString b) :
    a = b := by
  have hl := congrArg String.toList h
  rw [String.toList_append, String.toList_append] at hl
  exact toString_nat_inj (String.toList_inj.mp (List.append_cancel_left hl))

/-- The first letter of a text. -/
def startsWith (c : Char) (s : String) : Prop := s.toList.head? = some c

instance (c : Char) (s : String) : Decidable (startsWith c s) :=
  inferInstanceAs (Decidable (_ = _))

theorem startsWith_append {c : Char} {p s : String} (h : startsWith c p) :
    startsWith c (p ++ s) := by
  unfold startsWith at h ⊢
  rw [String.toList_append, List.head?_append, h]
  rfl

theorem startsWith_ne {c d : Char} {s t : String} (hs : startsWith c s) (ht : startsWith d t)
    (hne : c ≠ d) : s ≠ t := by
  rintro rfl
  unfold startsWith at hs ht
  exact hne (Option.some.inj (hs.symm.trans ht))

/-- A separator absent on the left splits a text in one way. -/
theorem append_separator_inj {c : Char} {a a' b b' : List Char} (ha : c ∉ a) (ha' : c ∉ a')
    (h : a ++ c :: b = a' ++ c :: b') : a = a' ∧ b = b' := by
  induction a generalizing a' with
  | nil =>
      cases a' with
      | nil => exact ⟨rfl, (List.cons.inj h).2⟩
      | cons x xs =>
          have hx : c = x := (List.cons.inj h).1
          exact absurd (hx ▸ List.mem_cons_self) ha'
  | cons x xs ih =>
      cases a' with
      | nil =>
          have hx : x = c := (List.cons.inj h).1
          exact absurd (hx ▸ List.mem_cons_self) ha
      | cons y ys =>
          obtain ⟨rfl, hrest⟩ := List.cons.inj h
          have hxs : c ∉ xs := fun hm => ha (List.mem_cons_of_mem _ hm)
          have hys : c ∉ ys := fun hm => ha' (List.mem_cons_of_mem _ hm)
          obtain ⟨rfl, rfl⟩ := ih hxs hys hrest
          exact ⟨rfl, rfl⟩

/-- A job identifier has no colon in it. -/
theorem JobId.colon_notMem (j : JobId) : ':' ∉ j.val.toList := by
  obtain ⟨suffix, heq, hall⟩ := j.toList_eq
  rw [heq]
  intro hmem
  rcases List.mem_append.mp hmem with h | h
  · revert h; decide
  · have hc := hall ':' h
    revert hc; decide

theorem JobId.startsWith (j : JobId) : startsWith 'j' j.val := by
  obtain ⟨suffix, heq, _⟩ := j.toList_eq
  unfold RunAnywhere.startsWith
  rw [heq]
  rfl

theorem exhaustionEventKey_startsWith (j : JobId) (k : Nat) :
    startsWith 'd' (exhaustionEventKey j k) := by
  have hd : startsWith 'd' "dlq:" := by decide
  exact startsWith_append (startsWith_append (startsWith_append hd))

theorem redriveId_startsWith (n : Nat) : startsWith 'r' (redriveId n) :=
  startsWith_append (by decide)

theorem exhaustionEventKey_toList (j : JobId) (k : Nat) :
    (exhaustionEventKey j k).toList =
      "dlq:".toList ++ (j.val.toList ++ ':' :: (toString (max k 1)).toList) := by
  simp [exhaustionEventKey, String.toList_append]

/-- A marker key names its job and its attempt. -/
theorem exhaustionEventKey_inj {j j' : JobId} {k k' : Nat}
    (h : exhaustionEventKey j k = exhaustionEventKey j' k') : j = j' ∧ max k 1 = max k' 1 := by
  have hl := congrArg String.toList h
  rw [exhaustionEventKey_toList, exhaustionEventKey_toList] at hl
  obtain ⟨hj, hk⟩ := append_separator_inj j.colon_notMem j'.colon_notMem
    (List.append_cancel_left hl)
  exact ⟨Ident.ext (String.toList_inj.mp hj), toString_nat_inj (String.toList_inj.mp hk)⟩

theorem exhaustionEventKey_max (j : JobId) (k : Nat) :
    exhaustionEventKey j (max k 1) = exhaustionEventKey j k := by
  unfold exhaustionEventKey
  rw [show max (max k 1) 1 = max k 1 by omega]

/-- A marker key is no job identifier. -/
theorem exhaustionEventKey_ne_job (j i : JobId) (k : Nat) : i.val ≠ exhaustionEventKey j k :=
  startsWith_ne i.startsWith (exhaustionEventKey_startsWith j k) (by decide)

/-- A marker key is no webhook key. -/
theorem exhaustionEventKey_ne_webhook {j : JobId} {k : Nat} {rest : String} :
    exhaustionEventKey j k ≠ "webhook:" ++ rest :=
  startsWith_ne (exhaustionEventKey_startsWith j k) (startsWith_append (c := 'w') (by decide))
    (by decide)

/-- A marker key is not the key of a stream sequence. -/
theorem exhaustionEventKey_ne_sequence {j : JobId} {k : Nat} {rest : String} :
    exhaustionEventKey j k ≠ "dlq:JOB_QUEUE:" ++ rest := by
  intro h
  have hl := congrArg String.toList h
  obtain ⟨suffix, heq, _⟩ := j.toList_eq
  rw [exhaustionEventKey_toList, String.toList_append, heq] at hl
  have h4 := congrArg (fun l : List Char => l[4]?) hl
  revert h4
  simp

/-- A redrive identifier names its source. -/
theorem redriveId_inj {a b : Nat} (h : redriveId a = redriveId b) : a = b :=
  append_toString_inj _ h

/-- A redrive identifier is no job identifier. -/
theorem redriveId_ne_job (j : JobId) (n : Nat) : j.val ≠ redriveId n :=
  startsWith_ne j.startsWith (redriveId_startsWith n) (by decide)

/-- The key of a valid letter of an exhausted job is its marker key. -/
theorem JobDeadLetter.idempotencyKey_exhausted {d : JobDeadLetter} {key : String}
    (h : d.idempotencyKey = .ok key) (hr : d.reason = .attemptsExhausted) :
    ∃ j, d.jobId = some j ∧ key = exhaustionEventKey j d.attempt := by
  unfold JobDeadLetter.idempotencyKey at h
  split at h
  · cases h
  · next hv =>
      have hpos : max d.attempt 1 = d.attempt := by
        unfold JobDeadLetter.validate at hv
        split at hv
        · cases hv
        · omega
      rw [hr] at h
      simp only at h
      cases hj : d.jobId with
      | none => rw [hj] at h; cases h
      | some j =>
          rw [hj] at h
          exact ⟨j, rfl, by rw [exhaustionEventKey, hpos]; exact (Except.ok.inj h).symm⟩

/-- The key of a letter about a message names its sequence and its reason. -/
theorem JobDeadLetter.idempotencyKey_sequence {d : JobDeadLetter} {key : String}
    (h : d.idempotencyKey = .ok key) (hr : d.reason ≠ .attemptsExhausted) :
    ∃ rest, key = "dlq:JOB_QUEUE:" ++ rest := by
  unfold JobDeadLetter.idempotencyKey at h
  split at h
  · cases h
  · cases hreason : d.reason with
    | attemptsExhausted => exact absurd hreason hr
    | malformedMessage =>
        rw [hreason] at h
        cases hs : d.sourceStreamSequence with
        | none => rw [hs] at h; cases h
        | some n =>
            rw [hs] at h
            exact ⟨toString n ++ ":malformed_message",
              by rw [← Except.ok.inj h]; simp [String.append_assoc]⟩
    | canonicalJobInconsistent =>
        rw [hreason] at h
        cases hs : d.sourceStreamSequence with
        | none => rw [hs] at h; cases h
        | some n =>
            rw [hs] at h
            exact ⟨toString n ++ ":canonical_job_inconsistent",
              by rw [← Except.ok.inj h]; simp [String.append_assoc]⟩

/-- The key of a letter about the message under sequence `n`. -/
def sequenceEventKey (n : Nat) (suffix : String) : String :=
  "dlq:JOB_QUEUE:" ++ toString n ++ suffix

theorem colon_notMem_toString (n : Nat) : ':' ∉ (toString n).toList := by
  intro hmem
  have hdigits : ':' ∈ Nat.toDigits 10 n := by
    simpa [Nat.toString_eq_repr, Nat.toList_repr] using hmem
  have hdigit := Nat.isDigit_of_mem_toDigits (by decide) (by decide) hdigits
  revert hdigit
  decide

/-- Such a key names its sequence and its suffix. -/
theorem sequenceEventKey_inj {n n' : Nat} {s s' : String} (hs : startsWith ':' s)
    (hs' : startsWith ':' s') (h : sequenceEventKey n s = sequenceEventKey n' s') :
    n = n' ∧ s = s' := by
  obtain ⟨r, hr⟩ := List.head?_eq_some_iff.mp hs
  obtain ⟨r', hr'⟩ := List.head?_eq_some_iff.mp hs'
  have hl := congrArg String.toList h
  unfold sequenceEventKey at hl
  simp only [String.toList_append, List.append_assoc, hr, hr'] at hl
  obtain ⟨hn, rfl⟩ := append_separator_inj (colon_notMem_toString n) (colon_notMem_toString n')
    (List.append_cancel_left hl)
  exact ⟨toString_nat_inj (String.toList_inj.mp hn), String.toList_inj.mp (hr.trans hr'.symm)⟩

theorem exhaustionEventKey_ne_sequenceEventKey {j : JobId} {k n : Nat} {s : String} :
    exhaustionEventKey j k ≠ sequenceEventKey n s := by
  unfold sequenceEventKey
  rw [String.append_assoc]
  exact exhaustionEventKey_ne_sequence

/-- The key of a letter starts like a dead-letter key. -/
theorem JobDeadLetter.idempotencyKey_startsWith {d : JobDeadLetter} {key : String}
    (h : d.idempotencyKey = .ok key) : startsWith 'd' key := by
  by_cases hr : d.reason = .attemptsExhausted
  · obtain ⟨j, _, rfl⟩ := JobDeadLetter.idempotencyKey_exhausted h hr
    exact exhaustionEventKey_startsWith j _
  · obtain ⟨rest, rfl⟩ := JobDeadLetter.idempotencyKey_sequence h hr
    exact startsWith_append (by decide)

/-- Two letters are about the same: a job and its attempt, or a source sequence. -/
def JobDeadLetter.SameSubject (d d' : JobDeadLetter) : Prop :=
  match d.reason with
  | .attemptsExhausted => d.jobId = d'.jobId ∧ d.attempt = d'.attempt
  | .malformedMessage | .canonicalJobInconsistent =>
      d.sourceStreamSequence = d'.sourceStreamSequence

/-- The suffix of a sequence key. -/
def JobDeadLetterReason.suffix : JobDeadLetterReason → String
  | .malformedMessage => ":malformed_message"
  | .canonicalJobInconsistent => ":canonical_job_inconsistent"
  | .attemptsExhausted => ""

/-- The key of a valid letter. -/
theorem JobDeadLetter.idempotencyKey_cases {d : JobDeadLetter} (h : d.validate = .ok ()) :
    (d.reason = .attemptsExhausted ∧ ∃ j, d.jobId = some j ∧ 0 < d.attempt ∧
      d.idempotencyKey = .ok (exhaustionEventKey j d.attempt)) ∨
    (d.reason ≠ .attemptsExhausted ∧ ∃ n, d.sourceStreamSequence = some n ∧
      d.idempotencyKey = .ok (sequenceEventKey n d.reason.suffix)) := by
  have hpos : d.attempt ≠ 0 := by
    intro hzero
    rw [JobDeadLetter.validate, if_pos hzero] at h
    cases h
  have hattempt : max d.attempt 1 = d.attempt := by omega
  have hv := h
  rw [JobDeadLetter.validate, if_neg hpos] at hv
  split at hv
  · cases hv
  · unfold JobDeadLetter.idempotencyKey exhaustionEventKey
    rw [h, hattempt]
    cases hr : d.reason with
    | attemptsExhausted =>
        rw [hr] at hv
        cases hj : d.jobId with
        | none => simp [hj] at hv
        | some j => exact Or.inl ⟨rfl, j, rfl, by omega, rfl⟩
    | malformedMessage | canonicalJobInconsistent =>
        rw [hr] at hv
        cases hn : d.sourceStreamSequence with
        | none => simp [hn] at hv
        | some n => exact Or.inr ⟨by decide, n, rfl, rfl⟩

/-- **Keys of letters.** Two valid letters have one key when they have one reason and are
about the same. -/
theorem JobDeadLetter.idempotencyKey_eq_iff {d d' : JobDeadLetter} (h : d.validate = .ok ())
    (h' : d'.validate = .ok ()) :
    d.idempotencyKey = d'.idempotencyKey ↔ d.reason = d'.reason ∧ d.SameSubject d' := by
  unfold JobDeadLetter.SameSubject
  rcases idempotencyKey_cases h with ⟨hr, j, hj, hpos, hkey⟩ | ⟨hr, n, hn, hkey⟩ <;>
  rcases idempotencyKey_cases h' with ⟨hr', j', hj', hpos', hkey'⟩ | ⟨hr', n', hn', hkey'⟩
  · rw [hkey, hkey', hr, hr', hj, hj']
    constructor
    · intro heq
      obtain ⟨rfl, hmax⟩ := exhaustionEventKey_inj (Except.ok.inj heq)
      exact ⟨rfl, rfl, by omega⟩
    · rintro ⟨_, hsame, hattempt⟩
      rw [Option.some.inj hsame, hattempt]
  · rw [hkey, hkey']
    constructor
    · exact fun heq => absurd (Except.ok.inj heq) exhaustionEventKey_ne_sequenceEventKey
    · exact fun hsame => absurd (hsame.1 ▸ hr) hr'
  · rw [hkey, hkey']
    constructor
    · exact fun heq => absurd (Except.ok.inj heq).symm exhaustionEventKey_ne_sequenceEventKey
    · exact fun hsame => absurd (hsame.1 ▸ hr') hr
  · rw [hkey, hkey', hn, hn']
    have hsuffix : ∀ reason, reason ≠ .attemptsExhausted →
        startsWith ':' (JobDeadLetterReason.suffix reason) := by
      intro reason hne
      cases reason with
      | attemptsExhausted => exact absurd rfl hne
      | malformedMessage | canonicalJobInconsistent => decide
    constructor
    · intro heq
      obtain ⟨rfl, hsame⟩ := sequenceEventKey_inj (hsuffix _ hr) (hsuffix _ hr')
        (Except.ok.inj heq)
      cases hd : d.reason <;> cases hd' : d'.reason <;> rw [hd, hd'] at hsame <;>
        first | exact absurd hd hr | exact absurd hd' hr' | exact ⟨rfl, rfl⟩ |
          exact absurd hsame (by decide)
    · rintro ⟨hreason, hsame⟩
      rw [← hreason]
      cases hd : d.reason <;> rw [hd] at hsame
      · rw [Option.some.inj hsame]
      · rw [Option.some.inj hsame]
      · exact absurd hd hr

end RunAnywhere
