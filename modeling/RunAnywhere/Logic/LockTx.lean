import RunAnywhere.Logic.Locking
import RunAnywhere.Logic.Tx

/-!
# Transactions with the locks they ask for

A `LockTx` runs a transaction and lists the locks its statements request, in order:

* **statements** — `stmt locks x` requests `locks` and then runs `x`; a transaction
  without locks is lifted as it is;
* **erasure** — `erase` forgets the requests; the `erase` lemmas read a program back as
  the transaction it instruments;
* **rule** — `Orderly x s held Q`: from `s`, holding `held`, the requests of `x` are
  ordered, and where it commits `Q` holds of the locks held then, the value and the
  store (`orderly_bind`, `orderly_stmt`).
-/

namespace Logic

open Request

/-- A transaction with its lock requests; one that fails keeps those made so far. -/
def LockTx (κ ε σ α : Type) : Type := σ → List (Request κ) × Except ε (α × σ)

namespace LockTx

variable {κ ε σ α β : Type}

instance : Monad (LockTx κ ε σ) where
  pure a := fun s => ([], .ok (a, s))
  bind x f := fun s =>
    match x s with
    | (rs, .ok (a, s')) =>
        match f a s' with
        | (qs, r) => (rs ++ qs, r)
    | (rs, .error e) => (rs, .error e)

/-- Request `locks`, then run `x`. -/
def stmt (locks : σ → List (Request κ)) (x : Tx ε σ α) : LockTx κ ε σ α := fun s => (locks s, x s)

instance : MonadLift (Tx ε σ) (LockTx κ ε σ) where
  monadLift x := stmt (fun _ => []) x

/-- Fail unless `c` holds. -/
def require (c : Bool) (e : ε) : LockTx κ ε σ Unit := liftM (Tx.require c e : Tx ε σ Unit)

/-- Read the store. -/
def read (f : σ → α) : LockTx κ ε σ α := liftM (Tx.read f : Tx ε σ α)

/-- The value of an option, or fail. -/
def okOr (o : Option α) (e : ε) : LockTx κ ε σ α := liftM (Tx.okOr o e : Tx ε σ α)

/-- The value of a result, or fail with its error. -/
def ofExcept (r : Except ε α) : LockTx κ ε σ α := liftM (Tx.ofExcept r : Tx ε σ α)

/-- Fail; the caller rolls back. -/
def fail (e : ε) : LockTx κ ε σ α := liftM (Tx.fail e : Tx ε σ α)

/-- The transaction without its requests. -/
def erase (x : LockTx κ ε σ α) : Tx ε σ α := fun s => (x s).2

/-- The locks requested from store `s`. -/
def requests (x : LockTx κ ε σ α) (s : σ) : List (Request κ) := (x s).1

/-! ## Erasure -/

@[simp] theorem erase_pure (a : α) : erase (pure a : LockTx κ ε σ α) = pure a := rfl

@[simp] theorem erase_stmt (locks : σ → List (Request κ)) (x : Tx ε σ α) :
    erase (stmt locks x) = x := rfl

@[simp] theorem erase_lift (x : Tx ε σ α) : erase (liftM x : LockTx κ ε σ α) = x := rfl

@[simp] theorem erase_require (c : Bool) (e : ε) :
    erase (require c e : LockTx κ ε σ Unit) = Tx.require c e := rfl

@[simp] theorem erase_read (f : σ → α) : erase (read f : LockTx κ ε σ α) = Tx.read f := rfl

@[simp] theorem erase_okOr (o : Option α) (e : ε) :
    erase (okOr o e : LockTx κ ε σ α) = Tx.okOr o e := rfl

@[simp] theorem erase_ofExcept (r : Except ε α) :
    erase (ofExcept r : LockTx κ ε σ α) = Tx.ofExcept r := rfl

@[simp] theorem erase_fail (e : ε) : erase (fail e : LockTx κ ε σ α) = Tx.fail e := rfl

@[simp] theorem erase_bind (x : LockTx κ ε σ α) (f : α → LockTx κ ε σ β) :
    erase (x >>= f) = erase x >>= fun a => erase (f a) := by
  funext s
  show (match x s with
    | (rs, .ok (a, s')) =>
        match f a s' with
        | (qs, r) => (rs ++ qs, r)
    | (rs, .error e) => (rs, .error e)).2 = _
  rcases hx : x s with ⟨rs, e | ⟨a, s'⟩⟩
  · exact (Tx.bind_of_error (show erase x s = .error e by rw [erase, hx])).symm
  · have hc : (erase x).Commits s a s' := by rw [Tx.Commits, erase, hx]
    rw [Tx.bind_of_commits hc]
    rfl

/-- Erase a program statement by statement. -/
theorem erase_seq {x : LockTx κ ε σ α} {f : α → LockTx κ ε σ β} {y : Tx ε σ α} {g : α → Tx ε σ β}
    (hx : erase x = y) (hf : ∀ a, erase (f a) = g a) : erase (x >>= f) = y >>= g := by
  rw [erase_bind, hx]
  simp only [hf]

@[simp] theorem erase_ite (c : Prop) [Decidable c] (x y : LockTx κ ε σ α) :
    erase (if c then x else y) = if c then erase x else erase y := by
  split <;> rfl

/-! ## Requests of a sequence -/

/-- The requests of a sequence whose first part commits. -/
theorem requests_bind {x : LockTx κ ε σ α} {f : α → LockTx κ ε σ β} {s s' : σ} {a : α}
    (h : (erase x).Commits s a s') : (x >>= f).requests s = x.requests s ++ (f a).requests s' := by
  unfold Tx.Commits erase at h
  show (match x s with
    | (rs, .ok (a, s')) =>
        match f a s' with
        | (qs, r) => (rs ++ qs, r)
    | (rs, .error e) => (rs, .error e)).1 = (x s).1 ++ (f a s').1
  rcases hxs : x s with ⟨rs, r⟩
  rw [hxs] at h
  obtain rfl : r = .ok (a, s') := h
  rfl

/-- A first part that fails keeps its requests. -/
theorem requests_bind_error {x : LockTx κ ε σ α} {f : α → LockTx κ ε σ β} {s : σ} {e : ε}
    (h : erase x s = .error e) : (x >>= f).requests s = x.requests s := by
  unfold erase at h
  show (match x s with
    | (rs, .ok (a, s')) =>
        match f a s' with
        | (qs, r) => (rs ++ qs, r)
    | (rs, .error e) => (rs, .error e)).1 = (x s).1
  rcases hxs : x s with ⟨rs, r⟩
  rw [hxs] at h
  obtain rfl : r = .error e := h
  rfl

/-! ## Ordered requests -/

variable [LT κ]

/-- From `s`, holding `held`, the requests of `x` are ordered, and where `x` commits, `Q`
holds of what is held then, the value and the store. -/
def Orderly (x : LockTx κ ε σ α) (s : σ) (held : Set κ) (Q : Set κ → α → σ → Prop) : Prop :=
  Ordered held (x.requests s) ∧
    ∀ a s', (erase x).Commits s a s' → Q (held ∪ locks (x.requests s)) a s'

variable {s : σ} {held : Set κ} {Q : Set κ → α → σ → Prop} {R : Set κ → β → σ → Prop}

theorem orderly_pure {a : α} (h : Q held a s) : (pure a : LockTx κ ε σ α).Orderly s held Q := by
  refine ⟨.nil, fun b s' hc => ?_⟩
  obtain ⟨rfl, rfl⟩ := Tx.pure_commits.mp hc
  show Q (held ∪ locks []) _ _
  rw [locks_nil, Set.union_empty]
  exact h

/-- **Sequencing.** The rest starts with what the first part holds. -/
theorem orderly_bind {x : LockTx κ ε σ α} {f : α → LockTx κ ε σ β} (hx : x.Orderly s held Q)
    (hf : ∀ held' a s', Q held' a s' → (f a).Orderly s' held' R) :
    (x >>= f).Orderly s held R := by
  obtain ⟨hordered, hpost⟩ := hx
  rcases Tx.exec_cases (erase x) s with ⟨a, s', hxc, _⟩ | ⟨e, hxe, _⟩
  · obtain ⟨hrest, hdone⟩ := hf _ a s' (hpost a s' hxc)
    refine ⟨?_, fun b s'' hc => ?_⟩
    · rw [requests_bind hxc, ordered_append]
      exact ⟨hordered, hrest⟩
    · rw [erase_bind] at hc
      obtain ⟨a', s₁, hxc', hfc⟩ := Tx.bind_commits.mp hc
      obtain ⟨rfl, rfl⟩ := hxc.unique hxc'
      rw [requests_bind hxc, locks_append, ← Set.union_assoc]
      exact hdone b s'' hfc
  · refine ⟨?_, fun b s'' hc => ?_⟩
    · rw [requests_bind_error hxe]
      exact hordered
    · rw [erase_bind] at hc
      obtain ⟨a, s', hxc, _⟩ := Tx.bind_commits.mp hc
      rw [Tx.Commits, hxe] at hxc
      cases hxc

/-- Weaker consequences. -/
theorem Orderly.mono {x : LockTx κ ε σ α} {Q' : Set κ → α → σ → Prop} (h : x.Orderly s held Q)
    (hQ : ∀ held' a s', Q held' a s' → Q' held' a s') : x.Orderly s held Q' :=
  ⟨h.1, fun a s' hc => hQ _ _ _ (h.2 a s' hc)⟩

/-! ## Statements -/

theorem orderly_stmt {ls : σ → List (Request κ)} {x : Tx ε σ α} (h : Ordered held (ls s))
    (hQ : ∀ a s', x.Commits s a s' → Q (held ∪ locks (ls s)) a s') :
    (stmt ls x).Orderly s held Q :=
  ⟨h, hQ⟩

/-- A transaction without locks. -/
theorem orderly_lift {x : Tx ε σ α} (hQ : ∀ a s', x.Commits s a s' → Q held a s') :
    (liftM x : LockTx κ ε σ α).Orderly s held Q := by
  refine ⟨.nil, fun a s' hc => ?_⟩
  show Q (held ∪ locks []) _ _
  rw [locks_nil, Set.union_empty]
  exact hQ a s' hc

/-- A statement without locks, and the rest. -/
theorem orderly_seq {x : Tx ε σ α} {f : α → LockTx κ ε σ β}
    (hf : ∀ a s', x.Commits s a s' → (f a).Orderly s' held R) :
    ((liftM x : LockTx κ ε σ α) >>= f).Orderly s held R :=
  orderly_bind (Q := fun held' a s' => held' = held ∧ x.Commits s a s')
    (orderly_lift fun _ _ hc => ⟨rfl, hc⟩) fun _ a s' ⟨hheld, hc⟩ => hheld ▸ hf a s' hc

/-- A statement that asks at most for a lock already held is free. -/
theorem orderly_held {c : σ → Bool} {l : κ} {x : Tx ε σ α} (hl : c s = true → l ∈ held)
    (hQ : ∀ a s', x.Commits s a s' → Q held a s') :
    (stmt (fun s => waitIf (c s) l) x).Orderly s held Q := by
  by_cases hc : c s = true
  · refine orderly_stmt ?_ fun a s' hx => ?_
    · simp only [waitIf, hc]
      exact .wait (Or.inl (hl hc)) .nil
    · have hset : held ∪ locks (waitIf (c s) l) = held := by
        simp only [waitIf, hc, if_true, locks_cons, locks_nil, insert_empty_eq]
        exact Set.union_eq_left.mpr (Set.singleton_subset_iff.mpr (hl hc))
      rw [hset]
      exact hQ a s' hx
  · refine orderly_stmt (by simp [waitIf, hc, Ordered.nil]) fun a s' hx => ?_
    rw [Bool.not_eq_true] at hc
    simpa [waitIf, hc] using hQ a s' hx

/-- A statement that waits for a lock above all that are held. -/
theorem orderly_wait {c : σ → Bool} {l : κ} {x : Tx ε σ α} (hl : ∀ h ∈ held, h < l)
    (hQ : ∀ a s', x.Commits s a s' → Q (if c s then insert l held else held) a s') :
    (stmt (fun s => waitIf (c s) l) x).Orderly s held Q := by
  by_cases hc : c s = true
  · refine orderly_stmt ?_ fun a s' hx => ?_
    · simp only [waitIf, hc]
      exact ordered_one hl
    · have hset : held ∪ locks (waitIf (c s) l) = insert l held := by
        simp only [waitIf, hc, if_true, locks_cons, locks_nil, Request.lock]
        rw [Set.union_insert, Set.union_empty]
      rw [hset]
      simpa only [hc, if_true] using hQ a s' hx
  · refine orderly_stmt (by simp [waitIf, hc, Ordered.nil]) fun a s' hx => ?_
    rw [Bool.not_eq_true] at hc
    simpa [waitIf, hc] using hQ a s' hx

/-- A free statement, and the rest. -/
theorem orderly_seq_held {c : σ → Bool} {l : κ} {x : Tx ε σ α} {f : α → LockTx κ ε σ β}
    (hl : l ∈ held) (hf : ∀ a s', x.Commits s a s' → (f a).Orderly s' held R) :
    (stmt (fun s => waitIf (c s) l) x >>= f).Orderly s held R :=
  orderly_bind (Q := fun held' a s' => held' = held ∧ x.Commits s a s')
    (orderly_held (fun _ => hl) fun _ _ hc => ⟨rfl, hc⟩) fun _ a s' ⟨hheld, hc⟩ => hheld ▸ hf a s' hc

/-- A waiting statement, and the rest. -/
theorem orderly_seq_wait {c : σ → Bool} {l : κ} {x : Tx ε σ α} {f : α → LockTx κ ε σ β}
    (hl : ∀ h ∈ held, h < l) (hf : ∀ a s', x.Commits s a s' →
      (f a).Orderly s' (if c s then insert l held else held) R) :
    (stmt (fun s => waitIf (c s) l) x >>= f).Orderly s held R :=
  orderly_bind (Q := fun held' a s' =>
      held' = (if c s then insert l held else held) ∧ x.Commits s a s')
    (orderly_wait hl fun _ _ hc => ⟨rfl, hc⟩) fun _ a s' ⟨hheld, hc⟩ => hheld ▸ hf a s' hc

/-- A row that is waited for and must be there. -/
theorem orderly_required {c : σ → Bool} {l : κ} {x : Tx ε σ (Option α)} {e : ε}
    {f : α → LockTx κ ε σ β} (hl : ∀ h ∈ held, h < l)
    (hx : ∀ a s', x.Commits s (some a) s' → c s = true)
    (hf : ∀ a s', x.Commits s (some a) s' → (f a).Orderly s' (insert l held) R) :
    (stmt (fun s => waitIf (c s) l) x >>= fun o => okOr o e >>= f).Orderly s held R := by
  refine orderly_seq_wait hl fun o s' hc => orderly_seq fun a s'' ho => ?_
  obtain ⟨rfl, rfl⟩ := Tx.okOr_commits.mp ho
  rw [if_pos (hx a s' hc)]
  exact hf a s' hc

/-- A row that is waited for if it is there. -/
theorem orderly_lookup {o : σ → Option α} {l : κ} {f : Option α → LockTx κ ε σ β}
    (hl : ∀ h ∈ held, h < l) (hnone : (f none).Orderly s held R)
    (hsome : ∀ a, (f (some a)).Orderly s (insert l held) R) :
    (stmt (fun s => waitIf (o s).isSome l) (.read o) >>= f).Orderly s held R := by
  refine orderly_seq_wait hl fun a s' hc => ?_
  obtain ⟨rfl, rfl⟩ := Tx.read_commits.mp hc
  cases ho : o s with
  | none => exact hnone
  | some a => exact hsome a

end LockTx

end Logic
