import Mathlib.Data.List.Induction

/-!
# Reading a log by cursor

A log whose entries carry increasing keys, and a reader that remembers the key it read
last:

* **unread** — the entries above the cursor;
* **advance** — the cursor after what was read;
* **nothing skipped** — behind what was read the rest is unread (`unread_advance`), so what
  a reader was given stays a front of the unread entries, when it reads on
  (`read_on`) and when the log grows (`unread_append`).
-/

namespace Logic

variable {α : Type*} {key : α → Nat}

/-- The entries above the cursor. -/
def unread (key : α → Nat) (log : List α) (cursor : Nat) : List α :=
  log.filter fun a => decide (cursor < key a)

/-- The cursor after a page: the key of its last entry. -/
def advance (key : α → Nat) (cursor : Nat) (page : List α) : Nat :=
  (page.getLast?.map key).getD cursor

@[simp] theorem advance_nil (cursor : Nat) : advance key cursor [] = cursor := rfl

@[simp] theorem advance_snoc (cursor : Nat) (page : List α) (a : α) :
    advance key cursor (page ++ [a]) = key a := by
  simp [advance]

theorem advance_append (cursor : Nat) (got page : List α) :
    advance key cursor (got ++ page) = advance key (advance key cursor got) page := by
  induction page using List.reverseRecOn with
  | nil => rw [List.append_nil, advance_nil]
  | append_singleton init last _ => rw [← List.append_assoc, advance_snoc, advance_snoc]

@[simp] theorem mem_unread {log : List α} {cursor : Nat} {a : α} :
    a ∈ unread key log cursor ↔ a ∈ log ∧ cursor < key a := by
  simp [unread]

@[simp] theorem unread_append (log new : List α) (cursor : Nat) :
    unread key (log ++ new) cursor = unread key log cursor ++ unread key new cursor :=
  List.filter_append ..

/-- New entries above the cursor are unread. -/
theorem unread_all {log : List α} {cursor : Nat} (h : ∀ a ∈ log, cursor < key a) :
    unread key log cursor = log :=
  List.filter_eq_self.mpr fun a ha => decide_eq_true (h a ha)

/-- A later cursor reads off what an earlier one left. -/
theorem unread_unread {log : List α} {c d : Nat} (h : c ≤ d) :
    unread key (unread key log c) d = unread key log d := by
  unfold unread
  rw [List.filter_filter]
  congr 1
  funext a
  by_cases hd : d < key a
  · simp [hd, Nat.lt_of_le_of_lt h hd]
  · simp [hd]

variable {log page rest : List α} {cursor : Nat}

/-- A page moves the cursor up, to its last entry. -/
theorem advance_spec (hp : ∀ a ∈ page, cursor < key a)
    (hinc : page.Pairwise fun a b => key a < key b) :
    cursor ≤ advance key cursor page ∧ ∀ a ∈ page, key a ≤ advance key cursor page := by
  induction page using List.reverseRecOn with
  | nil => exact ⟨Nat.le_refl _, nofun⟩
  | append_singleton init last _ =>
      rw [advance_snoc]
      refine ⟨Nat.le_of_lt (hp last (by simp)), fun a ha => ?_⟩
      obtain ⟨_, _, hlast⟩ := List.pairwise_append.mp hinc
      rcases List.mem_append.mp ha with hi | hl
      · exact Nat.le_of_lt (hlast a hi last (by simp))
      · exact Nat.le_of_eq (congrArg key (List.mem_singleton.mp hl))

/-- What is unread increases as the log does. -/
theorem pairwise_unread (hinc : log.Pairwise fun a b => key a < key b) (cursor : Nat) :
    (unread key log cursor).Pairwise fun a b => key a < key b :=
  hinc.filter _

/-- **Nothing skipped.** Behind a page the rest is unread. -/
theorem unread_advance (hinc : log.Pairwise fun a b => key a < key b)
    (h : unread key log cursor = page ++ rest) :
    unread key log (advance key cursor page) = rest := by
  have hsorted : (page ++ rest).Pairwise fun a b => key a < key b :=
    h ▸ pairwise_unread hinc cursor
  obtain ⟨hpage, _, hbelow⟩ := List.pairwise_append.mp hsorted
  have habove : ∀ a ∈ page ++ rest, cursor < key a := fun a ha => (mem_unread.mp (h ▸ ha)).2
  obtain ⟨hle, hcover⟩ := advance_spec (fun a ha => habove a (List.mem_append_left _ ha)) hpage
  have hread : unread key page (advance key cursor page) = [] :=
    List.filter_eq_nil_iff.mpr fun a ha => by simpa using hcover a ha
  have hleft : ∀ b ∈ rest, advance key cursor page < key b := by
    intro b hb
    induction page using List.reverseRecOn with
    | nil => exact habove b (by simpa using hb)
    | append_singleton init last _ =>
        rw [advance_snoc]
        exact hbelow last (by simp) b hb
  calc unread key log (advance key cursor page)
      = unread key (page ++ rest) (advance key cursor page) := by rw [← h, unread_unread hle]
    _ = rest := by rw [unread_append, hread, unread_all hleft, List.nil_append]

/-- **Reading on.** A reader takes the front of what is unread behind its cursor. -/
theorem read_on (hinc : log.Pairwise fun a b => key a < key b) {got : List α}
    (hgot : got <+: unread key log cursor)
    (hpage : page <+: unread key log (advance key cursor got)) :
    got ++ page <+: unread key log cursor := by
  obtain ⟨rest, hrest⟩ := hgot
  rw [unread_advance hinc hrest.symm] at hpage
  rw [← hrest]
  exact (List.prefix_append_right_inj got).mpr hpage

/-- A growing log keeps what was read. -/
theorem prefix_unread_append {got new : List α} (h : got <+: unread key log cursor) :
    got <+: unread key (log ++ new) cursor := by
  rw [unread_append]
  exact h.trans (List.prefix_append _ _)

/-- What was read: the entries up to the cursor. -/
theorem mem_read (hinc : log.Pairwise fun a b => key a < key b) {got : List α}
    (h : got <+: unread key log cursor) (a : α) :
    a ∈ got ↔ a ∈ log ∧ cursor < key a ∧ key a ≤ advance key cursor got := by
  obtain ⟨rest, hrest⟩ := h
  have hsorted : (got ++ rest).Pairwise fun a b => key a < key b :=
    hrest ▸ pairwise_unread hinc cursor
  have hall : ∀ a, a ∈ got ∨ a ∈ rest ↔ a ∈ log ∧ cursor < key a := fun a => by
    rw [← List.mem_append, hrest, mem_unread]
  have habove : ∀ a ∈ got, cursor < key a := fun a ha => ((hall a).mp (Or.inl ha)).2
  obtain ⟨_, hcover⟩ := advance_spec habove (List.pairwise_append.mp hsorted).1
  constructor
  · intro ha
    obtain ⟨hlog, hlt⟩ := (hall a).mp (Or.inl ha)
    exact ⟨hlog, hlt, hcover a ha⟩
  · rintro ⟨hlog, hlt, hle⟩
    rcases (hall a).mpr ⟨hlog, hlt⟩ with hgot | hleft
    · exact hgot
    · -- what is left is above the cursor
      rw [← unread_advance hinc hrest.symm, mem_unread] at hleft
      omega

/-- A page leaves less of the log it starts with unread, unless nothing was. -/
theorem unread_shorter {old new : List α} (hinc : (old ++ new).Pairwise fun a b => key a < key b)
    (hp : page ≠ []) (h : unread key (old ++ new) cursor = page ++ rest) :
    (unread key old (advance key cursor page)).length ≤ (unread key old cursor).length - 1 := by
  have habove : ∀ a ∈ page, cursor < key a := fun a ha =>
    (mem_unread.mp (h ▸ List.mem_append_left rest ha)).2
  have hpage : page.Pairwise fun a b => key a < key b :=
    (List.pairwise_append.mp (h ▸ pairwise_unread hinc cursor)).1
  obtain ⟨hle, hcover⟩ := advance_spec habove hpage
  rw [← unread_unread hle]
  rw [unread_append] at h
  cases hold : unread key old cursor with
  | nil => exact Nat.le_refl _
  | cons a tl =>
      -- the page starts with `a`
      obtain ⟨b, page', rfl⟩ := List.exists_cons_of_ne_nil hp
      rw [hold, List.cons_append, List.cons_append] at h
      obtain ⟨rfl, _⟩ := List.cons.inj h
      have hread : ¬ advance key cursor (a :: page') < key a :=
        Nat.not_lt.mpr (hcover a List.mem_cons_self)
      show (List.filter _ (a :: tl)).length ≤ tl.length
      rw [List.filter_cons_of_neg (by simpa using hread)]
      exact List.length_filter_le _ tl

end Logic
