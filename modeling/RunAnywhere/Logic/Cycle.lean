import Mathlib.Data.List.Chain
import Mathlib.Data.List.Rotate

/-!
# Cyclic schedules

A schedule is served slot by slot, round and round. Whatever slot it starts at, a whole
turn serves every slot once (`slots_perm`). Where a schedule may be left and skipped, a
measure says how long: in a chain of steps that decrease a measure until something
happens, it happens within as many steps as the measure says (`exists_of_descent`).
-/

namespace Logic

variable {β : Type*}

/-- The `n` slots of a schedule from slot `c` on; `d` stands for no slot. -/
def slots (schedule : List β) (d : β) (c n : Nat) : List β :=
  (List.range n).map fun i => schedule.getD ((c + i) % schedule.length) d

/-- The first slot, and those from the next one on. -/
theorem slots_succ (schedule : List β) (d : β) (c n : Nat) :
    slots schedule d c (n + 1) = schedule.getD (c % schedule.length) d ::
      slots schedule d ((c + 1) % schedule.length) n := by
  unfold slots
  rw [List.range_succ_eq_map, List.map_cons, List.map_map]
  simp only [Nat.add_zero]
  congr 1
  refine List.map_congr_left ?_
  intro i _
  simp only [Function.comp_apply, Nat.mod_add_mod]
  congr 2
  omega

/-- **A whole turn** serves every slot once. -/
theorem slots_perm (schedule : List β) (d : β) (c : Nat) :
    (slots schedule d c schedule.length).Perm schedule := by
  have hrotate : slots schedule d c schedule.length = schedule.rotate c := by
    refine List.ext_getElem ?_ ?_
    · simp [slots]
    · intro i hi hi'
      have hpos : 0 < schedule.length := by
        rw [List.length_rotate] at hi'
        omega
      have hlt : (c + i) % schedule.length < schedule.length := Nat.mod_lt _ hpos
      rw [List.getElem_rotate]
      simp only [slots, List.getElem_map, List.getElem_range, List.getD_eq_getElem?_getD,
        List.getElem?_eq_getElem hlt, Option.getD_some]
      congr 1
      rw [Nat.add_comm]
  rw [hrotate]
  exact List.rotate_perm schedule c

/-- **Descent.** A chain that is longer than the measure of its first element has an element
at which something happens, if the measure is positive and decreases until then. -/
theorem exists_of_descent {R : β → β → Prop} {happens : β → Prop} (μ : β → Nat) {w : List β}
    (hchain : w.IsChain R)
    (hdescent : ∀ p ∈ w, ¬ happens p → 0 < μ p ∧ ∀ p', R p p' → μ p' < μ p)
    {first : β} (hfirst : w.head? = some first) (hlen : μ first < w.length) :
    ∃ p ∈ w, happens p := by
  induction w generalizing first with
  | nil => cases hfirst
  | cons p rest ih =>
      obtain rfl := Option.some.inj hfirst
      by_cases hp : happens p
      · exact ⟨p, List.mem_cons_self, hp⟩
      · obtain ⟨hpos, hless⟩ := hdescent p List.mem_cons_self hp
        cases rest with
        | nil =>
            simp only [List.length_cons, List.length_nil] at hlen
            omega
        | cons p' rest =>
            obtain ⟨hstep, hchain'⟩ := List.isChain_cons_cons.mp hchain
            have hnext := hless p' hstep
            have hlen' : μ p' < (p' :: rest).length := by
              simp only [List.length_cons] at hlen ⊢
              omega
            obtain ⟨q, hq, hhappens⟩ := ih hchain'
              (fun q hq => hdescent q (List.mem_cons_of_mem _ hq)) rfl hlen'
            exact ⟨q, List.mem_cons_of_mem _ hq, hhappens⟩

end Logic
