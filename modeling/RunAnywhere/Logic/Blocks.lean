import Mathlib.Data.List.Destutter
import Mathlib.Data.Nat.Bitwise

/-!
# Blocks of bit vectors

A block is the set of the numbers of a width that share their leading bits with a base, as the
CIDR blocks of an address space do:

* **blocks** — `InBlock width base len x`;
* **masks** — a test `x &&& mask = base` with a mask of leading ones is membership in a block
  (`and_mask_eq_iff`);
* **lists** — removing repetitions from a list of neighbours loses no element
  (`mem_destutter_ne`).
-/

namespace Logic

/-- The first `len` of `width` bits of `x` are those of `base`. -/
def InBlock (width base len x : Nat) : Prop := x / 2 ^ (width - len) = base / 2 ^ (width - len)

instance (width base len x : Nat) : Decidable (InBlock width base len x) :=
  inferInstanceAs (Decidable (_ = _))

/-- The leading bits alone. -/
theorem toNat_and_mask {w : Nat} (x : BitVec w) (k : Nat) :
    (x &&& (BitVec.allOnes w <<< k)).toNat = x.toNat / 2 ^ k * 2 ^ k := by
  have hshift : x &&& (BitVec.allOnes w <<< k) = (x >>> k) <<< k := by
    ext i hi
    simp only [BitVec.getElem_and, BitVec.getElem_shiftLeft, BitVec.getElem_allOnes]
    by_cases hik : i < k
    · simp [hik]
    · have hsum : k + (i - k) = i := by omega
      simp [hik, hsum, BitVec.getLsbD_eq_getElem hi]
  rw [hshift, BitVec.toNat_shiftLeft, BitVec.toNat_ushiftRight, Nat.shiftRight_eq_div_pow,
    Nat.shiftLeft_eq]
  refine Nat.mod_eq_of_lt (Nat.lt_of_le_of_lt (Nat.div_mul_le_self _ _) x.isLt)

/-- **Masks.** A masked test is membership in a block. -/
theorem and_mask_eq_iff {w : Nat} (x base : BitVec w) {len : Nat}
    (hbase : base.toNat % 2 ^ (w - len) = 0) :
    x &&& (BitVec.allOnes w <<< (w - len)) = base ↔ InBlock w base.toNat len x.toNat := by
  have hpos : 0 < 2 ^ (w - len) := Nat.pow_pos Nat.two_pos
  have hsplit : base.toNat / 2 ^ (w - len) * 2 ^ (w - len) = base.toNat :=
    Nat.div_mul_cancel (Nat.dvd_of_mod_eq_zero hbase)
  rw [← BitVec.toNat_inj, toNat_and_mask]
  unfold InBlock
  constructor
  · intro h
    exact Nat.eq_of_mul_eq_mul_right hpos (h.trans hsplit.symm)
  · intro h
    rw [h, hsplit]

/-- Removing neighbours that are equal loses no element. -/
theorem mem_destutter_ne {α : Type*} [DecidableEq α] {a : α} {l : List α} :
    a ∈ l.destutter (· ≠ ·) ↔ a ∈ l := by
  have hcons : ∀ (l : List α) (b : α), a ∈ l.destutter' (· ≠ ·) b ↔ a = b ∨ a ∈ l := by
    intro l
    induction l with
    | nil => intro b; simp
    | cons c l ih =>
        intro b
        by_cases hbc : b ≠ c
        · rw [List.destutter'_cons_pos _ hbc, List.mem_cons, ih c, List.mem_cons]
        · obtain rfl := not_not.mp hbc
          rw [List.destutter'_cons_neg _ hbc, ih b, List.mem_cons]
          simp
  cases l with
  | nil => simp
  | cons b l => rw [List.destutter_cons', hcons, List.mem_cons]

end Logic
