import Mathlib.Tactic.IntervalCases
import RunAnywhere.Api.Webhook

/-!
# Screening and embedded addresses

An IPv6 address can carry an IPv4 address: mapped (`::ffff:a`), compatible (`::a`), behind a
NAT64 prefix (`64:ff9b::/96`, `64:ff9b:1::/48`), or in 6to4 (`2002:a::/16`). The filter closes
all of these over the forbidden IPv4 blocks but the last: every address of `2002::/16` is
allowed, whatever it carries.

* **blocks** — the octet tests of the filter are membership in the CIDR blocks
  `reservedBlocks` and `privateBlocks`;
* **policies** — the two policies differ on the private addresses only;
* **resolution** — a target is returned only with addresses that are all allowed.
-/

namespace RunAnywhere

open Logic

/-! ## Blocks -/

def Ipv4Addr.InBlock (x : Ipv4Addr) (block : Ipv4Addr × Nat) : Prop :=
  Logic.InBlock 32 block.1.toNat block.2 x.toNat

def Ipv6Addr.InBlock (x : Ipv6Addr) (base : Ipv6Addr) (len : Nat) : Prop :=
  Logic.InBlock 128 base.toNat len x.toNat

/-- The private networks. -/
def privateBlocks : List (Ipv4Addr × Nat) :=
  [(⟨10, 0, 0, 0⟩, 8), (⟨172, 16, 0, 0⟩, 12), (⟨192, 168, 0, 0⟩, 16)]

/-- This network, loopback, carrier-grade NAT, link-local, protocol assignments, documentation,
benchmarks, and multicast with all that lies above it. -/
def reservedBlocks : List (Ipv4Addr × Nat) :=
  [(⟨0, 0, 0, 0⟩, 8), (⟨127, 0, 0, 0⟩, 8), (⟨100, 64, 0, 0⟩, 10), (⟨169, 254, 0, 0⟩, 16),
    (⟨192, 0, 0, 0⟩, 24), (⟨192, 0, 2, 0⟩, 24), (⟨198, 18, 0, 0⟩, 15), (⟨198, 51, 100, 0⟩, 24),
    (⟨203, 0, 113, 0⟩, 24), (⟨224, 0, 0, 0⟩, 3)]

/-- The IPv4 blocks a policy forbids. -/
def WebhookPolicy.blocks (policy : WebhookPolicy) : List (Ipv4Addr × Nat) :=
  reservedBlocks ++ if policy.allowPrivateNetworks then [] else privateBlocks

namespace Ipv4Addr

variable (x : Ipv4Addr)

/-- A block of one octet. -/
theorem inBlock_8 (k : BitVec 8) : x.InBlock (⟨k, 0, 0, 0⟩, 8) ↔ x.a = k := by
  have hb := x.b.isLt
  have hc := x.c.isLt
  have hd := x.d.isLt
  simp [InBlock, Logic.InBlock, toNat, ← BitVec.toNat_inj]
  omega

/-- A block of two octets. -/
theorem inBlock_16 (k m : BitVec 8) :
    x.InBlock (⟨k, m, 0, 0⟩, 16) ↔ x.a = k ∧ x.b = m := by
  have hb := x.b.isLt
  have hc := x.c.isLt
  have hd := x.d.isLt
  have hm := m.isLt
  simp [InBlock, Logic.InBlock, toNat, ← BitVec.toNat_inj]
  omega

/-- A block of three octets. -/
theorem inBlock_24 (k m n : BitVec 8) :
    x.InBlock (⟨k, m, n, 0⟩, 24) ↔ x.a = k ∧ x.b = m ∧ x.c = n := by
  have hb := x.b.isLt
  have hc := x.c.isLt
  have hd := x.d.isLt
  have hm := m.isLt
  have hn := n.isLt
  simp [InBlock, Logic.InBlock, toNat, ← BitVec.toNat_inj]
  omega

/-- A block of one octet and a range of the second: `172.16.0.0/12`, `100.64.0.0/10` and
`198.18.0.0/15`. -/
theorem inBlock_range (k m : BitVec 8) (len : Nat) (hlen : 8 ≤ len ∧ len ≤ 16)
    (hm : m.toNat % 2 ^ (16 - len) = 0) :
    x.InBlock (⟨k, m, 0, 0⟩, len) ↔
      x.a = k ∧ m.toNat ≤ x.b.toNat ∧ x.b.toNat < m.toNat + 2 ^ (16 - len) := by
  have hb := x.b.isLt
  have hc := x.c.isLt
  have hd := x.d.isLt
  have hmlt := m.isLt
  obtain ⟨hfirst, hlast⟩ := hlen
  simp only [InBlock, Logic.InBlock, toNat, ← BitVec.toNat_inj]
  interval_cases len <;> simp at hm ⊢ <;> omega

theorem inBlock_class_d : x.InBlock (⟨224, 0, 0, 0⟩, 3) ↔ 224 ≤ x.a.toNat := by
  have ha := x.a.isLt
  have hb := x.b.isLt
  have hc := x.c.isLt
  have hd := x.d.isLt
  simp [InBlock, Logic.InBlock, toNat]
  omega

end Ipv4Addr

theorem Ipv4Addr.isPrivate_iff (x : Ipv4Addr) :
    x.isPrivate = true ↔ ∃ block ∈ privateBlocks, x.InBlock block := by
  simp only [isPrivate, privateBlocks, Bool.or_eq_true, Bool.and_eq_true, decide_eq_true_iff,
    List.mem_cons, List.not_mem_nil, or_false, exists_eq_or_imp, exists_eq_left, inBlock_8,
    inBlock_16, x.inBlock_range 172 16 12 (by decide) (by decide), BitVec.le_def]
  simp [Nat.lt_succ_iff, or_assoc]

theorem Ipv4Addr.isAlwaysForbidden_iff (x : Ipv4Addr) :
    x.isAlwaysForbidden = true ↔ ∃ block ∈ reservedBlocks, x.InBlock block := by
  have hbench : x.b = 18 ∨ x.b = 19 ↔ 18 ≤ x.b.toNat ∧ x.b.toNat < 20 := by
    rw [← BitVec.toNat_inj, ← BitVec.toNat_inj]
    simp
    omega
  have hbroadcast : x.a = 255#8 ∧ x.b = 255#8 ∧ x.c = 255#8 ∧ x.d = 255#8 → 224 ≤ x.a.toNat := by
    rintro ⟨ha, _⟩
    rw [ha]
    decide
  simp only [isAlwaysForbidden, reservedBlocks, Bool.or_eq_true, Bool.and_eq_true,
    decide_eq_true_iff, List.mem_cons, List.not_mem_nil, or_false, exists_eq_or_imp,
    exists_eq_left, inBlock_8, inBlock_16, inBlock_24, inBlock_class_d, hbench,
    x.inBlock_range 100 64 10 (by decide) (by decide),
    x.inBlock_range 198 18 15 (by decide) (by decide), BitVec.le_def]
  simp [and_assoc, or_assoc, or_iff_left_of_imp hbroadcast, Nat.lt_succ_iff]

/-- The filter on IPv4 addresses. -/
theorem isForbiddenTarget_v4_iff (x : Ipv4Addr) (policy : WebhookPolicy) :
    isForbiddenTarget (.v4 x) policy = true ↔ ∃ block ∈ policy.blocks, x.InBlock block := by
  have hreserved := x.isAlwaysForbidden_iff
  have hprivate := x.isPrivate_iff
  cases hp : policy.allowPrivateNetworks with
  | false =>
      simp only [isForbiddenTarget, isAlwaysForbiddenIp, isPrivateIp, WebhookPolicy.blocks, hp,
        Bool.not_false, Bool.true_and, Bool.or_eq_true, hreserved, hprivate, List.mem_append,
        Bool.false_eq_true, if_false, or_and_right, exists_or]
  | true =>
      simp only [isForbiddenTarget, isAlwaysForbiddenIp, WebhookPolicy.blocks, hp, Bool.not_true,
        Bool.false_and, Bool.or_false, hreserved, if_true, List.append_nil]

/-! ## Masks -/

/-- A block of the leading bits of the first segment. -/
theorem Ipv6Addr.inBlock_iff (x : Ipv6Addr) (base : BitVec 16) {len : Nat} (hlen : len ≤ 16) :
    x.InBlock ⟨base, 0, 0, 0, 0, 0, 0, 0⟩ len ↔ Logic.InBlock 16 base.toNat len x.s0.toNat := by
  have hwidth : 2 ^ (128 - len) = 2 ^ 112 * 2 ^ (16 - len) := by
    rw [← Nat.pow_add]
    congr 1
    omega
  have hhigh : ∀ y : Ipv6Addr, y.toNat / 2 ^ 112 = y.s0.toNat := by
    intro y
    have h1 := y.s1.isLt
    have h2 := y.s2.isLt
    have h3 := y.s3.isLt
    have h4 := y.s4.isLt
    have h5 := y.s5.isLt
    have h6 := y.s6.isLt
    have h7 := y.s7.isLt
    unfold toNat
    omega
  unfold InBlock Logic.InBlock
  rw [hwidth, ← Nat.div_div_eq_div_mul, ← Nat.div_div_eq_div_mul, hhigh, hhigh]

/-- A masked test of the first segment. -/
theorem Ipv6Addr.and_mask_iff (x : Ipv6Addr) {mask base : BitVec 16} (len : Nat) (hlen : len ≤ 16)
    (hmask : mask = BitVec.allOnes 16 <<< (16 - len)) (hbase : base.toNat % 2 ^ (16 - len) = 0) :
    x.s0 &&& mask = base ↔ x.InBlock ⟨base, 0, 0, 0, 0, 0, 0, 0⟩ len := by
  rw [hmask, and_mask_eq_iff x.s0 base hbase, x.inBlock_iff base hlen]

/-! ## Embeddings -/

namespace Ipv4Addr

/-- The first two octets. -/
def high (x : Ipv4Addr) : BitVec 16 := x.a ++ x.b

/-- The last two octets. -/
def low (x : Ipv4Addr) : BitVec 16 := x.c ++ x.d

def mapped (x : Ipv4Addr) : Ipv6Addr := ⟨0, 0, 0, 0, 0, 0xffff, x.high, x.low⟩

def compatible (x : Ipv4Addr) : Ipv6Addr := ⟨0, 0, 0, 0, 0, 0, x.high, x.low⟩

end Ipv4Addr

/-- The standard ways to carry an IPv4 address. -/
inductive Embedding
  | mapped | compatible | nat64 | localNat64 | sixToFour
  deriving DecidableEq

/-- The address carries `a`. Under the local NAT64 prefix an operator may place it at the end, or
around the reserved octet. -/
def Embedding.Carries (a : Ipv4Addr) (e : Ipv6Addr) : Embedding → Prop
  | mapped => e = a.mapped
  | compatible => e = a.compatible
  | nat64 => e = ⟨0x0064, 0xff9b, 0, 0, 0, 0, a.high, a.low⟩
  | localNat64 => e.s0 = 0x0064 ∧ e.s1 = 0xff9b ∧ e.s2 = 0x0001 ∧
      ((e.s6 = a.high ∧ e.s7 = a.low) ∨
        (e.s3 = a.high ∧ e.s4.extractLsb' 0 8 = a.c ∧ e.s5.extractLsb' 8 8 = a.d))
  | sixToFour => e.s0 = 0x2002 ∧ e.s1 = a.high ∧ e.s2 = a.low

/-- The octets of the two last segments. -/
theorem Ipv4Addr.of_segments (x : Ipv4Addr) :
    (⟨x.high.extractLsb' 8 8, x.high.extractLsb' 0 8, x.low.extractLsb' 8 8,
      x.low.extractLsb' 0 8⟩ : Ipv4Addr) = x := by
  have hhigh : ∀ a b : BitVec 8, (a ++ b).extractLsb' 8 8 = a := by
    intro a b
    rw [BitVec.extractLsb'_append_eq_ite]
    simp
  have hlow : ∀ a b : BitVec 8, (a ++ b).extractLsb' 0 8 = b := by
    intro a b
    rw [BitVec.extractLsb'_append_eq_of_add_le (Nat.le_refl 8)]
    simp
  obtain ⟨a, b, c, d⟩ := x
  simp only [high, low, hhigh, hlow]

theorem Ipv4Addr.toIpv4_mapped (x : Ipv4Addr) : x.mapped.toIpv4 = some x :=
  congrArg some x.of_segments

theorem Ipv4Addr.toIpv4_compatible (x : Ipv4Addr) : x.compatible.toIpv4 = some x :=
  congrArg some x.of_segments

/-- What `to_ipv4` finds is mapped or compatible. -/
theorem Ipv6Addr.toIpv4_some {e : Ipv6Addr} {x : Ipv4Addr} (h : e.toIpv4 = some x) :
    e = x.mapped ∨ e = x.compatible := by
  obtain ⟨s0, s1, s2, s3, s4, s5, s6, s7⟩ := e
  unfold toIpv4 at h
  split at h
  · next hzero =>
      obtain ⟨h0, h1, h2, h3, h4, h5⟩ := hzero
      obtain rfl := Option.some.inj h
      have hsegment : ∀ s : BitVec 16, s.extractLsb' 8 8 ++ s.extractLsb' 0 8 = s :=
        fun s => BitVec.extractLsb'_append_extractLsb'
      simp only at h0 h1 h2 h3 h4 h5
      subst h0 h1 h2 h3 h4
      simp only [Ipv4Addr.mapped, Ipv4Addr.compatible, Ipv4Addr.high, Ipv4Addr.low, hsegment]
      rcases h5 with rfl | rfl
      · exact Or.inr rfl
      · exact Or.inl rfl
  · cases h

theorem Ipv6Addr.toIpv4_none {e : Ipv6Addr} (h : e.s0 ≠ 0) : e.toIpv4 = none := by
  unfold toIpv4
  rw [if_neg fun hzero => h hzero.1]

/-! ## The filter on IPv6 addresses -/

/-- A mapped or compatible address is screened as the IPv4 address it carries. -/
theorem isForbiddenTarget_of_toIpv4 {e : Ipv6Addr} {x : Ipv4Addr} (h : e.toIpv4 = some x)
    (policy : WebhookPolicy) :
    isForbiddenTarget (.v6 e) policy = isForbiddenTarget (.v4 x) policy := by
  simp only [isForbiddenTarget, isAlwaysForbiddenIp, isPrivateIp, h]

/-- Both NAT64 prefixes are forbidden. -/
theorem nat64_forbidden {e : Ipv6Addr} (h0 : e.s0 = 0x0064) (h1 : e.s1 = 0xff9b)
    (h : (e.s2 = 0 ∧ e.s3 = 0 ∧ e.s4 = 0 ∧ e.s5 = 0) ∨ e.s2 = 0x0001) (policy : WebhookPolicy) :
    isForbiddenTarget (.v6 e) policy = true := by
  have hnone : e.toIpv4 = none := Ipv6Addr.toIpv4_none (by rw [h0]; decide)
  have hprefix : (decide (e.s2 = 0 ∧ e.s3 = 0 ∧ e.s4 = 0 ∧ e.s5 = 0) ||
      decide (e.s2 = 0x0001)) = true := by
    rw [Bool.or_eq_true, decide_eq_true_iff, decide_eq_true_iff]
    exact h
  simp only [isForbiddenTarget, isAlwaysForbiddenIp, hnone, hprefix, h0, h1, decide_true,
    Bool.and_self, Bool.or_true, Bool.true_or]

/-- **No 6to4 address is forbidden.** -/
theorem sixToFour_allowed {e : Ipv6Addr} (h : e.s0 = 0x2002) (policy : WebhookPolicy) :
    isForbiddenTarget (.v6 e) policy = false := by
  have hnone : e.toIpv4 = none := Ipv6Addr.toIpv4_none (by rw [h]; decide)
  have hunspecified : e.isUnspecified = false := by
    refine decide_eq_false fun he => ?_
    rw [he] at h
    exact absurd h (by decide)
  have hloopback : e.isLoopback = false := by
    refine decide_eq_false fun he => ?_
    rw [he] at h
    exact absurd h (by decide)
  simp [isForbiddenTarget, isAlwaysForbiddenIp, isPrivateIp, hnone, hunspecified, hloopback, h]

/-! ## The policies -/

/-- The private addresses: of a private IPv4 network, mapped and compatible forms included, or
unique local ones. -/
def IpAddr.IsPrivate : IpAddr → Prop
  | .v4 x => ∃ block ∈ privateBlocks, x.InBlock block
  | .v6 e => (∃ x : Ipv4Addr, (e = x.mapped ∨ e = x.compatible) ∧
        ∃ block ∈ privateBlocks, x.InBlock block) ∨
      e.InBlock ⟨0xfc00, 0, 0, 0, 0, 0, 0, 0⟩ 7

/-- Loopback, link-local, multicast, unspecified and carrier-grade NAT addresses. -/
def IpAddr.IsLocal : IpAddr → Prop
  | .v4 x => x.InBlock (⟨127, 0, 0, 0⟩, 8) ∨ x.InBlock (⟨169, 254, 0, 0⟩, 16) ∨
      x.InBlock (⟨224, 0, 0, 0⟩, 4) ∨ x = ⟨0, 0, 0, 0⟩ ∨ x.InBlock (⟨100, 64, 0, 0⟩, 10)
  | .v6 e => e = ⟨0, 0, 0, 0, 0, 0, 0, 1⟩ ∨ e.InBlock ⟨0xfe80, 0, 0, 0, 0, 0, 0, 0⟩ 10 ∨
      e.InBlock ⟨0xff00, 0, 0, 0, 0, 0, 0, 0⟩ 8 ∨ e = ⟨0, 0, 0, 0, 0, 0, 0, 0⟩

/-- An address of a block of the first segment starts as the block does. -/
theorem Ipv6Addr.InBlock.first {e : Ipv6Addr} {base : BitVec 16} {len : Nat} (hlen : len ≤ 16)
    (h : e.InBlock ⟨base, 0, 0, 0, 0, 0, 0, 0⟩ len) :
    e.s0.toNat / 2 ^ (16 - len) = base.toNat / 2 ^ (16 - len) :=
  (e.inBlock_iff base hlen).mp h

theorem isPrivateIp_iff (address : IpAddr) : isPrivateIp address = true ↔ address.IsPrivate := by
  cases address with
  | v4 x => exact x.isPrivate_iff
  | v6 e =>
      have hlocal : e.s0 &&& 0xfe00 = 0xfc00 ↔ e.InBlock ⟨0xfc00, 0, 0, 0, 0, 0, 0, 0⟩ 7 :=
        e.and_mask_iff 7 (by decide) (by decide) (by decide)
      cases hv4 : e.toIpv4 with
      | some x =>
          simp only [isPrivateIp, hv4, x.isPrivate_iff, IpAddr.IsPrivate]
          have hform := Ipv6Addr.toIpv4_some hv4
          constructor
          · intro hblock
            exact Or.inl ⟨x, hform, hblock⟩
          · rintro (⟨y, hy, hblock⟩ | hblock)
            · -- an address carries one IPv4 address
              have hsame : e.toIpv4 = some y := by
                rcases hy with rfl | rfl
                · exact y.toIpv4_mapped
                · exact y.toIpv4_compatible
              obtain rfl := Option.some.inj (hv4.symm.trans hsame)
              exact hblock
            · have hzero : e.s0 = 0 := by
                rcases hform with rfl | rfl <;> rfl
              have hfirst := hblock.first (by decide)
              rw [hzero] at hfirst
              exact absurd hfirst (by decide)
      | none =>
          simp only [isPrivateIp, hv4, decide_eq_true_iff, hlocal, IpAddr.IsPrivate]
          constructor
          · exact Or.inr
          · rintro (⟨y, hy, _⟩ | hblock)
            · rcases hy with rfl | rfl
              · rw [y.toIpv4_mapped] at hv4
                cases hv4
              · rw [y.toIpv4_compatible] at hv4
                cases hv4
            · exact hblock

/-- A private IPv4 address is not reserved. -/
theorem Ipv4Addr.isAlwaysForbidden_of_isPrivate {x : Ipv4Addr} (h : x.isPrivate = true) :
    x.isAlwaysForbidden = false := by
  simp only [isPrivate, Bool.or_eq_true, Bool.and_eq_true, decide_eq_true_iff] at h
  rcases h with (ha | ⟨ha, _⟩) | ⟨ha, hb⟩
  · simp [isAlwaysForbidden, ha]
  · simp [isAlwaysForbidden, ha]
  · simp [isAlwaysForbidden, ha, hb]

/-- A private address is not reserved. -/
theorem isAlwaysForbiddenIp_of_isPrivateIp {address : IpAddr} (h : isPrivateIp address = true) :
    isAlwaysForbiddenIp address = false := by
  cases address with
  | v4 x => exact Ipv4Addr.isAlwaysForbidden_of_isPrivate h
  | v6 e =>
      cases hv4 : e.toIpv4 with
      | some x =>
          simp only [isPrivateIp, hv4] at h
          simp only [isAlwaysForbiddenIp, hv4]
          exact Ipv4Addr.isAlwaysForbidden_of_isPrivate h
      | none =>
          simp only [isPrivateIp, hv4, decide_eq_true_iff] at h
          have hfirst : e.s0.toNat / 512 = 126 :=
            ((e.and_mask_iff 7 (by decide) (by decide) (by decide)).mp h).first (by decide)
          have hne : ∀ k : BitVec 16, k.toNat / 512 ≠ 126 → e.s0 ≠ k := by
            rintro k hk rfl
            exact hk hfirst
          have hlinkLocal : e.s0 &&& 0xffc0 ≠ 0xfe80 := by
            intro hmask
            have hten : e.s0.toNat / 64 = 1018 :=
              ((e.and_mask_iff 10 (by decide) (by decide) (by decide)).mp hmask).first (by decide)
            omega
          have hsiteLocal : e.s0 &&& 0xffc0 ≠ 0xfec0 := by
            intro hmask
            have hten : e.s0.toNat / 64 = 1019 :=
              ((e.and_mask_iff 10 (by decide) (by decide) (by decide)).mp hmask).first (by decide)
            omega
          have hmulticast : e.s0 &&& 0xff00 ≠ 0xff00 := by
            intro hmask
            have height : e.s0.toNat / 256 = 255 :=
              ((e.and_mask_iff 8 (by decide) (by decide) (by decide)).mp hmask).first (by decide)
            omega
          have hzero : e.s0 ≠ 0 := hne 0 (by decide)
          have hunspecified : e.isUnspecified = false :=
            decide_eq_false fun he => hzero (congrArg Ipv6Addr.s0 he)
          have hloopback : e.isLoopback = false :=
            decide_eq_false fun he => hzero (congrArg Ipv6Addr.s0 he)
          simp only [isAlwaysForbiddenIp, hv4, hunspecified, hloopback, hlinkLocal, hsiteLocal,
            hmulticast, hne 0x0064 (by decide), hne 0x2001 (by decide), hne 0x0100 (by decide),
            decide_false, Bool.false_and, Bool.or_false]

/-- **What private networks add.** -/
theorem policies_differ_iff (address : IpAddr) :
    isForbiddenTarget address ⟨false⟩ ≠ isForbiddenTarget address ⟨true⟩ ↔ address.IsPrivate := by
  rw [← isPrivateIp_iff]
  cases hprivate : isPrivateIp address with
  | false => simp [isForbiddenTarget, hprivate]
  | true => simp [isForbiddenTarget, hprivate, isAlwaysForbiddenIp_of_isPrivateIp hprivate]

theorem isAlwaysForbiddenIp_of_isLocal {address : IpAddr} (h : address.IsLocal) :
    isAlwaysForbiddenIp address = true := by
  cases address with
  | v4 x =>
      refine x.isAlwaysForbidden_iff.mpr ?_
      rcases h with h | h | h | rfl | h
      · exact ⟨_, by simp [reservedBlocks], h⟩
      · exact ⟨_, by simp [reservedBlocks], h⟩
      · -- multicast lies in the last reserved block
        refine ⟨(⟨224, 0, 0, 0⟩, 3), by simp [reservedBlocks], ?_⟩
        unfold Ipv4Addr.InBlock Logic.InBlock at h ⊢
        simp only [Ipv4Addr.toNat] at h ⊢
        simp at h ⊢
        omega
      · exact ⟨(⟨0, 0, 0, 0⟩, 8), by simp [reservedBlocks], rfl⟩
      · exact ⟨_, by simp [reservedBlocks], h⟩
  | v6 e =>
      rcases h with rfl | h | h | rfl
      · decide
      · have hmask : e.s0 &&& 0xffc0 = 0xfe80 :=
          (e.and_mask_iff 10 (by decide) (by decide) (by decide)).mpr h
        have hnone : e.toIpv4 = none := Ipv6Addr.toIpv4_none fun hzero => by
          rw [hzero] at hmask
          exact absurd hmask (by decide)
        simp only [isAlwaysForbiddenIp, hnone, hmask, decide_true, Bool.or_true, Bool.true_or]
      · have hmask : e.s0 &&& 0xff00 = 0xff00 :=
          (e.and_mask_iff 8 (by decide) (by decide) (by decide)).mpr h
        have hnone : e.toIpv4 = none := Ipv6Addr.toIpv4_none fun hzero => by
          rw [hzero] at hmask
          exact absurd hmask (by decide)
        simp only [isAlwaysForbiddenIp, hnone, hmask, decide_true, Bool.or_true, Bool.true_or]
      · decide

/-! ## Resolution -/

/-- **Resolution.** The addresses of a target are those its host resolved to, and all are
allowed. -/
theorem resolveWebhookTarget_ok {net : Network} {value : String} {policy : WebhookPolicy}
    {target : ResolvedWebhookTarget} (h : resolveWebhookTarget net value policy = .ok target) :
    ∃ host port answers, target.url.host = some host ∧ target.url.portOrKnownDefault = some port ∧
      net.addresses port host = .ok answers ∧
      (∀ address, address ∈ target.addresses ↔ address ∈ answers) ∧
      ∀ address ∈ answers, isForbiddenTarget address.ip policy = false := by
  unfold resolveWebhookTarget at h
  cases hparse : net.parse value with
  | none =>
      rw [hparse] at h
      cases h
  | some url =>
      rw [hparse] at h
      simp only [bind, Except.bind, pure, Except.pure, throw, throwThe, MonadExceptOf.throw] at h
      split at h
      · cases h
      split at h
      · cases h
      cases hhost : url.host with
      | none =>
          rw [hhost] at h
          cases h
      | some host =>
          rw [hhost] at h
          cases hport : url.portOrKnownDefault with
          | none =>
              rw [hport] at h
              cases h
          | some port =>
              rw [hport] at h
              simp only at h
              cases hanswers : net.addresses port host with
              | error e =>
                  rw [hanswers] at h
                  cases h
              | ok answers =>
                  rw [hanswers] at h
                  simp only at h
                  split at h
                  · cases h
                  split at h
                  · cases h
                  next hallowed =>
                  obtain rfl := Except.ok.inj h
                  have hmem : ∀ address, address ∈
                      (answers.mergeSort SocketAddr.le).destutter (· ≠ ·) ↔ address ∈ answers :=
                    fun address => mem_destutter_ne.trans List.mem_mergeSort
                  refine ⟨host, port, answers, hhost, hport, hanswers, hmem, fun address hin => ?_⟩
                  refine Bool.eq_false_iff.mpr fun hforbidden => hallowed ?_
                  exact List.any_eq_true.mpr ⟨address, (hmem address).mpr hin, hforbidden⟩

/-! ## Embedded addresses -/

/-- The standard embeddings close the forbidden blocks, but for 6to4. -/
theorem embedding_closed_iff (policy : WebhookPolicy) (x : Ipv4Addr) (e : Ipv6Addr)
    (kind : Embedding) (h : kind.Carries x e) :
    (isForbiddenTarget (.v4 x) policy = true → isForbiddenTarget (.v6 e) policy = true) ↔
      (kind = .sixToFour → ∀ block ∈ policy.blocks, ¬ x.InBlock block) := by
  cases kind with
  | mapped =>
      obtain rfl : e = x.mapped := h
      rw [isForbiddenTarget_of_toIpv4 x.toIpv4_mapped]
      exact ⟨fun _ hkind => (nomatch hkind), fun _ hx => hx⟩
  | compatible =>
      obtain rfl : e = x.compatible := h
      rw [isForbiddenTarget_of_toIpv4 x.toIpv4_compatible]
      exact ⟨fun _ hkind => (nomatch hkind), fun _ hx => hx⟩
  | nat64 =>
      obtain rfl : e = ⟨0x0064, 0xff9b, 0, 0, 0, 0, x.high, x.low⟩ := h
      refine ⟨fun _ hkind => (nomatch hkind), fun _ _ => ?_⟩
      exact nat64_forbidden rfl rfl (Or.inl ⟨rfl, rfl, rfl, rfl⟩) policy
  | localNat64 =>
      obtain ⟨h0, h1, h2, _⟩ := h
      exact ⟨fun _ hkind => (nomatch hkind), fun _ _ => nat64_forbidden h0 h1 (Or.inr h2) policy⟩
  | sixToFour =>
      rw [sixToFour_allowed h.1, isForbiddenTarget_v4_iff]
      constructor
      · intro hclosed _ block hblock hin
        cases hclosed ⟨block, hblock, hin⟩
      · rintro hfree ⟨block, hblock, hin⟩
        exact absurd hin (hfree rfl block hblock)

/-- **SSRF screening.** An embedding of a forbidden address is forbidden if and only if it is not
6to4 or the address is in no forbidden block. What is allowed under the public-only policy is
allowed with private networks, the two differ on the private addresses, local ones are forbidden
under both, and a target is resolved only to allowed addresses. -/
theorem webhook_targets_screened (policy : WebhookPolicy) :
    (∀ x e kind, Embedding.Carries x e kind →
      ((isForbiddenTarget (.v4 x) policy = true → isForbiddenTarget (.v6 e) policy = true) ↔
        (kind = .sixToFour → ∀ block ∈ policy.blocks, ¬ x.InBlock block))) ∧
    (∀ address, isForbiddenTarget address ⟨false⟩ = false →
      isForbiddenTarget address ⟨true⟩ = false) ∧
    (∀ address, isForbiddenTarget address ⟨false⟩ ≠ isForbiddenTarget address ⟨true⟩ ↔
      address.IsPrivate) ∧
    (∀ address, address.IsLocal → isForbiddenTarget address policy = true) ∧
    ∀ net value target, resolveWebhookTarget net value policy = .ok target →
      ∃ host port answers, target.url.host = some host ∧
        target.url.portOrKnownDefault = some port ∧ net.addresses port host = .ok answers ∧
        (∀ address, address ∈ target.addresses ↔ address ∈ answers) ∧
        ∀ address ∈ answers, isForbiddenTarget address.ip policy = false := by
  refine ⟨fun x e kind h => embedding_closed_iff policy x e kind h, fun address h => ?_,
    policies_differ_iff, fun address h => ?_, fun net value target h => resolveWebhookTarget_ok h⟩
  · unfold isForbiddenTarget at h ⊢
    rw [(Bool.or_eq_false_iff.mp h).1]
    rfl
  · unfold isForbiddenTarget
    rw [isAlwaysForbiddenIp_of_isLocal h]
    rfl

/-- **6to4 hides the metadata service.** `2002:a9fe:a9fe::1` carries `169.254.169.254`. -/
theorem sixToFour_reaches_metadata : ∃ (policy : WebhookPolicy) (x : Ipv4Addr) (e : Ipv6Addr),
    Embedding.Carries x e .sixToFour ∧ isForbiddenTarget (.v4 x) policy = true ∧
      isForbiddenTarget (.v6 e) policy = false := by
  refine ⟨⟨false⟩, ⟨169, 254, 169, 254⟩, ⟨0x2002, 0xa9fe, 0xa9fe, 0, 0, 0, 0, 1⟩, ?_, ?_, ?_⟩
  · exact ⟨rfl, rfl, rfl⟩
  · decide
  · decide

end RunAnywhere
