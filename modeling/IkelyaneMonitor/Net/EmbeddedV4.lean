import IkelyaneMonitor.Net.TargetGuard

/-!
# IPv4 addresses inside IPv6 addresses (`lib/net/target-guard.ts`)

* `Embedding` : the standard ways to put an IPv4 address in an IPv6 one; `Embedding.subnet` their prefixes,
  `Embedding.embedded` what an address of a prefix may stand for;
* `refused_of_listed` : the forms that are refused whatever they stand for;
* `public_of_unlisted` : the forms that are in no subnet of the list, but for two addresses;
* `embedded_refused_iff` : the form of a refused IPv4 address is refused, exactly where it is listed.
-/

namespace IkelyaneMonitor.Net

/-! ## Prefixes -/

/-- Addresses that agree on a prefix are in the same subnets of that length or less. -/
theorem Subnet.contains_congr {w : Nat} (subnet : Subnet w) {a b : BitVec w} {k : Nat} (h : a >>> k = b >>> k)
    (hk : k ≤ w - subnet.bits) : subnet.contains a = subnet.contains b := by
  obtain ⟨d, hd⟩ := Nat.exists_eq_add_of_le hk
  unfold Subnet.contains
  rw [hd, BitVec.shiftRight_add a, h, ← BitVec.shiftRight_add]

theorem Subnet.contains_of_full {base address : BitVec 128} :
    (Subnet.mk base 128).contains address = true ↔ address = base := by
  simp [Subnet.contains]

/-! ## The forms -/

inductive Embedding where
  | mapped | compatible | translated | nat64 | nat64Local | sixToFour | teredo
  deriving DecidableEq, Repr

def Embedding.subnet : Embedding → Subnet 128
  | .mapped => ⟨v6 [0, 0, 0, 0, 0, 0xffff], 96⟩
  | .compatible => ⟨v6 [], 96⟩
  | .translated => ⟨v6 [0, 0, 0, 0, 0xffff], 96⟩
  | .nat64 => ⟨v6 [0x64, 0xff9b], 96⟩
  | .nat64Local => ⟨v6 [0x64, 0xff9b, 1], 48⟩
  | .sixToFour => ⟨v6 [0x2002], 16⟩
  | .teredo => ⟨v6 [0x2001], 32⟩

/-- What an address of the form may stand for. In the prefix for local use the operator chooses how many bits are its own, 48,
56, 64 or 96; Teredo has the server, and the client with its bits flipped. -/
def Embedding.embedded (form : Embedding) (address : BitVec 128) : List (BitVec 32) :=
  match form with
  | .mapped | .compatible | .translated | .nat64 => [address.extractLsb' 0 32]
  | .nat64Local => [
      address.extractLsb' 64 16 ++ address.extractLsb' 40 16,
      address.extractLsb' 64 8 ++ address.extractLsb' 32 24,
      address.extractLsb' 24 32,
      address.extractLsb' 0 32]
  | .sixToFour => [address.extractLsb' 80 32]
  | .teredo => [address.extractLsb' 64 32, ~~~(address.extractLsb' 0 32)]

/-- The forms that no subnet of the list is there for. -/
def Embedding.unlisted (form : Embedding) : Bool := form == .compatible || form == .translated

/-- `::` and `::1`. -/
def unspecifiedOrLoopback (address : BitVec 128) : Bool := address == 0 || address == 1

theorem isPublic_v6_eq_false {address : BitVec 128} :
    (IpAddress.v6 address).isPublic = false ↔ ∃ subnet ∈ blockedV6, subnet.contains address = true := by
  simp [IpAddress.isPublic]

theorem refused_of_listed {form : Embedding} {address : BitVec 128} (hlisted : form.unlisted = false)
    (hform : form.subnet.contains address = true) : (IpAddress.v6 address).isPublic = false := by
  rw [isPublic_v6_eq_false]
  by_cases hteredo : form = .teredo
  · -- the one form that is in a larger subnet of the list
    refine ⟨⟨v6 [0x2001], 23⟩, by simp [blockedV6], ?_⟩
    rw [hteredo] at hform
    have hagree : address >>> 96 = (v6 [0x2001]) >>> 96 := eq_of_beq hform
    rw [Subnet.contains_congr _ hagree (by decide)]
    decide
  · refine ⟨form.subnet, ?_, hform⟩
    revert hlisted hteredo
    cases form <;> simp [Embedding.unlisted, Embedding.subnet, blockedV6]

theorem refused_of_unspecifiedOrLoopback {address : BitVec 128} (h : unspecifiedOrLoopback address = true) :
    (IpAddress.v6 address).isPublic = false := by
  simp only [unspecifiedOrLoopback, Bool.or_eq_true, beq_iff_eq] at h
  apply h.elim
  · intro hzero
    rw [hzero]
    decide
  · intro hone
    rw [hone]
    decide

/-- The subnets behind the first two see no more of an address than its form. -/
theorem apart_of_unlisted {form : Embedding} (hunlisted : form.unlisted = true) :
    ∀ subnet ∈ blockedV6.drop 2, 32 ≤ 128 - subnet.bits ∧ subnet.contains form.subnet.base = false := by
  revert hunlisted
  cases form <;> decide

theorem public_of_unlisted {form : Embedding} {address : BitVec 128} (hunlisted : form.unlisted = true)
    (hform : form.subnet.contains address = true) (hother : unspecifiedOrLoopback address = false) :
    (IpAddress.v6 address).isPublic = true := by
  have hagree : address >>> 32 = form.subnet.base >>> 32 := by
    revert hunlisted hform
    cases form <;> simp [Embedding.unlisted, Embedding.subnet, Subnet.contains]
  simp only [unspecifiedOrLoopback, Bool.or_eq_false_iff, beq_eq_false_iff_ne] at hother
  rw [← Bool.not_eq_false, isPublic_v6_eq_false]
  rintro ⟨subnet, hmem, hin⟩
  have hsplit : blockedV6 = ⟨v6 [], 128⟩ :: ⟨v6 [0, 0, 0, 0, 0, 0, 0, 1], 128⟩ :: blockedV6.drop 2 := rfl
  rw [hsplit, List.mem_cons, List.mem_cons] at hmem
  obtain rfl | rfl | hrest := hmem
  · exact hother.1 (Subnet.contains_of_full.mp hin)
  · exact hother.2 (Subnet.contains_of_full.mp hin)
  · obtain ⟨hbits, hbase⟩ := apart_of_unlisted hunlisted subnet hrest
    rw [Subnet.contains_congr subnet hagree hbits, hbase] at hin
    exact Bool.false_ne_true hin

/-! ## The guard -/

section Guard
variable (isIP : String → Option IpAddress)

/-- The forms of refused IPv4 addresses are refused exactly where they are listed. -/
theorem embedded_refused_iff {form : Embedding} {text : String} {address : BitVec 128}
    (htext : isIP text = some (.v6 address)) (hform : form.subnet.contains address = true) :
    (∀ bits ∈ form.embedded address, (IpAddress.v4 bits).isPublic = false → isPublicAddress isIP text = false) ↔
      form.unlisted = false ∨ unspecifiedOrLoopback address = true ∨
        ∀ bits ∈ form.embedded address, (IpAddress.v4 bits).isPublic = true := by
  have hrefused : isPublicAddress isIP text = false ↔ form.unlisted = false ∨ unspecifiedOrLoopback address = true := by
    rw [isPublicAddress, htext, Option.any_some]
    constructor
    · intro h
      by_contra hnot
      rw [not_or, Bool.not_eq_false, Bool.not_eq_true] at hnot
      rw [public_of_unlisted hnot.1 hform hnot.2] at h
      cases h
    · intro h
      exact h.elim (fun hlisted => refused_of_listed hlisted hform) refused_of_unspecifiedOrLoopback
  rw [hrefused, ← or_assoc]
  constructor
  · intro h
    by_contra hnot
    obtain ⟨hnone, hsome⟩ := not_or.mp hnot
    apply hsome
    intro bits hbits
    by_contra hprivate
    exact hnone (h bits hbits (Bool.eq_false_of_not_eq_true hprivate))
  · intro h bits hbits hprivate
    apply h.resolve_right
    intro hpublic
    rw [hpublic bits hbits] at hprivate
    cases hprivate

/-- Some texts as `isIP` reads them. -/
def literals (text : String) : Option IpAddress :=
  if text = "127.0.0.1" then some (.v4 (v4 127 0 0 1))
  else if text = "::ffff:127.0.0.1" then some (.v6 (v6 [0, 0, 0, 0, 0, 0xffff, 0x7f00, 1]))
  else if text = "::127.0.0.1" then some (.v6 (v6 [0, 0, 0, 0, 0, 0, 0x7f00, 1]))
  else none

theorem mapped_loopback_refused :
    (∀ bits ∈ Embedding.mapped.embedded (v6 [0, 0, 0, 0, 0, 0xffff, 0x7f00, 1]),
        (IpAddress.v4 bits).isPublic = false → isPublicAddress literals "::ffff:127.0.0.1" = false) ↔
      Embedding.mapped.unlisted = false ∨ unspecifiedOrLoopback (v6 [0, 0, 0, 0, 0, 0xffff, 0x7f00, 1]) = true ∨
        ∀ bits ∈ Embedding.mapped.embedded (v6 [0, 0, 0, 0, 0, 0xffff, 0x7f00, 1]), (IpAddress.v4 bits).isPublic = true :=
  embedded_refused_iff literals rfl (by decide)

/-- The loopback address of IPv4 in the compatible form is refused as it is, and goes through in the form. -/
theorem compatible_loopback_public :
    literals "127.0.0.1" = some (.v4 (v4 127 0 0 1)) ∧
      literals "::127.0.0.1" = some (.v6 (v6 [0, 0, 0, 0, 0, 0, 0x7f00, 1])) ∧
      Embedding.compatible.subnet.contains (v6 [0, 0, 0, 0, 0, 0, 0x7f00, 1]) = true ∧
      v4 127 0 0 1 ∈ Embedding.compatible.embedded (v6 [0, 0, 0, 0, 0, 0, 0x7f00, 1]) ∧
      isPublicAddress literals "127.0.0.1" = false ∧ isPublicAddress literals "::127.0.0.1" = true := by
  decide

end Guard

end IkelyaneMonitor.Net
