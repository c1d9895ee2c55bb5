import Mathlib

/-!
# Which addresses a request may reach (`lib/net/target-guard.ts`)

* `IpAddress`, `Subnet`, `blockedV4`, `blockedV6`, `isPublicAddress` : the addresses of the two block lists;
* `hostnameOf`, `assertLiteralTargetAllowed`, `guardedLookup` : the two places where a target is vetted;
* `guardedLookup_ok` : a lookup that goes through has public addresses only, where private ones are not allowed.

How a text reads as an address (`isIP`) is a parameter.
-/

namespace IkelyaneMonitor.Net

inductive IpAddress where
  | v4 (bits : BitVec 32)
  | v6 (bits : BitVec 128)
  deriving DecidableEq

structure Subnet (w : Nat) where
  base : BitVec w
  bits : Nat

def Subnet.contains {w : Nat} (subnet : Subnet w) (address : BitVec w) : Bool :=
  address >>> (w - subnet.bits) == subnet.base >>> (w - subnet.bits)

/-- `a.b.c.d` -/
def v4 (a b c d : Nat) : BitVec 32 := BitVec.ofNat 32 (((a * 256 + b) * 256 + c) * 256 + d)

/-- The address of these groups of 16 bits, then zeros. -/
def v6 (groups : List Nat) : BitVec 128 :=
  BitVec.ofNat 128 (groups.foldl (fun n group => n * 65536 + group) 0 * 65536 ^ (8 - groups.length))

def blockedV4 : List (Subnet 32) := [
  ⟨v4 0 0 0 0, 8⟩,
  ⟨v4 10 0 0 0, 8⟩,
  ⟨v4 100 64 0 0, 10⟩,
  ⟨v4 127 0 0 0, 8⟩,
  ⟨v4 169 254 0 0, 16⟩,
  ⟨v4 172 16 0 0, 12⟩,
  ⟨v4 192 0 0 0, 24⟩,
  ⟨v4 192 0 2 0, 24⟩,
  ⟨v4 192 88 99 0, 24⟩,
  ⟨v4 192 168 0 0, 16⟩,
  ⟨v4 198 18 0 0, 15⟩,
  ⟨v4 198 51 100 0, 24⟩,
  ⟨v4 203 0 113 0, 24⟩,
  ⟨v4 224 0 0 0, 4⟩,
  ⟨v4 240 0 0 0, 4⟩]

def blockedV6 : List (Subnet 128) := [
  ⟨v6 [], 128⟩,
  ⟨v6 [0, 0, 0, 0, 0, 0, 0, 1], 128⟩,
  ⟨v6 [0, 0, 0, 0, 0, 0xffff], 96⟩,
  ⟨v6 [0x64, 0xff9b], 96⟩,
  ⟨v6 [0x64, 0xff9b, 1], 48⟩,
  ⟨v6 [0x100], 64⟩,
  ⟨v6 [0x2001], 23⟩,
  ⟨v6 [0x2001, 0xdb8], 32⟩,
  ⟨v6 [0x2002], 16⟩,
  ⟨v6 [0xfc00], 7⟩,
  ⟨v6 [0xfe80], 10⟩,
  ⟨v6 [0xfec0], 10⟩,
  ⟨v6 [0xff00], 8⟩]

def IpAddress.isPublic : IpAddress → Bool
  | .v4 bits => !blockedV4.any fun subnet => subnet.contains bits
  | .v6 bits => !blockedV6.any fun subnet => subnet.contains bits

example : (IpAddress.v4 (v4 169 254 169 254)).isPublic = false ∧ (IpAddress.v4 (v4 8 8 8 8)).isPublic = true := by decide

section Guard
variable (isIP : String → Option IpAddress)

def isPublicAddress (address : String) : Bool := (isIP address).any IpAddress.isPublic

/-- The host without the brackets of an IPv6 literal. -/
def hostnameOf (hostname : String) : String :=
  if hostname.toList.head? = some '[' then String.ofList (hostname.toList.drop 1).dropLast else hostname

/-- The host that is refused, if it is. -/
def assertLiteralTargetAllowed (hostname : String) (allowPrivate : Bool) : Except String Unit :=
  let host := hostnameOf hostname
  if !allowPrivate && (isIP host).isSome && !isPublicAddress isIP host then .error host else .ok ()

inductive LookupError where
  | blocked (address : String)
  /-- A code of the resolver. -/
  | code (code : String)
  deriving DecidableEq

/-- What the connection is given: every address, or the first one. -/
def guardedLookup (allowPrivate all : Bool) (answer : Except String (List String)) : Except LookupError (List String) :=
  match answer with
  | .error code => .error (.code code)
  | .ok list =>
      match if allowPrivate then none else list.find? fun address => !isPublicAddress isIP address with
      | some blocked => .error (.blocked blocked)
      | none =>
          match list with
          | [] => .error (.code "ENOTFOUND")
          | first :: rest => .ok (if all then first :: rest else [first])

variable {isIP}

theorem guardedLookup_ok {allowPrivate all : Bool} {answer : Except String (List String)} {addresses : List String}
    (h : guardedLookup isIP allowPrivate all answer = .ok addresses) :
    ∃ list, answer = .ok list ∧ addresses ⊆ list ∧ (allowPrivate = false → ∀ a ∈ list, isPublicAddress isIP a = true) := by
  unfold guardedLookup at h
  split at h
  · cases h
  · rename_i list
    refine ⟨list, rfl, ?_⟩
    split at h
    · cases h
    · rename_i hfind
      have hpublic : allowPrivate = false → ∀ a ∈ list, isPublicAddress isIP a = true := by
        intro hallow a ha
        rw [hallow] at hfind
        simpa using List.find?_eq_none.mp hfind a ha
      refine ⟨?_, hpublic⟩
      split at h
      · cases h
      · obtain rfl := Except.ok.inj h
        split
        · exact List.Subset.refl _
        · simp

theorem assertLiteralTargetAllowed_ok {hostname : String} (h : assertLiteralTargetAllowed isIP hostname false = .ok ())
    (hliteral : (isIP (hostnameOf hostname)).isSome = true) : isPublicAddress isIP (hostnameOf hostname) = true := by
  unfold assertLiteralTargetAllowed at h
  by_contra hprivate
  simp [hliteral, hprivate] at h

end Guard

end IkelyaneMonitor.Net
