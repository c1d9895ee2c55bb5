import Mathlib.Data.List.Chain
import IkelyaneMonitor.Interleave.RelyGuarantee
import IkelyaneMonitor.Servers.Hosts

/-!
# The grace of a rotation

A host has room for one previous secret. A rotation moves the current secret there, with a date 24 hours after the time
it read at its start.

* `Accepts`, `Refuses` : what `authenticateAgent` answers to a request signed with a secret;
* `Stmt.keepsGrace` : a rotation that commits at the time it read, replaces the secret it read, and finds no previous
  secret in its grace;
* `Slots`, `Grace` : what then stands in the columns of a host, from the secrets issued to it; `grace_of_sem` : one
  statement keeps it;
* `rotating` : what the calls promise each other; `rotation_grace` : in the runs of such rotations every secret is
  accepted for as long as promised, which rotations in quick succession do not see to (`grace_cut_short`).
-/

namespace IkelyaneMonitor.Servers
open Interleave Auth Crypto Telemetry Wire

section Promise
variable (hmac : (key message : List UInt8) → Digest) (gcm : Gcm)

/-- The answer to a request of the host, signed at the time `t`. -/
def answer (s : Store) (host : AgentHost) (secret body : String) (t maxSkewSeconds : Nat) :
    Except HttpError AuthenticatedAgent :=
  authenticateAgent hmac (decryptSecret gcm) s.hosts.rows
    ⟨some host.keyId, some (sign hmac secret (utf8 body.toList) t), body, s.clock, maxSkewSeconds⟩

/-- Requests signed with the secret pass the signature; only a disabled host is then turned away. -/
def Accepts (s : Store) (hostId : Nat) (secret : String) : Prop :=
  ∃ host secrets, s.hosts.get? hostId = some host ∧
    ∀ (body : String) (t maxSkewSeconds : Nat), Digits9To12 t → |s.clock - t * 1000| ≤ maxSkewSeconds * 1000 →
      answer hmac gcm s host secret body t maxSkewSeconds =
        if host.enabled = true then .ok ⟨host.id, host.orgId, host.hostname, host.keyId, host.firstSeenAt, secrets⟩
        else .error hostDisabled

/-- The secret is none of those in use, and requests signed with it fail unless another secret happens to sign them
alike. -/
def Refuses (s : Store) (hostId : Nat) (secret : String) : Prop :=
  ∃ host secrets, s.hosts.get? hostId = some host ∧ acceptedSecrets (decryptSecret gcm) host s.clock = some secrets ∧
    secret ∉ secrets ∧
    ∀ (body : String) (t maxSkewSeconds : Nat), Digits9To12 t → |s.clock - t * 1000| ≤ maxSkewSeconds * 1000 →
      (∀ other ∈ secrets, digestOf hmac other t (utf8 body.toList) ≠ digestOf hmac secret t (utf8 body.toList)) →
      answer hmac gcm s host secret body t maxSkewSeconds = .error invalidSignature

end Promise

/-- The statement, when it rotates a secret, commits at the time the rotation read, replaces the secret it read, and finds
the grace of the rotation before over; and the secret it drew was not issued to the host before. -/
def Stmt.keepsGrace (w : Stmt) (s : Store) : Bool :=
  match w with
  | .rotate id previousEnc expiresAt _ secret =>
    expiresAt == s.clock + graceMs &&
    ((s.hosts.get? id).all fun host => host.hmacSecretEnc == previousEnc && (previousStillValid host s.clock).isNone) &&
    ((s.issuedTo id).all fun issue => issue.secret != secret)
  | _ => true

def unhurried (c : System) (i : Nat) : Prop := ∀ w, (c.calls i).next? = some w → w.keepsGrace c.store = true

section Invariant
variable (gcm : Gcm)

/-- The columns of a host to which these secrets were issued, newest first: the current one is the newest, the previous
one the second, and the grace of every one before is over. -/
def Slots (clock : Int) (host : AgentHost) : List Issued → Prop
  | [] => False
  | [current] => decryptSecret gcm host.hmacSecretEnc (hostSecretAad host.keyId) = some current.secret ∧
      host.previousHmacSecretEnc = none
  | current :: previous :: older =>
    decryptSecret gcm host.hmacSecretEnc (hostSecretAad host.keyId) = some current.secret ∧
      (∃ enc, enc ≠ "" ∧ host.previousHmacSecretEnc = some enc ∧
        decryptSecret gcm enc (hostSecretAad host.keyId) = some previous.secret) ∧
      host.previousSecretExpiresAt = some (current.committedAt + graceMs) ∧
      (previous :: older).IsChain fun newer _ => newer.committedAt + graceMs ≤ clock

structure Grace (s : Store) : Prop where
  keys : ∀ h ∈ s.hosts, ∀ h' ∈ s.hosts, h.keyId = h'.keyId → h = h'
  key_ne : ∀ h ∈ s.hosts, h.keyId ≠ ""
  current_ne : ∀ h ∈ s.hosts, h.hmacSecretEnc ≠ ""
  exists_host : ∀ issue ∈ s.issued, ∃ h ∈ s.hosts, h.id = issue.hostId
  slots : ∀ h ∈ s.hosts, Slots gcm s.clock h (s.issuedTo h.id)
  fresh : ∀ id, ((s.issuedTo id).map Issued.secret).Nodup

/-! ## The columns of one host -/

variable {gcm} {clock clock' : Int} {host : AgentHost} {issues : List Issued}

theorem Slots.mono (hle : clock ≤ clock') (h : Slots gcm clock host issues) : Slots gcm clock' host issues := by
  match issues, h with
  | [_], h => exact h
  | _ :: _ :: _, ⟨hcurrent, hprevious, hexpires, hchain⟩ =>
    exact ⟨hcurrent, hprevious, hexpires, hchain.imp fun _ _ hover => hover.trans hle⟩

theorem Slots.setEnabled (enabled : Bool) (h : Slots gcm clock host issues) :
    Slots gcm clock { host with enabled := enabled } issues := by
  match issues, h with
  | [_], h => exact h
  | _ :: _ :: _, h => exact h

/-- A rotation that finds the grace of the one before over. -/
theorem Slots.rotate (h : Slots gcm clock host issues) (hne : host.hmacSecretEnc ≠ "")
    (hover : previousStillValid host clock = none) (iv : Token) (secret : String) :
    Slots gcm clock
      (rotated host.hmacSecretEnc (clock + graceMs) (encryptSecret gcm iv secret (hostSecretAad host.keyId)) host)
      (⟨host.id, secret, clock⟩ :: issues) := by
  have hnew := decryptSecret_encryptSecret gcm iv secret (hostSecretAad host.keyId)
  match issues, h with
  | [_], ⟨hcurrent, _⟩ => exact ⟨hnew, ⟨_, hne, rfl, hcurrent⟩, rfl, .singleton _⟩
  | current :: _ :: _, ⟨hcurrent, ⟨enc, henc, hprevious, _⟩, hexpires, hchain⟩ =>
    refine ⟨hnew, ⟨_, hne, rfl, hcurrent⟩, rfl, .cons_cons ?_ hchain⟩
    rw [previousStillValid_eq henc hprevious hexpires] at hover
    by_contra hlt
    rw [if_pos (not_le.mp hlt)] at hover
    cases hover

/-- A secret differs from the ones that came after it. -/
theorem secret_ne {before after : List Issued} {newer older issue : Issued}
    (hfresh : ((before ++ newer :: older :: after).map Issued.secret).Nodup) (hissue : issue ∈ before ++ [newer]) :
    older.secret ≠ issue.secret := by
  rw [List.append_cons, List.map_append, List.nodup_append] at hfresh
  exact fun hsame => hfresh.2.2 _ (List.mem_map_of_mem hissue) older.secret List.mem_cons_self hsame.symm

/-- The secrets in use: the newest, and another one exactly until the grace of the one that replaced it is over. -/
theorem Slots.accepted (h : Slots gcm clock host issues) (hfresh : (issues.map Issued.secret).Nodup) :
    ∃ secrets, acceptedSecrets (decryptSecret gcm) host clock = some secrets ∧
      (∀ newest rest, issues = newest :: rest → newest.secret ∈ secrets) ∧
      ∀ before newer older after, issues = before ++ newer :: older :: after →
        (older.secret ∈ secrets ↔ clock < newer.committedAt + graceMs) := by
  match issues, h with
  | [current], ⟨hcurrent, hprevious⟩ =>
    refine ⟨[current.secret], ?_, ?_, ?_⟩
    · rw [acceptedSecrets, hcurrent, previousStillValid, hprevious]
    · rintro _ _ ⟨⟩
      exact List.mem_singleton.mpr rfl
    · intro before newer older after heq
      have hlength := congrArg List.length heq
      simp only [List.length_append, List.length_cons, List.length_nil] at hlength
      omega
  | current :: previous :: rest, ⟨hcurrent, ⟨enc, henc, hprevious, hdecrypt⟩, hexpires, hchain⟩ =>
    refine ⟨if clock < current.committedAt + graceMs then [current.secret, previous.secret] else [current.secret],
      ?_, ?_, ?_⟩
    · rw [acceptedSecrets, hcurrent, previousStillValid_eq henc hprevious hexpires]
      by_cases hlt : clock < current.committedAt + graceMs
      · simp only [if_pos hlt, hdecrypt, Option.map_some]
      · simp only [if_neg hlt]
    · rintro _ _ ⟨⟩
      split <;> exact List.mem_cons_self
    · intro before newer older after heq
      rw [heq] at hfresh
      rcases before with _ | ⟨first, before⟩
      · obtain ⟨rfl, rfl, rfl⟩ : current = newer ∧ previous = older ∧ rest = after := by simpa using heq
        have hne := secret_ne hfresh (List.mem_singleton.mpr rfl)
        split <;> simp [*]
      · -- the secrets in use are among the two newest, and this one is older
        obtain ⟨rfl, hrest⟩ : current = first ∧ previous :: rest = before ++ newer :: older :: after := by simpa using heq
        have hover : newer.committedAt + graceMs ≤ clock :=
          List.isChain_iff_forall_rel_of_append_cons_cons.mp hchain hrest
        have hcurrentNe : older.secret ≠ current.secret := secret_ne hfresh (by simp)
        have hpreviousNe : older.secret ≠ previous.secret := by
          apply secret_ne hfresh
          rcases before with _ | ⟨second, before⟩
          · simp [(List.cons.inj hrest).1]
          · simp [(List.cons.inj hrest).1]
        have hnot : ¬ clock < newer.committedAt + graceMs := not_lt.mpr hover
        split <;> simp [*]

/-! ## The table -/

/-- The ciphertext the statement writes holds the secret, bound to the key of the host. -/
def Stmt.Enciphers (gcm : Gcm) (w : Stmt) (s : Store) : Prop :=
  match w with
  | .create _ _ keyId secretEnc secret => keyId ≠ "" ∧ ∃ iv, secretEnc = encryptSecret gcm iv secret (hostSecretAad keyId)
  | .rotate id _ _ secretEnc secret =>
    ∀ h ∈ s.hosts, h.id = id → ∃ iv, secretEnc = encryptSecret gcm iv secret (hostSecretAad h.keyId)
  | _ => True

theorem mem_issuedTo {s : Store} {id : Nat} {issue : Issued} :
    issue ∈ s.issuedTo id ↔ issue ∈ s.issued ∧ issue.hostId = id := by
  rw [Store.issuedTo, List.mem_filter, beq_iff_eq]

theorem issuedTo_cons (s : Store) (hosts : Table AgentHost) (issue : Issued) (id : Nat) :
    Store.issuedTo { s with hosts := hosts, issued := issue :: s.issued } id =
      if issue.hostId = id then issue :: s.issuedTo id else s.issuedTo id := by
  by_cases h : issue.hostId = id
  · simp [Store.issuedTo, h]
  · simp [Store.issuedTo, h]

theorem Grace.tick {s : Store} (h : Grace gcm s) (ms : Nat) : Grace gcm { s with clock := s.clock + ms } where
  keys := h.keys
  key_ne := h.key_ne
  current_ne := h.current_ne
  exists_host := h.exists_host
  slots := fun host hhost => (h.slots host hhost).mono (Int.le_add_of_nonneg_right (Int.natCast_nonneg ms))
  fresh := h.fresh

theorem Grace.issuedTo_next {s : Store} (h : Grace gcm s) : s.issuedTo s.hosts.next = [] := by
  rw [List.eq_nil_iff_forall_not_mem]
  intro issue hissue
  obtain ⟨hissued, hid⟩ := mem_issuedTo.mp hissue
  obtain ⟨host, hhost, hid'⟩ := h.exists_host issue hissued
  have hlt : host.id < s.hosts.next := s.hosts.lt_next host hhost
  omega

theorem inserted {s : Store} {mk : Nat → AgentHost} {hmk : ∀ n, key (mk n) = n} {issued : List Issued} {host : AgentHost}
    (h : host ∈ ({ s with hosts := s.hosts.insert mk hmk, issued := issued } : Store).hosts) :
    host ∈ s.hosts ∨ host = mk s.hosts.next := by
  simpa only [Table.mem_insert] using h

theorem Grace.create {s : Store} (h : Grace gcm s) {orgId : Nat} {hostname keyId secret : String} (iv : Token)
    (hkey : keyId ≠ "") (htaken : s.taken orgId hostname keyId = false) :
    Grace gcm { s with
      hosts := s.hosts.insert (newHost orgId hostname keyId (encryptSecret gcm iv secret (hostSecretAad keyId)))
        fun _ => rfl
      issued := ⟨s.hosts.next, secret, s.clock⟩ :: s.issued } where
  keys := by
    have hother : ∀ host ∈ s.hosts, host.keyId ≠ keyId := by
      intro host hhost hsame
      have hall := List.any_eq_false.mp htaken host hhost
      simp [hsame] at hall
    intro host hhost host' hhost' hsame
    rcases inserted hhost with hold | rfl
    · rcases inserted hhost' with hold' | rfl
      · exact h.keys host hold host' hold' hsame
      · exact absurd hsame (hother host hold)
    · rcases inserted hhost' with hold' | rfl
      · exact absurd hsame.symm (hother host' hold')
      · rfl
  key_ne := by
    intro host hhost
    rcases inserted hhost with hold | rfl
    · exact h.key_ne host hold
    · exact hkey
  current_ne := by
    intro host hhost
    rcases inserted hhost with hold | rfl
    · exact h.current_ne host hold
    · exact encryptSecret_ne_empty gcm iv secret _
  exists_host := by
    intro issue hissue
    rcases List.mem_cons.mp hissue with rfl | hold
    · exact ⟨_, List.mem_append_right s.hosts.rows (List.mem_singleton.mpr rfl), rfl⟩
    · obtain ⟨host, hhost, hid⟩ := h.exists_host issue hold
      exact ⟨host, List.mem_append_left _ hhost, hid⟩
  slots := by
    intro host hhost
    change Slots gcm s.clock host _
    rw [issuedTo_cons]
    rcases inserted hhost with hold | rfl
    · have hne : s.hosts.next ≠ host.id := Nat.ne_of_gt (s.hosts.lt_next host hold)
      rw [if_neg hne]
      exact h.slots host hold
    · change Slots gcm s.clock _ (if s.hosts.next = s.hosts.next then _ :: s.issuedTo s.hosts.next else _)
      rw [if_pos rfl, h.issuedTo_next]
      exact ⟨decryptSecret_encryptSecret gcm iv secret _, rfl⟩
  fresh := by
    intro id
    rw [issuedTo_cons]
    by_cases hid : s.hosts.next = id
    · subst hid
      rw [if_pos rfl, h.issuedTo_next]
      exact List.nodup_singleton _
    · rw [if_neg hid]
      exact h.fresh id

theorem updated {s : Store} {p : AgentHost → Bool} {f : AgentHost → AgentHost} {hf : ∀ host, key (f host) = key host}
    {issued : List Issued} {host : AgentHost}
    (h : host ∈ ({ s with hosts := s.hosts.updateMany p f hf, issued := issued } : Store).hosts) :
    ∃ old ∈ s.hosts, host = if p old then f old else old := by
  simpa only [Table.mem_updateMany] using h

/-- A write that keeps the ids and the keys of the hosts and leaves no empty ciphertext. -/
theorem Grace.updateMany {s : Store} (h : Grace gcm s) {p : AgentHost → Bool} {f : AgentHost → AgentHost}
    (hf : ∀ host, key (f host) = key host) (hkey : ∀ host, (f host).keyId = host.keyId)
    (hne : ∀ host, host.hmacSecretEnc ≠ "" → (f host).hmacSecretEnc ≠ "") {issued : List Issued}
    (hissued : ∀ issue ∈ issued, issue ∈ s.issued ∨ ∃ host ∈ s.hosts, host.id = issue.hostId)
    (hslots : ∀ host ∈ s.hosts, Slots gcm s.clock (if p host then f host else host)
      (Store.issuedTo { s with issued := issued } host.id))
    (hfresh : ∀ id, ((Store.issuedTo { s with issued := issued } id).map Issued.secret).Nodup) :
    Grace gcm { s with hosts := s.hosts.updateMany p f hf, issued := issued } := by
  have hid : ∀ host : AgentHost, (if p host then f host else host).id = host.id := by
    intro host
    split
    · exact hf host
    · rfl
  have hkeyId : ∀ host : AgentHost, (if p host then f host else host).keyId = host.keyId := by
    intro host
    split
    · exact hkey host
    · rfl
  have hmem : ∀ host ∈ s.hosts, (if p host then f host else host) ∈ s.hosts.updateMany p f hf :=
    fun host hhost => Table.mem_updateMany.mpr ⟨host, hhost, rfl⟩
  refine ⟨?_, ?_, ?_, ?_, ?_, hfresh⟩
  · intro host hhost host' hhost' hsame
    obtain ⟨old, hold, rfl⟩ := updated hhost
    obtain ⟨old', hold', rfl⟩ := updated hhost'
    rw [hkeyId, hkeyId] at hsame
    rw [h.keys old hold old' hold' hsame]
  · intro host hhost
    obtain ⟨old, hold, rfl⟩ := updated hhost
    rw [hkeyId]
    exact h.key_ne old hold
  · intro host hhost
    obtain ⟨old, hold, rfl⟩ := updated hhost
    split
    · exact hne old (h.current_ne old hold)
    · exact h.current_ne old hold
  · intro issue hissue
    have hex : ∃ host ∈ s.hosts, host.id = issue.hostId := (hissued issue hissue).elim (h.exists_host issue) fun hex => hex
    obtain ⟨host, hhost, heq⟩ := hex
    exact ⟨_, hmem host hhost, (hid host).trans heq⟩
  · intro host hhost
    obtain ⟨old, hold, rfl⟩ := updated hhost
    rw [hid]
    exact hslots old hold

theorem Grace.setEnabled {s : Store} (h : Grace gcm s) (p : AgentHost → Bool) (enabled : Bool) :
    Grace gcm { s with hosts := s.hosts.updateMany p (fun h => { h with enabled := enabled }) fun _ => rfl } := by
  apply h.updateMany
  · exact fun _ => rfl
  · exact fun _ hne => hne
  · exact fun _ hissue => .inl hissue
  · intro host hhost
    split
    · exact (h.slots host hhost).setEnabled enabled
    · exact h.slots host hhost
  · exact h.fresh

theorem Grace.rotate {s : Store} (h : Grace gcm s) {id : Nat} {previousEnc secretEnc secret : String}
    (hex : (s.hosts.get? id).isSome = true)
    (henc : ∀ h ∈ s.hosts, h.id = id → ∃ iv, secretEnc = encryptSecret gcm iv secret (hostSecretAad h.keyId))
    (hslot : ∀ host, s.hosts.get? id = some host →
      host.hmacSecretEnc = previousEnc ∧ previousStillValid host s.clock = none)
    (hfresh : ∀ issue ∈ s.issuedTo id, issue.secret ≠ secret) :
    Grace gcm { s with
      hosts := s.hosts.updateMany (fun h => h.id == id) (rotated previousEnc (s.clock + graceMs) secretEnc) fun _ => rfl
      issued := ⟨id, secret, s.clock⟩ :: s.issued } := by
  obtain ⟨target, htarget⟩ := Option.isSome_iff_exists.mp hex
  obtain ⟨hmem, hid⟩ := Table.get?_eq_some.mp htarget
  change target.id = id at hid
  obtain ⟨iv, rfl⟩ := henc target hmem hid
  obtain ⟨rfl, hover⟩ := hslot target htarget
  apply h.updateMany
  · exact fun _ => rfl
  · exact fun _ _ => encryptSecret_ne_empty gcm iv secret _
  · intro issue hissue
    rcases List.mem_cons.mp hissue with rfl | hold
    · exact .inr ⟨target, hmem, hid⟩
    · exact .inl hold
  · intro host hhost
    rw [issuedTo_cons s s.hosts]
    by_cases hsame : host.id = id
    · obtain rfl : target = host := Table.eq_of_key hmem hhost (hid.trans hsame.symm)
      rw [if_pos (beq_iff_eq.mpr hsame), if_pos hsame.symm, ← hsame]
      exact (h.slots target hmem).rotate (h.current_ne target hmem) hover iv secret
    · rw [if_neg fun heq => hsame (beq_iff_eq.mp heq), if_neg fun heq : id = host.id => hsame heq.symm]
      exact h.slots host hhost
  · intro other
    rw [issuedTo_cons s s.hosts]
    by_cases hsame : id = other
    · subst hsame
      rw [if_pos rfl, List.map_cons, List.nodup_cons]
      refine ⟨fun hin => ?_, h.fresh id⟩
      obtain ⟨issue, hissue, heq⟩ := List.mem_map.mp hin
      exact hfresh issue hissue heq
    · rw [if_neg hsame]
      exact h.fresh other

/-- One statement. -/
theorem grace_of_sem {i : Nat} {w : Stmt} {s s' : Store} (h : Grace gcm s) (hw : w.Enciphers gcm s)
    (hkeep : w.keepsGrace s = true) (hs : sem i w s = some s') : Grace gcm s' := by
  cases w with
  | newDate | findHost | findHostname =>
      cases hs
      exact h
  | tick ms =>
      cases hs
      exact h.tick ms
  | create orgId hostname keyId secretEnc secret =>
      obtain ⟨hkey, iv, rfl⟩ := hw
      simp only [sem] at hs
      split at hs
      · cases hs
        exact h
      · cases hs
        exact h.create iv hkey (by simpa using ‹¬ s.taken orgId hostname keyId = true›)
  | rotate id previousEnc expiresAt secretEnc secret =>
      simp only [Stmt.keepsGrace, Bool.and_eq_true, beq_iff_eq] at hkeep
      obtain ⟨⟨rfl, hslot⟩, hfresh⟩ := hkeep
      simp only [sem] at hs
      split at hs
      · cases hs
        refine h.rotate ‹_› hw (fun host hhost => ?_) fun issue hissue => ?_
        · rw [hhost, Option.all_some, Bool.and_eq_true, beq_iff_eq, Option.isNone_iff_eq_none] at hslot
          exact hslot
        · simpa using List.all_eq_true.mp hfresh issue hissue
      · cases hs
        exact h
  | setEnabled id orgId enabled =>
      cases hs
      exact h.setEnabled _ enabled

/-! ## The calls -/

def SameKey (h h' : AgentHost) : Prop := h.keyId = h'.keyId

theorem SameKey.refl (h : AgentHost) : SameKey h h := rfl

/-- The keys of the hosts stay, and so do the secrets issued. -/
def Kept (s s' : Store) : Prop := s.hosts.Evolves SameKey (fun _ => True) s'.hosts ∧ s.issued <:+ s'.issued

theorem Kept.refl (s : Store) : Kept s s := ⟨.refl SameKey.refl _ _, List.suffix_rfl⟩

theorem kept_of_sem {i : Nat} {w : Stmt} {s s' : Store} (hs : sem i w s = some s') : Kept s s' := by
  unfold sem at hs
  split at hs
  · cases hs
    exact .refl _
  · split at hs
    · cases hs
      exact .refl _
    · cases hs
      exact ⟨.insert SameKey.refl _ (fun _ => rfl) trivial, List.suffix_cons _ _⟩
  · split at hs
    · cases hs
      refine ⟨?_, List.suffix_cons _ _⟩
      apply Table.Evolves.updateMany SameKey.refl
      · exact fun _ => rfl
      · exact fun _ _ _ => rfl
    · cases hs
      exact .refl _
  · cases hs
    refine ⟨?_, List.suffix_rfl⟩
    apply Table.Evolves.updateMany SameKey.refl
    · exact fun _ => rfl
    · exact fun _ _ _ => rfl
  · cases hs
    exact .refl _

/-- The credentials a call returned. -/
def Outcome.credentials? : Outcome → Option HostCredentials
  | .credentials (.ok cred) => some cred
  | _ => none

/-- The secret was issued to the host. -/
def Handed (cred : HostCredentials) (s : Store) : Prop := ∃ issue ∈ s.issuedTo cred.hostId, issue.secret = cred.secret

/-- Key ids stay, secrets issued stay issued, and credentials that were returned were issued. -/
def rotating (gcm : Gcm) : Spec Nat Stmt Store Outcome where
  inv := Grace gcm
  rely _ _ := Kept
  guar _ s _ s' _ := Kept s s'
  post _ a s := ∀ cred, a.credentials? = some cred → Handed cred s

/-- Statements of the runs whose rotations are unhurried. -/
def semKept : Nat → Stmt → Store → Option Store := restrict sem fun _ w s => w.keepsGrace s

variable {i : Nat}

theorem stable_handed (cred : HostCredentials) (w : Option Stmt) : (rotating gcm).Stable i w (Handed cred) := by
  rintro s s' - - ⟨-, hissued⟩ ⟨issue, hissue, hsecret⟩
  obtain ⟨hmem, hid⟩ := mem_issuedTo.mp hissue
  exact ⟨issue, mem_issuedTo.mpr ⟨hissued.subset hmem, hid⟩, hsecret⟩

theorem sat_ret {a : Outcome} (ha : a.credentials? = none) {P : Store → Prop} :
    (rotating gcm).Sat semKept i (.ret a) P := by
  intro s _ _ cred hcred
  rw [ha] at hcred
  cases hcred

theorem sat_handed (cred : HostCredentials) : (rotating gcm).Sat semKept i (.ret (.credentials (.ok cred)))
    (Handed cred) := by
  rintro s - hs cred' ⟨⟩
  exact hs

/-- A statement: what it writes is enciphered for its host, and the rest of the call goes on from what it leaves. -/
theorem sat_stmt {w : Stmt} {k : Store → Call} {P : Store → Prop} (hw : ∀ s, P s → w.Enciphers gcm s)
    (hk : ∀ s s', P s → sem i w s = some s' →
      ∃ P', (rotating gcm).Stable i (k s).next? P' ∧ P' s' ∧ (rotating gcm).Sat semKept i (k s) P') :
    (rotating gcm).Sat semKept i (.stmt w k) P := by
  intro s s' hinv hP hs
  obtain ⟨hkeep, hsem⟩ := restrict_eq_some.mp hs
  exact ⟨grace_of_sem hinv (hw s hP) hkeep hsem, kept_of_sem hsem, hk s s' hP hsem⟩

/-- A statement after which the call needs to know nothing. -/
theorem sat_stmt' {w : Stmt} {k : Store → Call} {P : Store → Prop} (hw : ∀ s, P s → w.Enciphers gcm s)
    (hk : ∀ s, (rotating gcm).Sat semKept i (k s) fun _ => True) : (rotating gcm).Sat semKept i (.stmt w k) P :=
  sat_stmt hw fun s _ _ _ => ⟨fun _ => True, Spec.Stable.true i _, trivial, hk s⟩

theorem sat_registerHost (actor : Actor) (hostname key secret : String) (iv : Token) :
    (rotating gcm).Sat semKept i (registerHost gcm actor hostname key secret iv) fun _ => True := by
  unfold registerHost
  split
  · exact sat_ret rfl
  split
  · exact sat_ret rfl
  refine sat_stmt' (fun _ _ => trivial) fun s => ?_
  split
  · exact sat_ret rfl
  refine sat_stmt (fun _ _ => ⟨?_, iv, rfl⟩) fun s s' _ hs => ?_
  · intro hempty
    have hlength := congrArg String.length hempty
    simp at hlength
  · simp only [sem] at hs
    split at hs
    · rw [if_pos ‹_›]
      exact ⟨fun _ => True, Spec.Stable.true i _, trivial, sat_ret rfl⟩
    · rw [if_neg ‹_›]
      cases hs
      exact ⟨_, stable_handed _ _, ⟨_, mem_issuedTo.mpr ⟨List.mem_cons_self, rfl⟩, rfl⟩, sat_handed _⟩

theorem sat_rotateHostSecret (actor : Actor) (hostId : Nat) (secret : String) (iv : Token) :
    (rotating gcm).Sat semKept i (rotateHostSecret gcm actor hostId secret iv) fun _ => True := by
  unfold rotateHostSecret
  refine sat_stmt' (fun _ _ => trivial) fun s₀ => ?_
  split
  · exact sat_ret rfl
  refine sat_stmt (fun _ _ => trivial) fun s s' _ hs => ?_
  cases hs
  split
  · exact ⟨fun _ => True, Spec.Stable.true i _, trivial, sat_ret rfl⟩
  rename_i host hfind
  have hmem : host ∈ s.hosts := (Table.find?_mem hfind).1
  -- between reading the host and writing it, its key does not change
  refine ⟨fun s => host.id < s.hosts.next ∧ ∀ h ∈ s.hosts, h.id = host.id → h.keyId = host.keyId, ?_, ?_, ?_⟩
  · rintro s s' - - ⟨hkept, -⟩ ⟨hlt, hkey⟩
    refine ⟨Nat.lt_of_lt_of_le hlt hkept.next_le, fun h' hh' hid => ?_⟩
    obtain ⟨h, hh, hsame, hkeys⟩ := hkept.old h' hh' (by change h'.id < _; omega)
    exact hkeys.symm.trans (hkey h hh (hsame.trans hid))
  · refine ⟨s.hosts.lt_next host hmem, fun h hh hid => ?_⟩
    rw [Table.eq_of_key hh hmem hid]
  · refine sat_stmt (fun s hP h hh hid => ⟨iv, by rw [hP.2 h hh hid]⟩) fun s s' _ hs => ?_
    simp only [sem] at hs
    split at hs
    · rw [if_pos ‹_›]
      cases hs
      exact ⟨_, stable_handed _ _, ⟨_, mem_issuedTo.mpr ⟨List.mem_cons_self, rfl⟩, rfl⟩, sat_handed _⟩
    · rw [if_neg ‹_›]
      exact ⟨fun _ => True, Spec.Stable.true i _, trivial, sat_ret rfl⟩

theorem sat_call (op : Op) : (rotating gcm).Sat semKept i (op.call gcm) fun _ => True := by
  cases op with
  | registerHost actor hostname key secret iv => exact sat_registerHost actor hostname key secret iv
  | rotateHostSecret actor hostId secret iv => exact sat_rotateHostSecret actor hostId secret iv
  | setHostEnabled actor hostId enabled =>
      simp only [Op.call, setHostEnabled]
      split
      · exact sat_ret rfl
      refine sat_stmt' (fun _ _ => trivial) fun s => ?_
      split
      · exact sat_ret rfl
      · exact sat_ret rfl
  | tick ms => exact sat_stmt' (fun _ _ => trivial) fun _ => sat_ret rfl

theorem grace_start (clock : Int) : Grace gcm ⟨clock, .empty, []⟩ where
  keys := fun h hh => absurd hh (Table.not_mem_empty h)
  key_ne := fun h hh => absurd hh (Table.not_mem_empty h)
  current_ne := fun h hh => absurd hh (Table.not_mem_empty h)
  exists_host := nofun
  slots := fun h hh => absurd hh (Table.not_mem_empty h)
  fresh := fun _ => List.nodup_nil

theorem good_of_reach (ops : Nat → Op) (clock : Int) {c : System} (h : Reach sem unhurried (start gcm ops clock) c) :
    (rotating gcm).Good semKept c := by
  have hkept : Reach semKept unhurried (start gcm ops clock) c :=
    h.restrict fun c i w k hok hw => hok w (by rw [hw, Prog.next?_stmt])
  exact (Spec.Good.init (grace_start clock) fun i => sat_call (ops i)).reach (fun _ _ _ _ _ _ _ _ _ hg _ _ => hg) hkept

/-! ## The promise -/

theorem Grace.find_key {s : Store} (h : Grace gcm s) (hhost : host ∈ s.hosts) :
    (s.hosts.rows.find? fun h => h.keyId == host.keyId) = some host := by
  cases hfind : s.hosts.rows.find? fun h => h.keyId == host.keyId with
  | none => simpa using List.find?_eq_none.mp hfind host hhost
  | some other =>
      have hsame : other.keyId = host.keyId := by simpa using List.find?_some hfind
      rw [h.keys other (List.mem_of_find?_eq_some hfind) host hhost hsame]

section Requests
variable {hmac : (key message : List UInt8) → Digest} {s : Store} {secrets : List String} {secret : String}

theorem Grace.accepts (h : Grace gcm s) (hhost : host ∈ s.hosts)
    (hsecrets : acceptedSecrets (decryptSecret gcm) host s.clock = some secrets) (hmem : secret ∈ secrets) :
    Accepts hmac gcm s host.id secret := by
  refine ⟨host, secrets, Table.get?_eq_some.mpr ⟨hhost, rfl⟩, fun body t maxSkewSeconds ht hfresh => ?_⟩
  rw [answer, authenticateAgent_signed hmac _ (h.key_ne host hhost) (h.find_key hhost) hsecrets ht hfresh,
    if_pos ⟨secret, hmem, rfl⟩]

theorem Grace.refuses (h : Grace gcm s) (hhost : host ∈ s.hosts)
    (hsecrets : acceptedSecrets (decryptSecret gcm) host s.clock = some secrets) (hnot : secret ∉ secrets) :
    Refuses hmac gcm s host.id secret := by
  refine ⟨host, secrets, Table.get?_eq_some.mpr ⟨hhost, rfl⟩, hsecrets, hnot,
    fun body t maxSkewSeconds ht hfresh hother => ?_⟩
  rw [answer, authenticateAgent_signed hmac _ (h.key_ne host hhost) (h.find_key hhost) hsecrets ht hfresh, if_neg]
  rintro ⟨other, hmem, hsame⟩
  exact hother other hmem hsame

end Requests

/-- **The grace of a rotation**, in the runs whose rotations are unhurried: credentials that were returned were issued;
the newest secret of a host is accepted; and a secret that was replaced is accepted until 24 hours after the commit of
the rotation that replaced it and refused from then on. -/
theorem rotation_grace (hmac : (key message : List UInt8) → Digest) (gcm : Gcm) (ops : Nat → Op) (clock : Int)
    {c : System} (h : Reach sem unhurried (start gcm ops clock) c) :
    (∀ i cred, c.calls i = .ret (.credentials (.ok cred)) → Handed cred c.store) ∧
    ∀ hostId,
      (∀ newest rest, c.store.issuedTo hostId = newest :: rest → Accepts hmac gcm c.store hostId newest.secret) ∧
      ∀ before newer older after, c.store.issuedTo hostId = before ++ newer :: older :: after →
        (c.store.clock < newer.committedAt + graceMs → Accepts hmac gcm c.store hostId older.secret) ∧
        (newer.committedAt + graceMs ≤ c.store.clock → Refuses hmac gcm c.store hostId older.secret) := by
  have hgood := good_of_reach ops clock h
  have hgrace : Grace gcm c.store := hgood.1
  refine ⟨fun i cred hret => hgood.post hret cred rfl, fun hostId => ?_⟩
  -- a host to which a secret was issued is there, and its columns say which secrets are in use
  have hslots : ∀ issue ∈ c.store.issuedTo hostId, ∃ host ∈ c.store.hosts, host.id = hostId ∧
      Slots gcm c.store.clock host (c.store.issuedTo hostId) := by
    intro issue hissue
    obtain ⟨hissued, hid⟩ := mem_issuedTo.mp hissue
    obtain ⟨host, hhost, hid'⟩ := hgrace.exists_host issue hissued
    obtain rfl := hid'.trans hid
    exact ⟨host, hhost, rfl, hgrace.slots host hhost⟩
  constructor
  · intro newest rest heq
    obtain ⟨host, hhost, rfl, hslot⟩ := hslots newest (heq ▸ List.mem_cons_self)
    obtain ⟨secrets, hsecrets, hnewest, -⟩ := hslot.accepted (hgrace.fresh host.id)
    exact hgrace.accepts hhost hsecrets (hnewest newest rest heq)
  · intro before newer older after heq
    obtain ⟨host, hhost, rfl, hslot⟩ := hslots newer (heq ▸ List.mem_append_right _ List.mem_cons_self)
    obtain ⟨secrets, hsecrets, -, hreplaced⟩ := hslot.accepted (hgrace.fresh host.id)
    have hiff := hreplaced before newer older after heq
    constructor
    · intro hlt
      exact hgrace.accepts hhost hsecrets (hiff.mpr hlt)
    · intro hle
      exact hgrace.refuses hhost hsecrets fun hmem => absurd (hiff.mp hmem) (not_lt.mpr hle)

end Invariant

/-! ## Rotations in quick succession -/

/-- A cipher to run the functions with. -/
def sampleGcm : Gcm where
  cipher _ _ plaintext := (⟨['t'], by decide, by decide⟩,
    ⟨hexEncode (utf8 plaintext.toList), fun h => absurd (isLowerHex_of_mem_hexEncode h) (by decide)⟩)
  decipher _ _ ciphertext _ := (hexDecode ciphertext).map fun bytes => String.ofList (decode bytes)
  decipher_cipher := by
    intro iv aad plaintext
    simp [hexDecode_hexEncode, decode, runes_utf8]

def sampleIv : Token := ⟨['i'], by decide, by decide⟩

def owner : Actor where
  userId := 1
  orgId := 1
  role := .owner

/-- A host, two rotations an hour apart, and another hour. -/
def twoRotations : Nat → Op
  | 0 => .registerHost owner "web-1" "k" "s0" sampleIv
  | 1 => .rotateHostSecret owner 0 "s1" sampleIv
  | 2 => .tick 3600000
  | 3 => .rotateHostSecret owner 0 "s2" sampleIv
  | _ => .tick 3600000

/-- The answer is that the signature is not one. -/
def isInvalidSignature : Except HttpError AuthenticatedAgent → Bool
  | .error e => e = invalidSignature
  | .ok _ => false

/-- **A grace cut short**: the first secret is refused two hours after it was replaced. -/
theorem grace_cut_short : ∃ c, Reach sem anyStep (start sampleGcm twoRotations 1758000000000) c ∧
    ∃ before newer older after, c.store.issuedTo 0 = before ++ newer :: older :: after ∧
      c.store.clock < newer.committedAt + graceMs ∧ ¬ Accepts sampleHmac sampleGcm c.store 0 older.secret := by
  have hrun : ((start sampleGcm twoRotations 1758000000000).run sem [0, 0, 1, 1, 1, 2, 3, 3, 3, 4]).any (fun c =>
      c.store.clock = 1758007200000 ∧
      c.store.issuedTo 0 = [⟨0, "s2", 1758003600000⟩, ⟨0, "s1", 1758000000000⟩, ⟨0, "s0", 1758000000000⟩] ∧
      ((c.store.hosts.get? 0).all fun host =>
        isInvalidSignature (answer sampleHmac sampleGcm c.store host "s0" "[]" 1758007200 300)) = true) = true := by
    decide +kernel
  obtain ⟨c, hc, hall⟩ := (Option.any_eq_true _ _).mp hrun
  obtain ⟨hclock, hissued, hanswer⟩ := of_decide_eq_true hall
  refine ⟨c, .of_run hc, [_], _, _, [], hissued, ?_, ?_⟩
  · rw [hclock]
    decide
  · rintro ⟨host, secrets, hget, hpass⟩
    have hsame := hpass "[]" 1758007200 300 ⟨by decide, by decide⟩ (by rw [hclock]; decide)
    rw [hget, Option.all_some, hsame] at hanswer
    split at hanswer
    · cases hanswer
    · exact absurd hanswer (by decide)

/-- With a day between the rotations every secret has its grace. -/
def dailyRotations : Nat → Op
  | 0 => .registerHost owner "web-1" "k" "s0" sampleIv
  | 1 => .rotateHostSecret owner 0 "s1" sampleIv
  | 2 => .tick 86400000
  | 3 => .rotateHostSecret owner 0 "s2" sampleIv
  | _ => .tick 3600000

theorem rotation_grace_daily : ∃ c, Reach sem unhurried (start sampleGcm dailyRotations 1758000000000) c ∧
    c.store.clock = 1758090000000 ∧
    c.store.issuedTo 0 = [⟨0, "s2", 1758086400000⟩, ⟨0, "s1", 1758000000000⟩, ⟨0, "s0", 1758000000000⟩] ∧
    Accepts sampleHmac sampleGcm c.store 0 "s2" ∧ Accepts sampleHmac sampleGcm c.store 0 "s1" ∧
    Refuses sampleHmac sampleGcm c.store 0 "s0" := by
  have hrun : ((start sampleGcm dailyRotations 1758000000000).run sem [0, 0, 1, 1, 1, 2, 3, 3, 3, 4]).any (fun c =>
      c.store.clock = 1758090000000 ∧ c.store.issuedTo 0 =
        [⟨0, "s2", 1758086400000⟩, ⟨0, "s1", 1758000000000⟩, ⟨0, "s0", 1758000000000⟩]) = true := by
    decide +kernel
  obtain ⟨c, hc, hall⟩ := (Option.any_eq_true _ _).mp hrun
  obtain ⟨hclock, hissued⟩ := of_decide_eq_true hall
  have hreach : Reach sem unhurried (start sampleGcm dailyRotations 1758000000000) c :=
    Reach.of_allSteps (p := fun c i => (c.calls i).next?.all fun w => w.keepsGrace c.store)
      (fun c i h w hw => by rwa [hw, Option.all_some] at h) (by decide +kernel) hc
  obtain ⟨-, hhost⟩ := rotation_grace sampleHmac sampleGcm dailyRotations 1758000000000 hreach
  obtain ⟨hnewest, hreplaced⟩ := hhost 0
  have hcurrent := hnewest _ _ hissued
  have hgrace := (hreplaced [] ⟨0, "s2", 1758086400000⟩ ⟨0, "s1", 1758000000000⟩ [⟨0, "s0", 1758000000000⟩] hissued).1
  have hover := (hreplaced [⟨0, "s2", 1758086400000⟩] ⟨0, "s1", 1758000000000⟩ ⟨0, "s0", 1758000000000⟩ [] hissued).2
  refine ⟨c, hreach, hclock, hissued, hcurrent, hgrace ?_, hover ?_⟩
  · rw [hclock]
    decide
  · rw [hclock]
    decide

end IkelyaneMonitor.Servers
