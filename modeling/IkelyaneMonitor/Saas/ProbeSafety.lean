import Mathlib
import IkelyaneMonitor.Saas.Probe

/-!
# What a probe does on the network

* `readBody_eq` : the body that is looked at; `Wanted` : a response that makes the check pass;
* `Vetted` : a request that is allowed; `hopOnce_sent`, `hopOnce_redirected`, `hopOnce_stop` : one hop;
* `probeFrom_sent`, `probeFrom_headers`, `probeFrom_body`, `probeFrom_passed` : the hops from any of them on;
* `probe_is_safe` : the whole probe; a status that asks for a redirect is not reached through too many of them
  (`too_many_redirects_expected`).
-/

namespace IkelyaneMonitor.Saas
open Net (IpAddress LookupError assertLiteralTargetAllowed guardedLookup hostnameOf isPublicAddress)

/-! ## The body -/

theorem readBody_eq (chunks : List (List UInt8)) : readBody chunks = chunks.flatten.take maxBodyBytes := by
  have hfold : ∀ (chunks : List (List UInt8)) (data kept : List UInt8) (size : Nat), kept = data.take maxBodyBytes →
      (size = data.length ∨ maxBodyBytes ≤ size ∧ maxBodyBytes ≤ data.length) →
      (chunks.foldl readChunk (kept, size)).1 = (data ++ chunks.flatten).take maxBodyBytes := by
    intro chunks
    induction chunks with
    | nil =>
        intro data kept size hkept _
        simpa using hkept
    | cons chunk chunks ih =>
        intro data kept size hkept hsize
        rw [List.foldl_cons, List.flatten_cons, ← List.append_assoc]
        by_cases hfull : maxBodyBytes ≤ size
        · have hdata : maxBodyBytes ≤ data.length := by omega
          rw [readChunk, if_pos hfull]
          refine ih _ _ _ ?_ (.inr ⟨hfull, ?_⟩)
          · rw [List.take_append_of_le_length hdata, hkept]
          · rw [List.length_append]
            omega
        · have hlen : size = data.length := by omega
          rw [readChunk, if_neg hfull]
          refine ih _ _ _ ?_ (.inl ?_)
          · have hshort : data.length ≤ maxBodyBytes := by omega
            rw [hkept, hlen, List.take_append, List.take_of_length_le hshort]
          · rw [List.length_append, hlen]
  have h := hfold chunks [] [] 0 rfl (.inl rfl)
  simpa [readBody] using h

section Probe
variable {URL : Type} (platform : Platform URL) (request : ProbeRequest) (options : ProbeOptions)

/-- The probe goes on to the location of the response. -/
def Response.toFollow (r : Response) : Prop :=
  request.followRedirects = true ∧ isRedirect r.statusCode = true ∧ ∃ location, r.location = some location ∧ location ≠ ""

/-- The status expected, and the text expected within the first bytes of the body. -/
def Response.expected (r : Response) : Prop :=
  r.statusCode = request.expectedStatus ∧
    (needBody platform request = true →
      contains (platform.decodeUtf8 (r.chunks.flatten.take maxBodyBytes)) (request.expectedBodyContains.getD "") = true)

/-- A response that makes the check pass. -/
def Response.Wanted (r : Response) : Prop := ¬ r.toFollow request ∧ r.expected platform request

/-- A request to a target that is allowed, as the hop has it. -/
structure Vetted (h : Hop URL) (s : Sent URL) : Prop where
  url : s.url = h.url
  method : s.method = h.method
  headers : s.headers = requestHeaders options h.headers
  body : s.body = h.body
  http : platform.protocol s.url = "http:" ∨ platform.protocol s.url = "https:"
  literal : options.allowPrivateTargets = false → (platform.isIP (hostnameOf (platform.hostname s.url))).isSome = true →
    isPublicAddress platform.isIP (hostnameOf (platform.hostname s.url)) = true
  answer : options.allowPrivateTargets = false → ∀ list, s.answer = some list → ∀ a ∈ list,
    isPublicAddress platform.isIP a = true

/-- The last response of some requests. -/
def lastResponse (sent : List (Sent URL)) : Option Response := (sent.filterMap Sent.response).getLast?

def HopOutcome.sent : HopOutcome URL → Option (Sent URL)
  | .stop sent _ => sent
  | .redirected sent _ _ _ => sent

variable {platform request options} {h : Hop URL} {exchange : Exchange}

/-- One request: none was sent, or one that failed, or one with a response. -/
theorem requestOnce_cases (hhttp : platform.protocol h.url = "http:" ∨ platform.protocol h.url = "https:")
    (hliteral : assertLiteralTargetAllowed platform.isIP (platform.hostname h.url) options.allowPrivateTargets = .ok ()) :
    (∃ failure, requestOnce platform request options h exchange = (none, .error failure)) ∨
      ∃ s, Vetted platform options h s ∧
        ((∃ failure, s.response = none ∧ requestOnce platform request options h exchange = (some s, .error failure)) ∨
          ∃ r, s.response = some r ∧
            requestOnce platform request options h exchange = (some s, .ok (received platform request h r))) := by
  have hsend : ∀ answer : Option (List String),
      (options.allowPrivateTargets = false → (platform.isIP (hostnameOf (platform.hostname h.url))).isSome = true →
        isPublicAddress platform.isIP (hostnameOf (platform.hostname h.url)) = true) →
      (options.allowPrivateTargets = false → ∀ list, answer = some list → ∀ a ∈ list,
        isPublicAddress platform.isIP a = true) →
      Vetted platform options h
        ⟨h.url, h.method, requestHeaders options h.headers, h.body, answer, exchange.response.toOption⟩ :=
    fun answer hip hall => ⟨rfl, rfl, rfl, rfl, hhttp, hip, hall⟩
  unfold requestOnce
  dsimp only
  split
  · refine .inr ⟨_, hsend none (fun hallow hip => ?_) (by simp), ?_⟩
    · rw [hallow] at hliteral
      exact Net.assertLiteralTargetAllowed_ok hliteral hip
    · cases hresponse : exchange.response with
      | error code => exact .inl ⟨_, rfl, rfl⟩
      | ok r => exact .inr ⟨r, rfl, rfl⟩
  · rename_i hname
    split
    · exact .inl ⟨_, rfl⟩
    · rename_i addresses hlookup
      obtain ⟨list, hanswer, -, hpublic⟩ := Net.guardedLookup_ok hlookup
      refine .inr ⟨_, hsend exchange.answer.toOption (fun _ hip => absurd hip hname) (fun hallow list' hlist => ?_), ?_⟩
      · have heq : list = list' := by
          simpa [hanswer, Except.toOption] using hlist
        exact heq ▸ hpublic hallow
      · cases hresponse : exchange.response with
        | error code => exact .inl ⟨_, rfl, rfl⟩
        | ok r => exact .inr ⟨r, rfl, rfl⟩

theorem judge_passed {h h' : Hop URL} {r : Response} {responseMs : ℚ} :
    (judge platform request h' (received platform request h r) responseMs).passed = true ↔ r.expected platform request := by
  unfold judge Response.expected
  split
  · rename_i hstatus
    constructor
    · intro hfalse
      cases hfalse
    · intro hexpected
      exact absurd hexpected.1 hstatus
  · rename_i hstatus
    rw [not_not] at hstatus
    have hcode : r.statusCode = request.expectedStatus := hstatus
    cases hneed : needBody platform request with
    | false => simp [hcode]
    | true =>
        have hbody : (received platform request h r).body.getD "" =
            platform.decodeUtf8 (r.chunks.flatten.take maxBodyBytes) := by
          simp [received, hneed, readBody_eq]
        rw [hbody, Bool.true_and]
        split
        · rename_i hmissing
          simp only [Bool.not_eq_true'] at hmissing
          simp [Hop.failed, hmissing]
        · rename_i hthere
          simp only [Bool.not_eq_true', Bool.not_eq_false] at hthere
          simp [hcode, hthere]

/-- One pass of the loop: it stops before a response, at a response that is not followed, or goes on from one. -/
theorem hopOnce_cases (h : Hop URL) (exchange : Exchange) :
    (∃ sent result, hopOnce platform request options h exchange = .stop sent result ∧ result.passed = false ∧
        ∀ s, sent = some s → Vetted platform options h s ∧ s.response = none) ∨
      ∃ s r, Vetted platform options h s ∧ s.response = some r ∧
        ((¬ r.toFollow request ∧ ∃ result, hopOnce platform request options h exchange = .stop (some s) result ∧
            (result.passed = true ↔ r.expected platform request)) ∨
          (r.toFollow request ∧ ∃ tls statusCode location, hopOnce platform request options h exchange =
            .redirected (some s) { h with tls := tls, statusCode := statusCode } r.statusCode location)) := by
  unfold hopOnce
  split
  · exact .inl ⟨_, _, rfl, rfl, by simp⟩
  · rename_i hprotocol
    have hhttp : platform.protocol h.url = "http:" ∨ platform.protocol h.url = "https:" := by
      rw [← not_ne_iff, ← not_ne_iff, ← not_and_or]
      exact hprotocol
    split
    · refine .inl ⟨_, _, rfl, ?_, by simp⟩
      unfold Hop.caught
      split <;> rfl
    · rename_i hliteral
      rcases requestOnce_cases hhttp hliteral with ⟨failure, hnone⟩ | ⟨s, hvetted, ⟨failure, hs, hfailed⟩ | ⟨r, hs, hok⟩⟩
      · rw [hnone]
        refine .inl ⟨_, _, rfl, ?_, by simp⟩
        unfold Hop.caught
        split <;> rfl
      · rw [hfailed]
        refine .inl ⟨_, _, rfl, ?_, fun s' hs' => ?_⟩
        · unfold Hop.caught
          split <;> rfl
        · obtain rfl := Option.some.inj hs'
          exact ⟨hvetted, hs⟩
      · rw [hok]
        refine .inr ⟨s, r, hvetted, hs, ?_⟩
        dsimp only
        split
        · rename_i location hredirect hlocation
          rw [Bool.and_eq_true] at hredirect
          obtain ⟨hsome, hne⟩ := Option.filter_eq_some_iff.mp hlocation
          exact .inr ⟨⟨hredirect.1, hredirect.2, location, hsome, by simpa using hne⟩, _, _, location, rfl⟩
        · rename_i hstay
          refine .inl ⟨?_, ?_⟩
          · rintro ⟨hfollow, hredirect, location, hsome, hne⟩
            refine hstay location ?_ ?_
            · show (request.followRedirects && isRedirect r.statusCode) = true
              rw [hfollow, hredirect]
              rfl
            · exact Option.filter_eq_some_iff.mpr ⟨hsome, by simpa using hne⟩
          · exact ⟨_, rfl, judge_passed⟩

/-! ## The hops -/

section Hops
variable {network : Nat → Exchange}

theorem follow_eq_some {next : Hop URL} {statusCode : Int} {location : String}
    (hnext : follow platform h statusCode location = some next) :
    (next.headers = [] ∨ next.headers = h.headers ∧ platform.origin next.url = platform.origin h.url) ∧
      (next.body = none ∨ next.body = h.body ∧ next.method = h.method) := by
  unfold follow at hnext
  obtain ⟨url, -, rfl⟩ := Option.map_eq_some_iff.mp hnext
  have hheaders : (if platform.origin url ≠ platform.origin h.url then [] else h.headers) = [] ∨
      (if platform.origin url ≠ platform.origin h.url then [] else h.headers) = h.headers ∧
        platform.origin url = platform.origin h.url := by
    split
    · exact .inl rfl
    · rename_i horigin
      exact .inr ⟨rfl, not_not.mp horigin⟩
  dsimp only
  split
  · exact ⟨hheaders, .inl rfl⟩
  · exact ⟨hheaders, .inr ⟨rfl, rfl⟩⟩

/-- A hop ends the probe, with at most one request, or goes on after one. -/
theorem probeFrom_cases (left : Nat) (h : Hop URL) :
    (∃ sent result, probeFrom platform request options network left h = ⟨Option.toList sent, result⟩ ∧
        (∀ s, sent = some s → Vetted platform options h s) ∧
        (result.passed = true ↔ ∃ s r, sent = some s ∧ s.response = some r ∧ r.Wanted platform request)) ∨
      ∃ s r next left', left = left' + 1 ∧ Vetted platform options h s ∧ s.response = some r ∧ r.toFollow request ∧
        (next.headers = [] ∨ next.headers = h.headers ∧ platform.origin next.url = platform.origin h.url) ∧
        (next.body = none ∨ next.body = h.body ∧ next.method = h.method) ∧
        probeFrom platform request options network left h =
          ⟨s :: (probeFrom platform request options network left' next).sent,
            (probeFrom platform request options network left' next).result⟩ := by
  rcases @hopOnce_cases _ platform request options h (network (maxRedirects - left)) with
    ⟨sent, result, hstop, hfailed, hnone⟩ |
      ⟨s, r, hvetted, hs, ⟨hstay, result, hstop, hpassed⟩ | ⟨hfollow, tls, code, location, hgo⟩⟩
  · refine .inl ⟨sent, result, ?_, fun s hs => (hnone s hs).1, ?_⟩
    · rw [probeFrom, hstop]
    · rw [hfailed]
      constructor
      · intro hfalse
        cases hfalse
      · rintro ⟨s, r, hs, hr, -⟩
        rw [(hnone s hs).2] at hr
        cases hr
  · refine .inl ⟨some s, result, ?_, fun s' hs' => Option.some.inj hs' ▸ hvetted, ?_⟩
    · rw [probeFrom, hstop]
    · rw [hpassed]
      constructor
      · intro hexpected
        exact ⟨s, r, rfl, hs, hstay, hexpected⟩
      · rintro ⟨s', r', hs', hr', -, hexpected⟩
        obtain rfl := Option.some.inj hs'
        obtain rfl := Option.some.inj (hs.symm.trans hr')
        exact hexpected
  · -- a redirect ends the probe where it is one too many, or leads to no URL
    have hends : ∀ result : ProbeResult, result.passed = false →
        (result.passed = true ↔ ∃ s' r', some s = some s' ∧ s'.response = some r' ∧ r'.Wanted platform request) := by
      intro result hfailed
      rw [hfailed]
      constructor
      · intro hfalse
        cases hfalse
      · rintro ⟨s', r', hs', hr', hwanted⟩
        obtain rfl := Option.some.inj hs'
        obtain rfl := Option.some.inj (hs.symm.trans hr')
        exact absurd hfollow hwanted.1
    have hvetted' : ∀ s', some s = some s' → Vetted platform options h s' := fun s' hs' => Option.some.inj hs' ▸ hvetted
    cases left with
    | zero => exact .inl ⟨some s, _, by rw [probeFrom, hgo], hvetted', hends _ rfl⟩
    | succ left =>
        cases hnext : follow platform { h with tls := tls, statusCode := code } r.statusCode location with
        | none =>
            have hrun : probeFrom platform request options network (left + 1) h =
                ⟨[s], { h with tls := tls, statusCode := code }.failed .invalid_url (some "Location")⟩ := by
              rw [probeFrom, hgo]
              dsimp only
              rw [hnext]
              rfl
            exact .inl ⟨some s, _, hrun, hvetted', hends _ rfl⟩
        | some next =>
            obtain ⟨hheaders, hbody⟩ := follow_eq_some hnext
            refine .inr ⟨s, r, next, left, rfl, hvetted, hs, hfollow, hheaders, hbody, ?_⟩
            rw [probeFrom, hgo]
            dsimp only
            rw [hnext]
            rfl

/-- What the last hop has, and every hop keeps that goes on to one, a run has. -/
theorem probeFrom_induct {P : Nat → Hop URL → Run URL → Prop}
    (last : ∀ left h sent result, (∀ s, sent = some s → Vetted platform options h s) →
      (result.passed = true ↔ ∃ s r, sent = some s ∧ s.response = some r ∧ r.Wanted platform request) →
      P left h ⟨Option.toList sent, result⟩)
    (more : ∀ left h s r next run, Vetted platform options h s → s.response = some r → r.toFollow request →
      (next.headers = [] ∨ next.headers = h.headers ∧ platform.origin next.url = platform.origin h.url) →
      (next.body = none ∨ next.body = h.body ∧ next.method = h.method) → P left next run →
      P (left + 1) h ⟨s :: run.sent, run.result⟩)
    (left : Nat) (h : Hop URL) : P left h (probeFrom platform request options network left h) := by
  induction left generalizing h with
  | zero =>
      rcases @probeFrom_cases _ platform request options network 0 h with
        ⟨sent, result, heq, hvetted, hpassed⟩ | ⟨_, _, _, left', hleft, -⟩
      · rw [heq]
        exact last 0 h sent result hvetted hpassed
      · omega
  | succ left ih =>
      rcases @probeFrom_cases _ platform request options network (left + 1) h with
        ⟨sent, result, heq, hvetted, hpassed⟩ | ⟨s, r, next, left', hleft, hvetted, hs, hfollow, hheaders, hbody, heq⟩
      · rw [heq]
        exact last (left + 1) h sent result hvetted hpassed
      · obtain rfl : left = left' := by omega
        rw [heq]
        exact more left h s r next _ hvetted hs hfollow hheaders hbody (ih next)

theorem probeFrom_length (left : Nat) (h : Hop URL) :
    (probeFrom platform request options network left h).sent.length ≤ left + 1 := by
  refine probeFrom_induct (P := fun left _ run => run.sent.length ≤ left + 1) (fun left h sent result _ _ => ?_)
    (fun left h s r next run _ _ _ _ _ ih => Nat.succ_le_succ ih) left h
  cases sent <;> simp

theorem probeFrom_vetted (left : Nat) (h : Hop URL) :
    ∀ s ∈ (probeFrom platform request options network left h).sent, ∃ h', Vetted platform options h' s := by
  refine probeFrom_induct (P := fun _ _ run => ∀ s ∈ run.sent, ∃ h', Vetted platform options h' s)
    (fun left h sent result hvetted _ s hs => ⟨h, hvetted s (by simpa using hs)⟩)
    (fun left h s r next run hvetted _ _ _ _ ih s' hs' => ?_) left h
  rcases List.mem_cons.mp hs' with rfl | hs'
  · exact ⟨h, hvetted⟩
  · exact ih s' hs'

/-- The headers of a hop are sent while the origin stays what it was, and none of them after that. -/
theorem probeFrom_headers (left : Nat) (h : Hop URL) (i : Nat) (s : Sent URL)
    (hs : (probeFrom platform request options network left h).sent[i]? = some s) :
    s.headers = requestHeaders options [] ∨ s.headers = requestHeaders options h.headers ∧
      ∀ j ≤ i, ∀ t, (probeFrom platform request options network left h).sent[j]? = some t →
        platform.origin t.url = platform.origin h.url := by
  revert i s
  refine probeFrom_induct (P := fun _ h run => ∀ (i : Nat) (s : Sent URL), run.sent[i]? = some s →
    s.headers = requestHeaders options [] ∨ s.headers = requestHeaders options h.headers ∧
      ∀ j ≤ i, ∀ t : Sent URL, run.sent[j]? = some t → platform.origin t.url = platform.origin h.url)
    (fun left h sent result hvetted _ i s hs => ?_) (fun left h s₀ r next run hvetted _ _ hheaders _ ih i s hs => ?_) left h
  · have hmem : ∀ (j : Nat) t, (Option.toList sent)[j]? = some t → Vetted platform options h t := fun j t ht =>
      hvetted t (by simpa using List.mem_of_getElem? ht)
    refine .inr ⟨(hmem i s hs).headers, fun j _ t ht => ?_⟩
    rw [(hmem j t ht).url]
  · cases i with
    | zero =>
        obtain rfl : s₀ = s := by simpa using hs
        refine .inr ⟨hvetted.headers, fun j hj t ht => ?_⟩
        obtain rfl := Nat.le_zero.mp hj
        obtain rfl : s₀ = t := by simpa using ht
        rw [hvetted.url]
    | succ i =>
        rw [List.getElem?_cons_succ] at hs
        rcases ih i s hs with hnone | ⟨hsame, horigins⟩
        · exact .inl hnone
        · rcases hheaders with hdropped | ⟨hkept, horigin⟩
          · rw [hdropped] at hsame
            exact .inl hsame
          · rw [hkept] at hsame
            refine .inr ⟨hsame, fun j hj t ht => ?_⟩
            cases j with
            | zero =>
                obtain rfl : s₀ = t := by simpa using ht
                rw [hvetted.url]
            | succ j =>
                rw [List.getElem?_cons_succ] at ht
                rw [horigins j (Nat.le_of_succ_le_succ hj) t ht, horigin]

/-- A body goes with its method, or not at all. -/
theorem probeFrom_body (left : Nat) (h : Hop URL) :
    ∀ s ∈ (probeFrom platform request options network left h).sent,
      s.body = none ∨ s.body = h.body ∧ s.method = h.method := by
  refine probeFrom_induct (P := fun _ h run => ∀ s ∈ run.sent, s.body = none ∨ s.body = h.body ∧ s.method = h.method)
    (fun left h sent result hvetted _ s hs => ?_) (fun left h s₀ r next run hvetted _ _ _ hbody ih s hs => ?_) left h
  · have hs' := hvetted s (by simpa using hs)
    exact .inr ⟨hs'.body, hs'.method⟩
  · rcases List.mem_cons.mp hs with rfl | hs
    · exact .inr ⟨hvetted.body, hvetted.method⟩
    · rcases ih s hs with hnone | ⟨hsame, hmethod⟩
      · exact .inl hnone
      · rcases hbody with hdropped | ⟨hkept, hkeptMethod⟩
        · exact .inl (hsame.trans hdropped)
        · exact .inr ⟨hsame.trans hkept, hmethod.trans hkeptMethod⟩

/-- The check passes by the last response, where it is not one to follow. -/
theorem probeFrom_passed (left : Nat) (h : Hop URL) :
    (probeFrom platform request options network left h).result.passed = true ↔
      ∃ r, lastResponse (probeFrom platform request options network left h).sent = some r ∧ r.Wanted platform request := by
  refine probeFrom_induct (P := fun _ _ run => run.result.passed = true ↔
    ∃ r, lastResponse run.sent = some r ∧ r.Wanted platform request)
    (fun left h sent result _ hpassed => ?_) (fun left h s r next run _ hs hfollow _ _ ih => ?_) left h
  · rw [hpassed]
    cases sent with
    | none => simp [lastResponse]
    | some s => cases hr : s.response <;> simp [lastResponse, hr]
  · rw [ih]
    unfold lastResponse
    rw [List.filterMap_cons, hs]
    cases hrest : List.filterMap Sent.response run.sent with
    | nil =>
        simp only [List.getLast?_nil, List.getLast?_singleton, Option.some.injEq, reduceCtorEq, false_and, exists_false,
          false_iff, not_exists, not_and]
        intro r' hr' hwanted
        exact absurd (hr' ▸ hfollow) hwanted.1
    | cons r' rest => rw [List.getLast?_cons_cons]

end Hops

end Probe

/-! ## The whole probe -/

theorem firstHop_body {URL : Type} {platform : Platform URL} {request : ProbeRequest} {url : URL}
    (h : (firstHop platform request url).body ≠ none) : (firstHop platform request url).body = request.body := by
  unfold firstHop at h ⊢
  dsimp only at h ⊢
  split
  · rename_i hmethods
    rw [if_pos hmethods] at h
    obtain ⟨text, htext⟩ := Option.ne_none_iff_exists'.mp h
    rw [htext, (Option.filter_eq_some_iff.mp htext).1]
  · rename_i hmethods
    rw [if_neg hmethods] at h
    exact absurd rfl h

/-- Few requests, to vetted targets only; the configured headers stay with their origin and the body with its method; and
the check passes exactly by a last response that is not one to follow. -/
theorem probe_is_safe {URL : Type} (platform : Platform URL) (request : ProbeRequest) (options : ProbeOptions)
    (network : Nat → Exchange) :
    let run := probe platform request options network
    run.sent.length ≤ maxRedirects + 1 ∧
      (∀ s ∈ run.sent, platform.protocol s.url = "http:" ∨ platform.protocol s.url = "https:") ∧
      (options.allowPrivateTargets = false → ∀ s ∈ run.sent,
        ((platform.isIP (hostnameOf (platform.hostname s.url))).isSome = true →
          isPublicAddress platform.isIP (hostnameOf (platform.hostname s.url)) = true) ∧
        ∀ list, s.answer = some list → ∀ a ∈ list, isPublicAddress platform.isIP a = true) ∧
      (∀ (i : Nat) (s first : Sent URL), run.sent[i]? = some s → run.sent[0]? = some first →
        s.headers = requestHeaders options [] ∨ s.headers = requestHeaders options (request.headers.getD []) ∧
          ∀ j ≤ i, ∀ t, run.sent[j]? = some t → platform.origin t.url = platform.origin first.url) ∧
      (∀ s ∈ run.sent, s.body ≠ none → s.body = request.body ∧ s.method = platform.toUpperCase request.method) ∧
      (run.result.passed = true ↔ ∃ r, lastResponse run.sent = some r ∧ r.Wanted platform request) := by
  intro run
  cases hparse : platform.parse request.url none with
  | none =>
      have hrun : run = ⟨[], ⟨false, none, none, some .invalid_url, none, none⟩⟩ := by
        show probe platform request options network = _
        rw [probe, hparse]
      rw [hrun]
      simp [lastResponse]
  | some url =>
      have hrun : run = probeFrom platform request options network maxRedirects (firstHop platform request url) := by
        show probe platform request options network = _
        rw [probe, hparse]
      rw [hrun]
      refine ⟨probeFrom_length _ _, fun s hs => ?_, fun hallow s hs => ?_, fun i s first hs hfirst => ?_,
        fun s hs hbody => ?_, probeFrom_passed _ _⟩
      · obtain ⟨h, hvetted⟩ := probeFrom_vetted _ _ s hs
        exact hvetted.http
      · obtain ⟨h, hvetted⟩ := probeFrom_vetted _ _ s hs
        exact ⟨hvetted.literal hallow, hvetted.answer hallow⟩
      · refine (probeFrom_headers _ _ i s hs).imp_right fun hkept => ⟨hkept.1, fun j hj t ht => ?_⟩
        rw [hkept.2 j hj t ht, ← hkept.2 0 (Nat.zero_le i) first hfirst]
      · obtain ⟨hsame, hmethod⟩ := (probeFrom_body _ _ s hs).resolve_left hbody
        rw [hsame] at hbody ⊢
        exact ⟨firstHop_body hbody, hmethod⟩

section Counterexample

/-- A site of one name, with texts for its URLs. -/
def oneSite : Platform String where
  parse := fun text _ => some text
  protocol := fun _ => "http:"
  origin := fun _ => "http://example.org"
  hostname := fun _ => "example.org"
  isIP := fun text => if text = "93.184.216.34" then some (.v4 (Net.v4 93 184 216 34)) else none
  toUpperCase := id
  decodeUtf8 := fun _ => ""

/-- A check that wants a redirect. -/
def wantsRedirect : ProbeRequest := ⟨"http://example.org/", "GET", none, none, 302, none, true, true, 10000⟩

/-- Every answer sends on to the same page. -/
def redirectLoop : Nat → Exchange := fun _ => ⟨.ok ["93.184.216.34"], .ok ⟨302, some "/loop", [], none⟩, false, 10⟩

/-- The sixth redirect is not followed, has the status that is expected, and the check fails. -/
theorem too_many_redirects_expected :
    ¬ ((probe oneSite wantsRedirect ⟨false, none⟩ redirectLoop).result.passed = true ↔
      ∃ s r, (probe oneSite wantsRedirect ⟨false, none⟩ redirectLoop).sent.getLast? = some s ∧ s.response = some r ∧
        r.expected oneSite wantsRedirect) := by
  have hfailed : (probe oneSite wantsRedirect ⟨false, none⟩ redirectLoop).result.passed = false := by decide +kernel
  have hlast : (probe oneSite wantsRedirect ⟨false, none⟩ redirectLoop).sent.getLast?.bind Sent.response =
      some ⟨302, some "/loop", [], none⟩ := by decide +kernel
  obtain ⟨s, hs, hr⟩ := Option.bind_eq_some_iff.mp hlast
  intro hiff
  have hpassed := hiff.mpr ⟨s, _, hs, hr, rfl, fun hneed => absurd hneed (by decide)⟩
  rw [hfailed] at hpassed
  cases hpassed

end Counterexample

end IkelyaneMonitor.Saas
