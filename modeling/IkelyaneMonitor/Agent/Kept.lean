import IkelyaneMonitor.Agent.Reporting

/-!
# No sample is lost without a cause

* what `Pending`, `Push` and `Remove` do to the files, whatever their names: `mem_of_mem_pending`, `aged_of_not_mem_pending`,
  `file_of_mem_pending`, `mem_push`;
* `Stored`, `Held`, `Cause.Holds` : the server has the sample, its agent still has it, or it is lost for a reason;
* `Inv` : what holds of every world on the way (`Inv.step`, `inv_of_run`); `Accounted` : a sample is one of the three.
-/

namespace IkelyaneMonitor.Agent.Reporting
open Telemetry Disk Wire

/-! ## Files -/

section Files
variable {dir : List File}

theorem mem_removeFile {name : List Char} {f : File} : f ∈ removeFile name dir ↔ f ∈ dir ∧ f.name ≠ name := by
  simp [removeFile]

theorem nodup_removeFile {name : List Char} (h : (dir.map File.name).Nodup) : ((removeFile name dir).map File.name).Nodup :=
  h.sublist (List.filter_sublist.map _)

theorem mem_of_mem_readFrom {cutoff : Int} {names : List (List Char)} {f : File} (h : f ∈ (readFrom cutoff names dir).1) :
    f ∈ dir := by
  induction names generalizing dir with
  | nil => exact h
  | cons name names ih =>
      rw [readFrom] at h
      split at h
      · exact ih h
      · split at h
        · exact (mem_removeFile.mp (ih h)).1
        · exact ih h

theorem nodup_readFrom {cutoff : Int} {names : List (List Char)} (h : (dir.map File.name).Nodup) :
    ((readFrom cutoff names dir).1.map File.name).Nodup := by
  induction names generalizing dir with
  | nil => exact h
  | cons name names ih =>
      rw [readFrom]
      split
      · exact ih h
      · split
        · exact ih (nodup_removeFile h)
        · exact ih h

/-- Files of one directory with the same name are the same. -/
theorem eq_of_name (h : (dir.map File.name).Nodup) {f g : File} (hf : f ∈ dir) (hg : g ∈ dir)
    (hname : f.name = g.name) : f = g :=
  List.inj_on_of_nodup_map h hf hg hname

theorem mem_of_stat {name : List Char} {f : File} (h : stat name dir = some f) : f ∈ dir ∧ f.name = name := by
  unfold stat at h
  exact ⟨List.mem_of_find?_eq_some h, by simpa using List.find?_some h⟩

/-- What the loop removes is past its age. -/
theorem aged_of_not_mem_readFrom {cutoff : Int} {names : List (List Char)} (hnodup : (dir.map File.name).Nodup) {f : File}
    (hf : f ∈ dir) (h : f ∉ (readFrom cutoff names dir).1) : f.modTime < cutoff := by
  induction names generalizing dir with
  | nil => exact absurd hf h
  | cons name names ih =>
      rw [readFrom] at h
      split at h
      · exact ih hnodup hf h
      · rename_i info hstat
        obtain ⟨hinfo, hname⟩ := mem_of_stat hstat
        split at h
        · rename_i hold
          by_cases heq : f.name = name
          · rw [eq_of_name hnodup hf hinfo (heq.trans hname.symm)]
            exact hold
          · exact ih (nodup_removeFile hnodup) (mem_removeFile.mpr ⟨hf, heq⟩) h
        · exact ih hnodup hf h

/-- What the loop returns is in a file. -/
theorem file_of_mem_readFrom {cutoff : Int} {names : List (List Char)} {e : Disk.Entry}
    (h : e ∈ (readFrom cutoff names dir).2) :
    ∃ f ∈ dir, f.name = e.path ∧ f.body = e.body := by
  induction names generalizing dir with
  | nil => cases h
  | cons name names ih =>
      rw [readFrom] at h
      split at h
      · exact ih h
      · rename_i info hstat
        split at h
        · obtain ⟨f, hf, hfile⟩ := ih h
          exact ⟨f, (mem_removeFile.mp hf).1, hfile⟩
        · rcases List.mem_cons.mp h with rfl | h
          · obtain ⟨hinfo, hname⟩ := mem_of_stat hstat
            exact ⟨info, hinfo, hname, rfl⟩
          · exact ih h

theorem foldl_removeFile_sublist (names : List (List Char)) (dir : List File) :
    (names.foldl (fun dir name => removeFile name dir) dir).Sublist dir := by
  induction names generalizing dir with
  | nil => exact List.Sublist.refl dir
  | cons name names ih => exact (ih _).trans List.filter_sublist

theorem evictIfFull_sublist (dir : List File) : (Disk.evictIfFull dir).Sublist dir := by
  unfold Disk.evictIfFull
  split
  · exact List.Sublist.refl dir
  · exact foldl_removeFile_sublist _ _

/-- Room is made in a full buffer only. -/
theorem full_of_evicted {f : File} (hf : f ∈ dir) (h : f ∉ Disk.evictIfFull dir) : maxEntries ≤ dir.length := by
  unfold Disk.evictIfFull at h
  split at h
  · exact absurd hf h
  · omega

theorem mem_push {now : Int} {body : String} {f : File} : f ∈ Disk.push now body dir ↔
    (f ∈ Disk.evictIfFull dir ∧ f.name ≠ fileName now) ∨ f = ⟨fileName now, now, body⟩ := by
  simp [Disk.push, writeFile, mem_removeFile]

theorem nodup_push {now : Int} {body : String} (h : (dir.map File.name).Nodup) :
    ((Disk.push now body dir).map File.name).Nodup := by
  have hroom : ((removeFile (fileName now) (Disk.evictIfFull dir)).map File.name).Nodup :=
    nodup_removeFile (h.sublist ((evictIfFull_sublist dir).map _))
  rw [Disk.push, writeFile, List.map_append, List.nodup_append]
  refine ⟨hroom, List.nodup_singleton _, ?_⟩
  intro name hname name' hname' heq
  obtain ⟨f, hf, rfl⟩ := List.mem_map.mp hname
  obtain rfl := List.mem_singleton.mp hname'
  exact (mem_removeFile.mp hf).2 heq

end Files

/-! ## Answers of the server -/

section Answers
variable {toISOString : Int → String} {draw : Telemetry.Source → Nat} {host : AuthenticatedAgent} {ctx : IngestContext}
  {s : Store} {e : HttpError}

theorem status_of_parseCollectedAt {time : Timestamp} {label : String}
    (h : parseCollectedAt toISOString time ctx label = .error e) : 400 ≤ e.status := by
  unfold parseCollectedAt at h
  split at h
  · cases h
  · cases h
    show 400 ≤ 422
    omega

theorem status_of_ingestSnmpDevices {devices : List SnmpDevice}
    (h : ingestSnmpDevices toISOString draw host ctx devices s = .error e) : 400 ≤ e.status := by
  induction devices generalizing s with
  | nil => cases h
  | cons snmp devices ih =>
      rw [ingestSnmpDevices] at h
      split at h
      · rename_i hone
        cases h
        unfold ingestSnmpDevice at hone
        split at hone
        · rename_i htime
          cases hone
          exact status_of_parseCollectedAt htime
        · dsimp only at hone
          split at hone <;> cases hone
      · split at h
        · rename_i hrest
          cases h
          exact ih hrest
        · cases h

theorem status_of_slowQueryRows {id : Nat} {label : String} {queries : List SlowQuery}
    (h : slowQueryRows toISOString id ctx label queries = .error e) : 400 ≤ e.status := by
  induction queries with
  | nil => cases h
  | cons q queries ih =>
      rw [slowQueryRows] at h
      split at h
      · rename_i htime
        cases h
        exact status_of_parseCollectedAt htime
      · split at h
        · rename_i hrest
          cases h
          exact ih hrest
        · cases h

theorem status_of_ingestDatabases {databases : List DatabaseMetric}
    (h : ingestDatabases toISOString draw host ctx databases s = .error e) : 400 ≤ e.status := by
  induction databases generalizing s with
  | nil => cases h
  | cons db databases ih =>
      rw [ingestDatabases] at h
      split at h
      · rename_i hone
        cases h
        unfold ingestDatabase at hone
        split at hone
        · rename_i htime
          cases hone
          exact status_of_parseCollectedAt htime
        · dsimp only at hone
          split at hone
          · rename_i hslow
            cases hone
            exact status_of_slowQueryRows hslow
          · cases hone
      · split at h
        · rename_i hrest
          cases h
          exact ih hrest
        · cases h

theorem status_of_ingestTelemetry {payload : TelemetryPayload}
    (h : ingestTelemetry toISOString draw host payload ctx s = .error e) : 400 ≤ e.status := by
  unfold ingestTelemetry at h
  split at h
  · rename_i hsystem
    cases h
    cases hsys : payload.system with
    | none =>
        rw [hsys] at hsystem
        cases hsystem
    | some system =>
        rw [hsys, Option.map_some, Option.getD_some, ingestSystem] at hsystem
        split at hsystem
        · rename_i htime
          cases hsystem
          exact status_of_parseCollectedAt htime
        · cases hsystem
  · split at h
    · rename_i hdevices
      cases h
      exact status_of_ingestSnmpDevices hdevices
    · split at h
      · rename_i hdatabases
        cases h
        exact status_of_ingestDatabases hdatabases
      · cases h

theorem status_of_authenticate {hmac : (key message : List UInt8) → Digest}
    {decryptSecret : (payload aad : String) → Option String} {hosts : List AgentHost} {input : AuthInput}
    (h : authenticateAgent hmac decryptSecret hosts input = .error e) : 400 ≤ e.status := by
  have hmem : e ∈ [missingKeyId, missingSignature, malformedSignature, timestampOutOfTolerance input.maxSkewSeconds,
      invalidSignature, internalError, hostDisabled] := by
    unfold authenticateAgent at h
    repeat' split at h
    all_goals cases h
    all_goals simp
  have hall : ∀ e ∈ [missingKeyId, missingSignature, malformedSignature, timestampOutOfTolerance input.maxSkewSeconds,
      invalidSignature, internalError, hostDisabled], 400 ≤ e.status := by
    simp [missingKeyId, missingSignature, malformedSignature, timestampOutOfTolerance, invalidSignature, internalError,
      hostDisabled]
  exact hall e hmem

variable {S : Setting} {w : World} {r : Request} {now : Int}

/-- A refusal has a status of its own. -/
theorem status_of_answer (h : w.answer S r now = .error e) : 400 ≤ e.status := by
  unfold World.answer post at h
  split at h
  · cases h
    show 400 ≤ 413
    omega
  · split at h
    · rename_i hauth
      cases h
      exact status_of_authenticate hauth
    · split at h
      · cases h
        decide
      · cases h
        decide
      · exact status_of_ingestTelemetry h

/-- What is stored passed every check. -/
theorem answer_ok {result : Store × IngestResult} (h : w.answer S r now = .ok result) : ∃ host payload,
    authenticateAgent S.hmac S.decryptSecret w.hosts ⟨some (S.client r.agent).keyId,
      some (sign S.hmac (S.client r.agent).secret (utf8 r.body.toList) r.clock), r.body, now, S.env.maxClockSkewSeconds⟩ =
      .ok host ∧ S.decode r.body = .payload payload ∧
    ingestTelemetry S.toISOString S.draw host payload (S.env.context now) w.store = .ok result := by
  unfold World.answer post at h
  split at h
  · cases h
  · split at h
    · cases h
    · rename_i host hauth
      split at h
      · cases h
      · cases h
      · rename_i payload hdecode
        exact ⟨host, payload, hauth, hdecode, h⟩

end Answers

/-! ## Where a sample is -/

namespace World
variable (w : World) (a : Nat) (body : String)

/-- A request with it was stored. -/
def Stored : Prop := ∃ q d clock, (q, d) ∈ w.stored ∧ w.sent[q]? = some ⟨a, body, clock⟩

/-- It is in a file, or is just being sent. -/
def Held : Prop := (∃ f ∈ w.dirs a, f.body = body) ∨ ∃ q, w.phases a = .sending body q

end World

/-- Why a sample is lost, with what makes the reason true. -/
def Cause.Holds (w : World) (a : Nat) (body : String) : Cause → Prop
  | .aged f now => f.body = body ∧ f.modTime < now - maxAge
  | .evicted f files => f.body = body ∧ maxEntries ≤ files
  | .overwritten f now => f.body = body ∧ f.name = fileName now
  | .refused q r => (q, r) ∈ w.replies ∧ (∃ clock, w.sent[q]? = some ⟨a, body, clock⟩) ∧
      classify r.status r.code ≠ .stored ∧ classify r.status r.code ≠ .retry
  | .intercepted r => classify r.status r.code ≠ .retry
  | .stopped => True

def Lost (w : World) (a : Nat) (body : String) : Prop := ∃ l ∈ w.lost, l.agent = a ∧ l.body = body

/-- The server has it, its agent has it, or it is lost. -/
def Accounted (w : World) (a : Nat) (body : String) : Prop := w.Stored a body ∨ w.Held a body ∨ Lost w a body

/-- A file under the path of the entry has its body, which is a sample. -/
def Names (w : World) (a : Nat) (e : Disk.Entry) : Prop :=
  (∀ f ∈ w.dirs a, f.name = e.path → f.body = e.body) ∧ (a, e.body) ∈ w.made

def Sent (w : World) (a : Nat) (body : String) (q : Nat) : Prop := ∃ clock, w.sent[q]? = some ⟨a, body, clock⟩

def Stands (w : World) (a : Nat) : Phase → Prop
  | .idle | .collecting => True
  | .flushing _ entries => ∀ e ∈ entries, Names w a e
  | .resending _ e entries q => (∀ e' ∈ e :: entries, Names w a e') ∧ Sent w a e.body q
  | .sending body q => Sent w a body q

structure Inv (w : World) : Prop where
  requested : ∀ r ∈ w.sent, (r.agent, r.body) ∈ w.made
  filed : ∀ a, ∀ f ∈ w.dirs a, (a, f.body) ∈ w.made
  named : ∀ a, ((w.dirs a).map File.name).Nodup
  phased : ∀ a, Stands w a (w.phases a)
  replied : ∀ q r, (q, r) ∈ w.replies → classify r.status r.code = .stored → ∃ d, (q, d) ∈ w.stored
  caused : ∀ l ∈ w.lost, l.cause.Holds w l.agent l.body
  kept : ∀ a body, (a, body) ∈ w.made → Accounted w a body

/-! ## The records only grow -/

structure Grows (w w' : World) : Prop where
  sent : ∀ (q : Nat) (r : Request), w.sent[q]? = some r → w'.sent[q]? = some r
  made : ∀ x ∈ w.made, x ∈ w'.made
  stored : ∀ x ∈ w.stored, x ∈ w'.stored
  replies : ∀ x ∈ w.replies, x ∈ w'.replies
  lost : ∀ l ∈ w.lost, l ∈ w'.lost

section Steps
variable {w w' : World} {a : Nat} {body : String}

theorem Sent.grows (hg : Grows w w') {q : Nat} (h : Sent w a body q) : Sent w' a body q := by
  obtain ⟨clock, h⟩ := h
  exact ⟨clock, hg.sent _ _ h⟩

theorem Cause.Holds.grows (hg : Grows w w') {cause : Cause} (h : cause.Holds w a body) : cause.Holds w' a body := by
  cases cause with
  | refused q r => exact ⟨hg.replies _ h.1, Sent.grows hg h.2.1, h.2.2⟩
  | _ => exact h

theorem Names.grows (hg : Grows w w') (hdir : ∀ f ∈ w'.dirs a, f ∈ w.dirs a) {e : Disk.Entry} (h : Names w a e) :
    Names w' a e :=
  ⟨fun f hf => h.1 f (hdir f hf), hg.made _ h.2⟩

theorem Stands.grows (hg : Grows w w') (hdir : ∀ f ∈ w'.dirs a, f ∈ w.dirs a) {phase : Phase} (h : Stands w a phase) :
    Stands w' a phase := by
  cases phase with
  | idle => trivial
  | collecting => trivial
  | flushing turn entries => exact fun e he => (h e he).grows hg hdir
  | resending turn e entries q => exact ⟨fun e' he' => (h.1 e' he').grows hg hdir, Sent.grows hg h.2⟩
  | sending body q => exact Sent.grows hg h

/-- What is not held was stored, or is lost, and stays so. -/
theorem Accounted.grows (hg : Grows w w') (hheld : w.Held a body → Accounted w' a body) (h : Accounted w a body) :
    Accounted w' a body := by
  rcases h with ⟨q, d, clock, hd, hq⟩ | h | ⟨l, hl, h⟩
  · exact .inl ⟨q, d, clock, hg.stored _ hd, hg.sent _ _ hq⟩
  · exact hheld h
  · exact .inr (.inr ⟨l, hg.lost _ hl, h⟩)

/-- A step of the process of `a`, or of the server. -/
theorem Inv.local (h : Inv w) (hg : Grows w w') (hdirs : ∀ b, b ≠ a → w'.dirs b = w.dirs b)
    (hphases : ∀ b, b ≠ a → w'.phases b = w.phases b) (hsent : ∀ r ∈ w'.sent, r ∈ w.sent ∨ (r.agent, r.body) ∈ w'.made)
    (hfiled : ∀ f ∈ w'.dirs a, (a, f.body) ∈ w'.made) (hnamed : ((w'.dirs a).map File.name).Nodup)
    (hphase : Stands w' a (w'.phases a))
    (hreplied : ∀ q r, (q, r) ∈ w'.replies →
      (q, r) ∈ w.replies ∨ (classify r.status r.code = .stored → ∃ d, (q, d) ∈ w'.stored))
    (hcaused : ∀ l ∈ w'.lost, l ∈ w.lost ∨ l.cause.Holds w' l.agent l.body)
    (hmade : ∀ b body, (b, body) ∈ w'.made → (b, body) ∈ w.made ∨ Accounted w' b body)
    (hheld : ∀ body, (a, body) ∈ w.made → w.Held a body → Accounted w' a body) : Inv w' where
  requested r hr := (hsent r hr).elim (fun hr => hg.made _ (h.requested r hr)) id
  filed b f hf := by
    by_cases hb : b = a
    · subst hb
      exact hfiled f hf
    · rw [hdirs b hb] at hf
      exact hg.made _ (h.filed b f hf)
  named b := by
    by_cases hb : b = a
    · subst hb
      exact hnamed
    · rw [hdirs b hb]
      exact h.named b
  phased b := by
    by_cases hb : b = a
    · subst hb
      exact hphase
    · rw [hphases b hb]
      exact (h.phased b).grows hg fun f hf => by rwa [hdirs b hb] at hf
  replied q r hr hstored := by
    rcases hreplied q r hr with hr | hr
    · obtain ⟨d, hd⟩ := h.replied q r hr hstored
      exact ⟨d, hg.stored _ hd⟩
    · exact hr hstored
  caused l hl := (hcaused l hl).elim (fun hl => (h.caused l hl).grows hg) id
  kept b body hb := by
    rcases hmade b body hb with hold | hnew
    · refine (h.kept b body hold).grows hg fun hh => ?_
      by_cases hba : b = a
      · subst hba
        exact hheld body hold hh
      · refine .inr (.inl ?_)
        unfold World.Held at hh ⊢
        rwa [hdirs b hba, hphases b hba]
    · exact hnew

theorem classify_eq_stored {status : Nat} {code : Option ErrorCode} : classify status code = .stored ↔ status = 200 := by
  unfold classify
  split
  · simp [*]
  · split
    · simp [*]
    · split
      · simp [*]
      · split <;> simp [*]

/-- What the server or something else does to a sample that is not sent again. -/
theorem conclude_eq (hreplied : ∀ q r, (q, r) ∈ w.replies → classify r.status r.code = .stored → ∃ d, (q, d) ∈ w.stored)
    {q : Nat} (hsent : Sent w a body q) {answer : Answer} (hheard : w.heard q answer = true)
    (hretry : answer.outcome ≠ .retry) :
    ∃ gone, w.conclude a body q answer = { w with lost := w.lost ++ gone } ∧
      (∀ l ∈ gone, l.agent = a ∧ l.body = body ∧ l.cause.Holds w l.agent l.body) ∧
      (w.Stored a body ∨ ∃ l ∈ gone, l.agent = a ∧ l.body = body) := by
  cases answer with
  | nothing => exact absurd rfl hretry
  | other r =>
      refine ⟨[⟨a, body, .intercepted r⟩], rfl, fun l hl => ?_, .inr ⟨_, List.mem_singleton_self _, rfl, rfl⟩⟩
      obtain rfl := List.mem_singleton.mp hl
      exact ⟨rfl, rfl, hretry⟩
  | reply r =>
      have hmem : (q, r) ∈ w.replies := of_decide_eq_true hheard
      by_cases hstored : classify r.status r.code = .stored
      · obtain ⟨d, hd⟩ := hreplied q r hmem hstored
        obtain ⟨clock, hq⟩ := hsent
        refine ⟨[], ?_, fun l hl => absurd hl List.not_mem_nil, .inl ⟨q, d, clock, hd, hq⟩⟩
        rw [World.conclude, if_pos hstored, List.append_nil]
      · refine ⟨[⟨a, body, .refused q r⟩], ?_, fun l hl => ?_, .inr ⟨_, List.mem_singleton_self _, rfl, rfl⟩⟩
        · rw [World.conclude, if_neg hstored]
          rfl
        · obtain rfl := List.mem_singleton.mp hl
          exact ⟨rfl, rfl, hmem, hsent, hstored, hretry⟩

/-! ## Steps of the server -/

section Server
variable {S : Setting}

/-- The server changes no process, and no buffer. -/
theorem Inv.server (h : Inv w) (store : Store) (hosts : List AgentHost) (replies : List (Nat × Reply))
    (stored : List (Nat × Delivery))
    (hreplied : ∀ q r, (q, r) ∈ replies → classify r.status r.code = .stored → ∃ d, (q, d) ∈ w.stored ++ stored) :
    Inv { w with store := store, hosts := hosts, replies := w.replies ++ replies, stored := w.stored ++ stored } := by
  have hg : Grows w
      { w with store := store, hosts := hosts, replies := w.replies ++ replies, stored := w.stored ++ stored } :=
    ⟨fun _ _ hq => hq, fun _ hx => hx, fun _ hx => List.mem_append_left _ hx, fun _ hx => List.mem_append_left _ hx,
      fun _ hl => hl⟩
  -- any agent will do
  refine Inv.local h hg (fun _ _ => rfl) (fun _ _ => rfl) (fun _ hr => .inl hr) (h.filed 0) (h.named 0)
    ((h.phased 0).grows hg fun _ hf => hf) (fun q r hr => ?_) (fun _ hl => .inl hl) (fun _ _ hb => .inl hb)
    fun _ _ hheld => .inr (.inl hheld)
  exact (List.mem_append.mp hr).imp_right fun hr => hreplied q r hr

theorem Inv.administer (h : Inv w) (hosts : List AgentHost) : Inv { w with hosts := hosts } := by
  have hserver := h.server w.store hosts [] [] fun _ _ hr => absurd hr List.not_mem_nil
  rwa [List.append_nil, List.append_nil] at hserver

theorem Inv.reply (h : Inv w) (q : Nat) {r : Reply} (hr : r.status ≠ 200) : Inv (w.reply q r) := by
  have hserver := h.server w.store w.hosts [(q, r)] [] fun q' r' hr' hstored => by
    obtain ⟨-, rfl⟩ := Prod.mk.inj (List.mem_singleton.mp hr')
    exact absurd (classify_eq_stored.mp hstored) hr
  rwa [List.append_nil] at hserver

theorem Inv.serve (h : Inv w) {q : Nat} {r : Request} {now : Int} : Inv (w.serve S q r now) := by
  unfold World.serve
  split
  · rename_i store result hok
    obtain ⟨host, payload, -, hdecode, -⟩ := answer_ok hok
    refine h.server store w.hosts [(q, ⟨200, none⟩)] _ fun q' r' hr _ => ?_
    obtain ⟨rfl, -⟩ := Prod.mk.inj (List.mem_singleton.mp hr)
    refine ⟨⟨⟨World.agent S r.agent, payload⟩, S.env.context now⟩, List.mem_append_right _ ?_⟩
    rw [World.delivery, hdecode]
    exact List.mem_singleton_self _
  · rename_i e hrefused
    have hstatus := status_of_answer hrefused
    exact h.reply q (show e.status ≠ 200 by omega)

end Server

/-! ## Steps of a process -/

theorem Inv.setPhase (h : Inv w) (hsending : ∀ body q, w.phases a ≠ .sending body q) {phase : Phase}
    (hphase : Stands w a phase) :
    Inv (w.setPhase a phase) := by
  have hg : Grows w (w.setPhase a phase) := ⟨fun _ _ hq => hq, fun _ hx => hx, fun _ hx => hx, fun _ hx => hx, fun _ hl => hl⟩
  refine Inv.local h hg (fun _ _ => rfl) (fun b hb => Function.update_of_ne hb _ _) (fun _ hr => .inl hr) (h.filed a)
    (h.named a)
    ?_ (fun _ _ hr => .inl hr) (fun _ hl => .inl hl) (fun _ _ hb => .inl hb) ?_
  · show Stands _ a (Function.update w.phases a phase a)
    rw [Function.update_self]
    exact hphase.grows hg fun _ hf => hf
  · rintro body - (hfile | ⟨q, hq⟩)
    · exact .inr (.inl (.inl hfile))
    · exact absurd hq (hsending body q)

theorem Inv.tick (h : Inv w) (hidle : w.phases a = .idle) (now : Int) :
    Inv ((w.read a now).setPhase a (.flushing 0 (Disk.pending now (w.dirs a)).2)) := by
  have hdir : ((w.read a now).setPhase a (.flushing 0 (Disk.pending now (w.dirs a)).2)).dirs a =
      (Disk.pending now (w.dirs a)).1 := Function.update_self ..
  have hg : Grows w ((w.read a now).setPhase a (.flushing 0 (Disk.pending now (w.dirs a)).2)) :=
    ⟨fun _ _ hq => hq, fun _ hx => hx, fun _ hx => hx, fun _ hx => hx, fun _ hl => List.mem_append_left _ hl⟩
  refine Inv.local h hg (fun b hb => Function.update_of_ne hb _ _) (fun b hb => Function.update_of_ne hb _ _)
    (fun _ hr => .inl hr) ?_ ?_ ?_ (fun _ _ hr => .inl hr) ?_ (fun _ _ hb => .inl hb) ?_
  · rw [hdir]
    exact fun f hf => h.filed a f (mem_of_mem_readFrom hf)
  · rw [hdir]
    exact nodup_readFrom (h.named a)
  · show Stands _ a (Function.update w.phases a _ a)
    rw [Function.update_self]
    intro e he
    obtain ⟨f, hf, hname, hbody⟩ := file_of_mem_readFrom he
    refine ⟨fun g hg hgname => ?_, hbody ▸ h.filed a f hf⟩
    rw [hdir] at hg
    rw [eq_of_name (h.named a) (mem_of_mem_readFrom hg) hf (hgname.trans hname.symm)]
    exact hbody
  · intro l hl
    refine (List.mem_append.mp hl).imp_right fun hl => ?_
    obtain ⟨f, hf, rfl⟩ := List.mem_map.mp hl
    rw [List.mem_filter, decide_eq_true_eq] at hf
    exact ⟨rfl, aged_of_not_mem_readFrom (h.named a) hf.1 hf.2⟩
  · rintro body - (⟨f, hf, rfl⟩ | ⟨q, hq⟩)
    · by_cases hstays : f ∈ (Disk.pending now (w.dirs a)).1
      · exact .inr (.inl (.inl ⟨f, hdir ▸ hstays, rfl⟩))
      · refine .inr (.inr ⟨⟨a, f.body, .aged f now⟩, List.mem_append_right _ ?_, rfl, rfl⟩)
        exact List.mem_map.mpr ⟨f, List.mem_filter.mpr ⟨hf, decide_eq_true hstays⟩, rfl⟩
    · cases hidle.symm.trans hq

theorem Inv.turn (h : Inv w) {turn : Nat} {e : Disk.Entry} {entries : List Disk.Entry}
    (hphase : w.phases a = .flushing turn (e :: entries)) (clock : Int) :
    Inv ((w.send a e.body clock).setPhase a (.resending turn e entries w.sent.length)) := by
  have hg : Grows w ((w.send a e.body clock).setPhase a (.resending turn e entries w.sent.length)) :=
    ⟨fun _ _ hq => (List.getElem?_append_left (List.getElem?_eq_some_iff.mp hq).1).trans hq, fun _ hx => hx, fun _ hx => hx,
      fun _ hx => hx, fun _ hl => hl⟩
  have hnames := h.phased a
  rw [hphase] at hnames
  refine Inv.local h hg (fun _ _ => rfl) (fun b hb => Function.update_of_ne hb _ _) (fun r hr => ?_) (h.filed a) (h.named a)
    ?_ (fun _ _ hr => .inl hr) (fun _ hl => .inl hl) (fun _ _ hb => .inl hb) ?_
  · refine (List.mem_append.mp hr).imp_right fun hr => ?_
    obtain rfl := List.mem_singleton.mp hr
    exact (hnames e List.mem_cons_self).2
  · show Stands _ a (Function.update w.phases a _ a)
    rw [Function.update_self]
    exact ⟨fun e' he' => (hnames e' he').grows hg fun _ hf => hf, clock, List.getElem?_concat_length⟩
  · rintro body - (hfile | ⟨q, hq⟩)
    · exact .inr (.inl (.inl hfile))
    · cases hphase.symm.trans hq

theorem Inv.collect (h : Inv w) (hphase : w.phases a = .collecting) (body : String) (clock : Int) :
    Inv (({ w with made := w.made ++ [(a, body)] }.send a body clock).setPhase a (.sending body w.sent.length)) := by
  have hg : Grows w (({ w with made := w.made ++ [(a, body)] }.send a body clock).setPhase a (.sending body w.sent.length)) :=
    ⟨fun _ _ hq => (List.getElem?_append_left (List.getElem?_eq_some_iff.mp hq).1).trans hq,
      fun _ hx => List.mem_append_left _ hx, fun _ hx => hx, fun _ hx => hx, fun _ hl => hl⟩
  refine Inv.local h hg (fun _ _ => rfl) (fun b hb => Function.update_of_ne hb _ _) (fun r hr => ?_)
    (fun f hf => hg.made _ (h.filed a f hf)) (h.named a) ?_ (fun _ _ hr => .inl hr) (fun _ hl => .inl hl)
    (fun b body' hb => ?_) ?_
  · refine (List.mem_append.mp hr).imp_right fun hr => ?_
    obtain rfl := List.mem_singleton.mp hr
    exact List.mem_append_right _ (List.mem_singleton_self _)
  · show Stands _ a (Function.update w.phases a _ a)
    rw [Function.update_self]
    exact ⟨clock, List.getElem?_concat_length⟩
  · refine (List.mem_append.mp hb).imp_right fun hb => ?_
    obtain ⟨rfl, rfl⟩ := Prod.mk.inj (List.mem_singleton.mp hb)
    exact .inr (.inl (.inr ⟨_, Function.update_self ..⟩))
  · rintro body' - (hfile | ⟨q, hq⟩)
    · exact .inr (.inl (.inl hfile))
    · cases hphase.symm.trans hq

/-- The file of a payload that is not sent again is removed. -/
theorem Inv.resent (h : Inv w) {turn q : Nat} {e : Disk.Entry} {entries : List Disk.Entry}
    (hphase : w.phases a = .resending turn e entries q) {answer : Answer} (hheard : w.heard q answer = true)
    (hretry : answer.outcome ≠ .retry) :
    Inv (((w.remove a e.path).conclude a e.body q answer).setPhase a (.flushing (turn + 1) entries)) := by
  have hstands := h.phased a
  rw [hphase] at hstands
  obtain ⟨hnames, hsent⟩ := hstands
  have hsent' : Sent (w.remove a e.path) a e.body q := hsent
  obtain ⟨gone, heq, hgone, hwhere⟩ := conclude_eq (w := w.remove a e.path) h.replied hsent' hheard hretry
  rw [heq]
  generalize hw' : ({ w.remove a e.path with lost := (w.remove a e.path).lost ++ gone }.setPhase a
    (.flushing (turn + 1) entries)) = w'
  have hdir : w'.dirs a = removeFile e.path (w.dirs a) := by
    subst hw'
    exact Function.update_self ..
  have hg : Grows w w' := by
    subst hw'
    exact ⟨fun _ _ hq => hq, fun _ hx => hx, fun _ hx => hx, fun _ hx => hx, fun _ hl => List.mem_append_left _ hl⟩
  have hold : ∀ f ∈ w'.dirs a, f ∈ w.dirs a := by
    rw [hdir]
    exact fun f hf => (mem_removeFile.mp hf).1
  refine Inv.local h hg (fun b hb => ?_) (fun b hb => ?_) ?_
    (fun f hf => hg.made _ (h.filed a f (hold f hf))) ?_ ?_ ?_ ?_ ?_ ?_
  · subst hw'
    exact Function.update_of_ne hb _ _
  · subst hw'
    exact Function.update_of_ne hb _ _
  · subst hw'
    exact fun _ hr => .inl hr
  · rw [hdir]
    exact nodup_removeFile (h.named a)
  · have hphase' : w'.phases a = .flushing (turn + 1) entries := by
      subst hw'
      exact Function.update_self ..
    rw [hphase']
    exact fun e' he' => (hnames e' (List.mem_cons_of_mem _ he')).grows hg hold
  · subst hw'
    exact fun _ _ hr => .inl hr
  · intro l hl
    subst hw'
    refine (List.mem_append.mp hl).imp_right fun hl => ?_
    obtain ⟨-, -, hholds⟩ := hgone l hl
    exact hholds.grows hg
  · subst hw'
    exact fun _ _ hb => .inl hb
  · rintro body - (⟨f, hf, rfl⟩ | ⟨q', hq'⟩)
    · by_cases hname : f.name = e.path
      · rw [(hnames e List.mem_cons_self).1 f hf hname]
        subst hw'
        exact hwhere.imp_right fun ⟨l, hl, hof⟩ => .inr ⟨l, List.mem_append_right _ hl, hof⟩
      · refine .inr (.inl (.inl ⟨f, ?_, rfl⟩))
        rw [hdir]
        exact mem_removeFile.mpr ⟨hf, hname⟩
    · cases hphase.symm.trans hq'

/-- A fresh sample that is not sent again was stored, or is lost. -/
theorem Inv.concluded (h : Inv w) {q : Nat} (hphase : w.phases a = .sending body q) {answer : Answer}
    (hheard : w.heard q answer = true) (hretry : answer.outcome ≠ .retry) :
    Inv ((w.conclude a body q answer).setPhase a .idle) := by
  have hsent := h.phased a
  rw [hphase] at hsent
  obtain ⟨gone, heq, hgone, hwhere⟩ := conclude_eq h.replied hsent hheard hretry
  rw [heq]
  have hg : Grows w ({ w with lost := w.lost ++ gone }.setPhase a .idle) :=
    ⟨fun _ _ hq => hq, fun _ hx => hx, fun _ hx => hx, fun _ hx => hx, fun _ hl => List.mem_append_left _ hl⟩
  refine Inv.local h hg (fun _ _ => rfl) (fun b hb => Function.update_of_ne hb _ _) (fun _ hr => .inl hr) (h.filed a)
    (h.named a)
    ?_ (fun _ _ hr => .inl hr) (fun l hl => ?_) (fun _ _ hb => .inl hb) ?_
  · show Stands _ a (Function.update w.phases a _ a)
    rw [Function.update_self]
    trivial
  · refine (List.mem_append.mp hl).imp_right fun hl => ?_
    obtain ⟨-, -, hholds⟩ := hgone l hl
    exact hholds.grows hg
  · rintro body' - (hfile | ⟨q', hq'⟩)
    · exact .inr (.inl (.inl hfile))
    · rw [hphase] at hq'
      cases hq'
      exact hwhere.imp_right fun ⟨l, hl, hof⟩ => .inr ⟨l, List.mem_append_right _ hl, hof⟩

/-- A fresh sample that is to be sent again is written to a file, and others make room. -/
theorem Inv.keep (h : Inv w) {q : Nat} (hphase : w.phases a = .sending body q) (now : Int) :
    Inv ((w.keep a body now).setPhase a .idle) := by
  have hmade : (a, body) ∈ w.made := by
    have hsent := h.phased a
    rw [hphase] at hsent
    obtain ⟨clock, hsent⟩ := hsent
    exact h.requested _ (List.mem_of_getElem? hsent)
  have hdir : ((w.keep a body now).setPhase a .idle).dirs a = Disk.push now body (w.dirs a) := Function.update_self ..
  have hlost : ((w.keep a body now).setPhase a .idle).lost = w.lost ++
      ((w.dirs a).filter (· ∉ Disk.evictIfFull (w.dirs a))).map (fun f => ⟨a, f.body, .evicted f (w.dirs a).length⟩) ++
      ((Disk.evictIfFull (w.dirs a)).filter fun f => f.name = fileName now).map
        (fun f => ⟨a, f.body, .overwritten f now⟩) := rfl
  have hg : Grows w ((w.keep a body now).setPhase a .idle) :=
    ⟨fun _ _ hq => hq, fun _ hx => hx, fun _ hx => hx, fun _ hx => hx, fun l hl => by
      rw [hlost]
      exact List.mem_append_left _ (List.mem_append_left _ hl)⟩
  refine Inv.local h hg (fun b hb => ?_) (fun b hb => Function.update_of_ne hb _ _) (fun _ hr => .inl hr) ?_ ?_ ?_
    (fun _ _ hr => .inl hr) ?_ (fun _ _ hb => .inl hb) ?_
  · exact (Function.update_of_ne hb _ _).trans (Function.update_of_ne hb _ _)
  · rw [hdir]
    intro f hf
    rcases mem_push.mp hf with ⟨hf, -⟩ | rfl
    · exact h.filed a f ((evictIfFull_sublist _).subset hf)
    · exact hmade
  · rw [hdir]
    exact nodup_push (h.named a)
  · show Stands _ a (Function.update w.phases a _ a)
    rw [Function.update_self]
    trivial
  · intro l hl
    rw [hlost] at hl
    rcases List.mem_append.mp hl with hl | hl
    · refine (List.mem_append.mp hl).imp_right fun hl => ?_
      obtain ⟨f, hf, rfl⟩ := List.mem_map.mp hl
      rw [List.mem_filter, decide_eq_true_eq] at hf
      exact ⟨rfl, full_of_evicted hf.1 hf.2⟩
    · obtain ⟨f, hf, rfl⟩ := List.mem_map.mp hl
      rw [List.mem_filter, decide_eq_true_eq] at hf
      exact .inr ⟨rfl, hf.2⟩
  · rintro body' - (⟨f, hf, rfl⟩ | ⟨q', hq'⟩)
    · by_cases hroom : f ∈ Disk.evictIfFull (w.dirs a)
      · by_cases hname : f.name = fileName now
        · refine .inr (.inr ⟨⟨a, f.body, .overwritten f now⟩, ?_, rfl, rfl⟩)
          rw [hlost]
          refine List.mem_append_right _ (List.mem_map.mpr ⟨f, ?_, rfl⟩)
          exact List.mem_filter.mpr ⟨hroom, decide_eq_true hname⟩
        · refine .inr (.inl (.inl ⟨f, ?_, rfl⟩))
          rw [hdir]
          exact mem_push.mpr (.inl ⟨hroom, hname⟩)
      · refine .inr (.inr ⟨⟨a, f.body, .evicted f (w.dirs a).length⟩, ?_, rfl, rfl⟩)
        rw [hlost]
        refine List.mem_append_left _ (List.mem_append_right _ (List.mem_map.mpr ⟨f, ?_, rfl⟩))
        exact List.mem_filter.mpr ⟨hf, decide_eq_true hroom⟩
    · rw [hphase] at hq'
      cases hq'
      refine .inr (.inl (.inl ⟨⟨fileName now, now, body⟩, ?_, rfl⟩))
      rw [hdir]
      exact mem_push.mpr (.inr rfl)

theorem Inv.stopped (h : Inv w) {q : Nat} (hphase : w.phases a = .sending body q) :
    Inv ((w.lose a body .stopped).setPhase a .idle) := by
  have hg : Grows w ((w.lose a body .stopped).setPhase a .idle) :=
    ⟨fun _ _ hq => hq, fun _ hx => hx, fun _ hx => hx, fun _ hx => hx, fun _ hl => List.mem_append_left _ hl⟩
  refine Inv.local h hg (fun _ _ => rfl) (fun b hb => Function.update_of_ne hb _ _) (fun _ hr => .inl hr) (h.filed a)
    (h.named a)
    ?_ (fun _ _ hr => .inl hr) (fun l hl => ?_) (fun _ _ hb => .inl hb) ?_
  · show Stands _ a (Function.update w.phases a _ a)
    rw [Function.update_self]
    trivial
  · refine (List.mem_append.mp hl).imp_right fun hl => ?_
    obtain rfl := List.mem_singleton.mp hl
    trivial
  · rintro body' - (hfile | ⟨q', hq'⟩)
    · exact .inr (.inl (.inl hfile))
    · rw [hphase] at hq'
      cases hq'
      exact .inr (.inr ⟨_, List.mem_append_right _ (List.mem_singleton_self _), rfl, rfl⟩)

/-! ## Every step -/

theorem Inv.step {S : Setting} (h : Inv w) {event : Event} (hs : w.step S event = some w') : Inv w' := by
  cases event with
  | administer hosts =>
      cases hs
      exact h.administer hosts
  | serve q now =>
      obtain ⟨r, -, rfl⟩ := Option.map_eq_some_iff.mp hs
      exact h.serve
  | fail q =>
      unfold World.step at hs
      dsimp only at hs
      split at hs <;> cases hs
      exact h.reply q (show 500 ≠ 200 by omega)
  | tick a now =>
      unfold World.step at hs
      dsimp only at hs
      split at hs <;> cases hs
      rename_i hidle
      exact h.tick hidle now
  | turn a clock =>
      unfold World.step at hs
      dsimp only at hs
      split at hs
      · rename_i hphase
        cases hs
        exact h.setPhase (fun body q hq => by cases hphase.symm.trans hq) trivial
      · rename_i turn e entries hphase
        split at hs <;> cases hs
        · exact h.setPhase (fun body q hq => by cases hphase.symm.trans hq) trivial
        · exact h.turn hphase clock
      · cases hs
  | collect a body clock =>
      unfold World.step at hs
      dsimp only at hs
      split at hs <;> cases hs
      · rename_i hphase
        exact h.setPhase (fun body q hq => by cases hphase.symm.trans hq) trivial
      · rename_i body hphase
        exact h.collect hphase body clock
  | hear a answer now =>
      unfold World.step at hs
      dsimp only at hs
      split at hs
      · rename_i turn e entries q hphase
        split at hs
        · cases hs
        · rename_i hheard
          split at hs <;> cases hs
          · exact h.setPhase (fun body q hq => by cases hphase.symm.trans hq) trivial
          · rename_i hretry
            exact h.resent hphase (by simpa using hheard) hretry
      · rename_i body q hphase
        split at hs
        · cases hs
        · rename_i hheard
          split at hs <;> cases hs
          · exact h.keep hphase now
          · rename_i hretry
            exact h.concluded hphase (by simpa using hheard) hretry
      · cases hs
  | stop a =>
      unfold World.step at hs
      dsimp only at hs
      split at hs <;> cases hs
      · rename_i body q hphase
        exact h.stopped hphase
      · rename_i hphase
        exact h.setPhase (fun body q hq => hphase body q hq) trivial

theorem inv_start (store : Store) (hosts : List AgentHost) : Inv (World.start store hosts) where
  requested _ hr := absurd hr List.not_mem_nil
  filed _ _ hf := absurd hf List.not_mem_nil
  named _ := List.nodup_nil
  phased _ := trivial
  replied _ _ hr := absurd hr List.not_mem_nil
  caused _ hl := absurd hl List.not_mem_nil
  kept _ _ hb := absurd hb List.not_mem_nil

theorem inv_of_run {S : Setting} (h : Inv w) {events : List Event} (hr : w.run S events = some w') : Inv w' := by
  induction events generalizing w with
  | nil =>
      cases hr
      exact h
  | cons event events ih =>
      rw [World.run, Option.bind_eq_some_iff] at hr
      obtain ⟨w₁, hs, hrest⟩ := hr
      exact ih (h.step hs) hrest

end Steps

end IkelyaneMonitor.Agent.Reporting
