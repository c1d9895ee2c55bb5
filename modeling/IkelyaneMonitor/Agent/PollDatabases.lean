import IkelyaneMonitor.Interleave.FanOut
import IkelyaneMonitor.Agent.SlowlogOnce

/-!
# All databases at once (`pollAll` of `dbState` in `agent/cmd/ikelyane-agent/main.go`)

* `Exchange`, `Outcome.exchanges` : the questions that a poll puts to its instance, in their order; `Outcome.under lost` :
  what the poll comes to without some of the answers;
* `Round` : the monitors, and how many exchanges still end before the context that all polls share does; `askAll`,
  `collectCall` : `Collect` as its exchanges and what it leaves in its monitor;
* `pollAll_databases` : the goroutines end, five at most have a token, and each poll comes to what it would alone without the
  answers that came after the end of the context: to what it would alone, if that has not come;
* `pollAll_databases_starved` : five instances that answer the ping and then hang keep a sixth from being reached.
-/

namespace IkelyaneMonitor.Agent.Db
open Interleave Wire

def dbPollConcurrency : Nat := 5

/-! ## The exchanges of a poll -/

/-- A question, with the reading of its answer. `version` is `INFO` of Redis and `serverStatus` of MongoDB, which lists its
databases under `storage`; the two statements that ask a MySQL server for its replication are one exchange. -/
inductive Exchange where
  | ping | version | maxConnections | isReplica | activity | statistics | storage | lag | slow
  | profile (database : List UInt8)
  deriving DecidableEq

/-- Without its answer the poll breaks off. -/
def Exchange.essential : Exchange → Bool
  | .ping | .version | .statistics => true
  | _ => false

/-- It takes the answer of that one to be asked. -/
def Exchange.follows : Exchange → Option Exchange
  | .lag => some .isReplica
  | .profile _ => some .storage
  | _ => none

/-- Up to the one that fails, if there is one. -/
def Outcome.exchanges : {e : Engine} → Outcome e → List Exchange
  | _, .unreachable => [.ping]
  | .postgresql, .failed _ => [.ping, .version, .maxConnections, .isReplica, .activity, .statistics]
  | .mysql, .failed _ | .mariadb, .failed _ => [.ping, .version, .maxConnections, .isReplica, .statistics]
  | .mongodb, .failed _ | .redis, .failed _ => [.ping, .version]
  | .postgresql, .answered a =>
    [.ping, .version, .maxConnections, .isReplica, .activity, .statistics, .storage] ++
      (if PostgresAnswers.isReplica a = some true then [.lag] else []) ++ [.slow]
  | .mysql, .answered _ | .mariadb, .answered _ =>
    [.ping, .version, .maxConnections, .isReplica, .statistics, .storage, .slow]
  | .redis, .answered _ => [.ping, .version, .maxConnections, .slow]
  | .mongodb, .answered a =>
    [.ping, .version] ++ (if MongoAnswers.secondary a then [.lag] else []) ++ [.storage] ++
      (polledDatabases ((MongoAnswers.databases a).elim [] Listing.names)).map .profile

section Under
variable (lost : Exchange → Bool)

/-- What an optional answer is without its exchange. -/
def got {τ : Type} (x : Exchange) (answer : Option τ) : Option τ := if lost x then none else answer

/-- A server that does not say that it is a replica is none to MySQL. -/
def Known.under (e : Engine) (known : Known) : Known :=
  if lost .version then {}
  else
    { version := known.version
      isReplica := if lost .isReplica ∧ (e = .mysql ∨ e = .mariadb) then known.isReplica.map fun _ => false
        else got lost .isReplica known.isReplica
      maxConnections := got lost .maxConnections known.maxConnections }

def PostgresAnswers.under (a : PostgresAnswers) : PostgresAnswers :=
  { a with
    maxConnections := got lost .maxConnections a.maxConnections
    isReplica := got lost .isReplica a.isReplica
    activeConnections := got lost .activity a.activeConnections
    storageBytes := got lost .storage a.storageBytes
    lagSeconds := got lost .lag a.lagSeconds
    statements := got lost .slow a.statements }

def MysqlAnswers.under (a : MysqlAnswers) : MysqlAnswers :=
  { a with
    maxConnections := got lost .maxConnections a.maxConnections
    replica := got lost .isReplica a.replica
    storageBytes := got lost .storage a.storageBytes
    digests := got lost .slow a.digests }

def RedisAnswers.under (a : RedisAnswers) : RedisAnswers :=
  { a with
    maxclients := got lost .maxConnections a.maxclients
    slowlog := got lost .slow a.slowlog }

def MongoAnswers.under (a : MongoAnswers) : MongoAnswers :=
  { a with
    members := got lost .lag a.members
    databases := got lost .storage a.databases
    profiles := fun name => got lost (.profile name) (a.profiles name) }

def Answers.under : {e : Engine} → Answers e → Answers e
  | .postgresql, a => PostgresAnswers.under lost a
  | .mysql, a => MysqlAnswers.under lost a
  | .mariadb, a => MysqlAnswers.under lost a
  | .mongodb, a => MongoAnswers.under lost a
  | .redis, a => RedisAnswers.under lost a

/-- What is known when the statistics are missing. -/
def Answers.known : {e : Engine} → Answers e → Known
  | .postgresql, a => ⟨PostgresAnswers.version a, PostgresAnswers.isReplica a, PostgresAnswers.maxConnections a⟩
  | .mysql, a => ⟨MysqlAnswers.version a, some (MysqlAnswers.replica a).isSome, MysqlAnswers.maxConnections a⟩
  | .mariadb, a => ⟨MysqlAnswers.version a, some (MysqlAnswers.replica a).isSome, MysqlAnswers.maxConnections a⟩
  | .mongodb, _ | .redis, _ => {}

/-- The outcome without the answers that were lost. -/
def Outcome.under {e : Engine} : Outcome e → Outcome e
  | .unreachable => .unreachable
  | .failed known => if lost .ping then .unreachable else .failed (known.under lost e)
  | .answered a =>
    if lost .ping then .unreachable
    else if lost .version then .failed {}
    else if lost .statistics then .failed (a.under lost).known
    else .answered (a.under lost)

end Under

/-- Nothing was lost. -/
theorem under_none {e : Engine} (outcome : Outcome e) {lost : Exchange → Bool} (h : ∀ x, lost x = false) :
    outcome.under lost = outcome := by
  obtain rfl : lost = fun _ => false := funext h
  cases outcome with
  | unreachable => rfl
  | failed known => simp [Outcome.under, Known.under, got]
  | answered a => cases e <;> rfl

theorem length_exchanges_le {e : Engine} (outcome : Outcome e) : outcome.exchanges.length ≤ 54 := by
  cases outcome with
  | unreachable => simp [Outcome.exchanges]
  | failed known => cases e <;> simp [Outcome.exchanges]
  | answered a =>
      cases e with
      | postgresql =>
          simp only [Outcome.exchanges]
          split <;> simp
      | mysql | mariadb | redis => simp [Outcome.exchanges]
      | mongodb =>
          have hpolled : ∀ names, (polledDatabases names).length ≤ 50 := fun names =>
            (List.length_take_le _ _).trans (le_refl _)
          have hnames := hpolled ((MongoAnswers.databases a).elim [] Listing.names)
          simp only [Outcome.exchanges, List.length_append, List.length_map]
          split <;> simp <;> omega

/-! ## The polls of a round -/

variable {engines : Nat → Engine}

structure Round (engines : Nat → Engine) where
  /-- The exchanges that are still to end before the context does. -/
  left : Nat
  monitors : ∀ i, Monitor (engines i)

inductive RoundStmt (engines : Nat → Engine) where
  | ask
  /-- The end of `Collect`. -/
  | keep (i : Nat) (outcome : Outcome (engines i))

abbrev RoundCall (engines : Nat → Engine) := Prog (RoundStmt engines) (Round engines) DatabaseMetric

section Polls
variable (fl : Rounding) (p : Platform) (now : Instant) (outcomes : ∀ i, Outcome (engines i)) (late : Nat → Exchange → Bool)

def serve : RoundStmt engines → Round engines → Round engines
  | .ask, s => { s with left := s.left - 1 }
  | .keep i outcome, s =>
    { s with monitors := Function.update s.monitors i ((s.monitors i).collect fl p outcome now).2 }

/-- The exchanges of a poll in turn, `lost` being those without an answer. Once the context has ended an answer is lost,
unless the driver hands it over all the same (`late`). -/
def askAll (late : Exchange → Bool) (done : List Exchange → RoundCall engines) :
    List Exchange → List Exchange → RoundCall engines
  | [], lost => done lost
  | x :: xs, lost =>
    if x.follows.any lost.contains then askAll late done xs lost
    else
      .stmt .ask fun s =>
        if decide (0 < s.left) || late x then askAll late done xs lost
        else if x.essential then done (x :: lost)
        else askAll late done xs (x :: lost)

def keepCall (i : Nat) (lost : List Exchange) : RoundCall engines :=
  .stmt (.keep i ((outcomes i).under lost.contains)) fun s =>
    .ret ((s.monitors i).collect fl p ((outcomes i).under lost.contains) now).1

/-- `Collect` of the `i`-th monitor. -/
def collectCall (i : Nat) : RoundCall engines :=
  askAll (late i) (keepCall fl p now outcomes i) (outcomes i).exchanges []

end Polls

section Rounds
variable {fl : Rounding} {p : Platform} {now : Instant} {outcomes : ∀ i, Outcome (engines i)} {late : Nat → Exchange → Bool}
  {monitors : ∀ i, Monitor (engines i)} {i : Nat} {s s' : Round engines}

variable (fl p now outcomes late) in
/-- The rest of the `i`-th poll; `clean` says that it has lost no answer so far. -/
inductive Asking (i : Nat) : Bool → RoundCall engines → Prop
  | ask {clean : Bool} {k : Round engines → RoundCall engines}
      (hk : ∀ s, Asking i (clean && decide (0 < s.left)) (k s)) : Asking i clean (.stmt .ask k)
  | keep {clean : Bool} {lost : List Exchange} (hlost : clean = true → lost = []) (hlate : ∀ x ∈ lost, late i x = false) :
      Asking i clean (.stmt (.keep i ((outcomes i).under lost.contains)) fun s =>
        .ret ((s.monitors i).collect fl p ((outcomes i).under lost.contains) now).1)

theorem Asking.mono {clean clean' : Bool} {q : RoundCall engines} (h : Asking fl p now outcomes late i clean q)
    (hle : clean' = true → clean = true) : Asking fl p now outcomes late i clean' q := by
  induction h generalizing clean' with
  | ask _ ih =>
      refine .ask fun s => ih s fun hboth => ?_
      rw [Bool.and_eq_true] at hboth ⊢
      exact ⟨hle hboth.1, hboth.2⟩
  | keep hlost hlate => exact .keep (fun hclean => hlost (hle hclean)) hlate

theorem asking_askAll (xs : List Exchange) {lost : List Exchange} (hlate : ∀ x ∈ lost, late i x = false) :
    Asking fl p now outcomes late i lost.isEmpty (askAll (late i) (keepCall fl p now outcomes i) xs lost) := by
  induction xs generalizing lost with
  | nil => exact .keep List.isEmpty_iff.mp hlate
  | cons x xs ih =>
      unfold askAll
      split
      · exact ih hlate
      · refine .ask fun s => ?_
        by_cases hleft : 0 < s.left
        · simpa [hleft] using ih hlate
        · simp only [hleft, decide_false, Bool.and_false, Bool.false_or]
          split
          · exact (ih hlate).mono (fun hc => absurd hc Bool.false_ne_true)
          · rename_i hx
            have hlate' : ∀ y ∈ x :: lost, late i y = false :=
              List.forall_mem_cons.mpr ⟨Bool.eq_false_iff.mpr hx, hlate⟩
            split
            · exact .keep (fun hc => absurd hc Bool.false_ne_true) hlate'
            · exact (ih hlate').mono (fun hc => absurd hc Bool.false_ne_true)

theorem atMost_askAll (xs lost : List Exchange) :
    (askAll (late i) (keepCall fl p now outcomes i) xs lost).AtMost (xs.length + 1) := by
  have hkeep : ∀ n lost, (keepCall fl p now outcomes i lost).AtMost (n + 1) := fun n _ _ => by cases n <;> trivial
  induction xs generalizing lost with
  | nil => exact hkeep 0 lost
  | cons x xs ih =>
      unfold askAll
      split
      · exact (ih lost).mono (Nat.le_succ _)
      · intro s
        dsimp only
        split_ifs
        · exact ih lost
        · exact hkeep xs.length _
        · exact ih _

variable (fl p now outcomes late monitors) in
/-- The poll has come to what it comes to alone without some answers, none of which was lost before the context ended. -/
def Comes (i : Nat) (s : Round engines) (value : Option DatabaseMetric) : Prop :=
  ∃ lost : Exchange → Bool, (∀ x, lost x = true → s.left = 0 ∧ late i x = false) ∧
    value = some ((monitors i).collect fl p ((outcomes i).under lost) now).1 ∧
    s.monitors i = ((monitors i).collect fl p ((outcomes i).under lost) now).2

variable (fl p now outcomes late monitors) in
/-- What is so of the `i`-th goroutine. -/
def Standing (i : Nat) (s : Round engines) (r : Option DatabaseMetric) :
    Worker (RoundStmt engines) (Round engines) DatabaseMetric → Prop
  | .waiting => s.monitors i = monitors i
  | .working q =>
    (s.monitors i = monitors i ∧ ∃ clean, Asking fl p now outcomes late i clean q ∧ (0 < s.left → clean = true)) ∨
      ∃ a, q = .ret a ∧ Comes fl p now outcomes late monitors i s (some a)
  | .wrote | .released | .done => Comes fl p now outcomes late monitors i s r

theorem Comes.frame {value : Option DatabaseMetric} (h : Comes fl p now outcomes late monitors i s value)
    (hleft : s'.left ≤ s.left) (hmonitor : s'.monitors i = s.monitors i) :
      Comes fl p now outcomes late monitors i s' value := by
  obtain ⟨lost, hlost, hvalue, hkept⟩ := h
  exact ⟨lost, fun x hx => (hlost x hx).imp_left fun hzero => Nat.le_zero.mp (hleft.trans_eq hzero), hvalue,
    hmonitor.trans hkept⟩

theorem Standing.frame {r : Option DatabaseMetric} {x : Worker (RoundStmt engines) (Round engines) DatabaseMetric}
    (h : Standing fl p now outcomes late monitors i s r x) (hleft : s'.left ≤ s.left)
    (hmonitor : s'.monitors i = s.monitors i) : Standing fl p now outcomes late monitors i s' r x := by
  cases x with
  | waiting => exact hmonitor.trans h
  | working q =>
      rcases h with ⟨hsame, clean, hasking, hclean⟩ | ⟨a, hq, hcomes⟩
      · exact .inl ⟨hmonitor.trans hsame, clean, hasking, fun hpos => hclean (hpos.trans_le hleft)⟩
      · exact .inr ⟨a, hq, hcomes.frame hleft hmonitor⟩
  | wrote | released | done => exact Comes.frame h hleft hmonitor

/-- A goroutine counts an exchange off, or writes its own monitor. -/
theorem Standing.local {tasks : List (RoundCall engines)}
    (htasks : ∀ (i : Nat) q, tasks[i]? = some q → q = collectCall fl p now outcomes late i) :
    Fan.Local (serve fl p now) tasks (Standing fl p now outcomes late monitors) where
  launch {i} _ _ _ hq h := by
    obtain rfl := htasks i _ hq
    have hnone : ∀ x ∈ ([] : List Exchange), late i x = false := nofun
    exact .inl ⟨h, true, asking_askAll _ hnone, fun _ => rfl⟩
  move {i s r w k} h := by
    rcases h with ⟨hsame, clean, hasking, hclean⟩ | ⟨a, hq, -⟩
    · cases hasking with
      | ask hk =>
          refine .inl ⟨hsame, _, hk s, fun hpos => ?_⟩
          have hpos' : 0 < s.left := Nat.lt_of_lt_of_le hpos (Nat.sub_le _ _)
          simp [hclean hpos', hpos']
      | @keep _ lost hlost hlate =>
          refine .inr ⟨_, rfl, lost.contains, fun x hx => ⟨?_, hlate x (List.contains_iff_mem.mp hx)⟩, by rw [hsame], ?_⟩
          · by_contra hleft
            rw [hlost (hclean (Nat.pos_of_ne_zero hleft))] at hx
            cases hx
          · show Function.update s.monitors i _ i = _
            rw [Function.update_self, hsame]
    · cases hq
  frame {i j s r r' w k x} hji hj h := by
    rcases hj with ⟨-, clean, hasking, -⟩ | ⟨a, hq, -⟩
    · cases hasking with
      | ask _ => exact h.frame (Nat.sub_le _ _) rfl
      | keep _ _ => exact h.frame (le_refl _) (Function.update_of_ne (Ne.symm hji) _ _)
    · cases hq
  write h := by
    rcases h with ⟨-, clean, hasking, -⟩ | ⟨a, hq, hcomes⟩
    · cases hasking
    · cases hq
      exact hcomes
  release h := h
  finish h := h

/-- However the goroutines of `pollAll` interleave on `n` databases, and whenever the context ends: at most five polls have a
token, the run has at most `61 n + 2` steps and goes on until `pollAll` returns, and then each result and each monitor is that
of the database polled alone without the answers that came too late, of all answers if the context has not ended by then. -/
theorem pollAll_databases (n left : Nat) (monitors : ∀ i, Monitor (engines i)) {schedule : List (Option Nat)}
    {f : Fan (RoundStmt engines) (Round engines) DatabaseMetric}
    (hrun : (Fan.start ⟨left, monitors⟩).run (serve fl p now) dbPollConcurrency
      ((List.range n).map (collectCall fl p now outcomes late)) schedule = some f) :
    ∑ i ∈ Finset.range n, (f.workers i).holds ≤ dbPollConcurrency ∧ schedule.length ≤ 61 * n + 2 ∧
      (f.returned = false → ∃ e f', f.step (serve fl p now) dbPollConcurrency
        ((List.range n).map (collectCall fl p now outcomes late)) e = some f') ∧
      (f.returned = true → ∀ i, i < n → ∃ lost : Exchange → Bool,
        (∀ x, lost x = true → f.store.left = 0 ∧ late i x = false) ∧
        f.results i = some ((monitors i).collect fl p ((outcomes i).under lost) now).1 ∧
        f.store.monitors i = ((monitors i).collect fl p ((outcomes i).under lost) now).2) := by
  have htasks : ((List.range n).map (collectCall fl p now outcomes late)).length = n := by simp
  have hget : ∀ (i : Nat) q, ((List.range n).map (collectCall fl p now outcomes late))[i]? = some q →
      q = collectCall fl p now outcomes late i := by
    intro i q hq
    rw [List.getElem?_map, Option.map_eq_some_iff] at hq
    obtain ⟨j, hj, rfl⟩ := hq
    rw [List.getElem?_eq_some_iff] at hj
    obtain ⟨hlt, rfl⟩ := hj
    rw [List.getElem_range]
  have hcounts := Fan.counts_run (Round.mk left monitors) hrun
  have hlength := Fan.length_le (B := fun _ => 55) (fun i q hq => by
    obtain rfl := hget i q hq
    exact (atMost_askAll _ _).mono (Nat.succ_le_succ (length_exchanges_le _))) (Round.mk left monitors) hrun
  rw [htasks] at hcounts hlength
  refine ⟨hcounts.tokens ▸ hcounts.tokens_le, ?_, ?_, fun hreturned i hi => ?_⟩
  · rw [Fan.total, Finset.sum_const, Finset.card_range, smul_eq_mul] at hlength
    omega
  · rw [← htasks] at hcounts
    exact hcounts.not_stuck (by decide)
  · have hlocal : Fan.Local (serve fl p now) _ (Standing fl p now outcomes late monitors) := Standing.local hget
    exact hlocal.returned (s := Round.mk left monitors) (fun _ _ => rfl) hrun hreturned i (by rwa [htasks])

end Rounds

/-! ## Caches -/

def cacheMonitors (_ : Nat) : Monitor .redis := .start cacheDb []

/-- All of them answer. -/
def cacheOutcomes (_ : Nat) : Outcome .redis := .answered redisFields

/-- Two polls side by side, each with its four exchanges. -/
def twoCaches : List (Option Nat) :=
  [none, none, none, none] ++ [some 1, some 0, some 0, some 1, some 1, some 0, some 0, some 1] ++
    [some 1, some 1, some 0, some 0, some 1, some 1, some 0, some 0, none]

/-- The context outlasts them, so each comes to what it would alone. -/
theorem pollAll_databases_two : ∃ f : Fan (RoundStmt fun _ => .redis) (Round fun _ => .redis) DatabaseMetric,
    (Fan.start ⟨9, cacheMonitors⟩).run (serve .exact plain (noon 0)) dbPollConcurrency
      ((List.range 2).map (collectCall .exact plain (noon 0) cacheOutcomes fun _ _ => false)) twoCaches = some f ∧
    ∀ i, i < 2 → f.results i = some ((cacheMonitors i).collect .exact plain (cacheOutcomes i) (noon 0)).1 := by
  obtain ⟨f, hrun, hreturned, hleft⟩ :
      ∃ f : Fan (RoundStmt fun _ => .redis) (Round fun _ => .redis) DatabaseMetric,
        (Fan.start ⟨9, cacheMonitors⟩).run (serve .exact plain (noon 0)) dbPollConcurrency
          ((List.range 2).map (collectCall .exact plain (noon 0) cacheOutcomes fun _ _ => false)) twoCaches = some f ∧
        f.returned = true ∧ f.store.left = 1 := ⟨_, rfl, rfl, rfl⟩
  obtain ⟨-, -, -, hall⟩ := pollAll_databases 2 9 cacheMonitors hrun
  refine ⟨f, hrun, fun i hi => ?_⟩
  obtain ⟨lost, hlost, hresult, -⟩ := hall hreturned i hi
  have hnone : ∀ x, lost x = false := by
    intro x
    by_contra hx
    have hzero := (hlost x (Bool.eq_true_of_not_eq_false hx)).1
    omega
  rwa [under_none _ hnone] at hresult

/-- Five caches answer the ping and hang until the context ends, and a sixth waits for a token until then. -/
def sixCaches : List (Option Nat) :=
  List.replicate 11 none ++ (List.range 5).map some ++ ((List.range 5).map some).flatMap (List.replicate 5) ++ none ::
    List.replicate 5 (some 5) ++ [none]

/-- The sixth would have answered, and is reported as unreachable. -/
theorem pollAll_databases_starved : ∃ f : Fan (RoundStmt fun _ => .redis) (Round fun _ => .redis) DatabaseMetric,
    (Fan.start ⟨5, cacheMonitors⟩).run (serve .exact plain (noon 0)) dbPollConcurrency
      ((List.range 6).map (collectCall .exact plain (noon 0) cacheOutcomes fun _ _ => false)) sixCaches = some f ∧
    f.returned = true ∧ (f.results 5).map DatabaseMetric.reachable = some false ∧
    ((cacheMonitors 5).collect .exact plain (cacheOutcomes 5) (noon 0)).1.reachable = true :=
  ⟨_, rfl, rfl, rfl, rfl⟩

end IkelyaneMonitor.Agent.Db
