import IkelyaneMonitor.Interleave.FanOut
import IkelyaneMonitor.Agent.SnmpRates

/-!
# All devices at once (`pollAll` of `snmpState` in `agent/cmd/ikelyane-agent/main.go`)

* `pollCall` : `Poll` as the uses it makes of the counters that all devices share (`swapPrev`, under a lock), `eval_pollCall`;
* `pollInTurn` : the devices one after another; `pollAll_snmp` : the goroutines end, ten at most have a token, and they
  report and leave what the devices do in turn.
-/

namespace IkelyaneMonitor.Agent.Snmp
open Interleave Wire

def snmpPollConcurrency : Nat := 10

section Devices
variable (fl : Rounding) (toBigInt : Value → Option Int) (gosnmp : Params → Session) (now : Instant)

/-- `swapPrev`, as a statement: the key and what is stored under it. -/
def swapPrev (w : String × IfState) (prev : Prev) : Prev := (prev.swap w.1 w.2).2

/-- `toInterface` of each row, with the counters it finds. -/
def interfacesCall (deviceIP : String) :
    List IfRow → (List SnmpInterface → Prog (String × IfState) Prev SnmpDevice) → Prog (String × IfState) Prev SnmpDevice
  | [], k => k []
  | r :: rows, k => .stmt (interfaceKey deviceIP r.index, r.state now.nanos) fun prev =>
      interfacesCall deviceIP rows fun interfaces => k ((toInterface fl deviceIP r now prev).1 :: interfaces)

/-- The rows that a poll of the device goes through. -/
def polledRows (x : Device × MapOrder) : List IfRow :=
  match buildParams x.1 with
  | .error _ => []
  | .ok params =>
      match gosnmp params with
      | .connectFailed | .getFailed => []
      | .answered a => x.2.visit (ifRows toBigInt a)

def pollCall (x : Device × MapOrder) : Prog (String × IfState) Prev SnmpDevice :=
  let failed : SnmpDevice := ⟨now.format, unreachable x.1, none⟩
  match buildParams x.1 with
  | .error _ => .ret failed
  | .ok params =>
      match gosnmp params with
      | .connectFailed => .ret failed
      | .getFailed => .ret failed
      | .answered a => interfacesCall fl now x.1.ipAddress (x.2.visit (ifRows toBigInt a)) fun interfaces =>
          .ret ⟨now.format, reachable fl toBigInt x.1 a, some interfaces⟩

/-- The devices one after another, each with the order in which its rows are visited. -/
def pollInTurn : List (Device × MapOrder) → Prev → List SnmpDevice × Prev
  | [], prev => ([], prev)
  | x :: devices, prev =>
      let one := poll fl toBigInt x.2 gosnmp x.1 now prev
      let rest := pollInTurn devices one.2
      (one.1 :: rest.1, rest.2)

variable {fl toBigInt gosnmp now}

theorem toInterface_snd (deviceIP : String) (r : IfRow) (prev : Prev) : (toInterface fl deviceIP r now prev).2 =
    swapPrev (interfaceKey deviceIP r.index, r.state now.nanos) prev := toInterface_prev

theorem eval_interfacesCall (deviceIP : String) (rows : List IfRow)
    (k : List SnmpInterface → Prog (String × IfState) Prev SnmpDevice) (prev : Prev) :
    (interfacesCall fl now deviceIP rows k).eval swapPrev prev =
      (k (toInterfaces fl deviceIP now rows prev).1).eval swapPrev (toInterfaces fl deviceIP now rows prev).2 := by
  induction rows generalizing prev k with
  | nil => rfl
  | cons r rows ih =>
      rw [interfacesCall, Prog.eval, ih, toInterfaces, toInterface_snd]

/-- Alone it is `Poll`. -/
theorem eval_pollCall (x : Device × MapOrder) (prev : Prev) : (pollCall fl toBigInt gosnmp now x).eval swapPrev prev =
    poll fl toBigInt x.2 gosnmp x.1 now prev := by
  unfold pollCall poll
  cases buildParams x.1 with
  | error e => rfl
  | ok params =>
      dsimp only
      cases gosnmp params with
      | connectFailed => rfl
      | getFailed => rfl
      | answered a => exact eval_interfacesCall _ _ _ _

theorem evalAll_pollCall (devices : List (Device × MapOrder)) (prev : Prev) :
    Fan.evalAll swapPrev (devices.map (pollCall fl toBigInt gosnmp now)) prev =
      pollInTurn fl toBigInt gosnmp now devices prev := by
  induction devices generalizing prev with
  | nil => rfl
  | cons x devices ih => rw [List.map_cons, Fan.evalAll, pollInTurn, eval_pollCall, ih]

/-- The keys of the device's interfaces. -/
def KeysOf (deviceIP : String) (key : String) : Prop := ∃ index, key = interfaceKey deviceIP index

theorem within_interfacesCall (deviceIP : String) (rows : List IfRow)
    {k : List SnmpInterface → Prog (String × IfState) Prev SnmpDevice} (hk : ∀ is, (k is).Within swapPrev (KeysOf deviceIP)) :
    (interfacesCall fl now deviceIP rows k).Within swapPrev (KeysOf deviceIP) := by
  induction rows generalizing k with
  | nil => exact hk []
  | cons r rows ih =>
      refine ⟨fun s t hst => ⟨?_, fun key hkey => ?_⟩, fun s key hkey => ?_, fun s => ih fun is => hk _⟩
      · dsimp only
        rw [toInterface_congr (hst _ ⟨r.index, rfl⟩)]
      · show (if key = interfaceKey deviceIP r.index then _ else s key) =
          if key = interfaceKey deviceIP r.index then _ else t key
        rw [hst key hkey]
      · exact if_neg fun heq => hkey ⟨r.index, heq⟩

theorem within_pollCall (x : Device × MapOrder) :
    (pollCall fl toBigInt gosnmp now x).Within swapPrev (KeysOf x.1.ipAddress) := by
  unfold pollCall
  cases buildParams x.1 with
  | error e => trivial
  | ok params =>
      dsimp only
      cases gosnmp params with
      | connectFailed => trivial
      | getFailed => trivial
      | answered a => exact within_interfacesCall _ _ fun _ => trivial

theorem atMost_interfacesCall (deviceIP : String) (rows : List IfRow)
    {k : List SnmpInterface → Prog (String × IfState) Prev SnmpDevice} (hk : ∀ is, (k is).AtMost 0) :
    (interfacesCall fl now deviceIP rows k).AtMost rows.length := by
  induction rows generalizing k with
  | nil => exact hk []
  | cons r rows ih => exact fun prev => ih fun is => hk _

theorem atMost_pollCall (x : Device × MapOrder) :
    (pollCall fl toBigInt gosnmp now x).AtMost (polledRows toBigInt gosnmp x).length := by
  unfold pollCall polledRows
  cases buildParams x.1 with
  | error e => trivial
  | ok params =>
      dsimp only
      cases gosnmp params with
      | connectFailed => trivial
      | getFailed => trivial
      | answered a => exact atMost_interfacesCall _ _ fun _ => trivial

/-- However the goroutines of `pollAll` interleave on devices with addresses of their own: at most ten poll at a time, the run
is no longer than the devices and their rows allow, it goes on until `pollAll` returns, and then the results and the counters
are those of the devices polled in turn. -/
theorem pollAll_snmp (devices : List (Device × MapOrder)) (hnodup : (devices.map fun x => x.1.ipAddress).Nodup) (prev : Prev)
    {schedule : List (Option Nat)} {f : Fan (String × IfState) Prev SnmpDevice}
    (hrun : (Fan.start prev).run swapPrev snmpPollConcurrency (devices.map (pollCall fl toBigInt gosnmp now)) schedule =
      some f) :
    ∑ i ∈ Finset.range devices.length, (f.workers i).holds ≤ snmpPollConcurrency ∧
      schedule.length ≤ Fan.total devices.length (fun i => ((devices[i]?).elim [] (polledRows toBigInt gosnmp)).length) ∧
      (f.returned = false → ∃ e f',
        f.step swapPrev snmpPollConcurrency (devices.map (pollCall fl toBigInt gosnmp now)) e = some f') ∧
      (f.returned = true →
        (List.range devices.length).map f.results = (pollInTurn fl toBigInt gosnmp now devices prev).1.map some ∧
        f.store = (pollInTurn fl toBigInt gosnmp now devices prev).2) := by
  have htasks : (devices.map (pollCall fl toBigInt gosnmp now)).length = devices.length := List.length_map _
  have hcounts := Fan.counts_run prev hrun
  have hget : ∀ (i : Nat) p, (devices.map (pollCall fl toBigInt gosnmp now))[i]? = some p →
      ∃ x, devices[i]? = some x ∧ p = pollCall fl toBigInt gosnmp now x := by
    intro i p hp
    rw [List.getElem?_map, Option.map_eq_some_iff] at hp
    obtain ⟨x, hx, rfl⟩ := hp
    exact ⟨x, hx, rfl⟩
  rw [htasks] at hcounts
  refine ⟨hcounts.tokens ▸ hcounts.tokens_le, ?_, ?_, fun hreturned => ?_⟩
  · rw [← htasks]
    refine Fan.length_le (fun i p hp => ?_) prev hrun
    obtain ⟨x, hx, rfl⟩ := hget i p hp
    rw [hx]
    exact atMost_pollCall x
  · rw [← htasks] at hcounts
    exact hcounts.not_stuck (by decide)
  · have hapart : Fan.Apart (devices.map (pollCall fl toBigInt gosnmp now)).length
        fun (i : Nat) key => ∃ x, devices[i]? = some x ∧ KeysOf x.1.ipAddress key := by
      rintro i j - - hij key ⟨x, hx, index, rfl⟩ ⟨y, hy, index', hkey⟩
      obtain ⟨hip, -⟩ := interfaceKey_injective hkey
      have hi : (devices.map fun x => x.1.ipAddress)[i]? = some x.1.ipAddress := by
        rw [List.getElem?_map, hx, Option.map_some]
      have hj : (devices.map fun x => x.1.ipAddress)[j]? = some x.1.ipAddress := by
        rw [List.getElem?_map, hy, Option.map_some, hip]
      exact hij ((List.getElem?_inj (List.getElem?_eq_some_iff.mp hi).1 hnodup).mp (hi.trans hj.symm))
    have hwithin : ∀ (i : Nat) p, (devices.map (pollCall fl toBigInt gosnmp now))[i]? = some p →
        p.Within swapPrev fun key => ∃ x, devices[i]? = some x ∧ KeysOf x.1.ipAddress key := by
      intro i p hp
      obtain ⟨x, hx, rfl⟩ := hget i p hp
      have hkeys : (fun key => ∃ y, devices[i]? = some y ∧ KeysOf y.1.ipAddress key) = KeysOf x.1.ipAddress := by
        funext key
        rw [hx]
        simp
      rw [hkeys]
      exact within_pollCall x
    obtain ⟨hresults, hstore⟩ := Fan.eq_evalAll hapart hwithin prev hrun hreturned
    rw [evalAll_pollCall] at hresults hstore
    rw [htasks] at hresults
    exact ⟨hresults, hstore⟩

end Devices

/-- Two devices, the first of which was polled a minute before. -/
def twoDevices : List (Device × MapOrder) :=
  [(accessSwitch, firstSeen), ({ accessSwitch with id := "s2", ipAddress := "10.0.0.8" }, firstSeen)]

def polledBefore : Prev := prevAfter numbers firstSeen [portPoll 0 1000000000 true]

/-- Both answer with what a port has received by then. -/
def laterAnswers : Params → Session := (portPoll 1 1000600000 true).gosnmp

/-- Both are polled at the same time, and the second is the first to exchange its counters. -/
def sideBySide : List (Option Nat) :=
  [none, none, none, none, some 1, some 0, some 0, some 1, some 1, some 0, some 0, some 1, none]

theorem pollAll_snmp_two : ∃ f, (Fan.start (α := SnmpDevice) polledBefore).run swapPrev snmpPollConcurrency
      (twoDevices.map (pollCall .exact numbers laterAnswers (noon 1))) sideBySide = some f ∧
    (List.range 2).map f.results = (pollInTurn .exact numbers laterAnswers (noon 1) twoDevices polledBefore).1.map some ∧
    f.store = (pollInTurn .exact numbers laterAnswers (noon 1) twoDevices polledBefore).2 ∧
    (f.results 0).map SnmpDevice.interfaces = some (some [reported 80000]) := by
  obtain ⟨f, hrun, hreturned⟩ : ∃ f, (Fan.start (α := SnmpDevice) polledBefore).run swapPrev snmpPollConcurrency
      (twoDevices.map (pollCall .exact numbers laterAnswers (noon 1))) sideBySide = some f ∧ f.returned = true :=
    ⟨_, rfl, rfl⟩
  obtain ⟨-, -, -, hall⟩ := pollAll_snmp twoDevices (by decide) _ hrun
  obtain ⟨hresults, hstore⟩ := hall hreturned
  have hone : (pollInTurn .exact numbers laterAnswers (noon 1) twoDevices polledBefore).1[0]?.map SnmpDevice.interfaces =
      some (some [reported 80000]) := by decide +kernel
  obtain ⟨first, hfirst, hports⟩ := Option.map_eq_some_iff.mp hone
  have hget : some (f.results 0) =
    ((pollInTurn .exact numbers laterAnswers (noon 1) twoDevices polledBefore).1.map some)[0]? :=
    congrArg (fun l : List (Option SnmpDevice) => l[0]?) hresults
  rw [List.getElem?_map, hfirst] at hget
  refine ⟨f, hrun, hresults, hstore, ?_⟩
  rw [Option.some.inj hget, Option.map_some, hports]

end IkelyaneMonitor.Agent.Snmp
