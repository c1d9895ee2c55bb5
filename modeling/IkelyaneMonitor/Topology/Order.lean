import IkelyaneMonitor.Topology.Graph

/-!
# What the order of the edges changes

* `reach_perm`, `rootCauseCandidates_perm` : the nodes found stay the same, the candidates even their order;
* `exists_perm_first` : any node can come first among those at its distance;
* `take_order_iff` : the first nodes of a kind are the same for every order of the edges just when no two of the kind are
  equally far, as long as the list has room.
-/

namespace IkelyaneMonitor.Topology
open BreadthFirst (AtDistance level found)
open Replay (members members_groupBy)

variable {α : Type} [DecidableEq α] {edges edges' : List (DependencyEdge α)} {side : EdgeEnd} {start : α}

theorem mem_members_perm (h : edges'.Perm edges) (side : EdgeEnd) (a b : α) :
    b ∈ members (buildIndex edges' side) a ↔ b ∈ members (buildIndex edges side) a := by
  rw [mem_members, mem_members]
  simp only [h.mem_iff]

theorem reach_perm (h : edges'.Perm edges) (side : EdgeEnd) (start : α) :
    (reach start (buildIndex edges' side)).Perm (reach start (buildIndex edges side)) := by
  refine (List.perm_ext_iff_of_nodup (nodup_reach _ _) (nodup_reach _ _)).mpr fun x => ?_
  rw [mem_reach, mem_reach]
  unfold BreadthFirst.Reaches
  simp only [mem_members_perm h]

/-! ## Sorted lists -/

section Sorted
omit [DecidableEq α]

/-- A sorted list has one order. -/
theorem Collation.mergeSort_eq (c : Collation α) {l l' : List α} (h : l'.Perm l) : l'.mergeSort c.le = l.mergeSort c.le := by
  have hsorted : ∀ l : List α, (l.mergeSort c.le).Pairwise fun a b => c.le a b = true :=
    List.pairwise_mergeSort c.trans c.total
  exact List.Perm.eq_of_pairwise (fun a b _ _ => c.antisymm a b) (hsorted l') (hsorted l)
    ((List.mergeSort_perm _ _).trans (h.trans (List.mergeSort_perm _ _).symm))

/-- By the key first, and by the text where keys are equal. -/
def Collation.lex {κ : Type} [LinearOrder κ] (c : Collation α) : Collation (κ × α) where
  le := fun a b => decide (a.1 < b.1) || (decide (a.1 = b.1) && c.le a.2 b.2)
  total := by
    intro a b
    rcases lt_trichotomy a.1 b.1 with hlt | heq | hlt
    · simp [hlt]
    · simpa [heq] using c.total a.2 b.2
    · simp [hlt]
  trans := by
    intro a b d hab hbd
    simp only [Bool.or_eq_true, Bool.and_eq_true, decide_eq_true_eq] at hab hbd ⊢
    rcases hab with hab | ⟨hab, hle⟩
    · rcases hbd with hbd | ⟨hbd, -⟩
      · exact .inl (hab.trans hbd)
      · exact .inl (hbd ▸ hab)
    · rcases hbd with hbd | ⟨hbd, hle'⟩
      · exact .inl (hab ▸ hbd)
      · exact .inr ⟨hab.trans hbd, c.trans _ _ _ hle hle'⟩
  antisymm := by
    intro a b hab hba
    simp only [Bool.or_eq_true, Bool.and_eq_true, decide_eq_true_eq] at hab hba
    have heq : a.1 = b.1 := by
      rcases hab with hab | hab
      · rcases hba with hba | hba
        · exact absurd hab (lt_asymm hba)
        · exact hba.1.symm
      · exact hab.1
    refine Prod.ext heq (c.antisymm _ _ ?_ ?_)
    · exact (hab.resolve_left (heq ▸ lt_irrefl _)).2
    · exact (hba.resolve_left (heq ▸ lt_irrefl _)).2

end Sorted

/-- A larger radius comes first. -/
def candidateKey (a : α × Nat) : Natᵒᵈ × α := (OrderDual.toDual a.2, a.1)

/-- The candidates come in one order, whatever that of the edges and of the nodes. -/
theorem rootCauseCandidates_perm (localeCompare : Collation α) (h : edges'.Perm edges) {unhealthy unhealthy' : List α}
    (hunhealthy : unhealthy'.Perm unhealthy) :
    rootCauseCandidates localeCompare edges' unhealthy' = rootCauseCandidates localeCompare edges unhealthy := by
  have hsort : ∀ l : List (α × Nat), (l.mergeSort (candidateLe localeCompare)).map Prod.fst =
      ((l.map candidateKey).mergeSort localeCompare.lex.le).map Prod.snd := by
    intro l
    rw [← List.map_mergeSort (r := candidateLe localeCompare) fun a _ b _ => ?_, List.map_map]
    · rfl
    · simp only [candidateLe, candidateKey, Collation.lex, OrderDual.toDual_lt_toDual, OrderDual.toDual_inj, eq_comm]
  have hradius : ∀ node, (blastRadius edges' node).length = (blastRadius edges node).length :=
    fun node => (reach_perm h .child node).length_eq
  have hfilter : (unhealthy'.filter fun node => !(members (buildIndex edges' .parent) node).any fun dep =>
      decide (dep ∈ unhealthy')) = unhealthy'.filter fun node => !(members (buildIndex edges .parent) node).any fun dep =>
        decide (dep ∈ unhealthy) := by
    refine List.filter_congr fun node _ => ?_
    rw [Bool.eq_iff_iff, Bool.not_eq_true', Bool.not_eq_true', List.any_eq_false, List.any_eq_false]
    simp only [mem_members_perm h, hunhealthy.mem_iff]
  unfold rootCauseCandidates
  dsimp only
  rw [hsort, hsort, hfilter]
  simp only [hradius]
  exact congrArg (List.map Prod.snd) (Collation.mergeSort_eq _ (((hunhealthy.filter _).map _).map _))

/-! ## First among equals -/

/-- The edge that leads from `a` to `b` when it is followed from its `side`. -/
def edgeFrom (side : EdgeEnd) (a b : α) : DependencyEdge α :=
  match side with
  | .parent => ⟨a, b⟩
  | .child => ⟨b, a⟩

omit [DecidableEq α] in
@[simp] theorem get_edgeFrom (side : EdgeEnd) (a b : α) : (edgeFrom side a b).get side = a := by cases side <;> rfl

omit [DecidableEq α] in
@[simp] theorem get_other_edgeFrom (side : EdgeEnd) (a b : α) : (edgeFrom side a b).get side.other = b := by
  cases side <;> rfl

theorem edgeFrom_mem {a b : α} (h : b ∈ members (buildIndex edges side) a) : edgeFrom side a b ∈ edges := by
  obtain ⟨edge, hedge, rfl, rfl⟩ := mem_members.mp h
  cases side <;> exact hedge

/-- With the edges of a shortest walk in front, the node it leads to is the first at its distance. -/
theorem exists_perm_first {k : Nat} {x : α} (h : AtDistance (members (buildIndex edges side)) k start x) :
    ∃ edges', edges'.Perm edges ∧ (level (members (buildIndex edges' side)) start k).head? = some x := by
  obtain ⟨f, rfl, hnext, hat⟩ := h.exists_nodes
  have hinj : ∀ i < k, ∀ j < k, f i = f j → i = j := fun i hi j hj heq =>
    (hat i (Nat.le_of_lt hi)).unique (heq ▸ hat j (Nat.le_of_lt hj))
  let steps := (List.range k).map fun i => edgeFrom side (f i) (f (i + 1))
  have hnodup : steps.Nodup := by
    refine List.Nodup.map_on (fun i hi j hj heq => ?_) List.nodup_range
    have hget := congrArg (DependencyEdge.get · side) heq
    simp only [get_edgeFrom] at hget
    exact hinj i (List.mem_range.mp hi) j (List.mem_range.mp hj) hget
  have hsubset : steps ⊆ edges := by
    intro e he
    obtain ⟨i, hi, rfl⟩ := List.mem_map.mp he
    exact edgeFrom_mem (hnext i (List.mem_range.mp hi))
  obtain ⟨steps', hperm, hsub⟩ := hnodup.subperm hsubset
  obtain ⟨rest, hrest⟩ := hsub.exists_perm_append
  have hedges : (steps ++ rest).Perm edges := ((hperm.symm.append_right rest).trans hrest.symm)
  refine ⟨steps ++ rest, hedges, BreadthFirst.head_level (fun i hi => ?_) fun i hi => ?_⟩
  · exact (BreadthFirst.atDistance_congr (mem_members_perm hedges side)).mpr (hat i hi)
  · -- of the steps, only this one starts where it does
    have honly : steps.filter (fun e => e.get side = f i) = [edgeFrom side (f i) (f (i + 1))] := by
      refine List.perm_singleton.mp ((List.perm_ext_iff_of_nodup (hnodup.filter _) (List.nodup_singleton _)).mpr fun e => ?_)
      rw [List.mem_filter, decide_eq_true_eq, List.mem_singleton]
      constructor
      · rintro ⟨he, hget⟩
        obtain ⟨j, hj, rfl⟩ := List.mem_map.mp he
        rw [get_edgeFrom] at hget
        rw [hinj j (List.mem_range.mp hj) i hi hget]
      · rintro rfl
        exact ⟨List.mem_map.mpr ⟨i, List.mem_range.mpr hi, rfl⟩, get_edgeFrom _ _ _⟩
    unfold buildIndex
    rw [members_groupBy, List.filter_append, honly]
    simp

/-! ## The first nodes of a kind -/

section Take
variable (edges side start) (kind : α → Bool)

/-- Fewer than `n` nodes of the kind are nearer. -/
def FewerNearer (n k : Nat) : Prop :=
  ∀ nodes : List α, nodes.Nodup →
    (∀ z ∈ nodes, z ≠ start ∧ kind z = true ∧ ∃ j < k, AtDistance (members (buildIndex edges side)) j start z) →
    nodes.length < n

/-- While fewer than `n` nodes of the kind are nearer, no two of them are equally far. -/
def OneAtEachDistance (n : Nat) : Prop :=
  ∀ k x y, x ≠ start → y ≠ start → kind x = true → kind y = true →
    AtDistance (members (buildIndex edges side)) k start x → AtDistance (members (buildIndex edges side)) k start y →
    FewerNearer edges side start kind n k → x = y

variable {edges side start kind}

/-- The walk up to a distance that is far enough. -/
theorem reach_eq_found {n : Nat} (h : ((buildIndex edges side).flatMap Prod.snd).length ≤ n) :
    reach start (buildIndex edges side) = found (members (buildIndex edges side)) start n := by
  obtain ⟨d, rfl⟩ := Nat.exists_eq_add_of_le h
  rw [reach_eq]
  exact (BreadthFirst.found_add _ _
    (BreadthFirst.level_eq_nil_of_lt (Replay.members_subset _) (Nat.lt_succ_self _)) d).symm

theorem found_perm (h : edges'.Perm edges) (side : EdgeEnd) (start : α) (k : Nat) :
    (found (members (buildIndex edges' side)) start k).Perm (found (members (buildIndex edges side)) start k) := by
  induction k with
  | zero => exact List.Perm.refl _
  | succ k ih =>
      rw [BreadthFirst.found_succ, BreadthFirst.found_succ]
      exact ih.append (BreadthFirst.level_perm (mem_members_perm h side) (k + 1))

theorem mem_found {k : Nat} {z : α} : z ∈ found (members (buildIndex edges side)) start k ↔
    z ≠ start ∧ ∃ j < k + 1, AtDistance (members (buildIndex edges side)) j start z := by
  unfold found
  simp only [List.mem_flatMap, List.mem_range, BreadthFirst.mem_level]
  constructor
  · rintro ⟨i, hi, hat⟩
    refine ⟨?_, i + 1, by omega, hat⟩
    rintro rfl
    exact hat.2 0 (Nat.succ_pos i) (.nil z)
  · rintro ⟨hne, j, hj, hat⟩
    cases j with
    | zero =>
        cases hat.1
        exact absurd rfl hne
    | succ j => exact ⟨j, by omega, hat⟩

theorem fewerNearer_iff {n k : Nat} : FewerNearer edges side start kind n (k + 1) ↔
    ((found (members (buildIndex edges side)) start k).filter kind).length < n := by
  constructor
  · intro h
    refine h _ ((BreadthFirst.nodup_found k).filter kind) fun z hz => ?_
    obtain ⟨hfound, hkind⟩ := List.mem_filter.mp hz
    obtain ⟨hne, hnear⟩ := mem_found.mp hfound
    exact ⟨hne, hkind, hnear⟩
  · intro h nodes hnodup hnodes
    refine Nat.lt_of_le_of_lt (List.Nodup.subperm hnodup fun z hz => ?_).length_le h
    obtain ⟨hne, hkind, hnear⟩ := hnodes z hz
    exact List.mem_filter.mpr ⟨mem_found.mpr ⟨hne, hnear⟩, hkind⟩

/-- At its distance, behind the nearer nodes of the kind, stands whichever node comes first. -/
theorem getElem?_of_first {k : Nat} {x : α} (hkind : kind x = true)
    (hfirst : (level (members (buildIndex edges side)) start (k + 1)).head? = some x) :
    ((reach start (buildIndex edges side)).filter kind)[((found (members (buildIndex edges side)) start k).filter
      kind).length]? = some x := by
  obtain ⟨rest, hrest⟩ := List.head?_eq_some_iff.mp hfirst
  have hlong : ∃ tail, reach start (buildIndex edges side) =
      found (members (buildIndex edges side)) start (k + 1) ++ tail := by
    by_cases hsize : ((buildIndex edges side).flatMap Prod.snd).length ≤ k + 1
    · exact ⟨[], by rw [reach_eq_found hsize, List.append_nil]⟩
    · obtain ⟨d, hd⟩ := Nat.exists_eq_add_of_le (Nat.le_of_not_le hsize)
      rw [reach_eq_found (Nat.le_refl _), hd]
      unfold found
      rw [List.range_add, List.flatMap_append]
      exact ⟨_, rfl⟩
  obtain ⟨tail, htail⟩ := hlong
  rw [htail, BreadthFirst.found_succ, hrest, List.filter_append, List.filter_append, List.filter_cons_of_pos hkind,
    List.append_assoc, List.getElem?_append_right (Nat.le_refl _), Nat.sub_self]
  rfl

/-- While there is room, a level holds at most one node of the kind. -/
theorem level_filter_eq {n k : Nat} (h : OneAtEachDistance edges side start kind n) (hperm : edges'.Perm edges)
    (hroom : ((found (members (buildIndex edges side)) start k).filter kind).length < n) :
    (level (members (buildIndex edges' side)) start (k + 1)).filter kind =
      (level (members (buildIndex edges side)) start (k + 1)).filter kind := by
  have hlevel : ((level (members (buildIndex edges' side)) start (k + 1)).filter kind).Perm
      ((level (members (buildIndex edges side)) start (k + 1)).filter kind) :=
    (BreadthFirst.level_perm (mem_members_perm hperm side) (k + 1)).filter kind
  have hnodup := (BreadthFirst.nodup_level (members (buildIndex edges side)) start (k + 1)).filter kind
  have hmem : ∀ z ∈ (level (members (buildIndex edges side)) start (k + 1)).filter kind,
      z ≠ start ∧ kind z = true ∧ AtDistance (members (buildIndex edges side)) (k + 1) start z := by
    intro z hz
    obtain ⟨hz, hkz⟩ := List.mem_filter.mp hz
    have hat := BreadthFirst.mem_level.mp hz
    refine ⟨?_, hkz, hat⟩
    rintro rfl
    exact hat.2 0 (Nat.succ_pos k) (.nil z)
  cases hcase : (level (members (buildIndex edges side)) start (k + 1)).filter kind with
  | nil =>
      rw [hcase] at hlevel
      exact List.perm_nil.mp hlevel
  | cons x rest =>
      rw [hcase] at hlevel hnodup hmem
      have hrest : rest = [] := by
        refine List.eq_nil_iff_forall_not_mem.mpr fun y hy => ?_
        obtain ⟨hx, hkx, hatx⟩ := hmem x List.mem_cons_self
        obtain ⟨hy', hky, haty⟩ := hmem y (List.mem_cons_of_mem _ hy)
        have heq := h (k + 1) x y hx hy' hkx hky hatx haty (fewerNearer_iff.mpr hroom)
        exact (List.nodup_cons.mp hnodup).1 (heq ▸ hy)
      rw [hrest] at hlevel ⊢
      exact List.perm_singleton.mp hlevel

/-- The same first nodes of the kind in every order of the edges. -/
theorem take_order_iff {n : Nat} :
    (∀ edges', edges'.Perm edges → ((reach start (buildIndex edges' side)).filter kind).take n =
      ((reach start (buildIndex edges side)).filter kind).take n) ↔ OneAtEachDistance edges side start kind n := by
  constructor
  · intro h k x y hx hy hkx hky hatx haty hfewer
    cases k with
    | zero =>
        cases hatx.1
        exact absurd rfl hx
    | succ k =>
        rw [fewerNearer_iff] at hfewer
        have hplace : ∀ z, kind z = true → AtDistance (members (buildIndex edges side)) (k + 1) start z →
            (((reach start (buildIndex edges side)).filter kind).take n)[((found (members (buildIndex edges side)) start
              k).filter kind).length]? = some z := by
          intro z hkz hatz
          obtain ⟨edges', hperm, hfirst⟩ := exists_perm_first hatz
          have hget := getElem?_of_first hkz hfirst
          rw [((found_perm hperm side start k).filter kind).length_eq] at hget
          rw [← h edges' hperm, List.getElem?_take_of_lt hfewer]
          exact hget
        exact Option.some.inj ((hplace x hkx hatx).symm.trans (hplace y hky haty))
  · intro h edges' hperm
    have hfound : ∀ k, ((found (members (buildIndex edges' side)) start k).filter kind).take n =
        ((found (members (buildIndex edges side)) start k).filter kind).take n := by
      intro k
      induction k with
      | zero => rfl
      | succ k ih =>
          have hlen := ((found_perm hperm side start k).filter kind).length_eq
          rw [BreadthFirst.found_succ, BreadthFirst.found_succ, List.filter_append, List.filter_append]
          by_cases hfull : n ≤ ((found (members (buildIndex edges side)) start k).filter kind).length
          · rw [List.take_append_of_le_length (hlen ▸ hfull), List.take_append_of_le_length hfull, ih]
          · rw [List.take_of_length_le (by omega), List.take_of_length_le (by omega)] at ih
            have hone := level_filter_eq h hperm (Nat.lt_of_not_le hfull)
            rw [ih, hone]
    have hsame := hfound (((buildIndex edges' side).flatMap Prod.snd).length + ((buildIndex edges side).flatMap
      Prod.snd).length)
    rwa [← reach_eq_found (Nat.le_add_right _ _), ← reach_eq_found (Nat.le_add_left _ _)] at hsame

end Take

end IkelyaneMonitor.Topology
