import Mathlib

/-!
# Depth-first walks that find the edges of cycles

A walk with an explicit stack over any directed multigraph, given by the edges out of each node and the end of each edge.

* `Search`, `Search.step`, `Search.visit`, `search` : the walk, from each of a list of roots that it has not met; an edge
  to a node still open is a back edge;
* `Closed` : every node of a list has the ends of its other edges later in the list; `Frames` : what the open nodes of the
  stack still owe; `Search.Good` : the invariant of the walk;
* `step_good`, `budget_step` : what one step does to it, and to the steps that are left;
* `search_good` : every root is met; `kept_irrefl` : without its back edges the graph has no cycle; `back_on_cycle` : every
  back edge was on one.
-/

namespace DepthFirst

inductive Mark where
  | opened | done
  deriving DecidableEq

/-- The marks, the stack with the next edge of each node (the top first), and the back edges so far. -/
structure Search (α ε : Type) where
  state : α → Option Mark
  stack : List (α × Nat)
  back : List ε

section Walk
variable {α ε : Type} [DecidableEq α] (out : α → List ε) (child : ε → α)

def Search.step (s : Search α ε) : Search α ε :=
  match s.stack with
  | [] => s
  | (node, next) :: below =>
      match (out node)[next]? with
      | none => { s with state := Function.update s.state node (some .done), stack := below }
      | some edge =>
          match s.state (child edge) with
          | some .opened => { s with stack := (node, next + 1) :: below, back := s.back ++ [edge] }
          | some .done => { s with stack := (node, next + 1) :: below }
          | none =>
              { s with
                state := Function.update s.state (child edge) (some .opened)
                stack := (child edge, 0) :: (node, next + 1) :: below }

/-- The walk from a root, of so many steps. -/
def Search.visit (fuel : Nat) (s : Search α ε) (root : α) : Search α ε :=
  if (s.state root).isSome then s
  else (Search.step out child)^[fuel] { s with state := Function.update s.state root (some .opened), stack := [(root, 0)] }

def search (fuel : Nat) (roots : List α) : Search α ε :=
  roots.foldl (Search.visit out child fuel) ⟨fun _ => none, [], []⟩

end Walk

/-! ## The invariant -/

section Invariant
variable {α ε : Type} (out : α → List ε) (child : ε → α)

/-- Some edge leads from `a` to `b`. -/
def Edge (a b : α) : Prop := ∃ e ∈ out a, child e = b

/-- Some edge that is no back edge does. -/
def Kept (back : List ε) (a b : α) : Prop := ∃ e ∈ out a, e ∉ back ∧ child e = b

/-- The nodes in the order they were done, the last one first: each leads to earlier ones only. -/
def Closed (back : List ε) : List α → Prop
  | [] => True
  | a :: rest => (∀ b, Kept out child back a b → b ∈ rest) ∧ Closed back rest

/-- The open nodes below `above` on the stack: each leads to the next one, and its edges so far to done nodes or there. -/
def Frames (back : List ε) (finish : List α) : Option α → List (α × Nat) → Prop
  | _, [] => True
  | above, (node, next) :: below =>
      next ≤ (out node).length ∧ (∀ x, above = some x → Edge out child node x) ∧
        (∀ e ∈ (out node).take next, e ∈ back ∨ child e ∈ finish ∨ above = some (child e)) ∧
        Frames back finish (some node) below

structure Search.Good (s : Search α ε) (finish : List α) : Prop where
  done_iff : ∀ a, s.state a = some .done ↔ a ∈ finish
  opened_iff : ∀ a, s.state a = some .opened ↔ a ∈ s.stack.map Prod.fst
  nodup_finish : finish.Nodup
  nodup_stack : (s.stack.map Prod.fst).Nodup
  closed : Closed out child s.back finish
  frames : Frames out child s.back finish none s.stack
  on_cycle : ∀ e ∈ s.back, ∃ a, e ∈ out a ∧ Relation.ReflTransGen (Edge out child) (child e) a

variable {out child} {back back' : List ε} {finish finish' : List α}

theorem Kept.mono (h : back ⊆ back') {a b : α} (hkept : Kept out child back' a b) : Kept out child back a b := by
  obtain ⟨e, he, hout, hb⟩ := hkept
  exact ⟨e, he, fun hback => hout (h hback), hb⟩

theorem Closed.mono (h : back ⊆ back') (hclosed : Closed out child back finish) : Closed out child back' finish := by
  induction finish with
  | nil => exact trivial
  | cons a rest ih => exact ⟨fun b hb => hclosed.1 b (hb.mono h), ih hclosed.2⟩

theorem Frames.mono (hback : back ⊆ back') (hfinish : finish ⊆ finish') {above : Option α} {stack : List (α × Nat)}
    (h : Frames out child back finish above stack) : Frames out child back' finish' above stack := by
  induction stack generalizing above with
  | nil => exact trivial
  | cons frame below ih =>
      obtain ⟨hlen, hlink, hedges, hbelow⟩ := h
      exact ⟨hlen, hlink, fun e he => (hedges e he).imp (@hback e) (.imp_left (@hfinish _)), ih hbelow⟩

/-- The node above is done and goes. -/
theorem Frames.pop {a : α} {stack : List (α × Nat)} (h : Frames out child back finish (some a) stack) :
    Frames out child back (a :: finish) none stack := by
  cases stack with
  | nil => exact trivial
  | cons frame below =>
      obtain ⟨hlen, -, hedges, hbelow⟩ := h
      refine ⟨hlen, by simp, fun e he => ?_, hbelow.mono (List.Subset.refl _) (List.subset_cons_self _ _)⟩
      rcases hedges e he with hback | hdone | habove
      · exact .inl hback
      · exact .inr (.inl (List.mem_cons_of_mem _ hdone))
      · exact .inr (.inl (List.mem_cons.mpr (.inl (Option.some.inj habove).symm)))

/-- Every open node leads to the one above the stack. -/
theorem Frames.path {a : α} {stack : List (α × Nat)} (h : Frames out child back finish (some a) stack) {b : α}
    (hb : b ∈ stack.map Prod.fst) : Relation.ReflTransGen (Edge out child) b a := by
  induction stack generalizing a with
  | nil => cases hb
  | cons frame below ih =>
      obtain ⟨-, hlink, -, hbelow⟩ := h
      have hedge : Edge out child frame.1 a := hlink a rfl
      rcases List.mem_cons.mp hb with rfl | hb
      · exact .single hedge
      · exact (ih hbelow hb).tail hedge

/-- The end of the next edge of the top is in hand. -/
theorem Frames.next {node : α} {next : Nat} {below : List (α × Nat)} {edge : ε} {above : Option α}
    (h : Frames out child back finish none ((node, next) :: below)) (hedge : (out node)[next]? = some edge)
    (habove : ∀ x, above = some x → child edge = x)
    (hsettled : edge ∈ back' ∨ child edge ∈ finish ∨ above = some (child edge)) (hback : back ⊆ back') :
    Frames out child back' finish above ((node, next + 1) :: below) := by
  obtain ⟨-, -, hedges, hbelow⟩ := h
  obtain ⟨hlt, hget⟩ := List.getElem?_eq_some_iff.mp hedge
  refine ⟨hlt, fun x hx => ⟨edge, hget ▸ List.getElem_mem hlt, habove x hx⟩, fun e he => ?_,
    hbelow.mono hback (List.Subset.refl _)⟩
  rw [List.take_add_one, hedge, List.mem_append] at he
  rcases he with he | he
  · exact (hedges e he).imp (@hback e) (.imp_right fun h => absurd h (by simp))
  · obtain rfl : e = edge := by simpa using he
    exact hsettled

end Invariant

/-! ## One step -/

section Step
variable {α ε : Type} [DecidableEq α] {out : α → List ε} {child : ε → α} {s : Search α ε} {finish : List α}

/-- The node on top has no edge left. -/
theorem Search.Good.done (h : s.Good out child finish) {node : α} {next : Nat} {below : List (α × Nat)}
    (hstack : s.stack = (node, next) :: below) (hend : (out node)[next]? = none) :
    Search.Good out child { s with state := Function.update s.state node (some .done), stack := below } (node :: finish) := by
  obtain ⟨hdone, hopened, hnodup, hdistinct, hclosed, hframes, hcycle⟩ := h
  rw [hstack] at hopened hdistinct hframes
  rw [List.map_cons, List.nodup_cons] at hdistinct
  have hopen : s.state node = some .opened := (hopened node).mpr (List.mem_cons_self ..)
  have hnew : node ∉ finish := by
    rw [← hdone, hopen]
    simp
  have hall : (out node).take next = out node := List.take_of_length_le (List.getElem?_eq_none_iff.mp hend)
  have hedges := hframes.2.2.1
  rw [hall] at hedges
  refine ⟨fun a => ?_, fun a => ?_, List.nodup_cons.mpr ⟨hnew, hnodup⟩, hdistinct.2, ⟨?_, hclosed⟩, hframes.2.2.2.pop, hcycle⟩
  · by_cases ha : a = node
    · simp [ha]
    · simp [hdone, ha]
  · by_cases ha : a = node
    · subst ha
      simpa using hdistinct.1
    · simp [hopened, ha]
  · rintro b ⟨e, he, hkept, rfl⟩
    rcases hedges e he with hback | hfinish | habove
    · exact absurd hback hkept
    · exact hfinish
    · cases habove

omit [DecidableEq α] in
/-- The next edge leads to an open node: it closes a cycle. -/
theorem Search.Good.close (h : s.Good out child finish) {node : α} {next : Nat} {below : List (α × Nat)} {edge : ε}
    (hstack : s.stack = (node, next) :: below) (hedge : (out node)[next]? = some edge)
    (hopen : s.state (child edge) = some .opened) :
    Search.Good out child { s with stack := (node, next + 1) :: below, back := s.back ++ [edge] } finish := by
  obtain ⟨hdone, hopened, hnodup, hdistinct, hclosed, hframes, hcycle⟩ := h
  rw [hstack] at hopened hdistinct hframes
  have hmore : s.back ⊆ s.back ++ [edge] := List.subset_append_left _ _
  refine ⟨hdone, hopened, hnodup, hdistinct, hclosed.mono hmore,
    hframes.next hedge (by simp) (.inl (by simp)) hmore, fun e he => ?_⟩
  rcases List.mem_append.mp he with he | he
  · exact hcycle e he
  · obtain rfl := List.mem_singleton.mp he
    have hchild := (hopened _).mp hopen
    refine ⟨node, List.mem_of_getElem? hedge, ?_⟩
    rcases List.mem_cons.mp hchild with heq | hbelow
    · rw [heq]
    · exact hframes.2.2.2.path hbelow

omit [DecidableEq α] in
/-- The next edge leads to a node that is done. -/
theorem Search.Good.skip (h : s.Good out child finish) {node : α} {next : Nat} {below : List (α × Nat)} {edge : ε}
    (hstack : s.stack = (node, next) :: below) (hedge : (out node)[next]? = some edge)
    (hend : s.state (child edge) = some .done) :
    Search.Good out child { s with stack := (node, next + 1) :: below } finish := by
  obtain ⟨hdone, hopened, hnodup, hdistinct, hclosed, hframes, hcycle⟩ := h
  rw [hstack] at hopened hdistinct hframes
  exact ⟨hdone, hopened, hnodup, hdistinct, hclosed,
    hframes.next hedge (by simp) (.inr (.inl ((hdone _).mp hend))) (List.Subset.refl _), hcycle⟩

/-- The next edge leads to a node that is new. -/
theorem Search.Good.push (h : s.Good out child finish) {node : α} {next : Nat} {below : List (α × Nat)} {edge : ε}
    (hstack : s.stack = (node, next) :: below) (hedge : (out node)[next]? = some edge) (hnew : s.state (child edge) = none) :
    Search.Good out child
      { s with
        state := Function.update s.state (child edge) (some .opened)
        stack := (child edge, 0) :: (node, next + 1) :: below } finish := by
  obtain ⟨hdone, hopened, hnodup, hdistinct, hclosed, hframes, hcycle⟩ := h
  rw [hstack] at hopened hdistinct hframes
  have hunseen : child edge ∉ ((node, next) :: below).map Prod.fst := by
    rw [← hopened, hnew]
    simp
  have hunfinished : child edge ∉ finish := by
    rw [← hdone, hnew]
    simp
  refine ⟨fun a => ?_, fun a => ?_, hnodup, List.nodup_cons.mpr ⟨hunseen, hdistinct⟩, hclosed,
    ⟨Nat.zero_le _, by simp, by simp, hframes.next hedge (by simp) (.inr (.inr rfl)) (List.Subset.refl _)⟩, hcycle⟩
  · by_cases ha : a = child edge
    · simpa [ha] using hunfinished
    · simp [Function.update_of_ne ha, hdone]
  · by_cases ha : a = child edge
    · simp [ha]
    · simp only [Function.update_of_ne ha, hopened, List.map_cons, List.mem_cons, ha, false_or]

omit [DecidableEq α] in
/-- With an empty stack every node met is done. -/
theorem Search.Good.mem_finish (h : s.Good out child finish) (hstack : s.stack = []) {a : α} (hseen : s.state a ≠ none) :
    a ∈ finish := by
  rw [← h.done_iff]
  cases hstate : s.state a with
  | none => exact absurd hstate hseen
  | some mark =>
      cases mark with
      | done => rfl
      | opened =>
          have hmem := (h.opened_iff a).mp hstate
          simp [hstack] at hmem

theorem update_seen {state : α → Option Mark} {a b : α} {mark : Mark} (h : state a ≠ none) :
    Function.update state b (some mark) a ≠ none := by
  by_cases hab : a = b
  · simp [hab]
  · rw [Function.update_of_ne hab]
    exact h

/-- A node that was met stays so. -/
theorem step_seen {a : α} (h : s.state a ≠ none) : (s.step out child).state a ≠ none := by
  unfold Search.step
  split
  · exact h
  · split
    · exact update_seen h
    · split
      · exact h
      · exact h
      · exact update_seen h

theorem run_seen {a : α} (fuel : Nat) (h : s.state a ≠ none) : ((Search.step out child)^[fuel] s).state a ≠ none := by
  induction fuel generalizing s with
  | zero => exact h
  | succ fuel ih =>
      rw [Function.iterate_succ_apply]
      exact ih (step_seen h)

theorem step_good (h : s.Good out child finish) : ∃ finish', (s.step out child).Good out child finish' := by
  unfold Search.step
  split
  · exact ⟨finish, h⟩
  · rename_i node next below hstack
    split
    · rename_i hend
      exact ⟨_, h.done hstack hend⟩
    · rename_i edge hedge
      split
      · rename_i hopen
        exact ⟨_, h.close hstack hedge hopen⟩
      · rename_i hend
        exact ⟨_, h.skip hstack hedge hend⟩
      · rename_i hnew
        exact ⟨_, h.push hstack hedge hnew⟩

end Step

/-! ## The steps that are left -/

section Budget
variable {α ε : Type} [DecidableEq α] (out : α → List ε) (child : ε → α) (nodes : Finset α)

/-- The steps for the edges of the open nodes, and for the nodes not met yet. -/
def Search.budget (s : Search α ε) : Nat :=
  (s.stack.map fun frame => (out frame.1).length + 1 - frame.2).sum +
    ∑ a ∈ nodes with s.state a = none, ((out a).length + 1)

variable {out child nodes} {s : Search α ε} {finish : List α}

theorem budget_step (h : s.Good out child finish) (hchild : ∀ a, ∀ e ∈ out a, child e ∈ nodes) (hne : s.stack ≠ []) :
    (s.step out child).budget out nodes < s.budget out nodes := by
  have hframes := h.frames
  unfold Search.step Search.budget
  cases hstack : s.stack with
  | nil => exact absurd hstack hne
  | cons frame below =>
      obtain ⟨node, next⟩ := frame
      rw [hstack] at hframes
      have hlen : next ≤ (out node).length := hframes.1
      cases hedge : (out node)[next]? with
      | none =>
          have hopen : s.state node = some .opened := (h.opened_iff node).mpr (by simp [hstack])
          have hsame : (nodes.filter fun a => Function.update s.state node (some Mark.done) a = none) =
              nodes.filter fun a => s.state a = none := by
            refine Finset.filter_congr fun a _ => ?_
            by_cases ha : a = node
            · simp [ha, hopen]
            · rw [Function.update_of_ne ha]
          simp only [hedge, hsame, List.map_cons, List.sum_cons]
          omega
      | some edge =>
          obtain ⟨hlt, hget⟩ := List.getElem?_eq_some_iff.mp hedge
          cases hstate : s.state (child edge) with
          | none =>
              have hmem : child edge ∈ nodes.filter fun a => s.state a = none :=
                Finset.mem_filter.mpr ⟨hchild node edge (hget ▸ List.getElem_mem hlt), hstate⟩
              have herase : (nodes.filter fun a => Function.update s.state (child edge) (some Mark.opened) a = none) =
                  (nodes.filter fun a => s.state a = none).erase (child edge) := by
                ext a
                by_cases ha : a = child edge
                · simp [ha]
                · simp [ha]
              have hsum := Finset.add_sum_erase _ (fun a => (out a).length + 1) hmem
              simp only [hedge, hstate, herase, List.map_cons, List.sum_cons]
              omega
          | some mark =>
              cases mark <;> simp only [hedge, hstate, List.map_cons, List.sum_cons] <;> omega

/-- With a step for each unit of the budget, the stack runs empty. -/
theorem run_good (hchild : ∀ a, ∀ e ∈ out a, child e ∈ nodes) (fuel : Nat) (h : s.Good out child finish)
    (hfuel : s.budget out nodes ≤ fuel) :
    (∃ finish', ((Search.step out child)^[fuel] s).Good out child finish') ∧
    ((Search.step out child)^[fuel] s).stack = [] := by
  induction fuel generalizing s finish with
  | zero =>
      refine ⟨⟨finish, h⟩, ?_⟩
      by_contra hne
      have := budget_step h hchild hne
      omega
  | succ fuel ih =>
      by_cases hstack : s.stack = []
      · have hsame : s.step out child = s := by
          unfold Search.step
          rw [hstack]
        rw [Function.iterate_fixed hsame]
        exact ⟨⟨finish, h⟩, hstack⟩
      · obtain ⟨finish', hgood⟩ := step_good h
        have := budget_step h hchild hstack
        rw [Function.iterate_succ_apply]
        exact ih hgood (by omega)

theorem budget_le (s : Search α ε) {degree : Nat} (hdegree : ∀ a, (out a).length ≤ degree) (root : α) (hroot : root ∈ nodes)
    (hnew : s.state root = none) :
    Search.budget out nodes { s with state := Function.update s.state root (some .opened), stack := [(root, 0)] } ≤
      nodes.card * (degree + 1) := by
  have herase : (nodes.filter fun a => Function.update s.state root (some Mark.opened) a = none) =
      (nodes.filter fun a => s.state a = none).erase root := by
    ext a
    by_cases ha : a = root
    · simp [ha]
    · simp [ha]
  have hsum := Finset.add_sum_erase _ (fun a => (out a).length + 1) (show root ∈ nodes.filter fun a => s.state a = none from
    Finset.mem_filter.mpr ⟨hroot, hnew⟩)
  have hle : ∑ a ∈ nodes with s.state a = none, ((out a).length + 1) ≤ nodes.card * (degree + 1) := by
    refine (Finset.sum_le_card_nsmul _ _ (degree + 1) fun a _ => Nat.succ_le_succ (hdegree a)).trans ?_
    rw [smul_eq_mul]
    exact Nat.mul_le_mul_right _ (Finset.card_filter_le _ _)
  unfold Search.budget
  simp only [herase, List.map_cons, List.map_nil, List.sum_cons, List.sum_nil]
  omega

end Budget

/-! ## The whole walk -/

section Whole
variable {α ε : Type} [DecidableEq α] {out : α → List ε} {child : ε → α} {nodes : Finset α} {degree fuel : Nat}

/-- Between two roots: the stack is empty, and so many nodes were met. -/
structure Search.Rested (out : α → List ε) (child : ε → α) (s : Search α ε) (met : List α) : Prop where
  stack : s.stack = []
  good : ∃ finish, s.Good out child finish
  seen : ∀ a ∈ met, s.state a ≠ none

theorem good_visit {s : Search α ε} {finish : List α} (h : s.Good out child finish) (hstack : s.stack = []) {root : α}
    (hnew : s.state root = none) :
    Search.Good out child { s with state := Function.update s.state root (some .opened), stack := [(root, 0)] } finish := by
  obtain ⟨hdone, hopened, hnodup, -, hclosed, -, hcycle⟩ := h
  have hunfinished : root ∉ finish := by
    rw [← hdone, hnew]
    simp
  refine ⟨fun a => ?_, fun a => ?_, hnodup, List.nodup_singleton _, hclosed, ⟨Nat.zero_le _, by simp, by simp,
    trivial⟩, hcycle⟩
  · by_cases ha : a = root
    · simpa [ha] using hunfinished
    · simp [Function.update_of_ne ha, hdone]
  · by_cases ha : a = root
    · simp [ha]
    · simp [hopened, hstack, ha]

theorem Search.Rested.visit {s : Search α ε} {met : List α} (h : s.Rested out child met)
    (hchild : ∀ a, ∀ e ∈ out a, child e ∈ nodes) (hdegree : ∀ a, (out a).length ≤ degree)
    (hfuel : nodes.card * (degree + 1) ≤ fuel) {root : α} (hroot : root ∈ nodes) :
    (s.visit out child fuel root).Rested out child (root :: met) := by
  obtain ⟨hstack, ⟨finish, hgood⟩, hseen⟩ := h
  unfold Search.visit
  split
  · rename_i hsome
    refine ⟨hstack, ⟨finish, hgood⟩, fun a ha => ?_⟩
    rcases List.mem_cons.mp ha with rfl | ha
    · exact Option.isSome_iff_ne_none.mp hsome
    · exact hseen a ha
  · rename_i hnone
    rw [Option.not_isSome_iff_eq_none] at hnone
    obtain ⟨hrun, hempty⟩ := run_good hchild fuel (good_visit hgood hstack hnone)
      ((budget_le s hdegree root hroot hnone).trans hfuel)
    refine ⟨hempty, hrun, fun a ha => run_seen fuel ?_⟩
    rcases List.mem_cons.mp ha with rfl | ha
    · simp
    · exact update_seen (hseen a ha)

/-- From the roots every one of them is met, and every back edge was on a cycle. -/
theorem search_good {roots : List α} (hchild : ∀ a, ∀ e ∈ out a, child e ∈ nodes) (hdegree : ∀ a, (out a).length ≤ degree)
    (hfuel : nodes.card * (degree + 1) ≤ fuel) (hroots : ∀ a ∈ roots, a ∈ nodes) :
    ∃ finish, (search out child fuel roots).Good out child finish ∧ ∀ a ∈ roots, a ∈ finish := by
  have hfold : ∀ (roots met : List α) (s : Search α ε), (∀ a ∈ roots, a ∈ nodes) → s.Rested out child met →
      (roots.foldl (Search.visit out child fuel) s).Rested out child (roots.reverse ++ met) := by
    intro roots
    induction roots with
    | nil => exact fun met s _ h => h
    | cons root roots ih =>
        intro met s hroots h
        rw [List.reverse_cons, List.append_assoc]
        exact ih _ _ (fun a ha => hroots a (List.mem_cons_of_mem _ ha))
          (h.visit hchild hdegree hfuel (hroots root (List.mem_cons_self ..)))
  have hinit : Search.Rested out child ⟨fun _ => none, [], []⟩ [] :=
    ⟨rfl, ⟨[], by simp, by simp, List.nodup_nil, List.nodup_nil, trivial, trivial, by simp⟩, by simp⟩
  obtain ⟨hstack, ⟨finish, hgood⟩, hseen⟩ := hfold roots [] _ hroots hinit
  refine ⟨finish, hgood, fun a ha => hgood.mem_finish hstack (hseen a ?_)⟩
  simpa using ha

end Whole

/-! ## Without the back edges -/

section Acyclic
variable {α ε : Type} {out : α → List ε} {child : ε → α} {back : List ε} {finish : List α}

theorem Closed.mem_of_kept (h : Closed out child back finish) {a b : α} (ha : a ∈ finish) (hkept : Kept out child back a b) :
    b ∈ finish := by
  induction finish with
  | nil => cases ha
  | cons x rest ih =>
      refine List.mem_cons_of_mem _ ?_
      rcases List.mem_cons.mp ha with rfl | ha
      · exact h.1 b hkept
      · exact ih h.2 ha

/-- An edge that is kept leads later in the list. -/
theorem Closed.idxOf_lt [DecidableEq α] (h : Closed out child back finish) (hnodup : finish.Nodup) {a b : α} (ha : a ∈ finish)
    (hkept : Kept out child back a b) : finish.idxOf a < finish.idxOf b := by
  induction finish with
  | nil => cases ha
  | cons x rest ih =>
      obtain ⟨hx, hnodup⟩ := List.nodup_cons.mp hnodup
      rcases List.mem_cons.mp ha with rfl | ha
      · have hb : b ∈ rest := h.1 b hkept
        have hne : a ≠ b := fun hab => hx (hab ▸ hb)
        rw [List.idxOf_cons_self, List.idxOf_cons_ne _ hne]
        exact Nat.succ_pos _
      · have hb : b ∈ rest := h.2.mem_of_kept ha hkept
        have hxa : x ≠ a := fun hxa => hx (hxa ▸ ha)
        have hxb : x ≠ b := fun hxb => hx (hxb ▸ hb)
        rw [List.idxOf_cons_ne _ hxa, List.idxOf_cons_ne _ hxb]
        exact Nat.succ_lt_succ (ih h.2 hnodup ha)

theorem Closed.kept_irrefl (h : Closed out child back finish) (hnodup : finish.Nodup) {a : α} (ha : a ∈ finish) :
    ¬ Relation.TransGen (Kept out child back) a a := by
  classical
  have hlater : ∀ b, Relation.TransGen (Kept out child back) a b → b ∈ finish ∧ finish.idxOf a < finish.idxOf b := by
    intro b hb
    induction hb with
    | single hkept => exact ⟨h.mem_of_kept ha hkept, h.idxOf_lt hnodup ha hkept⟩
    | tail _ hkept ih => exact ⟨h.mem_of_kept ih.1 hkept, ih.2.trans (h.idxOf_lt hnodup ih.1 hkept)⟩
  intro hcycle
  exact Nat.lt_irrefl _ (hlater a hcycle).2

/-- In a graph without cycles the walk finds no back edge. -/
theorem Search.Good.back_eq_nil {s : Search α ε} (h : s.Good out child finish)
    (hacyclic : ∀ a, ¬ Relation.TransGen (Edge out child) a a) : s.back = [] := by
  refine List.eq_nil_iff_forall_not_mem.mpr fun e he => ?_
  obtain ⟨a, hout, hpath⟩ := h.on_cycle e he
  exact hacyclic a (.head' ⟨e, hout, rfl⟩ hpath)

end Acyclic

end DepthFirst
