import Mathlib.Algebra.Order.Ring.Int
import IkelyaneMonitor.Replay.Latest

/-!
# Reading by pages

Entries with times are read a page at a time. A cursor stands at the latest time that was read, and the next page is of what
is later than that.

* `IsPage` : the first of some entries, as far as a page goes; `isPage_take` : of those in the order of their times;
* `Round`, `advance`, `Reads` : what is visible and what is read of it, round after round;
* `InExactlyOne` : an entry is in one of the pages and in no other;
* `Closed` : whatever has the time of the latest entry of a page is in the page;
* `mem_page_of_le` : the cursor passes nothing that it does not read; `disjoint_pages` : nothing is read twice;
* `inExactlyOne_iff` : entries that become visible in the order of their times are each in one page, if and only if the pages
  are closed.
-/

namespace Replay

section Pages
variable {α : Type} (time : α → Int) (limit : Nat)

/-- The first of `matching` in the order of their times. -/
structure IsPage (matching page : List α) : Prop where
  subset : page ⊆ matching
  earlier : ∀ a ∈ matching, a ∉ page → ∀ b ∈ page, time b ≤ time a
  whole : matching.length ≤ limit → matching ⊆ page

structure Round (α : Type) where
  visible : List α
  page : List α

def advance (last : Int) (page : List α) : Int := page.foldl (fun last a => max last (time a)) last

def cursorAfter (last : Int) (rounds : List (Round α)) : Int := rounds.foldl (fun last r => advance time last r.page) last

/-- Each page is of what is later than the cursor. -/
def Reads : (last : Int) → List (Round α) → Prop
  | _, [] => True
  | last, r :: rounds =>
    IsPage time limit (r.visible.filter fun a => last < time a) r.page ∧ Reads (advance time last r.page) rounds

/-- The entry is in one of the pages, and in no other. -/
def InExactlyOne (pages : List (List α)) (a : α) : Prop :=
  ∃ before page after, pages = before ++ page :: after ∧ a ∈ page ∧ ∀ other ∈ before ++ after, a ∉ other

/-- What has the time of the latest entry of the page is in it. -/
def Closed (stream page : List α) : Prop := ∀ b, Newest time page b → ∀ a ∈ stream, time a = time b → a ∈ page

variable {time limit} {last : Int} {rounds rounds' : List (Round α)} {stream matching page : List α} {a b : α} {r : Round α}

theorem isPage_take {sorted : List α} (hperm : sorted.Perm matching) (hsorted : Chronological time sorted) :
    IsPage time limit matching (sorted.take limit) where
  subset := fun _ ha => hperm.mem_iff.mp (List.mem_of_mem_take ha)
  earlier := by
    intro a ha hrest b hb
    have hsplit := List.take_append_drop limit sorted
    rw [Chronological, ← hsplit, List.pairwise_append] at hsorted
    have hmem : a ∈ sorted.take limit ++ sorted.drop limit := hsplit.symm ▸ hperm.mem_iff.mpr ha
    exact hsorted.2.2 b hb a ((List.mem_append.mp hmem).resolve_left hrest)
  whole := by
    intro hshort a ha
    rw [List.take_of_length_le (by rwa [hperm.length_eq])]
    exact hperm.mem_iff.mpr ha

/-! ## The cursor -/

theorem advance_le_iff {n : Int} : advance time last page ≤ n ↔ last ≤ n ∧ ∀ a ∈ page, time a ≤ n := by
  unfold advance
  induction page generalizing last with
  | nil => simp
  | cons a page ih => rw [List.foldl_cons, ih, max_le_iff, List.forall_mem_cons, and_assoc]

theorem le_advance : last ≤ advance time last page := (advance_le_iff.mp le_rfl).1

theorem time_le_advance (ha : a ∈ page) : time a ≤ advance time last page := (advance_le_iff.mp le_rfl).2 a ha

/-- A cursor that has moved stands at the latest entry of the page. -/
theorem newest_of_lt_advance (h : last < advance time last page) :
    ∃ b, Newest time page b ∧ time b = advance time last page := by
  have hsome : ∃ b ∈ page, advance time last page ≤ time b := by
    by_contra hnone
    push Not at hnone
    have hle : advance time last page ≤ advance time last page - 1 := by
      refine advance_le_iff.mpr ⟨by omega, fun a ha => ?_⟩
      have hless := hnone a ha
      omega
    omega
  obtain ⟨b, hb, hle⟩ := hsome
  have heq : time b = advance time last page := le_antisymm (time_le_advance hb) hle
  exact ⟨b, ⟨hb, fun a ha => heq ▸ time_le_advance ha⟩, heq⟩

theorem le_cursorAfter : last ≤ cursorAfter time last rounds := by
  induction rounds generalizing last with
  | nil => exact le_rfl
  | cons r rounds ih => exact le_advance.trans ih

theorem reads_append :
    Reads time limit last (rounds ++ rounds') ↔ Reads time limit last rounds ∧
      Reads time limit (cursorAfter time last rounds) rounds' := by
  induction rounds generalizing last with
  | nil => simp [Reads, cursorAfter]
  | cons r rounds ih => rw [List.cons_append, Reads, ih, Reads, and_assoc]; rfl

/-- What is read is later than the cursor, and the cursor is not behind it afterwards. -/
theorem time_of_mem (h : Reads time limit last rounds) (hr : r ∈ rounds) (ha : a ∈ r.page) :
    last < time a ∧ time a ≤ cursorAfter time last rounds := by
  induction rounds generalizing last with
  | nil => cases hr
  | cons r' rounds ih =>
      obtain ⟨hpage, hrest⟩ := h
      rcases List.mem_cons.mp hr with rfl | hr
      · exact ⟨of_decide_eq_true (List.mem_filter.mp (hpage.subset ha)).2, (time_le_advance ha).trans le_cursorAfter⟩
      · exact ⟨le_advance.trans_lt (ih hrest hr).1, (ih hrest hr).2⟩

theorem page_subset_visible (h : Reads time limit last rounds) (hr : r ∈ rounds) : r.page ⊆ r.visible := by
  obtain ⟨before, after, rfl⟩ := List.append_of_mem hr
  have hpage := (reads_append.mp h).2.1
  exact fun a ha => (List.mem_filter.mp (hpage.subset ha)).1

/-- No entry is in two pages. -/
theorem disjoint_pages (h : Reads time limit last rounds) : rounds.Pairwise fun r r' => ∀ a ∈ r.page, a ∉ r'.page := by
  induction rounds generalizing last with
  | nil => exact List.Pairwise.nil
  | cons r rounds ih =>
      refine List.pairwise_cons.mpr ⟨fun r' hr' a ha ha' => ?_, ih h.2⟩
      have hlater := (time_of_mem h.2 hr' ha').1
      have hread : time a ≤ advance time last r.page := time_le_advance ha
      omega

theorem inExactlyOne_of_mem (h : Reads time limit last rounds) (hr : r ∈ rounds) (ha : a ∈ r.page) :
    InExactlyOne (rounds.map Round.page) a := by
  obtain ⟨before, after, rfl⟩ := List.append_of_mem hr
  have hdisjoint := List.pairwise_append.mp (disjoint_pages h)
  refine ⟨before.map Round.page, r.page, after.map Round.page, by rw [List.map_append, List.map_cons], ha, ?_⟩
  intro other hother hmem
  rcases List.mem_append.mp hother with hother | hother
  · obtain ⟨r', hr', rfl⟩ := List.mem_map.mp hother
    exact hdisjoint.2.2 r' hr' r List.mem_cons_self a hmem ha
  · obtain ⟨r', hr', rfl⟩ := List.mem_map.mp hother
    exact (List.pairwise_cons.mp hdisjoint.2.1).1 r' hr' a ha hmem

theorem mem_of_inExactlyOne (h : InExactlyOne (rounds.map Round.page) a) : ∃ r ∈ rounds, a ∈ r.page := by
  obtain ⟨before, page, after, hsplit, ha, -⟩ := h
  have hpage : page ∈ rounds.map Round.page := hsplit ▸ List.mem_append_right _ List.mem_cons_self
  obtain ⟨r, hr, rfl⟩ := List.mem_map.mp hpage
  exact ⟨r, hr, ha⟩

/-! ## Nothing is left out -/

/-- What is earlier than something visible is visible. -/
def Ordered (time : α → Int) (stream : List α) (last : Int) (r : Round α) : Prop :=
  ∀ a ∈ stream, ∀ b ∈ r.visible, last < time a → time a < time b → a ∈ r.visible

/-- The round in which the cursor passes an entry reads it. -/
theorem mem_page_of_passed (hpage : IsPage time limit (r.visible.filter fun a => last < time a) r.page)
    (hordered : Ordered time stream last r) (hclosed : Closed time stream r.page) (ha : a ∈ stream) (hlast : last < time a)
    (hpassed : time a ≤ advance time last r.page) : a ∈ r.page := by
  obtain ⟨b, hb, htime⟩ := newest_of_lt_advance (hlast.trans_le hpassed)
  rcases hpassed.lt_or_eq with hless | heq
  · by_contra hrest
    have hvisible : a ∈ r.visible := by
      refine hordered a ha b ?_ hlast (by omega)
      exact (List.mem_filter.mp (hpage.subset hb.1)).1
    have hle := hpage.earlier a (List.mem_filter.mpr ⟨hvisible, decide_eq_true hlast⟩) hrest b hb.1
    omega
  · exact hclosed b hb a ha (heq.trans htime.symm)

theorem mem_page_of_le (h : Reads time limit last rounds) (hordered : ∀ r ∈ rounds, Ordered time stream last r)
    (hclosed : ∀ r ∈ rounds, Closed time stream r.page) (ha : a ∈ stream) (hlast : last < time a)
    (hpassed : time a ≤ cursorAfter time last rounds) : ∃ r ∈ rounds, a ∈ r.page := by
  induction rounds generalizing last with
  | nil => exact absurd hpassed (not_le.mpr hlast)
  | cons r rounds ih =>
      by_cases hnow : time a ≤ advance time last r.page
      · exact ⟨r, List.mem_cons_self, mem_page_of_passed h.1 (hordered r List.mem_cons_self)
          (hclosed r List.mem_cons_self) ha hlast hnow⟩
      · have hlater : ∀ r' ∈ rounds, Ordered time stream (advance time last r.page) r' := fun r' hr' a ha b hb hlast =>
          hordered r' (List.mem_cons_of_mem _ hr') a ha b hb (le_advance.trans_lt hlast)
        obtain ⟨r', hr', ha'⟩ := ih h.2 hlater (fun r' hr' => hclosed r' (List.mem_cons_of_mem _ hr'))
          (not_le.mp hnow) hpassed
        exact ⟨r', List.mem_cons_of_mem _ hr', ha'⟩

/-- Two entries of one time are read by the same round, if they are read. -/
theorem mem_page_of_time_eq (h : Reads time limit last rounds) {r' : Round α} (hr : r ∈ rounds) (hb : b ∈ r.page)
    (hr' : r' ∈ rounds)
    (ha : a ∈ r'.page) (htime : time a = time b) : a ∈ r.page := by
  obtain ⟨before, after, rfl⟩ := List.append_of_mem hr
  obtain ⟨hbefore, hpage, hafter⟩ := reads_append.mp h
  have hlater : cursorAfter time last before < time b := of_decide_eq_true (List.mem_filter.mp (hpage.subset hb)).2
  have hread : time b ≤ advance time (cursorAfter time last before) r.page := time_le_advance hb
  rcases List.mem_append.mp hr' with hr' | hr'
  · have hle := (time_of_mem hbefore hr' ha).2
    omega
  · rcases List.mem_cons.mp hr' with rfl | hr'
    · exact ha
    · have hless := (time_of_mem hafter hr' ha).1
      omega

/-- **Each entry in one page.** At the end everything is visible, and no more than a page is outstanding. -/
theorem inExactlyOne_iff {final : Round α} (h : Reads time limit last (rounds ++ [final]))
    (hordered : ∀ r ∈ rounds ++ [final], Ordered time stream last r) (hvisible : stream ⊆ final.visible)
    (hfew : (final.visible.filter fun a => cursorAfter time last rounds < time a).length ≤ limit) :
    (∀ a ∈ stream, last < time a → InExactlyOne ((rounds ++ [final]).map Round.page) a) ↔
      ∀ r ∈ rounds ++ [final], Closed time stream r.page := by
  constructor
  · intro hall r hr b hb a ha htime
    have hlast : last < time a := htime ▸ (time_of_mem h hr hb.1).1
    obtain ⟨r', hr', ha'⟩ := mem_of_inExactlyOne (hall a ha hlast)
    exact mem_page_of_time_eq h hr hb.1 hr' ha' htime
  · intro hclosed a ha hlast
    obtain ⟨hbefore, hpage, -⟩ := reads_append.mp h
    have hread : ∃ r ∈ rounds ++ [final], a ∈ r.page := by
      by_cases hpassed : time a ≤ cursorAfter time last rounds
      · obtain ⟨r, hr, hmem⟩ := mem_page_of_le hbefore (fun r hr => hordered r (List.mem_append_left _ hr))
          (fun r hr => hclosed r (List.mem_append_left _ hr)) ha hlast hpassed
        exact ⟨r, List.mem_append_left _ hr, hmem⟩
      · refine ⟨final, List.mem_append_right _ List.mem_cons_self, hpage.whole hfew ?_⟩
        exact List.mem_filter.mpr ⟨hvisible ha, decide_eq_true (not_le.mp hpassed)⟩
    obtain ⟨r, hr, hmem⟩ := hread
    exact inExactlyOne_of_mem h hr hmem

end Pages

end Replay
