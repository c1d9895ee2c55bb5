import IkelyaneMonitor.Agent.Databases

/-!
# Every entry of the profiler once

* `readProfiles_own` : the loop over the databases, for one of them;
* `Poll.profile`, `Monitor.readBy` : what a poll finds of a database, and what it aggregates (`aggregated_iff`);
* `isPage_find` : the answer of a server is a page of what is later than the cursor;
* `rounds`, `reads_rounds`, `profileSeen_after` : polls are rounds of reading by pages;
* `Stream` : entries that are written in the order of their times after the first poll, and polled until few are outstanding;
* `profiled_once_iff` : each of them is aggregated by one poll, if and only if none with the time of the latest entry of an
  answer is missing there; `tie_lost` : one that is written later.
-/

namespace IkelyaneMonitor.Agent.Db
open Wire Replay

/-! ## One database of a poll -/

section Loop
variable {thresholdMs : Int} {profiles : List UInt8 → Option Profile} {databases : List (List UInt8)} {name : List UInt8}
  {seen : List UInt8 → Option Int}

/-- Of each database the loop reads once what is after its cursor. -/
theorem readProfiles_own (hnodup : databases.Nodup) (name : List UInt8) :
    (readProfiles thresholdMs profiles databases seen).1 name =
        (readProfile thresholdMs (seen name) (if name ∈ databases then profiles name else none)).1 ∧
      ((readProfiles thresholdMs profiles databases seen).2.filter fun read => read.1 = name).map Prod.snd =
        (readProfile thresholdMs (seen name) (if name ∈ databases then profiles name else none)).2 := by
  have hown : ∀ (other : List UInt8) (docs : List ProfileDoc),
      ((docs.map fun doc => (other, doc)).filter fun read : Read => read.1 = name).map Prod.snd = if other = name then docs
      else [] := by
    intro other docs
    rw [List.filter_map, List.map_map]
    split
    · rename_i h
      simp [h, Function.comp_def]
    · rename_i h
      simp [h, Function.comp_def]
  induction databases using List.reverseRecOn with
  | nil => exact ⟨rfl, rfl⟩
  | append_singleton databases other ih =>
      obtain ⟨hnodup, -, hnew⟩ := List.nodup_append.mp hnodup
      obtain ⟨hseen, hread⟩ := ih hnodup
      have hstep : readProfiles thresholdMs profiles (databases ++ [other]) seen =
          (fun n => if n = other then
              (readProfile thresholdMs ((readProfiles thresholdMs profiles databases seen).1 other) (profiles other)).1
            else (readProfiles thresholdMs profiles databases seen).1 n,
            (readProfiles thresholdMs profiles databases seen).2 ++
              (readProfile thresholdMs ((readProfiles thresholdMs profiles databases seen).1 other) (profiles other)).2.map
                fun doc => (other, doc)) := List.foldl_append
      rw [hstep]
      dsimp only
      rw [List.filter_append, List.map_append, hread, hown]
      by_cases h : name = other
      · subst h
        have hnot : name ∉ databases := fun hmem => hnew name hmem name List.mem_cons_self rfl
        rw [if_neg hnot] at hseen hread
        rw [if_pos rfl, if_pos rfl, hseen, if_neg hnot]
        simp [readProfile]
      · have h' : ¬ other = name := fun heq => h heq.symm
        have hmem : name ∈ databases ++ [other] ↔ name ∈ databases := by simp [h]
        rw [if_neg h, if_neg h', hseen, List.append_nil]
        simp only [hmem, and_self]

end Loop

/-! ## The answer of the server -/

theorem perm_find (p : Profile) (thresholdMs last : Int) :
    ((p.order.visit (p.stored.filter fun doc => last < doc.ts ∧ doc.slow thresholdMs)).mergeSort fun a b => a.ts ≤ b.ts).Perm
      ((p.stored.filter (ProfileDoc.slow thresholdMs)).filter fun doc => last < doc.ts) := by
  have hfilter : (p.stored.filter fun doc => last < doc.ts ∧ doc.slow thresholdMs) =
      (p.stored.filter (ProfileDoc.slow thresholdMs)).filter fun doc => last < doc.ts := by
    rw [List.filter_filter]
    congr 1
    funext doc
    rw [Bool.decide_and, Bool.decide_eq_true]
  exact (List.mergeSort_perm _ _).trans (hfilter ▸ p.order.perm _)

theorem isPage_find (p : Profile) (thresholdMs last : Int) :
    IsPage ProfileDoc.ts mongoProfileMaxEntries
      ((p.stored.filter (ProfileDoc.slow thresholdMs)).filter fun doc => last < doc.ts) (p.find thresholdMs last) := by
  refine isPage_take (perm_find p thresholdMs last) ?_
  refine (List.pairwise_mergeSort (fun a b c hab hbc => ?_) (fun a b => ?_) _).imp fun h => of_decide_eq_true h
  · exact decide_eq_true ((of_decide_eq_true hab).trans (of_decide_eq_true hbc))
  · rw [Bool.or_eq_true, decide_eq_true_eq, decide_eq_true_eq]
    exact le_total _ _

/-- No document is later than the newest. -/
theorem le_newest {p : Profile} {doc : ProfileDoc} (h : doc ∈ p.stored) : doc.ts ≤ p.newest := by
  unfold Profile.newest
  cases hmax : (p.stored.map ProfileDoc.ts).max? with
  | none =>
      rw [List.max?_eq_none_iff, List.map_eq_nil_iff] at hmax
      rw [hmax] at h
      cases h
  | some newest => exact (List.max?_eq_some_iff.mp hmax).2 doc.ts (List.mem_map_of_mem h)

/-! ## Polls -/

section Reads
variable {fl : Rounding} {p : Platform} {e : Engine} {m : Monitor e} {poll : Poll e} {name : List UInt8}

/-- The profile of a database, where the poll reads it. -/
def Poll.profile (name : List UInt8) (poll : Poll e) : Option Profile :=
  poll.answers?.bind fun a => if name ∈ (profilesOf a).1 then (profilesOf a).2 name else none

/-- What the poll aggregates. -/
def Monitor.reads (m : Monitor e) (poll : Poll e) : List Read :=
  poll.answers?.elim [] fun a => (readProfiles m.target.slowQueryThresholdMs (profilesOf a).2
    (profilesOf a).1 m.profileSeen).2

/-- What it aggregates of a database. -/
def Monitor.readBy (m : Monitor e) (name : List UInt8) (poll : Poll e) : List ProfileDoc :=
  ((m.reads poll).filter fun read => read.1 = name).map Prod.snd

/-- Each entry is in the group of its shape. -/
theorem aggregated_iff (g : Grouping) (reads : List Read) (read : Read) :
    read ∈ reads ↔ ∃ group ∈ groupBy g.id (fun read => read) reads, group.1 = g.id read ∧ read ∈ group.2 := by
  constructor
  · intro h
    refine ⟨(g.id read, reads.filter fun e => g.id e = g.id read), mem_groupBy.mpr ⟨⟨read, h, rfl⟩, ?_⟩, rfl, ?_⟩
    · exact (List.map_id' _).symm
    · exact List.mem_filter.mpr ⟨h, decide_eq_true rfl⟩
  · rintro ⟨group, hgroup, -, hread⟩
    rw [(mem_groupBy.mp hgroup).2, List.map_id'] at hread
    exact (List.mem_filter.mp hread).1

theorem nodup_profilesOf (a : Answers e) : (profilesOf a).1.Nodup := by
  cases e with
  | mongodb =>
      have hnames : ((MongoAnswers.databases a).elim [] Listing.names).Nodup := by
        cases MongoAnswers.databases a with
        | none => exact List.nodup_nil
        | some listing => exact listing.distinct
      refine List.Nodup.sublist (List.take_sublist _ _) (List.Nodup.filter _ ?_)
      exact (List.mergeSort_perm _ _).nodup_iff.mpr hnames
  | postgresql => exact List.nodup_nil
  | mysql => exact List.nodup_nil
  | mariadb => exact List.nodup_nil
  | redis => exact List.nodup_nil

theorem readBy_eq : m.readBy name poll =
    (readProfile m.target.slowQueryThresholdMs (m.profileSeen name) (poll.profile name)).2 := by
  unfold Monitor.readBy Monitor.reads Poll.profile
  cases poll.answers? with
  | none => rfl
  | some a => exact (readProfiles_own (nodup_profilesOf a) name).2

theorem profileSeen_collect : (m.collect fl p poll.outcome poll.now).2.profileSeen name =
    (readProfile m.target.slowQueryThresholdMs (m.profileSeen name) (poll.profile name)).1 := by
  obtain ⟨txns, deadlocks, h⟩ := collect_snd fl p m poll
  rw [h]
  unfold Poll.profile
  cases poll.answers? with
  | none => rfl
  | some a => exact (readProfiles_own (nodup_profilesOf a) name).1

end Reads

/-! ## Polls are rounds -/

section Rounds
variable (fl : Rounding) (p : Platform) (name : List UInt8)

/-- What is there to aggregate at a poll. -/
def matching (thresholdMs : Int) (poll : Poll .mongodb) : List ProfileDoc :=
  (poll.profile name).elim [] fun p => p.stored.filter (ProfileDoc.slow thresholdMs)

/-- Each poll with what it finds and what it aggregates of the database. -/
def rounds : Monitor .mongodb → List (Poll .mongodb) → List (Round ProfileDoc)
  | _, [] => []
  | m, poll :: polls =>
    ⟨matching name m.target.slowQueryThresholdMs poll, m.readBy name poll⟩ :: rounds
      (m.collect fl p poll.outcome poll.now).2 polls

/-- What each poll aggregates of the database. -/
def pages (m : Monitor .mongodb) (polls : List (Poll .mongodb)) : List (List ProfileDoc) :=
  (rounds fl p name m polls).map Round.page

variable {fl p name} {m : Monitor .mongodb} {poll : Poll .mongodb} {last : Int} {polls polls' : List (Poll .mongodb)}

theorem rounds_append_singleton : rounds fl p name m (polls ++ [poll]) = rounds fl p name m polls ++
    [⟨matching name m.target.slowQueryThresholdMs poll, (m.after fl p polls).readBy name poll⟩] := by
  induction polls generalizing m with
  | nil => rfl
  | cons poll' polls ih =>
      rw [List.cons_append, rounds, ih, target_collect]
      rfl

theorem cursor_collect (h : m.profileSeen name = some last) : (m.collect fl p poll.outcome poll.now).2.profileSeen name =
    some (advance ProfileDoc.ts last (m.readBy name poll)) := by
  rw [profileSeen_collect, readBy_eq, h]
  cases poll.profile name <;> rfl

theorem isPage_readBy (h : m.profileSeen name = some last) : IsPage ProfileDoc.ts mongoProfileMaxEntries
    ((matching name m.target.slowQueryThresholdMs poll).filter fun doc => last < doc.ts) (m.readBy name poll) := by
  rw [readBy_eq, h, matching]
  cases poll.profile name with
  | none => exact ⟨List.Subset.refl _, nofun, fun _ => List.Subset.refl _⟩
  | some p => exact isPage_find p _ last

theorem reads_rounds (fl : Rounding) (p : Platform) (polls : List (Poll .mongodb)) (h : m.profileSeen name = some last) :
    Replay.Reads ProfileDoc.ts mongoProfileMaxEntries last (rounds fl p name m polls) := by
  induction polls generalizing m last with
  | nil => trivial
  | cons poll polls ih => exact ⟨isPage_readBy h, ih (cursor_collect h)⟩

theorem profileSeen_after (h : m.profileSeen name = some last) : (m.after fl p polls).profileSeen name =
    some (cursorAfter ProfileDoc.ts last (rounds fl p name m polls)) := by
  induction polls generalizing m last with
  | nil => exact h
  | cons poll polls ih => exact ih (cursor_collect h)

theorem mem_rounds {r : Round ProfileDoc} (h : r ∈ rounds fl p name m polls) :
    ∃ poll ∈ polls, r.visible = matching name m.target.slowQueryThresholdMs poll := by
  induction polls generalizing m with
  | nil => cases h
  | cons poll polls ih =>
      rcases List.mem_cons.mp h with rfl | h
      · exact ⟨poll, List.mem_cons_self, rfl⟩
      · obtain ⟨poll', hpoll', hvisible⟩ := ih h
        rw [target_collect] at hvisible
        exact ⟨poll', List.mem_cons_of_mem _ hpoll', hvisible⟩

/-- Entries that are written in the order of their times, after the poll that found `s`: a poll finds those that were written
by then, and what is left of `s`. The last one finds all of them, and no more than a page is outstanding. -/
structure Stream (fl : Rounding) (p : Platform) (name : List UInt8) (m : Monitor .mongodb) (s : Profile)
    (polls : List (Poll .mongodb))
    (final : Poll .mongodb) (stream : List ProfileDoc) : Prop where
  ordered : Chronological ProfileDoc.ts stream
  written : ∀ poll ∈ polls ++ [final], ∀ found, poll.profile name = some found → ∃ k,
    (∀ doc ∈ stream.take k, doc ∈ found.stored) ∧ ∀ doc ∈ found.stored, doc ∈ stream.take k ∨ doc ∈ s.stored
  complete : ∃ found last, final.profile name = some found ∧ (m.after fl p polls).profileSeen name = some last ∧
    (∀ doc ∈ stream, doc ∈ found.stored) ∧
      (found.stored.filter fun doc => last < doc.ts ∧ doc.slow m.target.slowQueryThresholdMs).length ≤ mongoProfileMaxEntries

theorem ordered_of_stream {s : Profile} {final : Poll .mongodb} {stream : List ProfileDoc}
    (h : Stream fl p name m s polls final stream) {r : Round ProfileDoc} (hr : r ∈ rounds fl p name m (polls ++ [final])) :
    Ordered ProfileDoc.ts (stream.filter (ProfileDoc.slow m.target.slowQueryThresholdMs)) s.newest r := by
  intro doc hdoc doc' hdoc' hafter hbefore
  obtain ⟨hstream, hslow⟩ := List.mem_filter.mp hdoc
  obtain ⟨poll, hpoll, hvisible⟩ := mem_rounds hr
  rw [hvisible, matching] at hdoc' ⊢
  cases hfound : poll.profile name with
  | none =>
      rw [hfound] at hdoc'
      cases hdoc'
  | some found =>
      rw [hfound] at hdoc'
      obtain ⟨k, hwritten, hold⟩ := h.written poll hpoll found hfound
      obtain ⟨hstored, -⟩ := List.mem_filter.mp hdoc'
      refine List.mem_filter.mpr ⟨hwritten doc ?_, hslow⟩
      -- what is later than the first poll was not there then
      have htaken : doc' ∈ stream.take k := by
        refine (hold doc' hstored).resolve_right fun hthere => ?_
        have hle := le_newest hthere
        omega
      by_contra hrest
      have hsplit := List.take_append_drop k stream
      have hordered := h.ordered
      rw [Chronological, ← hsplit, List.pairwise_append] at hordered
      have hlater := hordered.2.2 doc' htaken doc ((List.mem_append.mp (hsplit.symm ▸ hstream)).resolve_left hrest)
      omega

end Rounds

/-- **Every entry of the profiler once.** A poll finds the profile of a database for the first time, and entries are written
from then on, in the order of their times. Each that is later than the first cursor, slow and not of the agent is aggregated
by exactly one of the polls, if and only if the answer to each of them has all of these entries that share the time of its
latest one. -/
theorem profiled_once_iff (fl : Rounding) (p : Platform) (m : Monitor .mongodb) (name : List UInt8) (seeding : Poll .mongodb)
    (s : Profile) (hunseen : m.profileSeen name = none) (hseeding : seeding.profile name = some s)
    (polls : List (Poll .mongodb))
    (final : Poll .mongodb) (stream : List ProfileDoc)
    (h : Stream fl p name (m.collect fl p seeding.outcome seeding.now).2 s polls final stream) :
    (∀ doc ∈ stream.filter (ProfileDoc.slow m.target.slowQueryThresholdMs), s.newest < doc.ts →
        InExactlyOne (pages fl p name (m.collect fl p seeding.outcome seeding.now).2 (polls ++ [final])) doc) ↔
      ∀ answer ∈ pages fl p name (m.collect fl p seeding.outcome seeding.now).2 (polls ++ [final]),
        Closed ProfileDoc.ts (stream.filter (ProfileDoc.slow m.target.slowQueryThresholdMs)) answer := by
  have hseen : (m.collect fl p seeding.outcome seeding.now).2.profileSeen name = some s.newest := by
    rw [profileSeen_collect, hunseen, hseeding]
    rfl
  have htarget : (m.collect fl p seeding.outcome seeding.now).2.target = m.target := target_collect
  generalize (m.collect fl p seeding.outcome seeding.now).2 = m' at h hseen htarget ⊢
  obtain ⟨found, last, hfound, hlast, hall, hfew⟩ := h.complete
  have hcursor := Option.some.inj ((profileSeen_after hseen).symm.trans hlast)
  have hreads := reads_rounds fl p (polls ++ [final]) hseen
  have hordered := fun r hr => ordered_of_stream h (r := r) hr
  have hmatching : matching name m'.target.slowQueryThresholdMs final =
      found.stored.filter (ProfileDoc.slow m'.target.slowQueryThresholdMs) := by
    rw [matching, hfound, Option.elim_some]
  rw [← htarget]
  unfold pages
  rw [rounds_append_singleton] at hreads hordered ⊢
  rw [List.forall_mem_map]
  refine inExactlyOne_iff hreads hordered (fun doc hdoc => ?_) ?_
  · obtain ⟨hstream, hslow⟩ := List.mem_filter.mp hdoc
    rw [hmatching]
    exact List.mem_filter.mpr ⟨hall doc hstream, hslow⟩
  · rw [hmatching, hcursor, List.filter_filter]
    convert hfew using 4
    rw [Bool.decide_and, Bool.decide_eq_true]

/-! ## Two entries -/

def shop : List UInt8 := utf8 "shop".toList

def shopDb : Target := ⟨utf8 "shop".toList, 1000, by decide⟩

/-- A query of the application that took two seconds. -/
def slowFind (recordId : Nat) (ts : Int) : ProfileDoc where
  recordId := recordId
  entry := ⟨utf8 "query".toList, utf8 "shop.orders".toList, [(utf8 "find".toList, .scalar [])], 2000, 10, 1, ts⟩
  appName := some (utf8 "web".toList)

/-- A poll that finds these entries. -/
def mongoPoll (minute : Nat) (stored : List ProfileDoc) (distinct : (stored.map ProfileDoc.recordId).Nodup) :
    Poll .mongodb where
  now := noon minute
  outcome := .answered (show MongoAnswers from
    { version := utf8 "8.0.4".toList, status := fun _ => none, secondary := false, members := none
      databases := some ⟨4096, [shop], List.nodup_singleton _⟩
      profiles := fun _ => some ⟨stored, distinct, asTheyCome⟩ })

theorem profile_mongoPoll (minute : Nat) (stored : List ProfileDoc) (distinct : (stored.map ProfileDoc.recordId).Nodup) :
    (mongoPoll minute stored distinct).profile shop = some ⟨stored, distinct, asTheyCome⟩ := by
  have hpolled : shop ∈ polledDatabases [shop] := by decide +kernel
  exact if_pos hpolled

def emptyPoll : Poll .mongodb := mongoPoll 0 [] List.nodup_nil

/-- After a poll that found nothing. -/
def seeded : Monitor .mongodb :=
  ((Monitor.start shopDb []).collect .exact plain emptyPoll.outcome emptyPoll.now).2

def firstEntry : ProfileDoc := slowFind 1 1772362830000

def firstEntryPoll : Poll .mongodb := mongoPoll 1 [firstEntry] (List.nodup_singleton _)

/-- The second entry is written after the next poll, so many milliseconds after the first. -/
def secondEntry (gap : Int) : ProfileDoc := slowFind 2 (1772362830000 + gap)

theorem distinct_entries (gap : Int) : ([firstEntry, secondEntry gap].map ProfileDoc.recordId).Nodup := by
  show [1, 2].Nodup
  decide

def secondEntryPoll (gap : Int) : Poll .mongodb := mongoPoll 2 [firstEntry, secondEntry gap] (distinct_entries gap)

theorem stream_entries {gap : Int} (hgap : 0 ≤ gap) : Stream .exact plain shop seeded ⟨[], List.nodup_nil, asTheyCome⟩
    [firstEntryPoll] (secondEntryPoll gap) [firstEntry, secondEntry gap] where
  ordered := List.pairwise_pair.mpr (show (1772362830000 : Int) ≤ 1772362830000 + gap by omega)
  written := by
    intro poll hpoll found hfound
    rcases List.mem_pair.mp hpoll with rfl | rfl
    · rw [firstEntryPoll, profile_mongoPoll] at hfound
      obtain rfl := Option.some.inj hfound
      exact ⟨1, fun _ h => h, fun _ h => .inl h⟩
    · rw [secondEntryPoll, profile_mongoPoll] at hfound
      obtain rfl := Option.some.inj hfound
      exact ⟨2, fun _ h => h, fun _ h => .inl h⟩
  complete := by
    refine ⟨_, 1772362830000, profile_mongoPoll _ _ _, by decide +kernel, fun _ h => h, ?_⟩
    exact (List.length_filter_le _ _).trans (show 2 ≤ mongoProfileMaxEntries by decide)

/-- What is aggregated of the two entries by the two polls. -/
def aggregated (gap : Int) : List (List ProfileDoc) := pages .exact plain shop seeded [firstEntryPoll, secondEntryPoll gap]

/-- Two entries at different times are aggregated once each. -/
theorem profiled_once_apart : InExactlyOne (aggregated 1) firstEntry ∧ InExactlyOne (aggregated 1) (secondEntry 1) := by
  have hslow : [firstEntry, secondEntry 1].filter (ProfileDoc.slow 1000) = [firstEntry, secondEntry 1] := by
    apply List.filter_eq_self.mpr
    intro doc hdoc
    rcases List.mem_pair.mp hdoc with rfl | rfl
    · decide +kernel
    · decide +kernel
  suffices hclosed : ∀ answer ∈ aggregated 1,
      Closed ProfileDoc.ts ([firstEntry, secondEntry 1].filter (ProfileDoc.slow 1000)) answer by
    have honce := (profiled_once_iff .exact plain (Monitor.start shopDb []) shop emptyPoll _ rfl (profile_mongoPoll _ _ _)
      [firstEntryPoll] (secondEntryPoll 1) _ (stream_entries (by decide))).mpr hclosed
    have hmem : ∀ doc ∈ [firstEntry, secondEntry 1], doc ∈ [firstEntry, secondEntry 1].filter (ProfileDoc.slow 1000) :=
      fun doc hdoc => hslow.symm ▸ hdoc
    exact ⟨honce _ (hmem _ List.mem_cons_self) (by decide), honce _ (hmem _ (List.mem_cons_of_mem _ List.mem_cons_self))
      (by decide)⟩
  intro answer hanswer b hb a ha htime
  obtain ⟨r, hr, rfl⟩ := List.mem_map.mp hanswer
  have hseen : seeded.profileSeen shop = some zeroTs := by decide +kernel
  obtain ⟨poll, hpoll, hvisible⟩ := mem_rounds hr
  have hfound := page_subset_visible (reads_rounds .exact plain _ hseen) hr hb.1
  have hentries : b ∈ [firstEntry, secondEntry 1] := by
    rw [hvisible] at hfound
    rcases List.mem_pair.mp hpoll with rfl | rfl
    · rw [matching, firstEntryPoll, profile_mongoPoll] at hfound
      exact List.mem_cons.mpr (.inl (List.mem_singleton.mp (List.mem_filter.mp hfound).1))
    · rw [matching, secondEntryPoll, profile_mongoPoll] at hfound
      exact (List.mem_filter.mp hfound).1
  have hsame : a = b := by
    rcases List.mem_pair.mp (List.mem_filter.mp ha).1 with rfl | rfl
    · rcases List.mem_pair.mp hentries with rfl | rfl
      · rfl
      · exact absurd htime (by decide)
    · rcases List.mem_pair.mp hentries with rfl | rfl
      · exact absurd htime (by decide)
      · rfl
  exact hsame ▸ hb.1

/-- **A lost entry.** The second entry is of the same millisecond as the first: no poll aggregates it. -/
theorem tie_lost : Stream .exact plain shop seeded ⟨[], List.nodup_nil, asTheyCome⟩ [firstEntryPoll] (secondEntryPoll 0)
      [firstEntry, secondEntry 0] ∧ secondEntry 0 ∈ [firstEntry, secondEntry 0].filter (ProfileDoc.slow 1000) ∧
        zeroTs < (secondEntry 0).ts ∧ (∀ answer ∈ aggregated 0, secondEntry 0 ∉ answer) ∧
          ¬ InExactlyOne (aggregated 0) (secondEntry 0) := by
  have hids : (aggregated 0).map (fun answer => answer.map ProfileDoc.recordId) = [[1], []] := by decide +kernel
  have hlost : ∀ answer ∈ aggregated 0, secondEntry 0 ∉ answer := by
    intro answer hanswer hmem
    have hread : answer.map ProfileDoc.recordId ∈ [[1], []] := hids ▸ List.mem_map_of_mem hanswer
    have hid : (2 : Nat) ∈ answer.map ProfileDoc.recordId := List.mem_map_of_mem (f := ProfileDoc.recordId) hmem
    rcases List.mem_pair.mp hread with heq | heq
    · rw [heq] at hid
      exact absurd hid (by decide)
    · rw [heq] at hid
      cases hid
  refine ⟨stream_entries le_rfl, ?_, by decide, hlost, ?_⟩
  · exact List.mem_filter.mpr ⟨List.mem_cons_of_mem _ List.mem_cons_self, by decide +kernel⟩
  · rintro ⟨before, answer, after, hsplit, hmem, -⟩
    exact hlost answer (hsplit ▸ List.mem_append_right _ List.mem_cons_self) hmem

end IkelyaneMonitor.Agent.Db
