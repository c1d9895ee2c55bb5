import Mathlib
import IkelyaneMonitor.Agent.Buffer
import IkelyaneMonitor.Replay.Fifo
import IkelyaneMonitor.Wire.Stamps

/-!
# The files of the buffer (`agent/internal/buffer/buffer.go`)

* `File`, `removeFile`, `stat`, `writeFile` : the directory; `evictIfFull`, `push`, `pending` : the operations on it, with the
  names that are given to the files and the order in which they are listed;
* `Pushed`, `idealStep` : the queue that the directory stands for, from which nothing is pruned; `run` : either along calls;
* `Meets` : a file is pushed in a year with as many digits as the years of the files that are there;
* `Sim` : the files are the entries of the queue without some that are too old, and are listed in their order;
* `refines_fifo` : in a run that meets the condition `Pending` returns what is fresh in the queue; `misordered_year` : in
  another it does not.

A file is read and written without errors, and what is written at a time has it as the time of its last modification.
-/

namespace IkelyaneMonitor.Agent.Disk
open Wire

def filePrefix : List Char := "payload-".toList

def fileSuffix : List Char := ".json".toList

/-- A regular file of the directory. -/
structure File where
  name : List Char
  modTime : Int
  body : String
  deriving DecidableEq

/-- One payload, ready to be sent. -/
structure Entry where
  path : List Char
  body : String
  deriving DecidableEq, Repr

/-! ## The directory -/

/-- A name that is not there is no error. -/
def removeFile (name : List Char) (dir : List File) : List File := dir.filter fun f => f.name ≠ name

def stat (name : List Char) (dir : List File) : Option File := dir.find? fun f => f.name = name

def writeFile (name : List Char) (now : Int) (body : String) (dir : List File) : List File :=
  removeFile name dir ++ [⟨name, now, body⟩]

/-- `sort.Strings`. -/
def sortStrings (names : List (List Char)) : List (List Char) := names.insertionSort (· ≤ ·)

/-! ## The operations -/

def evictIfFull (dir : List File) : List File :=
  if dir.length < maxEntries then dir
  else
    let names := sortStrings (dir.map File.name)
    let toDrop := names.length - maxEntries + 1
    (names.take toDrop).foldl (fun dir name => removeFile name dir) dir

def fileName (now : Int) : List Char := filePrefix ++ (stamp now ++ fileSuffix)

def push (now : Int) (body : String) (dir : List File) : List File := writeFile (fileName now) now body (evictIfFull dir)

/-- The loop of `Pending` over the names that are left: the directory afterwards, and the entries. -/
def readFrom (cutoff : Int) : (names : List (List Char)) → (dir : List File) → List File × List Entry
  | [], dir => (dir, [])
  | name :: names, dir =>
    match stat name dir with
    | none => readFrom cutoff names dir
    | some info =>
      if info.modTime < cutoff then readFrom cutoff names (removeFile name dir)
      else
        let rest := readFrom cutoff names dir
        (rest.1, ⟨name, info.body⟩ :: rest.2)

def pending (now : Int) (dir : List File) : List File × List Entry :=
  let names := (dir.map File.name).filter fun name => filePrefix.length + fileSuffix.length < name.length
  readFrom (now - maxAge) (sortStrings names) dir

inductive Op where
  | push (body : String)
  | pending
  | remove (path : List Char)
  deriving DecidableEq

/-- A call at a time, and what `Pending` returns. -/
def step (now : Int) : Op → List File → List File × Option (List Entry)
  | .push body, dir => (push now body dir, none)
  | .pending, dir => ((pending now dir).1, some (pending now dir).2)
  | .remove path, dir => (removeFile path dir, none)

/-! ## The queue -/

/-- A body, and when it was pushed. -/
structure Pushed where
  time : Int
  body : String
  deriving DecidableEq

def Pushed.file (p : Pushed) : File := ⟨fileName p.time, p.time, p.body⟩

@[simp] theorem Pushed.file_modTime (p : Pushed) : p.file.modTime = p.time := rfl

@[simp] theorem Pushed.file_name (p : Pushed) : p.file.name = fileName p.time := rfl

def Pushed.entry (p : Pushed) : Entry := ⟨fileName p.time, p.body⟩

def Pushed.stale (now : Int) (p : Pushed) : Bool := p.time < now - maxAge

/-- The entries that were pushed, and not removed or evicted. An age counts only for what `Pending` returns. -/
def idealStep (now : Int) : Op → List Pushed → List Pushed × Option (List Entry)
  | .push body, queue => (Fifo.push maxEntries ⟨now, body⟩ queue, none)
  | .pending, queue => (queue, some ((Fifo.fresh Pushed.stale now queue).map Pushed.entry))
  | .remove path, queue => (Fifo.remove (fun p => fileName p.time = path) queue, none)

/-- The state after calls at their times, and what `Pending` returned on the way. -/
def run {σ : Type} (step : Int → Op → σ → σ × Option (List Entry)) : List (Int × Op) → σ → σ × List (List Entry)
  | [], s => (s, [])
  | call :: calls, s =>
    let one := step call.1 call.2 s
    let rest := run step calls one.1
    (rest.1, one.2.toList ++ rest.2)

/-- A file is pushed in a year that is not negative and has as many digits as the years of the files in the directory. -/
def Op.Meets (now : Int) (dir : List File) : Op → Prop
  | .push _ => 0 ≤ yearOf now ∧ ∀ f ∈ dir, (yearText (yearOf f.modTime)).length = (yearText (yearOf now)).length
  | .pending | .remove _ => True

/-- Every call of the run meets the condition. -/
def Meets : List (Int × Op) → List File → Prop
  | [], _ => True
  | call :: calls, dir => call.2.Meets call.1 dir ∧ Meets calls (step call.1 call.2 dir).1

/-! ## Files in the order of their names -/

section Listing
variable {dir : List File}

theorem removeFile_of_ne {name : List Char} (h : ∀ f ∈ dir, f.name ≠ name) : removeFile name dir = dir := by
  unfold removeFile
  rw [List.filter_eq_self]
  intro f hf
  simpa using h f hf

theorem removeFile_append (name : List Char) (dir dir' : List File) :
    removeFile name (dir ++ dir') = removeFile name dir ++ removeFile name dir' := List.filter_append ..

theorem removeFile_cons {f : File} (h : ∀ g ∈ dir, g.name ≠ f.name) : removeFile f.name (f :: dir) = dir := by
  have hself : removeFile f.name [f] = [] := by simp [removeFile]
  show removeFile f.name ([f] ++ dir) = dir
  rw [removeFile_append, hself, List.nil_append, removeFile_of_ne h]

/-- Names in order are listed as they are. -/
theorem sortStrings_eq {names : List (List Char)} (h : names.Pairwise (· < ·)) : sortStrings names = names :=
  List.Pairwise.insertionSort_eq (h.imp le_of_lt)

theorem foldl_removeFile (n : Nat) (h : (dir.map File.name).Nodup) :
    ((dir.map File.name).take n).foldl (fun dir name => removeFile name dir) dir = dir.drop n := by
  induction dir generalizing n with
  | nil => simp
  | cons f dir ih =>
      cases n with
      | zero => rfl
      | succ n =>
          obtain ⟨hnew, hrest⟩ := List.nodup_cons.mp h
          have hfirst : removeFile f.name (f :: dir) = dir := removeFile_cons fun g hg heq =>
            hnew (List.mem_map.mpr ⟨g, hg, heq⟩)
          rw [List.map_cons, List.take_succ_cons, List.foldl_cons, hfirst, List.drop_succ_cons]
          exact ih n hrest

theorem evictIfFull_eq (h : (dir.map File.name).Pairwise (· < ·)) :
    evictIfFull dir = if dir.length < maxEntries then dir else dir.drop (dir.length - maxEntries + 1) := by
  unfold evictIfFull
  split
  · rfl
  · simp only [sortStrings_eq h, List.length_map]
    exact foldl_removeFile _ (h.imp ne_of_lt)

/-- `done` are the files that were looked at and stay. -/
theorem readFrom_eq (cutoff : Int) (done dir : List File) (h : ((done ++ dir).map File.name).Nodup) :
    readFrom cutoff (dir.map File.name) (done ++ dir) =
      (done ++ dir.filter fun f => !decide (f.modTime < cutoff),
        (dir.filter fun f => !decide (f.modTime < cutoff)).map fun f => ⟨f.name, f.body⟩) := by
  induction dir generalizing done with
  | nil => rfl
  | cons f dir ih =>
      rw [List.map_append, List.nodup_append] at h
      obtain ⟨hdone, hrest, hne⟩ := h
      have hdone_ne : ∀ g ∈ done, g.name ≠ f.name := fun g hg =>
        hne _ (List.mem_map_of_mem hg) _ (List.mem_map_of_mem List.mem_cons_self)
      obtain ⟨hnew, hdir⟩ := List.nodup_cons.mp hrest
      have hstat : stat f.name (done ++ f :: dir) = some f := by
        unfold stat
        rw [List.find?_append, List.find?_eq_none.mpr fun g hg => by simpa using hdone_ne g hg]
        simp
      rw [List.map_cons, readFrom, hstat]
      dsimp only
      split
      · rename_i hold
        have hremoved : removeFile f.name (done ++ f :: dir) = done ++ dir := by
          rw [removeFile_append, removeFile_of_ne hdone_ne,
            removeFile_cons fun g hg heq => hnew (List.mem_map.mpr ⟨g, hg, heq⟩)]
        rw [hremoved, ih done, List.filter_cons_of_neg (by simpa using hold)]
        rw [List.map_append, List.nodup_append]
        exact ⟨hdone, hdir, fun x hx y hy => hne x hx y (List.mem_cons_of_mem _ hy)⟩
      · rename_i hfresh
        have hnext := ih (done ++ [f])
        rw [List.append_assoc, List.singleton_append] at hnext
        rw [hnext, List.filter_cons_of_pos (by simpa using hfresh), List.append_assoc]
        · rfl
        · rw [List.map_append, List.nodup_append]
          exact ⟨hdone, hrest, hne⟩

end Listing

/-! ## The files stand for the queue -/

theorem fileName_lt {t t' : Int} (hpos : 0 ≤ yearOf t)
    (hlen : (yearText (yearOf t)).length = (yearText (yearOf t')).length) (h : t < t') : fileName t < fileName t' := by
  have hstamp : (stamp t).length = (stamp t').length := by
    rw [length_stamp, length_stamp, hlen]
  unfold fileName
  apply List.append_left_lt
  exact append_lt_append hstamp (stamp_lt hpos hlen h) _ _

/-- Pushed earlier, and listed earlier. -/
def Pushed.Before (p q : Pushed) : Prop := p.time < q.time ∧ fileName p.time < fileName q.time

theorem ages : Fifo.Ages Pushed.stale Pushed.Before where
  later := by
    intro now now' p hle h
    simp only [Pushed.stale, decide_eq_true_eq] at h ⊢
    omega
  earlier := by
    intro now p q hbefore h
    have hlt := hbefore.1
    simp only [Pushed.stale, decide_eq_true_eq] at h ⊢
    omega

section Files
variable {kept : List Pushed}

theorem names_lt (h : kept.Pairwise Pushed.Before) : ((kept.map Pushed.file).map File.name).Pairwise (· < ·) := by
  rw [List.map_map, List.pairwise_map]
  exact h.imp fun hbefore => hbefore.2

theorem push_files (h : kept.Pairwise Pushed.Before) (hbound : kept.length ≤ maxEntries) {now : Int} {body : String}
    (hnew : ∀ p ∈ kept, p.Before ⟨now, body⟩) :
    push now body (kept.map Pushed.file) = (Fifo.push maxEntries ⟨now, body⟩ kept).map Pushed.file := by
  have hroom : evictIfFull (kept.map Pushed.file) =
      (if kept.length < maxEntries then kept else kept.tail).map Pushed.file := by
    rw [evictIfFull_eq (names_lt h), List.length_map, ← Fifo.drop_excess hbound]
    split
    · rfl
    · rw [List.map_drop]
  have hother : ∀ f ∈ (if kept.length < maxEntries then kept else kept.tail).map Pushed.file, f.name ≠ fileName now := by
    intro f hf
    obtain ⟨p, hp, rfl⟩ := List.mem_map.mp hf
    exact ne_of_lt (hnew p (Fifo.mem_of_mem_room hp)).2
  unfold push writeFile Fifo.push
  rw [hroom, removeFile_of_ne hother, List.map_append]
  rfl

theorem pending_files (h : kept.Pairwise Pushed.Before) (now : Int) :
    pending now (kept.map Pushed.file) =
      ((Fifo.fresh Pushed.stale now kept).map Pushed.file, (Fifo.fresh Pushed.stale now kept).map Pushed.entry) := by
  have hnames : ((kept.map Pushed.file).map File.name).filter
      (fun name => filePrefix.length + fileSuffix.length < name.length) = (kept.map Pushed.file).map File.name := by
    rw [List.filter_eq_self]
    intro name hname
    rw [List.map_map] at hname
    obtain ⟨p, -, rfl⟩ := List.mem_map.mp hname
    have hlen : (fileName p.time).length = filePrefix.length + ((stamp p.time).length + fileSuffix.length) := by
      rw [fileName, List.length_append, List.length_append]
    have hstamp := length_stamp p.time
    show decide (_ < (fileName p.time).length) = true
    rw [decide_eq_true_eq, hlen]
    omega
  have hread := readFrom_eq (now - maxAge) [] (kept.map Pushed.file) ((names_lt h).imp ne_of_lt)
  rw [List.nil_append] at hread
  unfold pending
  simp only [hnames]
  rw [sortStrings_eq (names_lt h), hread, List.nil_append, List.filter_map, List.map_map]
  rfl

theorem remove_files (path : List Char) :
    removeFile path (kept.map Pushed.file) = (Fifo.remove (fun p => fileName p.time = path) kept).map Pushed.file := by
  unfold removeFile Fifo.remove
  rw [List.filter_map]
  congr 1
  apply List.filter_congr
  intro p _
  by_cases hp : fileName p.time = path <;> simp [hp]

/-- A file as the cycle of the agent has it, with the time for its name. -/
def Pushed.cycleEntry (p : Pushed) : Agent.Entry := ⟨p.time, p.time, p.body⟩

/-- The cycle pushes what the directory does. -/
theorem push_cycleEntry {dep : Deployment} (hbound : kept.length ≤ maxEntries) {now : Int} {body : String}
    (hnew : ∀ p ∈ kept, p.time < now) :
    (Agent.push dep now body (kept.map Pushed.cycleEntry)).1 =
      (Fifo.push maxEntries ⟨now, body⟩ kept).map Pushed.cycleEntry := by
  have hroom : (Agent.evictIfFull dep (kept.map Pushed.cycleEntry)).1 =
      (if kept.length < maxEntries then kept else kept.tail).map Pushed.cycleEntry := by
    unfold Agent.evictIfFull
    rw [List.length_map, ← Fifo.drop_excess hbound]
    split
    · rfl
    · dsimp only
      rw [List.map_drop]
  have hearlier : ∀ e ∈ (if kept.length < maxEntries then kept else kept.tail).map Pushed.cycleEntry, e.name < now := by
    intro e he
    obtain ⟨p, hp, rfl⟩ := List.mem_map.mp he
    exact hnew p (Fifo.mem_of_mem_room hp)
  unfold Agent.push Fifo.push
  dsimp only
  rw [hroom, List.filter_eq_self.mpr fun e he => decide_eq_true (hearlier e he),
    List.filter_eq_nil_iff.mpr fun e he => by simpa using le_of_lt (hearlier e he), List.map_append]
  rfl

end Files

/-- The files of the directory are the entries that are `kept`: those of the queue without some that are too old now. -/
structure Sim (now : Int) (dir : List File) (kept queue : List Pushed) : Prop where
  files : dir = kept.map Pushed.file
  lags : Fifo.Lags Pushed.stale now kept queue
  ordered : kept.Pairwise Pushed.Before
  past : ∀ p ∈ kept, p.time ≤ now
  year_nonneg : ∀ p ∈ kept, 0 ≤ yearOf p.time
  length_le : queue.length ≤ maxEntries

section Runs
variable {now later : Int} {dir : List File} {kept queue : List Pushed}

theorem Sim.kept_length_le (h : Sim now dir kept queue) : kept.length ≤ maxEntries := by
  obtain ⟨old, hqueue, -⟩ := h.lags
  have hle := h.length_le
  rw [hqueue, List.length_append] at hle
  omega

theorem Sim.before_new (h : Sim now dir kept queue) (hlt : now < later) {body : String}
    (hmeets : (Op.push body).Meets later dir) : ∀ p ∈ kept, p.Before ⟨later, body⟩ := by
  intro p hp
  have htime : p.time < later := lt_of_le_of_lt (h.past p hp) hlt
  have hfile : p.file ∈ dir := by
    rw [h.files]
    exact List.mem_map_of_mem hp
  have hlen := hmeets.2 _ hfile
  rw [Pushed.file_modTime] at hlen
  exact ⟨htime, fileName_lt (h.year_nonneg p hp) hlen htime⟩

theorem Sim.push (h : Sim now dir kept queue) (hlt : now < later) {body : String}
    (hmeets : (Op.push body).Meets later dir) :
    Sim later (push later body dir) (Fifo.push maxEntries ⟨later, body⟩ kept)
      (Fifo.push maxEntries ⟨later, body⟩ queue) where
  files := by
    rw [h.files]
    exact push_files h.ordered h.kept_length_le (h.before_new hlt hmeets)
  lags := (h.lags.mono ages (le_of_lt hlt)).push h.length_le _
  ordered := Fifo.pairwise_push h.ordered (h.before_new hlt hmeets)
  past := by
    intro p hp
    rcases Fifo.mem_of_mem_push hp with hold | rfl
    · exact le_trans (h.past p hold) (le_of_lt hlt)
    · exact le_refl _
  year_nonneg := by
    intro p hp
    rcases Fifo.mem_of_mem_push hp with hold | rfl
    · exact h.year_nonneg p hold
    · exact hmeets.1
  length_le := Fifo.length_push_le (by decide) h.length_le _

/-- What stays of the entries that are kept. -/
theorem Sim.sublist (h : Sim now dir kept queue) (hle : now ≤ later) {dir' : List File} {kept' queue' : List Pushed}
    (hsub : kept'.Sublist kept) (hfiles : dir' = kept'.map Pushed.file) (hlags : Fifo.Lags Pushed.stale later kept' queue')
    (hlength : queue'.length ≤ queue.length) : Sim later dir' kept' queue' where
  files := hfiles
  lags := hlags
  ordered := h.ordered.sublist hsub
  past := fun p hp => le_trans (h.past p (hsub.subset hp)) hle
  year_nonneg := fun p hp => h.year_nonneg p (hsub.subset hp)
  length_le := le_trans hlength h.length_le

/-- One call keeps the simulation, and returns what the queue returns. -/
theorem Sim.step (h : Sim now dir kept queue) (hlt : now < later) {op : Op} (hmeets : op.Meets later dir) :
    (∃ kept', Sim later (step later op dir).1 kept' (idealStep later op queue).1) ∧
      (step later op dir).2 = (idealStep later op queue).2 := by
  have hlags := h.lags.mono ages (le_of_lt hlt)
  cases op with
  | push body => exact ⟨⟨_, h.push hlt hmeets⟩, rfl⟩
  | pending =>
      have hpending := pending_files h.ordered later
      rw [← h.files] at hpending
      simp only [Disk.step, idealStep, hpending]
      refine ⟨⟨_, h.sublist (le_of_lt hlt) List.filter_sublist rfl (hlags.prune ages h.ordered) (le_refl _)⟩, ?_⟩
      rw [hlags.fresh_eq]
  | remove path =>
      refine ⟨⟨_, h.sublist (le_of_lt hlt) List.filter_sublist ?_ (hlags.remove _) (Fifo.length_remove_le _ _)⟩, rfl⟩
      rw [h.files]
      exact remove_files path

/-- A run keeps the simulation up to its last call, and returns what the queue returns. -/
theorem Sim.run {calls : List (Int × Op)} (h : Sim now dir kept queue) (hclock : (calls.map Prod.fst).Pairwise (· < ·))
    (hfuture : ∀ call ∈ calls, now < call.1) (hmeets : Meets calls dir) :
    (∃ last kept', (last = now ∨ ∃ call ∈ calls, last = call.1) ∧
      Sim last (run Disk.step calls dir).1 kept' (run idealStep calls queue).1) ∧
      (run Disk.step calls dir).2 = (run idealStep calls queue).2 := by
  induction calls generalizing now dir kept queue with
  | nil => exact ⟨⟨now, kept, Or.inl rfl, h⟩, rfl⟩
  | cons call calls ih =>
      obtain ⟨hfirst, hrest⟩ := List.pairwise_cons.mp hclock
      obtain ⟨⟨kept', hstep⟩, hanswer⟩ := h.step (hfuture call List.mem_cons_self) hmeets.1
      obtain ⟨⟨last, kept', hlast, hsim⟩, hanswers⟩ :=
        ih hstep hrest (fun c hc => hfirst _ (List.mem_map_of_mem hc)) hmeets.2
      refine ⟨⟨last, kept', Or.inr ?_, hsim⟩, ?_⟩
      · rcases hlast with rfl | ⟨c, hc, rfl⟩
        · exact ⟨call, List.mem_cons_self, rfl⟩
        · exact ⟨c, List.mem_cons_of_mem _ hc, rfl⟩
      · show _ ++ _ = _ ++ _
        rw [hanswer, hanswers]

end Runs

theorem sim_empty (now : Int) : Sim now [] [] [] where
  files := rfl
  lags := Fifo.Lags.refl _ _
  ordered := List.Pairwise.nil
  past := fun _ h => absurd h List.not_mem_nil
  year_nonneg := fun _ h => absurd h List.not_mem_nil
  length_le := Nat.zero_le _

theorem meets_append {before after : List (Int × Op)} {dir : List File} (h : Meets (before ++ after) dir) :
    Meets before dir ∧ Meets after (run step before dir).1 := by
  induction before generalizing dir with
  | nil => exact ⟨trivial, h⟩
  | cons call before ih =>
      obtain ⟨hone, hrest⟩ := h
      obtain ⟨hbefore, hafter⟩ := ih hrest
      exact ⟨⟨hone, hbefore⟩, hafter⟩

theorem exists_earlier (calls : List (Int × Op)) : ∃ now, ∀ call ∈ calls, now < call.1 := by
  induction calls with
  | nil => exact ⟨0, fun _ h => absurd h List.not_mem_nil⟩
  | cons call calls ih =>
      obtain ⟨now, hnow⟩ := ih
      refine ⟨min now (call.1 - 1), fun c hc => ?_⟩
      rcases List.mem_cons.mp hc with rfl | hc
      · omega
      · exact lt_of_le_of_lt (min_le_left _ _) (hnow c hc)

/-! ## Years of four digits -/

theorem mem_of_mem_foldl {names : List (List Char)} {dir : List File} {f : File}
    (h : f ∈ names.foldl (fun dir name => removeFile name dir) dir) : f ∈ dir := by
  induction names generalizing dir with
  | nil => exact h
  | cons name names ih => exact List.mem_of_mem_filter (ih h)

theorem mem_of_mem_readFrom {cutoff : Int} {names : List (List Char)} {dir : List File} {f : File}
    (h : f ∈ (readFrom cutoff names dir).1) : f ∈ dir := by
  induction names generalizing dir with
  | nil => exact h
  | cons name names ih =>
      rw [readFrom] at h
      split at h
      · exact ih h
      · split at h
        · exact List.mem_of_mem_filter (ih h)
        · exact ih h

/-- A file was there before, or was written now. -/
theorem mem_step {now : Int} {op : Op} {dir : List File} {f : File} (h : f ∈ (step now op dir).1) :
    f ∈ dir ∨ f.modTime = now := by
  cases op with
  | push body =>
      rcases List.mem_append.mp h with hold | hnew
      · refine Or.inl ?_
        have hroom := List.mem_of_mem_filter hold
        unfold evictIfFull at hroom
        split at hroom
        · exact hroom
        · exact mem_of_mem_foldl hroom
      · exact Or.inr (by rw [List.mem_singleton.mp hnew])
  | pending => exact Or.inl (mem_of_mem_readFrom h)
  | remove path => exact Or.inl (List.mem_of_mem_filter h)

/-- The years from 0 to 9999 meet the condition. -/
theorem meets_of_four_digits (calls : List (Int × Op)) {dir : List File}
    (hcalls : ∀ call ∈ calls, 0 ≤ yearOf call.1 ∧ yearOf call.1 < 10000)
    (hdir : ∀ f ∈ dir, 0 ≤ yearOf f.modTime ∧ yearOf f.modTime < 10000) : Meets calls dir := by
  have hfour : ∀ t : Int, 0 ≤ yearOf t ∧ yearOf t < 10000 → (yearText (yearOf t)).length = 4 := by
    rintro t ⟨hpos, hlt⟩
    rw [yearText, if_neg (by omega), List.nil_append]
    exact length_padded (by decide) (by omega)
  induction calls generalizing dir with
  | nil => trivial
  | cons call calls ih =>
      have hcall := hcalls call List.mem_cons_self
      refine ⟨?_, ih (fun c hc => hcalls c (List.mem_cons_of_mem _ hc)) fun f hf => ?_⟩
      · cases call.2 with
        | push body => exact ⟨hcall.1, fun f hf => (hfour _ (hdir f hf)).trans (hfour _ hcall).symm⟩
        | pending => trivial
        | remove path => trivial
      · rcases mem_step hf with hold | hnow
        · exact hdir f hold
        · rw [hnow]
          exact hcall

/-! ## Every run -/

/-- In a run that meets the condition, from an empty directory and with a clock that goes on, `Pending` returns what is not
too old of what was pushed, and not removed or evicted; there are never more than `maxEntries` files, from the oldest to the
newest, and `Push` removes the oldest when there are as many. -/
theorem refines_fifo (calls : List (Int × Op)) (hclock : (calls.map Prod.fst).Pairwise (· < ·)) (hmeets : Meets calls []) :
    (run step calls []).2 = (run idealStep calls []).2 ∧
      ∀ before after, calls = before ++ after →
        ((run step before []).1.length ≤ maxEntries ∧
          (run step before []).1.Pairwise fun f g => f.modTime < g.modTime) ∧
        ∀ now body rest, after = (now, .push body) :: rest →
          push now body (run step before []).1 =
            Fifo.push maxEntries ⟨fileName now, now, body⟩ (run step before []).1 := by
  obtain ⟨start, hstart⟩ := exists_earlier calls
  refine ⟨((sim_empty start).run hclock hstart hmeets).2, ?_⟩
  rintro before after rfl
  rw [List.map_append, List.pairwise_append] at hclock
  obtain ⟨hbefore, hafter, hlater⟩ := hclock
  obtain ⟨hmeets, hnext⟩ := meets_append hmeets
  obtain ⟨⟨last, kept, hlast, hsim⟩, -⟩ := (sim_empty start).run hbefore
    (fun call hcall => hstart call (List.mem_append_left _ hcall)) hmeets
  refine ⟨⟨?_, ?_⟩, ?_⟩
  · rw [hsim.files, List.length_map]
    exact hsim.kept_length_le
  · rw [hsim.files, List.pairwise_map]
    exact hsim.ordered.imp fun h => h.1
  · rintro now body rest rfl
    have hlt : last < now := by
      rcases hlast with rfl | ⟨call, hcall, rfl⟩
      · exact hstart _ (List.mem_append_right _ List.mem_cons_self)
      · exact hlater _ (List.mem_map_of_mem hcall) _ List.mem_cons_self
    have hpush := (hsim.push hlt hnext.1).files
    rw [hpush, hsim.files]
    unfold Fifo.push
    rw [List.map_append, List.length_map]
    congr 1
    split
    · rfl
    · exact List.map_tail

/-- Two are pushed, and the first is removed once both were read. The second is read when it is seven days old, and not
later. -/
def outage : List (Int × Op) :=
  [(1758000000000000000, .push "a"), (1758000060000000000, .push "b"), (1758000060000000001, .pending),
    (1758000061000000000, .remove (fileName 1758000000000000000)), (1758604860000000000, .pending),
    (1758604860000000001, .pending)]

theorem refines_fifo_outage : (run step outage []).2.map (List.map Entry.body) = [["a", "b"], ["b"], []] := by
  have hmeets : Meets outage [] := meets_of_four_digits _ (by decide +kernel) (fun _ h => absurd h List.not_mem_nil)
  rw [(refines_fifo outage (by decide) hmeets).1]
  decide +kernel

/-- A payload that is pushed as the year 10000 begins, after one in the last second of the year before. -/
def newYear : List (Int × Op) :=
  [(253402300799000000000, .push "a"), (253402300800000000000, .push "b"), (253402300801000000000, .pending)]

/-- The payload of the year 10000 is returned before the older one. -/
theorem misordered_year : (newYear.map Prod.fst).Pairwise (· < ·) ∧
    (run step newYear []).2.map (List.map Entry.body) = [["b", "a"]] ∧
    (run idealStep newYear []).2.map (List.map Entry.body) = [["a", "b"]] := by
  refine ⟨by decide, ?_, ?_⟩
  · decide +kernel
  · decide +kernel

end IkelyaneMonitor.Agent.Disk
