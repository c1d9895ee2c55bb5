import IkelyaneMonitor.Agent.Run
import IkelyaneMonitor.Agent.SlowQueries
import IkelyaneMonitor.Remediation.Executions
import IkelyaneMonitor.Wire.Cuts

/-!
# Cut outputs and texts (`agent/internal/remediation`, `agent/internal/dbmetrics`, `modules/remediation/executions.ts`)

* `truncateUTF8_utf8` : backing up to the start of a character leaves the whole characters before the cut;
* `truncateBytes` : `truncateOutput` on the bytes, as the source computes it; `truncateOutput_eq` : it is the one of the
  lifecycle;
* `Cut` : a prefix of a text that fits, and misses the limit by three bytes at most where it is cut;
* `truncation_law` : all three ways to cut.
-/

namespace IkelyaneMonitor.Remediation
open Wire Text

/-! ## `truncateUTF8` -/

theorem runeStart_eq (b : UInt8) : Agent.Db.runeStart b = !isContinuation b := by
  have hall : ∀ n < 256, Agent.Db.runeStart (UInt8.ofNat n) = !isContinuation (UInt8.ofNat n) := by decide +kernel
  have hb := hall b.toNat b.toNat_lt
  rwa [UInt8.ofNat_toNat] at hb

/-- From any byte of a character the loop comes to the first one. -/
theorem runeCut_eq (before after : List UInt8) {tail : List UInt8} {lead : UInt8} (hlead : isContinuation lead = false)
    (htail : ∀ b ∈ tail, isContinuation b = true) {j : Nat} (hj : j ≤ tail.length) :
    Agent.Db.runeCut (before ++ lead :: tail ++ after) (before.length + j) = before.length := by
  induction j with
  | zero =>
      rw [Nat.add_zero]
      cases hlength : before.length with
      | zero => rfl
      | succ n =>
          have hget : (before ++ lead :: tail ++ after).getD (n + 1) 0 = lead := by
            rw [← hlength]
            simp
          rw [Agent.Db.runeCut, hget, runeStart_eq, hlead, if_pos (by rfl)]
  | succ j ih =>
      have hget : (before ++ lead :: tail ++ after).getD (before.length + j + 1) 0 = tail.getD j 0 := by
        rw [List.append_assoc, List.getD_append_right _ _ _ _ (by omega), List.cons_append]
        have hsub : before.length + j + 1 - before.length = j + 1 := by omega
        rw [hsub, List.getD_cons_succ, List.getD_append _ _ _ _ (by omega)]
      have hmem : tail.getD j 0 ∈ tail := by
        rw [List.getD_eq_getElem _ _ (by omega)]
        exact List.getElem_mem _
      rw [← Nat.add_assoc, Agent.Db.runeCut, hget, runeStart_eq, htail _ hmem, if_neg (by decide), ih (by omega)]

theorem truncateUTF8_utf8 (l : List Char) (n : Nat) : Agent.Db.truncateUTF8 (utf8 l) n = utf8 (bytePrefix n l) := by
  unfold Agent.Db.truncateUTF8
  split
  · rename_i hfits
    rw [bytePrefix_of_fits hfits]
  · rename_i hlong
    obtain ⟨c, rest, hl, hc⟩ := eq_append_of_lt (Nat.not_le.mp hlong)
    have hle := length_bytePrefix_le n l
    obtain ⟨lead, tail, henc, hlead, htail⟩ := continuation_tail c
    have hsize := String.length_utf8EncodeChar c
    rw [henc, List.length_cons] at hsize
    have hbytes : utf8 l = utf8 (bytePrefix n l) ++ lead :: tail ++ utf8 rest := by
      conv_lhs => rw [hl, utf8_append]
      rw [List.append_assoc, ← henc]
      rfl
    have hwithin : n - (utf8 (bytePrefix n l)).length ≤ tail.length := by omega
    have hcut := runeCut_eq (utf8 (bytePrefix n l)) (utf8 rest) hlead htail hwithin
    rw [← hbytes, Nat.add_sub_cancel' hle] at hcut
    rw [hcut, hbytes, List.append_assoc, List.take_left]

/-! ## `truncateOutput` -/

/-- `replace(/\uFFFD$/, "")`. -/
def dropReplacement (l : List Char) : List Char := if l.getLast? = some replacement then l.dropLast else l

/-- `truncateOutput`, by the bytes. -/
def truncateBytes : Option String → Option String
  | none => none
  | some text =>
    if text = "" then none
    else
      let bytes := utf8 text.toList
      if bytes.length ≤ maxOutputBytes then some text
      else some (String.ofList (dropReplacement (toText (bytes.take maxOutputBytes))))

/-- What is left of the characters before the cut: all of them, or all but a replacement character that the cut follows. -/
theorem dropReplacement_take {n : Nat} {l : List Char} (h : n < (utf8 l).length) :
    dropReplacement (toText ((utf8 l).take n)) =
      if (utf8 (bytePrefix n l)).length = n then dropReplacement (bytePrefix n l) else bytePrefix n l := by
  obtain ⟨c, htake, hc⟩ := take_utf8 h
  have hle := length_bytePrefix_le n l
  rw [htake, toText_utf8_append]
  split
  · rename_i hfull
    rw [hfull, Nat.sub_self, List.take_zero]
    show dropReplacement (bytePrefix n l ++ []) = _
    rw [List.append_nil]
  · rename_i hpart
    rw [toText_take (by omega) hc, dropReplacement, List.getLast?_concat, if_pos rfl, List.dropLast_concat]

theorem truncateOutput_eq (text : Option String) : truncateOutput text = truncateBytes text := by
  cases text with
  | none => rfl
  | some text =>
      simp only [truncateOutput, truncateBytes, utf8ByteSize_eq, String.toList_ofList]
      split
      · rfl
      split
      · rfl
      rename_i hlong
      rw [dropReplacement_take (Nat.not_le.mp hlong), dropReplacement]
      by_cases hfull : (utf8 (bytePrefix maxOutputBytes text.toList)).length = maxOutputBytes
      · rw [if_pos hfull]
        by_cases hlast : (bytePrefix maxOutputBytes text.toList).getLast? = some replacement
        · rw [if_pos ⟨hfull, hlast⟩, if_pos hlast]
        · rw [if_neg fun h => hlast h.2, if_neg hlast]
      · rw [if_neg hfull, if_neg fun h => hfull h.1]

/-- A text that fits, or a prefix of it that does, at most three bytes short of the limit. -/
structure Cut (n : Nat) (text kept : List Char) : Prop where
  isPrefix : kept <+: text
  fits : (utf8 kept).length ≤ n
  whole : (utf8 text).length ≤ n → kept = text
  close : n < (utf8 text).length → n ≤ (utf8 kept).length + 3

theorem cut_bytePrefix (n : Nat) (l : List Char) : Cut n l (bytePrefix n l) := by
  refine ⟨prefix_bytePrefix n l, length_bytePrefix_le n l, bytePrefix_of_fits, ?_⟩
  intro hlong
  obtain ⟨c, rest, -, hc⟩ := eq_append_of_lt hlong
  have hsize := c.utf8Size_le_four
  omega

theorem cut_dropReplacement {n : Nat} {l : List Char} (hlong : n < (utf8 l).length)
    (hfull : (utf8 (bytePrefix n l)).length = n) :
    Cut n l (dropReplacement (bytePrefix n l)) := by
  unfold dropReplacement
  split
  · rename_i hlast
    have hsplit : bytePrefix n l = (bytePrefix n l).dropLast ++ [replacement] :=
      (List.dropLast_append_getLast? replacement hlast).symm
    have hbytes : (utf8 (bytePrefix n l)).length = (utf8 (bytePrefix n l).dropLast).length + 3 := by
      conv_lhs => rw [hsplit, utf8_append, List.length_append]
      rfl
    refine ⟨(List.dropLast_prefix _).trans (prefix_bytePrefix n l), by omega, ?_, by omega⟩
    intro hfits
    omega
  · exact cut_bytePrefix n l

theorem cut_truncateOutput {text : String} (h : text ≠ "") :
    ∃ kept, truncateOutput (some text) = some (String.ofList kept) ∧ Cut maxOutputBytes text.toList kept := by
  rw [truncateOutput_eq]
  simp only [truncateBytes]
  rw [if_neg h]
  split
  · rename_i hfits
    refine ⟨text.toList, by rw [String.ofList_toList], List.prefix_refl _, hfits, fun _ => rfl, ?_⟩
    intro hlong
    omega
  · rename_i hlong
    rw [dropReplacement_take (Nat.not_le.mp hlong)]
    split
    · rename_i hfull
      exact ⟨_, rfl, cut_dropReplacement (Nat.not_le.mp hlong) hfull⟩
    · exact ⟨_, rfl, cut_bytePrefix _ _⟩

/-! ## The law -/

/-- A buffer holds the first bytes of what was written to it, however it was written; a text of the agent is cut to its
longest prefix that fits; an output is cut to whole characters of it, close to the limit. -/
theorem truncation_law :
    (∀ writes : List (List UInt8),
      (writes.foldl Agent.Run.CappedBuffer.write .empty).buf =
          writes.flatten.take (min writes.flatten.length Agent.Run.maxOutputBytes) ∧
        ((writes.foldl Agent.Run.CappedBuffer.write .empty).truncated = true ↔
          Agent.Run.maxOutputBytes < writes.flatten.length)) ∧
    (∀ (text : List Char) (n : Nat), ∃ kept, Agent.Db.truncateUTF8 (utf8 text) n = utf8 kept ∧ kept <+: text ∧
      (utf8 kept).length ≤ n ∧ ∀ other, other <+: text → (utf8 other).length ≤ n → other <+: kept) ∧
    ∀ text : String, truncateOutput (some text) = truncateBytes (some text) ∧
      (text ≠ "" → ∃ kept, truncateOutput (some text) = some (String.ofList kept) ∧ Cut maxOutputBytes text.toList kept) := by
  refine ⟨?_, ?_, ?_⟩
  · intro writes
    obtain ⟨hbuf, htruncated⟩ := Agent.Run.holds_writes Agent.Run.holds_empty writes
    rw [List.nil_append] at hbuf htruncated
    rw [hbuf, htruncated]
    refine ⟨?_, decide_eq_true_iff⟩
    rw [Nat.min_comm, ← List.take_take, List.take_length]
  · intro text n
    exact ⟨bytePrefix n text, truncateUTF8_utf8 text n, prefix_bytePrefix n text, length_bytePrefix_le n text,
      fun other hother hfits => bytePrefix_longest hother hfits⟩
  · intro text
    exact ⟨truncateOutput_eq _, cut_truncateOutput⟩

end IkelyaneMonitor.Remediation
