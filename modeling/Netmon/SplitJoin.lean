import Netmon.Database
import Netmon.HaltingLoops

/-!
# Splitting and joining

The loop of `split` keeps a position `start` and runs while it is at most the size of
the text, so that a delimiter at the very end still gives an empty last part; it is left
through the `break` of the round that finds no further delimiter.  The recursion `split`
is what this loop returns.  Its parts hold no delimiter and join back to the text, and
the tags that `tagsText` joins are the tags that `parseTags` reads.
-/

namespace Netmon

open HaltingLoops

/-! ## The loop -/

/-- `value.find(delimiter, start)`. -/
def findFrom (value : Str) (delimiter : UInt8) (start : Nat) : Option Nat :=
  ((value.drop start).findIdx? (· = delimiter)).map (start + ·)

/-- The variables of the loop, and whether its `break` was reached. -/
structure SplitState where
  start : Nat
  out : List Str
  broken : Bool

/-- A round of `while (start <= value.size())`. -/
def splitRound (value : Str) (delimiter : UInt8) (s : SplitState) : Option SplitState :=
  if s.broken then none
  else if s.start ≤ value.length then
    match findFrom value delimiter s.start with
    | none => some { s with out := s.out ++ [value.drop s.start], broken := true }
    | some pos =>
        some { s with
          start := pos + 1
          out := s.out ++ [(value.drop s.start).take (pos - s.start)] }
  else none

section Rounds

variable {value part : Str} {delimiter : UInt8} {start : Nat}

theorem findIdx?_eq_none_of_notMem (h : delimiter ∉ part) :
    part.findIdx? (· = delimiter) = none := by
  rw [List.findIdx?_eq_none_iff]
  intro b hb
  exact decide_eq_false fun heq => h (heq ▸ hb)

/-- Without a further delimiter, the round takes the rest and breaks. -/
theorem splitRound_last (hstart : start ≤ value.length) (hvalue : value.drop start = part)
    (hpart : delimiter ∉ part) (out : List Str) :
    splitRound value delimiter ⟨start, out, false⟩ = some ⟨start, out ++ [part], true⟩ := by
  have hfind : findFrom value delimiter start = none := by
    rw [findFrom, hvalue, findIdx?_eq_none_of_notMem hpart, Option.map_none]
  simp [splitRound, hstart, hfind, hvalue]

/-- With one, the round takes the text before it and moves past it. -/
theorem splitRound_next (hstart : start ≤ value.length) {rest : Str}
    (hvalue : value.drop start = part ++ delimiter :: rest) (hpart : delimiter ∉ part)
    (out : List Str) :
    splitRound value delimiter ⟨start, out, false⟩ =
      some ⟨start + part.length + 1, out ++ [part], false⟩ := by
  have hindex : (part ++ delimiter :: rest).findIdx? (· = delimiter) = some part.length := by
    rw [List.findIdx?_append, findIdx?_eq_none_of_notMem hpart]
    simp [List.findIdx?_cons]
  have hfind : findFrom value delimiter start = some (start + part.length) := by
    rw [findFrom, hvalue, hindex, Option.map_some]
  simp [splitRound, hstart, hfind, hvalue]

end Rounds

/-- **The loop returns the parts**: from any position it adds those of the rest of the
text, and is left through its `break`. -/
theorem halts_splitRound {value : Str} {delimiter : UInt8} {start : Nat}
    (hstart : start ≤ value.length) (out : List Str) :
    ∃ stop, Halts (splitRound value delimiter) ⟨start, out, false⟩
      ⟨stop, out ++ split (value.drop start) delimiter, true⟩ := by
  generalize hrest : value.drop start = rest
  induction rest using delimited_induction delimiter generalizing start out with
  | last part hpart =>
      refine ⟨start, .round (splitRound_last hstart hrest hpart out) ?_⟩
      rw [split_of_notMem hpart]
      exact .leave rfl
  | next part rest hpart ih =>
      have hcount := congrArg List.length hrest
      rw [List.length_drop, List.length_append, List.length_cons] at hcount
      have htail : value.drop (start + part.length + 1) = rest := by
        rw [Nat.add_assoc, ← List.drop_drop, hrest, ← List.drop_drop, List.drop_left,
          List.drop_succ_cons, List.drop_zero]
      obtain ⟨stop, hstop⟩ := ih (by omega) (out ++ [part]) htail
      refine ⟨stop, .round (splitRound_next hstart hrest hpart out) ?_⟩
      rw [split_append_delimiter, split_of_notMem hpart, ← List.append_assoc]
      exact hstop

/-! ## Parts -/

/-- No part holds the delimiter. -/
theorem notMem_of_mem_split {value part : Str} {delimiter : UInt8}
    (hmem : part ∈ split value delimiter) : delimiter ∉ part := by
  induction value using delimited_induction delimiter with
  | last value hvalue =>
      rw [split_of_notMem hvalue, List.mem_singleton] at hmem
      rwa [hmem]
  | next first rest hfirst ih =>
      rw [split_append_delimiter, split_of_notMem hfirst] at hmem
      rcases List.mem_cons.mp hmem with rfl | hrest
      · exact hfirst
      · exact ih hrest

/-- There is one more part than there are delimiters. -/
theorem length_split (value : Str) (delimiter : UInt8) :
    (split value delimiter).length = value.count delimiter + 1 := by
  induction value using delimited_induction delimiter with
  | last value hvalue =>
      rw [split_of_notMem hvalue, List.count_eq_zero.mpr hvalue, List.length_singleton]
  | next first rest hfirst ih =>
      rw [split_append_delimiter, split_of_notMem hfirst, List.length_append, ih,
        List.count_append, List.count_cons_self, List.count_eq_zero.mpr hfirst,
        List.length_singleton]
      omega

/-- Joining the parts gives the text back. -/
theorem intercalate_split (value : Str) (delimiter : UInt8) :
    [delimiter].intercalate (split value delimiter) = value := by
  rw [split_eq_splitOn]
  exact List.intercalate_splitOn delimiter

/-! ## Tags -/

/-- Tags that are not empty, trimmed and without a comma are read back. -/
theorem parseTags_tagsText {tags : List Str} (hne : ∀ tag ∈ tags, tag ≠ [])
    (htrim : ∀ tag ∈ tags, trim tag = tag) (hcomma : ∀ tag ∈ tags, 44 ∉ tag) :
    parseTags (tagsText tags) = tags := by
  cases tags with
  | nil => rfl
  | cons tag rest =>
      unfold parseTags tagsText
      rw [split_intercalate hcomma (List.cons_ne_nil _ _), List.map_congr_left htrim,
        List.map_id', List.filter_eq_self]
      intro t ht
      exact decide_eq_true (hne t ht)

/-- **Splitting and joining are inverse.**  The loop of `split` halts on every text; the
parts it returns join back to the text, none holds the delimiter, and there is one more
of them than there are delimiters.  So tags survive their text. -/
theorem split_join_inverse (value : Str) (delimiter : UInt8) (tags : List Str)
    (hne : ∀ tag ∈ tags, tag ≠ []) (htrim : ∀ tag ∈ tags, trim tag = tag)
    (hcomma : ∀ tag ∈ tags, 44 ∉ tag) :
    (∃ stop, Halts (splitRound value delimiter) ⟨0, [], false⟩
      ⟨stop, split value delimiter, true⟩) ∧
      [delimiter].intercalate (split value delimiter) = value ∧
      (∀ part ∈ split value delimiter, delimiter ∉ part) ∧
      (split value delimiter).length = value.count delimiter + 1 ∧
      parseTags (tagsText tags) = tags := by
  refine ⟨?_, intercalate_split value delimiter, fun part hpart => notMem_of_mem_split hpart,
    length_split value delimiter, parseTags_tagsText hne htrim hcomma⟩
  exact halts_splitRound (Nat.zero_le _) []

/-- A text that ends in its delimiter, and two tags. -/
theorem split_join_inverse_guest :
    split (str "a;;b;") 59 = [str "a", [], str "b", []] ∧
      [59].intercalate (split (str "a;;b;") 59) = str "a;;b;" ∧
      parseTags (tagsText [str "guest wifi", str "tv"]) = [str "guest wifi", str "tv"] := by
  obtain ⟨-, hjoin, -, -, htags⟩ := split_join_inverse (str "a;;b;") 59
    [str "guest wifi", str "tv"] (by decide) (by decide) (by decide)
  exact ⟨by decide, hjoin, htags⟩

end Netmon
