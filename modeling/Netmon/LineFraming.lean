import Mathlib

/-!
# Cutting a stream into lines

A stream of symbols is cut at a delimiter into the lines that are complete and
the rest after the last delimiter.  `frame` does this in one pass.  The law that
makes it usable on a stream that arrives in pieces is `frame_append`: framing a
longer stream continues from the rest of the shorter one.
-/

namespace LineFraming

variable {α : Type} [DecidableEq α] (d : α)

/-- Put a symbol in front of the first line, or of the rest if there is none. -/
def prepend (x : α) : List (List α) × List α → List (List α) × List α
  | ([], rest) => ([], x :: rest)
  | (line :: lines, rest) => ((x :: line) :: lines, rest)

/-- The complete lines of a stream and the rest after its last delimiter. -/
def frame : List α → List (List α) × List α
  | [] => ([], [])
  | x :: stream =>
      if x = d then ([] :: (frame stream).1, (frame stream).2) else prepend x (frame stream)

/-- **Framing continues from the rest.** -/
theorem frame_append (a b : List α) :
    frame d (a ++ b) =
      ((frame d a).1 ++ (frame d ((frame d a).2 ++ b)).1, (frame d ((frame d a).2 ++ b)).2) := by
  induction a with
  | nil => rfl
  | cons x a ih =>
      by_cases hx : x = d
      · simp [frame, hx, ih]
      · cases hlines : (frame d a).1 with
        | nil =>
            have hframe : frame d a = ([], (frame d a).2) := by rw [← hlines]
            rw [hlines] at ih
            simp only [List.cons_append, frame, if_neg hx, ih, List.nil_append]
            rw [hframe]
            simp [prepend, frame, hx]
        | cons line lines =>
            have hframe : frame d a = (line :: lines, (frame d a).2) := by rw [← hlines]
            rw [hlines] at ih
            simp only [List.cons_append, frame, if_neg hx, ih]
            rw [hframe]
            simp [prepend]

/-- The first line of a stream ends at its first delimiter. -/
theorem frame_line {line : List α} (h : d ∉ line) (stream : List α) :
    frame d (line ++ d :: stream) = (line :: (frame d stream).1, (frame d stream).2) := by
  induction line with
  | nil => simp [frame]
  | cons x line ih =>
      obtain ⟨hx, hline⟩ := not_or.mp (mt List.mem_cons.mpr h)
      rw [List.cons_append, frame, if_neg (Ne.symm hx), ih hline]
      rfl

theorem frame_rest_not_mem (stream : List α) : d ∉ (frame d stream).2 := by
  induction stream with
  | nil => simp [frame]
  | cons x stream ih =>
      by_cases hx : x = d
      · simpa [frame, hx] using ih
      · rw [frame, if_neg hx]
        cases hframe : frame d stream with
        | mk lines rest =>
            rw [hframe] at ih
            cases lines with
            | nil => simpa [prepend, Ne.symm hx] using ih
            | cons line lines => simpa [prepend] using ih

/-- The lines and the rest are the pieces between the delimiters. -/
theorem splitOn_eq_frame (stream : List α) :
    stream.splitOn d = (frame d stream).1 ++ [(frame d stream).2] := by
  induction stream with
  | nil => rfl
  | cons x stream ih =>
      unfold List.splitOn at ih ⊢
      rw [List.splitOnP_cons_eq_if_modifyHead, ih]
      by_cases hx : x = d
      · simp [frame, hx]
      · cases hframe : frame d stream with
        | mk lines rest =>
            cases lines with
            | nil => simp [frame, hx, hframe, prepend]
            | cons line lines => simp [frame, hx, hframe, prepend]

/-- A text without delimiter begins the first piece of every stream it begins. -/
theorem splitOn_append_of_notMem {start : List α} (h : d ∉ start) (stream : List α) :
    ∃ first others, (start ++ stream).splitOn d = (start ++ first) :: others := by
  induction start with
  | nil =>
      obtain ⟨first, others, hsplit⟩ := List.exists_cons_of_ne_nil
        (show stream.splitOn d ≠ [] from List.splitOnP_ne_nil _ stream)
      exact ⟨first, others, hsplit⟩
  | cons x start ih =>
      obtain ⟨hx, hstart⟩ := not_or.mp (mt List.mem_cons.mpr h)
      obtain ⟨first, others, hsplit⟩ := ih hstart
      refine ⟨first, others, ?_⟩
      unfold List.splitOn at hsplit ⊢
      rw [List.cons_append, List.splitOnP_cons_eq_if_modifyHead, hsplit]
      simp [Ne.symm hx]

/-- The rest of a part of the stream begins a piece of the whole. -/
theorem exists_piece_of_rest (a b : List α) :
    ∃ more, (frame d a).2 ++ more ∈ (a ++ b).splitOn d := by
  obtain ⟨first, others, hsplit⟩ :=
    splitOn_append_of_notMem d (frame_rest_not_mem d a) b
  have hwhole : (a ++ b).splitOn d =
      (frame d a).1 ++ ((frame d a).2 ++ b).splitOn d := by
    rw [splitOn_eq_frame, splitOn_eq_frame, frame_append, List.append_assoc]
  refine ⟨first, ?_⟩
  rw [hwhole, hsplit]
  simp

end LineFraming
