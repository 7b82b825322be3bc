import Netmon.Types
import Netmon.Runs
import Netmon.LineFraming

/-!
# The syslog receivers

`handleTcpClient` of `syslog_server.cpp` collects what `recv` returns in a
pending buffer, delivers the complete lines and keeps the rest.  A rest longer
than `max_syslog_line_length` is thrown away.  But the line it belongs to is not
over: what arrives of it later is collected from an empty buffer and delivered
as if it were a line of its own.

The model is a run over the chunks that `recv` returns, in any sizes.  While no
rest outgrows the limit, the handler sees exactly the bounded lines of the
stream (`handleTcpClient_of_fits`); the first rest that does opens the door for
any text that follows it (`handleTcpClient_after_overflow`).
-/

namespace Netmon

namespace SyslogServer

open LineFraming

/-- The text handed to the handler for a received line, if any. -/
def deliver (config : Config) (line : Str) : Option Str :=
  (boundedLine line config.maxSyslogLineLength.toNat).filter (· ≠ [])

/-- The pending buffer of a connection and the texts delivered so far. -/
structure Connection where
  pending : Str := []
  delivered : List Str := []

/-- One successful `recv`: append the chunk, deliver every complete line, and
clear a rest that is too long. -/
def receive (config : Config) (c : Connection) (chunk : Str) : Connection :=
  let framed := frame 10 (c.pending ++ chunk)
  { pending :=
      if framed.2.length > config.maxSyslogLineLength.toNat then [] else framed.2
    delivered := c.delivered ++ framed.1.filterMap (deliver config) }

theorem receive_pending (config : Config) (c : Connection) (chunk : Str) :
    (receive config c chunk).pending =
      if (frame 10 (c.pending ++ chunk)).2.length > config.maxSyslogLineLength.toNat then []
      else (frame 10 (c.pending ++ chunk)).2 := rfl

theorem receive_delivered (config : Config) (c : Connection) (chunk : Str) :
    (receive config c chunk).delivered =
      c.delivered ++ (frame 10 (c.pending ++ chunk)).1.filterMap (deliver config) := rfl

/-- The texts that a connection delivers, given the chunks received before it
ends. -/
def handleTcpClient (config : Config) (chunks : List Str) : List Str :=
  let final := Runs.run (receive config) {} chunks
  if final.pending ≠ [] then final.delivered ++ (deliver config final.pending).toList
  else final.delivered

/-- One datagram in `runUdp`: `recvfrom` keeps what fits a buffer of
`max_syslog_line_length + 1` bytes, and what it returns is delivered whole. -/
def handleDatagram (config : Config) (datagram : Str) : List Str :=
  let received := datagram.take (config.maxSyslogLineLength + 1).toNat
  if received = [] then [] else (deliver config received).toList

/-! ## Lines of the stream -/

/-- The unterminated end of a stream. -/
def openLine (stream : Str) : Str := (frame 10 stream).2

/-- Whenever more is to come, the unterminated end of what was received is
within the limit. -/
def FitsBeforeEnd (config : Config) (chunks : List Str) : Prop :=
  ∀ before after, chunks = before ++ after → after ≠ [] →
    (openLine before.flatten).length ≤ config.maxSyslogLineLength.toNat

instance (config : Config) (chunks : List Str) : Decidable (FitsBeforeEnd config chunks) :=
  decidable_of_iff
    (∀ i < chunks.length, (openLine (chunks.take i).flatten).length ≤
      config.maxSyslogLineLength.toNat) (by
    constructor
    · rintro h before after rfl hne
      have hlength : before.length < (before ++ after).length := by
        simpa [List.length_pos_iff] using hne
      simpa using h before.length hlength
    · intro h i hi
      apply h (chunks.take i) (chunks.drop i) (List.take_append_drop i chunks).symm
      simpa using hi)

theorem FitsBeforeEnd.of_append {config : Config} {before after : List Str}
    (h : FitsBeforeEnd config (before ++ after)) : FitsBeforeEnd config before := by
  rintro first second rfl hne
  exact h first (second ++ after) (by simp) (by simp [hne])

theorem deliver_nil (config : Config) : deliver config [] = none := by
  simp [deliver, boundedLine, stripLineEnd]

theorem deliver_of_long {config : Config} {line : Str}
    (h : config.maxSyslogLineLength.toNat < line.length) : deliver config line = none := by
  simp [deliver, boundedLine, h]

theorem deliver_of_short {config : Config} {line : Str}
    (h : line.length ≤ config.maxSyslogLineLength.toNat) (hne : stripLineEnd line ≠ []) :
    deliver config line = some (stripLineEnd line) := by
  simp [deliver, boundedLine, not_lt.mpr h, hne]

/-- What is delivered for a line is the line without its end bytes. -/
theorem strip_of_deliver {config : Config} {line text : Str}
    (h : deliver config line = some text) : text = stripLineEnd line := by
  unfold deliver boundedLine at h
  split at h
  · simp at h
  · simp only [Option.filter_eq_some_iff] at h
    exact (Option.some.inj h.1).symm

/-- **The state of a connection.**  As long as no rest outgrew the limit before,
the delivered texts are those of the complete lines, and the pending buffer is
the unterminated end, cleared if it is too long by now. -/
theorem run_receive {config : Config} {chunks : List Str} (h : FitsBeforeEnd config chunks) :
    (Runs.run (receive config) {} chunks).delivered =
        (frame 10 chunks.flatten).1.filterMap (deliver config) ∧
      (Runs.run (receive config) {} chunks).pending =
        if (openLine chunks.flatten).length > config.maxSyslogLineLength.toNat then []
        else openLine chunks.flatten := by
  induction chunks using List.reverseRecOn with
  | nil => simp [openLine, frame]
  | append_singleton before chunk ih =>
      obtain ⟨hdelivered, hpending⟩ := ih h.of_append
      have hfits := h before [chunk] rfl (by simp)
      rw [if_neg (not_lt.mpr hfits)] at hpending
      have hflat : (before ++ [chunk]).flatten = before.flatten ++ chunk := by simp
      rw [Runs.run_concat, hflat, openLine, frame_append, receive_delivered, receive_pending,
        hpending, hdelivered]
      exact ⟨by simp [openLine], rfl⟩

/-- **Framing.**  On a stream whose rests stay within the limit the handler sees
the bounded lines of the stream, each once and in order. -/
theorem handleTcpClient_of_fits {config : Config} {chunks : List Str}
    (h : FitsBeforeEnd config chunks) :
    handleTcpClient config chunks =
      (chunks.flatten.splitOn 10).filterMap (deliver config) := by
  obtain ⟨hdelivered, hpending⟩ := run_receive h
  rw [splitOn_eq_frame, List.filterMap_append, ← hdelivered]
  unfold handleTcpClient
  by_cases hlong : (openLine chunks.flatten).length > config.maxSyslogLineLength.toNat
  · rw [if_pos hlong] at hpending
    have hnone : deliver config (frame 10 chunks.flatten).2 = none := deliver_of_long hlong
    simp [hpending, hnone]
  · rw [if_neg hlong] at hpending
    by_cases hempty : openLine chunks.flatten = []
    · have hrest : (frame 10 chunks.flatten).2 = [] := hempty
      simp [hpending, hempty, hrest, deliver_nil]
    · simp only [hpending, hempty, ne_eq, not_false_eq_true, if_true]
      cases hdeliver : deliver config (openLine chunks.flatten) with
      | none => simp [show deliver config (frame 10 chunks.flatten).2 = none from hdeliver]
      | some text =>
          simp [show deliver config (frame 10 chunks.flatten).2 = some text from hdeliver]

/-- **After an overflow.**  Once the rest has outgrown the limit, any text that
ends the line is delivered for itself, although the line it ends is longer than
the limit. -/
theorem handleTcpClient_after_overflow {config : Config} {chunks : List Str}
    (h : FitsBeforeEnd config chunks)
    (hlong : config.maxSyslogLineLength.toNat < (openLine chunks.flatten).length)
    {ending : Str} (hline : 10 ∉ ending)
    (hshort : ending.length ≤ config.maxSyslogLineLength.toNat)
    (hne : stripLineEnd ending ≠ []) :
    handleTcpClient config (chunks ++ [ending ++ [10]]) =
      (frame 10 chunks.flatten).1.filterMap (deliver config) ++ [stripLineEnd ending] := by
  obtain ⟨hdelivered, hpending⟩ := run_receive h
  rw [if_pos hlong] at hpending
  have hframe : frame 10 (ending ++ [10]) = ([ending], []) := by
    rw [frame_line 10 hline]
    rfl
  unfold handleTcpClient
  simp only [Runs.run_concat, receive_pending, receive_delivered, hpending, hdelivered,
    List.nil_append, hframe]
  simp [deliver_of_short hshort hne]

/-- **While only whole lines are delivered.**  If, whenever more is to come, the
unterminated end of the stream is within the limit, then every text handed to
the handler is a line of the stream, or its unterminated last line, without the
end bytes.  The condition cannot be dropped: at the first chunk after which the
unterminated end is too long, every text that completes the line within the
limit is delivered as a line of its own, while the line of the stream is the
longer one. -/
theorem whole_lines_delivered (config : Config) :
    (∀ chunks, FitsBeforeEnd config chunks →
      ∀ text ∈ handleTcpClient config chunks,
        ∃ line ∈ chunks.flatten.splitOn 10, text = stripLineEnd line) ∧
    (∀ chunks ending, FitsBeforeEnd config chunks →
      config.maxSyslogLineLength.toNat < (openLine chunks.flatten).length →
      10 ∉ ending → ending.length ≤ config.maxSyslogLineLength.toNat →
      stripLineEnd ending ≠ [] →
      (chunks ++ [ending ++ [10]]).flatten.splitOn 10 =
          (frame 10 chunks.flatten).1 ++ [openLine chunks.flatten ++ ending, []] ∧
        handleTcpClient config (chunks ++ [ending ++ [10]]) =
          (frame 10 chunks.flatten).1.filterMap (deliver config) ++ [stripLineEnd ending]) := by
  refine ⟨?_, ?_⟩
  · intro chunks hfits text htext
    rw [handleTcpClient_of_fits hfits] at htext
    obtain ⟨line, hline, hdeliver⟩ := List.mem_filterMap.mp htext
    exact ⟨line, hline, strip_of_deliver hdeliver⟩
  · intro chunks ending hfits hlong hline hshort hne
    refine ⟨?_, handleTcpClient_after_overflow hfits hlong hline hshort hne⟩
    have hfree : (10 : UInt8) ∉ openLine chunks.flatten ++ ending := by
      intro hmem
      rcases List.mem_append.mp hmem with hopen | hending
      · exact frame_rest_not_mem 10 _ hopen
      · exact hline hending
    have hframe : frame 10 ((frame 10 chunks.flatten).2 ++ (ending ++ [10])) =
        ([openLine chunks.flatten ++ ending], []) := by
      rw [← List.append_assoc]
      exact frame_line 10 hfree []
    have hflat : (chunks ++ [ending ++ [10]]).flatten = chunks.flatten ++ (ending ++ [10]) := by
      simp
    rw [splitOn_eq_frame, hflat, frame_append, hframe]
    simp

/-- Two lines in chunks that cut through both are delivered whole. -/
theorem whole_lines_delivered_cut :
    handleTcpClient { maxSyslogLineLength := 4 } [str "ab", str "cd\ne", str "f\r\n"] =
        [str "abcd", str "ef"] ∧
      ∀ text ∈ handleTcpClient { maxSyslogLineLength := 4 }
        [str "ab", str "cd\ne", str "f\r\n"],
        ∃ line ∈ [str "ab", str "cd\ne", str "f\r\n"].flatten.splitOn 10,
          text = stripLineEnd line :=
  ⟨by decide, (whole_lines_delivered { maxSyslogLineLength := 4 }).1 _ (by decide)⟩

/-- With a limit of three bytes, the line `abcdef` cut after its fourth byte is
delivered as `ef`, which is no line of the stream. -/
theorem overlong_line_delivers_suffix :
    handleTcpClient { maxSyslogLineLength := 3 } [str "abcd", str "ef\n"] = [str "ef"] ∧
      ¬ ∃ line ∈ [str "abcd", str "ef\n"].flatten.splitOn 10,
        str "ef" = stripLineEnd line := by
  refine ⟨by decide, by decide⟩

end SyslogServer

end Netmon
