import Netmon.SyslogServer

/-!
# Reception of lines within the limit

On a stream whose lines are all within `max_syslog_line_length`, the pending
buffer of a connection never outgrows the limit, however the stream is cut into
chunks: the buffer holds the beginning of a line of the stream.  The connection
then delivers the stripped lines of the stream, one by one.

A datagram is measured together with the newline that ends it, a line of a
connection without.  So the two receivers part at one length: a line of exactly
`max_syslog_line_length` bytes arrives over TCP and is refused over UDP.
-/

namespace Netmon

namespace SyslogServer

open LineFraming

/-! ## Conforming streams -/

/-- A stream of lines within the limit stays within it at every cut. -/
theorem fitsBeforeEnd_of_lines {config : Config} {chunks : List Str}
    (h : ∀ line ∈ chunks.flatten.splitOn 10, line.length ≤ config.maxSyslogLineLength.toNat) :
    FitsBeforeEnd config chunks := by
  intro before after hchunks _
  obtain ⟨more, hpiece⟩ := exists_piece_of_rest 10 before.flatten after.flatten
  rw [← List.flatten_append, ← hchunks] at hpiece
  have hlength := h _ hpiece
  rw [List.length_append] at hlength
  have hopen : (openLine before.flatten).length = (frame 10 before.flatten).2.length := rfl
  omega

/-- What is delivered for lines within the limit is what is left of them without
their end bytes, where anything is left. -/
theorem filterMap_deliver {config : Config} {lines : List Str}
    (h : ∀ line ∈ lines, line.length ≤ config.maxSyslogLineLength.toNat) :
    lines.filterMap (deliver config) = (lines.map stripLineEnd).filter (· ≠ []) := by
  induction lines with
  | nil => rfl
  | cons line lines ih =>
      have hlines := ih fun other hother => h other (List.mem_cons_of_mem line hother)
      have hshort := h line List.mem_cons_self
      by_cases hempty : stripLineEnd line = []
      · have hnone : deliver config line = none := by
          simp [deliver, boundedLine, not_lt.mpr hshort, hempty]
        rw [List.filterMap_cons_none hnone, hlines]
        simp [hempty]
      · rw [List.filterMap_cons_some (deliver_of_short hshort hempty), hlines]
        simp [hempty]

/-- **Framing is complete and independent of the chunks.**  When every line of
the stream, the unterminated last one included, is within the limit, every way
of cutting the stream into chunks delivers the lines of the stream without their
end bytes, those that are not empty then, each once and in order. -/
theorem conforming_lines_delivered (config : Config) (stream : Str)
    (hlines : ∀ line ∈ stream.splitOn 10, line.length ≤ config.maxSyslogLineLength.toNat)
    (chunks : List Str) (hcut : chunks.flatten = stream) :
    handleTcpClient config chunks =
      ((stream.splitOn 10).map stripLineEnd).filter (· ≠ []) := by
  subst hcut
  rw [handleTcpClient_of_fits (fitsBeforeEnd_of_lines hlines), filterMap_deliver hlines]

/-- Four lines, two of them of the maximum length, cut inside a `\r\n` and inside
a line; the one that holds end bytes only is passed over. -/
theorem conforming_lines_delivered_cut :
    handleTcpClient { maxSyslogLineLength := 3 }
        [str "ab\r", str "\nc", str "\r\n\r\nxy", str "z"] =
      [str "ab", str "c", str "xyz"] := by
  rw [conforming_lines_delivered { maxSyslogLineLength := 3 } (str "ab\r\nc\r\n\r\nxyz")
    (by decide) _ (by decide)]
  decide

/-! ## UDP and TCP -/

/-- An end byte more makes no difference. -/
theorem stripLineEnd_concat {b : UInt8} (h : isLineEnd b = true) (line : Str) :
    stripLineEnd (line ++ [b]) = stripLineEnd line := by
  simp [stripLineEnd, h]

/-- The newline at the end of a line is not delivered. -/
theorem stripLineEnd_newline (line : Str) :
    stripLineEnd (line ++ [10]) = stripLineEnd line := stripLineEnd_concat rfl line

/-- A line of a connection, in any chunks. -/
theorem handleTcpClient_line {config : Config} {line : Str} (hline : 10 ∉ line)
    (hshort : line.length ≤ config.maxSyslogLineLength.toNat) {chunks : List Str}
    (hcut : chunks.flatten = line ++ [10]) :
    handleTcpClient config chunks = [stripLineEnd line].filter (· ≠ []) := by
  have hsplit : chunks.flatten.splitOn 10 = [line, []] := by
    rw [hcut, splitOn_eq_frame, frame_line 10 hline]
    rfl
  have hlines : ∀ piece ∈ chunks.flatten.splitOn 10,
      piece.length ≤ config.maxSyslogLineLength.toNat := by
    rw [hsplit]
    intro piece hpiece
    rcases List.mem_cons.mp hpiece with rfl | hlast
    · exact hshort
    · simp [List.mem_singleton.mp hlast]
  rw [handleTcpClient_of_fits (fitsBeforeEnd_of_lines hlines), filterMap_deliver hlines, hsplit]
  by_cases hempty : stripLineEnd line = []
  · simp [hempty, show stripLineEnd [] = [] from rfl]
  · simp [hempty, show stripLineEnd [] = [] from rfl]

/-- A datagram that leaves room in the buffer is delivered without its end bytes. -/
theorem handleDatagram_of_room {config : Config} {datagram : Str}
    (hroom : datagram.length < (config.maxSyslogLineLength + 1).toNat) :
    handleDatagram config datagram = [stripLineEnd datagram].filter (· ≠ []) := by
  have hbuffer : (config.maxSyslogLineLength + 1).toNat ≤
      config.maxSyslogLineLength.toNat + 1 := by
    rw [UInt64.toNat_add]
    exact Nat.mod_le _ _
  have hshort : datagram.length ≤ config.maxSyslogLineLength.toNat := by omega
  have htaken : datagram.take (config.maxSyslogLineLength + 1).toNat = datagram :=
    List.take_of_length_le hroom.le
  have hdeliver : deliver config datagram = (some (stripLineEnd datagram)).filter (· ≠ []) := by
    rw [deliver, boundedLine, if_neg (not_lt.mpr hshort)]
  unfold handleDatagram
  simp only [htaken, hdeliver]
  by_cases hnil : datagram = []
  · rw [if_pos hnil, hnil]
    rfl
  rw [if_neg hnil]
  by_cases hempty : stripLineEnd datagram = []
  · simp [hempty]
  · simp [hempty]

/-- A datagram that fills the buffer is refused. -/
theorem handleDatagram_of_full {config : Config} {datagram : Str}
    (hfull : (config.maxSyslogLineLength + 1).toNat ≤ datagram.length) :
    handleDatagram config datagram = [] := by
  have hlength : (datagram.take (config.maxSyslogLineLength + 1).toNat).length =
      (config.maxSyslogLineLength + 1).toNat := by
    rw [List.length_take, Nat.min_eq_left hfull]
  unfold handleDatagram
  simp only
  split
  · rfl
  · rename_i hsome
    have hpos : 0 < (config.maxSyslogLineLength + 1).toNat := by
      rw [← hlength]
      exact List.length_pos_iff.mpr hsome
    have hbuffer : (config.maxSyslogLineLength + 1).toNat =
        config.maxSyslogLineLength.toNat + 1 := by
      have hmax := config.maxSyslogLineLength.toNat_lt
      rw [UInt64.toNat_add] at hpos ⊢
      have hone : (1 : UInt64).toNat = 1 := rfl
      rw [hone] at hpos ⊢
      omega
    rw [deliver_of_long (by omega)]
    rfl

/-- **Exactly when UDP and TCP agree.**  For a line within the limit, the
datagram of the line and its newline and the same bytes on a connection, in any
chunks, lead to the same calls of the handler exactly if the datagram is smaller
than the receive buffer, or the line holds end bytes only and there is nothing
to deliver. -/
theorem udp_tcp_agree_iff (config : Config) (line : Str) (hline : 10 ∉ line)
    (hshort : line.length ≤ config.maxSyslogLineLength.toNat)
    (chunks : List Str) (hcut : chunks.flatten = line ++ [10]) :
    handleDatagram config (line ++ [10]) = handleTcpClient config chunks ↔
      (line ++ [10]).length < (config.maxSyslogLineLength + 1).toNat ∨
        stripLineEnd line = [] := by
  rw [handleTcpClient_line hline hshort hcut]
  by_cases hroom : (line ++ [10]).length < (config.maxSyslogLineLength + 1).toNat
  · refine iff_of_true ?_ (Or.inl hroom)
    rw [handleDatagram_of_room hroom, stripLineEnd_newline]
  · rw [handleDatagram_of_full (not_lt.mp hroom)]
    by_cases hempty : stripLineEnd line = []
    · exact iff_of_true (by simp [hempty]) (Or.inr hempty)
    · exact iff_of_false (by simp [hempty]) (not_or.mpr ⟨hroom, hempty⟩)

/-- A line that is one byte below the limit arrives the same way over both. -/
theorem udp_tcp_agree_iff_below :
    handleDatagram { maxSyslogLineLength := 4 } (str "abc" ++ [10]) =
        handleTcpClient { maxSyslogLineLength := 4 } [str "ab", str "c\n"] ∧
      handleDatagram { maxSyslogLineLength := 4 } (str "abc" ++ [10]) = [str "abc"] :=
  ⟨(udp_tcp_agree_iff { maxSyslogLineLength := 4 } (str "abc") (by decide) (by decide)
    [str "ab", str "c\n"] (by decide)).mpr (Or.inl (by decide)), by decide⟩

/-- A line of exactly the maximum length arrives over TCP and is lost over UDP. -/
theorem longest_line_lost_over_udp :
    handleTcpClient { maxSyslogLineLength := 3 } [str "abc\n"] = [str "abc"] ∧
      handleDatagram { maxSyslogLineLength := 3 } (str "abc\n") = [] := by
  refine ⟨by decide, by decide⟩

end SyslogServer

end Netmon
