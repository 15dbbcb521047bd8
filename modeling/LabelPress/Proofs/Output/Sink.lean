import LabelPress.Output.Sink

/-! Sending to a sink that may be short of room. A write moves bytes from the front of what is left
to the end of what is written, so a sink always holds a prefix of the program. How long it is in the
end depends on the room alone, and not on how many bytes one write takes. -/
namespace LabelPress

namespace Sink

def room (s : Sink) (n : Nat) : Nat := atMost (s.limit.map (· - s.written.length)) n

/-- A write takes at least one byte as long as there is room. -/
def Progresses (s : Sink) : Prop := ∀ c ∈ s.chunk, 0 < c

def write (s : Sink) (data : List UInt8) : Sink :=
  { s with written := s.written ++ data.take (s.accepted data.length) }

def unwritten (s : Sink) (data : List UInt8) : List UInt8 := data.drop (s.accepted data.length)

/-- So many writes one after the other, each of which takes some of what is left. -/
inductive Writes : Nat → Sink → List UInt8 → Sink → List UInt8 → Prop
  | nothing (s : Sink) (data : List UInt8) : Writes 0 s data s data
  | more {n : Nat} {s t : Sink} {data rest : List UInt8} :
      0 < s.accepted data.length → Writes n (s.write data) (s.unwritten data) t rest →
        Writes (n + 1) s data t rest

theorem accepted_le_room (s : Sink) (n : Nat) : s.accepted n ≤ s.room n := by
  unfold accepted room atMost
  split <;> split <;> omega

theorem room_eq_zero {s : Sink} (h : s.Progresses) {n : Nat} (hn : s.accepted n = 0) :
    s.room n = 0 := by
  unfold Progresses at h
  unfold accepted at hn
  unfold room
  cases hchunk : s.chunk with
  | none => rwa [hchunk] at hn
  | some c =>
    have hc := h c hchunk
    rw [hchunk] at hn
    cases hlimit : s.limit with
    | none =>
      simp only [hlimit, atMost, Option.map_none] at hn ⊢
      omega
    | some limit =>
      simp only [hlimit, atMost, Option.map_some] at hn ⊢
      omega

theorem write_append_unwritten (s : Sink) (data : List UInt8) :
    (s.write data).written ++ s.unwritten data = s.written ++ data := by
  unfold write unwritten
  rw [List.append_assoc, List.take_append_drop]

theorem room_write (s : Sink) (data : List UInt8) :
    (s.write data).room (s.unwritten data).length + data.length =
      s.room data.length + (s.unwritten data).length := by
  have hle := s.accepted_le data.length
  have hroom := s.accepted_le_room data.length
  unfold room write unwritten at *
  simp only [List.length_append, List.length_take, List.length_drop] at *
  cases hlimit : s.limit with
  | none =>
    simp only [hlimit, atMost, Option.map_none] at hroom ⊢
    omega
  | some limit =>
    simp only [hlimit, atMost, Option.map_some] at hroom ⊢
    omega

namespace Writes

variable {n : Nat} {s t : Sink} {data rest : List UInt8}

theorem append (h : Writes n s data t rest) : t.written ++ rest = s.written ++ data := by
  induction h with
  | nothing => rfl
  | more _ _ ih => rw [ih, write_append_unwritten]

/-- Writing ends: there are no more writes than bytes. -/
theorem count_le (h : Writes n s data t rest) : n + rest.length ≤ data.length := by
  induction h with
  | nothing => omega
  | @more n s t data rest hpos _ ih =>
    have hle := s.accepted_le data.length
    unfold unwritten at ih
    rw [List.length_drop] at ih
    omega

theorem room_add (h : Writes n s data t rest) :
    t.room rest.length + data.length = s.room data.length + rest.length := by
  induction h with
  | nothing => omega
  | @more n s t data rest _ _ ih =>
    have hstep := s.room_write data
    omega

theorem eq_with_written (h : Writes n s data t rest) : t = { s with written := t.written } := by
  induction h with
  | nothing => rfl
  | more _ _ ih => exact ih

/-- Writes that go on until there is no room put as many bytes at the end as there was room for. -/
theorem eq_of_room (h : Writes n s data t rest) (hroom : t.room rest.length = 0) :
    t = { s with written := s.written ++ data.take (s.room data.length) } := by
  have happend := h.append
  have hlength := congrArg List.length happend
  have hadd := h.room_add
  rw [List.length_append, List.length_append] at hlength
  have hwritten : t.written = s.written ++ data.take (s.room data.length) := by
    calc t.written
        = (t.written ++ rest).take t.written.length := List.take_left.symm
      _ = (s.written ++ data).take t.written.length := by rw [happend]
      _ = s.written ++ data.take (t.written.length - s.written.length) := by
          rw [List.take_append, List.take_of_length_le (by omega)]
      _ = s.written ++ data.take (s.room data.length) := by
          congr 2
          omega
  rw [h.eq_with_written, hwritten]

end Writes

theorem writeAll_writes (s : Sink) (data : List UInt8) :
    ∃ n t rest, Writes n s data t rest ∧ t.accepted rest.length = 0 ∧
      s.writeAll data = (if rest.isEmpty then .ok () else .error s.whenFull, t) := by
  fun_induction writeAll s data with
  | case1 s data hempty =>
    rw [List.isEmpty_iff] at hempty
    subst hempty
    exact ⟨0, s, [], .nothing s [], Nat.le_zero.mp (s.accepted_le 0), rfl⟩
  | case2 s data hempty n hzero =>
    exact ⟨0, s, data, .nothing s data, hzero, by rw [if_neg hempty]⟩
  | case3 s data hempty n hzero ih =>
    obtain ⟨k, t, rest, hwrites, hstop, heq⟩ := ih
    exact ⟨k + 1, t, rest, .more (Nat.pos_of_ne_zero hzero) hwrites, hstop, heq⟩

theorem writeAll_eq {s : Sink} (h : s.Progresses) (data : List UInt8) :
    s.writeAll data =
      (if s.room data.length = data.length then .ok () else .error s.whenFull,
        { s with written := s.written ++ data.take (s.room data.length) }) := by
  obtain ⟨n, t, rest, hwrites, hstop, heq⟩ := s.writeAll_writes data
  have ht : t.Progresses := by
    rw [hwrites.eq_with_written]
    exact h
  have hroom := room_eq_zero ht hstop
  have hadd := hwrites.room_add
  have hempty : rest.isEmpty ↔ s.room data.length = data.length := by
    rw [List.isEmpty_iff, ← List.length_eq_zero_iff]
    omega
  rw [heq, hwrites.eq_of_room hroom]
  simp only [hempty]

/-- A sink that a label is sent to holds the first bytes of its program afterwards, as many as there
was room for, whatever a write takes at most. Sending succeeds if that is the whole program and the
flush succeeds; the sink is flushed once if it is the whole program, and never otherwise. All this
takes no more writes than there are bytes. -/
theorem send_delivers_prefix (s : Sink) (l : Label) (h : s.Progresses) :
    let program := l.zpl.toUTF8.data.toList
    let delivered := s.room program.length
    (s.send l).2.written = s.written ++ program.take delivered ∧
      (s.send l).2.flushes = s.flushes + (if delivered = program.length then 1 else 0) ∧
      ((s.send l).1 = .ok () ↔ delivered = program.length ∧ s.flushFails = false) ∧
      (∃ n t rest, Writes n s program t rest ∧ t.accepted rest.length = 0 ∧
        t.written = (s.send l).2.written) ∧
      ∀ n t rest, Writes n s program t rest → n ≤ program.length := by
  intro program delivered
  have hbytes : Text.bytes l.zpl = program := rfl
  have hall := writeAll_eq h program
  have hsent : s.send l =
      if delivered = program.length then
        (if s.flushFails then .error (.stream .flushRefused) else .ok (),
          { s with written := s.written ++ program.take delivered, flushes := s.flushes + 1 })
      else
        (.error (.stream s.whenFull),
          { s with written := s.written ++ program.take delivered }) := by
    unfold send
    rw [hbytes, hall]
    by_cases hfits : delivered = program.length
    · rw [if_pos hfits, if_pos hfits]
      unfold flush
      cases s.flushFails <;> rfl
    · rw [if_neg hfits, if_neg hfits]
  have hwritten : (s.send l).2.written = s.written ++ program.take delivered := by
    rw [hsent]
    split <;> rfl
  obtain ⟨n, t, rest, hwrites, hstop, heq⟩ := s.writeAll_writes program
  refine ⟨hwritten, ?_, ?_, ⟨n, t, rest, hwrites, hstop, ?_⟩, fun n t rest hrun => ?_⟩
  · rw [hsent]
    split <;> rfl
  · rw [hsent]
    by_cases hfits : delivered = program.length
    · cases s.flushFails <;> simp [hfits]
    · simp [hfits]
  · rw [hwritten]
    exact congrArg (·.2.written) (heq.symm.trans hall)
  · exact Nat.le_of_add_right_le hrun.count_le

/-- A sink that fills up between the two bytes of the letter. -/
def narrow : Sink := { limit := some 13, chunk := some 5, refuses := true }

def accented : Label := { elements := [.text { content := "é" }] }

theorem send_delivers_prefix_narrow :
    narrow.Progresses ∧
      (narrow.send accented).2.written = accented.zpl.toUTF8.data.toList.take 13 ∧
      (narrow.send accented).2.flushes = 0 ∧ (narrow.send accented).1 ≠ .ok () := by
  have hprogresses : narrow.Progresses := by
    rintro c ⟨⟩
    decide
  have hroom : narrow.room accented.zpl.toUTF8.data.toList.length = 13 := by decide +kernel
  have hlength : ¬ 13 = accented.zpl.toUTF8.data.toList.length := by decide +kernel
  obtain ⟨hwritten, hflushes, hok, -, -⟩ := send_delivers_prefix narrow accented hprogresses
  rw [hroom] at hwritten hflushes hok
  rw [if_neg hlength] at hflushes
  exact ⟨hprogresses, hwritten, hflushes, fun h => hlength (hok.mp h).1⟩

end Sink

end LabelPress
