import Thirdparty.Glog.LogMessage

/-!
# `Glog.RawLogging` — the line that `RawLog__` writes

`RawLog__` formats its line into a `char[kLogBufSize]` on the stack, in three or four calls of `vsnprintf` that each
go on where the one before stopped, and writes out the C string in it. `buf` and `size` move together (`room`).

`vsnprintf` is taken to fail never; the text it is to print is given here as the bytes of its output.

## Contents
- `RawBuffer`, `vsnprintf`, `doRawLog`: the buffer and the two helpers.
- `rawLine`: the line, and `rawLine_of_stack`: it does not depend on what was on the stack.
- `rawLine_eq`: the line in closed form.
-/

namespace Thirdparty.Glog

/-- `kLogBufSize`. -/
def kLogBufSize : Nat := 3000

/-- `buffer`, with the pointer `buf` into it and the `size` that is left there. -/
structure RawBuffer where
  buffer : CharArray kLogBufSize
  buf : Nat
  size : Nat
  room : buf + size = kLogBufSize

/-- The buffer as `RawLog__` finds it on the stack. -/
def RawBuffer.onStack (stack : CharArray kLogBufSize) : RawBuffer := ⟨stack, 0, kLogBufSize, rfl⟩

/-- What `vsnprintf(buf, size, …)` leaves in the buffer: what fits of the text, and a NUL; nothing if `size` is 0. -/
def RawBuffer.vsnprintf (b : RawBuffer) (text : Bytes) : CharArray kLogBufSize :=
  if h : 0 < b.size then
    b.buffer.blit b.buf (text.take (b.size - 1) ++ [nul])
      (by have := b.room; simp only [List.length_append, List.length_take, List.length_singleton]; omega)
  else b.buffer

/-- `DoRawLog`, `VADoRawLog`: print, and move past the text unless it was longer than the room. -/
def RawBuffer.doRawLog (b : RawBuffer) (text : Bytes) : RawBuffer × Bool :=
  if h : b.size < text.length then ({ b with buffer := b.vsnprintf text }, false)
  else
    ({ buffer := b.vsnprintf text
       buf := b.buf + text.length
       size := b.size - text.length
       room := by have := b.room; omega }, true)

/-- `%0*d`. -/
def zeroPadded (width : Nat) (n : Int) : Bytes :=
  if n < 0 then lit "-" ++ setw (width - 1) 48 (decimal n.natAbs) else setw width 48 (decimal n)

/-- `"%c%02d%02d %02d:%02d:%02d.%06d %5u %s:%d] RAW: "`, with the time that the last `LOG` message left. -/
def rawPrefix (cfg : Settings) (ctx : Context) (site : CallSite) (severity : LogSeverity) : Bytes :=
  (logSeverityName severity).take 1 ++
    (zeroPadded 2 (1 + ctx.tmMon) ++ zeroPadded 2 ctx.tmMday
    ++ lit " "
    ++ zeroPadded 2 ctx.tmHour ++ lit ":"
    ++ zeroPadded 2 ctx.tmMin ++ lit ":"
    ++ zeroPadded 2 ctx.tmSec ++ lit "."
    ++ zeroPadded 6 ctx.usecs
    ++ lit " "
    ++ setw 5 blank (decimal ctx.tid)
    ++ lit " "
    ++ unifySourcePath cfg site.file ++ lit ":" ++ decimal site.line ++ lit "] RAW: ")

/-- The note on a message that did not fit. -/
def tooLong : Bytes := lit "RAW_LOG ERROR: The Message was too long!\n"

/-- The buffer when `RawLog__` comes to write it out: the prefix, the message, and a newline or the note. -/
def fillBuffer (stack : CharArray kLogBufSize) (pre message : Bytes) : CharArray kLogBufSize :=
  let (afterMessage, noChop) := ((RawBuffer.onStack stack).doRawLog pre).1.doRawLog message
  (afterMessage.doRawLog (if noChop then [newline] else tooLong)).1.buffer

/-- The `strlen(buffer)` bytes that are written. -/
def rawLine (pre message : Bytes) : Bytes := ((fillBuffer (CharArray.zeros _) pre message).cString? 0).getD []

/-! ## What the buffer holds -/

/-- `text` was printed so far; its last byte gave way to the NUL if it filled the buffer. -/
structure RawBuffer.Holds (b : RawBuffer) (text : Bytes) : Prop where
  buf : b.buf = text.length
  buffer : ∃ rest, b.buffer.toList = text.take (kLogBufSize - 1) ++ rest ∧
    (kLogBufSize ≤ text.length → rest = [nul])

theorem RawBuffer.holds_onStack (stack : CharArray kLogBufSize) : (onStack stack).Holds [] :=
  ⟨rfl, stack.toList, rfl, nofun⟩

namespace RawBuffer.Holds

variable {b : RawBuffer} {text : Bytes}

/-- Printing goes on behind the text, and ends it with a NUL. -/
theorem vsnprintf (h : b.Holds text) (more : Bytes) :
    ∃ rest, (b.vsnprintf more).toList = (text ++ more).take (kLogBufSize - 1) ++ nul :: rest := by
  obtain ⟨rest, hrest, hfull⟩ := h.buffer
  have hroom := b.room
  have hbuf := h.buf
  unfold RawBuffer.vsnprintf
  split
  · rename_i hpos
    have hlen : text.length ≤ kLogBufSize - 1 := by omega
    have htake : b.buffer.toList.take b.buf = text := by
      rw [hrest, hbuf, List.take_of_length_le hlen, List.take_left]
    refine ⟨b.buffer.toList.drop (b.buf + (more.take (b.size - 1) ++ [nul]).length), ?_⟩
    rw [CharArray.toList_blit, htake, List.take_append, List.take_of_length_le hlen,
      show kLogBufSize - 1 - text.length = b.size - 1 by omega]
    simp only [List.append_assoc, List.singleton_append]
  · rename_i hpos
    have hlen : kLogBufSize ≤ text.length := by omega
    refine ⟨[], ?_⟩
    rw [hrest, hfull hlen, List.take_append_of_le_length (by omega)]

/-- The text that was there is still the beginning, even when the pointer did not move. -/
theorem doRawLog_false (h : b.Holds text) {more : Bytes} (hlong : b.size < more.length) :
    (b.doRawLog more).2 = false ∧ (b.doRawLog more).1.Holds text := by
  obtain ⟨rest, hrest⟩ := h.vsnprintf more
  rw [doRawLog, dif_pos hlong]
  refine ⟨rfl, h.buf, more.take (kLogBufSize - 1 - text.length) ++ nul :: rest, ?_, ?_⟩
  · rw [hrest, List.take_append, List.append_assoc]
  · intro hfull
    have hnone : more.take (kLogBufSize - 1 - text.length) = [] := by
      rw [show kLogBufSize - 1 - text.length = 0 by omega, List.take_zero]
    have hlen := congrArg List.length hrest
    simp only [Vector.length_toList, List.length_append, List.length_take, List.length_cons] at hlen
    have hempty : rest = [] := List.eq_nil_of_length_eq_zero (by unfold kLogBufSize at *; omega)
    rw [hnone, hempty, List.nil_append]

theorem doRawLog_true (h : b.Holds text) {more : Bytes} (hfits : ¬ b.size < more.length) :
    (b.doRawLog more).2 = true ∧ (b.doRawLog more).1.Holds (text ++ more) := by
  obtain ⟨rest, hrest⟩ := h.vsnprintf more
  rw [doRawLog, dif_neg hfits]
  refine ⟨rfl, ?_, nul :: rest, hrest, ?_⟩
  · rw [List.length_append]
    exact congrArg (· + more.length) h.buf
  · intro hfull
    have hlen := congrArg List.length hrest
    simp only [Vector.length_toList, List.length_append, List.length_take, List.length_cons] at hlen hfull
    have hempty : rest = [] := List.eq_nil_of_length_eq_zero (by unfold kLogBufSize at *; omega)
    rw [hempty]

end RawBuffer.Holds

/-! ## The line in closed form -/

/-- What is left of the prefix: it is given up if it does not fit. -/
def keptPrefix (pre : Bytes) : Bytes := if kLogBufSize < pre.length then [] else pre

/-- The text of the line, before it is cut to the buffer. -/
def rawText (pre message : Bytes) : Bytes :=
  keptPrefix pre ++
    if kLogBufSize < (keptPrefix pre).length + message.length then tooLong else message ++ [newline]

theorem holds_keptPrefix (stack : CharArray kLogBufSize) (pre : Bytes) :
    ((RawBuffer.onStack stack).doRawLog pre).1.Holds (keptPrefix pre) := by
  unfold keptPrefix
  split
  · rename_i hlong
    exact ((RawBuffer.holds_onStack stack).doRawLog_false hlong).2
  · rename_i hfits
    exact ((RawBuffer.holds_onStack stack).doRawLog_true hfits).2

/-- The buffer at the end: the text, as far as it fits, and a NUL. -/
theorem fillBuffer_toList (stack : CharArray kLogBufSize) (pre message : Bytes) :
    ∃ rest, (fillBuffer stack pre message).toList
      = (rawText pre message).take (kLogBufSize - 1) ++ nul :: rest := by
  have hpre := holds_keptPrefix stack pre
  have hroom := ((RawBuffer.onStack stack).doRawLog pre).1.room
  have hbuf := hpre.buf
  have hlast : ∀ (b : RawBuffer) (text : Bytes), (b.doRawLog text).1.buffer = b.vsnprintf text := by
    intro b text
    unfold RawBuffer.doRawLog
    split <;> rfl
  unfold fillBuffer rawText
  by_cases hlong : ((RawBuffer.onStack stack).doRawLog pre).1.size < message.length
  · obtain ⟨hchop, hholds⟩ := hpre.doRawLog_false hlong
    rw [if_pos (by omega)]
    simp only [hchop, hlast]
    exact hholds.vsnprintf tooLong
  · obtain ⟨hchop, hholds⟩ := hpre.doRawLog_true hlong
    rw [if_neg (by omega), ← List.append_assoc]
    simp only [hchop, hlast]
    exact hholds.vsnprintf [newline]

/-- Whatever was on the stack, the same line is written. -/
theorem rawLine_of_stack (stack : CharArray kLogBufSize) (pre message : Bytes) :
    (fillBuffer stack pre message).cString? 0 = some (rawLine pre message) := by
  obtain ⟨rest, hrest⟩ := fillBuffer_toList stack pre message
  obtain ⟨rest', hrest'⟩ := fillBuffer_toList (CharArray.zeros _) pre message
  rw [rawLine, CharArray.cString?_of_toList hrest, CharArray.cString?_of_toList hrest']
  rfl

/-- **The line.** It is at most `kLogBufSize - 1` bytes of the prefix, the message and a newline; a message that does
    not fit behind the prefix is replaced by the note, and a prefix that does not fit is left out. -/
theorem rawLine_eq (pre message : Bytes) :
    rawLine pre message = cStr ((rawText pre message).take (kLogBufSize - 1)) := by
  obtain ⟨rest, hrest⟩ := fillBuffer_toList (CharArray.zeros _) pre message
  rw [rawLine, CharArray.cString?_of_toList hrest]
  rfl

/-- Something is written, unless the message begins with a NUL. -/
theorem rawLine_ne_nil {c : Byte} {pre message : Bytes} (hpre : pre.head? = some c) (hc : c ≠ nul)
    (hmessage : nul ∉ message) : rawLine pre message ≠ [] := by
  obtain ⟨first, more, htext, hfirst⟩ : ∃ first more, rawText pre message = first :: more ∧ first ≠ nul := by
    unfold rawText keptPrefix
    split
    · split
      · exact ⟨_, _, rfl, by decide⟩
      · cases message with
        | nil => exact ⟨_, _, rfl, by decide⟩
        | cons first more => exact ⟨first, _, rfl, fun h => hmessage (h ▸ List.mem_cons_self)⟩
    · cases pre with
      | nil => cases hpre
      | cons first more =>
        cases hpre
        exact ⟨_, _, rfl, hc⟩
  rw [rawLine_eq, htext]
  exact cStr_ne_nil hfirst _

/-- The prefix begins with the letter of the severity. -/
theorem head?_rawPrefix (cfg : Settings) (ctx : Context) (site : CallSite) (severity : LogSeverity) :
    ∃ c, (rawPrefix cfg ctx site severity).head? = some c ∧ c ≠ nul := by
  have hletter : ∃ c, ((logSeverityName severity).take 1).head? = some c ∧ c ≠ nul := by
    cases severity <;> exact ⟨_, rfl, by decide⟩
  obtain ⟨c, hc, hne⟩ := hletter
  refine ⟨c, ?_, hne⟩
  rw [rawPrefix, List.head?_append, hc, Option.some_or]

end Thirdparty.Glog
