import Thirdparty.Glog.LogMessage
import Mathlib.Data.List.Basic

/-!
# `Glog.FailureHook` — the C string that the failure-message hook reads

`InstallFailureMessageHook` hands its hook a bare `const char*`: `crash_reason.message`, a pointer into
`fatal_msg_buf_exclusive`. Every other consumer of a message passes a length with it, so the hook alone needs
the NUL behind the text. The buffer has one byte more than the stream stores (`kMaxLogMessageLen + 1`), and
`Flush` uses that byte for the newline it appends.

This file follows the message that obtains the exclusive data through `Init`, `<<` and `Flush`, and says exactly
when the hook's string is the text after the prefix, ended by a newline (`properHookString_iff`).
-/

namespace Thirdparty.Glog

/-! ## What `Flush` leaves in the buffer -/

theorem missingNewline_append {a b : Bytes} (hb : b ≠ []) :
    missingNewline (a ++ b) = missingNewline b := by
  unfold missingNewline
  rw [List.getLast?_append_of_ne_nil _ hb]

theorem nul_notMem_missingNewline (text : Bytes) : nul ∉ missingNewline text := by
  unfold missingNewline
  split <;> decide

theorem missingNewline_eq_nil {text : Bytes} :
    missingNewline text = [] ↔ text.getLast? = some newline := by
  unfold missingNewline
  split <;> simp_all

theorem length_missingNewline_le (text : Bytes) : (missingNewline text).length ≤ 1 := by
  unfold missingNewline
  split <;> simp

namespace LogMessageData

variable {d : LogMessageData}

/-- Every stream over a message buffer stores less than the buffer holds, and far less than `SIZE_MAX`. -/
theorem pcount_lt (hcap : d.stream.capacity = kMaxLogMessageLen) : d.stream.pcount < bufSize := by
  have := d.stream.pcount_le
  unfold bufSize
  omega

/-- With nothing in the stream, the test of the last character reads index `SIZE_MAX`. -/
theorem appendNewline_empty (h : d.stream.pcount = 0) : d.appendNewline = none := by
  have hidx : sizeSub d.stream.pcount 1 = sizeRange - 1 := by rw [h]; rfl
  have hload : d.stream.buf.load? (sizeRange - 1) = none := by
    rw [CharArray.load?, List.getElem?_eq_none]
    simp [bufSize, kMaxLogMessageLen]
  rw [appendNewline, hidx, hload]
  rfl

/-- The character that the test reads is the last one stored. -/
theorem load_last (hcap : d.stream.capacity = kMaxLogMessageLen) (hpos : 0 < d.stream.pcount) :
    d.stream.buf.load? (sizeSub d.stream.pcount 1) = d.stream.contents.getLast? := by
  have hlt := pcount_lt hcap
  have hidx : sizeSub d.stream.pcount 1 = d.stream.pcount - 1 :=
    sizeSub_of_le (Nat.lt_trans hlt (by decide)) hpos
  rw [hidx, CharArray.load?, List.getLast?_eq_getElem?, FixedStream.length_contents,
    FixedStream.contents, List.getElem?_take_of_lt (by omega)]

/-- **`Flush` with something in the stream.** Both indices are inside the buffer, which afterwards holds the
    stored text, a newline if the text lacked one, and the zeros that were there. -/
theorem appendNewline_nonempty (hcap : d.stream.capacity = kMaxLogMessageLen) (hclean : d.stream.Clean)
    (hpos : 0 < d.stream.pcount) :
    ∃ d', d.appendNewline = some d' ∧ d'.severity = d.severity ∧ d'.firstFatal = d.firstFatal
      ∧ d'.numPrefixChars = d.numPrefixChars
      ∧ d'.stream.buf.toList = d.stream.contents ++ missingNewline d.stream.contents
          ++ List.replicate (bufSize - d.stream.pcount - (missingNewline d.stream.contents).length) nul := by
  have hlt := pcount_lt hcap
  have hne : d.stream.contents ≠ [] := by
    rw [← List.length_pos_iff, FixedStream.length_contents]; exact hpos
  have hlast : d.stream.contents.getLast? = some (d.stream.contents.getLast hne) :=
    List.getLast?_eq_some_getLast hne
  by_cases hnl : d.stream.contents.getLast hne = newline
  · have hmiss : missingNewline d.stream.contents = [] := by simp [missingNewline, hlast, hnl]
    refine ⟨{ d with
      numCharsToLog := d.stream.pcount
      numCharsToSyslog := sizeSub d.stream.pcount d.numPrefixChars }, ?_, rfl, rfl, rfl, ?_⟩
    · simp [appendNewline, load_last hcap hpos, hlast, hnl]
    · rw [hmiss]
      simpa using hclean.toList
  · have hmiss : missingNewline d.stream.contents = [newline] := by
      simp [missingNewline, hlast, hnl]
    refine ⟨{ d with
      stream := { d.stream with buf := d.stream.buf.set d.stream.pcount newline hlt }
      numCharsToLog := d.stream.pcount + 1
      numCharsToSyslog := sizeSub d.stream.pcount d.numPrefixChars }, ?_, rfl, rfl, rfl, ?_⟩
    · simp [appendNewline, load_last hcap hpos, hlast, hnl, CharArray.store?_eq_some hlt]
    · rw [hmiss, Vector.toList_set, hclean.toList, List.set_append_right _ _ (by simp)]
      obtain ⟨k, hk⟩ : ∃ k, bufSize - d.stream.pcount = k + 1 := ⟨bufSize - d.stream.pcount - 1, by omega⟩
      simp [hk, List.replicate_succ]

end LogMessageData

/-! ## The message with the exclusive data -/

/-- The data of the message that obtained `fatal_msg_data_exclusive_`, with `body` streamed into it. -/
def exclusiveMessage (cfg : Settings) (ctx : Context) (site : CallSite) (body : Bytes) : LogMessageData :=
  (LogMessageData.init cfg ctx site .FATAL { LogMessageData.initial with firstFatal := true }).write body

/-- The statics once that message is complete. -/
def exclusiveStatics (cfg : Settings) (ctx : Context) (site : CallSite) (body : Bytes) : Statics :=
  { Statics.initial with
    fatalMsgExclusive := false
    fatalMsgDataExclusive := exclusiveMessage cfg ctx site body }

/-- The first FATAL message of a process, from its constructor to the end of `SendToLog`'s locked part. -/
def firstFatalMessage (cfg : Settings) (ctx : Context) (site : CallSite) (body : Bytes) : FlushOutcome :=
  let (s, r) := chooseData cfg .FATAL Statics.initial
  let (s, r) := s.modify (LogMessageData.init cfg ctx site .FATAL) r
  let (s, r) := s.modify (LogMessageData.write body) r
  flush cfg s r

/-- Everything streamed into the message after its prefix. -/
def streamedText (cfg : Settings) (ctx : Context) (site : CallSite) (body : Bytes) : Bytes :=
  backtraceText cfg ctx site ++ body

/-- The part of the streamed text that fits behind the prefix. -/
def fittingText (cfg : Settings) (ctx : Context) (site : CallSite) (body : Bytes) : Bytes :=
  (streamedText cfg ctx site body).take (kMaxLogMessageLen - (prefixText cfg ctx site .FATAL).length)

/-- **The hook gets a proper C string**: every index `Flush` uses is inside the buffer, and if the message reaches the
    hook, then `crash_reason.message` points into the buffer, and reading up to the first NUL stays inside it and
    yields the text that fits, followed by one newline unless that text ends in one. -/
def ProperHookString (cfg : Settings) (ctx : Context) (site : CallSite) (body : Bytes) : Prop :=
  firstFatalMessage cfg ctx site body ≠ .outOfBounds ∧
  ∀ s, firstFatalMessage cfg ctx site body = .unlocked s →
    ∃ p, s.crashReason.message = some p ∧ p < bufSize ∧
      s.fatalMsgDataExclusive.stream.buf.cString? p
        = some (fittingText cfg ctx site body ++ missingNewline (fittingText cfg ctx site body))

/-- The message is suppressed by `--minloglevel`, or it has a text which leaves the stream room for the newline,
    or which fills the stream but has a newline of its own in the last place, behind the prefix. -/
def HookStringFits (cfg : Settings) (ctx : Context) (site : CallSite) (body : Bytes) : Prop :=
  let front := prefixText cfg ctx site .FATAL
  let text := front ++ streamedText cfg ctx site body
  LogSeverity.FATAL.toInt < cfg.minloglevel ∨
    text ≠ [] ∧
      (text.length < kMaxLogMessageLen ∨
        front.length < kMaxLogMessageLen ∧ text[kMaxLogMessageLen - 1]? = some newline)

section Exclusive

variable (cfg : Settings) (ctx : Context) (site : CallSite) (body : Bytes)

theorem stream_exclusiveMessage :
    (exclusiveMessage cfg ctx site body).stream
      = (FixedStream.blank kMaxLogMessageLen (Nat.le_succ _)).write
          (prefixText cfg ctx site .FATAL ++ streamedText cfg ctx site body) := by
  simp only [streamedText, FixedStream.write_append]
  rfl

theorem numPrefixChars_exclusiveMessage :
    (exclusiveMessage cfg ctx site body).numPrefixChars
      = min (prefixText cfg ctx site .FATAL).length kMaxLogMessageLen := by
  show ((FixedStream.blank kMaxLogMessageLen (Nat.le_succ _)).write
      (prefixText cfg ctx site .FATAL)).pcount = _
  rw [← FixedStream.length_contents, FixedStream.contents_write_blank, List.length_take, Nat.min_comm]

/-- A prefix ends in a blank. -/
theorem getLast?_prefixText (hne : prefixText cfg ctx site .FATAL ≠ []) :
    (prefixText cfg ctx site .FATAL).getLast? = some blank := by
  unfold prefixText at hne ⊢
  split
  · unfold linePrefix
    rw [List.getLast?_append_of_ne_nil _ (by decide)]
    rfl
  · rename_i h
    exact absurd (if_neg h) hne

/-- The stored text is the stored prefix followed by the text that fits. -/
theorem contents_exclusiveMessage :
    (exclusiveMessage cfg ctx site body).stream.contents
      = (prefixText cfg ctx site .FATAL).take kMaxLogMessageLen ++ fittingText cfg ctx site body := by
  rw [stream_exclusiveMessage, FixedStream.contents_write_blank, List.take_append]
  rfl

/-- The first FATAL message is given the exclusive data, and flushes it. -/
theorem firstFatalMessage_eq (hexit : cfg.exitOnDfatal = true) :
    firstFatalMessage cfg ctx site body
      = flush cfg (exclusiveStatics cfg ctx site body) .exclusive := by
  simp only [firstFatalMessage, chooseData, hexit, Statics.initial, Statics.modify]
  rfl

/-- The exclusive message is suppressed by `--minloglevel` only. -/
theorem suppressed_exclusiveMessage :
    suppressed cfg (exclusiveMessage cfg ctx site body)
      = decide (LogSeverity.FATAL.toInt < cfg.minloglevel) := rfl

/-- **What the hook reads**, once there is something in the stream: behind the prefix lie the text that fits, the
    appended newline if any, and the zeros beyond. -/
theorem firstFatalMessage_nonempty (hexit : cfg.exitOnDfatal = true)
    (hmin : ¬LogSeverity.FATAL.toInt < cfg.minloglevel)
    (hpos : 0 < (exclusiveMessage cfg ctx site body).stream.pcount) :
    ∃ s p k, firstFatalMessage cfg ctx site body = .unlocked s
      ∧ s.crashReason.message = some p ∧ p < bufSize
      ∧ k + (exclusiveMessage cfg ctx site body).stream.pcount
          + (missingNewline (exclusiveMessage cfg ctx site body).stream.contents).length = bufSize
      ∧ s.fatalMsgDataExclusive.stream.buf.toList.drop p
          = fittingText cfg ctx site body
            ++ missingNewline (exclusiveMessage cfg ctx site body).stream.contents
            ++ List.replicate k nul := by
  set d := exclusiveMessage cfg ctx site body with hd
  have hstream := stream_exclusiveMessage cfg ctx site body
  have hcap : d.stream.capacity = kMaxLogMessageLen := by rw [hd, hstream]; simp
  have hclean : d.stream.Clean := by
    rw [hd, hstream]; exact (FixedStream.clean_blank _).write _
  obtain ⟨d', happ, hsev, hfirst, hprefix, hbuf⟩ := d.appendNewline_nonempty hcap hclean hpos
  have hlt := d.pcount_lt hcap
  have hmiss := length_missingNewline_le d.stream.contents
  have hp : d'.numPrefixChars = min (prefixText cfg ctx site .FATAL).length kMaxLogMessageLen :=
    hprefix.trans (numPrefixChars_exclusiveMessage cfg ctx site body)
  have hsup : suppressed cfg d = false := by
    rw [hd, suppressed_exclusiveMessage, decide_eq_false hmin]
  have hsend := flush_sends (s := exclusiveStatics cfg ctx site body) (r := .exclusive) hsup happ
  have hflush := (firstFatalMessage_eq cfg ctx site body hexit).trans
    (hsend.trans (sendToLog_first hexit hsev hfirst))
  refine ⟨_, d'.numPrefixChars, bufSize - d.stream.pcount - (missingNewline d.stream.contents).length,
    hflush, rfl, ?_, by omega, ?_⟩
  · rw [hp]; unfold bufSize; omega
  · have hfront : ((prefixText cfg ctx site .FATAL).take kMaxLogMessageLen).length = d'.numPrefixChars := by
      rw [hp, List.length_take, Nat.min_comm]
    show d'.stream.buf.toList.drop d'.numPrefixChars = _
    rw [hbuf, hd, contents_exclusiveMessage, ← hfront, List.append_assoc, List.append_assoc,
      List.drop_left, List.append_assoc]

/-- So the string is proper if a zero is left, and the appended newline is the one the text lacks. -/
theorem properHookString_nonempty (hexit : cfg.exitOnDfatal = true)
    (hmin : ¬LogSeverity.FATAL.toInt < cfg.minloglevel)
    (hpos : 0 < (exclusiveMessage cfg ctx site body).stream.pcount)
    (hnul : nul ∉ streamedText cfg ctx site body) :
    ProperHookString cfg ctx site body ↔
      (exclusiveMessage cfg ctx site body).stream.pcount
          + (missingNewline (exclusiveMessage cfg ctx site body).stream.contents).length < bufSize
        ∧ missingNewline (exclusiveMessage cfg ctx site body).stream.contents
          = missingNewline (fittingText cfg ctx site body) := by
  obtain ⟨s, p, k, hs, hmsg, hp, hk, hdrop⟩ :=
    firstFatalMessage_nonempty cfg ctx site body hexit hmin hpos
  have htext : nul ∉ fittingText cfg ctx site body
      ++ missingNewline (exclusiveMessage cfg ctx site body).stream.contents := by
    rw [List.mem_append, not_or]
    exact ⟨fun h => hnul (List.mem_of_mem_take h), nul_notMem_missingNewline _⟩
  have hread := CharArray.cString?_zeros hdrop htext
  constructor
  · rintro ⟨-, hreach⟩
    obtain ⟨p', hmsg', -, hstr⟩ := hreach s hs
    rw [hmsg, Option.some.injEq] at hmsg'
    subst hmsg'
    rw [hread] at hstr
    -- no zero left: the read runs out of the buffer
    split at hstr
    · cases hstr
    · exact ⟨by omega, List.append_cancel_left (Option.some.inj hstr)⟩
  · rintro ⟨hroom, hnl⟩
    refine ⟨by rw [hs]; nofun, ?_⟩
    intro s' hs'
    obtain rfl : s = s' := by simpa using hs.symm.trans hs'
    refine ⟨p, hmsg, hp, ?_⟩
    rw [hread, if_neg (by omega), hnl]

/-- The stored text is the front of prefix and streamed text together. -/
theorem contents_eq_take :
    (exclusiveMessage cfg ctx site body).stream.contents
      = (prefixText cfg ctx site .FATAL ++ streamedText cfg ctx site body).take kMaxLogMessageLen := by
  rw [stream_exclusiveMessage, FixedStream.contents_write_blank]

/-- When the prefix fits, the newline that `Flush` appends is the one the text behind the prefix lacks. -/
theorem missingNewline_contents (hfront : (prefixText cfg ctx site .FATAL).length ≤ kMaxLogMessageLen)
    (hne : (exclusiveMessage cfg ctx site body).stream.contents ≠ []) :
    missingNewline (exclusiveMessage cfg ctx site body).stream.contents
      = missingNewline (fittingText cfg ctx site body) := by
  rw [contents_exclusiveMessage, List.take_of_length_le hfront] at hne ⊢
  by_cases hfit : fittingText cfg ctx site body = []
  · rw [hfit, List.append_nil] at hne ⊢
    unfold missingNewline
    rw [getLast?_prefixText cfg ctx site hne]
    rfl
  · rw [missingNewline_append hfit]

/-- A stream filled to its capacity leaves a zero only if `Flush` appends nothing, because the last byte stored is a
    newline; and that newline has to be the text's own, not the prefix's. -/
theorem full_iff
    (hfull : kMaxLogMessageLen
      ≤ (prefixText cfg ctx site .FATAL ++ streamedText cfg ctx site body).length) :
    ((exclusiveMessage cfg ctx site body).stream.pcount
          + (missingNewline (exclusiveMessage cfg ctx site body).stream.contents).length < bufSize
        ∧ missingNewline (exclusiveMessage cfg ctx site body).stream.contents
          = missingNewline (fittingText cfg ctx site body))
      ↔ (prefixText cfg ctx site .FATAL).length < kMaxLogMessageLen
        ∧ (prefixText cfg ctx site .FATAL ++ streamedText cfg ctx site body)[kMaxLogMessageLen - 1]?
          = some newline := by
  have hlen := FixedStream.length_contents (exclusiveMessage cfg ctx site body).stream
  rw [contents_eq_take, List.length_take, Nat.min_eq_left hfull] at hlen
  have hlast : (exclusiveMessage cfg ctx site body).stream.contents.getLast?
      = (prefixText cfg ctx site .FATAL ++ streamedText cfg ctx site body)[kMaxLogMessageLen - 1]? := by
    rw [contents_eq_take, List.getLast?_eq_getElem?, List.length_take, Nat.min_eq_left hfull,
      List.getElem?_take_of_lt (by decide)]
  have hroom : ((exclusiveMessage cfg ctx site body).stream.pcount
        + (missingNewline (exclusiveMessage cfg ctx site body).stream.contents).length < bufSize)
      ↔ missingNewline (exclusiveMessage cfg ctx site body).stream.contents = [] := by
    rw [← hlen, ← List.length_eq_zero_iff]
    unfold bufSize
    omega
  rw [hroom, ← hlast, ← missingNewline_eq_nil]
  rw [List.length_append] at hfull
  constructor
  · rintro ⟨hnil, heq⟩
    refine ⟨?_, hnil⟩
    -- a prefix that fills the stream ends in a blank, and leaves no text to lack a newline
    by_contra hfront
    have hfit : fittingText cfg ctx site body = [] := by
      rw [fittingText, Nat.sub_eq_zero_of_le (Nat.not_lt.mp hfront), List.take_zero]
    rw [hnil, hfit] at heq
    exact absurd heq (by decide)
  · rintro ⟨hfront, hnil⟩
    have hcne : (exclusiveMessage cfg ctx site body).stream.contents ≠ [] := by
      rw [← List.length_pos_iff, FixedStream.length_contents, ← hlen]
      decide
    exact ⟨hnil, missingNewline_contents cfg ctx site body (Nat.le_of_lt hfront) hcne⟩

end Exclusive

/-- **The hook's string is proper exactly when it fits.** The text behind the prefix is taken without NUL bytes. -/
theorem properHookString_iff (cfg : Settings) (ctx : Context) (site : CallSite) (body : Bytes)
    (hexit : cfg.exitOnDfatal = true) (hnul : nul ∉ streamedText cfg ctx site body) :
    ProperHookString cfg ctx site body ↔ HookStringFits cfg ctx site body := by
  have heq := firstFatalMessage_eq cfg ctx site body hexit
  by_cases hmin : LogSeverity.FATAL.toInt < cfg.minloglevel
  · have hret : firstFatalMessage cfg ctx site body = .returned _ :=
      heq.trans (flush_suppressed (decide_eq_true hmin))
    -- suppressed: the hook is not called
    simp [ProperHookString, HookStringFits, hret, hmin]
  have hcontents := contents_eq_take cfg ctx site body
  have hlen := FixedStream.length_contents (exclusiveMessage cfg ctx site body).stream
  rw [hcontents, List.length_take] at hlen
  unfold HookStringFits
  rw [or_iff_right hmin]
  rcases Nat.eq_zero_or_pos (exclusiveMessage cfg ctx site body).stream.pcount with hzero | hpos
  · -- nothing streamed: `Flush` reads `message_text_[-1]`
    have hout : firstFatalMessage cfg ctx site body = .outOfBounds :=
      heq.trans (flush_outOfBounds (decide_eq_false hmin) (LogMessageData.appendNewline_empty hzero))
    have hnil : prefixText cfg ctx site .FATAL ++ streamedText cfg ctx site body = [] := by
      rw [← List.length_eq_zero_iff]
      unfold kMaxLogMessageLen at hlen
      omega
    simp [ProperHookString, hout, hnil]
  · rw [properHookString_nonempty cfg ctx site body hexit hmin hpos hnul]
    have hne : prefixText cfg ctx site .FATAL ++ streamedText cfg ctx site body ≠ [] := by
      rw [← List.length_pos_iff]
      omega
    rw [and_iff_right hne]
    by_cases hshort : (prefixText cfg ctx site .FATAL ++ streamedText cfg ctx site body).length
        < kMaxLogMessageLen
    · -- the stream has room: the newline and a zero fit behind the text
      have hfront : (prefixText cfg ctx site .FATAL).length ≤ kMaxLogMessageLen := by
        rw [List.length_append] at hshort; omega
      have hcne : (exclusiveMessage cfg ctx site body).stream.contents ≠ [] := by
        rw [← List.length_pos_iff, FixedStream.length_contents]; exact hpos
      have hmiss := length_missingNewline_le (exclusiveMessage cfg ctx site body).stream.contents
      refine iff_of_true ⟨?_, missingNewline_contents cfg ctx site body hfront hcne⟩ (Or.inl hshort)
      unfold bufSize
      omega
    · rw [full_iff cfg ctx site body (Nat.not_lt.mp hshort), or_iff_right hshort]

/-- `LOG(FATAL) << "disk full"`. -/
theorem properHookString_iff_diskFull :
    ProperHookString {} sampleContext sampleSite (lit "disk full") :=
  (properHookString_iff {} sampleContext sampleSite (lit "disk full") rfl (by decide)).mpr
    (Or.inr ⟨by decide, Or.inl (by decide)⟩)

/-- With `--nolog_prefix` and no backtrace, the text is the body alone. -/
theorem bare_text (body : Bytes) :
    prefixText { logPrefix := false } sampleContext sampleSite .FATAL
      ++ streamedText { logPrefix := false } sampleContext sampleSite body = body := rfl

/-- The two ends of the length range, with `--nolog_prefix`: a body that fills the stream leaves no NUL behind the
    newline, and an empty one makes `Flush` read in front of the buffer. -/
theorem hookString_overrun :
    ¬ProperHookString { logPrefix := false } sampleContext sampleSite
        (List.replicate kMaxLogMessageLen 120)
      ∧ ¬ProperHookString { logPrefix := false } sampleContext sampleSite [] := by
  constructor
  · have hpos : 0 < (exclusiveMessage { logPrefix := false } sampleContext sampleSite
        (List.replicate kMaxLogMessageLen 120)).stream.pcount := by
      rw [← FixedStream.length_contents, contents_eq_take, bare_text, List.take_replicate,
        List.length_replicate]
      decide
    have hnul : nul ∉ streamedText { logPrefix := false } sampleContext sampleSite
        (List.replicate kMaxLogMessageLen 120) :=
      fun h => absurd (List.eq_of_mem_replicate h) (by decide)
    rw [properHookString_nonempty _ _ _ _ rfl (by decide) hpos hnul, full_iff, bare_text]
    · rintro ⟨-, hlast⟩
      rw [List.getElem?_replicate_of_lt (by decide)] at hlast
      exact absurd hlast (by decide)
    · rw [bare_text, List.length_replicate]
  · have hzero : (exclusiveMessage { logPrefix := false } sampleContext sampleSite []).stream.pcount = 0 := rfl
    have hout : firstFatalMessage { logPrefix := false } sampleContext sampleSite [] = .outOfBounds :=
      (firstFatalMessage_eq _ _ _ _ rfl).trans
        (flush_outOfBounds rfl (LogMessageData.appendNewline_empty hzero))
    simp [ProperHookString, hout]

end Thirdparty.Glog
