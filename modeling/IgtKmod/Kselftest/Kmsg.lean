import IgtKmod.Basic
import IgtKmod.Kselftest.Parse

/-!
# Dumping the kernel log

`kmsg_dump` (lines 646-684), which `igt_kselftest_execute` calls after a failed self-test, reads
`/dev/kmsg` into one buffer of 4096 bytes and a NUL, and prints each record's message: from after
its first `;` to the next newline. A read does not terminate what it wrote, so the C string the
loop searches runs on into whatever earlier reads left in the buffer.

Every `/dev/kmsg` record has the form `prefix;message\n...`, so the `;` and the newline are found
within the bytes just read, whatever follows them (`kmsgLine_record`). Over every sequence of reads
and whatever the buffer held before, the loop prints exactly the messages of the records, one
truncation warning for each `EPIPE`, and stops at the first error other than `EINTR` and `EPIPE`
(`kmsgLoop_records`).
-/

namespace IgtKmod.Kselftest

def EINTR : Int := 4
def EPIPE : Int := 32

/-- What `read(fd, record, sizeof(record) - 1)` returns: the bytes it wrote, or the error in
`errno`. -/
inductive KmsgRead where
  | ok (bytes : List Char)
  | error (errno : Int)
  deriving DecidableEq, Repr

/-- What `kmsg_dump` prints: that the log cannot be read, that it was truncated, an unknown
error, or the text of a record from `start` to `end`. -/
inductive KmsgWarn where
  | unavailable
  | truncated
  | unknown (errno : Int)
  | line (text : List Char)
  deriving DecidableEq, Repr

/-- Lines 675-680, on the buffer `record` before its final NUL: the text from after the first `;`
to the next newline or NUL, if there is a `;`. -/
def kmsgLine (record : List Char) : Option (List Char) :=
  (strchr (record ++ ['\x00']) ';').map fun i =>
    (cstring ((record ++ ['\x00']).drop (i + 1))).takeWhile (· ≠ '\n')

/-- The loop of `kmsg_dump` (lines 658-681) over the results of its reads, from the buffer
`record`: the warnings it prints, and whether it left the loop (`false` when the reads ran out
first). -/
def kmsgLoop : List KmsgRead → List Char → List KmsgWarn × Bool
  | [], _ => ([], false)
  | .error e :: rest, record =>
    if e = EINTR then kmsgLoop rest record
    else if e = EPIPE then (kmsgLoop rest record).map (.truncated :: ·) id
    else (if e ≠ EAGAIN then [.unknown e] else [], true)
  | .ok bytes :: rest, record =>
    let record := bytes ++ record.drop bytes.length
    (kmsgLoop rest record).map ((kmsgLine record).toList.map .line ++ ·) id

/-- `kmsg_dump(fd)`, with the reads it makes and what the buffer held before. -/
def kmsgDump (fd : Int) (reads : List KmsgRead) (record : List Char) : List KmsgWarn × Bool :=
  if fd = -1 then ([.unavailable], true) else kmsgLoop reads record

/-- A record as `/dev/kmsg` returns it: a prefix without `;`, the `;`, the message, and the
newline that ends it, with no NUL before that newline. -/
def KmsgRecord (bytes : List Char) : Prop :=
  ∃ pre text rest, bytes = pre ++ ';' :: text ++ '\n' :: rest ∧
    (∀ c ∈ pre, c ≠ '\x00' ∧ c ≠ ';') ∧ ∀ c ∈ text, c ≠ '\x00' ∧ c ≠ '\n'

/-- The message of a record, read off the record alone: what follows its first `;`, up to the
next newline. -/
def kmsgMessage (bytes : List Char) : List Char :=
  ((bytes.dropWhile (· ≠ ';')).drop 1).takeWhile (· ≠ '\n')

def KmsgRead.warn : KmsgRead → List KmsgWarn
  | .ok bytes => [.line (kmsgMessage bytes)]
  | .error e => if e = EPIPE then [.truncated] else []

def KmsgRead.stops : KmsgRead → Bool
  | .ok _ => false
  | .error e => e ≠ EINTR && e ≠ EPIPE

theorem strchr_append_cons {l : List Char} {c : Char} (hc : c ≠ '\x00')
    (h : ∀ x ∈ l, x ≠ '\x00' ∧ x ≠ c) (t : List Char) : strchr (l ++ c :: t) c = some l.length := by
  rw [strchr, cstring, List.takeWhile_append_of_pos fun x hx => decide_eq_true (h x hx).1,
    List.takeWhile_cons_of_pos (by simpa using hc), List.findIdx?_append,
    List.findIdx?_eq_none_iff.mpr fun x hx => decide_eq_false (h x hx).2]
  simp

theorem takeWhile_append_cons_of_neg {p : Char → Bool} {l : List Char} (h : ∀ x ∈ l, p x)
    {c : Char} (hc : p c = false) (t : List Char) : (l ++ c :: t).takeWhile p = l := by
  rw [List.takeWhile_append_of_pos h, List.takeWhile_cons_of_neg (by simp [hc]), List.append_nil]

theorem kmsgMessage_eq {pre text rest : List Char} (hpre : ∀ c ∈ pre, c ≠ '\x00' ∧ c ≠ ';')
    (htext : ∀ c ∈ text, c ≠ '\x00' ∧ c ≠ '\n') :
    kmsgMessage (pre ++ ';' :: text ++ '\n' :: rest) = text := by
  rw [kmsgMessage, List.append_assoc, List.dropWhile_append_of_pos
      fun c hc => decide_eq_true (hpre c hc).2, List.cons_append,
    List.dropWhile_cons_of_neg (by simp), List.drop_one, List.tail_cons,
    takeWhile_append_cons_of_neg (fun c hc => decide_eq_true (htext c hc).2) (by simp)]

theorem kmsgLine_record {bytes : List Char} (h : KmsgRecord bytes) (tail : List Char) :
    kmsgLine (bytes ++ tail) = some (kmsgMessage bytes) := by
  obtain ⟨pre, text, rest, rfl, hpre, htext⟩ := h
  have hbuf : pre ++ ';' :: text ++ '\n' :: rest ++ tail ++ ['\x00'] =
      pre ++ ';' :: (text ++ '\n' :: (rest ++ tail ++ ['\x00'])) := by simp
  have hdrop : (pre ++ ';' :: (text ++ '\n' :: (rest ++ tail ++ ['\x00']))).drop (pre.length + 1) =
      text ++ '\n' :: (rest ++ tail ++ ['\x00']) := by
    simp [List.drop_append_eq_append_drop]
  rw [kmsgLine, hbuf, strchr_append_cons (by decide) hpre, Option.map_some',
    kmsgMessage_eq hpre htext, hdrop, cstring,
    List.takeWhile_append_of_pos fun c hc => decide_eq_true (htext c hc).1,
    List.takeWhile_cons_of_pos (by decide),
    takeWhile_append_cons_of_neg (fun c hc => decide_eq_true (htext c hc).2) (by decide)]

theorem kmsgLoop_append {pre : List KmsgRead}
    (hrec : ∀ bytes, KmsgRead.ok bytes ∈ pre → KmsgRecord bytes)
    (hgo : ∀ r ∈ pre, r.stops = false) (rest : List KmsgRead) (record : List Char) :
    ∃ record', kmsgLoop (pre ++ rest) record =
      (kmsgLoop rest record').map ((pre.map KmsgRead.warn).flatten ++ ·) id := by
  induction pre generalizing record with
  | nil => exact ⟨record, by simp [Prod.map]⟩
  | cons r pre ih =>
    have hrec' : ∀ bytes, KmsgRead.ok bytes ∈ pre → KmsgRecord bytes :=
      fun bytes hb => hrec bytes (.tail _ hb)
    have hgo' : ∀ r ∈ pre, r.stops = false := fun r hr => hgo r (.tail _ hr)
    cases r with
    | ok bytes =>
      obtain ⟨record', h⟩ := ih hrec' hgo' (bytes ++ record.drop bytes.length)
      refine ⟨record', ?_⟩
      simp [kmsgLoop, h, kmsgLine_record (hrec bytes (.head _)), KmsgRead.warn, Prod.map]
    | error e =>
      obtain ⟨record', h⟩ := ih hrec' hgo' record
      have hstop := hgo _ (.head _)
      simp only [KmsgRead.stops, Bool.and_eq_false_iff, decide_eq_false_iff_not, not_not] at hstop
      refine ⟨record', ?_⟩
      rcases hstop with rfl | rfl <;> simp [kmsgLoop, h, KmsgRead.warn, EINTR, EPIPE, Prod.map]

/-- For every sequence of reads whose successful reads are records, and whatever the buffer held
before: if no read stops the loop, it prints the warning of each read; and if the first read that
stops it fails with `e`, it prints the warnings of the reads before, and the unknown error `e`
unless `e` is `EAGAIN`, and stops. -/
theorem kmsgLoop_records {reads : List KmsgRead}
    (hrec : ∀ bytes, KmsgRead.ok bytes ∈ reads → KmsgRecord bytes) (record : List Char) :
    ((∀ r ∈ reads, r.stops = false) →
      kmsgLoop reads record = ((reads.map KmsgRead.warn).flatten, false)) ∧
    (∀ pre e post, reads = pre ++ .error e :: post → (∀ r ∈ pre, r.stops = false) →
      (KmsgRead.error e).stops = true →
      kmsgLoop reads record =
        ((pre.map KmsgRead.warn).flatten ++ (if e ≠ EAGAIN then [.unknown e] else []), true)) := by
  refine ⟨fun hgo => ?_, fun pre e post hreads hgo hstop => ?_⟩
  · obtain ⟨record', h⟩ := kmsgLoop_append hrec hgo [] record
    simpa [kmsgLoop] using h
  · subst hreads
    obtain ⟨record', h⟩ := kmsgLoop_append (fun bytes hb => hrec bytes (List.mem_append_left _ hb))
      hgo _ record
    simp only [KmsgRead.stops, Bool.and_eq_true, decide_eq_true_eq] at hstop
    rw [h]
    simp [kmsgLoop, hstop.1, hstop.2]

def kmsgReads : List KmsgRead :=
  [.ok "6,2,0,-;hi\n".toList, .error EPIPE, .error EAGAIN]

theorem kmsgLoop_records_kmsgReads :
    (∀ bytes, KmsgRead.ok bytes ∈ kmsgReads → KmsgRecord bytes) ∧
    ((∀ r ∈ kmsgReads, r.stops = false) →
      kmsgLoop kmsgReads "6,1,0,-;an older message\n".toList =
        ((kmsgReads.map KmsgRead.warn).flatten, false)) ∧
    (∀ pre e post, kmsgReads = pre ++ .error e :: post → (∀ r ∈ pre, r.stops = false) →
      (KmsgRead.error e).stops = true →
      kmsgLoop kmsgReads "6,1,0,-;an older message\n".toList =
        ((pre.map KmsgRead.warn).flatten ++ (if e ≠ EAGAIN then [.unknown e] else []), true)) :=
  have hrec : ∀ bytes, KmsgRead.ok bytes ∈ kmsgReads → KmsgRecord bytes := fun bytes hb => by
    simp only [kmsgReads, List.mem_cons, KmsgRead.ok.injEq, reduceCtorEq, List.mem_nil_iff,
      or_false] at hb
    subst hb
    exact ⟨"6,2,0,-".toList, "hi".toList, [], rfl, by decide, by decide⟩
  ⟨hrec, kmsgLoop_records hrec _⟩

end IgtKmod.Kselftest
