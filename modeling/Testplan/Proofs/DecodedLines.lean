import Testplan.ProcessOutput
/-!
# The lines of a stream

The lines of a stream depend on its bytes alone, not on how the process came to write
them: not on where one piece of output ends and the next begins, nor on what goes to the
other stream in between (`ProcessRun.filter_events`).  The bytes are cut at line feeds, and
every piece gives a line or, if it is no text, an error (`decoded`).  What is **forwarded**
of a stream is its lines up to the first error, with one line for the error in its place
(`forwarded`).
-/
namespace Testplan

/-! ## Decoding -/

/-- What is said of bytes that are no text. -/
def undecodable : String := "Unable to decode input as UTF8"

/-- The line that says that a stream cannot be read. -/
def OutputStream.errorLine (stream : OutputStream) (error : String) : String :=
  stream.name ++ " 읽기 오류: " ++ error

theorem undecodableLine_eq (stream : OutputStream) :
    undecodableLine stream = stream.errorLine undecodable := by
  cases stream <;> rfl

/-- The text of a line, or an error. -/
def decodedLine (bytes : List UInt8) : Except String String :=
  match lineText? bytes with
  | some s => .ok s
  | none => .error undecodable

/-- What the pieces between line feeds give, of which the last is a line only if it holds
something. -/
def decodedPieces (piece : List UInt8) : List (List UInt8) → List (Except String String)
  | [] => if piece.isEmpty || piece = [13] then [] else [decodedLine piece]
  | next :: others => decodedLine piece :: decodedPieces next others

/-- **The lines of a stream**, with errors for those that are no text. -/
def decoded (bytes : List UInt8) : List (Except String String) :=
  decodedPieces (pieces bytes).1 (pieces bytes).2

/-- **What is passed on of the lines of a stream**: all up to the first error, and one line
for it. -/
def forwarded (stream : OutputStream) : List (Except String String) → List OutputEvent
  | [] => []
  | .ok text :: rest => .line stream text :: forwarded stream rest
  | .error e :: _ => [.line stream (stream.errorLine e)]

namespace LineReader

variable {s : OutputStream}

/-! ## Reading byte by byte -/

/-- Reads one byte. -/
def readByte (s : OutputStream) (r : LineReader) (b : UInt8) : LineReader × List OutputEvent :=
  if b = 10 then ({ (r.endLine s r.pending).1 with pending := [] }, (r.endLine s r.pending).2)
  else ({ r with pending := r.pending ++ [b] }, [])

/-- What the reader held before the first piece is of no account. -/
theorem readPieces_pending (r : LineReader) (bytes piece : List UInt8)
    (others : List (List UInt8)) :
    { r with pending := bytes }.readPieces s piece others = r.readPieces s piece others := by
  induction others generalizing r bytes piece with
  | nil => rfl
  | cons next others ih =>
    simp only [readPieces]
    have hend : ({ r with pending := bytes }.endLine s piece).2 = (r.endLine s piece).2 ∧
        ∃ held, ({ r with pending := bytes }.endLine s piece).1 =
          { (r.endLine s piece).1 with pending := held } := by
      unfold endLine
      split
      · exact ⟨rfl, bytes, rfl⟩
      · split <;> exact ⟨rfl, _, rfl⟩
    obtain ⟨hevents, held, hreader⟩ := hend
    rw [hevents, hreader, ih]

theorem read_eq (r : LineReader) (bytes : List UInt8) :
    r.read s bytes = r.readPieces s (r.pending ++ (pieces bytes).1) (pieces bytes).2 := rfl

theorem read_cons (r : LineReader) (b : UInt8) (bytes : List UInt8) :
    r.read s (b :: bytes) = (((r.readByte s b).1.read s bytes).1,
      (r.readByte s b).2 ++ ((r.readByte s b).1.read s bytes).2) := by
  by_cases hb : b = 10
  · have hpieces : pieces (b :: bytes) = ([], (pieces bytes).1 :: (pieces bytes).2) := by
      show (if b = 10 then _ else _) = _
      rw [if_pos hb]
      rfl
    rw [readByte, if_pos hb, read_eq, hpieces, List.append_nil]
    simp only [readPieces, read_eq, List.nil_append, readPieces_pending]
  · have hpieces : pieces (b :: bytes) = (b :: (pieces bytes).1, (pieces bytes).2) := by
      show (if b = 10 then _ else _) = _
      rw [if_neg hb]
      rfl
    rw [readByte, if_neg hb, read_eq, hpieces]
    simp only [read_eq, List.append_assoc, List.singleton_append, readPieces_pending,
      List.nil_append]

theorem read_nil (r : LineReader) : r.read s [] = (r, []) := by
  show r.readPieces s (r.pending ++ []) [] = _
  rw [List.append_nil]
  rfl

/-- **What is read does not depend on where one reading ends and the next begins.** -/
theorem read_append (r : LineReader) (a b : List UInt8) :
    r.read s (a ++ b) = (((r.read s a).1.read s b).1,
      (r.read s a).2 ++ ((r.read s a).1.read s b).2) := by
  induction a generalizing r with
  | nil => rw [read_nil]; rfl
  | cons x rest ih => rw [List.cons_append, read_cons, read_cons, ih, List.append_assoc]

/-! ## What is read -/

theorem finish_broken {r : LineReader} (h : r.broken = true) : r.finish s = [] := by
  unfold finish endLine
  rw [if_pos h]
  exact ite_self _

/-- A reader that has met an error gives nothing more. -/
theorem readPieces_broken {r : LineReader} (h : r.broken = true) (piece : List UInt8)
    (others : List (List UInt8)) :
    (r.readPieces s piece others).2 = [] ∧ (r.readPieces s piece others).1.broken = true := by
  induction others generalizing r piece with
  | nil => exact ⟨rfl, h⟩
  | cons next others ih =>
    have hend : r.endLine s piece = (r, []) := by
      unfold endLine
      rw [if_pos h]
    simp only [readPieces, hend, List.nil_append]
    exact ih h next

/-- **The reader gives the lines of the pieces**, up to the first that is no text. -/
theorem readPieces_finish {r : LineReader} (h : r.broken = false) (piece : List UInt8)
    (others : List (List UInt8)) :
    (r.readPieces s piece others).2 ++ (r.readPieces s piece others).1.finish s =
      forwarded s (decodedPieces piece others) := by
  have line (r : LineReader) (h : r.broken = false) (piece : List UInt8) :
      (∃ text, decodedLine piece = .ok text ∧
        r.endLine s piece = ({ r with pending := [] }, [.line s text])) ∨
      (decodedLine piece = .error undecodable ∧ r.endLine s piece =
        ({ pending := [], broken := true }, [.line s (s.errorLine undecodable)])) := by
    unfold endLine decodedLine
    rw [if_neg (by simp [h])]
    cases lineText? piece with
    | some text => exact .inl ⟨text, rfl, rfl⟩
    | none => exact .inr ⟨rfl, by rw [undecodableLine_eq]⟩
  induction others generalizing r piece with
  | nil =>
    show [] ++ ({ r with pending := piece } : LineReader).finish s = _
    unfold finish decodedPieces
    rw [List.nil_append]
    split
    · rfl
    · obtain ⟨text, hd, he⟩ | ⟨hd, he⟩ := line { r with pending := piece } h piece
      · rw [he, hd]
        rfl
      · rw [he, hd]
        rfl
  | cons next others ih =>
    simp only [readPieces, decodedPieces]
    obtain ⟨text, hd, he⟩ | ⟨hd, he⟩ := line r h piece
    · rw [he, hd, List.append_assoc, ih (r := { r with pending := [] }) h next]
      rfl
    · obtain ⟨hnone, hbroken⟩ := readPieces_broken (s := s) (r := ⟨[], true⟩) rfl next others
      rw [he, hd, hnone, finish_broken hbroken]
      rfl

theorem read_finish (bytes : List UInt8) :
    (LineReader.read s {} bytes).2 ++ (LineReader.read s {} bytes).1.finish s =
      forwarded s (decoded bytes) :=
  readPieces_finish rfl _ _

/-- Everything read of a stream is a line of that stream. -/
theorem line_of_mem_endLine {r : LineReader} {bytes : List UInt8} {e : OutputEvent}
    (h : e ∈ (r.endLine s bytes).2) : ∃ text, e = .line s text := by
  unfold endLine at h
  split at h
  · cases h
  · split at h
    · exact ⟨_, List.mem_singleton.mp h⟩
    · exact ⟨_, List.mem_singleton.mp h⟩

theorem line_of_mem_read {r : LineReader} {bytes : List UInt8} {e : OutputEvent}
    (h : e ∈ (r.read s bytes).2) : ∃ text, e = .line s text := by
  induction bytes generalizing r with
  | nil =>
    rw [read_nil] at h
    cases h
  | cons b rest ih =>
    rw [read_cons] at h
    rcases List.mem_append.mp h with h | h
    · unfold readByte at h
      split at h
      · exact line_of_mem_endLine h
      · cases h
    · exact ih h

theorem line_of_mem_finish {r : LineReader} {e : OutputEvent} (h : e ∈ r.finish s) :
    ∃ text, e = .line s text := by
  unfold finish at h
  split at h
  · cases h
  · exact line_of_mem_endLine h

end LineReader

/-! ## What is seen of a process -/

namespace OutputEvent

/-- The event is a line of the stream. -/
def isLineOf (s : OutputStream) : OutputEvent → Bool
  | line t _ => t = s
  | _ => false

/-- The event is a pause. -/
def isPause : OutputEvent → Bool
  | pause _ => true
  | _ => false

@[simp] theorem isPause_line (s : OutputStream) (text : String) :
    (line s text).isPause = false := rfl

@[simp] theorem isPause_exited (code : Nat) : (exited code).isPause = false := rfl

@[simp] theorem isPause_pause (ms : Time) : (pause ms).isPause = true := rfl

/-- Of lines of one stream all are lines of it, and none is a line of another. -/
theorem filter_isLineOf {s t : OutputStream} {l : List OutputEvent}
    (h : ∀ e ∈ l, ∃ text, e = .line t text) :
    l.filter (isLineOf s) = if t = s then l else [] := by
  by_cases ht : t = s
  · subst ht
    rw [if_pos rfl]
    refine List.filter_eq_self.mpr fun e he => ?_
    obtain ⟨text, rfl⟩ := h e he
    exact decide_eq_true rfl
  · rw [if_neg ht]
    refine List.filter_eq_nil_iff.mpr fun e he => ?_
    obtain ⟨text, rfl⟩ := h e he
    simpa [isLineOf] using ht

end OutputEvent

/-- The bytes that a step writes to a stream. -/
def ProcessStep.written (s : OutputStream) : ProcessStep → List UInt8
  | write t bytes => if t = s then bytes else []
  | pause _ => []

/-- **The bytes that a process writes to a stream.** -/
def ProcessRun.written (p : ProcessRun) (s : OutputStream) : List UInt8 :=
  p.steps.flatMap (ProcessStep.written s)

section Events
open LineReader OutputEvent

/-- The lines of a stream come from what is written to it, whatever else happens. -/
theorem filter_eventsFrom (out err : LineReader) (steps : List ProcessStep)
    (s : OutputStream) (r : LineReader)
    (hr : r = match s with
      | .stdout => out
      | .stderr => err) :
    (eventsFrom out err steps).filter (isLineOf s) =
      (r.read s (steps.flatMap (ProcessStep.written s))).2 ++
        (r.read s (steps.flatMap (ProcessStep.written s))).1.finish s := by
  induction steps generalizing out err r with
  | nil =>
    rw [List.flatMap_nil, read_nil, eventsFrom, List.filter_append,
      filter_isLineOf fun _ => line_of_mem_finish, filter_isLineOf fun _ => line_of_mem_finish]
    cases s <;> subst hr <;> simp
  | cons step rest ih =>
    rw [List.flatMap_cons]
    cases step with
    | pause ms => exact ih out err r hr
    | write t bytes =>
      cases t with
      | stdout =>
        rw [eventsFrom, List.filter_append, filter_isLineOf fun _ => line_of_mem_read]
        cases s with
        | stdout =>
          subst hr
          rw [ih _ _ _ rfl, if_pos rfl, ProcessStep.written, if_pos rfl, read_append,
            List.append_assoc]
        | stderr => exact ih _ _ r hr
      | stderr =>
        rw [eventsFrom, List.filter_append, filter_isLineOf fun _ => line_of_mem_read]
        cases s with
        | stdout => exact ih _ _ r hr
        | stderr =>
          subst hr
          rw [ih _ _ _ rfl, if_pos rfl, ProcessStep.written, if_pos rfl, read_append,
            List.append_assoc]

/-- **The lines of a stream depend on its bytes alone.** -/
theorem ProcessRun.filter_events (p : ProcessRun) (s : OutputStream) :
    p.events.filter (isLineOf s) = forwarded s (decoded (p.written s)) := by
  rw [events, List.filter_append]
  show (eventsFrom {} {} p.steps).filter (isLineOf s) ++ [] = _
  rw [List.append_nil, filter_eventsFrom _ _ _ s {} (by cases s <;> rfl)]
  exact read_finish _

/-- Before its exit a process is seen to write lines and to pause. -/
theorem line_or_pause_of_mem_eventsFrom {out err : LineReader} {steps : List ProcessStep}
    {e : OutputEvent} (h : e ∈ eventsFrom out err steps) :
    (∃ s text, e = .line s text) ∨ ∃ ms, e = .pause ms := by
  induction steps generalizing out err with
  | nil =>
    rcases List.mem_append.mp h with h | h
    · exact .inl ⟨_, line_of_mem_finish h⟩
    · exact .inl ⟨_, line_of_mem_finish h⟩
  | cons step rest ih =>
    cases step with
    | pause ms =>
      rcases List.mem_cons.mp h with rfl | h
      · exact .inr ⟨ms, rfl⟩
      · exact ih h
    | write t bytes =>
      cases t with
      | stdout =>
        rcases List.mem_append.mp h with h | h
        · exact .inl ⟨_, line_of_mem_read h⟩
        · exact ih h
      | stderr =>
        rcases List.mem_append.mp h with h | h
        · exact .inl ⟨_, line_of_mem_read h⟩
        · exact ih h

end Events

end Testplan
