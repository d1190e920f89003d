import Mathlib.Data.List.TakeWhile
import Pqxx.Lib.Cells
import Pqxx.TableWriter

set_option autoImplicit false

namespace Pqxx

open Lib

-- The error handlers of a connection, the oldest first, each by its address, and the calls
-- made to handlers so far.
structure Notices where
  errorhandlers : List Nat
  called : List (Nat × Bytes)
deriving DecidableEq, Repr

-- What a handler answers may depend on every call made before.
abbrev HandlerAnswers := List (Nat × Bytes) → Nat → Bytes → Bool

-- Whether there is memory for a copy of the message, and for that with a newline added.
structure Memory where
  copies : Bool
  appends : Bool
deriving DecidableEq, Repr

inductive HandlerOp where
  | create (handler : Nat)
  | destroy (handler : Nat)
deriving DecidableEq, Repr

namespace Notices

-- errorhandler's constructor and destructor.
def perform (s : Notices) : HandlerOp → Notices
  | .create handler => { s with errorhandlers := s.errorhandlers ++ [handler] }
  | .destroy handler => { s with errorhandlers := s.errorhandlers.filter fun other => other ≠ handler }

def run (s : Notices) (ops : List HandlerOp) : Notices := ops.foldl perform s

end Notices

-- What a reader of a C string finds in an array that has a NUL behind it.
def cString (array : Bytes) : Bytes := array.takeWhile fun c => c ≠ 0

-- size - 1 in a size_t.
def lastIndex (size : Nat) : Nat := if size = 0 then 18446744073709551615 else size - 1

-- An index into a string or an array that has a NUL behind it; none where it is outside.
def indexed (array : Bytes) (place : Nat) : Option UInt8 := (array ++ [0])[place]?

def slice (array : Bytes) (start count : Nat) : Option Bytes :=
  if start + count ≤ array.length then some ((array.drop start).take count) else none

-- "[...]\n" and the number of bytes in front of it in a buffer of 1007.
def separator : Bytes := [91, 46, 46, 46, 93, 10]

def chunkBytes : Nat := 999

namespace Notices

-- The loop in process_notice_raw.
def dispatch (answer : HandlerAnswers) (msg : Bytes) : List Nat → List (Nat × Bytes) → List (Nat × Bytes)
  | [], called => called
  | handler :: older, called =>
      if answer called handler msg then dispatch answer msg older (called ++ [(handler, msg)]) else called ++ [(handler, msg)]

def processNoticeRaw (answer : HandlerAnswers) (s : Notices) (msg : Bytes) : Notices :=
  if msg = [] then s else { s with called := dispatch answer msg s.errorhandlers.reverse s.called }

def processNoticeString (answer : HandlerAnswers) (memory : Memory) (s : Notices) (msg : Bytes) : Option Notices := do
  let last ← indexed msg (lastIndex msg.length)
  if last = newline then pure (s.processNoticeRaw answer (cString msg))
  else if memory.appends then pure (s.processNoticeRaw answer (cString (msg ++ [newline])))
  else pure ((s.processNoticeRaw answer (cString msg)).processNoticeRaw answer [newline])

-- All chunks but the last. The buffer holds the separator behind the place of a chunk.
def writeChunks (answer : HandlerAnswers) (msg : Bytes) (len written : Nat) (buf : Cells UInt8) (s : Notices) :
    Option (Nat × Cells UInt8 × Notices) :=
  if written + chunkBytes < len then do
    let chunk ← slice msg written chunkBytes
    let buf ← buf.write 0 chunk
    let text ← Cells.readUntil (fun c => c == 0) buf.cells
    writeChunks answer msg len (written + chunkBytes) buf (s.processNoticeRaw answer text)
  else some (written, buf, s)
termination_by len - written
decreasing_by
  simp only [chunkBytes] at *
  omega

def processNoticeChunks (answer : HandlerAnswers) (s : Notices) (msg : Bytes) (len : Nat) : Option Notices := do
  let buf ← (Cells.fresh 1007).write chunkBytes (separator ++ [0])
  let (written, buf, s) ← writeChunks answer msg len 0 buf s
  let bytes := len - written
  let rest ← slice msg written bytes
  let buf ← buf.write 0 rest
  let last ← (buf.cells[lastIndex bytes]?).join
  let buf ← buf.write bytes (if last = newline then [0] else [newline, 0])
  let text ← Cells.readUntil (fun c => c == 0) buf.cells
  pure (s.processNoticeRaw answer text)

-- process_notice(const char[]), where none is a null pointer.
def processNoticeChars (answer : HandlerAnswers) (memory : Memory) (s : Notices) : Option Bytes → Option Notices
  | none => some s
  | some msg => do
      let len := (cString msg).length
      if len = 0 then pure s
      else do
        let last ← indexed msg (lastIndex len)
        if last = newline then pure (s.processNoticeRaw answer (cString msg))
        else if memory.copies then s.processNoticeString answer memory (cString msg)
        else s.processNoticeChunks answer msg len

end Notices

-- When the handler at an address was created, if there is one. The last operation is first
-- in the list.
def registration : List HandlerOp → Nat → Option Nat
  | [], _ => none
  | .create other :: before, handler => if other = handler then some before.length else registration before handler
  | .destroy other :: before, handler => if other = handler then none else registration before handler

-- No two objects are at one address, and none is destroyed that is not there.
def Constructible : List HandlerOp → Prop
  | [] => True
  | .create handler :: before => registration before handler = none ∧ Constructible before
  | .destroy handler :: before => (registration before handler).isSome ∧ Constructible before

-- The live handlers, each once, in the order of their creation.
structure NewestFirst (history : List HandlerOp) (order : List Nat) : Prop where
  live : ∀ handler, handler ∈ order ↔ (registration history handler).isSome
  sorted : order.Pairwise fun newer older =>
    ∃ later earlier, registration history newer = some later ∧ registration history older = some earlier ∧ earlier < later

-- The handlers of the order are called with the text, up to and including the first that
-- answers false.
def CalledInTurn (answer : HandlerAnswers) (order : List Nat) (text : Bytes) (called next : List (Nat × Bytes)) : Prop :=
  ∃ count ≤ order.length,
    next = called ++ (order.take count).map (fun handler => (handler, text)) ∧
    (∀ i handler, i + 1 < count → order[i]? = some handler →
      answer (called ++ (order.take i).map fun handler => (handler, text)) handler text = true) ∧
    (count = order.length ∨ ∃ i handler, count = i + 1 ∧ order[i]? = some handler ∧
      answer (called ++ (order.take i).map fun handler => (handler, text)) handler text = false)

def Delivered (answer : HandlerAnswers) (order : List Nat) : List Bytes → List (Nat × Bytes) → List (Nat × Bytes) → Prop
  | [], called, next => next = called
  | text :: texts, called, next => ∃ between, CalledInTurn answer order text called between ∧ Delivered answer order texts between next

def endsInNewline (msg : Bytes) : Prop := msg.getLast? = some newline

instance (msg : Bytes) : Decidable (endsInNewline msg) := inferInstanceAs (Decidable (_ = _))

def noticeText (msg : Bytes) : Bytes := if endsInNewline msg then msg else msg ++ [newline]

-- A part of the text, with a separator put behind it or without.
def chunkText (piece : Bytes × Bool) : Bytes := if piece.2 then piece.1 ++ separator else piece.1

-- What becomes of a message that is not empty: its text goes to the handlers in one piece,
-- or, where memory is out, in several.
def Notified (answer : HandlerAnswers) (order : List Nat) (memory : Memory) (msg : Bytes) (s next : Notices) : Prop :=
  next.errorhandlers = s.errorhandlers ∧
    ∃ pieces : List (Bytes × Bool), Delivered answer order (pieces.map chunkText) s.called next.called ∧
      (pieces.map Prod.fst).flatten = noticeText msg ∧
      (endsInNewline msg ∨ memory = ⟨true, true⟩ → pieces = [(noticeText msg, false)])

structure Agreeing (answer : HandlerAnswers) (order : List Nat) (s : Notices) (msg : Bytes) : Prop where
  nothing : msg = [] → ∀ memory, s.processNoticeChars answer memory (some msg) = some s ∧ s.processNoticeString answer memory msg = some s
  delivered : msg ≠ [] → ∀ memory,
    (∃ next, s.processNoticeChars answer memory (some msg) = some next ∧ Notified answer order memory msg s next) ∧
      ∃ next, s.processNoticeString answer memory msg = some next ∧ Notified answer order memory msg s next
  same : msg ≠ [] → ∀ memory, endsInNewline msg ∨ memory = ⟨true, true⟩ →
    s.processNoticeChars answer memory (some msg) = s.processNoticeString answer memory msg

def Dispatches (answer : HandlerAnswers) (called : List (Nat × Bytes)) (ops : List HandlerOp) (msg : Bytes) : Prop :=
  ∃ order, NewestFirst ops.reverse order ∧ Agreeing answer order (Notices.run { errorhandlers := [], called } ops) msg

theorem registration_before {history : List HandlerOp} {handler born : Nat} (live : registration history handler = some born) :
    born < history.length := by
  induction history with
  | nil => cases live
  | cons op before ih =>
      rw [List.length_cons]
      cases op with
      | create other =>
          rw [registration] at live
          split at live
          · obtain rfl := Option.some.inj live
            exact Nat.lt_succ_self _
          · exact Nat.lt_succ_of_lt (ih live)
      | destroy other =>
          rw [registration] at live
          split at live
          · cases live
          · exact Nat.lt_succ_of_lt (ih live)

theorem newest_first_create {before : List HandlerOp} {order : List Nat} {handler : Nat} (ordered : NewestFirst before order)
    (new : registration before handler = none) : NewestFirst (.create handler :: before) (handler :: order) := by
  have apart {other : Nat} (there : other ∈ order) : handler ≠ other := by
    rintro rfl
    have live := (ordered.live handler).mp there
    rw [new] at live
    cases live
  have here : registration (.create handler :: before) handler = some before.length := by
    rw [registration, if_pos rfl]
  have others {other : Nat} (there : other ∈ order) : registration (.create handler :: before) other = registration before other := by
    rw [registration, if_neg (apart there)]
  constructor
  · intro other
    rw [List.mem_cons, ordered.live other, registration]
    by_cases same : handler = other
    · rw [if_pos same]
      exact ⟨fun _ => rfl, fun _ => .inl same.symm⟩
    · rw [if_neg same]
      exact ⟨fun either => either.resolve_left (Ne.symm same), .inr⟩
  · rw [List.pairwise_cons]
    constructor
    · intro other there
      obtain ⟨born, registered⟩ := Option.isSome_iff_exists.mp ((ordered.live other).mp there)
      exact ⟨before.length, born, here, by rw [others there, registered], registration_before registered⟩
    · apply ordered.sorted.imp_of_mem
      intro newer older newerThere olderThere
      rw [others newerThere, others olderThere]
      exact id

theorem newest_first_destroy {before : List HandlerOp} {order : List Nat} {handler : Nat} (ordered : NewestFirst before order) :
    NewestFirst (.destroy handler :: before) (order.filter fun other => other ≠ handler) := by
  have others {other : Nat} (apart : handler ≠ other) : registration (.destroy handler :: before) other = registration before other := by
    rw [registration, if_neg apart]
  constructor
  · intro other
    rw [List.mem_filter, ordered.live other, decide_eq_true_iff]
    by_cases same : handler = other
    · rw [registration, if_pos same]
      exact ⟨fun both => absurd same.symm both.2, fun live => absurd live Bool.false_ne_true⟩
    · rw [others same]
      exact ⟨And.left, fun live => ⟨live, Ne.symm same⟩⟩
  · apply (ordered.sorted.filter _).imp_of_mem
    intro newer older newerThere olderThere
    have newerApart := of_decide_eq_true (List.mem_filter.mp newerThere).2
    have olderApart := of_decide_eq_true (List.mem_filter.mp olderThere).2
    rw [others (Ne.symm newerApart), others (Ne.symm olderApart)]
    exact id

theorem Notices.run_cons (s : Notices) (op : HandlerOp) (before : List HandlerOp) :
    s.run (op :: before).reverse = (s.run before.reverse).perform op := by
  rw [Notices.run, List.reverse_cons, List.foldl_append]
  rfl

-- The list of handlers is the history of them, by induction on that history.
theorem run_newest_first (s : Notices) (history : List HandlerOp) (start : s.errorhandlers = []) (feasible : Constructible history) :
    NewestFirst history (s.run history.reverse).errorhandlers.reverse := by
  induction history with
  | nil =>
      rw [List.reverse_nil, Notices.run, List.foldl_nil, start]
      constructor
      · intro handler
        rw [List.reverse_nil, registration, Option.isSome_none]
        exact ⟨fun there => absurd there List.not_mem_nil, fun live => absurd live Bool.false_ne_true⟩
      · exact List.Pairwise.nil
  | cons op before ih =>
      rw [Notices.run_cons]
      cases op with
      | create handler =>
          obtain ⟨new, feasible⟩ := feasible
          simp only [Notices.perform, List.reverse_append, List.reverse_cons, List.reverse_nil, List.nil_append, List.cons_append]
          exact newest_first_create (ih feasible) new
      | destroy handler =>
          simp only [Notices.perform, ← List.filter_reverse]
          exact newest_first_destroy (ih feasible.2)

namespace Notices

-- By induction on the handlers that are still to be called.
theorem dispatch_dispatched (answer : HandlerAnswers) (text : Bytes) (order : List Nat) (called : List (Nat × Bytes)) :
    CalledInTurn answer order text called (dispatch answer text order called) := by
  induction order generalizing called with
  | nil => exact ⟨0, Nat.le_refl 0, by simp [dispatch], fun i handler before => absurd before (Nat.not_lt_zero _), .inl rfl⟩
  | cons handler older ih =>
      rw [dispatch]
      cases answered : answer called handler text with
      | false =>
          refine ⟨1, by rw [List.length_cons]; omega, by simp, fun i other before => absurd before (by omega), .inr ⟨0, handler, rfl, rfl, ?_⟩⟩
          rw [List.take_zero, List.map_nil, List.append_nil, answered]
      | true =>
          obtain ⟨count, bound, calls, passed, stopped⟩ := ih (called ++ [(handler, text)])
          rw [if_pos rfl]
          refine ⟨count + 1, by rw [List.length_cons]; omega, ?_, ?_, ?_⟩
          · rw [calls, List.take_succ_cons, List.map_cons, List.append_assoc, List.singleton_append]
          · intro i other before there
            cases i with
            | zero =>
                rw [List.getElem?_cons_zero] at there
                obtain rfl := Option.some.inj there
                rw [List.take_zero, List.map_nil, List.append_nil, answered]
            | succ i =>
                rw [List.getElem?_cons_succ] at there
                have next := passed i other (by omega) there
                rw [List.append_assoc, List.singleton_append] at next
                rw [List.take_succ_cons, List.map_cons]
                exact next
          · rcases stopped with all | ⟨i, other, last, there, refused⟩
            · exact .inl (by rw [List.length_cons, all])
            · rw [List.append_assoc, List.singleton_append] at refused
              exact .inr ⟨i + 1, other, by rw [last], by rw [List.getElem?_cons_succ, there], by rw [List.take_succ_cons, List.map_cons, refused]⟩

theorem process_notice_raw_handlers (answer : HandlerAnswers) (s : Notices) (text : Bytes) :
    (s.processNoticeRaw answer text).errorhandlers = s.errorhandlers := by
  rw [processNoticeRaw]
  split
  · rfl
  · rfl

theorem process_notice_raw_dispatched (answer : HandlerAnswers) (s : Notices) (text : Bytes) (nonempty : text ≠ []) :
    CalledInTurn answer s.errorhandlers.reverse text s.called (s.processNoticeRaw answer text).called := by
  rw [processNoticeRaw, if_neg nonempty]
  exact dispatch_dispatched answer text _ _

end Notices

theorem Delivered.append {answer : HandlerAnswers} {order : List Nat} {front back : List Bytes} {called between next : List (Nat × Bytes)}
    (first : Delivered answer order front called between) (second : Delivered answer order back between next) :
    Delivered answer order (front ++ back) called next := by
  induction front generalizing called with
  | nil =>
      obtain rfl := first
      exact second
  | cons text texts ih =>
      obtain ⟨middle, dispatched, rest⟩ := first
      exact ⟨middle, dispatched, ih rest⟩

theorem Delivered.single {answer : HandlerAnswers} {order : List Nat} {text : Bytes} {called next : List (Nat × Bytes)}
    (dispatched : CalledInTurn answer order text called next) : Delivered answer order [text] called next :=
  ⟨next, dispatched, rfl⟩

-- What is known of a text without a NUL.
theorem c_string_free {msg : Bytes} (free : 0 ∉ msg) : cString msg = msg := by
  rw [cString, List.takeWhile_eq_self_iff]
  intro c there
  rw [decide_eq_true_iff]
  rintro rfl
  exact free there

theorem indexed_last {msg : Bytes} (nonempty : msg ≠ []) : indexed msg (lastIndex msg.length) = msg.getLast? := by
  have size := List.length_pos_iff.mpr nonempty
  rw [indexed, lastIndex, if_neg (Nat.ne_of_gt size), List.getElem?_append_left (by omega), List.getLast?_eq_getElem?]

theorem read_text {text : Bytes} (free : 0 ∉ text) (rest : List (Option UInt8)) :
    Cells.readUntil (fun c => c == 0) (text.map some ++ some 0 :: rest) = some text := by
  apply Cells.read_until_written
  · intro c there
    rw [beq_eq_false_iff_ne]
    rintro rfl
    exact free there
  · rfl

theorem slice_inside {msg : Bytes} {start count : Nat} (inside : start + count ≤ msg.length) :
    slice msg start count = some ((msg.drop start).take count) := if_pos inside

theorem separator_free : (0 : UInt8) ∉ separator := by decide

-- The buffer between two chunks: the separator is where strcpy has put it.
def BufferReady (buf : Cells UInt8) : Prop :=
  ∃ front, front.length = chunkBytes ∧ buf.cells = front ++ ((separator ++ [0]).map some ++ [none])

theorem buffer_ready : ∃ buf, (Cells.fresh 1007).write chunkBytes (separator ++ [0]) = some buf ∧ BufferReady buf := by
  have written := Cells.write_between (List.replicate chunkBytes none) (List.replicate 7 none) [none] (separator ++ [0]) rfl
  rw [List.length_replicate] at written
  have cells : (⟨List.replicate chunkBytes none ++ List.replicate 7 none ++ [none]⟩ : Cells UInt8) = Cells.fresh 1007 := by
    rw [Cells.fresh, List.replicate_append_replicate, ← List.replicate_one, List.replicate_append_replicate]
    rfl
  rw [cells] at written
  exact ⟨_, written, List.replicate chunkBytes none, List.length_replicate, List.append_assoc _ _ _⟩

-- A chunk takes the place in front of the separator, and the text in the buffer is the two.
theorem write_chunk {buf : Cells UInt8} {chunk : Bytes} (ready : BufferReady buf) (size : chunk.length = chunkBytes) (free : 0 ∉ chunk) :
    ∃ next, buf.write 0 chunk = some next ∧ BufferReady next ∧
      Cells.readUntil (fun c => c == 0) next.cells = some (chunk ++ separator) := by
  obtain ⟨front, room, cells⟩ := ready
  have written := Cells.write_between [] front ((separator ++ [0]).map some ++ [none]) chunk (by rw [room, size])
  rw [List.nil_append, ← cells, List.length_nil] at written
  refine ⟨_, written, ⟨chunk.map some, by rw [List.length_map, size], rfl⟩, ?_⟩
  have text := @read_text (chunk ++ separator) (by simp [free, separator_free]) [none]
  rw [← text]
  simp

-- What the loop has done when it is through: the rest of the text fits into the buffer.
structure ChunksWritten (answer : HandlerAnswers) (msg : Bytes) (start : Nat) (s : Notices) (written : Nat) (buf : Cells UInt8)
    (next : Notices) : Prop where
  ready : BufferReady buf
  left : start < msg.length → written < msg.length
  fits : msg.length ≤ written + chunkBytes
  handlers : next.errorhandlers = s.errorhandlers
  delivered : ∃ pieces : List (Bytes × Bool), Delivered answer s.errorhandlers.reverse (pieces.map chunkText) s.called next.called ∧
    (pieces.map Prod.fst).flatten ++ msg.drop written = msg.drop start

-- By induction on what is left of the message.
theorem chunks_written (answer : HandlerAnswers) {msg : Bytes} (free : 0 ∉ msg) (start : Nat) (buf : Cells UInt8) (s : Notices) (ready : BufferReady buf) :
    ∃ written last next, s.writeChunks answer msg msg.length start buf = some (written, last, next) ∧
      ChunksWritten answer msg start s written last next := by
  induction remaining : msg.length - start using Nat.strong_induction_on generalizing start buf s with
  | _ size ih =>
      rw [Notices.writeChunks]
      by_cases more : start + chunkBytes < msg.length
      · have chunkSize : ((msg.drop start).take chunkBytes).length = chunkBytes := by
          rw [List.length_take, List.length_drop]
          omega
        have chunkFree : 0 ∉ (msg.drop start).take chunkBytes := fun there => free (List.mem_of_mem_drop (List.mem_of_mem_take there))
        obtain ⟨filled, stored, again, text⟩ := write_chunk ready chunkSize chunkFree
        rw [if_pos more, slice_inside (by omega)]
        simp only [Option.bind_eq_bind, Option.bind_some, stored, text]
        have nonempty : (msg.drop start).take chunkBytes ++ separator ≠ [] := List.append_ne_nil_of_right_ne_nil _ (by decide)
        have sent := Notices.process_notice_raw_dispatched answer s _ nonempty
        have same := Notices.process_notice_raw_handlers answer s ((msg.drop start).take chunkBytes ++ separator)
        have progress : msg.length - (start + chunkBytes) < size := by
          have positive : 0 < chunkBytes := by decide
          omega
        obtain ⟨written, last, next, looped, done⟩ := ih _ progress (start + chunkBytes) filled _ again rfl
        obtain ⟨pieces, delivered, whole⟩ := done.delivered
        rw [same] at delivered
        refine ⟨written, last, next, looped, ⟨done.ready, fun _ => done.left more, done.fits, by rw [done.handlers, same], ?_⟩⟩
        refine ⟨((msg.drop start).take chunkBytes, true) :: pieces, ⟨_, sent, delivered⟩, ?_⟩
        rw [List.map_cons, List.flatten_cons, List.append_assoc, whole, ← List.drop_drop, List.take_append_drop]
      · rw [if_neg more]
        exact ⟨start, buf, s, rfl, ⟨ready, id, by omega, rfl, [], rfl, by rw [List.map_nil, List.flatten_nil, List.nil_append]⟩⟩

-- The last piece and the newline behind it.
theorem write_rest {buf : Cells UInt8} {rest : Bytes} (ready : BufferReady buf) (size : rest.length ≤ chunkBytes) (nonempty : rest ≠ [])
    (free : 0 ∉ rest) :
    ∃ filled ended, buf.write 0 rest = some filled ∧ (filled.cells[lastIndex rest.length]?).join = rest.getLast? ∧
      filled.write rest.length [newline, 0] = some ended ∧
      Cells.readUntil (fun c => c == 0) ended.cells = some (rest ++ [newline]) := by
  obtain ⟨front, room, cells⟩ := ready
  have tail : (front.drop rest.length ++ ((separator ++ [0]).map some ++ [none])).length = chunkBytes - rest.length + 8 := by
    rw [List.length_append, List.length_drop, room]
    rfl
  generalize behind : front.drop rest.length ++ ((separator ++ [0]).map some ++ [none]) = back at tail
  have split : buf = ⟨[] ++ front.take rest.length ++ back⟩ := by
    rw [List.nil_append, ← behind, ← List.append_assoc, List.take_append_drop, ← cells]
  have first := Cells.write_between [] (front.take rest.length) back rest (by rw [List.length_take]; omega)
  rw [← split, List.nil_append, List.length_nil] at first
  have second := Cells.write_between (rest.map some) (back.take 2) (back.drop 2) [newline, 0] (by rw [List.length_take]; simp; omega)
  rw [List.append_assoc, List.take_append_drop, List.length_map] at second
  refine ⟨_, _, first, ?_, second, ?_⟩
  · have positive := List.length_pos_iff.mpr nonempty
    rw [lastIndex, if_neg (Nat.ne_of_gt positive), List.getElem?_append_left (by rw [List.length_map]; omega), List.getElem?_map,
      ← List.getLast?_eq_getElem?]
    cases rest.getLast? with
    | none => rfl
    | some c => rfl
  · have text := @read_text (rest ++ [newline]) (by simp [free]; decide) (back.drop 2)
    rw [← text]
    simp

theorem chunks_notified (answer : HandlerAnswers) {msg : Bytes} (free : 0 ∉ msg) (nonempty : msg ≠ []) (missing : ¬ endsInNewline msg) (s : Notices) :
    ∃ next, s.processNoticeChunks answer msg msg.length = some next ∧ next.errorhandlers = s.errorhandlers ∧
      ∃ pieces : List (Bytes × Bool), Delivered answer s.errorhandlers.reverse (pieces.map chunkText) s.called next.called ∧
        (pieces.map Prod.fst).flatten = noticeText msg := by
  obtain ⟨buf, opened, ready⟩ := buffer_ready
  obtain ⟨written, last, between, looped, done⟩ := chunks_written answer free 0 buf s ready
  obtain ⟨pieces, delivered, whole⟩ := done.delivered
  have inside := done.left (List.length_pos_iff.mpr nonempty)
  have fits := done.fits
  have restSize : (msg.drop written).length = msg.length - written := List.length_drop
  have restNonempty : msg.drop written ≠ [] := by
    rw [← List.length_pos_iff]
    omega
  have restFree : 0 ∉ msg.drop written := fun there => free (List.mem_of_mem_drop there)
  have restLast : (msg.drop written).getLast? = msg.getLast? := by
    rw [List.getLast?_drop, if_neg (by omega)]
  obtain ⟨filled, ended, stored, lastByte, closed, text⟩ := write_rest done.ready (by omega) restNonempty restFree
  rw [restSize] at lastByte closed
  have rest : slice msg written (msg.length - written) = some (msg.drop written) := by
    rw [slice_inside (by omega), List.take_of_length_le (Nat.le_of_eq restSize)]
  have plain : msg.getLast? ≠ some newline := missing
  rw [restLast] at lastByte
  obtain ⟨c, final⟩ : ∃ c, msg.getLast? = some c := ⟨_, List.getLast?_eq_some_getLast nonempty⟩
  rw [final] at lastByte plain
  have other : c ≠ newline := fun same => plain (congrArg some same)
  have lineNonempty : msg.drop written ++ [newline] ≠ [] := List.append_ne_nil_of_left_ne_nil restNonempty _
  have sent := Notices.process_notice_raw_dispatched answer between _ lineNonempty
  rw [done.handlers] at sent
  refine ⟨between.processNoticeRaw answer (msg.drop written ++ [newline]), ?_, ?_, pieces ++ [(msg.drop written ++ [newline], false)], ?_, ?_⟩
  · rw [Notices.processNoticeChunks, opened]
    simp only [Option.bind_eq_bind, Option.bind_some, looped, rest, stored, lastByte, if_neg other, closed, text]
    rfl
  · rw [Notices.process_notice_raw_handlers, done.handlers]
  · rw [List.map_append]
    exact delivered.append (Delivered.single sent)
  · rw [List.map_append, List.flatten_append, List.map_singleton, List.flatten_singleton, ← List.append_assoc, whole, List.drop_zero,
      noticeText, if_neg missing]

-- A message that is not empty, passed to the overload for strings.
theorem string_notified (answer : HandlerAnswers) (memory : Memory) {msg : Bytes} (free : 0 ∉ msg) (nonempty : msg ≠ []) (s : Notices) :
    ∃ next, s.processNoticeString answer memory msg = some next ∧ Notified answer s.errorhandlers.reverse memory msg s next := by
  obtain ⟨c, final⟩ : ∃ c, msg.getLast? = some c := ⟨_, List.getLast?_eq_some_getLast nonempty⟩
  have lineFree : 0 ∉ msg ++ [newline] := by
    simp [free]
    decide
  rw [Notices.processNoticeString, indexed_last nonempty, final]
  simp only [Option.bind_eq_bind, Option.bind_some]
  have whole (text : Bytes) (is : noticeText msg = text) (words : text ≠ []) :
      Notified answer s.errorhandlers.reverse memory msg s (s.processNoticeRaw answer text) :=
    ⟨Notices.process_notice_raw_handlers answer s text, [(text, false)],
      Delivered.single (Notices.process_notice_raw_dispatched answer s text words), by simp [is], fun _ => by rw [is]⟩
  by_cases ends : c = newline
  · have complete : endsInNewline msg := by rw [endsInNewline, final, ends]
    rw [if_pos ends, c_string_free free]
    exact ⟨_, rfl, whole msg (if_pos complete) nonempty⟩
  · have missing : ¬ endsInNewline msg := by
      rw [endsInNewline, final]
      exact fun same => ends (Option.some.inj same)
    rw [if_neg ends]
    cases appends : memory.appends with
    | true =>
        rw [if_pos rfl, c_string_free lineFree]
        exact ⟨_, rfl, whole (msg ++ [newline]) (if_neg missing) (List.append_ne_nil_of_left_ne_nil nonempty _)⟩
    | false =>
        rw [if_neg Bool.false_ne_true, c_string_free free]
        have first := Notices.process_notice_raw_dispatched answer s msg nonempty
        have same := Notices.process_notice_raw_handlers answer s msg
        have second := Notices.process_notice_raw_dispatched answer (s.processNoticeRaw answer msg) [newline] (List.cons_ne_nil _ _)
        rw [same] at second
        refine ⟨_, rfl, by rw [Notices.process_notice_raw_handlers, same], [(msg, false), ([newline], false)], ⟨_, first, _, second, rfl⟩, ?_, ?_⟩
        · simp [noticeText, missing]
        · rintro (complete | enough)
          · exact absurd complete missing
          · rw [enough] at appends
            cases appends

theorem chars_notified (answer : HandlerAnswers) (memory : Memory) {msg : Bytes} (free : 0 ∉ msg) (nonempty : msg ≠ []) (s : Notices) :
    ∃ next, s.processNoticeChars answer memory (some msg) = some next ∧ Notified answer s.errorhandlers.reverse memory msg s next := by
  obtain ⟨c, final⟩ : ∃ c, msg.getLast? = some c := ⟨_, List.getLast?_eq_some_getLast nonempty⟩
  have size : msg.length ≠ 0 := fun none => nonempty (List.length_eq_zero_iff.mp none)
  rw [Notices.processNoticeChars, c_string_free free]
  simp only [if_neg size, indexed_last nonempty, final, Option.bind_eq_bind, Option.bind_some]
  by_cases ends : c = newline
  · have complete : endsInNewline msg := by rw [endsInNewline, final, ends]
    rw [if_pos ends]
    exact ⟨_, rfl, Notices.process_notice_raw_handlers answer s msg, [(msg, false)],
      Delivered.single (Notices.process_notice_raw_dispatched answer s msg nonempty), by simp [noticeText, complete],
      fun _ => by rw [noticeText, if_pos complete]⟩
  · rw [if_neg ends]
    cases copies : memory.copies with
    | true =>
        rw [if_pos rfl]
        exact string_notified answer memory free nonempty s
    | false =>
        have missing : ¬ endsInNewline msg := by
          rw [endsInNewline, final]
          exact fun same => ends (Option.some.inj same)
        obtain ⟨next, routed, handlers, pieces, delivered, whole⟩ := chunks_notified answer free nonempty missing s
        rw [if_neg Bool.false_ne_true]
        refine ⟨next, routed, handlers, pieces, delivered, whole, ?_⟩
        rintro (complete | enough)
        · exact absurd complete missing
        · rw [enough] at copies
          cases copies

-- Where memory does not run out, the overloads do the same.
theorem chars_as_string (answer : HandlerAnswers) (memory : Memory) {msg : Bytes} (free : 0 ∉ msg) (nonempty : msg ≠ []) (s : Notices)
    (whole : endsInNewline msg ∨ memory = ⟨true, true⟩) :
    s.processNoticeChars answer memory (some msg) = s.processNoticeString answer memory msg := by
  obtain ⟨c, final⟩ : ∃ c, msg.getLast? = some c := ⟨_, List.getLast?_eq_some_getLast nonempty⟩
  have size : msg.length ≠ 0 := fun none => nonempty (List.length_eq_zero_iff.mp none)
  rw [Notices.processNoticeChars, c_string_free free, Notices.processNoticeString, c_string_free free]
  simp only [if_neg size, indexed_last nonempty, final, Option.bind_eq_bind, Option.bind_some]
  by_cases ends : c = newline
  · rw [if_pos ends, if_pos ends]
  · have enough : memory = ⟨true, true⟩ := by
      apply whole.resolve_left
      rw [endsInNewline, final]
      exact fun same => ends (Option.some.inj same)
    rw [if_neg ends, if_neg ends, enough, if_pos rfl, if_pos rfl]

theorem notice_dispatch (answer : HandlerAnswers) (called : List (Nat × Bytes)) (ops : List HandlerOp) (msg : Bytes)
    (feasible : Constructible ops.reverse) (free : 0 ∉ msg) : Dispatches answer called ops msg ↔ msg ≠ [] := by
  have handlers := run_newest_first { errorhandlers := [], called } ops.reverse rfl feasible
  rw [List.reverse_reverse] at handlers
  constructor
  · rintro ⟨order, -, agreeing⟩ rfl
    have silent := (agreeing.nothing rfl ⟨true, true⟩).2
    rw [Notices.processNoticeString] at silent
    cases silent
  · intro nonempty
    exact ⟨_, handlers,
      { nothing := fun none => absurd none nonempty
        delivered := fun _ memory => ⟨chars_notified answer memory free nonempty _, string_notified answer memory free nonempty _⟩
        same := fun _ memory whole => chars_as_string answer memory free nonempty _ whole }⟩

theorem notice_dispatch_to_two :
    Dispatches (fun _ handler _ => handler = 2) [] [.create 1, .create 2, .destroy 1, .create 1] [72, 105] ↔ ([72, 105] : Bytes) ≠ [] :=
  notice_dispatch _ _ _ _ ⟨by decide, by decide, by decide, by decide, trivial⟩ (by decide)

theorem notice_dispatch_empty :
    ¬ ∀ answer called ops msg, Constructible ops.reverse → 0 ∉ msg → Dispatches answer called ops msg := by
  intro all
  exact (notice_dispatch (fun _ _ _ => true) [] [] [] trivial List.not_mem_nil).mp
    (all (fun _ _ _ => true) [] [] [] trivial List.not_mem_nil) rfl

end Pqxx
