import FuseX.Http.Lifecycle

/-!
# The bytes a reader obtains

In every interleaving of the worker, the reader and `http_downloader_cancel_all`
a reader gets the bytes of the body in order, from its offset on (`StreamOk`).

`BufferInv` ties the buffer to the bytes received so far and the reader's
offset, one clause for either mode; `Offers` says where the bytes of the chunks
are that have not been received. `Session.StreamInv` collects them, one lemma
each says what the operations of the object do to the buffer, and
`StreamInv.step` goes through the locked sections.
-/

namespace FuseX.Http

open Lib

/-! ## The statement -/

/-- The offset of a reader after what it has obtained. -/
def offsetAfter : List Obtained → Nat :=
  List.foldl (fun offset event =>
    match event with
    | .bytes data => offset + data.length
    | .seek position => position
    | .eof => offset) 0

/-- What a reader at `offset` of the body may be given. -/
def Obtained.Follows (received : List UInt8) (offset : Nat) : Obtained → Prop
  | .bytes data => data <+: received.drop offset
  | .seek position => position ≤ received.length
  | .eof => offset = received.length

/-- The byte stream of one object. -/
structure StreamOk (s : Session) : Prop where
  /-- Each read returned the bytes from the reader's offset on. -/
  inOrder : ∀ front event rest, s.obtained = front ++ event :: rest →
    event.Follows s.received (offsetAfter front)
  /-- What is received and not read is in the buffer. -/
  readable : s.download.peek s.download.available = s.received.drop (offsetAfter s.obtained)
  streaming : s.download.retain = false →
    s.download.head = (s.download.tail + s.download.used) % ringSize ∧
      s.download.used ≤ ringSize
  retained : s.download.retain = true →
    s.download.tail ≤ s.download.used ∧ s.download.used ≤ s.download.contentSize ∧
      s.download.contentSize < ringSize
  /-- After a download without error all bytes of all chunks are received. -/
  complete : s.download.finished = true → s.download.result = .ok → s.received = s.offered

/-! ## The buffer -/

theorem ringSize_pos : 0 < ringSize := by decide

/-- The buffer holds the bytes received from the reader's offset on, or all of
them where they are retained. -/
structure BufferInv (h : Download) (received : List UInt8) (offset : Nat) : Prop where
  unseen : h.bodySeen = false →
    h.head = 0 ∧ h.tail = 0 ∧ h.used = 0 ∧ h.contentSize = 0 ∧ received = []
  tailLt : h.tail < ringSize
  streaming : h.retain = false →
    h.used ≤ ringSize ∧ h.head = (h.tail + h.used) % ringSize ∧
      offset + h.used = received.length ∧
      ringRead ringSize h.ring h.tail h.used = received.drop offset
  retained : h.retain = true →
    h.tail ≤ h.used ∧ h.used ≤ h.contentSize ∧ h.contentSize < ringSize ∧ h.head = h.used ∧
      offset = h.tail ∧ h.used = received.length ∧ ringRead ringSize h.ring 0 h.used = received

namespace BufferInv

variable {h : Download} {received : List UInt8} {offset : Nat}

theorem unread (inv : BufferInv h received offset) :
    offset + h.available = received.length := by
  rw [Download.available]
  cases mode : h.retain with
  | false =>
    obtain ⟨-, -, length, -⟩ := inv.streaming mode
    simpa using length
  | true =>
    obtain ⟨below, -, -, -, rfl, length, -⟩ := inv.retained mode
    simp only [if_true]
    omega

/-- The two copies of a read are one read of the ring. -/
theorem peek_eq (inv : BufferInv h received offset) {take : Nat} (within : take ≤ ringSize) :
    h.peek take = ringRead ringSize h.ring h.tail take := by
  have low := inv.tailLt
  rw [Download.peek]
  by_cases wraps : ringSize < h.tail + take
  · rw [ringRead_wrapped (Nat.le_of_lt low) wraps within, Nat.min_eq_right (by omega)]
  · rw [ringRead_contiguous (by omega), Nat.min_eq_left (by omega), Nat.sub_self]
    simp

/-- A read of what is available returns the next bytes of the body. -/
theorem peek (inv : BufferInv h received offset) {take : Nat} (within : take ≤ h.available) :
    h.peek take = (received.drop offset).take take := by
  rw [Download.available] at within
  cases mode : h.retain with
  | false =>
    obtain ⟨fits, -, -, content⟩ := inv.streaming mode
    rw [mode] at within
    have inside : take ≤ h.used := by simpa using within
    have split : h.used = take + (h.used - take) := by omega
    rw [inv.peek_eq (by omega), ← content, split, ringRead_add]
    simp
  | true =>
    obtain ⟨below, size, fits, -, rfl, length, content⟩ := inv.retained mode
    rw [mode] at within
    have inside : take ≤ h.used - h.tail := by simpa using within
    have split : h.used = h.tail + (take + (h.used - h.tail - take)) := by omega
    have pieces : received = ringRead ringSize h.ring 0 h.tail ++
        (ringRead ringSize h.ring h.tail take ++
          ringRead ringSize h.ring (h.tail + take) (h.used - h.tail - take)) := by
      have front := @ringRead_add _ ringSize h.ring 0 h.tail (take + (h.used - h.tail - take))
      rw [Nat.zero_add, ringRead_add h.tail take, ← split, content] at front
      exact front
    rw [inv.peek_eq (by omega), pieces]
    simp

/-- The invariant looks at the buffer only. -/
theorem congr {h' : Download} (inv : BufferInv h received offset) (ring : h'.ring = h.ring)
    (head : h'.head = h.head) (tail : h'.tail = h.tail) (used : h'.used = h.used)
    (retain : h'.retain = h.retain) (bodySeen : h'.bodySeen = h.bodySeen)
    (contentSize : h'.contentSize = h.contentSize) : BufferInv h' received offset where
  unseen := by
    rw [head, tail, used, bodySeen, contentSize]
    exact inv.unseen
  tailLt := by
    rw [tail]
    exact inv.tailLt
  streaming := by
    rw [ring, head, tail, used, retain]
    exact inv.streaming
  retained := by
    rw [ring, head, tail, used, retain, contentSize]
    exact inv.retained

theorem init : BufferInv {} [] 0 where
  unseen _ := ⟨rfl, rfl, rfl, rfl, rfl⟩
  tailLt := ringSize_pos
  streaming _ := ⟨Nat.zero_le _, rfl, rfl, rfl⟩
  retained mode := by cases mode

/-- A round of copying appends to what is received. -/
theorem copyRound (inv : BufferInv h received offset) (seen : h.bodySeen = true)
    {left : List UInt8} (fits : h.retain = true → h.used + left.length ≤ h.contentSize) :
    BufferInv (h.copyRound left) (received ++ left.take (h.copyTake left.length)) offset := by
  have bounds : h.copyTake left.length ≤ left.length ∧
      h.copyTake left.length ≤ ringSize - h.used ∧
      h.copyTake left.length ≤ ringSize - h.head := by
    rw [Download.copyTake]
    omega
  generalize taken : h.copyTake left.length = take at bounds
  have length : (left.take take).length = take := by
    rw [List.length_take]
    omega
  have headLt : h.head < ringSize := by
    cases mode : h.retain with
    | false =>
      rw [(inv.streaming mode).2.1]
      exact Nat.mod_lt _ ringSize_pos
    | true =>
      have := inv.retained mode
      omega
  -- the round does not wrap
  have write : overwrite h.ring h.head (left.take take) =
      ringWrite ringSize h.ring h.head (left.take take) := by
    rw [ringWrite, if_pos (by omega)]
  constructor
  · intro unseen
    rw [show (h.copyRound left).bodySeen = h.bodySeen from rfl, seen] at unseen
    cases unseen
  · exact inv.tailLt
  · intro mode
    obtain ⟨low, head, count, content⟩ := inv.streaming mode
    simp only [Download.copyRound, taken]
    refine ⟨by omega, ?_, ?_, ?_⟩
    · rw [head, Nat.mod_add_mod, Nat.add_assoc]
    · rw [List.length_append, length]
      omega
    · have appended := @ringRead_ringWrite _ _ h.ring h.tail h.used (left.take take) ringSize_pos
        (by omega)
      rw [length] at appended
      rw [write, head, appended, content, List.drop_append_of_le_length (by omega)]
  · intro mode
    obtain ⟨below, size, small, head, origin, count, content⟩ := inv.retained mode
    have room := fits mode
    simp only [Download.copyRound, taken]
    refine ⟨by omega, by omega, small, ?_, origin, ?_, ?_⟩
    · rw [head, Nat.mod_eq_of_lt (by omega)]
    · rw [List.length_append, length]
      omega
    · have appended := @ringRead_ringWrite _ _ h.ring 0 h.used (left.take take) ringSize_pos
        (by omega)
      rw [Nat.zero_add, length, Nat.mod_eq_of_lt (by omega)] at appended
      rw [write, head, appended, content]

/-- A read moves the offset by what it took. -/
theorem advance (inv : BufferInv h received offset) {take : Nat} (within : take ≤ h.available) :
    BufferInv (h.advance take) received (offset + take) := by
  rw [Download.available] at within
  rw [Download.advance]
  split
  · next none =>
    rw [none]
    exact inv
  next some =>
  cases mode : h.retain with
  | false =>
    rw [mode] at within
    have inside : take ≤ h.used := by simpa using within
    obtain ⟨low, head, count, content⟩ := inv.streaming mode
    simp only [Bool.false_eq_true, if_false]
    constructor
    · intro unseen
      have := inv.unseen unseen
      omega
    · exact Nat.mod_lt _ ringSize_pos
    · intro _
      refine ⟨by dsimp only; omega, ?_, by dsimp only; omega, ?_⟩
      · dsimp only
        rw [head, Nat.mod_add_mod]
        congr 1
        omega
      · dsimp only
        rw [ringRead_start (Nat.mod_mod _ _)]
        have split : ringRead ringSize h.ring h.tail h.used =
            ringRead ringSize h.ring h.tail take ++
              ringRead ringSize h.ring (h.tail + take) (h.used - take) := by
          rw [← ringRead_add]
          congr 1
          omega
        rw [← List.drop_drop, ← content, split]
        simp
    · intro other
      cases other
  | true =>
    rw [mode] at within
    have inside : take ≤ h.used - h.tail := by simpa using within
    obtain ⟨below, size, small, head, origin, count, content⟩ := inv.retained mode
    simp only [if_true]
    constructor
    · intro unseen
      have := inv.unseen unseen
      omega
    · dsimp only
      omega
    · intro other
      cases other
    · intro _
      exact ⟨by dsimp only; omega, size, small, head, by dsimp only; omega, count, content⟩

/-- A seek in a retained body moves the offset to the new position. -/
theorem seekTo (inv : BufferInv h received offset) (mode : h.retain = true) {position : Nat}
    (inside : position ≤ h.used) : BufferInv { h with tail := position } received position := by
  obtain ⟨below, size, small, head, -, count, content⟩ := inv.retained mode
  constructor
  · intro unseen
    have := inv.unseen unseen
    dsimp only at unseen ⊢
    refine ⟨this.1, by omega, this.2.2⟩
  · dsimp only
    omega
  · intro other
    rw [show h.retain = false from other] at mode
    cases mode
  · intro _
    exact ⟨inside, size, small, head, rfl, count, content⟩

/-- The first chunk settles the mode of an empty buffer. -/
theorem settle (inv : BufferInv h received offset) (streams : h.bodySeen = false → h.retain = false)
    (contentLength : Nat) : BufferInv (h.settle contentLength) received offset := by
  rw [Download.settle]
  split
  · exact inv
  next seen =>
  have unseen : h.bodySeen = false := by simpa using seen
  obtain ⟨head, tail, used, -, rfl⟩ := inv.unseen unseen
  obtain ⟨low, place, count, content⟩ := inv.streaming (streams unseen)
  constructor
  · intro still
    cases still
  · exact inv.tailLt
  · intro _
    exact ⟨low, place, count, content⟩
  · intro mode
    have small : contentLength < ringSize := by simpa using (Bool.and_eq_true_iff.mp mode).2
    dsimp only
    rw [head, tail, used]
    rw [used, List.length_nil] at count
    exact ⟨Nat.le_refl _, Nat.zero_le _, small, rfl, by omega, rfl, rfl⟩

/-- An empty body counts as retained. -/
theorem finish (inv : BufferInv h received offset) (streams : h.bodySeen = false → h.retain = false)
    (ok : Bool) (response : Int) : BufferInv (h.finish ok response) received offset := by
  have mode : (h.finish ok response).retain = h.retain ∨
      h.bodySeen = false ∧ (h.finish ok response).retain = true := by
    rw [Download.finish]
    dsimp only
    cases h.retain with
    | true => exact .inl rfl
    | false =>
      cases h.bodySeen with
      | true => simp
      | false => exact (Bool.eq_false_or_eq_true _).symm.imp id fun set => ⟨rfl, set⟩
  rcases mode with same | ⟨unseen, retained⟩
  · exact inv.congr rfl rfl rfl rfl same rfl rfl
  · obtain ⟨head, tail, used, size, rfl⟩ := inv.unseen unseen
    have count := (inv.streaming (streams unseen)).2.2.1
    rw [used, List.length_nil] at count
    refine ⟨fun _ => inv.unseen unseen, inv.tailLt, ?_, fun _ => ?_⟩
    · intro other
      rw [retained] at other
      cases other
    · change h.tail ≤ h.used ∧ h.used ≤ h.contentSize ∧ h.contentSize < ringSize ∧
        h.head = h.used ∧ offset = h.tail ∧ h.used = 0 ∧ ringRead ringSize h.ring 0 h.used = []
      rw [head, tail, used, size]
      exact ⟨Nat.le_refl _, Nat.le_refl _, ringSize_pos, rfl, by omega, rfl, rfl⟩

end BufferInv

/-- A transfer the client calls a failure ends with an error. -/
theorem Download.finish_failed (h : Download) (response : Int) :
    (h.finish false response).result ≠ .ok := by
  rw [Download.finish]
  cases h.cancelled with
  | true => cases h.result <;> simp
  | false => by_cases missing : response = 404 <;> simp [missing]

/-! ## The invariant of an object -/

/-- Where the bytes of the chunks are that have not been received: with a chunk
that is being copied, or dropped by a callback that fails. -/
def Offers (s : Session) : Prop :=
  match s.worker with
  | .idle | .queued | .picked => s.download.bodySeen = false ∧ s.offered = s.received
  | .receiving failed => failed = false → s.offered = s.received
  | .copying left => s.offered = s.received ++ left
  | .returned ok | .inactive ok => ok = true → s.offered = s.received
  | .destroying | .done => s.download.result = .ok → s.offered = s.received

/-- The stream of an object in the middle of a run. -/
structure Session.StreamInv (s : Session) : Prop where
  buffer : BufferInv s.download s.received (offsetAfter s.obtained)
  inOrder : ∀ front event rest, s.obtained = front ++ event :: rest →
    event.Follows s.received (offsetAfter front)
  offers : Offers s
  /-- A chunk is copied only after it was let in, and a retained one fits. -/
  admitted : ∀ left, s.worker = .copying left → s.download.bodySeen = true ∧
    (s.download.retain = true → s.download.used + left.length ≤ s.download.contentSize)
  unsettled : s.download.bodySeen = false → s.download.finished = false →
    s.download.retain = false
  stopped : s.download.finished = true → s.worker = .destroying ∨ s.worker = .done
  ended : Obtained.eof ∈ s.obtained → s.download.finished = true

theorem offsetAfter_append (log : List Obtained) (event : Obtained) :
    offsetAfter (log ++ [event]) =
      match event with
      | .bytes data => offsetAfter log + data.length
      | .seek position => position
      | .eof => offsetAfter log := by
  rw [offsetAfter, List.foldl_append]
  rfl

/-- A log stays in order when an event is added that follows it. -/
theorem inOrder_append {received : List UInt8} {log : List Obtained} {event : Obtained}
    (inOrder : ∀ front event rest, log = front ++ event :: rest →
      event.Follows received (offsetAfter front))
    (follows : event.Follows received (offsetAfter log)) :
    ∀ front other rest, log ++ [event] = front ++ other :: rest →
      other.Follows received (offsetAfter front) := by
  intro front other rest splits
  rcases List.eq_nil_or_concat' rest with rfl | ⟨middle, last, rfl⟩
  · obtain ⟨rfl, same⟩ := List.append_inj' splits rfl
    cases same
    exact follows
  · have earlier : log ++ [event] = (front ++ other :: middle) ++ [last] := by
      rw [splits]
      simp
    obtain ⟨whole, -⟩ := List.append_inj' earlier rfl
    exact inOrder front other middle whole

/-- A log stays in order when more bytes are received, unless the end was
reported. -/
theorem Obtained.Follows.mono {received more : List UInt8} {offset : Nat} {event : Obtained}
    (follows : event.Follows received offset) (within : offset ≤ received.length)
    (notEnd : event ≠ .eof) : event.Follows (received ++ more) offset := by
  cases event with
  | bytes data =>
    refine List.IsPrefix.trans (show data <+: _ from follows) ?_
    rw [List.drop_append_of_le_length within]
    exact List.prefix_append _ _
  | seek position =>
    have := show position ≤ received.length from follows
    change position ≤ (received ++ more).length
    rw [List.length_append]
    omega
  | eof => exact absurd rfl notEnd

theorem offsetAfter_le {received : List UInt8} {log : List Obtained}
    (inOrder : ∀ front event rest, log = front ++ event :: rest →
      event.Follows received (offsetAfter front)) :
    offsetAfter log ≤ received.length := by
  induction log using List.reverseRec with
  | nil => exact Nat.zero_le _
  | append_singleton log event ih =>
    have before := ih fun front other rest splits =>
      inOrder front other (rest ++ [event]) (by rw [splits]; simp)
    have follows := inOrder log event [] rfl
    rw [offsetAfter_append]
    cases event with
    | bytes data =>
      have short := (show data <+: _ from follows).length_le
      rw [List.length_drop] at short
      dsimp only
      omega
    | seek position => exact follows
    | eof => exact before

namespace Session.StreamInv

variable {s t : Session}

theorem init : StreamInv {} where
  buffer := BufferInv.init
  inOrder front event rest splits := by simp at splits
  offers := ⟨rfl, rfl⟩
  admitted left copying := by cases copying
  unsettled _ _ := rfl
  stopped finished := by cases finished
  ended member := absurd member List.not_mem_nil

/-- What the object's owner sees. -/
theorem streamOk (inv : StreamInv s) : StreamOk s where
  inOrder := inv.inOrder
  readable := by
    rw [inv.buffer.peek (Nat.le_refl _)]
    have unread := inv.buffer.unread
    exact List.take_of_length_le (by rw [List.length_drop]; omega)
  streaming mode :=
    have held := inv.buffer.streaming mode
    ⟨held.2.1, held.1⟩
  retained mode :=
    have held := inv.buffer.retained mode
    ⟨held.1, held.2.1, held.2.2.1⟩
  complete finished result := by
    have offers := inv.offers
    rw [Offers] at offers
    rcases inv.stopped finished with phase | phase <;>
    · rw [phase] at offers
      exact (offers result).symm

/-- A section that leaves the stream alone: the buffer, the mode and the history
are as before, and a result that was an error stays one. -/
theorem congr (inv : StreamInv s) (buffer : BufferInv t.download s.received (offsetAfter s.obtained))
    (received : t.received = s.received) (offered : t.offered = s.offered)
    (obtained : t.obtained = s.obtained) (bodySeen : t.download.bodySeen = s.download.bodySeen)
    (retain : t.download.retain = s.download.retain) (used : t.download.used = s.download.used)
    (contentSize : t.download.contentSize = s.download.contentSize)
    (finished : t.download.finished = s.download.finished)
    (result : t.download.result = .ok → s.download.result = .ok)
    (worker : t.worker = s.worker) : StreamInv t where
  buffer := by
    rw [received, obtained]
    exact buffer
  inOrder := by
    rw [received, obtained]
    exact inv.inOrder
  offers := by
    have offers := inv.offers
    rw [Offers] at offers ⊢
    rw [worker, offered, received, bodySeen]
    split at offers <;> first | exact offers | exact fun ok => offers (result ok)
  admitted := by
    rw [worker, bodySeen, retain, used, contentSize]
    exact inv.admitted
  unsettled := by
    rw [bodySeen, retain, finished]
    exact inv.unsettled
  stopped := by
    rw [finished, worker]
    exact inv.stopped
  ended := by
    rw [obtained, finished]
    exact inv.ended

/-! ## The reader -/

theorem readOut (inv : StreamInv s) {size : UInt32} (some : size ≠ 0)
    (ready : 0 < s.download.available ∨ s.download.finished = true ∨ s.download.result ≠ .ok) :
    StreamInv (s.readOut size) := by
  have asked : 0 < min size.toNat (2 ^ 31 - 1) := by
    have : size.toNat ≠ 0 := fun zero => some (UInt32.toNat_inj.mp zero)
    omega
  generalize taken : min (min size.toNat (2 ^ 31 - 1)) s.download.available = take
  have within : take ≤ s.download.available := by omega
  have advanced := inv.buffer.advance within
  have same : (s.download.advance take).bodySeen = s.download.bodySeen ∧
      (s.download.advance take).retain = s.download.retain ∧
      (s.download.advance take).finished = s.download.finished ∧
      (s.download.advance take).result = s.download.result ∧
      (s.download.advance take).contentSize = s.download.contentSize ∧
      (s.download.retain = true → (s.download.advance take).used = s.download.used) := by
    rw [Download.advance]
    split
    · exact ⟨rfl, rfl, rfl, rfl, rfl, fun _ => rfl⟩
    · cases mode : s.download.retain with
      | true => exact ⟨rfl, rfl, rfl, rfl, rfl, fun _ => rfl⟩
      | false => exact ⟨rfl, rfl, rfl, rfl, rfl, fun retain => by cases retain⟩
  obtain ⟨bodySeen, retain, finished, result, contentSize, used⟩ := same
  have offers : ∀ log, Offers { s with download := s.download.advance take, obtained := log } := by
    intro log
    have offers := inv.offers
    rw [Offers] at offers ⊢
    dsimp only
    rw [bodySeen, result]
    exact offers
  have admitted : ∀ left, s.worker = .copying left → (s.download.advance take).bodySeen = true ∧
      ((s.download.advance take).retain = true →
        (s.download.advance take).used + left.length ≤ (s.download.advance take).contentSize) := by
    intro left copying
    rw [bodySeen, retain, contentSize]
    refine ⟨(inv.admitted left copying).1, fun mode => ?_⟩
    rw [used mode]
    exact (inv.admitted left copying).2 mode
  rw [Session.readOut, taken]
  by_cases nothing : take = 0
  · -- nothing was there, so the wait ended with the download or an error
    have ended : s.download.result = .ok → s.download.finished = true := by
      intro ok
      rcases ready with available | finished | failed
      · omega
      · exact finished
      · exact absurd ok failed
    have unread := inv.buffer.unread
    rw [nothing, Nat.add_zero] at advanced
    subst nothing
    simp only [Nat.lt_irrefl, if_false]
    refine ⟨?_, ?_, offers _, admitted, ?_, ?_, ?_⟩
    · split
      · rw [offsetAfter_append]
        exact advanced
      · exact advanced
    · split
      · have atEnd : offsetAfter s.obtained = s.received.length := by omega
        exact inOrder_append inv.inOrder atEnd
      · exact inv.inOrder
    · rw [bodySeen, retain, finished]
      exact inv.unsettled
    · rw [finished]
      exact inv.stopped
    · rw [finished]
      split
      · next ok => exact fun _ => ended ok
      · exact inv.ended
  · have positive : 0 < take := Nat.pos_of_ne_zero nothing
    have bytes := inv.buffer.peek within
    have length : (s.download.peek take).length = take := by
      have unread := inv.buffer.unread
      rw [bytes, List.length_take, List.length_drop]
      omega
    simp only [positive, if_true]
    refine ⟨?_, ?_, offers _, admitted, ?_, ?_, ?_⟩
    · rw [offsetAfter_append]
      dsimp only
      rw [length]
      exact advanced
    · refine inOrder_append inv.inOrder ?_
      change s.download.peek take <+: _
      rw [bytes]
      exact List.take_prefix _ _
    · rw [bodySeen, retain, finished]
      exact inv.unsettled
    · rw [finished]
      exact inv.stopped
    · rw [finished]
      intro member
      rcases List.mem_append.mp member with old | new
      · exact inv.ended old
      · cases List.mem_singleton.mp new

theorem timedOut (inv : StreamInv s) : StreamInv { s with download := s.download.timedOut } :=
  inv.congr (inv.buffer.congr rfl rfl rfl rfl rfl rfl rfl) rfl rfl rfl rfl rfl rfl rfl rfl
    (fun failed => by cases failed) rfl

theorem seek (inv : StreamInv s) {offset : Int32} {whence : UInt8} {position : Nat} {h : Download}
    (sought : s.download.seek offset whence = (some position, h)) :
    StreamInv { s with download := h, obtained := s.obtained ++ [.seek position] } := by
  rw [Download.seek] at sought
  split at sought
  · cases sought
  next allowed =>
  obtain ⟨retain, finished⟩ : s.download.retain = true ∧ s.download.finished = true := by
    simp only [Bool.or_eq_true, Bool.not_eq_true', not_or, Bool.not_eq_false] at allowed
    exact ⟨allowed.1.1.1, allowed.1.1.2⟩
  dsimp only at sought
  generalize s.download.seekTarget offset whence = target at sought
  split at sought
  · cases sought
  obtain ⟨place, rfl⟩ := Prod.mk.inj sought
  have inside : position ≤ s.download.used := by
    rw [← Option.some.inj place]
    split <;> omega
  rw [Option.some.inj place]
  have length := (inv.buffer.retained retain).2.2.2.2.2.1
  refine ⟨?_, ?_, inv.offers, inv.admitted, inv.unsettled, inv.stopped, ?_⟩
  · rw [offsetAfter_append]
    exact inv.buffer.seekTo retain inside
  · have landed : position ≤ s.received.length := by omega
    exact inOrder_append inv.inOrder landed
  · exact fun _ => finished

/-! ## The worker -/

theorem chunk (inv : StreamInv s) (phase : s.worker = .receiving false) {data : List UInt8}
    {position contentLength : Nat} {response : Int} {admitted : Bool} {h : Download}
    (received : s.download.receiveChunk data.length position contentLength response =
      (admitted, h)) :
    StreamInv { s with
      download := h
      worker := if admitted then .copying data else .receiving true
      offered := s.offered ++ data } := by
  have running : s.download.finished = false := by
    cases finished : s.download.finished with
    | false => rfl
    | true => rcases inv.stopped finished with other | other <;> rw [phase] at other <;> cases other
  have offers : s.offered = s.received := by
    have offers := inv.offers
    rw [Offers, phase] at offers
    exact offers rfl
  have failing : ∀ h' : Download, BufferInv h' s.received (offsetAfter s.obtained) →
      h'.finished = s.download.finished → (h'.bodySeen = false → h'.retain = false) →
      StreamInv { s with download := h', worker := .receiving true, offered := s.offered ++ data } := by
    intro h' buffer finished streams
    refine ⟨buffer, inv.inOrder, ?_, ?_, fun unseen _ => streams unseen, ?_, ?_⟩
    · intro ok
      cases ok
    · intro left copying
      cases copying
    · dsimp only
      rw [finished, running]
      intro other
      cases other
    · dsimp only
      rw [finished]
      exact inv.ended
  rw [Download.receiveChunk] at received
  dsimp only at received
  split at received
  · cases received
    exact failing _ (inv.buffer.congr rfl rfl rfl rfl rfl rfl rfl) rfl
      fun unseen => inv.unsettled unseen running
  -- the mode is settled by the first chunk
  have buffer := (inv.buffer.congr rfl rfl rfl rfl rfl rfl rfl :
    BufferInv { s.download with response := response } _ _).settle
    (fun unseen => inv.unsettled unseen running) contentLength
  have flags : (({ s.download with response := response } : Download).settle
      contentLength).finished = s.download.finished ∧
      (({ s.download with response := response } : Download).settle contentLength).bodySeen = true := by
    rw [Download.settle]
    split
    · next seen => exact ⟨rfl, seen⟩
    · exact ⟨rfl, rfl⟩
  generalize ({ s.download with response := response } : Download).settle contentLength = h' at *
  obtain ⟨finished, seen⟩ := flags
  split at received
  · cases received
    refine failing _ (buffer.congr rfl rfl rfl rfl rfl rfl rfl) finished ?_
    intro unseen
    rw [show h'.bodySeen = false from unseen] at seen
    cases seen
  next room =>
  cases received
  refine ⟨buffer, inv.inOrder, ?_, ?_, ?_, ?_, ?_⟩
  · change s.offered ++ data = s.received ++ data
    rw [offers]
  · intro left copying
    cases copying
    refine ⟨seen, fun mode => ?_⟩
    have fits := (buffer.retained mode).2.1
    have short : ¬ h.contentSize - h.used < data.length := fun small => room ⟨mode, .inr small⟩
    dsimp only
    omega
  · intro unseen
    rw [show h.bodySeen = false from unseen] at seen
    cases seen
  · dsimp only
    rw [finished, running]
    intro other
    cases other
  · dsimp only
    rw [finished]
    exact inv.ended

/-- The object is not finished while the worker is at the transfer. -/
theorem running (inv : StreamInv s) (destroying : s.worker ≠ .destroying)
    (done : s.worker ≠ .done) : s.download.finished = false := by
  cases finished : s.download.finished with
  | false => rfl
  | true =>
    rcases inv.stopped finished with phase | phase
    · exact absurd phase destroying
    · exact absurd phase done

theorem copy (inv : StreamInv s) {left : List UInt8} (phase : s.worker = .copying left) :
    StreamInv { s with
      download := s.download.copyRound left
      worker := .copying (left.drop (s.download.copyTake left.length))
      received := s.received ++ left.take (s.download.copyTake left.length) } := by
  have running : s.download.finished = false :=
    inv.running (by rw [phase]; simp) (by rw [phase]; simp)
  have unended : Obtained.eof ∉ s.obtained := by
    intro member
    rw [inv.ended member] at running
    cases running
  obtain ⟨seen, fits⟩ := inv.admitted left phase
  refine ⟨inv.buffer.copyRound seen fits, ?_, ?_, ?_, inv.unsettled, ?_, inv.ended⟩
  · intro front event rest splits
    have prefixOrder : ∀ front' event' rest', front = front' ++ event' :: rest' →
        event'.Follows s.received (offsetAfter front') := by
      intro front' event' rest' inner
      exact inv.inOrder front' event' (rest' ++ event :: rest) (by rw [splits, inner]; simp)
    refine (inv.inOrder front event rest splits).mono (offsetAfter_le prefixOrder) ?_
    rintro rfl
    exact unended (splits ▸ by simp)
  · have offers := inv.offers
    rw [Offers, phase] at offers
    change s.offered = _ ++ _
    rw [offers, List.append_assoc, List.take_append_drop]
  · intro rest copying
    cases copying
    refine ⟨seen, fun mode => ?_⟩
    have whole := fits mode
    have bounded : s.download.copyTake left.length ≤ left.length := by
      rw [Download.copyTake]
      omega
    change s.download.used + s.download.copyTake left.length +
      (left.drop (s.download.copyTake left.length)).length ≤ s.download.contentSize
    rw [List.length_drop]
    omega
  · intro finished
    rw [show s.download.finished = true from finished] at running
    cases running

theorem chunkReturn (inv : StreamInv s) {left : List UInt8} (phase : s.worker = .copying left)
    (ended : left = [] ∨ s.download.cancelled = true) :
    StreamInv { s with worker := .receiving s.download.cancelled } := by
  refine ⟨inv.buffer, inv.inOrder, ?_, ?_, inv.unsettled, ?_, inv.ended⟩
  · change s.download.cancelled = false → s.offered = s.received
    intro going
    rcases ended with rfl | cancelled
    · have offers := inv.offers
      rw [Offers, phase] at offers
      simpa using offers
    · rw [going] at cancelled
      cases cancelled
  · intro left copying
    cases copying
  · intro finished
    have running := inv.running (by rw [phase]; simp) (by rw [phase]; simp)
    rw [show s.download.finished = true from finished] at running
    cases running

/-- A step of the worker's position that knows where the chunks' bytes are. -/
theorem moved (inv : StreamInv s) {phase : WorkerPhase} (destroying : s.worker ≠ .destroying)
    (done : s.worker ≠ .done) (offers : Offers { s with worker := phase })
    (notCopying : ∀ left, phase ≠ .copying left) : StreamInv { s with worker := phase } := by
  refine ⟨inv.buffer, inv.inOrder, offers, fun left copying => absurd copying (notCopying left),
    inv.unsettled, ?_, inv.ended⟩
  intro finished
  have running := inv.running destroying done
  rw [show s.download.finished = true from finished] at running
  cases running

theorem finish (inv : StreamInv s) {ok : Bool} (phase : s.worker = .inactive ok) (response : Int)
    {last : WorkerPhase} (ends : last = .destroying ∨ last = .done) :
    StreamInv { s with download := s.download.finish ok response, worker := last } := by
  have running : s.download.finished = false :=
    inv.running (by rw [phase]; simp) (by rw [phase]; simp)
  refine ⟨inv.buffer.finish (fun unseen => inv.unsettled unseen running) ok response, inv.inOrder,
    ?_, ?_, ?_, fun _ => ends, fun _ => rfl⟩
  · -- a transfer that failed or was cancelled ends with an error
    have good : (s.download.finish ok response).result = .ok → ok = true := by
      intro result
      cases ok with
      | true => rfl
      | false => exact absurd result (s.download.finish_failed response)
    have offers := inv.offers
    rw [Offers, phase] at offers
    rcases ends with rfl | rfl
    · exact fun result => offers (good result)
    · exact fun result => offers (good result)
  · intro left copying
    rcases ends with rfl | rfl <;> cases copying
  · intro _ unfinished
    cases unfinished

end Session.StreamInv

/-! ## Runs -/

/-- Every locked section keeps the invariant. -/
theorem Session.StreamInv.act {s t : Session} {act : SessionAct} (inv : StreamInv s)
    (step : s.act act = some t) : StreamInv t := by
  have same : ∀ {u : Session}, u.download = s.download → u.received = s.received →
      u.offered = s.offered → u.obtained = s.obtained → u.worker = s.worker → StreamInv u := by
    intro u download received offered obtained worker
    refine inv.congr ?_ received offered obtained ?_ ?_ ?_ ?_ ?_ ?_ worker
    all_goals rw [download]
    · exact inv.buffer
    · exact id
  cases act with
  | fail =>
    obtain ⟨-, rfl⟩ := Option.ite_none_right_eq_some.mp step |>.imp id Option.some.inj
    exact same rfl rfl rfl rfl rfl
  | check =>
    obtain ⟨-, rfl⟩ := Option.ite_none_right_eq_some.mp step |>.imp id Option.some.inj
    exact same rfl rfl rfl rfl rfl
  | wake =>
    obtain ⟨-, rfl⟩ := Option.ite_none_right_eq_some.mp step |>.imp id Option.some.inj
    exact same rfl rfl rfl rfl rfl
  | openTimeout =>
    obtain ⟨-, rfl⟩ := Option.ite_none_right_eq_some.mp step |>.imp id Option.some.inj
    exact inv.congr (inv.buffer.congr rfl rfl rfl rfl rfl rfl rfl) rfl rfl rfl rfl rfl rfl rfl rfl
      (fun failed => by cases failed) rfl
  | read size =>
    obtain ⟨-, step⟩ := Option.ite_none_right_eq_some.mp step
    split at step
    · cases step
      exact inv
    next some =>
    obtain ⟨ready, rfl⟩ := Option.ite_none_right_eq_some.mp step |>.imp id Option.some.inj
    exact inv.readOut some ready
  | readTimeout size =>
    obtain ⟨⟨-, some⟩, rfl⟩ := Option.ite_none_right_eq_some.mp step |>.imp id Option.some.inj
    exact inv.timedOut.readOut some (.inr (.inr (by simp [Download.timedOut])))
  | seek offset whence =>
    obtain ⟨-, step⟩ := Option.ite_none_right_eq_some.mp step
    split at step
    · next position h sought =>
      cases step
      exact inv.seek sought
    · cases step
      exact inv
  | close =>
    obtain ⟨-, rfl⟩ := Option.ite_none_right_eq_some.mp step |>.imp id Option.some.inj
    exact inv.congr (inv.buffer.congr rfl rfl rfl rfl rfl rfl rfl) rfl rfl rfl rfl rfl rfl rfl rfl
      id rfl
  | closeWake =>
    obtain ⟨-, rfl⟩ := Option.ite_none_right_eq_some.mp step |>.imp id Option.some.inj
    exact same rfl rfl rfl rfl rfl
  | closeDestroy =>
    obtain ⟨-, rfl⟩ := Option.ite_none_right_eq_some.mp step |>.imp id Option.some.inj
    exact same rfl rfl rfl rfl rfl
  | start =>
    obtain ⟨picked, rfl⟩ := Option.ite_none_right_eq_some.mp step |>.imp id Option.some.inj
    have offers := inv.offers
    rw [Offers, picked] at offers
    have moved : ∀ phase, Offers { s with worker := phase } → (∀ left, phase ≠ .copying left) →
        StreamInv { s with worker := phase } := by
      intro phase
      exact inv.moved (by rw [picked]; simp) (by rw [picked]; simp)
    cases s.download.cancelled with
    | true => exact moved (.returned false) (fun _ => offers.2) (by simp)
    | false => exact moved (.receiving false) (fun _ => offers.2) (by simp)
  | socketOpen =>
    simp only [Session.act] at step
    split at step
    · cases step
      exact inv.congr (inv.buffer.congr rfl rfl rfl rfl rfl rfl rfl) rfl rfl rfl rfl rfl rfl rfl rfl
        id rfl
    · cases step
  | socketClose =>
    simp only [Session.act] at step
    split at step
    · cases step
      exact inv.congr (inv.buffer.congr rfl rfl rfl rfl rfl rfl rfl) rfl rfl rfl rfl rfl rfl rfl rfl
        id rfl
    · cases step
  | chunk data position contentLength response =>
    simp only [Session.act] at step
    split at step
    · next phase =>
      cases step
      exact inv.chunk phase rfl
    · cases step
  | copy =>
    simp only [Session.act] at step
    split at step
    · next left phase =>
      obtain ⟨-, rfl⟩ := Option.ite_none_right_eq_some.mp step |>.imp id Option.some.inj
      exact inv.copy phase
    · cases step
  | ringTimeout =>
    simp only [Session.act] at step
    split at step
    · cases step
      exact inv.timedOut
    · cases step
  | chunkReturn =>
    simp only [Session.act] at step
    split at step
    · next left phase =>
      obtain ⟨ended, rfl⟩ := Option.ite_none_right_eq_some.mp step |>.imp id Option.some.inj
      exact inv.chunkReturn phase ended
    · cases step
  | transferEnd ok =>
    simp only [Session.act] at step
    split at step
    · next failed phase =>
      obtain ⟨agrees, rfl⟩ := Option.ite_none_left_eq_some.mp step |>.imp id Option.some.inj
      have offers := inv.offers
      rw [Offers, phase] at offers
      refine inv.moved (by rw [phase]; simp) (by rw [phase]; simp) ?_ (by simp)
      rintro rfl
      exact offers (by simpa using agrees)
    · cases step
  | finish response =>
    simp only [Session.act] at step
    split at step
    · next ok phase =>
      cases step
      refine inv.finish phase response ?_
      split
      · exact .inl rfl
      · exact .inr rfl
    · cases step
  | orphanDestroy =>
    obtain ⟨phase, rfl⟩ := Option.ite_none_right_eq_some.mp step |>.imp id Option.some.inj
    have offers := inv.offers
    rw [Offers, phase] at offers
    exact ⟨inv.buffer, inv.inOrder, offers, by simp, inv.unsettled, fun _ => .inr rfl, inv.ended⟩

theorem Session.StreamInv.touch {s : Session} (inv : StreamInv s) : StreamInv s.touch :=
  inv.congr (inv.buffer.congr rfl rfl rfl rfl rfl rfl rfl) rfl rfl rfl rfl rfl rfl rfl rfl id rfl

theorem Session.StreamInv.step {s t : Session} {act : SessionAct} (inv : StreamInv s)
    (step : sessionStep s act = some t) : StreamInv t :=
  inv.touch.act step

/-- All objects are in order. -/
def Streams (d : Downloader) : Prop :=
  ∀ s ∈ d.sessions, s.StreamInv

theorem Streams.set {d : Downloader} (streams : Streams d) (i : Nat) {s : Session}
    (inv : s.StreamInv) : ∀ t ∈ d.sessions.set i s, t.StreamInv := by
  intro t member
  rcases List.mem_or_eq_of_mem_set member with old | rfl
  · exact streams t old
  · exact inv

/-- Handing an object to the worker or taking it does not touch its bytes. -/
theorem Session.StreamInv.handed {s : Session} (inv : StreamInv s) {user : UserPhase}
    {phase : WorkerPhase} (before : s.worker = .idle ∨ s.worker = .queued)
    (after : phase = .idle ∨ phase = .queued ∨ phase = .picked) :
    StreamInv { s with user := user, worker := phase } := by
  have offers := inv.offers
  have running := inv.running (by rcases before with h | h <;> rw [h] <;> simp)
    (by rcases before with h | h <;> rw [h] <;> simp)
  refine ⟨inv.buffer, inv.inOrder, ?_, ?_, inv.unsettled, ?_, inv.ended⟩
  · rw [Offers] at offers ⊢
    rcases before with h | h <;> rw [h] at offers <;>
    · rcases after with rfl | rfl | rfl <;> exact offers
  · intro left copying
    rcases after with rfl | rfl | rfl <;> cases copying
  · intro finished
    rw [show s.download.finished = true from finished] at running
    cases running

/-- A step of any party keeps all objects in order; `Inv` says that an object is
handed over before the worker is at it. -/
theorem Streams.step {d e : Downloader} {act : DownloaderAct} (inv : Inv d) (streams : Streams d)
    (step : downloaderStep d act = some e) : Streams e := by
  have object : ∀ {i : Nat} {s : Session}, d.sessions[i]? = some s → s.StreamInv :=
    fun here => streams _ (List.mem_of_getElem? here)
  cases act with
  | allocate =>
    cases step
    intro s member
    rcases List.mem_append.mp member with old | new
    · exact streams s old
    · rw [List.mem_singleton.mp new]
      exact .init
  | register i created =>
    obtain ⟨s, here, step⟩ := Option.bind_eq_some_iff.mp step
    obtain ⟨opening, step⟩ := Option.ite_none_left_eq_some.mp step
    have idle : s.worker = .idle := by
      have held := (inv.phases i s here).held
      rw [Session.Held, show s.user = .opening from not_not.mp opening] at held
      exact held.1
    split at step
    · cases step
      have stream := object here
      exact streams.set i (stream.congr stream.buffer rfl rfl rfl rfl rfl rfl rfl rfl id rfl)
    · cases step
      exact streams.set i ((object here).handed (.inl idle) (.inr (.inl rfl)))
  | pick =>
    obtain ⟨i, pending, step⟩ := Option.bind_eq_some_iff.mp step
    obtain ⟨s, here, step⟩ := Option.bind_eq_some_iff.mp step
    obtain ⟨-, rfl⟩ := Option.ite_none_right_eq_some.mp step |>.imp id Option.some.inj
    have queued := (inv.queued i s here).mpr pending
    exact streams.set i ((object here).handed (.inr queued) (.inr (.inr rfl)))
  | clearActive i =>
    obtain ⟨s, here, step⟩ := Option.bind_eq_some_iff.mp step
    split at step
    · next ok returned =>
      cases step
      have offers := (object here).offers
      rw [Offers, returned] at offers
      exact streams.set i
        ((object here).moved (by simp [returned]) (by simp [returned]) offers (by simp))
    · cases step
  | cancelAll =>
    simp only [downloaderStep] at step
    split at step
    · cases step
      exact streams
    · next i active =>
      obtain ⟨s, here, step⟩ := Option.bind_eq_some_iff.mp step
      cases step
      have touched := (object here).touch
      refine streams.set i ?_
      exact touched.congr (touched.buffer.congr rfl rfl rfl rfl rfl rfl rfl) rfl rfl rfl rfl rfl rfl
        rfl rfl (fun failed => by cases failed) rfl
  | on i act =>
    obtain ⟨s, here, step⟩ := Option.bind_eq_some_iff.mp step
    obtain ⟨t, locked, last⟩ := Option.bind_eq_some_iff.mp step
    cases last
    exact streams.set i ((object here).step locked)

/-- Every reader gets the bytes of the body in order, in every run. -/
theorem byte_stream {acts : List DownloaderAct} {d : Downloader}
    (run : Runs downloaderStep anyStep Downloader.start acts d) :
    ∀ s ∈ d.sessions, StreamOk s := by
  have streams : Inv d ∧ Streams d := by
    refine run.invariant (I := fun d => Inv d ∧ Streams d) ⟨Inv.start, fun s member => ?_⟩ ?_
    · cases member
    intro before act after inv _ step
    exact ⟨(inv.1.step step).1, inv.2.step inv.1 step⟩
  exact fun s member => (streams.2 s member).streamOk

/-- Two chunks, the first of which is read before the second is in. -/
def twoChunks : List DownloaderAct :=
  [.allocate, .register 0 true, .on 0 .check, .pick, .on 0 .start,
    .on 0 (.chunk [104, 105] 0 0 200), .on 0 .copy, .on 0 .chunkReturn, .on 0 .wake, .on 0 .check,
    .on 0 (.read 2), .on 0 (.chunk [33] 2 0 200), .on 0 .copy, .on 0 .chunkReturn,
    .on 0 (.transferEnd true), .clearActive 0, .on 0 (.finish 200), .on 0 (.read 9), .on 0 (.read 9)]

theorem byte_stream_twoChunks :
    ∃ d, Runs downloaderStep anyStep Downloader.start twoChunks d ∧
      ∀ s ∈ d.sessions, StreamOk s := by
  obtain ⟨d, run⟩ : ∃ d, Runs downloaderStep anyStep Downloader.start twoChunks d :=
    ⟨_, .of_foldlM rfl⟩
  exact ⟨d, run, byte_stream run⟩

end FuseX.Http
