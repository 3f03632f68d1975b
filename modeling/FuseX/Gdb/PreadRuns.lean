import FuseX.Gdb.VfileServed
import Mathlib.Data.List.Forall2

/-!
# Reading a file with `pread`

A `pread` names no place: it goes on where the last one ended, and the answer is the digits alone.
So the answers to a sequence of requests are consecutive pieces of the file, and up to an empty
one they are all of it (`preads_whole`), as long as no request gets 2^15 bytes or more.
-/

namespace FuseX.Gdb

open Lib

/-! ## A file -/

variable {σ : Type}

/-- The file system's `read` is that of a file with this content: it goes on from the offset, and
there is nothing only at the end. -/
structure FileReads (engine : XfsEngine σ) (content : Bytes) (offset : σ → Nat) : Prop where
  read : ∀ s size, ∃ n : Nat, (engine.call s (.read size)).2.result = n ∧ n ≤ size ∧
    n ≤ content.length - offset s ∧
    (engine.call s (.read size)).2.data.take n = (content.drop (offset s)).take n ∧
    offset (engine.call s (.read size)).1 = offset s + n ∧
    (size ≠ 0 → n = 0 → content.length ≤ offset s)

/-! ## Requests -/

/-- A request: where its arguments lie and how long they are, and what the buffer for responses
holds when it comes. -/
structure PreadRequest where
  args : Bytes
  n : Nat
  buf : Bytes

/-- The request is well formed and has this count. -/
structure PreadRequest.Asks (r : PreadRequest) (count : UInt32) : Prop where
  args : preadArgs r.args r.n = some (some count)
  buf : r.buf.length = responseBufSize

/-- The responses to requests that follow each other. -/
def preads (engine : XfsEngine σ) (v : Vfile σ) :
    List PreadRequest → Option (Vfile σ × List Bytes)
  | [] => some (v, [])
  | r :: requests => do
      let answered ← handleVfilePread engine v r.buf r.args r.n
      let rest ← preads engine answered.1.1 requests
      return (rest.1, answered.1.2 :: rest.2)

/-- Consecutive pieces of a file from a place on. -/
inductive Pieces (content : Bytes) : Nat → List Bytes → Prop
  | nil (offset : Nat) : Pieces content offset []
  | cons {offset : Nat} {piece : Bytes} {pieces : List Bytes} :
    piece = (content.drop offset).take piece.length →
    Pieces content (offset + piece.length) pieces → Pieces content offset (piece :: pieces)

/-- The pieces add up to what they are of. -/
theorem Pieces.flatten {content : Bytes} {offset : Nat} {pieces : List Bytes}
    (all : Pieces content offset pieces) :
    pieces.flatten = (content.drop offset).take pieces.flatten.length := by
  induction all with
  | nil => rfl
  | @cons offset piece pieces whole _ ih =>
    rw [List.flatten_cons, List.length_append, List.take_add, ← whole, List.drop_drop, ← ih]

/-- Up to an end that they reach, they are all of it. -/
theorem Pieces.complete {content : Bytes} {offset : Nat} {pieces : List Bytes}
    (all : Pieces content offset pieces)
    (ends : content.length ≤ offset + pieces.flatten.length) :
    pieces.flatten = content.drop offset := by
  rw [all.flatten]
  refine List.take_of_length_le ?_
  rw [List.length_drop]
  omega

/-! ## Digits -/

theorem hexNib_upperDigit : ∀ n < 16, hexNib (upperDigit (UInt8.ofNat n)) = some n := by
  decide

/-- The digits of a byte are read as it. -/
theorem hexPairs_upperHex (data : Bytes) : hexPairs (upperHex data) = some data := by
  induction data with
  | nil => rfl
  | cons byte data ih =>
    have bound := byte.toNat_lt
    have high : byte >>> 4 = UInt8.ofNat (byte.toNat / 16) := by
      refine UInt8.toNat_inj.mp ?_
      rw [UInt8.toNat_shiftRight]
      simp only [UInt8.reduceToNat, Nat.reduceMod]
      rw [UInt8.toNat_ofNat', Nat.mod_eq_of_lt (show byte.toNat / 16 < 2 ^ 8 by omega)]
      exact Nat.shiftRight_eq_div_pow _ _
    have low : byte &&& 0x0F = UInt8.ofNat (byte.toNat % 16) := by
      refine UInt8.toNat_inj.mp ?_
      rw [UInt8.toNat_and, UInt8.toNat_ofNat',
        Nat.mod_eq_of_lt (show byte.toNat % 16 < 2 ^ 8 by omega)]
      exact Nat.and_two_pow_sub_one_eq_mod _ 4
    have joined : UInt8.ofNat ((byte.toNat / 16) <<< 4 ||| byte.toNat % 16) = byte := by
      rw [← Nat.shiftLeft_add_eq_or_of_lt (by omega), Nat.shiftLeft_eq]
      refine UInt8.toNat_inj.mp ?_
      rw [UInt8.toNat_ofNat']
      omega
    show hexPairs (upperDigit (byte >>> 4) :: upperDigit (byte &&& 0x0F) :: upperHex data) = _
    rw [hexPairs, high, low, hexNib_upperDigit _ (by omega), hexNib_upperDigit _ (by omega), ih]
    exact congrArg (fun b => some (b :: data)) joined

/-! ## One request -/

/-- What a request is answered with that gets fewer than 2^15 bytes. -/
theorem pread_piece {engine : XfsEngine σ} {content : Bytes} {offset : σ → Nat}
    (file : FileReads engine content offset) {v : Vfile σ} (opened : v.handle = .file)
    {r : PreadRequest} {count : UInt32} (asks : r.Asks count)
    (few : count.toNat < 0x8000 ∨ content.length < 0x8000) :
    ∃ v' piece buf', handleVfilePread engine v r.buf r.args r.n =
        some ((v', upperHex piece), buf') ∧ v'.handle = .file ∧
      piece = (content.drop (offset v.fs)).take piece.length ∧ piece.length ≤ count.toNat ∧
      offset v'.fs = offset v.fs + piece.length ∧
      (count ≠ 0 → piece = [] → content.length ≤ offset v.fs) := by
  obtain ⟨n, result, atMost, within, data, moved, ended⟩ :=
    file.read v.fs (min count.toNat ((responseBufSize - 1) / 2))
  have small : n < 0x8000 := by omega
  have signed : toInt16 (n : Int) = n := by
    unfold toInt16 Int.bmod
    dsimp only
    omega
  have digits := pread_string engine asks.buf v.fs (min count.toNat ((responseBufSize - 1) / 2))
  rw [result, signed, Int.toNat_natCast, data] at digits
  have pieceLength : ((content.drop (offset v.fs)).take n).length = n := by
    rw [List.length_take, List.length_drop]
    omega
  have notTooMany : ¬ responseBufSize - 1 < n * 2 := by
    rw [responseBufSize]
    omega
  have answered : ∃ v' buf', handleVfilePread engine v r.buf r.args r.n =
      some ((v', upperHex ((content.drop (offset v.fs)).take n)), buf') ∧ v'.handle = v.handle ∧
      v'.fs = (engine.call v.fs (.read (min count.toNat ((responseBufSize - 1) / 2)))).1 := by
    unfold handleVfilePread
    rw [if_neg (not_not.mpr opened), asks.args, Option.bind_some]
    dsimp only [Vfile.call, Vfile.log]
    rw [result, signed, if_neg (by omega), Int.toNat_natCast, if_neg notTooMany, digits]
    exact ⟨_, _, rfl, rfl, rfl⟩
  obtain ⟨v', buf', answer, handle, fs⟩ := answered
  refine ⟨v', _, buf', answer, handle.trans opened, ?_, ?_, ?_, fun some_ empty => ?_⟩
  · rw [pieceLength]
  · rw [pieceLength]
    omega
  · rw [pieceLength, fs, moved]
  · rw [← List.length_eq_zero_iff, pieceLength] at empty
    refine ended ?_ empty
    have positive : count.toNat ≠ 0 := fun zero => some_ (UInt32.toNat_inj.mp zero)
    rw [responseBufSize]
    omega

/-! ## Sequences of requests -/

/-- The requests are well formed, and none gets 2^15 bytes or more. -/
def FewBytes (content : Bytes) (requests : List PreadRequest) : Prop :=
  ∀ r ∈ requests, ∃ count, r.Asks count ∧ (count.toNat < 0x8000 ∨ content.length < 0x8000)

/-- What the responses to requests are. -/
structure Reads (content : Bytes) (start : Nat) (requests : List PreadRequest)
    (responses pieces : List Bytes) : Prop where
  decoded : responses.map hexPairs = pieces.map some
  parts : Pieces content start pieces
  bounded : List.Forall₂ (fun (r : PreadRequest) (piece : Bytes) =>
    ∀ count, r.Asks count → piece.length ≤ count.toNat) requests pieces
  /-- Where a request gets nothing, nothing is lost or repeated. -/
  whole : ∀ (i : Nat) (r : PreadRequest), requests[i]? = some r → ¬ r.Asks 0 →
    pieces[i]? = some [] → pieces.flatten = content.drop start
  /-- And one does, if they do not stop before. -/
  ends : (∀ r ∈ requests, ¬ r.Asks 0) → content.length - start < requests.length → [] ∈ pieces

theorem Pieces.length_le {content : Bytes} {offset : Nat} {pieces : List Bytes}
    (all : Pieces content offset pieces) :
    pieces.flatten.length ≤ content.length - offset := by
  have whole := congrArg List.length all.flatten
  rw [List.length_take, List.length_drop] at whole
  omega

theorem length_le_flatten {pieces : List Bytes} (some_ : [] ∉ pieces) :
    pieces.length ≤ pieces.flatten.length := by
  induction pieces with
  | nil => exact Nat.le_refl 0
  | cons piece pieces ih =>
    obtain ⟨first, later⟩ := not_or.mp (fun isThere => some_ (List.mem_cons.mpr isThere))
    have positive := List.length_pos_iff.mpr (Ne.symm first)
    have rest := ih later
    rw [List.flatten_cons, List.length_append, List.length_cons]
    omega

theorem PreadRequest.Asks.unique {r : PreadRequest} {count count' : UInt32}
    (asks : r.Asks count) (asks' : r.Asks count') : count = count' :=
  Option.some.inj (Option.some.inj (asks.args.symm.trans asks'.args))

theorem preads_pieces {engine : XfsEngine σ} {content : Bytes} {offset : σ → Nat}
    (file : FileReads engine content offset) {v : Vfile σ} (opened : v.handle = .file)
    {requests : List PreadRequest} (few : FewBytes content requests) :
    ∃ v' responses pieces, preads engine v requests = some (v', responses) ∧
      responses.map hexPairs = pieces.map some ∧ Pieces content (offset v.fs) pieces ∧
      List.Forall₂ (fun (r : PreadRequest) (piece : Bytes) =>
        ∀ count, r.Asks count → piece.length ≤ count.toNat) requests pieces ∧
      ∀ (i : Nat) (r : PreadRequest), requests[i]? = some r → ¬ r.Asks 0 →
        pieces[i]? = some [] → content.length ≤ offset v.fs + pieces.flatten.length := by
  induction requests generalizing v with
  | nil => exact ⟨v, [], [], rfl, rfl, .nil _, .nil, nofun⟩
  | cons r requests ih =>
    obtain ⟨⟨count, asks, fewHere⟩, fewLater⟩ := List.forall_mem_cons.mp few
    obtain ⟨v₁, piece, buf', answer, opened₁, part, bound, moved, ended⟩ :=
      pread_piece file opened asks fewHere
    obtain ⟨v', responses, pieces, answers, decoded, all, bounded, reached⟩ := ih opened₁ fewLater
    refine ⟨v', upperHex piece :: responses, piece :: pieces, ?_, ?_, ?_, ?_, ?_⟩
    · rw [preads, answer]
      simp only [Option.bind_eq_bind, Option.bind_some, answers]
      rfl
    · rw [List.map_cons, List.map_cons, hexPairs_upperHex, decoded]
    · exact .cons part (moved ▸ all)
    · exact .cons (fun count' asks' => asks.unique asks' ▸ bound) bounded
    · intro i r' there some_ nothing
      rw [List.flatten_cons, List.length_append]
      cases i with
      | zero =>
        obtain rfl := Option.some.inj there
        obtain rfl := Option.some.inj nothing
        have nonzero : count ≠ 0 := fun zero => some_ (zero ▸ asks)
        exact Nat.le_trans (ended nonzero rfl) (Nat.le_add_right _ _)
      | succ i =>
        have later := reached i r' there some_ nothing
        omega

/-- The responses are the file's bytes from where it stands on, in order. -/
theorem preads_whole {engine : XfsEngine σ} {content : Bytes} {offset : σ → Nat}
    (file : FileReads engine content offset) {v : Vfile σ} (opened : v.handle = .file)
    {requests : List PreadRequest} (few : FewBytes content requests) :
    ∃ v' responses pieces, preads engine v requests = some (v', responses) ∧
      Reads content (offset v.fs) requests responses pieces := by
  obtain ⟨v', responses, pieces, answers, decoded, all, bounded, reached⟩ :=
    preads_pieces file opened few
  refine ⟨v', responses, pieces, answers, decoded, all, bounded, ?_, ?_⟩
  · intro i r there some_ nothing
    exact all.complete (reached i r there some_ nothing)
  · intro some_ enough
    by_contra none_
    have most := all.length_le
    have least := length_le_flatten none_
    rw [← bounded.length_eq] at least
    omega

/-! ## A file in memory -/

/-- A file system with one file; its state is the offset. -/
def memoryFile (content : Bytes) : XfsEngine Nat where
  call s
    | .read size =>
        (s + ((content.drop s).take size).length,
          { result := ((content.drop s).take size).length, data := (content.drop s).take size })
    | _ => (s, {})
  stored s size := Int.le_refl _
  errors s size := by
    have positive := Int.natCast_nonneg ((content.drop s).take size).length
    dsimp only
    omega

theorem memoryFile_reads (content : Bytes) : FileReads (memoryFile content) content id where
  read s size := by
    refine ⟨((content.drop s).take size).length, rfl, List.length_take_le _ _, ?_, ?_, rfl, ?_⟩
    · show ((content.drop s).take size).length ≤ content.length - s
      rw [List.length_take, List.length_drop]
      exact Nat.min_le_right _ _
    · show ((content.drop s).take size).take ((content.drop s).take size).length =
        (content.drop s).take ((content.drop s).take size).length
      rw [List.take_length, List.length_take]
      rcases Nat.le_total size (content.drop s).length with short | long
      · rw [Nat.min_eq_left short]
      · rw [Nat.min_eq_right long, List.take_length, List.take_of_length_le long]
    · intro some_ nothing
      rw [List.length_take, List.length_drop] at nothing
      show content.length ≤ s
      omega

/-- The arguments `1,2`. -/
def twoBytes : PreadRequest :=
  { args := text "1,2", n := 3, buf := List.replicate responseBufSize 0 }

theorem twoBytes_asks : twoBytes.Asks 2 := ⟨by decide, List.length_replicate⟩

/-- Three bytes are read in three requests for two. -/
theorem preads_threeBytes : ∃ v' responses pieces,
    preads (memoryFile [7, 8, 9]) { fs := 0, handle := .file } [twoBytes, twoBytes, twoBytes] =
      some (v', responses) ∧
      Reads [7, 8, 9] 0 [twoBytes, twoBytes, twoBytes] responses pieces := by
  refine preads_whole (memoryFile_reads [7, 8, 9]) rfl fun r isThere => ⟨2, ?_, .inl (by decide)⟩
  simp only [List.mem_cons, List.not_mem_nil, or_false, or_self] at isThere
  exact isThere ▸ twoBytes_asks

/-- A request from the third byte on gets the first one, and one for 2^15 bytes gets none of
them. -/
theorem pread_elsewhere :
    preadArgs (text "1,1,2") 5 = some (some 1) ∧
      ((handleVfilePread (memoryFile [7, 8, 9]) { fs := 0, handle := .file }
        (List.replicate responseBufSize 0) (text "1,1,2") 5).map fun answered =>
          hexPairs answered.1.2) = some (some [7]) ∧
      preadArgs (text "1,8000") 6 = some (some 0x8000) ∧
      ∀ content : Bytes, content.length = 0x8000 → ∃ v' buf',
        handleVfilePread (memoryFile content) { fs := 0, handle := .file }
          (List.replicate responseBufSize 0) (text "1,8000") 6 =
            some ((v', text "F-1,5"), buf') ∧ v'.fs = 0x8000 := by
  refine ⟨by decide, ?_, by decide, fun content long => ?_⟩
  · have asks : PreadRequest.Asks
        ⟨text "1,1,2", 5, List.replicate responseBufSize 0⟩ 1 :=
      ⟨by decide, List.length_replicate⟩
    obtain ⟨v', piece, buf', answer, -, part, bound, -, some_⟩ :=
      pread_piece (memoryFile_reads [7, 8, 9]) (v := { fs := 0, handle := .file }) rfl asks
        (.inl (by decide))
    dsimp only at answer
    rw [answer, Option.map_some, hexPairs_upperHex]
    have bound' : piece.length ≤ 1 := bound
    have nonempty : piece ≠ [] := by
      intro empty
      exact absurd (some_ (by decide) empty) (by decide)
    have one : piece.length = 1 := by
      have positive := List.length_pos_iff.mpr nonempty
      omega
    rw [one] at part
    rw [part]
    rfl
  · have args : preadArgs (text "1,8000") 6 = some (some 0x8000) := by decide
    have size : min (0x8000 : UInt32).toNat ((responseBufSize - 1) / 2) = 0x8000 := by decide
    have read : Vfile.call (memoryFile content) (.read 0x8000) { fs := 0, handle := .file } =
        ({ fs := 0x8000, handle := .file, events := [.call (.read 0x8000)] },
          { result := 0x8000, data := content }) := by
      have all : (content.drop 0).take 0x8000 = content :=
        List.take_of_length_le (Nat.le_of_eq long)
      unfold Vfile.call memoryFile
      dsimp only
      rw [all, long]
      rfl
    unfold handleVfilePread
    rw [if_neg (by decide), args, Option.bind_some]
    dsimp only
    rw [size, read]
    dsimp only
    rw [if_pos (show toInt16 0x8000 < 0 by decide)]
    exact ⟨{ fs := 0x8000, handle := .file, events := [.call (.read 0x8000)] }, _, rfl, rfl⟩

end FuseX.Gdb
