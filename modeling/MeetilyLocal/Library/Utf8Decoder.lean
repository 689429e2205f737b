import MeetilyLocal.Library.TextPositions

/-!
# Decoding UTF-8 as it arrives

The UTF-8 decoder of the Encoding Standard: it takes bytes one at a time, keeps what it has of a
character that is not complete, and writes U+FFFD for what is not UTF-8. `Utf8.decodeLossy` is what
it has written after some bytes and `Utf8.waits` tells whether it still waits for the rest of a
character then. `Utf8.fromUtf8Lossy` decodes bytes after which nothing comes; doing so piece by
piece is the same where no piece but the last ends within a character (`flatten_fromUtf8Lossy`).
-/

namespace MeetilyLocal

namespace Utf8

/-- What the decoder keeps of a character. -/
structure DecoderState : Type where
  /-- the bits that it has seen -/
  codePoint : ℕ
  /-- how many bytes are missing -/
  remaining : ℕ
  /-- the least value that the next byte may have -/
  lower : ℕ
  /-- the greatest value that it may have -/
  upper : ℕ
  deriving DecidableEq

/-- U+FFFD, in place of bytes that are not UTF-8 -/
def replacement : Char := Char.ofNat 0xFFFD

namespace DecoderState

/-- Between two characters. -/
def ready : DecoderState := ⟨0, 0, 0x80, 0xBF⟩

/-- The first byte of a character. -/
def begin (byte : ℕ) : DecoderState × List Char :=
  if byte ≤ 0x7F then (ready, [Char.ofNat byte])
  else if 0xC2 ≤ byte ∧ byte ≤ 0xDF then (⟨byte % 32, 1, 0x80, 0xBF⟩, [])
  else if 0xE0 ≤ byte ∧ byte ≤ 0xEF then
    (⟨byte % 16, 2, if byte = 0xE0 then 0xA0 else 0x80, if byte = 0xED then 0x9F else 0xBF⟩, [])
  else if 0xF0 ≤ byte ∧ byte ≤ 0xF4 then
    (⟨byte % 8, 3, if byte = 0xF0 then 0x90 else 0x80, if byte = 0xF4 then 0x8F else 0xBF⟩, [])
  else (ready, [replacement])

/-- The next byte: a byte that cannot go on with the character begins a new one. -/
def feed (state : DecoderState) (byte : ℕ) : DecoderState × List Char :=
  if state.remaining = 0 then begin byte
  else if state.lower ≤ byte ∧ byte ≤ state.upper then
    let codePoint := state.codePoint * 64 + byte % 64
    if state.remaining = 1 then (ready, [Char.ofNat codePoint])
    else (⟨codePoint, state.remaining - 1, 0x80, 0xBF⟩, [])
  else ((begin byte).1, replacement :: (begin byte).2)

/-- Some bytes. -/
def run (state : DecoderState) : List UInt8 → DecoderState × List Char
  | [] => (state, [])
  | byte :: bytes =>
    let fed := state.feed byte.toNat
    let rest := fed.1.run bytes
    (rest.1, fed.2 ++ rest.2)

theorem run_append (state : DecoderState) (bytes bytes' : List UInt8) :
    state.run (bytes ++ bytes') =
      (((state.run bytes).1.run bytes').1,
        (state.run bytes).2 ++ ((state.run bytes).1.run bytes').2) := by
  induction bytes generalizing state with
  | nil => rfl
  | cons byte bytes ih => simp [run, ih]

/-- After a byte nothing is missing only between two characters. -/
theorem feed_eq_ready {state : DecoderState} {byte : ℕ} (h : (state.feed byte).1.remaining = 0) :
    (state.feed byte).1 = ready := by
  have hbegin : (begin byte).1.remaining = 0 → (begin byte).1 = ready := by
    unfold begin
    split_ifs <;> simp
  unfold feed at h ⊢
  split_ifs at h ⊢ with hnone hmore hone
  · exact hbegin h
  · rfl
  · -- more than one byte was missing
    have hleft : state.remaining - 1 = 0 := h
    lia
  · exact hbegin h

/-- So it is after some bytes. -/
theorem run_eq_ready {bytes : List UInt8} (h : (ready.run bytes).1.remaining = 0) :
    (ready.run bytes).1 = ready := by
  rcases List.eq_nil_or_concat bytes with rfl | ⟨before, byte, rfl⟩
  · rfl
  · rw [List.concat_eq_append, run_append] at h ⊢
    exact feed_eq_ready h

end DecoderState

/-- What the decoder has written after some bytes. -/
def decodeLossy (bytes : List UInt8) : List Char := (DecoderState.ready.run bytes).2

/-- After these bytes the decoder waits for the rest of a character. -/
def waits (bytes : List UInt8) : Bool := (DecoderState.ready.run bytes).1.remaining != 0

/-- More bytes only add to what was written. -/
theorem decodeLossy_prefix (bytes bytes' : List UInt8) :
    decodeLossy bytes <+: decodeLossy (bytes ++ bytes') := by
  rw [decodeLossy, decodeLossy, DecoderState.run_append]
  exact List.prefix_append _ _

/-- `String::from_utf8_lossy`: a character that the bytes leave incomplete becomes U+FFFD. -/
def fromUtf8Lossy (bytes : List UInt8) : List Char :=
  decodeLossy bytes ++ if waits bytes then [replacement] else []

/-- Where the first bytes end with a character, the others may be decoded on their own. -/
theorem fromUtf8Lossy_append {bytes : List UInt8} (h : waits bytes = false) (bytes' : List UInt8) :
    fromUtf8Lossy (bytes ++ bytes') = fromUtf8Lossy bytes ++ fromUtf8Lossy bytes' := by
  have hready : (DecoderState.ready.run bytes).1 = DecoderState.ready :=
    DecoderState.run_eq_ready (by simpa [waits] using h)
  have hnone : DecoderState.ready.remaining = 0 := rfl
  simp [fromUtf8Lossy, decodeLossy, waits, DecoderState.run_append, hready, hnone]

/-- **Decoding in pieces.** Where no piece but the last ends within a character, decoding each
piece on its own gives the text of all bytes. -/
theorem flatten_fromUtf8Lossy {pieces : List (List UInt8)}
    (h : ∀ piece ∈ pieces.dropLast, waits piece = false) :
    (pieces.map fromUtf8Lossy).flatten = fromUtf8Lossy pieces.flatten := by
  induction pieces with
  | nil => rfl
  | cons piece pieces ih =>
    cases pieces with
    | nil => simp
    | cons piece' pieces =>
      rw [List.dropLast_cons_cons] at h
      rw [List.map_cons, List.flatten_cons, ih fun p hp => h p (List.mem_cons_of_mem _ hp),
        List.flatten_cons (l := piece), fromUtf8Lossy_append (h piece List.mem_cons_self)]

example : decodeLossy [0x68, 0xC3, 0xA9, 0xE2, 0x82] = ['h', 'é'] := by decide

example : waits [0x68, 0xC3, 0xA9, 0xE2, 0x82] = true := by decide

end Utf8

end MeetilyLocal
