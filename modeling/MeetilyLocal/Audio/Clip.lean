import MeetilyLocal.Library.Cuts

/-!
# Reading a clip

The embedding of `parse_wav_pcm16` (`audio/clip.rs`), which walks over the chunks of a WAV file for its
format and its samples. Reading a byte that is not there is a panic (`none`).

The walk does not read outside of the bytes, whatever they are (`exists_scan`), and it follows the layout of
a file chunk by chunk, with the byte that pads an odd one (`scan_encode`). So each file that has a format of
16-bit samples and one chunk of data, in any order and among any others, is read as what was written
(`parseWavPcm16_spec`).
-/

namespace MeetilyLocal

namespace Clip

open Cuts

/-! ## Little-endian numbers -/

/-- `u16::from_le_bytes` -/
def u16OfLe (a b : UInt8) : UInt16 := UInt16.ofNat (a.toNat + 256 * b.toNat)

/-- `u32::from_le_bytes` -/
def u32OfLe (a b c d : UInt8) : UInt32 :=
  UInt32.ofNat (a.toNat + 256 * b.toNat + 65536 * c.toNat + 16777216 * d.toNat)

/-- `u16::to_le_bytes` -/
def u16ToLe (x : UInt16) : List UInt8 := [x.toUInt8, (x >>> 8).toUInt8]

/-- `u32::to_le_bytes` -/
def u32ToLe (x : UInt32) : List UInt8 :=
  [x.toUInt8, (x >>> 8).toUInt8, (x >>> 16).toUInt8, (x >>> 24).toUInt8]

theorem u16OfLe_toLe (x : UInt16) : u16OfLe x.toUInt8 (x >>> 8).toUInt8 = x := by
  have hlt := x.toNat_lt
  apply UInt16.toNat_inj.mp
  simp only [u16OfLe, UInt16.toNat_ofNat', UInt16.toNat_toUInt8, UInt16.toNat_shiftRight]
  simp only [Nat.shiftRight_eq_div_pow, UInt16.toNat_ofNat, Nat.reduceMod, Nat.reducePow]
  omega

theorem u32OfLe_toLe (x : UInt32) :
    u32OfLe x.toUInt8 (x >>> 8).toUInt8 (x >>> 16).toUInt8 (x >>> 24).toUInt8 = x := by
  have hlt := x.toNat_lt
  apply UInt32.toNat_inj.mp
  simp only [u32OfLe, UInt32.toNat_ofNat', UInt32.toNat_toUInt8, UInt32.toNat_shiftRight]
  simp only [Nat.shiftRight_eq_div_pow, UInt32.toNat_ofNat, Nat.reduceMod, Nat.reducePow]
  omega

/-! ## The code -/

/-- `b"RIFF"` -/
def riffId : List UInt8 := [0x52, 0x49, 0x46, 0x46]

/-- `b"WAVE"` -/
def waveId : List UInt8 := [0x57, 0x41, 0x56, 0x45]

/-- `b"fmt "` -/
def fmtId : List UInt8 := [0x66, 0x6d, 0x74, 0x20]

/-- `b"data"` -/
def dataId : List UInt8 := [0x64, 0x61, 0x74, 0x61]

/-- The number of two bytes from an index on. -/
def u16At? (bytes : List UInt8) (i : ℕ) : Option UInt16 := do
  let a ← bytes[i]?
  let b ← bytes[i + 1]?
  some (u16OfLe a b)

/-- The number of four bytes from an index on. -/
def u32At? (bytes : List UInt8) (i : ℕ) : Option UInt32 := do
  let a ← bytes[i]?
  let b ← bytes[i + 1]?
  let c ← bytes[i + 2]?
  let d ← bytes[i + 3]?
  some (u32OfLe a b c d)

/-- What the walk has found. -/
structure Found : Type where
  /-- format tag, channels and sample rate -/
  fmt : Option (UInt16 × UInt16 × UInt32)
  /-- the size of a sample -/
  bitsPerSample : UInt16
  /-- the bytes of the samples -/
  data : Option (List UInt8)

/-- The arms for the chunks. -/
def readChunk (bytes id : List UInt8) (bodyStart bodyEnd : ℕ) (found : Found) : Option Found :=
  if id = fmtId ∧ 16 ≤ bodyEnd - bodyStart then do
    let b ← slice? bytes bodyStart bodyEnd
    let formatTag ← u16At? b 0
    let channels ← u16At? b 2
    let sampleRate ← u32At? b 4
    let bitsPerSample ← u16At? b 14
    some { found with fmt := some (formatTag, channels, sampleRate), bitsPerSample := bitsPerSample }
  else if id = dataId then do
    let data ← slice? bytes bodyStart bodyEnd
    some { found with data := some data }
  else some found

/-- The walk over the chunks, from a position on. -/
def scan (bytes : List UInt8) (pos : ℕ) (found : Found) : Option Found :=
  if pos + 8 ≤ bytes.length then
    match slice? bytes pos (pos + 4), u32At? bytes (pos + 4) with
    | some id, some size =>
      match readChunk bytes id (pos + 8) (min (pos + 8 + size.toNat) bytes.length) found with
      | some found => scan bytes (pos + 8 + size.toNat + size.toNat % 2) found
      | none => none
    | _, _ => none
  else some found
termination_by bytes.length - pos

/-- `chunks_exact(2)`, as samples -/
def samplesOf : List UInt8 → List Int16
  | a :: b :: rest => (u16OfLe a b).toInt16 :: samplesOf rest
  | _ => []

/-- Minimal reader for the PCM WAV clips we generate. -/
def parseWavPcm16 (bytes : List UInt8) : Option (Except String (List Int16 × UInt32 × UInt16)) :=
  if bytes.length < 12 ∨ slice? bytes 0 4 ≠ some riffId ∨ slice? bytes 8 12 ≠ some waveId then
    some (.error "Clip is not a WAV file.")
  else
    match scan bytes 12 ⟨none, 16, none⟩ with
    | none => none
    | some ⟨none, _, _⟩ => some (.error "WAV is missing its fmt chunk.")
    | some ⟨some _, _, none⟩ => some (.error "WAV is missing its data chunk.")
    | some ⟨some (formatTag, channels, sampleRate), bitsPerSample, some data⟩ =>
      if formatTag ≠ 1 ∨ bitsPerSample ≠ 16 then
        some (.error ("Unsupported clip format (tag=" ++ toString formatTag.toNat ++ ", bits=" ++
          toString bitsPerSample.toNat ++ ")."))
      else some (.ok (samplesOf data, sampleRate, channels))

/-! ## Any bytes -/

theorem exists_u16At? (bytes : List UInt8) (i : ℕ) (h : i + 2 ≤ bytes.length) :
    ∃ x, u16At? bytes i = some x := by
  simp only [u16At?, List.getElem?_eq_getElem (show i < bytes.length by omega),
    List.getElem?_eq_getElem (show i + 1 < bytes.length by omega)]
  exact ⟨_, rfl⟩

theorem exists_u32At? (bytes : List UInt8) (i : ℕ) (h : i + 4 ≤ bytes.length) :
    ∃ x, u32At? bytes i = some x := by
  simp only [u32At?, List.getElem?_eq_getElem (show i < bytes.length by omega),
    List.getElem?_eq_getElem (show i + 1 < bytes.length by omega),
    List.getElem?_eq_getElem (show i + 2 < bytes.length by omega),
    List.getElem?_eq_getElem (show i + 3 < bytes.length by omega)]
  exact ⟨_, rfl⟩

theorem exists_readChunk {bytes : List UInt8} {lo hi : ℕ} (hle : lo ≤ hi) (hin : hi ≤ bytes.length)
    (id : List UInt8) (found : Found) : ∃ found', readChunk bytes id lo hi found = some found' := by
  rw [readChunk, slice?_eq_some hle hin]
  split_ifs with hfmt hdata
  · have hlength : (slice bytes (lo, hi)).length = hi - lo := length_slice hin
    obtain ⟨tag, htag⟩ := exists_u16At? (slice bytes (lo, hi)) 0 (by omega)
    obtain ⟨channels, hchannels⟩ := exists_u16At? (slice bytes (lo, hi)) 2 (by omega)
    obtain ⟨rate, hrate⟩ := exists_u32At? (slice bytes (lo, hi)) 4 (by omega)
    obtain ⟨bits, hbits⟩ := exists_u16At? (slice bytes (lo, hi)) 14 (by omega)
    simp only [Option.bind_eq_bind, Option.bind_some, htag, hchannels, hrate, hbits]
    exact ⟨_, rfl⟩
  · exact ⟨_, rfl⟩
  · exact ⟨_, rfl⟩

/-- **The walk** does not read outside of the bytes. -/
theorem exists_scan (bytes : List UInt8) (pos : ℕ) (found : Found) :
    ∃ found', scan bytes pos found = some found' := by
  fun_induction scan bytes pos found with
  | case1 pos found hin id size hid hsize found' hread ih => exact ih
  | case2 pos found hin id size hid hsize hread =>
    obtain ⟨found', hfound⟩ := exists_readChunk
      (le_min (Nat.le_add_right (pos + 8) size.toNat) hin) (min_le_right _ _) id found
    rw [hfound] at hread
    cases hread
  | case3 pos found hin hnone =>
    obtain ⟨size, hsize⟩ := exists_u32At? bytes (pos + 4) (by omega)
    exact absurd hsize (hnone _ _ (slice?_eq_some (by omega) (by omega)))
  | case4 pos found hout => exact ⟨found, rfl⟩

/-! ## Files -/

/-- A chunk of a file. -/
structure Chunk : Type where
  /-- its four characters -/
  id : List UInt8
  /-- what it holds -/
  body : List UInt8
  /-- the byte that pads an odd one -/
  pad : UInt8
  /-- there are four of them -/
  length_id : id.length = 4
  /-- its size is a number of 32 bits -/
  length_body : body.length < 2 ^ 32

/-- A chunk in a file: its size, what it holds, and a byte more if that is odd. -/
def Chunk.encode (chunk : Chunk) : List UInt8 :=
  chunk.id ++ (u32ToLe (UInt32.ofNat chunk.body.length) ++
    (chunk.body ++ List.replicate (chunk.body.length % 2) chunk.pad))

/-- What a `fmt ` chunk of 16-bit samples holds. -/
def fmtBody (channels : UInt16) (sampleRate byteRate : UInt32) (blockAlign : UInt16)
    (extension : List UInt8) : List UInt8 :=
  u16ToLe 1 ++ (u16ToLe channels ++ (u32ToLe sampleRate ++ (u32ToLe byteRate ++
    (u16ToLe blockAlign ++ (u16ToLe 16 ++ extension)))))

/-- A WAV file of 16-bit samples, with any other chunks. -/
structure WavFile : Type where
  /-- the size of all that follows -/
  riffSize : UInt32
  chunks : List Chunk
  channels : UInt16
  sampleRate : UInt32
  byteRate : UInt32
  blockAlign : UInt16
  /-- what a longer `fmt ` chunk holds more -/
  extension : List UInt8
  samples : List Int16
  /-- there is one `fmt ` chunk -/
  fmt : ∃ chunk, chunks.filter (·.id = fmtId) = [chunk] ∧
    chunk.body = fmtBody channels sampleRate byteRate blockAlign extension
  /-- there is one `data` chunk -/
  data : ∃ chunk, chunks.filter (·.id = dataId) = [chunk] ∧
    chunk.body = samples.flatMap fun sample => u16ToLe sample.toUInt16

/-- One with the format at the end, and a chunk of odd size in front of it. -/
example : WavFile where
  riffSize := 58
  chunks := [⟨dataId, [1, 0, 255, 255], 0, rfl, by decide⟩,
    ⟨[0x4c, 0x49, 0x53, 0x54], [7], 0, rfl, by decide⟩,
    ⟨fmtId, fmtBody 1 16000 32000 2 [], 0, rfl, by decide⟩]
  channels := 1
  sampleRate := 16000
  byteRate := 32000
  blockAlign := 2
  extension := []
  samples := [1, -1]
  fmt := ⟨⟨fmtId, fmtBody 1 16000 32000 2 [], 0, rfl, by decide⟩, rfl, rfl⟩
  data := ⟨⟨dataId, [1, 0, 255, 255], 0, rfl, by decide⟩, rfl, rfl⟩

/-- The bytes of a file. -/
def WavFile.encode (file : WavFile) : List UInt8 :=
  riffId ++ (u32ToLe file.riffSize ++ (waveId ++ file.chunks.flatMap Chunk.encode))

theorem samplesOf_flatMap (samples : List Int16) :
    samplesOf (samples.flatMap fun sample => u16ToLe sample.toUInt16) = samples := by
  induction samples with
  | nil => rfl
  | cons sample samples ih =>
    rw [List.flatMap_cons, u16ToLe, List.cons_append, List.cons_append, List.nil_append, samplesOf,
      u16OfLe_toLe, ih, Int16.toInt16_toUInt16]

/-! ## A chunk of a file -/

/-- What is in the middle of some bytes. -/
theorem slice?_middle (front : List UInt8) {middle back : List UInt8} {n : ℕ} (h : middle.length = n) :
    slice? (front ++ (middle ++ back)) front.length (front.length + n) = some middle := by
  rw [slice?_eq_some (Nat.le_add_right _ _) (by simp; omega), slice]
  simp [← h]

theorem u32At?_middle (front : List UInt8) (x : UInt32) (back : List UInt8) :
    u32At? (front ++ (u32ToLe x ++ back)) front.length = some x := by
  simp [u32At?, u32ToLe, u32OfLe_toLe]

/-- What the walk has found behind a chunk. -/
def Found.add (found : Found) (chunk : Chunk) : Option Found :=
  readChunk chunk.body chunk.id 0 chunk.body.length found

theorem slice?_all (bytes : List UInt8) : slice? bytes 0 bytes.length = some bytes := by
  rw [slice?_eq_some (Nat.zero_le _) le_rfl, slice]
  simp

theorem readChunk_middle (front : List UInt8) (chunk : Chunk) (back : List UInt8) (found : Found) :
    readChunk (front ++ (chunk.body ++ back)) chunk.id front.length
      (front.length + chunk.body.length) found = found.add chunk := by
  rw [Found.add, readChunk, readChunk, slice?_middle front rfl, slice?_all, Nat.add_sub_cancel_left,
    Nat.sub_zero]

theorem Chunk.length_encode (chunk : Chunk) :
    chunk.encode.length = 8 + chunk.body.length + chunk.body.length % 2 := by
  simp only [Chunk.encode, u32ToLe, List.length_append, chunk.length_id, List.length_cons,
    List.length_nil, List.length_replicate]
  omega

/-- **The walk** goes over a chunk to the next one. -/
theorem scan_encode (front : List UInt8) (chunk : Chunk) (back : List UInt8) (found found' : Found)
    (h : found.add chunk = some found') :
    scan (front ++ (chunk.encode ++ back)) front.length found =
      scan (front ++ (chunk.encode ++ back)) (front ++ chunk.encode).length found' := by
  have hsize : (UInt32.ofNat chunk.body.length).toNat = chunk.body.length :=
    UInt32.toNat_ofNat_of_lt' chunk.length_body
  have hlength := chunk.length_encode
  have hin : front.length + 8 + chunk.body.length ≤ (front ++ (chunk.encode ++ back)).length := by
    simp only [List.length_append]
    omega
  -- the four characters, the size and what it holds, each in the middle of the bytes
  have hid : slice? (front ++ (chunk.encode ++ back)) front.length (front.length + 4) =
      some chunk.id := by
    rw [Chunk.encode, List.append_assoc]
    exact slice?_middle front chunk.length_id
  have hnumber : u32At? (front ++ (chunk.encode ++ back)) (front.length + 4) =
      some (UInt32.ofNat chunk.body.length) := by
    have hmiddle := u32At?_middle (front ++ chunk.id) (UInt32.ofNat chunk.body.length)
      (chunk.body ++ List.replicate (chunk.body.length % 2) chunk.pad ++ back)
    rw [List.length_append, chunk.length_id] at hmiddle
    simpa only [Chunk.encode, List.append_assoc] using hmiddle
  have hread : readChunk (front ++ (chunk.encode ++ back)) chunk.id (front.length + 8)
      (front.length + 8 + chunk.body.length) found = some found' := by
    have hmiddle := readChunk_middle
      (front ++ (chunk.id ++ u32ToLe (UInt32.ofNat chunk.body.length))) chunk
      (List.replicate (chunk.body.length % 2) chunk.pad ++ back) found
    have hfront : (front ++ (chunk.id ++ u32ToLe (UInt32.ofNat chunk.body.length))).length =
        front.length + 8 := by
      simp [u32ToLe, chunk.length_id]
    rw [hfront, h] at hmiddle
    simpa only [Chunk.encode, List.append_assoc] using hmiddle
  rw [scan, if_pos (by omega), hid, hnumber]
  simp only [hsize]
  rw [Nat.min_eq_left hin, hread]
  have hnext : front.length + 8 + chunk.body.length + chunk.body.length % 2 =
      (front ++ chunk.encode).length := by
    rw [List.length_append, hlength]
    omega
  rw [hnext]

/-- The walk over chunks. -/
theorem scan_flatMap (front : List UInt8) (chunks : List Chunk) (found found' : Found)
    (h : chunks.foldlM Found.add found = some found') :
    scan (front ++ chunks.flatMap Chunk.encode) front.length found = some found' := by
  induction chunks generalizing front found with
  | nil =>
    obtain rfl := Option.some.inj h
    rw [scan, if_neg (by simp)]
  | cons chunk chunks ih =>
    rw [List.foldlM_cons] at h
    obtain ⟨next, hnext, hrest⟩ := Option.bind_eq_some_iff.mp h
    rw [List.flatMap_cons, scan_encode front chunk _ found next hnext]
    have hchunks := ih (front ++ chunk.encode) next hrest
    rwa [List.append_assoc] at hchunks

/-! ## The chunks of a file -/

/-- A chunk other than those two is passed over. -/
theorem Found.add_other (found : Found) {chunk : Chunk} (hfmt : chunk.id ≠ fmtId)
    (hdata : chunk.id ≠ dataId) : found.add chunk = some found := by
  rw [Found.add, readChunk, if_neg (fun h => hfmt h.1), if_neg hdata]

theorem Found.add_data (found : Found) {chunk : Chunk} (h : chunk.id = dataId) :
    found.add chunk = some { found with data := some chunk.body } := by
  have hne : ¬(chunk.id = fmtId ∧ 16 ≤ chunk.body.length - 0) := by
    rw [h]
    exact fun hfmt => absurd hfmt.1 (by decide)
  rw [Found.add, readChunk, if_neg hne, if_pos h, slice?_all]
  rfl

theorem Found.add_fmt (found : Found) {chunk : Chunk} {channels blockAlign : UInt16}
    {sampleRate byteRate : UInt32} {extension : List UInt8} (h : chunk.id = fmtId)
    (hbody : chunk.body = fmtBody channels sampleRate byteRate blockAlign extension) :
    found.add chunk =
      some { found with fmt := some (1, channels, sampleRate), bitsPerSample := 16 } := by
  have hlong : 16 ≤ chunk.body.length - 0 := by
    simp [hbody, fmtBody, u16ToLe, u32ToLe]
  rw [Found.add, readChunk, if_pos ⟨h, hlong⟩, slice?_all, hbody]
  have h1 : u16OfLe (1 : UInt16).toUInt8 ((1 : UInt16) >>> 8).toUInt8 = 1 := u16OfLe_toLe 1
  have h16 : u16OfLe (16 : UInt16).toUInt8 ((16 : UInt16) >>> 8).toUInt8 = 16 := u16OfLe_toLe 16
  simp only [fmtBody, u16ToLe, u32ToLe, u16At?, u32At?, List.cons_append, List.nil_append,
    List.getElem?_cons_zero, List.getElem?_cons_succ, Option.bind_eq_bind, Option.bind_some, h1, h16,
    u16OfLe_toLe, u32OfLe_toLe]

/-- What chunks with one kind of format leave behind. -/
theorem foldlM_add {chunks : List Chunk} {channels blockAlign : UInt16}
    {sampleRate byteRate : UInt32} {extension : List UInt8}
    (hfmt : ∀ chunk ∈ chunks, chunk.id = fmtId →
      chunk.body = fmtBody channels sampleRate byteRate blockAlign extension) (found : Found) :
    chunks.foldlM Found.add found = some
      { fmt := if chunks.filter (·.id = fmtId) = [] then found.fmt
          else some (1, channels, sampleRate)
        bitsPerSample := if chunks.filter (·.id = fmtId) = [] then found.bitsPerSample else 16
        data := (chunks.filter (·.id = dataId)).foldl (fun _ chunk => some chunk.body) found.data } := by
  induction chunks generalizing found with
  | nil => rfl
  | cons chunk chunks ih =>
    obtain ⟨hchunk, hchunks⟩ := List.forall_mem_cons.mp hfmt
    rw [List.foldlM_cons]
    by_cases hid : chunk.id = fmtId
    · have hne : chunk.id ≠ dataId := by
        rw [hid]
        decide
      rw [found.add_fmt hid (hchunk hid), Option.bind_eq_bind, Option.bind_some, ih hchunks,
        List.filter_cons_of_pos (by simpa using hid), List.filter_cons_of_neg (by simpa using hne)]
      simp
    by_cases hdata : chunk.id = dataId
    · rw [found.add_data hdata, Option.bind_eq_bind, Option.bind_some, ih hchunks,
        List.filter_cons_of_neg (by simpa using hid), List.filter_cons_of_pos (by simpa using hdata),
        List.foldl_cons]
    · rw [found.add_other hid hdata, Option.bind_eq_bind, Option.bind_some, ih hchunks,
        List.filter_cons_of_neg (by simpa using hid), List.filter_cons_of_neg (by simpa using hdata)]

theorem WavFile.scan_eq (file : WavFile) : scan file.encode 12 ⟨none, 16, none⟩ =
    some ⟨some (1, file.channels, file.sampleRate), 16,
      some (file.samples.flatMap fun sample => u16ToLe sample.toUInt16)⟩ := by
  obtain ⟨fmtChunk, hfmt, hbody⟩ := file.fmt
  obtain ⟨dataChunk, hdata, hsamples⟩ := file.data
  have hall : ∀ chunk ∈ file.chunks, chunk.id = fmtId →
      chunk.body = fmtBody file.channels file.sampleRate file.byteRate file.blockAlign
        file.extension := by
    intro chunk hchunk hid
    have hmem : chunk ∈ file.chunks.filter (·.id = fmtId) :=
      List.mem_filter.mpr ⟨hchunk, decide_eq_true hid⟩
    rw [hfmt] at hmem
    rw [List.mem_singleton.mp hmem, hbody]
  have hfold := foldlM_add hall ⟨none, 16, none⟩
  rw [hfmt, hdata, List.foldl_cons, List.foldl_nil, hsamples, if_neg (List.cons_ne_nil _ _),
    if_neg (List.cons_ne_nil _ _)] at hfold
  have hscan := scan_flatMap (riffId ++ (u32ToLe file.riffSize ++ waveId)) file.chunks _ _ hfold
  have hlength : (riffId ++ (u32ToLe file.riffSize ++ waveId)).length = 12 := rfl
  rw [hlength] at hscan
  simpa only [WavFile.encode, List.append_assoc] using hscan

/-- **A clip is read**: no bytes are read that are not there, and the samples and the format of a file are
those that it holds. -/
theorem parseWavPcm16_spec :
    (∀ bytes, ∃ result, parseWavPcm16 bytes = some result) ∧
    ∀ file : WavFile,
      parseWavPcm16 file.encode = some (.ok (file.samples, file.sampleRate, file.channels)) := by
  refine ⟨fun bytes => ?_, fun file => ?_⟩
  · obtain ⟨found, hscan⟩ := exists_scan bytes 12 ⟨none, 16, none⟩
    rw [parseWavPcm16, hscan]
    split
    · exact ⟨_, rfl⟩
    · split
      · next h => cases h
      · exact ⟨_, rfl⟩
      · exact ⟨_, rfl⟩
      · split
        · exact ⟨_, rfl⟩
        · exact ⟨_, rfl⟩
  · have hriff : slice? file.encode 0 4 = some riffId :=
      slice?_middle [] (rfl : riffId.length = 4)
    have hwave : slice? file.encode 8 12 = some waveId :=
      slice?_middle (riffId ++ u32ToLe file.riffSize) (rfl : waveId.length = 4)
    have hlong : ¬file.encode.length < 12 := by
      simp [WavFile.encode, riffId, waveId, u32ToLe]
    rw [parseWavPcm16, if_neg (by simp [hriff, hwave, hlong]), file.scan_eq]
    simp [samplesOf_flatMap]

end Clip

end MeetilyLocal
