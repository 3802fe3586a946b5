import TmVault.Wire.Records

namespace TmVault.Crypto

open Wire

/-- What the framer raises: a `ValueError`, a `DecryptError`, the `struct.error` of a number over four
bytes, or whatever the cipher makes of an input it refuses. -/
inductive CryptoError
  | valueError (message : String)
  | decryptError (message : String)
  | structError
  | cipherRefused
  deriving DecidableEq

/-- `AESGCM`: both operations take the key, the nonce, the data and the associated data. `decrypt`
gives nothing on `InvalidTag`. -/
structure Aead where
  encrypt : Bytes → Bytes → Bytes → Bytes → Option Bytes
  decrypt : Bytes → Bytes → Bytes → Bytes → Option Bytes
  length_encrypt : ∀ {key nonce data aad ct}, encrypt key nonce data aad = some ct →
    ct.length = data.length + 16

abbrev NoncePfx := { bs : Bytes // bs.length = 8 }

def magic : Bytes := [0x54, 0x4D, 0x56, 0x31]

def version : UInt8 := 1

def headerLen : Nat := 18

def tagLen : Nat := 16

def maxChunks : Nat := 2 ^ 32

def pack (n : Nat) : Except CryptoError Bytes := if n < 2 ^ 32 then .ok (be32 n) else .error .structError

def isEncrypted (data : Bytes) : Bool :=
  headerLen ≤ data.length && data.take 4 = magic && data.getD 4 0 = version

def header (chunkSize : Nat) (noncePfx : NoncePfx) : Except CryptoError Bytes := do
  let size ← pack chunkSize
  return magic ++ [version, 0] ++ size ++ noncePfx.val

def aad (header : Bytes) (index : Nat) (final : Bool) : Except CryptoError Bytes := do
  let position ← pack index
  return header ++ position ++ [if final then 1 else 0]

def checkKey (key : Bytes) : Except CryptoError Unit :=
  if key.length ≠ 32 then .error (.valueError "key must be 32 bytes (AES-256)") else .ok ()

def checkChunkSize (chunkSize : Int) : Except CryptoError Unit :=
  if chunkSize ≤ 0 then .error (.valueError "chunk_size must be positive") else .ok ()

section

variable (aead : Aead) (key : Bytes)

def sealChunk (noncePfx : NoncePfx) (header : Bytes) (index : Nat) (chunk : Bytes) (final : Bool) :
    Except CryptoError Bytes := do
  let position ← pack index
  let bound ← aad header index final
  match aead.encrypt key (noncePfx.val ++ position) chunk bound with
  | none => .error .cipherRefused
  | some ct =>
    let size ← pack ct.length
    return size ++ ct

def openChunk (noncePfx header : Bytes) (index : Nat) (ct : Bytes) (final : Bool) :
    Except CryptoError Bytes := do
  let position ← pack index
  let bound ← aad header index final
  match aead.decrypt key (noncePfx ++ position) ct bound with
  | none => .error (.decryptError ("authentication failed at chunk " ++ toString index))
  | some plaintext => .ok plaintext

end

section

variable (aead : Aead) (noncePfx : NoncePfx)

def plainChunks (n : Nat) (plaintext : Bytes) : List Bytes :=
  if plaintext = [] then [[]] else Relational.chunks n plaintext

def encrypt (plaintext key : Bytes) (chunkSize : Int) : Except CryptoError Bytes := do
  checkKey key
  checkChunkSize chunkSize
  let head ← header chunkSize.toNat noncePfx
  let chunks := plainChunks chunkSize.toNat plaintext
  if maxChunks ≤ chunks.length then
    .error (.valueError "plaintext too large for the 32-bit chunk counter")
  else
    let last := chunks.length - 1
    chunks.zipIdx.foldlM (fun out entry => do
      let sealed ← sealChunk aead key noncePfx head entry.2 entry.1 (entry.2 = last)
      return out ++ sealed) head

/-- Where `encrypt_stream` stands: `held` is a full chunk that may turn out to be followed by nothing
more than `buf`, and `out` what it has yielded. -/
structure Sealing where
  buf : Bytes := []
  held : Option Bytes := none
  index : Nat := 0
  out : List Bytes

def emitHeld (key head : Bytes) (s : Sealing) : Except CryptoError Sealing :=
  match s.held with
  | none => .ok s
  | some chunk => do
    let sealed ← sealChunk aead key noncePfx head s.index chunk false
    return { s with out := s.out ++ [sealed], index := s.index + 1, held := none }

def drain (key head : Bytes) (n : Nat) : Nat → Sealing → Except CryptoError Sealing
  | 0, s => .ok s
  | fuel + 1, s =>
    if s.buf.length > n then do
      let chunk := s.buf.take n
      let s ← emitHeld aead noncePfx key head { s with buf := s.buf.drop n }
      drain key head n fuel { s with held := some chunk }
    else .ok s

def takePiece (key head : Bytes) (n : Nat) (s : Sealing) (piece : Bytes) :
    Except CryptoError Sealing :=
  let buf := s.buf ++ piece
  drain aead noncePfx key head n buf.length { s with buf }

def encryptStream (pieces : List Bytes) (key : Bytes) (chunkSize : Int) :
    Except CryptoError (List Bytes) := do
  checkKey key
  checkChunkSize chunkSize
  let head ← header chunkSize.toNat noncePfx
  let s ← pieces.foldlM (takePiece aead noncePfx key head chunkSize.toNat) { out := [head] }
  let s ← emitHeld aead noncePfx key head s
  let sealed ← sealChunk aead key noncePfx head s.index s.buf true
  return s.out ++ [sealed]

end

section

variable (aead : Aead)

def spans (frame : Bytes) : Nat → Nat → Except CryptoError (List (Nat × Nat))
  | 0, _ => .ok []
  | fuel + 1, pos =>
    if pos < frame.length then
      if pos + 4 > frame.length then .error (.decryptError "truncated chunk length prefix")
      else
        let ctLen := unpack32 ((frame.drop pos).take 4)
        let start := pos + 4
        if ctLen < tagLen ∨ start + ctLen > frame.length then
          .error (.decryptError "truncated or invalid chunk")
        else do
          let rest ← spans frame fuel (start + ctLen)
          return (start, start + ctLen) :: rest
    else .ok []

def slice (frame : Bytes) (span : Nat × Nat) : Bytes := (frame.take span.2).drop span.1

def decrypt (frame key : Bytes) : Except CryptoError Bytes := do
  checkKey key
  if !isEncrypted frame then .error (.decryptError "not a TMV1 frame")
  else
    let head := frame.take headerLen
    let noncePfx := (head.drop 10).take 8
    let found ← spans frame frame.length headerLen
    if found = [] then .error (.decryptError "no chunks")
    else
      let last := found.length - 1
      found.zipIdx.foldlM (fun out entry => do
        let plaintext ←
          openChunk aead key noncePfx head entry.2 (slice frame entry.1) (entry.2 = last)
        return out ++ plaintext) []

structure Source where
  buf : Bytes := []
  pieces : List Bytes

def Source.pull (n : Nat) (buf : Bytes) : List Bytes → Source
  | [] => ⟨buf, []⟩
  | piece :: pieces => if buf.length < n then pull n (buf ++ piece) pieces else ⟨buf, piece :: pieces⟩

def Source.fill (s : Source) (n : Nat) : Source × Bool :=
  let s := pull n s.buf s.pieces
  (s, n ≤ s.buf.length)

def Source.size (s : Source) : Nat := s.buf.length + s.pieces.flatten.length

def openHeld (key noncePfx head : Bytes) (held : Option (Nat × Bytes)) (out : List Bytes) :
    Except CryptoError (List Bytes) :=
  match held with
  | none => .error (.decryptError "no chunks")
  | some (i, ct) => do
    let plaintext ← openChunk aead key noncePfx head i ct true
    return out ++ [plaintext]

def Source.nextChunk (s : Source) : Except CryptoError (Option (Bytes × Source)) :=
  let (s, more) := s.fill 4
  if !more then .ok none
  else
    let ctLen := unpack32 (s.buf.take 4)
    if ctLen < tagLen then .error (.decryptError "invalid chunk length")
    else
      let (s, whole) := s.fill (4 + ctLen)
      if !whole then .error (.decryptError "truncated chunk")
      else .ok (some ((s.buf.drop 4).take ctLen, ⟨s.buf.drop (4 + ctLen), s.pieces⟩))

/-- The loop of `decrypt_stream`, with the chunk held back and its index; `out` has been yielded. A
round takes at least four bytes, so the bytes left bound the rounds. -/
def openLoop (key noncePfx head : Bytes) :
    Nat → Source → Option (Nat × Bytes) → Nat → List Bytes → Except CryptoError (List Bytes)
  | 0, _, held, _, out => openHeld aead key noncePfx head held out
  | fuel + 1, s, held, index, out => do
    match ← s.nextChunk with
    | none => openHeld aead key noncePfx head held out
    | some (ct, s) =>
      match held with
      | none => openLoop key noncePfx head fuel s (some (index, ct)) (index + 1) out
      | some (i, prior) =>
        let plaintext ← openChunk aead key noncePfx head i prior false
        openLoop key noncePfx head fuel s (some (index, ct)) (index + 1) (out ++ [plaintext])

def decryptStream (pieces : List Bytes) (key : Bytes) : Except CryptoError (List Bytes) := do
  checkKey key
  let (s, whole) := Source.fill { pieces } headerLen
  if !whole then .error (.decryptError "truncated header")
  else
    let head := s.buf.take headerLen
    if head.take 4 ≠ magic || head.getD 4 0 ≠ version then
      .error (.decryptError "not a TMV1 frame")
    else
      let noncePfx := (head.drop 10).take 8
      let s := { s with buf := s.buf.drop headerLen }
      openLoop aead key noncePfx head (s.size + 1) s none 0 []

end

open List hiding head tail

section

variable {aead : Aead} {key noncePfx head : Bytes}

section

variable (aead key noncePfx head)

def openFrom : Nat → List Bytes → Except CryptoError (List Bytes) :=
  numbered (openChunk aead key noncePfx head)

variable {aead key noncePfx head}

@[simp] theorem openFrom_cons :
    openFrom aead key noncePfx head index (ct :: cts) = (do
      let plaintext ← openChunk aead key noncePfx head index ct cts.isEmpty
      let rest ← openFrom aead key noncePfx head (index + 1) cts
      return plaintext :: rest) := rfl

end

section

variable {frame : Bytes}

theorem spans_splits (hpos : pos ≤ frame.length)
    (h : Splits tagLen (frame.drop pos) cts tail) (hfuel : frame.length - pos ≤ fuel) :
    (tail = [] → ∃ found, spans frame fuel pos = .ok found ∧ found.map (slice frame) = cts) ∧
      (tail ≠ [] → ∃ e, spans frame fuel pos = .error e) := by
  induction cts generalizing pos fuel with
  | nil =>
    have all : frame.drop pos = tail := h.eq
    have size : tail.length = frame.length - pos := by rw [← all, length_drop]
    constructor
    · intro none
      rw [none, length_nil] at size
      refine ⟨[], ?_, rfl⟩
      cases fuel with
      | zero => rfl
      | succ fuel => rw [spans, if_neg (by omega)]
    · intro some
      have positive := length_pos_of_ne_nil some
      cases fuel with
      | zero => omega
      | succ fuel =>
        rw [spans, if_pos (by omega)]
        split
        · exact ⟨_, rfl⟩
        · dsimp only
          rw [all, if_pos]
          · exact ⟨_, rfl⟩
          · have bad := splitRecord_eq_none.mp h.stops
            omega
  | cons ct cts ih =>
    have all : frame.drop pos = record ct ++ (records cts ++ tail) := by
      rw [h.eq, records_cons, append_assoc]
    obtain ⟨⟨hlo, hhi⟩, sized⟩ := forall_mem_cons.mp h.sized
    have size : frame.length - pos = 4 + ct.length + (records cts ++ tail).length := by
      rw [← length_drop, all, record, length_append, length_append, length_be32]
    have read : unpack32 ((frame.drop pos).take 4) = ct.length := by
      rw [all, record, append_assoc, take_left' length_be32, unpack32_be32 hhi]
    have next : Splits tagLen (frame.drop (pos + 4 + ct.length)) cts tail := by
      refine ⟨?_, sized, h.stops⟩
      rw [Nat.add_assoc, ← drop_drop, all, drop_left' (by simp [record])]
    have body : slice frame (pos + 4, pos + 4 + ct.length) = ct := by
      rw [slice, drop_take, ← drop_drop, all, record, append_assoc,
        drop_left' length_be32, take_left' (by omega)]
    cases fuel with
    | zero => omega
    | succ fuel =>
      obtain ⟨clean, dirty⟩ := @ih (pos + 4 + ct.length) fuel (by omega) next (by omega)
      rw [spans, if_pos (by omega), if_neg (by omega)]
      simp only [read]
      rw [if_neg (by omega)]
      constructor
      · intro none
        obtain ⟨found, hfound, bodies⟩ := clean none
        refine ⟨(pos + 4, pos + 4 + ct.length) :: found, by rw [hfound]; rfl, ?_⟩
        rw [map_cons, body, bodies]
      · intro some
        obtain ⟨e, he⟩ := dirty some
        exact ⟨e, by rw [he]; rfl⟩

def framePfx (frame : Bytes) : Bytes := ((frame.take headerLen).drop 10).take 8

theorem decrypt_eq (h : Splits tagLen (frame.drop headerLen) cts tail) :
    (decrypt aead frame key).toOption =
      if key.length = 32 ∧ isEncrypted frame ∧ tail = [] ∧ cts ≠ [] then
        (openFrom aead key (framePfx frame) (frame.take headerLen) 0 cts).toOption.map flatten
      else none := by
  unfold decrypt
  by_cases hkey : key.length = 32
  · by_cases hframe : isEncrypted frame
    · have long : headerLen ≤ frame.length := by
        simp only [isEncrypted, Bool.and_eq_true, decide_eq_true_eq] at hframe
        exact hframe.1.1
      obtain ⟨clean, dirty⟩ := spans_splits long h (Nat.sub_le _ _)
      simp only [checkKey, hkey, hframe, ne_eq, not_true_eq_false, if_false, bind, Except.bind,
        Bool.not_true, Bool.false_eq_true, true_and]
      by_cases htail : tail = []
      · obtain ⟨found, hfound, rfl⟩ := clean htail
        simp only [hfound, htail, true_and, map_eq_nil_iff]
        by_cases none : found = []
        · simp [none, Except.toOption]
        · have positive := length_pos_of_ne_nil none
          have loop := foldlM_numbered (g := slice frame)
            (f := openChunk aead key (framePfx frame) (frame.take headerLen)) found 0
            (found.length - 1) [] (by omega)
          rw [if_neg none, if_pos none]
          refine (congrArg Except.toOption loop).trans ?_
          rw [openFrom]
          cases numbered (openChunk aead key (framePfx frame) (frame.take headerLen)) 0
              (found.map (slice frame)) with
          | error e => rfl
          | ok plaintexts => rfl
      · obtain ⟨e, he⟩ := dirty htail
        simp [he, htail, Except.toOption]
    · simp [checkKey, hkey, hframe, bind, Except.bind, Except.toOption]
  · simp [checkKey, hkey, bind, Except.bind, Except.toOption]

end

namespace Source

def all (s : Source) : Bytes := s.buf ++ s.pieces.flatten

theorem all_pull (n : Nat) (buf : Bytes) (pieces : List Bytes) :
    (pull n buf pieces).all = buf ++ pieces.flatten := by
  induction pieces generalizing buf with
  | nil => rfl
  | cons piece pieces ih =>
    rw [pull]
    split
    · rw [ih, append_assoc, flatten_cons]
    · rfl

theorem length_pull {n : Nat} {buf : Bytes} {pieces : List Bytes}
    (h : n ≤ (buf ++ pieces.flatten).length) : n ≤ (pull n buf pieces).buf.length := by
  induction pieces generalizing buf with
  | nil => simpa [pull] using h
  | cons piece pieces ih =>
    rw [pull]
    split
    · exact ih (by rwa [append_assoc, ← flatten_cons])
    · rename_i enough
      exact Nat.le_of_not_lt enough

variable {s : Source}

theorem all_fill : (s.fill n).1.all = s.all := all_pull n s.buf s.pieces

theorem fill_iff : (s.fill n).2 = true ↔ n ≤ s.all.length := by
  constructor
  · intro h
    rw [← @all_fill s n, all, length_append]
    exact Nat.le_add_right_of_le (of_decide_eq_true h)
  · exact fun h => decide_eq_true (length_pull h)

theorem size_eq : s.size = s.all.length := length_append.symm

theorem length_fill (h : n ≤ s.all.length) : n ≤ (s.fill n).1.buf.length := length_pull h

theorem take_fill (h : n ≤ s.all.length) : (s.fill n).1.buf.take n = s.all.take n := by
  rw [← @all_fill s n, all, take_append_of_le_length (length_fill h)]

theorem all_drop (h : n ≤ s.all.length) :
    all ⟨(s.fill n).1.buf.drop n, (s.fill n).1.pieces⟩ = s.all.drop n := by
  rw [← @all_fill s n, all, all, drop_append_of_le_length (length_fill h)]

theorem nextChunk_some (h : splitRecord tagLen s.all = some (ct, rest)) :
    ∃ s', s.nextChunk = .ok (some (ct, s')) ∧ s'.all = rest := by
  obtain ⟨hlo, hhi, all⟩ := splitRecord_eq_some.mp h
  have size : s.all.length = 4 + ct.length + rest.length := by
    rw [all, record, length_append, length_append, length_be32]
  have four : 4 ≤ s.all.length := by omega
  have read : unpack32 ((s.fill 4).1.buf.take 4) = ct.length := by
    rw [take_fill four, all, record, append_assoc, take_left' length_be32, unpack32_be32 hhi]
  have whole : 4 + ct.length ≤ (s.fill 4).1.all.length := by
    rw [all_fill]
    omega
  have body : (((s.fill 4).1.fill (4 + ct.length)).1.buf.drop 4).take ct.length = ct := by
    rw [take_drop, take_fill whole, all_fill, all, record, append_assoc,
      ← append_assoc, take_left' (by simp), drop_left' length_be32]
  refine ⟨_, ?_, (all_drop whole).trans ?_⟩
  · simp only [nextChunk, fill_iff.mpr four, read, fill_iff.mpr whole, Bool.not_true,
      Bool.false_eq_true, if_false, body]
    rw [if_neg (by omega)]
  · rw [all_fill, all, drop_left' (by simp [record])]

theorem nextChunk_none (h : splitRecord tagLen s.all = none) :
    (s.all.length < 4 → s.nextChunk = .ok none) ∧
      (4 ≤ s.all.length → ∃ e, s.nextChunk = .error e) := by
  constructor
  · intro short
    have dry : (s.fill 4).2 = false := by
      rw [← Bool.not_eq_true, fill_iff]
      omega
    simp only [nextChunk, dry, Bool.not_false, if_true]
  · intro four
    have bad := splitRecord_eq_none.mp h
    simp only [nextChunk, fill_iff.mpr four, take_fill four, Bool.not_true, Bool.false_eq_true,
      if_false]
    split
    · exact ⟨_, rfl⟩
    · have dry : ((s.fill 4).1.fill (4 + unpack32 (s.all.take 4))).2 = false := by
        rw [← Bool.not_eq_true, fill_iff, all_fill]
        omega
      simp only [dry, Bool.not_false, if_true]
      exact ⟨_, rfl⟩

end Source

def pending (held : Option (Nat × Bytes)) : List Bytes := held.toList.map Prod.snd

def Behind (held : Option (Nat × Bytes)) (index : Nat) : Prop :=
  ∀ i ct, held = some (i, ct) → index = i + 1

theorem openHeld_eq (behind : Behind held index) :
    (openHeld aead key noncePfx head held out).toOption =
      if pending held ≠ [] then
        (openFrom aead key noncePfx head (index - (pending held).length)
          (pending held)).toOption.map (out ++ ·)
      else none := by
  unfold openHeld
  cases held with
  | none => rfl
  | some entry =>
    obtain ⟨i, ct⟩ := entry
    have position : index - (pending (some (i, ct))).length = i := by
      rw [behind i ct rfl]
      rfl
    rw [position, if_pos (show pending (some (i, ct)) ≠ [] from cons_ne_nil _ _)]
    simp only [pending, Option.toList, map_cons, map_nil, openFrom_cons, isEmpty_nil]
    cases openChunk aead key noncePfx head i ct true with
    | error e => rfl
    | ok plaintext => rfl

theorem openLoop_eq {s : Source} {held : Option (Nat × Bytes)} {index fuel : Nat} {out : List Bytes}
    (h : Splits tagLen s.all cts tail) (behind : Behind held index) (hfuel : s.all.length < fuel) :
    (openLoop aead key noncePfx head fuel s held index out).toOption =
      if tail.length < 4 ∧ pending held ++ cts ≠ [] then
        (openFrom aead key noncePfx head (index - (pending held).length)
          (pending held ++ cts)).toOption.map (out ++ ·)
      else none := by
  induction cts generalizing s held index fuel out with
  | nil =>
    have all : s.all = tail := h.eq
    obtain ⟨clean, cut⟩ := Source.nextChunk_none (all ▸ h.stops)
    cases fuel with
    | zero => omega
    | succ fuel =>
      rw [openLoop, append_nil]
      by_cases short : tail.length < 4
      · rw [clean (all ▸ short)]
        simp only [bind, Except.bind, openHeld_eq behind, short, true_and]
      · obtain ⟨e, he⟩ := cut (all ▸ Nat.le_of_not_lt short)
        rw [he, if_neg fun both => short both.1]
        rfl
  | cons ct cts ih =>
    obtain ⟨⟨hlo, hhi⟩, sized⟩ := forall_mem_cons.mp h.sized
    have all : s.all = record ct ++ (records cts ++ tail) := by
      rw [h.eq, records_cons, append_assoc]
    have first : splitRecord tagLen s.all = some (ct, records cts ++ tail) := by
      rw [all, splitRecord_record hlo hhi]
    obtain ⟨next, hnext, rest⟩ := Source.nextChunk_some first
    have splits : Splits tagLen next.all cts tail := ⟨rest, sized, h.stops⟩
    have shorter : next.all.length < s.all.length := by
      rw [rest, all]
      simp only [record, length_append, length_be32]
      omega
    have held' : Behind (some (index, ct)) (index + 1) := by
      rintro i c ⟨⟩
      rfl
    cases fuel with
    | zero => omega
    | succ fuel =>
      have step := fun out => @ih next (some (index, ct)) (index + 1) fuel out splits held' (by omega)
      rw [openLoop, hnext]
      cases held with
      | none => exact step out
      | some entry =>
        obtain ⟨i, prior⟩ := entry
        obtain rfl : index = i + 1 := behind i prior rfl
        simp only [pending, Option.toList, map_cons, map_nil, singleton_append,
          length_cons, length_nil, Nat.zero_add, Nat.add_sub_cancel, ne_eq,
          cons_ne_nil, not_false_eq_true, and_true, bind, Except.bind] at step ⊢
        rw [openFrom_cons, isEmpty_cons]
        cases openChunk aead key noncePfx head i prior false with
        | error e => simp [bind, Except.bind, Except.toOption]
        | ok plaintext =>
          rw [step]
          simp only [bind, Except.bind]
          cases openFrom aead key noncePfx head (i + 1) (ct :: cts) with
          | error e => rfl
          | ok plaintexts => simp [pure, Except.pure, Except.toOption]

theorem isEncrypted_iff :
    isEncrypted frame ↔ headerLen ≤ frame.length ∧ (frame.take headerLen).take 4 = magic ∧
      (frame.take headerLen).getD 4 0 = version := by
  have first : (frame.take headerLen).take 4 = frame.take 4 := by
    rw [take_take]
    rfl
  have fifth : (frame.take headerLen).getD 4 0 = frame.getD 4 0 := by
    rw [getD_eq_getElem?_getD, getD_eq_getElem?_getD, getElem?_take_of_lt (by decide)]
  simp only [isEncrypted, first, fifth, Bool.and_eq_true, decide_eq_true_eq, and_assoc]

theorem decryptStream_eq {pieces : List Bytes}
    (h : Splits tagLen (pieces.flatten.drop headerLen) cts tail) :
    (decryptStream aead pieces key).toOption =
      if key.length = 32 ∧ isEncrypted pieces.flatten ∧ tail.length < 4 ∧ cts ≠ [] then
        (openFrom aead key (framePfx pieces.flatten) (pieces.flatten.take headerLen) 0 cts).toOption
      else none := by
  have all : Source.all { pieces } = pieces.flatten := rfl
  unfold decryptStream
  by_cases hkey : key.length = 32
  · by_cases long : headerLen ≤ pieces.flatten.length
    · have head := @Source.take_fill { pieces } headerLen long
      rw [all] at head
      simp only [checkKey, hkey, ne_eq, not_true_eq_false, if_false, bind, Except.bind,
        Source.fill_iff.mpr (all ▸ long), Bool.not_true, Bool.false_eq_true, head, true_and]
      by_cases hframe : isEncrypted pieces.flatten
      · obtain ⟨-, hmagic, hversion⟩ := isEncrypted_iff.mp hframe
        have rest := @Source.all_drop { pieces } headerLen long
        rw [all] at rest
        have none : Behind none 0 := fun _ _ h => nomatch h
        have loop := @openLoop_eq aead key (framePfx pieces.flatten)
          (pieces.flatten.take headerLen) cts tail _ Option.none 0 _ [] (rest ▸ h) none
          (Nat.lt_succ_self _)
        rw [← Source.size_eq] at loop
        simp only [hmagic, hversion, hframe, not_true_eq_false, decide_false, Bool.or_self,
          Bool.false_eq_true, if_false, true_and]
        refine loop.trans ?_
        simp [pending]
      · have foreign : ¬ ((pieces.flatten.take headerLen).take 4 = magic ∧
            (pieces.flatten.take headerLen).getD 4 0 = version) :=
          fun same => hframe (isEncrypted_iff.mpr ⟨long, same⟩)
        rw [if_pos, if_neg fun both => hframe both.1]
        · rfl
        · rw [← Bool.decide_or, decide_eq_true_eq]
          exact not_and_or.mp foreign
    · have dry : (Source.fill { pieces } headerLen).2 = false := by
        rw [← Bool.not_eq_true, Source.fill_iff]
        exact long
      have plain : isEncrypted pieces.flatten = false := by
        rw [← Bool.not_eq_true, isEncrypted_iff]
        exact fun h => long h.1
      simp [checkKey, hkey, dry, plain, bind, Except.bind, Except.toOption]
  · simp [checkKey, hkey, bind, Except.bind, Except.toOption]

end

open Relational List

variable {aead : Aead} {key : Bytes} {noncePfx : NoncePfx} {head : Bytes} {n : Nat}

section

variable (aead key noncePfx head)

def sealFrom : Nat → List Bytes → Except CryptoError (List Bytes) :=
  numbered (sealChunk aead key noncePfx head)

variable {aead key noncePfx head}

@[simp] theorem sealFrom_cons {index : Nat} {chunk : Bytes} {chunks : List Bytes} :
    sealFrom aead key noncePfx head index (chunk :: chunks) = (do
      let sealed ← sealChunk aead key noncePfx head index chunk chunks.isEmpty
      let rest ← sealFrom aead key noncePfx head (index + 1) chunks
      return sealed :: rest) := rfl

theorem plainChunks_ne_nil (hn : 0 < n) (bs : Bytes) : plainChunks n bs ≠ [] := by
  rw [plainChunks]
  split
  · exact cons_ne_nil _ _
  · rename_i h
    rw [chunks_of_ne_nil hn h]
    exact cons_ne_nil _ _

theorem plainChunks_short {bs : Bytes} (hn : 0 < n) (h : bs.length ≤ n) : plainChunks n bs = [bs] := by
  rw [plainChunks]
  split
  · rename_i empty
    rw [empty]
  · rename_i nonempty
    rw [chunks_of_ne_nil hn nonempty, take_of_length_le h, drop_eq_nil_of_le h]
    rfl

theorem plainChunks_long {bs : Bytes} (hn : 0 < n) (h : n < bs.length) :
    plainChunks n bs = bs.take n :: plainChunks n (bs.drop n) := by
  have nonempty : bs ≠ [] := ne_nil_of_length_pos (by omega)
  have more : bs.drop n ≠ [] := ne_nil_of_length_pos (by rw [length_drop]; omega)
  rw [plainChunks, if_neg nonempty, plainChunks, if_neg more, chunks_of_ne_nil hn nonempty]

theorem chunkSize_pos {chunkSize : Int} {u : Unit} (h : checkChunkSize chunkSize = .ok u) :
    0 < chunkSize.toNat := by
  unfold checkChunkSize at h
  split at h
  · cases h
  · omega

theorem encrypt_eq {plaintext : Bytes} {chunkSize : Int} :
    encrypt aead noncePfx plaintext key chunkSize = (do
      checkKey key
      checkChunkSize chunkSize
      let head ← header chunkSize.toNat noncePfx
      if maxChunks ≤ (plainChunks chunkSize.toNat plaintext).length then
        .error (.valueError "plaintext too large for the 32-bit chunk counter")
      else
        (sealFrom aead key noncePfx head 0 (plainChunks chunkSize.toNat plaintext)).map
          (head ++ ·.flatten)) := by
  unfold encrypt
  refine bind_congr_ok fun _ _ => bind_congr_ok fun _ hsize => bind_congr_ok fun head _ => ?_
  have nonempty := length_pos_of_ne_nil (plainChunks_ne_nil (chunkSize_pos hsize) plaintext)
  simp only [bind, Except.bind]
  split
  · rfl
  · refine (foldlM_numbered (g := id) _ 0 _ head (by omega)).trans ?_
    rw [map_id]
    rfl

end

section

variable (aead key noncePfx head n)

/-- What `encrypt_stream` will have yielded, from where it stands, if `rest` is all that follows. -/
def outcome (s : Sealing) (rest : Bytes) : Except CryptoError (List Bytes) :=
  (sealFrom aead key noncePfx head s.index (s.held.toList ++ plainChunks n (s.buf ++ rest))).map
    (s.out ++ ·)

variable {aead key noncePfx head n}

theorem emitHeld_ok {s s' : Sealing} (h : emitHeld aead noncePfx key head s = .ok s') :
    s'.buf = s.buf ∧ s'.held = none := by
  unfold emitHeld at h
  split at h
  · rename_i none
    cases h
    exact ⟨rfl, none⟩
  · obtain ⟨sealed, -, h⟩ := of_bind h
    cases h
    exact ⟨rfl, rfl⟩

theorem emitHeld_sealFrom {s : Sealing} {chunks : List Bytes} (h : chunks ≠ []) :
    (sealFrom aead key noncePfx head s.index (s.held.toList ++ chunks)).map (s.out ++ ·) =
      (emitHeld aead noncePfx key head s).bind fun s' =>
        (sealFrom aead key noncePfx head s'.index chunks).map (s'.out ++ ·) := by
  unfold emitHeld
  cases s.held with
  | none => rfl
  | some chunk =>
    simp only [Option.toList, singleton_append, sealFrom_cons, isEmpty_eq_false_iff.mpr h]
    cases sealChunk aead key noncePfx head s.index chunk false with
    | error e => rfl
    | ok sealed =>
      simp only [bind, Except.bind, pure, Except.pure]
      cases sealFrom aead key noncePfx head (s.index + 1) chunks with
      | error e => rfl
      | ok rest => simp [Except.map]

/-- A state between two pieces: the buffer is at most one chunk, and not empty once a chunk was cut
off it. -/
structure Rested (n : Nat) (s : Sealing) : Prop where
  short : s.buf.length ≤ n
  tail : s.held ≠ none → s.buf ≠ []

theorem drain_outcome (hn : 0 < n) (rest : Bytes) (fuel : Nat) :
    ∀ s : Sealing, s.buf.length ≤ fuel →
      outcome aead key noncePfx head n s rest =
        (drain aead noncePfx key head n fuel s).bind (outcome aead key noncePfx head n · rest) := by
  induction fuel with
  | zero => exact fun s _ => rfl
  | succ fuel ih =>
    intro s hfuel
    rw [drain]
    split
    · rename_i long
      -- the chunk leaves the buffer, the held one is yielded, and the chunk takes its place
      have chunks : plainChunks n (s.buf ++ rest) =
          s.buf.take n :: plainChunks n (s.buf.drop n ++ rest) := by
        rw [plainChunks_long hn (by rw [length_append]; omega),
          take_append_of_le_length (Nat.le_of_lt long), drop_append_of_le_length (Nat.le_of_lt long)]
      have first := @emitHeld_sealFrom aead key noncePfx head { s with buf := s.buf.drop n } _
        (cons_ne_nil (s.buf.take n) (plainChunks n (s.buf.drop n ++ rest)))
      rw [outcome, chunks, first]
      cases hs : emitHeld aead noncePfx key head { s with buf := s.buf.drop n } with
      | error e => rfl
      | ok s' =>
        have kept : s'.buf = s.buf.drop n := (emitHeld_ok hs).1
        have next := ih { s' with held := some (s.buf.take n) } (by
          rw [kept, length_drop]
          omega)
        refine Eq.trans ?_ next
        rw [outcome, kept]
        rfl
    · rfl

theorem drain_rested (hn : 0 < n) (fuel : Nat) :
    ∀ s s' : Sealing, s.buf.length ≤ fuel → (s.held ≠ none → s.buf ≠ []) →
      drain aead noncePfx key head n fuel s = .ok s' → Rested n s' := by
  induction fuel with
  | zero =>
    intro s s' hfuel tail h
    cases h
    exact ⟨by omega, tail⟩
  | succ fuel ih =>
    intro s s' hfuel tail h
    rw [drain] at h
    split at h
    · rename_i long
      obtain ⟨next, hnext, h⟩ := of_bind h
      have kept : next.buf = s.buf.drop n := (emitHeld_ok hnext).1
      refine ih _ s' ?_ (fun _ => ?_) h
      · rw [kept, length_drop]
        omega
      · rw [kept]
        exact ne_nil_of_length_pos (by rw [length_drop]; omega)
    · rename_i short
      cases h
      exact ⟨by omega, tail⟩

theorem foldlM_takePiece (hn : 0 < n) (pieces : List Bytes) : ∀ s : Sealing, Rested n s →
      outcome aead key noncePfx head n s pieces.flatten =
        (pieces.foldlM (takePiece aead noncePfx key head n) s).bind
          (outcome aead key noncePfx head n · []) ∧
      ∀ s', pieces.foldlM (takePiece aead noncePfx key head n) s = .ok s' → Rested n s' := by
  induction pieces with
  | nil =>
    intro s rested
    refine ⟨rfl, ?_⟩
    rintro s' ⟨⟩
    exact rested
  | cons piece pieces ih =>
    intro s rested
    have grown : outcome aead key noncePfx head n s (piece :: pieces).flatten =
        outcome aead key noncePfx head n { s with buf := s.buf ++ piece } pieces.flatten := by
      rw [outcome, outcome, flatten_cons, append_assoc]
    have drained := @drain_outcome aead key noncePfx head n hn pieces.flatten
      (s.buf ++ piece).length { s with buf := s.buf ++ piece } (Nat.le_refl _)
    rw [grown, drained, foldlM_cons, takePiece]
    cases hs : drain aead noncePfx key head n (s.buf ++ piece).length
        { s with buf := s.buf ++ piece } with
    | error e => exact ⟨rfl, fun _ h => nomatch h⟩
    | ok next =>
      refine ih next (drain_rested hn _ { s with buf := s.buf ++ piece } next (Nat.le_refl _)
        (fun held => ?_) hs)
      exact append_ne_nil_of_left_ne_nil (rested.tail held) piece

theorem outcome_end {s : Sealing} (hn : 0 < n) (rested : Rested n s) :
    outcome aead key noncePfx head n s [] = (do
      let s ← emitHeld aead noncePfx key head s
      let sealed ← sealChunk aead key noncePfx head s.index s.buf true
      return s.out ++ [sealed]) := by
  have one : plainChunks n (s.buf ++ []) = [s.buf] := by
    rw [append_nil, plainChunks_short hn rested.short]
  rw [outcome, one, emitHeld_sealFrom (cons_ne_nil _ _)]
  refine bind_congr_ok fun s' hs => ?_
  rw [← (emitHeld_ok hs).1]
  simp only [bind, Except.bind, sealFrom_cons, isEmpty_nil]
  cases sealChunk aead key noncePfx head s'.index s'.buf true with
  | error e => rfl
  | ok sealed => rfl

theorem encryptStream_eq {pieces : List Bytes} {chunkSize : Int} :
    encryptStream aead noncePfx pieces key chunkSize = (do
      checkKey key
      checkChunkSize chunkSize
      let head ← header chunkSize.toNat noncePfx
      (sealFrom aead key noncePfx head 0 (plainChunks chunkSize.toNat pieces.flatten)).map
        (head :: ·)) := by
  unfold encryptStream
  refine bind_congr_ok fun _ _ => bind_congr_ok fun _ hsize => bind_congr_ok fun head _ => ?_
  have positive := chunkSize_pos hsize
  obtain ⟨whole, rested⟩ := @foldlM_takePiece aead key noncePfx head _ positive pieces
    { out := [head] } ⟨Nat.zero_le _, fun held => absurd rfl held⟩
  refine Eq.trans ?_ whole.symm
  exact bind_congr_ok fun s hs => (outcome_end positive (rested s hs)).symm

end

variable {pieces : List Bytes} {chunkSize : Int}

theorem sealFrom_ok {chunks : List Bytes} {index : Nat}
    (accepts : ∀ nonce data aad, data.length < 2 ^ 31 → aead.encrypt key nonce data aad ≠ none)
    (short : ∀ chunk ∈ chunks, chunk.length < 2 ^ 31) (few : index + chunks.length ≤ 2 ^ 32) :
    ∃ sealed, sealFrom aead key noncePfx head index chunks = .ok sealed := by
  induction chunks generalizing index with
  | nil => exact ⟨[], rfl⟩
  | cons chunk chunks ih =>
    rw [length_cons] at few
    rw [forall_mem_cons] at short
    obtain ⟨rest, hrest⟩ := @ih (index + 1) short.2 (by omega)
    have packed : pack index = .ok (be32 index) := if_pos (by omega)
    have first : ∃ sealed,
        sealChunk aead key noncePfx head index chunk chunks.isEmpty = .ok sealed := by
      simp only [sealChunk, aad, packed, bind, Except.bind, pure, Except.pure]
      split
      · rename_i refused
        exact absurd refused (accepts _ _ _ short.1)
      · rename_i ct hct
        have size := aead.length_encrypt hct
        rw [pack, if_pos (by omega)]
        exact ⟨_, rfl⟩
    obtain ⟨sealed, hsealed⟩ := first
    exact ⟨sealed :: rest, by rw [sealFrom_cons, hsealed, hrest]; rfl⟩

theorem plainChunks_one {bs : Bytes} (h : bs ≠ []) : plainChunks 1 bs = bs.map ([·]) := by
  have step : ∀ bs : Bytes, Relational.chunks 1 bs = bs.map ([·]) := by
    intro bs
    induction bs with
    | nil => rfl
    | cons b bs ih =>
      rw [chunks_of_ne_nil Nat.one_pos (cons_ne_nil b bs)]
      exact congrArg ([b] :: ·) ih
  rw [plainChunks, if_neg h, step]

def padding : Aead where
  encrypt _ _ data _ := some (data ++ List.replicate 16 0)
  decrypt _ _ ct _ := some (ct.take (ct.length - 16))
  length_encrypt h := by
    cases h
    simp

theorem encryptStream_past_limit {plaintext : Bytes} (h : plaintext.length = 2 ^ 32) :
    encrypt padding ⟨List.replicate 8 0, rfl⟩ plaintext (List.replicate 32 0) 1 =
        .error (.valueError "plaintext too large for the 32-bit chunk counter") ∧
    ∃ frame, encryptStream padding ⟨List.replicate 8 0, rfl⟩ [plaintext] (List.replicate 32 0) 1 =
      .ok frame := by
  have nonempty : plaintext ≠ [] := ne_nil_of_length_pos (by omega)
  have chunks : plainChunks (1 : Int).toNat plaintext = plaintext.map ([·]) :=
    plainChunks_one nonempty
  have count : (plaintext.map fun b => [b]).length = 2 ^ 32 := by rw [length_map, h]
  constructor
  · rw [encrypt_eq, chunks, count]
    rfl
  · obtain ⟨sealed, hsealed⟩ := @sealFrom_ok padding (List.replicate 32 0)
      ⟨List.replicate 8 0, rfl⟩ (magic ++ [version, 0] ++ be32 1 ++ List.replicate 8 0)
      (plaintext.map ([·])) 0 (fun _ _ _ _ => Option.some_ne_none _)
      (fun chunk hchunk => by
        obtain ⟨b, -, rfl⟩ := mem_map.mp hchunk
        change 1 < 2 ^ 31
        decide) (by omega)
    rw [encryptStream_eq, flatten_singleton, chunks]
    exact ⟨_, congrArg (Except.map _) hsealed⟩

end TmVault.Crypto
