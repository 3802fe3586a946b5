import Mathlib.Algebra.Ring.Int.Defs
import TmVault.Crypto.Framer

namespace TmVault.Crypto

open Wire Relational
open List hiding head tail

variable {aead : Aead} {key : Bytes} {pieces : List Bytes} {frame tail : Bytes}

theorem splitRecord_short (h : tail.length < 4) : splitRecord lo tail = none :=
  splitRecord_eq_none.mpr (.inl h)

theorem decrypt_some (h : (decrypt aead frame key).toOption = some plaintext) :
    ∃ cts, Splits tagLen (frame.drop headerLen) cts [] ∧ key.length = 32 ∧ isEncrypted frame ∧
      cts ≠ [] ∧ (openFrom aead key (framePfx frame) (frame.take headerLen) 0 cts).toOption.map
        List.flatten = some plaintext := by
  obtain ⟨cts, tail, splits⟩ := exists_splits tagLen (frame.drop headerLen)
  rw [decrypt_eq splits] at h
  split at h
  · rename_i good
    obtain ⟨hkey, hframe, rfl, nonempty⟩ := good
    exact ⟨cts, splits, hkey, hframe, nonempty, h⟩
  · cases h

theorem headerLen_le (h : isEncrypted frame) : headerLen ≤ frame.length := (isEncrypted_iff.mp h).1

section

variable (h : headerLen ≤ frame.length)

include h

theorem take_header_append :
    (frame ++ tail).take headerLen = frame.take headerLen := take_append_of_le_length h

theorem framePfx_append : framePfx (frame ++ tail) = framePfx frame := by
  rw [framePfx, framePfx, take_header_append h]

theorem isEncrypted_append : isEncrypted (frame ++ tail) = isEncrypted frame := by
  rw [Bool.eq_iff_iff, isEncrypted_iff, isEncrypted_iff, take_header_append h, length_append]
  constructor
  · exact fun both => ⟨h, both.2⟩
  · exact fun both => ⟨by omega, both.2⟩

end

theorem tail_outcomes (joined : pieces.flatten = frame ++ tail)
    (short : tail.length < 4) (h : (decrypt aead frame key).toOption = some plaintext) :
    (decryptStream aead pieces key).toOption.map List.flatten = some plaintext ∧
      (tail ≠ [] → (decrypt aead pieces.flatten key).toOption = none) := by
  obtain ⟨cts, splits, hkey, hframe, nonempty, opened⟩ := decrypt_some h
  have long := headerLen_le hframe
  have whole : Splits tagLen (pieces.flatten.drop headerLen) cts tail := by
    refine ⟨?_, splits.sized, splitRecord_short short⟩
    rw [joined, drop_append_of_le_length long, splits.eq, append_nil]
  have same : isEncrypted pieces.flatten := by rw [joined, isEncrypted_append long, hframe]
  constructor
  · rw [decryptStream_eq whole, if_pos ⟨hkey, same, short, nonempty⟩, joined, framePfx_append long,
      take_header_append long]
    exact opened
  · intro extra
    rw [decrypt_eq whole, if_neg fun good => extra good.2.2.1]

theorem decrypt_records (hkey : key.length = 32) (hframe : isEncrypted frame) (nonempty : cts ≠ [])
    (splits : Splits tagLen (frame.drop headerLen) cts tail)
    (opened : (openFrom aead key (framePfx frame) (frame.take headerLen) 0 cts).toOption =
      some plaintexts) : frame = (frame.take headerLen ++ records cts) ++ tail ∧
      decrypt aead (frame.take headerLen ++ records cts) key = .ok plaintexts.flatten := by
  have joined : frame = (frame.take headerLen ++ records cts) ++ tail := by
    rw [append_assoc, ← splits.eq, take_append_drop]
  refine ⟨joined, ?_⟩
  have size : (frame.take headerLen).length = headerLen :=
    length_take_of_le (headerLen_le hframe)
  have long : headerLen ≤ (frame.take headerLen ++ records cts).length := by
    rw [length_append, size]
    exact Nat.le_add_right _ _
  have whole : Splits tagLen ((frame.take headerLen ++ records cts).drop headerLen) cts [] := by
    refine ⟨?_, splits.sized, splitRecord_short (by decide)⟩
    rw [drop_left' size, append_nil]
  generalize hclean : frame.take headerLen ++ records cts = clean at joined long whole ⊢
  subst joined
  rw [isEncrypted_append long] at hframe
  rw [framePfx_append long, take_header_append long] at opened
  rw [← Relational.toOption_eq_some, decrypt_eq whole, if_pos ⟨hkey, hframe, rfl, nonempty⟩, opened]
  rfl

/-- The streaming and the buffered decryptor agree exactly when the input is not a frame that decrypts
with one to three bytes behind it. -/
theorem decryptStream_agrees_iff (aead : Aead) (pieces : List Bytes) (key : Bytes) :
    (decryptStream aead pieces key).toOption.map List.flatten =
        (decrypt aead pieces.flatten key).toOption ↔
      ¬ ∃ frame tail plaintext, pieces.flatten = frame ++ tail ∧ 0 < tail.length ∧ tail.length < 4 ∧
        decrypt aead frame key = .ok plaintext := by
  constructor
  · rintro agree ⟨frame, tail, plaintext, joined, positive, short, opened⟩
    obtain ⟨stream, buffer⟩ :=
      tail_outcomes joined short (congrArg Except.toOption opened)
    rw [stream, buffer (ne_nil_of_length_pos positive)] at agree
    cases agree
  · intro clean
    obtain ⟨cts, tail, splits⟩ := exists_splits tagLen (pieces.flatten.drop headerLen)
    rw [decryptStream_eq splits, decrypt_eq splits]
    by_cases good : key.length = 32 ∧ isEncrypted pieces.flatten ∧ tail.length < 4 ∧ cts ≠ []
    · obtain ⟨hkey, hframe, short, nonempty⟩ := good
      rw [if_pos ⟨hkey, hframe, short, nonempty⟩]
      by_cases none : tail = []
      · rw [if_pos ⟨hkey, hframe, none, nonempty⟩]
      · rw [if_neg fun whole => none whole.2.2.1, Option.map_eq_none_iff]
        refine Option.eq_none_iff_forall_ne_some.mpr fun plaintexts opened => clean ?_
        -- the records alone are a frame that decrypts
        obtain ⟨joined, decrypted⟩ := decrypt_records hkey hframe nonempty splits opened
        exact ⟨_, tail, _, joined, length_pos_of_ne_nil none, short, decrypted⟩
    · rw [if_neg good, if_neg]
      · rfl
      · rintro ⟨hkey, hframe, rfl, nonempty⟩
        exact good ⟨hkey, hframe, by decide, nonempty⟩

/-- A byte behind a frame: the buffer is refused, the stream is not. -/
theorem decryptStream_ignores_byte :
    let frame := magic ++ [version, 0] ++ be32 4 ++ List.replicate 8 0 ++
      record (List.replicate 18 7) ++ [0]
    decrypt padding frame (List.replicate 32 0) =
        .error (.decryptError "truncated chunk length prefix") ∧
      decryptStream padding [frame] (List.replicate 32 0) = .ok [[7, 7]] := by
  decide +kernel

variable {noncePfx : NoncePfx} {plaintext : Bytes} {n : Nat}

structure SealCall where
  (nonce plaintext aad : Bytes)

def Ideal (aead : Aead) (key : Bytes) (calls : List SealCall) : Prop :=
  ∀ nonce ct aad plaintext, aead.decrypt key nonce ct aad = some plaintext ↔
    ⟨nonce, plaintext, aad⟩ ∈ calls ∧ aead.encrypt key nonce plaintext aad = some ct

def frameHead (n : Nat) (noncePfx : NoncePfx) : Bytes :=
  magic ++ [version, 0] ++ be32 n ++ noncePfx.val

def frameAad (head : Bytes) (index : Nat) (final : Bool) : Bytes :=
  head ++ be32 index ++ [if final then 1 else 0]

def frameCalls (n : Nat) (noncePfx : NoncePfx) (plaintext : Bytes) : List SealCall :=
  let chunks := plainChunks n plaintext
  chunks.zipIdx.map fun entry =>
    ⟨noncePfx.val ++ be32 entry.2, entry.1,
      frameAad (frameHead n noncePfx) entry.2 (entry.2 + 1 = chunks.length)⟩

theorem mem_frameCalls : call ∈ frameCalls n noncePfx plaintext ↔
    ∃ i chunk, (plainChunks n plaintext)[i]? = some chunk ∧
      call = ⟨noncePfx.val ++ be32 i, chunk,
        frameAad (frameHead n noncePfx) i (i + 1 = (plainChunks n plaintext).length)⟩ := by
  simp only [frameCalls, mem_map, Prod.exists, mem_zipIdx_iff_getElem?]
  constructor
  · rintro ⟨chunk, i, h, rfl⟩
    exact ⟨i, chunk, h, rfl⟩
  · rintro ⟨i, chunk, h, rfl⟩
    exact ⟨chunk, i, h, rfl⟩

section

variable {head ct : Bytes} {index : Nat} {final : Bool}

theorem pack_ok : pack m = .ok bs ↔ m < 2 ^ 32 ∧ bs = be32 m := by
  rw [pack]
  split
  case isTrue h =>
    rw [Except.ok.injEq]
    exact ⟨fun same => ⟨h, same.symm⟩, fun packed => packed.2.symm⟩
  case isFalse h =>
    constructor
    · intro failed
      cases failed
    · rintro ⟨small, -⟩
      exact absurd small h

theorem openChunk_ok : openChunk aead key pfx head index ct final = .ok plaintext ↔
    index < 2 ^ 32 ∧ aead.decrypt key (pfx ++ be32 index) ct (frameAad head index final) =
      some plaintext := by
  simp only [openChunk, aad, bind_eq_ok, pack_ok]
  constructor
  · rintro ⟨_, ⟨small, rfl⟩, bound, ⟨_, ⟨-, rfl⟩, ⟨⟩⟩, h⟩
    refine ⟨small, ?_⟩
    split at h
    · cases h
    · rename_i opened
      cases h
      exact opened
  · rintro ⟨small, opened⟩
    refine ⟨_, ⟨small, rfl⟩, _, ⟨_, ⟨small, rfl⟩, rfl⟩, ?_⟩
    rw [frameAad] at opened
    rw [opened]

theorem sealChunk_ok : sealChunk aead key noncePfx head index chunk final = .ok sealed ↔
    index < 2 ^ 32 ∧ ∃ ct, aead.encrypt key (noncePfx.val ++ be32 index) chunk
      (frameAad head index final) = some ct ∧ ct.length < 2 ^ 32 ∧ sealed = record ct := by
  simp only [sealChunk, aad, bind_eq_ok, pack_ok]
  constructor
  · rintro ⟨_, ⟨small, rfl⟩, bound, ⟨_, ⟨-, rfl⟩, ⟨⟩⟩, h⟩
    refine ⟨small, ?_⟩
    split at h
    · cases h
    · rename_i ct hct
      obtain ⟨_, packed, ⟨⟩⟩ := of_bind h
      obtain ⟨short, rfl⟩ := pack_ok.mp packed
      exact ⟨ct, hct, short, rfl⟩
  · rintro ⟨small, ct, hct, short, rfl⟩
    refine ⟨_, ⟨small, rfl⟩, _, ⟨_, ⟨small, rfl⟩, rfl⟩, ?_⟩
    rw [frameAad] at hct
    rw [hct]
    exact bind_eq_ok.mpr ⟨_, pack_ok.mpr ⟨short, rfl⟩, rfl⟩

end

section

structure SealedAs (aead : Aead) (key : Bytes) (n : Nat) (noncePfx : NoncePfx) (plaintext : Bytes)
    (cts : List Bytes) : Prop where
  length : cts.length = (plainChunks n plaintext).length
  few : cts.length < 2 ^ 32
  chunk : ∀ k chunk ct, (plainChunks n plaintext)[k]? = some chunk → cts[k]? = some ct →
    aead.encrypt key (noncePfx.val ++ be32 k) chunk
      (frameAad (frameHead n noncePfx) k (k + 1 = (plainChunks n plaintext).length)) = some ct ∧
    ct.length < 2 ^ 32

theorem sealFrom_records (few : (plainChunks n plaintext).length < 2 ^ 32)
    (h : sealFrom aead key noncePfx (frameHead n noncePfx) 0 (plainChunks n plaintext) = .ok sealed) :
    ∃ cts, SealedAs aead key n noncePfx plaintext cts ∧ sealed.flatten = records cts := by
  obtain ⟨size, all⟩ := numbered_eq_ok.mp h
  have each : ∀ k chunk bs, (plainChunks n plaintext)[k]? = some chunk → sealed[k]? = some bs →
      ∃ ct, aead.encrypt key (noncePfx.val ++ be32 k) chunk
        (frameAad (frameHead n noncePfx) k (k + 1 = (plainChunks n plaintext).length)) = some ct ∧
        ct.length < 2 ^ 32 ∧ bs = record ct := by
    intro k chunk bs hchunk hbs
    have step := all k chunk bs hchunk hbs
    rw [Nat.zero_add] at step
    exact (sealChunk_ok.mp step).2
  -- a record without its length is its body
  have body (ct : Bytes) : (record ct).drop 4 = ct := drop_left' length_be32
  refine ⟨sealed.map (·.drop 4), ⟨by rw [length_map, size], by rw [length_map, size]; exact few,
    ?_⟩, ?_⟩
  · intro k chunk ct hchunk hct
    rw [getElem?_map, Option.map_eq_some_iff] at hct
    obtain ⟨bs, hbs, rfl⟩ := hct
    obtain ⟨ct, hct, short, rfl⟩ := each k chunk bs hchunk hbs
    rw [body]
    exact ⟨hct, short⟩
  · rw [records, map_map]
    congr 1
    refine (map_id sealed).symm.trans (map_congr_left fun bs hbs => ?_)
    obtain ⟨k, hk⟩ := mem_iff_getElem?.mp hbs
    obtain ⟨hlt, -⟩ := List.getElem?_eq_some_iff.mp hk
    have there : k < (plainChunks n plaintext).length := size ▸ hlt
    obtain ⟨ct, -, -, rfl⟩ := each k _ bs (getElem?_eq_getElem there) hk
    rw [Function.comp_apply, body]
    rfl

theorem plainChunks_flatten (hn : 0 < n) : (plainChunks n plaintext).flatten = plaintext := by
  rw [plainChunks]
  split
  · rename_i empty
    rw [empty]
    rfl
  · exact chunks_flatten hn plaintext

theorem encrypt_ok (h : encrypt aead noncePfx plaintext key chunkSize = .ok frame) :
    key.length = 32 ∧ 0 < chunkSize.toNat ∧ chunkSize.toNat < 2 ^ 32 ∧
      ∃ cts, SealedAs aead key chunkSize.toNat noncePfx plaintext cts ∧
        frame = frameHead chunkSize.toNat noncePfx ++ records cts := by
  rw [encrypt_eq] at h
  obtain ⟨_, hkey, _, hsize, head, hhead, h⟩ := of_bind₃ h
  obtain ⟨bs, packed, ⟨⟩⟩ := of_bind hhead
  obtain ⟨small, rfl⟩ := pack_ok.mp packed
  split at h
  · cases h
  · rename_i few
    have key32 : key.length = 32 := by
      by_contra wrong
      rw [checkKey, if_pos wrong] at hkey
      cases hkey
    refine ⟨key32, chunkSize_pos hsize, small, ?_⟩
    cases hsealed : sealFrom aead key noncePfx (frameHead chunkSize.toNat noncePfx) 0
        (plainChunks chunkSize.toNat plaintext) with
    | error e =>
      rw [frameHead] at hsealed
      rw [hsealed] at h
      cases h
    | ok sealed =>
      obtain ⟨cts, sealedAs, same⟩ := sealFrom_records (Nat.lt_of_not_le few) hsealed
      rw [frameHead] at hsealed
      rw [hsealed] at h
      cases h
      exact ⟨cts, sealedAs, by rw [← same]; rfl⟩

variable {cts : List Bytes}

@[simp] theorem length_frameHead : (frameHead n noncePfx).length = headerLen := by
  simp [frameHead, magic, headerLen, noncePfx.2]

theorem take_frame : (frameHead n noncePfx ++ records cts).take headerLen = frameHead n noncePfx :=
  take_left' length_frameHead

theorem drop_frame : (frameHead n noncePfx ++ records cts).drop headerLen = records cts :=
  drop_left' length_frameHead

theorem framePfx_frame : framePfx (frameHead n noncePfx ++ records cts) = noncePfx.val := by
  rw [framePfx, take_frame, frameHead, drop_left' (by simp [magic])]
  exact take_of_length_le (Nat.le_of_eq noncePfx.2)

theorem isEncrypted_frame : isEncrypted (frameHead n noncePfx ++ records cts) := by
  rw [isEncrypted_iff, take_frame, length_append, length_frameHead]
  exact ⟨Nat.le_add_right _ _, rfl, rfl⟩

theorem SealedAs.splits (h : SealedAs aead key n noncePfx plaintext cts) :
    Splits tagLen (records cts) cts [] := by
  refine ⟨(append_nil _).symm, fun ct hct => ?_, splitRecord_short (by decide)⟩
  obtain ⟨k, hk⟩ := mem_iff_getElem?.mp hct
  obtain ⟨hlt, -⟩ := List.getElem?_eq_some_iff.mp hk
  obtain ⟨encrypted, short⟩ := h.chunk k _ ct (getElem?_eq_getElem (h.length ▸ hlt)) hk
  rw [aead.length_encrypt encrypted] at short ⊢
  exact ⟨Nat.le_add_left _ _, short⟩

theorem decrypt_frame (hkey : key.length = 32) (hn : 0 < n)
    (h : SealedAs aead key n noncePfx plaintext cts)
    (ideal : Ideal aead key (frameCalls n noncePfx plaintext)) :
    decrypt aead (frameHead n noncePfx ++ records cts) key = .ok plaintext := by
  have opened : openFrom aead key noncePfx.val (frameHead n noncePfx) 0 cts =
      .ok (plainChunks n plaintext) := by
    refine numbered_eq_ok.mpr ⟨h.length.symm, fun k ct chunk hct hchunk => ?_⟩
    obtain ⟨hlt, -⟩ := List.getElem?_eq_some_iff.mp hct
    obtain ⟨encrypted, -⟩ := h.chunk k chunk ct hchunk hct
    have few := h.few
    rw [Nat.zero_add, h.length, openChunk_ok, ideal]
    exact ⟨by omega, mem_frameCalls.mpr ⟨k, chunk, hchunk, rfl⟩, encrypted⟩
  have nonempty : cts ≠ [] := by
    rw [← length_pos_iff_ne_nil, h.length, length_pos_iff_ne_nil]
    exact plainChunks_ne_nil hn plaintext
  have splits : Splits tagLen ((frameHead n noncePfx ++ records cts).drop headerLen) cts [] := by
    rw [drop_frame]
    exact h.splits
  rw [← toOption_eq_some, decrypt_eq splits, if_pos ⟨hkey, isEncrypted_frame, rfl, nonempty⟩,
    framePfx_frame, take_frame, opened]
  exact congrArg some (plainChunks_flatten hn)

theorem frameAad_injective (size : head.length = head'.length) (hi : i < 2 ^ 32) (hj : j < 2 ^ 32)
    (h : frameAad head i f = frameAad head' j f') : head = head' ∧ i = j ∧ f = f' := by
  rw [frameAad, frameAad, append_assoc, append_assoc] at h
  obtain ⟨heads, h⟩ := append_inj h size
  obtain ⟨positions, flags⟩ := append_inj h rfl
  refine ⟨heads, be32_injective hi hj positions, ?_⟩
  cases f <;> cases f' <;> simp_all

theorem eq_frame_of_decrypt (h : SealedAs aead key n noncePfx plaintext cts)
    (ideal : Ideal aead key (frameCalls n noncePfx plaintext))
    (decrypted : decrypt aead other key = .ok message) :
    other = frameHead n noncePfx ++ records cts := by
  obtain ⟨cts', splits, -, hother, nonempty, opened⟩ :=
    decrypt_some (congrArg Except.toOption decrypted)
  obtain ⟨plaintexts, hopened, -⟩ := Option.map_eq_some_iff.mp opened
  obtain ⟨size, each⟩ := numbered_eq_ok.mp (toOption_eq_some.mp hopened)
  have long := headerLen_le hother
  have headLength : (other.take headerLen).length = headerLen := length_take_of_le long
  -- each chunk that opens was sealed at its own position, as final or not as it is now
  have chunk (k : Nat) (ct : Bytes) (hct : cts'[k]? = some ct) :
      other.take headerLen = frameHead n noncePfx ∧ cts[k]? = some ct ∧
        (k + 1 = cts'.length ↔ k + 1 = cts.length) := by
    obtain ⟨hlt, -⟩ := List.getElem?_eq_some_iff.mp hct
    have there := getElem?_eq_getElem (size ▸ hlt : k < plaintexts.length)
    have step := each k ct _ hct there
    rw [Nat.zero_add, openChunk_ok, ideal] at step
    obtain ⟨small, call, encrypted⟩ := step
    obtain ⟨i, chunk, hchunk, same⟩ := mem_frameCalls.mp call
    obtain ⟨hi, -⟩ := List.getElem?_eq_some_iff.mp hchunk
    rw [← h.length] at hi
    have few := h.few
    rw [SealCall.mk.injEq] at same
    obtain ⟨nonce, plain, aad⟩ := same
    obtain ⟨head, rfl, final⟩ := frameAad_injective (headLength.trans length_frameHead.symm) small
      (by omega) aad
    have sealed := getElem?_eq_getElem hi
    obtain ⟨original, -⟩ := h.chunk k chunk _ hchunk sealed
    rw [nonce, plain, aad] at encrypted
    rw [decide_eq_decide, ← h.length] at final
    refine ⟨head, ?_, final⟩
    rw [sealed, ← original, encrypted]
  have last : cts'.length = cts.length := by
    have positive := length_pos_of_ne_nil nonempty
    have there := getElem?_eq_getElem (Nat.sub_lt positive Nat.one_pos)
    have same := (chunk _ _ there).2.2
    omega
  have ctsEq : cts' = cts := by
    refine ext_getElem? fun k => ?_
    by_cases hk : k < cts'.length
    · have there := getElem?_eq_getElem hk
      rw [there, (chunk k _ there).2.1]
    · rw [getElem?_eq_none (Nat.le_of_not_lt hk), getElem?_eq_none (by omega)]
  have head : other.take headerLen = frameHead n noncePfx := by
    have there := getElem?_eq_getElem (length_pos_of_ne_nil nonempty)
    exact (chunk 0 _ there).1
  rw [← head, ← ctsEq, ← append_nil (records cts'), ← splits.eq, take_append_drop]

theorem length_of_mem_chunks (hn : 0 < n) :
    ∀ {plaintext : Bytes}, chunk ∈ chunks n plaintext → chunk.length ≤ n := by
  intro plaintext
  induction hm : plaintext.length using Nat.strongRecOn generalizing plaintext with
  | ind m ih =>
    intro h
    by_cases empty : plaintext = []
    · rw [empty] at h
      cases h
    · rw [chunks_of_ne_nil hn empty] at h
      have positive := length_pos_of_ne_nil empty
      rcases mem_cons.mp h with rfl | h
      · exact length_take_le _ _
      · exact ih _ (by rw [length_drop]; omega) rfl h

theorem encrypt_produces
    (accepts : ∀ nonce data aad, data.length < 2 ^ 31 → aead.encrypt key nonce data aad ≠ none)
    (hkey : key.length = 32) (positive : 0 < chunkSize) (short : chunkSize < 2 ^ 31)
    (few : (plainChunks chunkSize.toNat plaintext).length < 2 ^ 32) :
    ∃ frame, encrypt aead noncePfx plaintext key chunkSize = .ok frame := by
  have small : ∀ chunk ∈ plainChunks chunkSize.toNat plaintext, chunk.length < 2 ^ 31 := by
    intro chunk h
    rw [plainChunks] at h
    split at h
    · cases mem_singleton.mp h
      decide
    · have bound := length_of_mem_chunks (by omega) h
      omega
  obtain ⟨sealed, hsealed⟩ := @sealFrom_ok aead key noncePfx (frameHead chunkSize.toNat noncePfx) _ 0
    accepts small (by omega)
  have head : header chunkSize.toNat noncePfx = .ok (frameHead chunkSize.toNat noncePfx) := by
    rw [header, pack, if_pos (by omega)]
    rfl
  rw [encrypt_eq, checkKey, if_neg (by simp [hkey]), checkChunkSize, if_neg (by omega), head]
  simp only [bind, Except.bind]
  rw [if_neg (show ¬ maxChunks ≤ _ from Nat.not_le.mpr few), hsealed]
  exact ⟨_, rfl⟩

end

/-- The frame of a plaintext decrypts to it, and under an ideal cipher nothing else decrypts. -/
theorem frame_integrity (aead : Aead) (noncePfx : NoncePfx) (plaintext key : Bytes)
    (chunkSize : Int) :
    ((∀ nonce data aad, data.length < 2 ^ 31 → aead.encrypt key nonce data aad ≠ none) →
      key.length = 32 → 0 < chunkSize → chunkSize < 2 ^ 31 →
      (plainChunks chunkSize.toNat plaintext).length < 2 ^ 32 →
      ∃ frame, encrypt aead noncePfx plaintext key chunkSize = .ok frame) ∧
    ∀ frame, encrypt aead noncePfx plaintext key chunkSize = .ok frame →
      Ideal aead key (frameCalls chunkSize.toNat noncePfx plaintext) →
      decrypt aead frame key = .ok plaintext ∧
        ∀ other, other ≠ frame → ∃ e, decrypt aead other key = .error e := by
  refine ⟨encrypt_produces, fun frame produced ideal => ?_⟩
  obtain ⟨hkey, positive, -, cts, sealedAs, rfl⟩ := encrypt_ok produced
  refine ⟨decrypt_frame hkey positive sealedAs ideal, fun other different => ?_⟩
  cases decrypted : decrypt aead other key with
  | error e => exact ⟨e, rfl⟩
  | ok message => exact absurd (eq_frame_of_decrypt sealedAs ideal decrypted) different

def table (calls : List SealCall) : Aead where
  encrypt _ _ data _ := some (data ++ List.replicate 16 0)
  decrypt _ nonce ct aad := (calls.find? fun call =>
    call.nonce = nonce && call.aad = aad && call.plaintext ++ List.replicate 16 0 = ct).map
      (·.plaintext)
  length_encrypt := @padding.length_encrypt

theorem ideal_table (calls : List SealCall) : Ideal (table calls) key calls := by
  intro nonce ct aad plaintext
  simp only [table, Option.map_eq_some_iff, Option.some_inj]
  constructor
  · rintro ⟨call, found, rfl⟩
    have mem := mem_of_find?_eq_some found
    have same := find?_some found
    simp only [Bool.and_eq_true, decide_eq_true_eq] at same
    obtain ⟨⟨rfl, rfl⟩, rfl⟩ := same
    exact ⟨mem, rfl⟩
  · rintro ⟨mem, rfl⟩
    cases found : calls.find? fun call => call.nonce = nonce && call.aad = aad &&
        call.plaintext ++ List.replicate 16 0 = plaintext ++ List.replicate 16 0 with
    | none => simpa using find?_eq_none.mp found _ mem
    | some call =>
      have same := find?_some found
      simp only [Bool.and_eq_true, decide_eq_true_eq] at same
      exact ⟨call, rfl, append_cancel_right same.2⟩

def sampleCalls : List SealCall := frameCalls 2 ⟨List.replicate 8 9, rfl⟩ [1, 2, 3, 4]

/-- The two chunks of this frame, swapped, do not decrypt; in order they do. -/
theorem table_frame_integrity :
    let frame := frameHead 2 ⟨List.replicate 8 9, rfl⟩ ++
      records [[1, 2] ++ List.replicate 16 0, [3, 4] ++ List.replicate 16 0]
    decrypt (table sampleCalls) frame (List.replicate 32 0) = .ok [1, 2, 3, 4] ∧
    ∃ e, decrypt (table sampleCalls) (frameHead 2 ⟨List.replicate 8 9, rfl⟩ ++
      records [[3, 4] ++ List.replicate 16 0, [1, 2] ++ List.replicate 16 0])
      (List.replicate 32 0) = .error e := by
  intro frame
  have produced : encrypt (table sampleCalls) ⟨List.replicate 8 9, rfl⟩ [1, 2, 3, 4]
      (List.replicate 32 0) 2 = .ok frame := by decide +kernel
  obtain ⟨opened, rejected⟩ := (frame_integrity (table sampleCalls) ⟨List.replicate 8 9, rfl⟩
    [1, 2, 3, 4] (List.replicate 32 0) 2).2 frame produced (ideal_table _)
  exact ⟨opened, rejected _ (by decide +kernel)⟩

/-- Whatever the plaintext and the frame are cut into, the streams pass the plaintext, and under an ideal
cipher nothing else is opened, but for up to three bytes behind the frame. -/
theorem decryptStream_encryptStream
    (produced : encryptStream aead noncePfx pieces key chunkSize = .ok sealed)
    (few : (plainChunks chunkSize.toNat pieces.flatten).length < maxChunks)
    (ideal : Ideal aead key (frameCalls chunkSize.toNat noncePfx pieces.flatten)) (cut : List Bytes) :
    (decryptStream aead cut key).toOption.map flatten = some message ↔
      message = pieces.flatten ∧ ∃ tail, tail.length < 4 ∧ cut.flatten = sealed.flatten ++ tail := by
  have framed : encrypt aead noncePfx pieces.flatten key chunkSize = .ok sealed.flatten := by
    rw [encryptStream_eq] at produced
    obtain ⟨_, hkey, _, hsize, head, hhead, h⟩ := of_bind₃ produced
    rw [encrypt_eq, hkey, hsize, hhead]
    simp only [bind, Except.bind]
    rw [if_neg (Nat.not_le.mpr few)]
    generalize sealFrom aead key noncePfx head 0 _ = chunks at h ⊢
    cases chunks <;> cases h
    rfl
  obtain ⟨hkey, positive, -, cts, sealedAs, frame⟩ := encrypt_ok framed
  have opens := decrypt_frame hkey positive sealedAs ideal
  rw [← frame] at opens
  constructor
  · intro read
    obtain ⟨opened, h, rfl⟩ := Option.map_eq_some_iff.mp read
    obtain ⟨cts', tail, splits⟩ := exists_splits tagLen (cut.flatten.drop headerLen)
    rw [decryptStream_eq splits] at h
    split at h
    case isTrue good =>
      obtain ⟨joined, decrypted⟩ := decrypt_records hkey good.2.1 good.2.2.2 splits h
      rw [eq_frame_of_decrypt sealedAs ideal decrypted, ← frame] at joined decrypted
      exact ⟨Except.ok.inj (decrypted.symm.trans opens), tail, good.2.2.1, joined⟩
    case isFalse => cases h
  · rintro ⟨rfl, tail, short, joined⟩
    exact (tail_outcomes joined short (congrArg Except.toOption opens)).1

theorem decryptStream_encryptStream_cut :
    let sealed := [frameHead 2 ⟨replicate 8 9, rfl⟩, record ([1, 2] ++ replicate 16 0),
      record ([3, 4] ++ replicate 16 0)]
    (decryptStream (table sampleCalls) [sealed.flatten.take 30, sealed.flatten.drop 30]
      (replicate 32 0)).toOption.map flatten = some [1, 2, 3, 4] := by
  intro sealed
  have produced : encryptStream (table sampleCalls) ⟨replicate 8 9, rfl⟩ [[1], [], [2, 3, 4]]
      (replicate 32 0) 2 = .ok sealed := by decide +kernel
  exact (decryptStream_encryptStream produced (by decide) (ideal_table _) _).mpr ⟨rfl, [], by simp⟩

end TmVault.Crypto
