import Mathlib.Data.List.Infix
import Mathlib.Tactic.Ring

namespace TmVault.Text

instance lawfulChars : LawfulBEq (List Char) := inferInstance

def before (delimiter : List Char) : List Char → List Char
  | [] => []
  | c :: cs => if delimiter.isPrefixOf (c :: cs) then [] else c :: before delimiter cs

def splitPartFirst (delimiter text : String) : String :=
  String.ofList (before delimiter.toList text.toList)

example : splitPartFirst "::" "mail::att::1" = "mail" := by decide
example : splitPartFirst "::" "mail:att" = "mail:att" := by decide

def split (separator : Char) : List Char → List (List Char)
  | [] => [[]]
  | c :: cs =>
    if c = separator then [] :: split separator cs
    else match split separator cs with
      | [] => [[c]]
      | piece :: pieces => (c :: piece) :: pieces

example : split '/' "a//b".toList = ["a".toList, [], "b".toList] := by decide

def removeAll (pattern : List Char) : Nat → List Char → List Char
  | 0, cs => cs
  | _, [] => []
  | fuel + 1, c :: cs =>
    if pattern.isPrefixOf (c :: cs) then removeAll pattern fuel ((c :: cs).drop pattern.length)
    else c :: removeAll pattern fuel cs

def strip (p : Char → Bool) (cs : List Char) : List Char :=
  ((cs.dropWhile p).reverse.dropWhile p).reverse

def isSpace (c : Char) : Bool :=
  c.val ∈ [0x09, 0x0a, 0x0b, 0x0c, 0x0d, 0x1c, 0x1d, 0x1e, 0x1f, 0x20, 0x85, 0xa0, 0x1680, 0x2028,
    0x2029, 0x202f, 0x205f, 0x3000] || (0x2000 ≤ c.val && c.val ≤ 0x200a)

theorem removeAll_of_notMem {p : Char} {ps cs : List Char} (h : p ∉ cs) (fuel : Nat) :
    removeAll (p :: ps) fuel cs = cs := by
  induction cs generalizing fuel with
  | nil => cases fuel <;> rfl
  | cons c cs ih =>
    rw [List.mem_cons, not_or] at h
    cases fuel with
    | zero => rfl
    | succ fuel => simp [removeAll, h.1, ih h.2]

theorem dropWhile_of_forall {p : Char → Bool} {cs : List Char} (h : ∀ c ∈ cs, p c = false) :
    cs.dropWhile p = cs := by
  cases cs with
  | nil => rfl
  | cons c cs => rw [List.dropWhile_cons_of_neg (by simp [h c List.mem_cons_self])]

theorem strip_of_forall {p : Char → Bool} {cs : List Char} (h : ∀ c ∈ cs, p c = false) :
    strip p cs = cs := by
  rw [strip, dropWhile_of_forall h, dropWhile_of_forall fun c hc => h c (List.mem_reverse.mp hc),
    List.reverse_reverse]

open List

/-- SQL `text LIKE pattern ESCAPE escape`; a pattern that ends in the escape character matches
nothing. -/
def like (escape : Char) : List Char → List Char → Bool
  | [], text => text.isEmpty
  | c :: pattern, text =>
    if c = escape then
      match pattern, text with
      | d :: pattern, x :: text => x = d && like escape pattern text
      | _, _ => false
    else if c = '%' then text.tails.any (like escape pattern)
    else match text with
      | [] => false
      | x :: text => (c = '_' || x = c) && like escape pattern text

def replaceChar (old : Char) (new : List Char) (text : List Char) : List Char :=
  text.flatMap fun c => if c = old then new else [c]

def isWildcard (c : Char) : Bool := c = '%' || c = '_'

section

variable (escape : Char)

def escapeLike (text : List Char) : List Char :=
  replaceChar '_' [escape, '_'] (replaceChar '%' [escape, '%'] (replaceChar escape [escape, escape] text))

variable {escape}

@[simp] theorem replaceChar_cons (old c : Char) (new text : List Char) :
    replaceChar old new (c :: text) = (if c = old then new else [c]) ++ replaceChar old new text :=
  rfl

@[simp] theorem replaceChar_append (old : Char) (new text text' : List Char) :
    replaceChar old new (text ++ text') = replaceChar old new text ++ replaceChar old new text' :=
  flatMap_append

theorem escapeLike_cons (hescape : isWildcard escape = false) (c : Char) (text : List Char) :
    escapeLike escape (c :: text) =
      (if c = escape ∨ isWildcard c then [escape, c] else [c]) ++ escapeLike escape text := by
  simp only [isWildcard, Bool.or_eq_false_iff, decide_eq_false_iff_not] at hescape
  simp only [escapeLike, replaceChar_cons, replaceChar_append, isWildcard, Bool.or_eq_true,
    decide_eq_true_eq]
  congr 1
  by_cases he : c = escape
  · subst he
    simp [replaceChar, hescape.1, hescape.2]
  · by_cases hp : c = '%'
    · subst hp
      simp [replaceChar, he, hescape.2]
    · by_cases hu : c = '_'
      · subst hu
        simp [replaceChar, he, hp]
      · simp [replaceChar, he, hp, hu]

theorem like_char (he : c ≠ escape) (hp : c ≠ '%')
    (hu : c ≠ '_') : like escape (c :: pattern) (x :: text) = (x = c && like escape pattern text) := by
  cases pattern <;> simp [like, he, hp, hu]

theorem like_literal (c : Char) (pattern text : List Char) :
    like escape ((if c = escape ∨ isWildcard c then [escape, c] else [c]) ++ pattern) text = true ↔
      ∃ rest, text = c :: rest ∧ like escape pattern rest = true := by
  split
  case isTrue =>
    cases text with
    | nil => simp [like]
    | cons x text => simp [like, and_assoc]
  case isFalse h =>
    rw [not_or, isWildcard, Bool.or_eq_true, decide_eq_true_eq, decide_eq_true_eq, not_or] at h
    cases text with
    | nil => cases pattern <;> simp [like, h]
    | cons x text =>
      rw [singleton_append, like_char h.1 h.2.1 h.2.2]
      simp [and_assoc]

section

variable (hescape : isWildcard escape = false)

include hescape

theorem like_escapeLike (value pattern text : List Char) :
    like escape (escapeLike escape value ++ pattern) text = true ↔
      ∃ rest, text = value ++ rest ∧ like escape pattern rest = true := by
  induction value generalizing text with
  | nil => simp [escapeLike, replaceChar]
  | cons c value ih =>
    rw [escapeLike_cons hescape, append_assoc, like_literal]
    constructor
    · rintro ⟨tail, rfl, matched⟩
      obtain ⟨rest, rfl, below⟩ := (ih tail).mp matched
      exact ⟨rest, rfl, below⟩
    · rintro ⟨rest, rfl, h⟩
      exact ⟨value ++ rest, rfl, (ih _).mpr ⟨rest, rfl, h⟩⟩

theorem like_percent (text : List Char) : like escape ['%'] text = true := by
  have ne : '%' ≠ escape := by
    rintro rfl
    cases hescape
  simp only [like, ne, if_false, if_true, any_eq_true]
  exact ⟨[], (mem_tails _ _).mpr nil_suffix, rfl⟩

theorem like_descendants (hslash : escape ≠ '/') (path text : List Char) :
    like escape (escapeLike escape path ++ ['/', '%']) text = true ↔ path ++ ['/'] <+: text := by
  have slash : ∀ rest, like escape ['/', '%'] rest = true ↔ ∃ below, rest = '/' :: below := by
    intro rest
    cases rest with
    | nil => simp [like, hslash.symm]
    | cons x rest =>
      rw [like_char hslash.symm (by decide) (by decide), like_percent hescape]
      simp
  rw [like_escapeLike hescape]
  simp only [slash]
  constructor
  · rintro ⟨-, rfl, below, rfl⟩
    exact ⟨below, by simp⟩
  · rintro ⟨below, rfl⟩
    exact ⟨'/' :: below, by simp, below, rfl⟩

end

end

def hexValue (c : Char) : Option Nat :=
  if '0' ≤ c ∧ c ≤ '9' then some (c.toNat - '0'.toNat)
  else if 'a' ≤ c ∧ c ≤ 'f' then some (c.toNat - 'a'.toNat + 10)
  else if 'A' ≤ c ∧ c ≤ 'F' then some (c.toNat - 'A'.toNat + 10)
  else none

/-- Where the decimal digits of the scripts beyond ASCII start, in Unicode 14. -/
def decimalZeros : List Nat :=
  [0x660, 0x6f0, 0x7c0, 0x966, 0x9e6, 0xa66, 0xae6, 0xb66, 0xbe6, 0xc66, 0xce6, 0xd66, 0xde6, 0xe50,
    0xed0, 0xf20, 0x1040, 0x1090, 0x17e0, 0x1810, 0x1946, 0x19d0, 0x1a80, 0x1a90, 0x1b50, 0x1bb0,
    0x1c40, 0x1c50, 0xa620, 0xa8d0, 0xa900, 0xa9d0, 0xa9f0, 0xaa50, 0xabf0, 0xff10, 0x104a0,
    0x10d30, 0x11066, 0x110f0, 0x11136, 0x111d0, 0x112f0, 0x11450, 0x114d0, 0x11650, 0x116c0,
    0x11730, 0x118e0, 0x11950, 0x11c50, 0x11d50, 0x11da0, 0x16a60, 0x16ac0, 0x16b50, 0x1d7ce,
    0x1d7d8, 0x1d7e2, 0x1d7ec, 0x1d7f6, 0x1e140, 0x1e2f0, 0x1e950, 0x1fbf0]

/-- What `int` makes of a character before it reads: a decimal digit of any script is that digit. -/
def toAscii (c : Char) : Char :=
  if c.toNat < 128 then c
  else match decimalZeros.find? fun start => start ≤ c.toNat && c.toNat < start + 10 with
    | some start => .ofNat ('0'.toNat + (c.toNat - start))
    | none => c

def isIntSpace (c : Char) : Bool := isSpace c && !(0x1c ≤ c.val && c.val ≤ 0x1f)

def hexDigits : Nat → Bool → List Char → Option Nat
  | acc, digit, [] => if digit then some acc else none
  | acc, digit, c :: cs =>
    if c = '_' then
      if digit then hexDigits acc false cs else none
    else (hexValue c).bind fun v => hexDigits (acc * 16 + v) true cs

/-- `int(text, 16)` for a text without a minus sign. -/
def hexInt (cs : List Char) : Option Nat :=
  let body := match strip isIntSpace (cs.map toAscii) with
    | '+' :: cs => cs
    | cs => cs
  match body with
  | '0' :: 'x' :: cs => if cs = [] then none else hexDigits 0 true cs
  | '0' :: 'X' :: cs => if cs = [] then none else hexDigits 0 true cs
  | cs => hexDigits 0 false cs

/-- `uuid.UUID(text)`: hyphens, braces and the `urn:uuid:` scheme are optional. -/
def parseUuid (cs : List Char) : Option Nat :=
  let cs := removeAll "urn:".toList cs.length cs
  let cs := removeAll "uuid:".toList cs.length cs
  let cs := strip (fun c => c = '{' || c = '}') cs
  let cs := cs.filter (· ≠ '-')
  if cs.length = 32 then hexInt cs else none

theorem length_strip_le (p : Char → Bool) (cs : List Char) : (strip p cs).length ≤ cs.length := by
  rw [strip, length_reverse]
  exact ((dropWhile_suffix p).length_le.trans_eq (length_reverse ..)).trans
    (dropWhile_suffix p).length_le

theorem hexValue_lt (h : hexValue c = some v) : v < 16 := by
  have toNat_le {d : Char} (h : c ≤ d) : c.toNat ≤ d.toNat := h
  rw [hexValue] at h
  split_ifs at h with decimal lower upper
  all_goals cases h
  · have : c.toNat ≤ 57 := toNat_le decimal.2
    change c.toNat - 48 < 16
    omega
  · have : c.toNat ≤ 102 := toNat_le lower.2
    change c.toNat - 97 + 10 < 16
    omega
  · have : c.toNat ≤ 70 := toNat_le upper.2
    change c.toNat - 65 + 10 < 16
    omega

theorem hexDigits_lt (h : hexDigits acc digit cs = some n) : n < (acc + 1) * 16 ^ cs.length := by
  induction cs generalizing acc digit with
  | nil =>
    rw [hexDigits] at h
    split at h
    · cases h
      simp
    · cases h
  | cons c cs ih =>
    rw [hexDigits] at h
    rw [length_cons, pow_succ']
    split at h
    · split at h
      · exact (ih h).trans_le (Nat.mul_le_mul_left _ (Nat.le_mul_of_pos_left _ (by decide)))
      · cases h
    · obtain ⟨v, hv, h⟩ := Option.bind_eq_some_iff.mp h
      have := hexValue_lt hv
      calc n < (acc * 16 + v + 1) * 16 ^ cs.length := ih h
        _ ≤ ((acc + 1) * 16) * 16 ^ cs.length := Nat.mul_le_mul_right _ (by omega)
        _ = (acc + 1) * (16 * 16 ^ cs.length) := Nat.mul_assoc ..

theorem hexInt_lt (h : hexInt cs = some n) : n < 16 ^ cs.length := by
  have short {digit : Bool} {ds : List Char} (hd : hexDigits 0 digit ds = some n)
      (hl : ds.length ≤ cs.length) : n < 16 ^ cs.length :=
    (hexDigits_lt hd).trans_le (by simpa using Nat.pow_le_pow_right (by decide) hl)
  have stripped := length_strip_le isIntSpace (cs.map toAscii)
  rw [length_map] at stripped
  have signless : (match strip isIntSpace (cs.map toAscii) with
      | '+' :: cs => cs
      | cs => cs).length ≤ cs.length := by
    split
    · rename_i hs
      rw [hs, length_cons] at stripped
      omega
    · exact stripped
  rw [hexInt] at h
  split at h
  · rename_i hb
    rw [hb] at signless
    split at h
    · cases h
    · exact short h (by simp at signless; omega)
  · rename_i hb
    rw [hb] at signless
    split at h
    · cases h
    · exact short h (by simp at signless; omega)
  · exact short h signless

theorem parseUuid_lt (h : parseUuid cs = some n) : n < 2 ^ 128 := by
  simp only [parseUuid] at h
  split at h
  · rename_i size
    have := hexInt_lt h
    rw [size] at this
    exact this.trans_eq (by norm_num)
  · cases h

def hexDigit (v : Nat) : Char := "0123456789abcdef".toList.getD v '0'

def hexText : Nat → Nat → List Char
  | 0, _ => []
  | width + 1, n => hexText width (n / 16) ++ [hexDigit (n % 16)]

def formatUuid (n : Nat) : List Char :=
  let digits := hexText 32 n
  digits.take 8 ++ '-' :: ((digits.drop 8).take 4 ++ '-' :: ((digits.drop 12).take 4 ++ '-' ::
    ((digits.drop 16).take 4 ++ '-' :: digits.drop 20)))

def IsHexDigit (c : Char) : Prop := ∃ v < 16, c = hexDigit v

variable {c : Char} {cs : List Char} {width n : Nat}

theorem hexValue_hexDigit : ∀ v < 16, hexValue (hexDigit v) = some v := by decide

theorem IsHexDigit.plain (h : IsHexDigit c) :
    c ∉ ['u', 'x', 'X', '-', '+', '_', '\x7b', '\x7d'] ∧ isIntSpace c = false ∧ toAscii c = c := by
  obtain ⟨v, hv, rfl⟩ := h
  revert v
  decide

@[simp] theorem length_hexText : (hexText width n).length = width := by
  induction width generalizing n with
  | zero => rfl
  | succ width ih => rw [hexText, length_append, ih, length_singleton]

theorem isHexDigit_of_mem (h : c ∈ hexText width n) : IsHexDigit c := by
  induction width generalizing n with
  | zero => cases h
  | succ width ih =>
    rcases mem_append.mp h with h | h
    · exact ih h
    · exact ⟨n % 16, Nat.mod_lt _ (by decide), mem_singleton.mp h⟩

theorem hexDigits_hexText (acc : Nat) (digit : Bool) (rest : List Char) :
    hexDigits acc digit (hexText width n ++ rest) =
      hexDigits (acc * 16 ^ width + n % 16 ^ width) (digit || width ≠ 0) rest := by
  induction width generalizing n rest with
  | zero => simp [hexText, Nat.mod_one]
  | succ width ih =>
    have digits : IsHexDigit (hexDigit (n % 16)) := ⟨n % 16, Nat.mod_lt _ (by decide), rfl⟩
    have named : hexDigit (n % 16) ≠ '_' := fun h => digits.plain.1 (by simp [h])
    have value := hexValue_hexDigit (n % 16) (Nat.mod_lt _ (by decide))
    have shift : n % 16 ^ (width + 1) = n % 16 + 16 * (n / 16 % 16 ^ width) := by
      rw [pow_succ', Nat.mod_mul]
    rw [hexText, append_assoc, ih, singleton_append, hexDigits, if_neg named, value,
      Option.bind_some]
    congr 1
    · rw [shift, pow_succ]
      ring
    · simp

theorem hexInt_of_digits (h : ∀ c ∈ cs, IsHexDigit c) : hexInt cs = hexDigits 0 false cs := by
  have ascii : cs.map toAscii = cs := (map_congr_left fun c hc => (h c hc).plain.2.2).trans (map_id cs)
  rw [hexInt, ascii, strip_of_forall fun c hc => (h c hc).plain.2.1]
  match cs with
  | [] => rfl
  | [c] =>
    have := (h c (by simp)).plain.1
    split <;> simp_all
  | c :: d :: cs =>
    have hc := (h c (by simp)).plain.1
    have hd := (h d (by simp)).plain.1
    split <;> simp_all

theorem filter_formatUuid : (formatUuid n).filter (· ≠ '-') = hexText 32 n := by
  have digit {l : List Char} (hl : l ⊆ hexText 32 n) : l.filter (· ≠ '-') = l := by
    apply filter_eq_self.mpr
    intro c hc
    have := (isHexDigit_of_mem (hl hc)).plain.1
    simp_all
  have piece (k m : Nat) : ((hexText 32 n).drop k).take m ⊆ hexText 32 n :=
    fun _ hc => drop_subset k _ (take_subset m _ hc)
  have hyphen (l : List Char) : ('-' :: l).filter (· ≠ '-') = l.filter (· ≠ '-') := by simp
  simp only [formatUuid, filter_append, hyphen]
  rw [digit (piece 8 4), digit (piece 12 4), digit (piece 16 4), digit (drop_subset 20 _),
    digit (take_subset 8 _)]
  have step (k m : Nat) : ((hexText 32 n).drop k).take m ++ (hexText 32 n).drop (k + m) =
      (hexText 32 n).drop k := by
    rw [← drop_drop, take_append_drop]
  rw [step 16 4, step 12 4, step 8 4, take_append_drop]

theorem of_mem_formatUuid (h : c ∈ formatUuid n) : IsHexDigit c ∨ c = '-' := by
  refine or_iff_not_imp_right.mpr fun named => @isHexDigit_of_mem _ 32 n ?_
  rw [← filter_formatUuid]
  exact mem_filter.mpr ⟨h, decide_eq_true named⟩

theorem parseUuid_formatUuid (h : n < 2 ^ 128) : parseUuid (formatUuid n) = some n := by
  have apart {c : Char} (hc : c ∈ formatUuid n) :
      c ≠ 'u' ∧ (c = '\x7b' || c = '\x7d') = false := by
    rcases of_mem_formatUuid hc with hc | rfl
    · have := hc.plain.1
      simp_all
    · decide
  have notScheme : 'u' ∉ formatUuid n := fun hu => (apart hu).1 rfl
  have urn (fuel : Nat) : removeAll "urn:".toList fuel (formatUuid n) = formatUuid n :=
    removeAll_of_notMem notScheme fuel
  have scheme (fuel : Nat) : removeAll "uuid:".toList fuel (formatUuid n) = formatUuid n :=
    removeAll_of_notMem notScheme fuel
  have value : 0 * 16 ^ 32 + n % 16 ^ 32 = n := by
    rw [Nat.zero_mul, Nat.zero_add, Nat.mod_eq_of_lt (by norm_num; omega)]
  have digits := @hexDigits_hexText 32 n 0 false []
  rw [append_nil, value] at digits
  rw [parseUuid, urn, scheme, strip_of_forall fun c hc => (apart hc).2, filter_formatUuid,
    if_pos length_hexText, hexInt_of_digits fun c => isHexDigit_of_mem, digits]
  rfl

def uuidShape : List Bool :=
  .replicate 8 true ++ false :: (.replicate 4 true ++ false :: (.replicate 4 true ++ false ::
    (.replicate 4 true ++ false :: .replicate 12 true)))

def fits (digit : Bool) (c : Char) : Bool := if digit then (hexValue c).isSome else c = '-'

def matchShape : List Bool → List Char → Option (List Char)
  | [], _ => some []
  | _ :: _, [] => none
  | digit :: shape, c :: cs =>
    if fits digit c then (matchShape shape cs).map (c :: ·) else none

/-- `[0-9a-fA-F]{8}-[0-9a-fA-F]{4}-[0-9a-fA-F]{4}-[0-9a-fA-F]{4}-[0-9a-fA-F]{12}` at the head of a
text; what follows is free. -/
def uuidHead (cs : List Char) : Option (List Char) := matchShape uuidShape cs

def isUuidText (cs : List Char) : Bool := uuidHead cs = some cs

variable {ds : List Char} {shape : List Bool}

theorem matchShape_append (h : matchShape shape cs = some ds) : ∃ rest, cs = ds ++ rest := by
  induction shape generalizing cs ds with
  | nil =>
    cases h
    exact ⟨cs, rfl⟩
  | cons digit shape ih =>
    cases cs with
    | nil => cases h
    | cons c cs =>
      rw [matchShape] at h
      split at h
      · obtain ⟨es, hes, rfl⟩ := Option.map_eq_some_iff.mp h
        obtain ⟨rest, rfl⟩ := ih hes
        exact ⟨rest, rfl⟩
      · cases h

theorem matchShape_digits (h : matchShape shape cs = some ds) :
    (∀ c ∈ ds, (hexValue c).isSome ∨ c = '-') ∧
      (ds.filter (· ≠ '-')).length = (shape.filter id).length := by
  have hyphen : hexValue '-' = none := by decide
  induction shape generalizing cs ds with
  | nil =>
    cases h
    exact ⟨fun _ h => absurd h not_mem_nil, rfl⟩
  | cons digit shape ih =>
    cases cs with
    | nil => cases h
    | cons c cs =>
      rw [matchShape] at h
      split at h
      · rename_i fit
        obtain ⟨es, hes, rfl⟩ := Option.map_eq_some_iff.mp h
        obtain ⟨chars, count⟩ := ih hes
        cases digit with
        | false =>
          obtain rfl : c = '-' := of_decide_eq_true fit
          exact ⟨forall_mem_cons.mpr ⟨.inr rfl, chars⟩, by simpa using count⟩
        | true =>
          have digit : (hexValue c).isSome := fit
          have named : c ≠ '-' := by
            rintro rfl
            rw [hyphen] at digit
            cases digit
          exact ⟨forall_mem_cons.mpr ⟨.inl digit, chars⟩, by simpa [named] using count⟩
      · cases h

theorem removeAll_append (h : p ∉ cs) (fuel : Nat) :
    removeAll (p :: ps) (cs.length + fuel) (cs ++ ds) = cs ++ removeAll (p :: ps) fuel ds := by
  induction cs with
  | nil => simp
  | cons c cs ih =>
    rw [mem_cons, not_or] at h
    rw [length_cons, Nat.add_right_comm, cons_append, removeAll,
      if_neg (by simp [h.1]), ih h.2, cons_append]

theorem strip_append (plain : ∀ c ∈ cs, p c = false) (some : cs ≠ []) :
    ∃ rest, strip p (cs ++ ds) = cs ++ rest := by
  have start : (cs ++ ds).dropWhile p = cs ++ ds := by
    cases cs with
    | nil => exact absurd rfl some
    | cons c cs => rw [cons_append, dropWhile_cons_of_neg (by simp [plain c])]
  have stop : cs.reverse.dropWhile p = cs.reverse :=
    dropWhile_of_forall fun c hc => plain c (mem_reverse.mp hc)
  rw [strip, start, reverse_append, dropWhile_append, stop]
  split
  · exact ⟨[], by simp⟩
  · exact ⟨_, by rw [reverse_append, reverse_reverse]⟩

theorem parseUuid_of_uuidHead {n : Nat} (matched : uuidHead cs = some ds)
    (h : parseUuid cs = some n) : parseUuid ds = some n := by
  obtain ⟨chars, count⟩ := matchShape_digits matched
  replace count : (ds.filter (· ≠ '-')).length = 32 := count
  obtain ⟨rest, rfl⟩ := matchShape_append matched
  have apart {c : Char} (special : hexValue c = none ∧ c ≠ '-') : c ∉ ds := by
    intro hc
    rcases chars c hc with digit | rfl
    · rw [special.1] at digit
      cases digit
    · exact special.2 rfl
  have scheme : 'u' ∉ ds := apart (by decide)
  have braces : ∀ c ∈ ds, (c = '\x7b' || c = '\x7d') = false := by
    intro c hc
    have left : c ≠ '\x7b' := fun h => apart (by decide) (h ▸ hc)
    have right : c ≠ '\x7d' := fun h => apart (by decide) (h ▸ hc)
    simp [left, right]
  have some : ds ≠ [] := by
    rintro rfl
    cases count
  have removed {pattern ps : List Char} (u : pattern = 'u' :: ps) (rest : List Char) :
      removeAll pattern (ds ++ rest).length (ds ++ rest) = ds ++ removeAll pattern rest.length rest := by
    rw [u, length_append]
    exact removeAll_append scheme _
  have urn : "urn:".toList = 'u' :: "rn:".toList := rfl
  have uuid : "uuid:".toList = 'u' :: "uid:".toList := rfl
  simp only [parseUuid, removed urn, removed uuid] at h
  generalize removeAll "urn:".toList rest.length rest = rest at h
  obtain ⟨tail, stripped⟩ := @strip_append ds (removeAll "uuid:".toList rest.length rest) _ braces some
  rw [stripped, filter_append] at h
  split at h
  · rename_i size
    -- The digits matched are all the digits there are room for.
    have none : tail.filter (· ≠ '-') = [] := by
      rw [length_append, count] at size
      exact length_eq_zero_iff.mp (Nat.add_left_cancel size)
    rw [none, append_nil] at h
    rw [parseUuid, show removeAll "urn:".toList ds.length ds = ds from removeAll_of_notMem scheme _,
      show removeAll "uuid:".toList ds.length ds = ds from removeAll_of_notMem scheme _,
      strip_of_forall braces, if_pos count]
    exact h
  · cases h

end TmVault.Text
