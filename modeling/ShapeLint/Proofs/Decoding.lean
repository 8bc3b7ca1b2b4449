import Mathlib.Tactic.Lemma
import ShapeLint.Java.Token

/-!
# Tokens and their bytes

Tokens are found among the characters of a source, but carry offsets of bytes, and what a literal
means is read from the bytes between its offsets. `Spells` ties the two together: the bytes of a
source fall into chunks, one for each character and as long as the character is in UTF-8. A chunk
that is no character counts as so many characters that start no token. The text of a token of plain
characters is therefore what its bytes decode to.
-/

namespace ShapeLint.Java

open ShapeLint.Text

/-! ## Characters -/

/-- Whether a character has one byte and stands for itself. The substitute has one byte too, but
stands for a byte that is no character. -/
def isSimple (c : Char) : Bool :=
  c.toNat < 0x80 && c != substitute

/-- Bytes fall into chunks, one for each character. A chunk is as long as its character is in UTF-8,
which is all that offsets depend on; the chunk of a simple character is the byte with its number. -/
inductive Spells : List UInt8 → List Char → Prop where
  | nil : Spells [] []
  | cons {chunk bytes : List UInt8} {c : Char} {cs : List Char} :
      chunk.length = c.utf8Size → (isSimple c = true → chunk.map (·.toNat) = [c.toNat]) →
      Spells bytes cs → Spells (chunk ++ bytes) (c :: cs)

lemma toNat_ofNat {n : Nat} (h : n.isValidChar) : (Char.ofNat n).toNat = n := by
  rw [Char.ofNat, dif_pos h]
  rfl

lemma utf8Size_ofNat {n : Nat} (h : n.isValidChar) :
    (Char.ofNat n).utf8Size =
      if n ≤ 0x7F then 1 else if n ≤ 0x7FF then 2 else if n ≤ 0xFFFF then 3 else 4 := by
  have hn : (Char.ofNat n).val.toNat = n := toNat_ofNat h
  simp only [Char.utf8Size, UInt32.le_iff_toNat_le, hn]
  rfl

/-- The code points between two bounds are characters of a number of bytes, which is more than one.
Surrogates are no characters, so the ranges of three bytes leave them out. -/
def Sized (least greatest width : Nat) : Prop :=
  width = 2 ∧ 0x80 ≤ least ∧ greatest ≤ 0x7FF ∨
    width = 3 ∧ 0x800 ≤ least ∧ (greatest < 0xD800 ∨ 0xE000 ≤ least ∧ greatest ≤ 0xFFFF) ∨
    width = 4 ∧ 0x10000 ≤ least ∧ greatest ≤ 0x10FFFF

lemma Sized.mono {least greatest width least' greatest' : Nat} (h : Sized least greatest width)
    (hleast : least ≤ least') (hgreatest : greatest' ≤ greatest) :
    Sized least' greatest' width := by
  unfold Sized at h ⊢
  omega

lemma Sized.valid {n width : Nat} (h : Sized n n width) : n.isValidChar := by
  unfold Sized at h
  unfold Nat.isValidChar
  omega

lemma Sized.utf8Size {n width : Nat} (h : Sized n n width) : (Char.ofNat n).utf8Size = width := by
  rw [utf8Size_ofNat h.valid]
  unfold Sized at h
  repeat' split
  all_goals omega

/-- However a character that has begun goes on, it has the bytes that were read and those that are
owed. The bounds for the next byte give the least and the greatest code point that can come out, as
the bytes after it are not bounded further. -/
def Completes (p : Utf8Pending) : Prop :=
  0x80 ≤ p.low ∧ p.high ≤ 0xBF ∧
    (p.owed = 1 ∧
      Sized (p.bits * 64 + (p.low - 0x80)) (p.bits * 64 + (p.high - 0x80)) (p.read + 1) ∨
      p.owed = 2 ∧
        Sized ((p.bits * 64 + (p.low - 0x80)) * 64) ((p.bits * 64 + (p.high - 0x80)) * 64 + 63)
          (p.read + 2) ∨
      p.owed = 3 ∧
        Sized ((p.bits * 64 + (p.low - 0x80)) * 4096)
          ((p.bits * 64 + (p.high - 0x80)) * 4096 + 4095) (p.read + 3))

/-- The bounds that a first byte sets for the second keep the code point within the range for its
number of bytes. -/
lemma completes_lead {b : Nat} {lead : Utf8Lead} (h : utf8Lead? b = some lead) :
    Completes ⟨lead.bits, lead.following, lead.low, lead.high, 1⟩ := by
  unfold utf8Lead? at h
  unfold Completes Sized
  repeat' split at h
  all_goals cases h
  all_goals dsimp only
  -- One goal for each kind of first byte, and all of them about numbers.
  all_goals omega

/-- With the last byte, the code point is known and has the right size. -/
lemma Completes.last {p : Utf8Pending} (h : Completes p) {b : Nat} (hlow : p.low ≤ b)
    (hhigh : b ≤ p.high) (howed : p.owed = 1) :
    Sized (p.bits * 64 + (b - 0x80)) (p.bits * 64 + (b - 0x80)) (p.read + 1) := by
  obtain ⟨_, _, ⟨_, h⟩ | ⟨h, _⟩ | ⟨h, _⟩⟩ := h
  · exact h.mono (by omega) (by omega)
  · omega
  · omega

/-- With a byte that is not the last, the next one may be any that goes on with a character. -/
lemma Completes.next {p : Utf8Pending} (h : Completes p) {b : Nat} (hlow : p.low ≤ b)
    (hhigh : b ≤ p.high) (howed : p.owed ≠ 1) :
    Completes ⟨p.bits * 64 + (b - 0x80), p.owed - 1, 0x80, 0xBF, p.read + 1⟩ := by
  obtain ⟨_, _, ⟨h, _⟩ | ⟨h2, h⟩ | ⟨h3, h⟩⟩ := h
  · exact absurd h howed
  · refine ⟨Nat.le_refl _, Nat.le_refl _, .inl ⟨by simp [h2], ?_⟩⟩
    exact h.mono (by dsimp only; omega) (by dsimp only; omega)
  · refine ⟨Nat.le_refl _, Nat.le_refl _, .inr (.inl ⟨by simp [h3], ?_⟩)⟩
    exact h.mono (by dsimp only; omega) (by dsimp only; omega)

/-! ## Pieces -/

/-- The characters that a piece stands for. -/
def pieceChars (piece : Utf8Piece) : List Char :=
  match piece.char? with
  | some c => [c]
  | none => List.replicate piece.width substitute

/-- Bytes that are no character, each of which is counted as one substitute. -/
lemma Spells.malformed {bytes : List UInt8} {cs : List Char} (h : Spells bytes cs)
    (chunk : List UInt8) :
    Spells (chunk ++ bytes) (List.replicate chunk.length substitute ++ cs) := by
  induction chunk with
  | nil => exact h
  | cons b chunk ih => exact @Spells.cons [b] _ _ _ rfl (by simp [isSimple]) ih

lemma go_none_cons (b : UInt8) (bytes : List UInt8) :
    utf8Pieces.go none (b :: bytes) =
    if b.toNat < 0x80 then ⟨some (Char.ofNat b.toNat), 1⟩ :: utf8Pieces.go none bytes
    else
      match utf8Lead? b.toNat with
      | some lead => utf8Pieces.go (some ⟨lead.bits, lead.following, lead.low, lead.high, 1⟩) bytes
      | none => ⟨none, 1⟩ :: utf8Pieces.go none bytes :=
  rfl

lemma go_some_cons (p : Utf8Pending) (b : UInt8) (bytes : List UInt8) :
    utf8Pieces.go (some p) (b :: bytes) =
    if p.low ≤ b.toNat ∧ b.toNat ≤ p.high then
      if p.owed = 1 then
        ⟨some (Char.ofNat (p.bits * 64 + (b.toNat - 0x80))), p.read + 1⟩ :: utf8Pieces.go none bytes
      else
        utf8Pieces.go (some ⟨p.bits * 64 + (b.toNat - 0x80), p.owed - 1, 0x80, 0xBF, p.read + 1⟩)
          bytes
    else ⟨none, p.read⟩ :: utf8Pieces.go none (b :: bytes) :=
  rfl

/-- A character of several bytes. It is not simple, so its bytes need not be looked at. -/
lemma Spells.wide {bytes chunk : List UInt8} {cs : List Char} {n : Nat} (h : Spells bytes cs)
    (hsized : Sized n n chunk.length) : Spells (chunk ++ bytes) (Char.ofNat n :: cs) := by
  refine .cons hsized.utf8Size.symm (fun hsimple => ?_) h
  have hn := toNat_ofNat hsized.valid
  unfold Sized at hsized
  simp only [isSimple, Bool.and_eq_true, decide_eq_true_eq] at hsimple
  omega

/-- A character of one byte. -/
lemma Spells.ascii {bytes : List UInt8} {cs : List Char} {b : UInt8} (h : Spells bytes cs)
    (hb : b.toNat < 0x80) :
    Spells (b :: bytes) (Char.ofNat b.toNat :: cs) := by
  have hvalid : b.toNat.isValidChar := .inl (by omega)
  refine @Spells.cons [b] bytes _ cs ?_ (fun _ => by simp [toNat_ofNat hvalid]) h
  rw [utf8Size_ofNat hvalid, if_pos (by omega)]
  rfl

/-- The pieces of bytes spell them, from fresh as well as after the first bytes of a character. Both
are proved together, since a byte that does not go on with a character is looked at afresh. -/
lemma spells_go (bytes : List UInt8) :
    Spells bytes ((utf8Pieces.go none bytes).flatMap pieceChars) ∧
    ∀ (p : Utf8Pending) (chunk : List UInt8), chunk.length = p.read → Completes p →
      Spells (chunk ++ bytes) ((utf8Pieces.go (some p) bytes).flatMap pieceChars) := by
  induction bytes with
  | nil =>
    refine ⟨.nil, fun p chunk hchunk _ => ?_⟩
    have h := Spells.nil.malformed chunk
    rw [hchunk] at h
    simpa [utf8Pieces.go, pieceChars] using h
  | cons b bytes ih =>
    obtain ⟨hnone, hsome⟩ := ih
    have hfresh : Spells (b :: bytes) ((utf8Pieces.go none (b :: bytes)).flatMap pieceChars) := by
      rw [go_none_cons]
      split
      case isTrue hb => exact hnone.ascii hb
      -- The byte starts no character of one byte; it may announce a longer one.
      case isFalse =>
        split
        case h_1 lead hlead => exact hsome _ [b] rfl (completes_lead hlead)
        case h_2 => exact hnone.malformed [b]
    refine ⟨hfresh, fun p chunk hchunk hp => ?_⟩
    rw [go_some_cons]
    split
    case isTrue hb =>
      have hlength : (chunk ++ [b]).length = p.read + 1 := by simp [hchunk]
      have hbytes : chunk ++ b :: bytes = (chunk ++ [b]) ++ bytes := by simp
      rw [hbytes]
      split
      case isTrue howed =>
        refine hnone.wide ?_
        rw [hlength]
        exact hp.last hb.1 hb.2 howed
      -- The character is not complete yet, so its bytes go on being collected.
      case isFalse howed => exact hsome _ _ hlength (hp.next hb.1 hb.2 howed)
    case isFalse =>
      have h := hfresh.malformed chunk
      rwa [hchunk] at h

/-- The characters of a source, as tokens are found among them, spell its bytes. -/
lemma Source.spells (s : Source) : Spells s.bytes s.chars :=
  (spells_go s.bytes).1

/-! ## Slices -/

lemma byteLength_append (s t : List Char) : byteLength (s ++ t) = byteLength s + byteLength t := by
  induction s with
  | nil => simp [byteLength]
  | cons c s ih => rw [List.cons_append, byteLength, byteLength, ih, Nat.add_assoc]

/-- The bytes of two texts one after another. Where one ends and the other begins is given by the
length of the first in bytes. -/
lemma Spells.split {bytes : List UInt8} (before : List Char) {after : List Char}
    (h : Spells bytes (before ++ after)) :
    Spells (bytes.take (byteLength before)) before ∧
      Spells (bytes.drop (byteLength before)) after := by
  induction before generalizing bytes with
  | nil => exact ⟨.nil, h⟩
  | cons c before ih =>
    cases h with
    | cons hlength hsimple hothers =>
      obtain ⟨hbefore, hafter⟩ := ih hothers
      rw [byteLength, ← hlength, List.take_length_add_append, List.drop_length_add_append]
      exact ⟨.cons hlength hsimple hbefore, hafter⟩

/-- The bytes between two offsets are those of the characters there. -/
lemma Source.spells_slice {s : Source} {before text after : List Char}
    (h : s.chars = before ++ (text ++ after)) :
    Spells (s.slice (byteLength before) (byteLength before + byteLength text)) text := by
  have hafter := (Spells.split before (h ▸ s.spells)).2
  have htext := (Spells.split text hafter).1
  rwa [Source.slice, Nat.add_sub_cancel_left]

/-- Simple characters are decoded one by one. The lossy decoding gives the bytes that are no
character another character, so nothing is said of these. -/
lemma Spells.decode {bytes : List UInt8} {cs : List Char} (h : Spells bytes cs)
    (hcs : ∀ c ∈ cs, isSimple c = true) :
    decodeLossy bytes = cs := by
  induction h with
  | nil => rfl
  | @cons chunk bytes c cs hlength hsimple _ ih =>
    have hc := hcs c (List.mem_cons_self ..)
    -- A simple character has one byte, and that byte is its number.
    obtain ⟨b, rfl, hb⟩ : ∃ b, chunk = [b] ∧ b.toNat = c.toNat := by
      exact List.map_eq_singleton_iff.1 (hsimple hc)
    have hsmall : b.toNat < 0x80 := by
      simp only [isSimple, Bool.and_eq_true, decide_eq_true_eq] at hc
      omega
    have hrest := ih fun d hd => hcs d (List.mem_cons_of_mem c hd)
    have hgo : utf8Pieces ([b] ++ bytes) = ⟨some (Char.ofNat b.toNat), 1⟩ :: utf8Pieces bytes := by
      rw [utf8Pieces, List.singleton_append, go_none_cons, if_pos hsmall]
      rfl
    rw [decodeLossy, hgo, List.map_cons, ← decodeLossy, hrest, hb, Char.ofNat_toNat]
    rfl

/-! ## Tokens -/

/-- Where a token stands among characters, how far it reaches, and its offsets: a token of its kind
and length starts at its first character, its text is what it reaches over, and its offsets are
those of its first byte and behind its last, counted from where the characters begin. -/
structure Found (t : Token) (offset : Nat) (cs before : List Char) (first : Char) (rest : List Char)
    (n : Nat) : Prop where
  split : cs = before ++ first :: rest
  length : tokenLength (first :: rest) = some (t.kind, n)
  text : t.text = String.ofList (first :: rest.take (n - 1))
  start : t.start = offset + byteLength before
  stop : t.stop = t.start + byteLength (first :: rest.take (n - 1))

/-- What is found behind skipped characters is found among all of them. -/
lemma Found.later {t : Token} {offset n : Nat} {skipped cs before rest : List Char} {first : Char}
    (h : Found t (offset + byteLength skipped) cs before first rest n) :
    Found t offset (skipped ++ cs) (skipped ++ before) first rest n where
  split := by rw [h.split, List.append_assoc]
  length := h.length
  text := h.text
  start := by rw [h.start, byteLength_append, Nat.add_assoc]
  stop := h.stop

/-- Every token that is read stands somewhere. The induction follows the reading of tokens, which
skips blanks and comments in front of each. -/
lemma exists_found {t : Token} {offset : Nat} {cs : List Char}
    (h : t ∈ (tokensFrom offset cs).tokens) :
    ∃ before first rest n, Found t offset cs before first rest n := by
  fun_induction tokensFrom offset cs with
  | case1 => cases h
  -- What is skipped in front of a token belongs to what stands before it.
  | case2 offset c others hblank ih =>
    obtain ⟨before, first, rest, n, hfound⟩ := ih h
    exact ⟨_, first, rest, n, @Found.later t offset n [c] others before rest first hfound⟩
  | case3 offset c others hblank k hcomment ih =>
    rw [hcomment] at h
    obtain ⟨before, first, rest, n, hfound⟩ := ih h
    rw [Nat.add_assoc] at hfound
    have hlater := @Found.later t offset n (c :: others.take (k - 1)) _ before rest first hfound
    rw [List.cons_append, List.take_append_drop] at hlater
    exact ⟨_, first, rest, n, hlater⟩
  | case4 offset c others hblank hcomment htoken =>
    rw [hcomment, htoken] at h
    cases h
  | case5 offset c others hblank kind k stop hcomment htoken ih =>
    rw [hcomment, htoken] at h
    obtain rfl | h := List.mem_cons.1 h
    · exact ⟨[], c, others, k, rfl, htoken, rfl, rfl, Nat.add_assoc ..⟩
    · obtain ⟨before, first, rest, n, hfound⟩ := ih h
      have hstop : stop = offset + byteLength (c :: others.take (k - 1)) := Nat.add_assoc ..
      rw [hstop] at hfound
      have hlater := hfound.later
      rw [List.cons_append, List.take_append_drop] at hlater
      exact ⟨_, first, rest, n, hlater⟩

/-- Every token of a source is found among its characters. A mark for the order of bytes at the very
front is skipped. -/
lemma Source.exists_found {s : Source} {t : Token} (h : t ∈ s.tokens.tokens) :
    ∃ before first rest n, Found t 0 s.chars before first rest n := by
  rw [Source.tokens] at h
  split at h
  case h_1 c others hchars =>
    rw [hchars]
    split at h
    · obtain ⟨before, first, rest, n, hfound⟩ := Java.exists_found h
      rw [show c.utf8Size = 0 + byteLength [c] from (Nat.zero_add _).symm] at hfound
      exact ⟨_, first, rest, n, hfound.later⟩
    · exact Java.exists_found h
  case h_2 => cases h

/-- The bytes of a token of simple characters decode to its text. -/
theorem Source.textBetween_token {s : Source} {t : Token} (h : t ∈ s.tokens.tokens)
    (hsimple : ∀ c ∈ t.text.toList, isSimple c = true) :
    s.textBetween t.start t.stop = t.text.toList := by
  obtain ⟨before, first, rest, n, hfound⟩ := Source.exists_found h
  have htext : t.text.toList = first :: rest.take (n - 1) := by
    rw [hfound.text, String.toList_ofList]
  have hchars : s.chars = before ++ (t.text.toList ++ rest.drop (n - 1)) := by
    rw [hfound.split, htext, List.cons_append, List.take_append_drop]
  have hstop := hfound.stop
  rw [← htext] at hstop
  rw [Source.textBetween, hstop, hfound.start, Nat.zero_add]
  exact (Source.spells_slice hchars).decode hsimple

end ShapeLint.Java
