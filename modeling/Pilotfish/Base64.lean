import Mathlib.Data.List.Basic
import Mathlib.Data.List.Infix

/-!
# Base64

The encoding of RFC 4648 with padding, and the lenient decoder: characters outside the
alphabet are skipped, and a padding character that completes its quad ends the input,
whatever follows it.

Results:
1. `decode_encode`: decoding inverts encoding.
2. `newline_not_mem_encode`: an encoded record is one line.
3. `length_lt_of_decodeFrom`: decoding an encoded record out of step with its quads never
   gives back as few bytes as the record has.
4. `decode_torn_append`: what is left of a torn record, followed by a whole one, decodes to
   the whole one in a single case: the tear took nothing but the line end of the same
   record, and that record ends in padding.
-/

namespace Base64

/-! ## The alphabet -/

/-- The character of a sextet. -/
def char (n : Nat) : UInt8 :=
  if n < 26 then .ofNat (65 + n)
  else if n < 52 then .ofNat (71 + n)
  else if n < 62 then .ofNat (n - 4)
  else if n = 62 then 43 else 47

/-- The sextet of a character, if it is in the alphabet. -/
def index (c : UInt8) : Option Nat :=
  let n := c.toNat
  if 65 ≤ n ∧ n < 91 then some (n - 65)
  else if 97 ≤ n ∧ n < 123 then some (n - 71)
  else if 48 ≤ n ∧ n < 58 then some (n + 4)
  else if n = 43 then some 62
  else if n = 47 then some 63
  else none

/-- The padding character `=`. -/
def pad : UInt8 := 61

theorem index_char : ∀ n < 64, index (char n) = some n := by decide

theorem char_ne_pad : ∀ n < 64, char n ≠ pad := by decide

theorem char_ne_newline : ∀ n < 64, char n ≠ 10 := by decide

/-! ## Encoding and decoding -/

def encode : List UInt8 → List UInt8
  | [] => []
  | [a] => [char (a.toNat / 4), char (a.toNat % 4 * 16), pad, pad]
  | [a, b] =>
      [char (a.toNat / 4), char (a.toNat % 4 * 16 + b.toNat / 16), char (b.toNat % 16 * 4), pad]
  | a :: b :: c :: rest =>
      char (a.toNat / 4) :: char (a.toNat % 4 * 16 + b.toNat / 16) ::
        char (b.toNat % 16 * 4 + c.toNat / 64) :: char (c.toNat % 64) :: encode rest

/-- Decoding from inside a quad: `pos` sextets of it are read, `left` holds the bits not yet
written out, `pads` counts the padding characters since the last sextet. `none` is the
decoder's error, raised when the input ends inside a quad. -/
def decodeFrom : (pos left pads : Nat) → List UInt8 → Option (List UInt8)
  | pos, _, _, [] => if pos = 0 then some [] else none
  | pos, left, pads, c :: cs =>
      if c = pad then
        if 2 ≤ pos then
          if 4 ≤ pos + (pads + 1) then some [] else decodeFrom pos left (pads + 1) cs
        else decodeFrom pos left pads cs
      else
        match index c, pos with
        | none, _ => decodeFrom pos left pads cs
        | some v, 0 => decodeFrom 1 v 0 cs
        | some v, 1 => (decodeFrom 2 (v % 16) 0 cs).map (.ofNat (left * 4 + v / 16) :: ·)
        | some v, 2 => (decodeFrom 3 (v % 4) 0 cs).map (.ofNat (left * 16 + v / 4) :: ·)
        | some v, _ => (decodeFrom 0 0 0 cs).map (.ofNat (left * 64 + v) :: ·)

def decode (cs : List UInt8) : Option (List UInt8) := decodeFrom 0 0 0 cs

/-! ## One character at a time -/

section Steps
variable {n : Nat} (h : n < 64) (left pads : Nat) (cs : List UInt8)
include h

theorem decodeFrom_char_zero :
    decodeFrom 0 left pads (char n :: cs) = decodeFrom 1 n 0 cs := by
  simp [decodeFrom, char_ne_pad n h, index_char n h]

theorem decodeFrom_char_one :
    decodeFrom 1 left pads (char n :: cs) =
      (decodeFrom 2 (n % 16) 0 cs).map (.ofNat (left * 4 + n / 16) :: ·) := by
  simp [decodeFrom, char_ne_pad n h, index_char n h]

theorem decodeFrom_char_two :
    decodeFrom 2 left pads (char n :: cs) =
      (decodeFrom 3 (n % 4) 0 cs).map (.ofNat (left * 16 + n / 4) :: ·) := by
  simp [decodeFrom, char_ne_pad n h, index_char n h]

theorem decodeFrom_char_three :
    decodeFrom 3 left pads (char n :: cs) =
      (decodeFrom 0 0 0 cs).map (.ofNat (left * 64 + n) :: ·) := by
  simp [decodeFrom, char_ne_pad n h, index_char n h]

end Steps

/-- The sextets of an encoded record are in range. -/
theorem sextet_lt (a b c : UInt8) :
    a.toNat / 4 < 64 ∧ a.toNat % 4 * 16 < 64 ∧ a.toNat % 4 * 16 + b.toNat / 16 < 64 ∧
      b.toNat % 16 * 4 < 64 ∧ b.toNat % 16 * 4 + c.toNat / 64 < 64 ∧ c.toNat % 64 < 64 := by
  have ha := a.toNat_lt
  have hb := b.toNat_lt
  have hc := c.toNat_lt
  omega

/-! ## Decoding inverts encoding -/

/-- The three bytes a whole quad gives back. -/
theorem quad_bytes (a b c : UInt8) :
    UInt8.ofNat (a.toNat / 4 * 4 + (a.toNat % 4 * 16 + b.toNat / 16) / 16) = a ∧
    UInt8.ofNat ((a.toNat % 4 * 16 + b.toNat / 16) % 16 * 16 +
      (b.toNat % 16 * 4 + c.toNat / 64) / 4) = b ∧
    UInt8.ofNat ((b.toNat % 16 * 4 + c.toNat / 64) % 4 * 64 + c.toNat % 64) = c := by
  have ha := a.toNat_lt
  have hb := b.toNat_lt
  have hc := c.toNat_lt
  refine ⟨?_, ?_, ?_⟩ <;> apply UInt8.toNat_inj.mp <;> rw [UInt8.toNat_ofNat'] <;> omega

theorem decode_quad (a b c : UInt8) (cs : List UInt8) :
    decode (char (a.toNat / 4) :: char (a.toNat % 4 * 16 + b.toNat / 16) ::
        char (b.toNat % 16 * 4 + c.toNat / 64) :: char (c.toNat % 64) :: cs) =
      (decode cs).map (fun out => a :: b :: c :: out) := by
  obtain ⟨h1, -, h2, -, h3, h4⟩ := sextet_lt a b c
  obtain ⟨ea, eb, ec⟩ := quad_bytes a b c
  rw [decode, decodeFrom_char_zero h1, decodeFrom_char_one h2, decodeFrom_char_two h3,
    decodeFrom_char_three h4]
  simp only [Option.map_map, ea, eb, ec]
  rfl

/-- A record of one byte over a multiple of three ends the input at its padding. -/
theorem decode_one_append (a : UInt8) (cs : List UInt8) :
    decode (encode [a] ++ cs) = some [a] := by
  obtain ⟨h1, h2, -⟩ := sextet_lt a a a
  have ha := a.toNat_lt
  have ea : UInt8.ofNat (a.toNat / 4 * 4 + a.toNat % 4 * 16 / 16) = a := by
    apply UInt8.toNat_inj.mp
    rw [UInt8.toNat_ofNat']
    omega
  simp only [encode, List.cons_append, decode]
  rw [decodeFrom_char_zero h1, decodeFrom_char_one h2, ea]
  simp [decodeFrom]

/-- A record of two bytes over a multiple of three ends the input at its padding. -/
theorem decode_two_append (a b : UInt8) (cs : List UInt8) :
    decode (encode [a, b] ++ cs) = some [a, b] := by
  obtain ⟨h1, -, h2, h3, -, -⟩ := sextet_lt a b b
  have ha := a.toNat_lt
  have hb := b.toNat_lt
  have ea : UInt8.ofNat (a.toNat / 4 * 4 + (a.toNat % 4 * 16 + b.toNat / 16) / 16) = a := by
    apply UInt8.toNat_inj.mp
    rw [UInt8.toNat_ofNat']
    omega
  have eb : UInt8.ofNat ((a.toNat % 4 * 16 + b.toNat / 16) % 16 * 16 +
      b.toNat % 16 * 4 / 4) = b := by
    apply UInt8.toNat_inj.mp
    rw [UInt8.toNat_ofNat']
    omega
  simp only [encode, List.cons_append, decode]
  rw [decodeFrom_char_zero h1, decodeFrom_char_one h2, decodeFrom_char_two h3, ea, eb]
  simp [decodeFrom]

theorem decode_encode (xs : List UInt8) : decode (encode xs) = some xs := by
  induction xs using encode.induct with
  | case1 => rfl
  | case2 a => simpa using decode_one_append a []
  | case3 a b => simpa using decode_two_append a b []
  | case4 a b c rest ih => rw [encode, decode_quad, ih]; rfl

theorem newline_not_mem_encode (xs : List UInt8) : (10 : UInt8) ∉ encode xs := by
  have hpad : (10 : UInt8) ≠ pad := by decide
  induction xs using encode.induct with
  | case1 => simp [encode]
  | case2 a =>
    obtain ⟨h1, h2, -⟩ := sextet_lt a a a
    simp [encode, (char_ne_newline _ h1).symm, (char_ne_newline _ h2).symm, hpad]
  | case3 a b =>
    obtain ⟨h1, -, h2, h3, -, -⟩ := sextet_lt a b b
    simp [encode, (char_ne_newline _ h1).symm, (char_ne_newline _ h2).symm,
      (char_ne_newline _ h3).symm, hpad]
  | case4 a b c rest ih =>
    obtain ⟨h1, -, h2, -, h3, h4⟩ := sextet_lt a b c
    simp [encode, (char_ne_newline _ h1).symm, (char_ne_newline _ h2).symm,
      (char_ne_newline _ h3).symm, (char_ne_newline _ h4).symm, ih]

theorem encode_ne_nil {xs : List UInt8} (h : xs ≠ []) : encode xs ≠ [] := by
  induction xs using encode.induct with
  | case1 => exact absurd rfl h
  | case2 | case3 | case4 => simp [encode]

/-! ## Out of step -/

/-- The positions inside a quad. -/
theorem inside {pos : Nat} (hlo : 1 ≤ pos) (hhi : pos ≤ 3) : pos = 1 ∨ pos = 2 ∨ pos = 3 := by
  omega

/-- A quad read from inside a quad gives three bytes and leaves the position where it was. -/
theorem length_of_decodeFrom_quad {pos left pads n₁ n₂ n₃ n₄ : Nat} {cs out : List UInt8}
    (hlo : 1 ≤ pos) (hhi : pos ≤ 3) (h₁ : n₁ < 64) (h₂ : n₂ < 64) (h₃ : n₃ < 64) (h₄ : n₄ < 64)
    (h : decodeFrom pos left pads (char n₁ :: char n₂ :: char n₃ :: char n₄ :: cs) = some out) :
    ∃ left' pads' out', decodeFrom pos left' pads' cs = some out' ∧
      out.length = out'.length + 3 := by
  rcases inside hlo hhi with rfl | rfl | rfl
  · rw [decodeFrom_char_one h₁, decodeFrom_char_two h₂, decodeFrom_char_three h₃,
      decodeFrom_char_zero h₄] at h
    simp only [Option.map_eq_some_iff] at h
    obtain ⟨_, ⟨_, ⟨out', hout, rfl⟩, rfl⟩, rfl⟩ := h
    exact ⟨_, _, out', hout, rfl⟩
  · rw [decodeFrom_char_two h₁, decodeFrom_char_three h₂, decodeFrom_char_zero h₃,
      decodeFrom_char_one h₄] at h
    simp only [Option.map_eq_some_iff] at h
    obtain ⟨_, ⟨_, ⟨out', hout, rfl⟩, rfl⟩, rfl⟩ := h
    exact ⟨_, _, out', hout, rfl⟩
  · rw [decodeFrom_char_three h₁, decodeFrom_char_zero h₂, decodeFrom_char_one h₃,
      decodeFrom_char_two h₄] at h
    simp only [Option.map_eq_some_iff] at h
    obtain ⟨_, ⟨_, ⟨out', hout, rfl⟩, rfl⟩, rfl⟩ := h
    exact ⟨_, _, out', hout, rfl⟩

/-- An encoded record read from inside a quad: if it decodes at all, it gives more bytes than
the record has. The induction is on the quads of the record, each of which is read across a
quad boundary and leaves the position where it was. -/
theorem length_lt_of_decodeFrom {pos left pads : Nat} {xs out : List UInt8}
    (hlo : 1 ≤ pos) (hhi : pos ≤ 3) (h : decodeFrom pos left pads (encode xs) = some out) :
    xs.length < out.length := by
  induction xs using encode.induct generalizing left pads out with
  | case1 =>
    simp only [encode, decodeFrom, if_neg (Nat.ne_of_gt hlo)] at h
    cases h
  | case2 a =>
    obtain ⟨h1, h2, -⟩ := sextet_lt a a a
    rw [encode] at h
    rcases inside hlo hhi with rfl | rfl | rfl
    · rw [decodeFrom_char_one h1, decodeFrom_char_two h2] at h
      simp [decodeFrom] at h
      simp [← h]
    · rw [decodeFrom_char_two h1, decodeFrom_char_three h2] at h
      simp [decodeFrom] at h
      simp [← h]
    · rw [decodeFrom_char_three h1, decodeFrom_char_zero h2] at h
      simp [decodeFrom] at h
  | case3 a b =>
    obtain ⟨h1, -, h2, h3, -, -⟩ := sextet_lt a b b
    rw [encode] at h
    rcases inside hlo hhi with rfl | rfl | rfl
    · rw [decodeFrom_char_one h1, decodeFrom_char_two h2, decodeFrom_char_three h3] at h
      simp [decodeFrom] at h
      simp [← h]
    · rw [decodeFrom_char_two h1, decodeFrom_char_three h2, decodeFrom_char_zero h3] at h
      simp [decodeFrom] at h
    · rw [decodeFrom_char_three h1, decodeFrom_char_zero h2, decodeFrom_char_one h3] at h
      simp [decodeFrom] at h
  | case4 a b c rest ih =>
    obtain ⟨h1, -, h2, -, h3, h4⟩ := sextet_lt a b c
    rw [encode] at h
    obtain ⟨left', pads', out', hout, hlength⟩ := length_of_decodeFrom_quad hlo hhi h1 h2 h3 h4 h
    rw [hlength, List.length_cons, List.length_cons, List.length_cons]
    exact Nat.add_lt_add_right (ih hout) 3

/-- The characters of `r` that end in padding end the input. -/
theorem decode_padded_append {r : List UInt8} (h : r.length % 3 ≠ 0) (cs : List UInt8) :
    decode (encode r ++ cs) = some r := by
  induction r using encode.induct with
  | case1 => simp at h
  | case2 a => exact decode_one_append a cs
  | case3 a b => exact decode_two_append a b cs
  | case4 a b c rest ih =>
    change (rest.length + 3) % 3 ≠ 0 at h
    rw [Nat.add_mod_right] at h
    simp only [encode, List.cons_append]
    rw [decode_quad, ih h]
    rfl

/-! ## A part in front of a whole -/

section Part
variable {n m k : Nat} {xs out : List UInt8}

/-- One character of a quad is left. -/
theorem length_lt_of_one (hn : n < 64) (h : decode (char n :: encode xs) = some out) :
    xs.length < out.length := by
  rw [decode, decodeFrom_char_zero hn] at h
  exact length_lt_of_decodeFrom (by decide) (by decide) h

/-- Two are. -/
theorem length_lt_of_two (hn : n < 64) (hm : m < 64)
    (h : decode (char n :: char m :: encode xs) = some out) : xs.length < out.length := by
  rw [decode, decodeFrom_char_zero hn, decodeFrom_char_one hm] at h
  obtain ⟨out', hout, rfl⟩ := Option.map_eq_some_iff.mp h
  exact (length_lt_of_decodeFrom (by decide) (by decide) hout).trans (Nat.lt_succ_self _)

/-- Three are. -/
theorem length_lt_of_three (hn : n < 64) (hm : m < 64) (hk : k < 64)
    (h : decode (char n :: char m :: char k :: encode xs) = some out) : xs.length < out.length := by
  rw [decode, decodeFrom_char_zero hn, decodeFrom_char_one hm, decodeFrom_char_two hk] at h
  obtain ⟨_, hmid, rfl⟩ := Option.map_eq_some_iff.mp h
  obtain ⟨out', hout, rfl⟩ := Option.map_eq_some_iff.mp hmid
  have hlt := length_lt_of_decodeFrom (by decide) (by decide) hout
  exact hlt.trans (Nat.lt_add_of_pos_right (by decide : 0 < 2))

/-- Two characters and the first padding character are. -/
theorem length_lt_of_padded (hn : n < 64) (hm : m < 64)
    (h : decode (char n :: char m :: pad :: encode xs) = some out) : xs.length < out.length := by
  rw [decode, decodeFrom_char_zero hn, decodeFrom_char_one hm] at h
  obtain ⟨out', hout, rfl⟩ := Option.map_eq_some_iff.mp h
  -- one padding character does not complete the quad, so the decoder reads on from inside it
  simp only [decodeFrom] at hout
  exact (length_lt_of_decodeFrom (by decide) (by decide) hout).trans (Nat.lt_succ_self _)

/-- A part that ends inside its first quad. -/
theorem length_lt_of_inside {c3 : UInt8} (hn : n < 64) (hm : m < 64)
    (hc3 : c3 = pad ∨ ∃ k, k < 64 ∧ c3 = char k) {left : List UInt8} (hne : left ≠ [])
    (hpart : left <+: [char n, char m, c3]) (h : decode (left ++ encode xs) = some out) :
    xs.length < out.length := by
  rcases left with _ | ⟨c1, _ | ⟨c2, _ | ⟨c3', l⟩⟩⟩ <;>
    simp only [List.cons_prefix_cons, List.prefix_nil, List.nil_prefix, and_true] at hpart
  · exact absurd rfl hne
  · subst hpart
    exact length_lt_of_one hn h
  · obtain ⟨rfl, rfl⟩ := hpart
    exact length_lt_of_two hn hm h
  · obtain ⟨rfl, rfl, rfl, rfl⟩ := hpart
    rcases hc3 with rfl | ⟨k, hk, rfl⟩
    · exact length_lt_of_padded hn hm h
    · exact length_lt_of_three hn hm hk h

end Part

/-- A part of a list ends before its fourth element or contains it. -/
theorem prefix_quad {c1 c2 c3 c4 : UInt8} {left cs : List UInt8}
    (h : left <+: c1 :: c2 :: c3 :: c4 :: cs) : left <+: [c1, c2, c3] ∨
    ∃ l, left = c1 :: c2 :: c3 :: c4 :: l ∧ l <+: cs := by
  rcases le_or_gt left.length 3 with hshort | hlong
  · exact .inl (List.prefix_of_prefix_length_le h ⟨c4 :: cs, rfl⟩ hshort)
  · right
    obtain ⟨l, rfl⟩ := List.prefix_of_prefix_length_le ⟨cs, rfl⟩ h
      (show [c1, c2, c3, c4].length ≤ left.length from hlong)
    exact ⟨l, rfl, by simpa using h⟩

/-- Part of a record in front of a whole one: unless the part is all of a record that ends in
padding, what decodes is longer than the whole record. -/
theorem length_lt_of_decode_append {r left xs out : List UInt8} (hne : left ≠ [])
    (hpart : left <+: encode r) (hwhole : ¬ (left = encode r ∧ r.length % 3 ≠ 0))
    (h : decode (left ++ encode xs) = some out) : xs.length < out.length := by
  -- quad by quad of the torn record: the part ends inside the first quad, or past it
  induction r using encode.induct generalizing left out with
  | case1 => exact absurd (List.prefix_nil.mp hpart) hne
  | case2 a =>
    obtain ⟨h1, h2, -⟩ := sextet_lt a a a
    rcases prefix_quad hpart with hinside | ⟨l, rfl, hl⟩
    · exact length_lt_of_inside h1 h2 (.inl rfl) hne hinside h
    · obtain rfl := List.prefix_nil.mp hl
      exact absurd ⟨rfl, by simp⟩ hwhole
  | case3 a b =>
    obtain ⟨h1, -, h2, h3, -, -⟩ := sextet_lt a b b
    rcases prefix_quad hpart with hinside | ⟨l, rfl, hl⟩
    · exact length_lt_of_inside h1 h2 (.inr ⟨_, h3, rfl⟩) hne hinside h
    · obtain rfl := List.prefix_nil.mp hl
      exact absurd ⟨rfl, by simp⟩ hwhole
  | case4 a b c rest ih =>
    obtain ⟨h1, -, h2, -, h3, h4⟩ := sextet_lt a b c
    rcases prefix_quad hpart with hinside | ⟨l, rfl, hrest⟩
    · exact length_lt_of_inside h1 h2 (.inr ⟨_, h3, rfl⟩) hne hinside h
    · simp only [List.cons_append] at h
      rw [decode_quad] at h
      obtain ⟨out', hout, rfl⟩ := Option.map_eq_some_iff.mp h
      have hquad : out'.length < (a :: b :: c :: out').length :=
        Nat.lt_add_of_pos_right (by decide : 0 < 3)
      by_cases hl : l = []
      · subst hl
        rw [List.nil_append, decode_encode] at hout
        cases hout
        exact hquad
      · have hwhole' : ¬ (l = encode rest ∧ rest.length % 3 ≠ 0) := by
          rintro ⟨rfl, hmod⟩
          refine hwhole ⟨by rw [encode], ?_⟩
          show (rest.length + 3) % 3 ≠ 0
          rwa [Nat.add_mod_right]
        exact (ih hl hrest hwhole' hout).trans hquad

/-- The one way a torn record leaves the next one readable. -/
theorem decode_torn_append {r left xs : List UInt8} (hne : left ≠ []) (hpart : left <+: encode r) :
    decode (left ++ encode xs) = some xs ↔ left = encode r ∧ r.length % 3 ≠ 0 ∧ xs = r := by
  constructor
  · intro h
    by_cases hwhole : left = encode r ∧ r.length % 3 ≠ 0
    · obtain ⟨rfl, hmod⟩ := hwhole
      rw [decode_padded_append hmod] at h
      exact ⟨rfl, hmod, (Option.some.inj h).symm⟩
    · exact absurd (length_lt_of_decode_append hne hpart hwhole h) (lt_irrefl _)
  · rintro ⟨rfl, hmod, rfl⟩
    exact decode_padded_append hmod _

end Base64
