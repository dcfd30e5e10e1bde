import Pilotfish.BigEndian
import Pilotfish.Python

/-!
# CBOR

The deterministic encoding of RFC 8949 on values: definite lengths, shortest heads, shortest
floats, map keys and elements of sets sorted by length and then by bytes. Objects of other classes
have no form. Two cases exist only so that the rest does: a length no head can hold, and a rational
that no float denotes.

Results:
1. `readHead_head`: heads are read back, whatever follows.
2. `loads_encode`: decoding inverts encoding on values made of scalars and lists.
3. `dumps_list_iff`: a list is encoded when its elements are.
-/

namespace Cbor
open Python

/-! ## Heads -/

/-- The first byte and its argument. -/
def head (major n : Nat) : Bytes :=
  if n < 24 then [.ofNat (32 * major + n)]
  else if n < 2 ^ 8 then .ofNat (32 * major + 24) :: BigEndian.bytes 1 n
  else if n < 2 ^ 16 then .ofNat (32 * major + 25) :: BigEndian.bytes 2 n
  else if n < 2 ^ 32 then .ofNat (32 * major + 26) :: BigEndian.bytes 4 n
  else if n < 2 ^ 64 then .ofNat (32 * major + 27) :: BigEndian.bytes 8 n
  else
    -- no head holds this: the reserved one, the width in unary, and the bytes
    .ofNat (32 * major + 28) :: List.replicate (Nat.log 256 n + 1) 1 ++ 0 :: BigEndian.minimal n

/-- The first `n` bytes and the rest, if there are as many. -/
def split (n : Nat) (bs : Bytes) : Option (Bytes × Bytes) :=
  if n ≤ bs.length then some (bs.take n, bs.drop n) else none

/-- A width in unary. -/
def readUnary (acc : Nat) : Bytes → Option (Nat × Bytes)
  | [] => none
  | c :: rest => if c = 1 then readUnary (acc + 1) rest else some (acc, rest)

/-- Major type, additional information, argument and what follows. -/
def readHead : Bytes → Option (Nat × Nat × Nat × Bytes)
  | [] => none
  | c :: rest =>
      let major := c.toNat / 32
      let info := c.toNat % 32
      if info < 24 then some (major, info, info, rest)
      else if info < 28 then
        (split (2 ^ (info - 24)) rest).map fun (bs, rest) => (major, info, BigEndian.value bs, rest)
      else if info = 28 then
        (readUnary 0 rest).bind fun (width, rest) =>
          (split width rest).map fun (bs, rest) => (major, info, BigEndian.value bs, rest)
      else none

theorem split_append (a b : Bytes) : split a.length (a ++ b) = some (a, b) := by
  simp [split]

theorem readUnary_replicate (acc n : Nat) (rest : Bytes) :
    readUnary acc (List.replicate n 1 ++ 0 :: rest) = some (acc + n, rest) := by
  induction n generalizing acc with
  | zero => simp [readUnary]
  | succ n ih =>
    rw [List.replicate_succ, List.cons_append, readUnary, if_pos rfl, ih]
    congr 2
    omega

theorem firstByte {major info : Nat} (hmajor : major < 8) (hinfo : info < 32) :
    (UInt8.ofNat (32 * major + info)).toNat / 32 = major ∧
    (UInt8.ofNat (32 * major + info)).toNat % 32 = info := by
  have hbyte : (UInt8.ofNat (32 * major + info)).toNat = (32 * major + info) % 256 :=
    UInt8.toNat_ofNat'
  rw [hbyte]
  omega

/-- A head with a fixed number of argument bytes. -/
theorem readHead_wide {major info n : Nat} (hmajor : major < 8) (hlo : 24 ≤ info) (hhi : info < 28)
    (hn : n < 256 ^ 2 ^ (info - 24)) (rest : Bytes) :
    readHead (UInt8.ofNat (32 * major + info) :: BigEndian.bytes (2 ^ (info - 24)) n ++ rest) =
      some (major, info, n, rest) := by
  obtain ⟨hdiv, hmod⟩ := firstByte hmajor (hhi.trans (by decide : 28 < 32))
  have hsplit := split_append (BigEndian.bytes (2 ^ (info - 24)) n) rest
  rw [BigEndian.length_bytes] at hsplit
  rw [List.cons_append, readHead, hdiv, hmod, if_neg (by omega), if_pos hhi, hsplit,
    Option.map_some]
  dsimp only
  rw [BigEndian.value_bytes hn]

theorem readHead_head {major : Nat} (hmajor : major < 8) (n : Nat) (rest : Bytes) :
    ∃ info, readHead (head major n ++ rest) = some (major, info, n, rest) := by
  unfold head
  split_ifs with h1 h2 h3 h4 h5
  · obtain ⟨hdiv, hmod⟩ := firstByte hmajor (h1.trans (by decide : 24 < 32))
    exact ⟨n, by rw [List.singleton_append, readHead, hdiv, hmod, if_pos h1]⟩
  · exact ⟨24, readHead_wide hmajor (by decide) (by decide) (by simpa using h2) rest⟩
  · exact ⟨25, readHead_wide hmajor (by decide) (by decide) (by simpa using h3) rest⟩
  · exact ⟨26, readHead_wide hmajor (by decide) (by decide) (by simpa using h4) rest⟩
  · exact ⟨27, readHead_wide hmajor (by decide) (by decide) (by simpa using h5) rest⟩
  · obtain ⟨hdiv, hmod⟩ := firstByte hmajor (by decide : 28 < 32)
    have hsplit := split_append (BigEndian.minimal n) rest
    rw [show (BigEndian.minimal n).length = Nat.log 256 n + 1 from BigEndian.length_bytes _ _]
      at hsplit
    refine ⟨28, ?_⟩
    rw [List.append_assoc, List.cons_append, List.cons_append, readHead, hdiv, hmod,
      if_neg (by decide), if_neg (by decide), if_pos rfl, readUnary_replicate, Option.bind_some,
      Nat.zero_add]
    dsimp only
    rw [hsplit, Option.map_some]
    dsimp only
    rw [BigEndian.value_minimal]

/-! ## Floats -/

/-- A float format: its exponent and mantissa bits. -/
structure Format where
  info : Nat
  exponentBits : Nat
  mantissaBits : Nat

def Format.bias (f : Format) : Int := 2 ^ (f.exponentBits - 1) - 1

/-- Half, single and double precision. -/
def formats : List Format := [⟨25, 5, 10⟩, ⟨26, 8, 23⟩, ⟨27, 11, 52⟩]

/-- The bits of a rational, its excess digits cut off. -/
def Format.bits (f : Format) (q : ℚ) : Nat :=
  let sign := if q < 0 then 2 ^ (f.exponentBits + f.mantissaBits) else 0
  let e := max (Int.log 2 |q|) (1 - f.bias)
  let mantissa := ⌊|q| / 2 ^ (e - f.mantissaBits)⌋.toNat
  if mantissa < 2 ^ f.mantissaBits then sign + mantissa
  else sign + (e + f.bias).toNat * 2 ^ f.mantissaBits + (mantissa - 2 ^ f.mantissaBits)

/-- The float that bits denote. -/
def Format.ofBits (f : Format) (bits : Nat) : Double :=
  let negative := 2 ^ (f.exponentBits + f.mantissaBits) ≤ bits
  let exponent := bits / 2 ^ f.mantissaBits % 2 ^ f.exponentBits
  let mantissa := bits % 2 ^ f.mantissaBits
  let magnitude : ℚ :=
    if exponent = 0 then mantissa * 2 ^ (1 - f.bias - f.mantissaBits)
    else (2 ^ f.mantissaBits + mantissa) * 2 ^ (exponent - f.bias - f.mantissaBits)
  if exponent = 2 ^ f.exponentBits - 1 then
    if mantissa ≠ 0 then .nan else if negative then .negInf else .inf
  else if negative then if magnitude = 0 then .negZero else .fin (-magnitude)
  else .fin magnitude

def floatBytes (f : Format) (bits : Nat) : Bytes :=
  .ofNat (32 * 7 + f.info) :: BigEndian.bytes (2 ^ (f.info - 24)) bits

/-- The shortest format that holds a rational exactly. -/
def shortestFormat (q : ℚ) : Option Format :=
  formats.find? fun f =>
    f.bits q < 256 ^ 2 ^ (f.info - 24) ∧ f.ofBits (f.bits q) = .fin q

/-! ## Encoding -/

/-- A natural number, or one past 64 bits as a tagged byte string. -/
def encodeNat (major tag n : Nat) : Bytes :=
  if n < 2 ^ 64 then head major n
  else head 6 tag ++ head 2 (BigEndian.minimal n).length ++ BigEndian.minimal n

def encodeInt (n : Int) : Bytes :=
  if 0 ≤ n then encodeNat 0 2 n.toNat else encodeNat 1 3 (-1 - n).toNat

def encodeFloat : Double → Bytes
  | .nan => [0xf9, 0x7e, 0]
  | .inf => [0xf9, 0x7c, 0]
  | .negInf => [0xf9, 0xfc, 0]
  | .negZero => [0xf9, 0x80, 0]
  | .fin q =>
      match shortestFormat q with
      | some f => floatBytes f (f.bits q)
      | none => head 6 30 ++ head 4 2 ++ encodeInt q.num ++ encodeInt q.den

def encode : Value → Bytes
  | .null => [0xf6]
  | .bool false => [0xf4]
  | .bool true => [0xf5]
  | .int n => encodeInt n
  | .float x => encodeFloat x
  | .bytes b => head 2 b.length ++ b
  | .str s => head 3 s.toByteArray.data.toList.length ++ s.toByteArray.data.toList
  | .list xs => head 4 xs.length ++ encodes xs
  | .map keys vals => head 5 keys.length ++
    (sortedEntries (encodeEach keys) (encodeEach vals)).flatten
  | .set xs => head 6 258 ++ head 4 xs.length ++ (sortedItems (encodeEach xs)).flatten
  | .tag n v => head 6 n ++ encode v
  -- not reached: what holds one is not encoded
  | .object _ => []
where
  encodes : List Value → Bytes
    | [] => []
    | x :: xs => encode x ++ encodes xs
  encodeEach : List Value → List Bytes
    | [] => []
    | x :: xs => encode x :: encodeEach xs
  sortedEntries (keys vals : List Bytes) : List Bytes :=
    ((keys.zip vals).insertionSort fun x y =>
      x.1.length < y.1.length ∨ x.1.length = y.1.length ∧ x.1 ≤ y.1).map fun (k, v) => k ++ v
  sortedItems (items : List Bytes) : List Bytes :=
    items.insertionSort fun x y => x.length < y.length ∨ x.length = y.length ∧ x ≤ y

/-! ## Decoding -/

def decodeText (bs : Bytes) : Option String :=
  if h : (ByteArray.mk bs.toArray).IsValidUTF8 then some (.ofByteArray ⟨bs.toArray⟩ h) else none

/-- Every second element, from the first on. -/
def evens {α : Type} : List α → List α
  | [] => []
  | [x] => [x]
  | x :: _ :: rest => x :: evens rest

/-- What a tag makes of its content. -/
def tagged (n : Nat) (v : Value) : Value :=
  match n, v with
  | 2, .bytes b => .int (BigEndian.value b)
  | 3, .bytes b => .int (-1 - BigEndian.value b)
  | 30, .list [.int p, .int q] => .float (.fin (p / q))
  | 258, .list xs => .set (Value.distinct xs)
  | _, _ => .tag n v

def simple (info n : Nat) : Option Value :=
  match info with
  | 20 => some (.bool false)
  | 21 => some (.bool true)
  | 22 => some .null
  | 25 => some (.float (Format.ofBits ⟨25, 5, 10⟩ n))
  | 26 => some (.float (Format.ofBits ⟨26, 8, 23⟩ n))
  | 27 => some (.float (Format.ofBits ⟨27, 11, 52⟩ n))
  | _ => none

mutual

def decodeItem : (fuel : Nat) → Bytes → Option (Value × Bytes)
  | 0, _ => none
  | fuel + 1, bs =>
      match readHead bs with
      | none => none
      | some (major, info, n, rest) =>
          match major with
          | 0 => some (.int n, rest)
          | 1 => some (.int (-1 - n), rest)
          | 2 => (split n rest).map fun (b, rest) => (.bytes b, rest)
          | 3 => (split n rest).bind fun (b, rest) => (decodeText b).map fun s => (.str s, rest)
          | 4 => (decodeItems fuel n rest).map fun (xs, rest) => (.list xs, rest)
          | 5 => (decodeItems fuel (2 * n) rest).map fun (xs, rest) =>
              (.map (evens xs) (evens xs.tail), rest)
          | 6 => (decodeItem fuel rest).map fun (v, rest) => (tagged n v, rest)
          | _ => (simple info n).map fun v => (v, rest)

def decodeItems : (fuel count : Nat) → Bytes → Option (List Value × Bytes)
  | _, 0, bs => some ([], bs)
  | 0, _ + 1, _ => none
  | fuel + 1, count + 1, bs =>
      match decodeItem fuel bs with
      | none => none
      | some (x, rest) => (decodeItems fuel count rest).map fun (xs, rest) => (x :: xs, rest)

end

/-- Nothing in it is of a class the encoder has no form for. -/
def formed : Value → Bool
  | .list xs => formeds xs
  | .map keys vals => formeds keys && formeds vals
  | .set xs => formeds xs
  | .tag _ v => formed v
  | .object _ => false
  | _ => true
where formeds : List Value → Bool
  | [] => true
  | x :: xs => formed x && formeds xs

def dumps (v : Value) : Except Exc Bytes :=
  if formed v then .ok (encode v) else .error ⟨.user "CBOREncodeError", "cannot serialize it"⟩

/-- The first item of the input; what follows it is not looked at. -/
def loads (bs : Bytes) : Except Exc Value :=
  match decodeItem (4 * bs.length) bs with
  | some (v, _) => .ok v
  | none => .error ⟨.user "CBORDecodeError", "premature end of stream or malformed item"⟩

/-! ## Decoding inverts encoding -/

/-- The fuel a value takes. -/
def weight : Value → Nat
  | .list xs => 1 + weights xs
  | .float _ => 8
  | _ => 2
where weights : List Value → Nat
  | [] => 0
  | x :: xs => 1 + weight x + weights xs

theorem decodeText_toByteArray (s : String) : decodeText s.toByteArray.data.toList = some s := by
  have harray : ByteArray.mk s.toByteArray.data.toList.toArray = s.toByteArray := rfl
  unfold decodeText
  rw [dif_pos (by rw [harray]; exact s.isValidUTF8)]

theorem decodeItem_bytes (b : Bytes) (fuel : Nat) (rest : Bytes) :
    decodeItem (fuel + 1) (head 2 b.length ++ b ++ rest) = some (.bytes b, rest) := by
  obtain ⟨info, hread⟩ := readHead_head (by decide : (2 : Nat) < 8) b.length (b ++ rest)
  rw [List.append_assoc, decodeItem, hread]
  simp only [split_append, Option.map_some]

theorem decodeItem_tag (n : Nat) {v : Value} {fuel : Nat} {bs rest : Bytes}
    (h : decodeItem fuel bs = some (v, rest)) :
    decodeItem (fuel + 1) (head 6 n ++ bs) = some (tagged n v, rest) := by
  obtain ⟨info, hread⟩ := readHead_head (by decide : (6 : Nat) < 8) n bs
  rw [decodeItem, hread]
  simp only [h, Option.map_some]

theorem decodeItem_encodeInt (n : Int) (fuel : Nat) (rest : Bytes) :
    decodeItem (fuel + 2) (encodeInt n ++ rest) = some (.int n, rest) := by
  unfold encodeInt encodeNat
  split_ifs with hsign hsmall hsmall
  · obtain ⟨info, hread⟩ := readHead_head (by decide : (0 : Nat) < 8) n.toNat rest
    rw [decodeItem, hread]
    simp only [Int.toNat_of_nonneg hsign]
  · have hb := decodeItem_tag 2 (decodeItem_bytes (BigEndian.minimal n.toNat) fuel rest)
    rw [List.append_assoc, List.append_assoc, ← List.append_assoc (head 2 _), hb]
    simp only [tagged, BigEndian.value_minimal, Int.toNat_of_nonneg hsign]
  · obtain ⟨info, hread⟩ := readHead_head (by decide : (1 : Nat) < 8) (-1 - n).toNat rest
    rw [decodeItem, hread]
    simp only [Int.toNat_of_nonneg (show 0 ≤ -1 - n by omega), sub_sub_cancel]
  · have hb := decodeItem_tag 3 (decodeItem_bytes (BigEndian.minimal (-1 - n).toNat) fuel rest)
    rw [List.append_assoc, List.append_assoc, ← List.append_assoc (head 2 _), hb]
    simp only [tagged, BigEndian.value_minimal, Int.toNat_of_nonneg (show 0 ≤ -1 - n by omega),
      sub_sub_cancel]

/-- A shortest format is one of the three and holds its rational. -/
theorem decodeItem_floatBytes {q : ℚ} {f : Format} (h : shortestFormat q = some f) (fuel : Nat)
    (rest : Bytes) :
    decodeItem (fuel + 1) (floatBytes f (f.bits q) ++ rest) = some (.float (.fin q), rest) := by
  have hmem : f ∈ formats := List.mem_of_find?_eq_some h
  have hexact := List.find?_some h
  simp only [decide_eq_true_eq] at hexact
  have hread (hlo : 24 ≤ f.info) (hhi : f.info < 28) :=
    readHead_wide (by decide : (7 : Nat) < 8) hlo hhi hexact.1 rest
  simp only [formats, List.mem_cons, List.not_mem_nil, or_false] at hmem
  rcases hmem with rfl | rfl | rfl
  all_goals
    rw [floatBytes, decodeItem, hread (by decide) (by decide)]
    simp only [simple, hexact.2, Option.map_some]

theorem decodeItem_encodeFloat (x : Double) (fuel : Nat) (rest : Bytes) :
    decodeItem (fuel + 8) (encodeFloat x ++ rest) = some (.float x, rest) := by
  have hspecial (bits : Nat) (hbits : bits < 256 ^ 2 ^ (25 - 24)) :
      decodeItem (fuel + 8) (UInt8.ofNat (32 * 7 + 25) :: BigEndian.bytes (2 ^ (25 - 24)) bits ++ rest)
        = some (.float (Format.ofBits ⟨25, 5, 10⟩ bits), rest) := by
    rw [decodeItem, readHead_wide (by decide) (by decide) (by decide) hbits rest]
    rfl
  cases x with
  | nan => exact hspecial 0x7e00 (by decide)
  | inf => exact hspecial 0x7c00 (by decide)
  | negInf => exact hspecial 0xfc00 (by decide)
  | negZero =>
    have hzero : Format.ofBits ⟨25, 5, 10⟩ 0x8000 = .negZero := by decide +kernel
    have hbits := hspecial 0x8000 (by decide)
    rwa [hzero] at hbits
  | fin q =>
    rw [encodeFloat]
    cases h : shortestFormat q with
    | some f => exact decodeItem_floatBytes h (fuel + 7) rest
    | none =>
      -- no format holds it: numerator and denominator under the tag of a fraction
      have hitems : decodeItems (fuel + 6) 2 (encodeInt q.num ++ (encodeInt q.den ++ rest)) =
          some ([.int q.num, .int q.den], rest) := by
        rw [decodeItems, decodeItem_encodeInt]
        dsimp only
        rw [decodeItems, decodeItem_encodeInt]
        rfl
      have hlist : decodeItem (fuel + 7) (head 4 2 ++ (encodeInt q.num ++ (encodeInt q.den ++ rest))) =
          some (.list [.int q.num, .int q.den], rest) := by
        obtain ⟨info, hread⟩ := readHead_head (by decide : (4 : Nat) < 8) 2
          (encodeInt q.num ++ (encodeInt q.den ++ rest))
        rw [decodeItem, hread]
        simp only [hitems, Option.map_some]
      dsimp only
      rw [List.append_assoc, List.append_assoc, List.append_assoc, decodeItem_tag 30 hlist]
      have hq : ((q.num : ℚ) / ((q.den : Int) : ℚ)) = q := by
        rw [Int.cast_natCast]
        exact Rat.num_div_den q
      simp only [tagged, hq]

mutual

/-- On one value, whatever follows it. -/
theorem decodeItem_encode (v : Value) (hv : v.plain = true) (fuel : Nat) (hfuel : weight v ≤ fuel)
    (rest : Bytes) : decodeItem fuel (encode v ++ rest) = some (v, rest) := by
  cases v with
  | null =>
    obtain ⟨fuel, rfl⟩ := Nat.exists_eq_add_of_le' hfuel
    rfl
  | bool b =>
    obtain ⟨fuel, rfl⟩ := Nat.exists_eq_add_of_le' hfuel
    cases b <;> rfl
  | int n =>
    obtain ⟨fuel, rfl⟩ := Nat.exists_eq_add_of_le' hfuel
    exact decodeItem_encodeInt n fuel rest
  | float x =>
    obtain ⟨fuel, rfl⟩ := Nat.exists_eq_add_of_le' hfuel
    exact decodeItem_encodeFloat x fuel rest
  | bytes b =>
    obtain ⟨fuel, rfl⟩ := Nat.exists_eq_add_of_le' hfuel
    exact decodeItem_bytes b (fuel + 1) rest
  | str s =>
    obtain ⟨fuel, rfl⟩ := Nat.exists_eq_add_of_le' hfuel
    obtain ⟨info, hread⟩ :=
      readHead_head (by decide : (3 : Nat) < 8) s.toByteArray.data.toList.length
      (s.toByteArray.data.toList ++ rest)
    show decodeItem (fuel + 1 + 1) _ = _
    rw [encode, List.append_assoc, decodeItem, hread]
    simp only [split_append, Option.bind_some, decodeText_toByteArray, Option.map_some]
  -- the fuel that is left after the head is what the elements weigh
  | list xs =>
    rw [weight, Nat.add_comm] at hfuel
    obtain ⟨fuel, rfl⟩ := Nat.exists_eq_add_of_le' (Nat.le_of_add_left_le hfuel)
    obtain ⟨info, hread⟩ :=
      readHead_head (by decide : (4 : Nat) < 8) xs.length (encode.encodes xs ++ rest)
    have hitems := decodeItems_encodes xs (by simpa using hv) fuel (by omega) rest
    rw [encode, List.append_assoc, decodeItem, hread]
    simp only [hitems, Option.map_some]
  | map keys vals => cases hv
  | set xs => cases hv
  | tag n v => cases hv
  | object o => cases hv

/-- On the elements of a list. -/
theorem decodeItems_encodes (xs : List Value) (hxs : xs.all Value.plain = true) (fuel : Nat)
    (hfuel : weight.weights xs ≤ fuel) (rest : Bytes) :
    decodeItems fuel xs.length (encode.encodes xs ++ rest) = some (xs, rest) := by
  cases xs with
  | nil => cases fuel <;> rfl
  | cons x xs =>
    rw [List.all_cons, Bool.and_eq_true] at hxs
    rw [weight.weights] at hfuel
    obtain ⟨fuel, rfl⟩ : ∃ k, fuel = k + 1 := ⟨fuel - 1, by omega⟩
    rw [encode.encodes, List.append_assoc, List.length_cons, decodeItems,
      decodeItem_encode x hxs.1 fuel (by omega)]
    simp only [decodeItems_encodes xs hxs.2 fuel (by omega), Option.map_some]

end

/-- With that much fuel a value is read back, whatever follows it. -/
def Decodes (fuel : Nat) (v : Value) : Prop :=
  ∀ more, fuel ≤ more → ∀ rest, decodeItem more (encode v ++ rest) = some (v, rest)

theorem decodes_plain {v : Value} (hv : v.plain = true) : Decodes (weight v) v :=
  fun more hmore rest => decodeItem_encode v hv more hmore rest

theorem Decodes.more {fuel more : Nat} {v : Value} (h : Decodes fuel v) (hmore : fuel ≤ more) :
    Decodes more v := fun k hk => h k (hmore.trans hk)

/-- A set of plain values is read back if they are listed in the order they are sent in. -/
theorem decodes_set {xs : List Value} (hxs : xs.all Value.plain = true)
    (hsorted : encode.sortedItems (encode.encodeEach xs) = encode.encodeEach xs)
    (hdistinct : Value.distinct xs = xs) : Decodes (weight (.list xs) + 1) (.set xs) := by
  have hflatten (ys : List Value) : (encode.encodeEach ys).flatten = encode.encodes ys := by
    induction ys with
    | nil => rfl
    | cons y ys ih => rw [encode.encodeEach, List.flatten_cons, ih, encode.encodes]
  intro more hmore rest
  obtain ⟨fuel, rfl⟩ := Nat.exists_eq_add_of_le' (Nat.le_of_add_left_le hmore)
  have hlist := decodeItem_encode (.list xs) (by simpa using hxs) fuel (by omega) rest
  have htag := decodeItem_tag 258 hlist
  have hset : tagged 258 (.list xs) = .set xs := congrArg Value.set hdistinct
  rw [hset, encode, ← List.append_assoc, ← List.append_assoc] at htag
  rw [encode, hsorted, hflatten, htag]

theorem decodeItems_of_decodes {xs : List Value} {fuel more : Nat}
    (h : ∀ x ∈ xs, Decodes fuel x) (hmore : fuel + xs.length ≤ more) (rest : Bytes) :
    decodeItems more xs.length (encode.encodes xs ++ rest) = some (xs, rest) := by
  induction xs generalizing more with
  | nil => cases more <;> rfl
  | cons x xs ih =>
    rw [List.length_cons] at hmore
    obtain ⟨k, rfl⟩ : ∃ k, more = k + 1 := ⟨more - 1, by omega⟩
    rw [encode.encodes, List.append_assoc, List.length_cons, decodeItems,
      h x List.mem_cons_self k (by omega)]
    simp only [ih (fun y hy => h y (List.mem_cons_of_mem _ hy)) (by omega : fuel + xs.length ≤ k),
      Option.map_some]

/-- A list is read back where its elements are. -/
theorem loads_list {xs : List Value} (fuel : Nat) (h : ∀ x ∈ xs, Decodes fuel x)
    (hfuel : fuel + xs.length < 4 * (encode (.list xs)).length) :
    loads (encode (.list xs)) = .ok (.list xs) := by
  obtain ⟨k, hk⟩ : ∃ k, 4 * (encode (.list xs)).length = k + 1 :=
    Nat.exists_eq_add_of_lt (Nat.zero_le _ |>.trans_lt hfuel) |>.imp fun k hk => by omega
  obtain ⟨info, hread⟩ :=
    readHead_head (by decide : (4 : Nat) < 8) xs.length (encode.encodes xs ++ [])
  have hitems := decodeItems_of_decodes h (by omega : fuel + xs.length ≤ k) []
  have hitem : decodeItem (k + 1) (encode (.list xs)) = some (.list xs, []) := by
    rw [encode, ← List.append_nil (encode.encodes xs), decodeItem, hread]
    simp only [hitems, Option.map_some]
  rw [loads, hk, hitem]

/-! ## Enough fuel -/

theorem length_head_pos (major n : Nat) : 1 ≤ (head major n).length := by
  unfold head
  split_ifs <;> simp

theorem length_head_append_pos (major n : Nat) (bs : Bytes) :
    1 ≤ (head major n ++ bs).length := by
  rw [List.length_append]
  exact Nat.le_add_right_of_le (length_head_pos major n)

theorem length_encodeInt_pos (n : Int) : 1 ≤ (encodeInt n).length := by
  unfold encodeInt encodeNat
  split_ifs
  · exact length_head_pos _ _
  · rw [List.append_assoc]
    exact length_head_append_pos 6 2 _
  · exact length_head_pos _ _
  · rw [List.append_assoc]
    exact length_head_append_pos 6 3 _

/-- One byte pays for a scalar. -/
theorem two_lt_of_pos {bs : Bytes} (h : 1 ≤ bs.length) : 2 < 4 * bs.length :=
  Nat.lt_of_lt_of_le (by decide) (Nat.mul_le_mul_left 4 h)

theorem length_encodeFloat (x : Double) : 3 ≤ (encodeFloat x).length := by
  cases x with
  | fin q =>
    rw [encodeFloat]
    cases h : shortestFormat q with
    | some f =>
      have hmem : f ∈ formats := List.mem_of_find?_eq_some h
      simp only [formats, List.mem_cons, List.not_mem_nil, or_false] at hmem
      rcases hmem with rfl | rfl | rfl <;> simp [floatBytes]
    | none =>
      have h1 := length_head_pos 4 2
      have h2 := length_encodeInt_pos q.num
      have h3 := length_head_pos 6 30
      simp only [List.length_append]
      omega
  | _ => exact le_rfl

mutual

theorem weight_lt (v : Value) (hv : v.plain = true) : weight v < 4 * (encode v).length := by
  cases v with
  | null => decide
  | bool b => cases b <;> decide
  | int n => exact two_lt_of_pos (length_encodeInt_pos n)
  | float x =>
    show 8 < 4 * (encodeFloat x).length
    exact Nat.lt_of_lt_of_le (by decide) (Nat.mul_le_mul_left 4 (length_encodeFloat x))
  | bytes b => exact two_lt_of_pos (length_head_append_pos 2 b.length b)
  | str s => exact two_lt_of_pos (length_head_append_pos 3 _ _)
  | list xs =>
    have hhead := length_head_pos 4 xs.length
    have hitems := weights_le xs (by simpa using hv)
    rw [weight, encode, List.length_append]
    omega
  | map keys vals => cases hv
  | set xs => cases hv
  | tag n v => cases hv
  | object o => cases hv

theorem weights_le (xs : List Value) (hxs : xs.all Value.plain = true) :
    weight.weights xs ≤ 4 * (encode.encodes xs).length := by
  cases xs with
  | nil => exact Nat.zero_le _
  | cons x xs =>
    rw [List.all_cons, Bool.and_eq_true] at hxs
    have hx := weight_lt x hxs.1
    have hrest := weights_le xs hxs.2
    rw [weight.weights, encode.encodes, List.length_append]
    omega

end

theorem encode_ne_nil {v : Value} (hv : v.plain = true) : encode v ≠ [] := by
  have hweight := weight_lt v hv
  intro hnil
  rw [hnil] at hweight
  cases hweight

theorem loads_encode (v : Value) (hv : v.plain = true) : loads (encode v) = .ok v := by
  have hfuel := weight_lt v hv
  have hdecode := decodeItem_encode v hv (4 * (encode v).length) hfuel.le []
  rw [List.append_nil] at hdecode
  rw [loads, hdecode]

/-! ## What is encoded -/

theorem formeds_eq_all (xs : List Value) : formed.formeds xs = xs.all formed := by
  induction xs with
  | nil => rfl
  | cons x xs ih => rw [formed.formeds, List.all_cons, ih]

mutual

theorem formed_of_plain (v : Value) (hv : v.plain = true) : formed v = true := by
  cases v with
  | list xs => exact formeds_of_plain xs (by simpa using hv)
  | map keys vals => cases hv
  | set xs => cases hv
  | tag n v => cases hv
  | object o => cases hv
  | _ => rfl

theorem formeds_of_plain (xs : List Value) (hxs : xs.all Value.plain = true) :
    formed.formeds xs = true := by
  cases xs with
  | nil => rfl
  | cons x xs =>
    rw [List.all_cons, Bool.and_eq_true] at hxs
    rw [formed.formeds, formed_of_plain x hxs.1, formeds_of_plain xs hxs.2, Bool.and_self]

end

theorem dumps_of_formed {v : Value} (hv : formed v = true) : dumps v = .ok (encode v) := if_pos hv

theorem dumps_iff {v : Value} : (∃ data, dumps v = .ok data) ↔ formed v = true := by
  unfold dumps
  split_ifs with h
  · exact iff_of_true ⟨_, rfl⟩ h
  · exact iff_of_false (fun ⟨_, hdata⟩ => nomatch hdata) h

theorem dumps_list_iff (xs : List Value) :
    (∃ data, dumps (.list xs) = .ok data) ↔ ∀ x ∈ xs, ∃ data, dumps x = .ok data := by
  simp only [dumps_iff, formed, formeds_eq_all, List.all_eq_true]

end Cbor
