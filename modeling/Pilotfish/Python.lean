import Pilotfish.Binary64
import Mathlib.Data.Nat.Digits.Lemmas
import Mathlib.Data.List.Lex
import Mathlib.Data.List.Sort
import Mathlib.Data.Set.List
import Mathlib.Data.String.Basic
import Mathlib.Order.WithBot

/-!
# Python values

The objects that travel between the wire and the program: what `==`, `<=`, `len`, indexing,
iteration, formatting and `int` do on them, and the exceptions they raise. Fields of a decoded
message are not checked, so every operation is total on values and fails the way Python does.

Numbers are exact: a float is the rational it denotes, the sign of zero and the three
non-finite values apart, so an integer and a float compare as Python compares them.
Texts that are parsed or printed digit by digit are lists of characters.

Results:
1. `parseInt_intText`: `int` reads back what `str` prints of an integer, with the line end.
2. `parseInt_text`: a line that reads as an integer holds no other number.
3. `eq_str_iff`: what equals a string is that string.
4. `le_of_rank`, `lt_of_rank`: numbers compare as in a linear order, `nan` apart.
5. `fromhex_hex`: the digits of a digest give its bytes back.
-/

namespace Python

abbrev Bytes := List UInt8

/-! ## Exceptions -/

/-- The class of an exception; `user` is a class some module defines. -/
inductive ExcClass
  | TypeError | ValueError | IndexError | KeyError | OverflowError | OSError | AttributeError
  | ZeroDivisionError | NotImplementedError
  | user (name : String)
deriving DecidableEq, Repr

/-- An exception, as the language and the packages raise them: with a text for its message. -/
structure Exc where
  cls : ExcClass
  message : String
deriving DecidableEq, Repr

/-- `type(exc).__name__`. -/
def Exc.name (e : Exc) : String :=
  match e.cls with
  | .TypeError => "TypeError"
  | .ValueError => "ValueError"
  | .IndexError => "IndexError"
  | .KeyError => "KeyError"
  | .OverflowError => "OverflowError"
  | .OSError => "OSError"
  | .AttributeError => "AttributeError"
  | .ZeroDivisionError => "ZeroDivisionError"
  | .NotImplementedError => "NotImplementedError"
  | .user name => name

/-- A sequence of calls that returns: each of them returned. -/
theorem bind_eq_ok_iff {ε α β : Type} {x : Except ε α} {f : α → Except ε β} {b : β} :
    (x >>= f) = .ok b ↔ ∃ a, x = .ok a ∧ f a = .ok b := by
  cases x with
  | error e => exact ⟨fun h => (nomatch h), fun ⟨_, h, _⟩ => (nomatch h)⟩
  | ok a => exact ⟨fun h => ⟨a, rfl, h⟩, fun ⟨_, h, hf⟩ => by cases h; exact hf⟩

theorem isOk_iff {ε α : Type} {x : Except ε α} : x.isOk = true ↔ ∃ a, x = .ok a := by
  cases x with
  | error e => exact ⟨fun h => (nomatch h), fun ⟨_, h⟩ => (nomatch h)⟩
  | ok a => exact ⟨fun _ => ⟨a, rfl⟩, fun _ => rfl⟩

theorem map_eq_ok_iff {ε α β : Type} {x : Except ε α} {f : α → β} {b : β} :
    x.map f = .ok b ↔ ∃ a, x = .ok a ∧ f a = b := by
  cases x with
  | error e => exact ⟨fun h => (nomatch h), fun ⟨_, h, _⟩ => (nomatch h)⟩
  | ok a => exact ⟨fun h => ⟨a, rfl, Except.ok.inj h⟩, fun ⟨_, h, hf⟩ => by cases h; rw [← hf]; rfl⟩

/-- Raise on a condition. -/
def raiseIf (condition : Bool) (e : Exc) : Except Exc Unit := if condition then .error e else .ok ()

@[simp] theorem raiseIf_eq_ok_iff {condition : Bool} {e : Exc} {u : Unit} :
    raiseIf condition e = .ok u ↔ condition = false := by
  cases condition <;> simp [raiseIf]

/-! ## Numbers -/

/-- A float. `fin` holds the number it denotes; zero with a minus sign is apart. -/
inductive Double
  | fin (q : ℚ) | negZero | inf | negInf | nan
deriving DecidableEq

/-- `x == y`. -/
def Double.eq : Double → Double → Bool
  | .nan, _ => false
  | _, .nan => false
  | .inf, .inf => true
  | .negInf, .negInf => true
  | .fin p, .fin q => p == q
  | .fin p, .negZero => p == 0
  | .negZero, .fin q => q == 0
  | .negZero, .negZero => true
  | _, _ => false

/-- `x < y`; nothing is less or greater than `nan`. -/
def Double.lt : Double → Double → Bool
  | .nan, _ => false
  | _, .nan => false
  | .negInf, y => y != .negInf
  | _, .negInf => false
  | x, .inf => x != .inf
  | .inf, _ => false
  | .fin p, .fin q => p < q
  | .fin p, .negZero => p < 0
  | .negZero, .fin q => 0 < q
  | .negZero, .negZero => false

/-- `x <= y`. -/
def Double.le (x y : Double) : Bool := x.lt y || x.eq y

theorem Double.lt_irrefl (x : Double) : x.lt x ≠ true := by
  cases x <;> simp [Double.lt]

/-- The place of a float among the others; `nan` has none. -/
def Double.rank : Double → Option (WithBot (WithTop ℚ))
  | .fin q => some ((q : WithTop ℚ) : WithBot (WithTop ℚ))
  | .negZero => some 0
  | .inf => some ⊤
  | .negInf => some ⊥
  | .nan => none

section Rank
variable {x y : Double} {a b : WithBot (WithTop ℚ)} (hx : x.rank = some a) (hy : y.rank = some b)
include hx hy

theorem Double.lt_of_rank : x.lt y = decide (a < b) := by
  have hfin (q : ℚ) : ((q : WithTop ℚ) : WithBot (WithTop ℚ)) < ⊤ :=
    WithBot.coe_lt_coe.mpr (WithTop.coe_lt_top q)
  have hzero : (0 : WithBot (WithTop ℚ)) < ⊤ := hfin 0
  cases x <;> cases y <;> simp only [Double.rank, Option.some.injEq, reduceCtorEq] at hx hy <;>
    subst hx hy <;> simp [Double.lt, hfin, hzero]

theorem Double.le_of_rank : x.le y = decide (a ≤ b) := by
  have hzero : (0 : WithBot (WithTop ℚ)) < ⊤ := WithBot.coe_lt_coe.mpr (WithTop.coe_lt_top 0)
  rw [Double.le, Double.lt_of_rank hx hy]
  cases x <;> cases y <;> simp only [Double.rank, Option.some.injEq, reduceCtorEq] at hx hy <;>
    subst hx hy <;> simp [Double.eq, le_iff_lt_or_eq, beq_eq_decide, hzero, hzero.ne, hzero.ne']

end Rank

theorem Double.rank_of_ne_nan {x : Double} (h : x ≠ .nan) : ∃ a, x.rank = some a := by
  cases x with
  | nan => exact absurd rfl h
  | _ => exact ⟨_, rfl⟩

/-! ## Decimal texts -/

def digitChar (d : Nat) : Char := Char.ofNat (48 + d)

/-- The digit a character stands for. -/
def digitValue (c : Char) : Option Nat :=
  if 48 ≤ c.toNat ∧ c.toNat ≤ 57 then some (c.toNat - 48) else none

/-- The decimal digits of a natural number, most significant first. -/
def decimal (n : Nat) : List Char :=
  if n = 0 then ['0'] else (Nat.digits 10 n).reverse.map digitChar

/-- `str` of an integer. -/
def intText (n : Int) : List Char :=
  if n < 0 then '-' :: decimal n.natAbs else decimal n.natAbs

def isSpace (c : Char) : Bool := c.isWhitespace || c == '\x0b' || c == '\x0c'

/-- `text.strip()`. -/
def strip (text : List Char) : List Char :=
  ((text.dropWhile isSpace).reverse.dropWhile isSpace).reverse

/-- Digits, single underscores allowed between them. -/
def parseDigits (acc : Nat) : List Char → Option Nat
  | [] => some acc
  | '_' :: c :: cs => (digitValue c).bind fun d => parseDigits (10 * acc + d) cs
  | c :: cs => (digitValue c).bind fun d => parseDigits (10 * acc + d) cs

def parseNat : List Char → Option Nat
  | [] => none
  | c :: cs => (digitValue c).bind fun d => parseDigits d cs

/-- The integer a text stands for. -/
def parseInt (text : List Char) : Option Int :=
  match strip text with
  | '-' :: cs => (parseNat cs).map fun n : Nat => -(n : Int)
  | '+' :: cs => (parseNat cs).map Int.ofNat
  | cs => (parseNat cs).map Int.ofNat

/-- The most digits an integer is printed with or read from. -/
@[irreducible] def maxDigits : Nat := 4300

/-- `int(text)`, where it returns: a sign and underscores are no digits, leading zeros are. -/
def intOf? (text : List Char) : Option Int :=
  if text.countP (fun c => (digitValue c).isSome) ≤ maxDigits then parseInt text else none

/-! ### Reading back what was printed -/

theorem digitValue_digitChar : ∀ d < 10, digitValue (digitChar d) = some d := by decide

theorem digitChar_ne : ∀ d < 10, digitChar d ≠ '_' ∧ digitChar d ≠ '-' ∧ digitChar d ≠ '+' ∧
    isSpace (digitChar d) = false := by decide

theorem parseDigits_append (acc : Nat) (ds : List Nat) (h : ∀ d ∈ ds, d < 10) :
    parseDigits acc (ds.map digitChar) = some (ds.foldl (fun a d => 10 * a + d) acc) := by
  induction ds generalizing acc with
  | nil => rfl
  | cons d ds ih =>
    have hd := h d List.mem_cons_self
    have hne := (digitChar_ne d hd).1
    rw [List.map_cons, List.foldl_cons, ← ih _ fun x hx => h x (List.mem_cons_of_mem _ hx)]
    rw [parseDigits]
    · rw [digitValue_digitChar d hd]
      rfl
    -- the branch for an underscore is not taken
    · rintro c cs heq -
      exact hne heq

theorem decimal_digits (n : Nat) : ∃ (d : Nat) (ds : List Nat), d < 10 ∧ (∀ x ∈ ds, x < 10) ∧
    decimal n = digitChar d :: ds.map digitChar ∧ ds.foldl (fun a d => 10 * a + d) d = n := by
  by_cases hn : n = 0
  · exact ⟨0, [], by omega, by simp, by simp [decimal, hn, digitChar], hn.symm⟩
  · have hlt : ∀ x ∈ (Nat.digits 10 n).reverse, x < 10 := fun x hx =>
      Nat.digits_lt_base (by omega) (List.mem_reverse.mp hx)
    have hval : (Nat.digits 10 n).reverse.foldl (fun a d => 10 * a + d) 0 = n := by
      rw [List.foldl_reverse]
      conv_rhs => rw [← Nat.ofDigits_digits 10 n, Nat.ofDigits_eq_foldr]
      simp [Nat.add_comm]
    have hnil : (Nat.digits 10 n).reverse ≠ [] := by
      simpa using Nat.digits_ne_nil_iff_ne_zero.mpr hn
    obtain ⟨d, ds, hcons⟩ := List.exists_cons_of_ne_nil hnil
    rw [hcons] at hlt hval
    exact ⟨d, ds, hlt d List.mem_cons_self, fun x hx => hlt x (List.mem_cons_of_mem _ hx),
      by simp [decimal, hn, hcons], by simpa using hval⟩

theorem parseNat_decimal (n : Nat) : parseNat (decimal n) = some n := by
  obtain ⟨d, ds, hd, hds, hdec, hval⟩ := decimal_digits n
  rw [hdec, parseNat, digitValue_digitChar d hd, Option.bind_some, parseDigits_append d ds hds, hval]

/-- No character of a printed integer is white space. -/
theorem isSpace_intText (n : Int) : ∀ c ∈ intText n, isSpace c = false := by
  have hdec : ∀ c ∈ decimal n.natAbs, isSpace c = false := by
    obtain ⟨d, ds, hd, hds, hdec, -⟩ := decimal_digits n.natAbs
    rw [hdec]
    intro c hc
    rcases List.mem_cons.mp hc with rfl | hc
    · exact (digitChar_ne d hd).2.2.2
    · obtain ⟨x, hx, rfl⟩ := List.mem_map.mp hc
      exact (digitChar_ne x (hds x hx)).2.2.2
  intro c hc
  unfold intText at hc
  split_ifs at hc
  · rcases List.mem_cons.mp hc with rfl | hc
    · decide
    · exact hdec c hc
  · exact hdec c hc

theorem dropWhile_isSpace {text : List Char} (h : ∀ c ∈ text, isSpace c = false) :
    text.dropWhile isSpace = text := by
  cases text with
  | nil => rfl
  | cons c cs => simp [h c List.mem_cons_self]

theorem strip_of_no_space {text : List Char} (h : ∀ c ∈ text, isSpace c = false) :
    strip text = text := by
  rw [strip, dropWhile_isSpace h,
    dropWhile_isSpace fun c hc => h c (List.mem_reverse.mp hc), List.reverse_reverse]

theorem strip_append_newline {text : List Char} (hne : text ≠ [])
    (h : ∀ c ∈ text, isSpace c = false) : strip (text ++ ['\n']) = text := by
  obtain ⟨c, cs, rfl⟩ := List.exists_cons_of_ne_nil hne
  have hfront : (c :: cs ++ ['\n']).dropWhile isSpace = c :: cs ++ ['\n'] := by
    simp [h c List.mem_cons_self]
  have hnl : isSpace '\n' = true := by decide
  rw [strip, hfront, List.reverse_append, List.reverse_singleton, List.singleton_append,
    List.dropWhile_cons_of_pos hnl,
    dropWhile_isSpace fun x hx => h x (List.mem_reverse.mp hx), List.reverse_reverse]

/-- What is printed of an integer with a line end is read back as that integer. -/
theorem parseInt_intText (n : Int) : parseInt (strip (intText n ++ ['\n'])) = some n := by
  have hne : intText n ≠ [] := by
    obtain ⟨d, ds, -, -, hdec, -⟩ := decimal_digits n.natAbs
    unfold intText
    split_ifs <;> simp [hdec]
  rw [strip_append_newline hne (isSpace_intText n), parseInt,
    strip_of_no_space (isSpace_intText n)]
  -- the first digit is no sign, so the sign that was printed decides the branch
  obtain ⟨d, ds, hd, -, hdec, -⟩ := decimal_digits n.natAbs
  obtain ⟨-, hminus, hplus, -⟩ := digitChar_ne d hd
  by_cases hn : n < 0
  · rw [intText, if_pos hn]
    show (parseNat (decimal n.natAbs)).map (fun m : Nat => -(m : Int)) = some n
    rw [parseNat_decimal, Option.map_some, Option.some.injEq]
    omega
  · rw [intText, if_neg hn]
    have hparse := parseNat_decimal n.natAbs
    rw [hdec] at hparse ⊢
    split
    · next heq => exact absurd (List.cons.inj heq).1 hminus
    · next heq => exact absurd (List.cons.inj heq).1 hplus
    · rw [hparse]
      simp only [Option.map_some, Option.some.injEq]
      exact Int.natAbs_of_nonneg (by omega)

theorem parseInt_of_intOf? {text : List Char} {n : Int} (h : intOf? text = some n) :
    parseInt text = some n := by
  unfold intOf? at h
  split_ifs at h
  exact h

/-- No more digits are printed than the limit of the number allows. -/
theorem length_decimal_le {n k : Nat} (hk : 0 < k) (h : n < 10 ^ k) : (decimal n).length ≤ k := by
  unfold decimal
  split_ifs with hn
  · exact hk
  · rw [List.length_map, List.length_reverse]
    exact (Nat.digits_length_le_iff (by decide) n).mpr h

/-- An integer within the limit is read back from its line. -/
theorem intOf?_intText {n : Int} (h : n.natAbs < 10 ^ maxDigits) :
    intOf? (strip (intText n ++ ['\n'])) = some n := by
  have hdecimal : (decimal n.natAbs).countP (fun c => (digitValue c).isSome) ≤ maxDigits :=
    List.countP_le_length.trans (length_decimal_le (by decide +kernel) h)
  have hcount : (intText n).countP (fun c => (digitValue c).isSome) ≤ maxDigits := by
    have hminus : (digitValue '-').isSome = false := by decide
    unfold intText
    split_ifs
    · rwa [List.countP_cons_of_neg (by simp [hminus])]
    · exact hdecimal
  have hne : intText n ≠ [] := by
    obtain ⟨d, ds, -, -, hdec, -⟩ := decimal_digits n.natAbs
    unfold intText
    split_ifs <;> simp [hdec]
  have hparse := parseInt_intText n
  rw [strip_append_newline hne (isSpace_intText n)] at hparse ⊢
  rw [intOf?, if_pos hcount, hparse]

/-! ### Texts that are no integers -/

/-- A character that may stand in the text of an integer. -/
def intChar (c : Char) : Bool :=
  isSpace c || c == '_' || c == '-' || c == '+' || (digitValue c).isSome

theorem mem_dropWhile_isSpace {c : Char} {text : List Char} (hc : c ∈ text)
    (h : isSpace c = false) : c ∈ text.dropWhile isSpace := by
  induction text with
  | nil => cases hc
  | cons d text ih =>
    rw [List.dropWhile_cons]
    split_ifs with hd
    · rcases List.mem_cons.mp hc with rfl | hc
      · rw [h] at hd
        cases hd
      · exact ih hc
    · exact hc

theorem mem_strip {c : Char} {text : List Char} (hc : c ∈ text) (h : isSpace c = false) :
    c ∈ strip text :=
  List.mem_reverse.mpr
    (mem_dropWhile_isSpace (List.mem_reverse.mpr (mem_dropWhile_isSpace hc h)) h)

theorem parseDigits_eq_none {c : Char} {text : List Char} (acc : Nat) (hc : c ∈ text)
    (hunder : c ≠ '_') (hdigit : digitValue c = none) : parseDigits acc text = none := by
  -- the digit at the head is none, or the character is further down
  have hhead {d : Char} {rest : List Char} {f : Nat → Option Nat} (hd : c ∈ d :: rest)
      (hf : c ∈ rest → ∀ k, f k = none) : (digitValue d).bind f = none := by
    rcases List.mem_cons.mp hd with rfl | hrest
    · rw [hdigit, Option.bind_none]
    · cases digitValue d with
      | none => rfl
      | some k => exact hf hrest k
  induction acc, text using parseDigits.induct with
  | case1 acc => cases hc
  | case2 acc d cs ih =>
    rw [parseDigits]
    exact hhead ((List.mem_cons.mp hc).resolve_left hunder) fun hrest k => ih k hrest
  | case3 acc d cs hne ih =>
    rw [parseDigits]
    · exact hhead hc fun hrest k => ih k hrest
    · exact hne

theorem parseNat_eq_none {c : Char} {text : List Char} (hc : c ∈ text) (hunder : c ≠ '_')
    (hdigit : digitValue c = none) : parseNat text = none := by
  cases text with
  | nil => cases hc
  | cons d cs =>
    rw [parseNat]
    rcases List.mem_cons.mp hc with rfl | hrest
    · rw [hdigit, Option.bind_none]
    · cases digitValue d with
      | none => rfl
      | some k => exact parseDigits_eq_none k hrest hunder hdigit

/-- A text with a character that no integer is printed with is no integer. -/
theorem parseInt_eq_none {c : Char} {text : List Char} (hc : c ∈ text) (h : intChar c = false) :
    parseInt text = none := by
  simp only [intChar, Bool.or_eq_false_iff, beq_eq_false_iff_ne, Option.isSome_eq_false_iff,
    Option.isNone_iff_eq_none] at h
  obtain ⟨⟨⟨⟨hspace, hunder⟩, hminus⟩, hplus⟩, hdigit⟩ := h
  have hmem := mem_strip hc hspace
  unfold parseInt
  split
  · next cs heq =>
    rw [heq] at hmem
    rw [parseNat_eq_none ((List.mem_cons.mp hmem).resolve_left hminus) hunder hdigit,
      Option.map_none]
  · next cs heq =>
    rw [heq] at hmem
    rw [parseNat_eq_none ((List.mem_cons.mp hmem).resolve_left hplus) hunder hdigit,
      Option.map_none]
  · rw [parseNat_eq_none hmem hunder hdigit, Option.map_none]

/-! ## Printing floats -/

/-- The least number of significant digits, at most 17, that reads back as `q`: the digits as
an integer and the exponent of their last place. -/
def shortest (q : ℚ) : Nat × Int :=
  let top := Int.log 10 q
  let digits (p : Nat) : Int := Binary64.roundHalfEven (q / 10 ^ (top - p + 1))
  let p := ((List.range' 1 16).find? fun p =>
    Binary64.round (digits p * 10 ^ (top - p + 1)) = q).getD 17
  ((digits p).toNat, top - p + 1)

/-- `repr` of a positive float. -/
def positiveText (q : ℚ) : List Char :=
  let (n, exp) := shortest q
  let point : Int := (decimal n).length + exp
  let digits := (decimal n).reverse.dropWhile (· == '0') |>.reverse
  if -4 < point ∧ point ≤ 16 then
    if point ≤ 0 then '0' :: '.' :: List.replicate (-point).toNat '0' ++ digits
    else if digits.length ≤ point then
      digits ++ List.replicate (point.toNat - digits.length) '0' ++ ['.', '0']
    else digits.take point.toNat ++ '.' :: digits.drop point.toNat
  else
    let mantissa := if digits.length ≤ 1 then digits else digits.take 1 ++ '.' :: digits.drop 1
    let sign := if point - 1 < 0 then '-' else '+'
    let exponent := decimal (point - 1).natAbs
    mantissa ++ 'e' :: sign :: (if exponent.length < 2 then '0' :: exponent else exponent)

/-- `repr` of a float. -/
def Double.text : Double → List Char
  | .nan => ['n', 'a', 'n']
  | .inf => ['i', 'n', 'f']
  | .negInf => ['-', 'i', 'n', 'f']
  | .negZero => ['-', '0', '.', '0']
  | .fin q =>
      if q = 0 then ['0', '.', '0']
      else if q < 0 then '-' :: positiveText (-q) else positiveText q

/-- A printed float shows a point or an exponent. -/
theorem point_mem_positiveText (q : ℚ) : '.' ∈ positiveText q ∨ 'e' ∈ positiveText q := by
  unfold positiveText
  dsimp only
  split_ifs <;> simp

theorem point_mem_text (q : ℚ) : '.' ∈ (Double.fin q).text ∨ 'e' ∈ (Double.fin q).text := by
  simp only [Double.text]
  split_ifs
  · exact .inl (by simp)
  · exact (point_mem_positiveText (-q)).imp (List.mem_cons_of_mem _) (List.mem_cons_of_mem _)
  · exact point_mem_positiveText q

/-! ## Comprehensions -/

/-- A comprehension over encoded elements, each of which decodes to a changed one. -/
theorem mapM_map_eq {ε α β γ δ : Type} {f : β → Except ε γ} {g : α → β} {h : α → Except ε δ}
    {k : δ → γ} (hfg : ∀ a, f (g a) = (h a).map k) (xs : List α) :
    (xs.map g).mapM f = (xs.mapM h).map (List.map k) := by
  induction xs with
  | nil => rfl
  | cons x xs ih =>
    rw [List.map_cons, List.mapM_cons, List.mapM_cons, hfg, ih]
    cases h x with
    | error e => rfl
    | ok y => cases xs.mapM h <;> rfl

theorem mapM_map_ok {ε α β γ : Type} {f : β → Except ε γ} {g : α → β} {k : α → γ}
    (hfg : ∀ a, f (g a) = .ok (k a)) (xs : List α) : (xs.map g).mapM f = .ok (xs.map k) := by
  induction xs with
  | nil => rfl
  | cons x xs ih =>
    rw [List.map_cons, List.mapM_cons, hfg, ih]
    rfl

theorem mapM_map_some {α β : Type} {f : β → Option α} {g : α → β} (hfg : ∀ a, f (g a) = some a)
    (xs : List α) : (xs.map g).mapM f = some xs := by
  induction xs with
  | nil => rfl
  | cons x xs ih => simp [hfg, ih]

/-- A comprehension that returned evaluated each of its elements. -/
theorem mapM_eq_ok_iff {ε α β : Type} {f : α → Except ε β} {xs : List α} {ys : List β} :
    xs.mapM f = .ok ys ↔ List.Forall₂ (fun x y => f x = .ok y) xs ys := by
  induction xs generalizing ys with
  | nil => cases ys <;> simp [pure, Except.pure]
  | cons x xs ih =>
    rw [List.mapM_cons, bind_eq_ok_iff]
    constructor
    · rintro ⟨y, hy, hrest⟩
      obtain ⟨ys', hys, hret⟩ := bind_eq_ok_iff.mp hrest
      cases hret
      exact .cons hy (ih.mp hys)
    · rintro (_ | ⟨hy, hys⟩)
      exact ⟨_, hy, bind_eq_ok_iff.mpr ⟨_, ih.mpr hys, rfl⟩⟩

/-- Each of its results is that of an element. -/
theorem exists_of_mem_forall₂ {α β : Type} {R : α → β → Prop} {xs : List α} {ys : List β} {y : β}
    (h : List.Forall₂ R xs ys) (hy : y ∈ ys) : ∃ x ∈ xs, R x y := by
  induction h with
  | nil => cases hy
  | cons hxy _ ih =>
    rcases List.mem_cons.mp hy with rfl | hy
    · exact ⟨_, List.mem_cons_self, hxy⟩
    · obtain ⟨x, hx, hxy⟩ := ih hy
      exact ⟨x, List.mem_cons_of_mem _ hx, hxy⟩

/-- It returns when each of them does. -/
theorem mapM_returns_iff {ε α β : Type} {f : α → Except ε β} {xs : List α} :
    (∃ ys, xs.mapM f = .ok ys) ↔ ∀ x ∈ xs, ∃ y, f x = .ok y := by
  induction xs with
  | nil => simp [pure, Except.pure]
  | cons x xs ih =>
    simp only [mapM_eq_ok_iff] at ih ⊢
    rw [List.forall_mem_cons, ← ih]
    constructor
    · rintro ⟨_, _ | ⟨hy, hys⟩⟩
      exact ⟨⟨_, hy⟩, _, hys⟩
    · rintro ⟨⟨y, hy⟩, ys, hys⟩
      exact ⟨y :: ys, .cons hy hys⟩

/-! ## Values -/

/-- An object that an encoder may have no form for: one of a class of its own, or a text with a
lone surrogate in it. A list or a dict that contains itself ends in one, past as much of it as is
looked at. -/
structure Object where
  typeName : String
  /-- What its class compares it by; the code points of a text. -/
  key : List Nat
  hashable : Bool
  ordered : Bool
  /-- Its `repr`. -/
  text : List Char
  /-- Whether that returns a text of characters. -/
  showable : Bool
deriving DecidableEq

/-- An object that a decoder or an adapter hands out. A dict is its keys and its values, in order; a
set is its elements, in the order they came in; lists and tuples are one thing; `tag` is the wrapper
of a tag the decoder has no type for. -/
inductive Value
  | null
  | bool (b : Bool)
  | int (n : Int)
  | float (x : Double)
  | bytes (b : Bytes)
  | str (s : String)
  | list (xs : List Value)
  | map (keys vals : List Value)
  | set (xs : List Value)
  | tag (n : Nat) (v : Value)
  | object (o : Object)

namespace Value

/-- `type(v).__name__`. -/
def typeName : Value → String
  | .null => "NoneType"
  | .bool _ => "bool"
  | .int _ => "int"
  | .float _ => "float"
  | .bytes _ => "bytes"
  | .str _ => "str"
  | .list _ => "list"
  | .map _ _ => "dict"
  | .set _ => "set"
  | .tag _ _ => "CBORTag"
  | .object o => o.typeName

def typeError {α : Type} (message : String) : Except Exc α := .error ⟨.TypeError, message⟩

/-- The number an object is, if it is one; `bool` is a kind of `int`. -/
def number : Value → Option Double
  | .bool b => some (.fin (if b then 1 else 0))
  | .int n => some (.fin n)
  | .float x => some x
  | _ => none

/-! ### Comparisons -/

/-- `v == w`. Dicts are equal when they are as long and each entry of one is one of the other, and
so are sets. -/
def eq : Value → Value → Bool
  | .null, .null => true
  | .str a, .str b => a == b
  | .bytes a, .bytes b => a == b
  | .list xs, .list ys => eqs xs ys
  | .map ks vs, .map ks' vs' => ks.length == ks'.length &&
      ((eqTable ks ks').zip (eqTable vs vs')).all fun (sameKey, sameValue) =>
        (sameKey.zip sameValue).any fun (k, v) => k && v
  | .set xs, .set ys => xs.length == ys.length && (eqTable xs ys).all fun row => row.any id
  | .tag n v, .tag m w => n == m && v.eq w
  | .object o, .object p => o.typeName == p.typeName && o.key == p.key
  | v, w =>
      match v.number, w.number with
      | some x, some y => x.eq y
      | _, _ => false
where
  eqs : List Value → List Value → Bool
    | [], [] => true
    | x :: xs, y :: ys => x.eq y && eqs xs ys
    | _, _ => false
  eqTable : List Value → List Value → List (List Bool)
    | [], _ => []
    | x :: xs, ys => ys.map x.eq :: eqTable xs ys

/-- The class in which an object that is no number has a place, and the place. -/
def place : Value → Option (String × List Nat)
  | .str s => some ("str", s.toList.map Char.toNat)
  | .object o => if o.ordered then some (o.typeName, o.key) else none
  | _ => none

/-- Whether one object comes before another of its class. -/
def before (v w : Value) : Option Bool :=
  match v.place, w.place with
  | some (cls, k), some (cls', k') => if cls = cls' then some (k < k') else none
  | _, _ => none

/-- `v < w`: numbers, texts, byte strings, lists of such element by element, sets by inclusion, and
objects of one class. -/
def lt : Value → Value → Except Exc Bool
  | .str a, .str b => .ok (a < b)
  | .bytes a, .bytes b => .ok (a < b)
  | .list xs, .list ys => lts xs ys
  | .set xs, .set ys => .ok (xs.length < ys.length && xs.all fun x => ys.any x.eq)
  | v, w =>
      match v.number, w.number with
      | some x, some y => .ok (x.lt y)
      | _, _ => (before v w).elim (typeError ("'<' not supported between instances of '" ++
          v.typeName ++ "' and '" ++ w.typeName ++ "'")) .ok
where lts : List Value → List Value → Except Exc Bool
  | _, [] => .ok false
  | [], _ :: _ => .ok true
  | x :: xs, y :: ys => if x.eq y then lts xs ys else x.lt y

/-- `v <= w` on numbers. -/
def le (v w : Value) : Except Exc Bool :=
  match v.number, w.number with
  | some x, some y => .ok (x.le y)
  | _, _ => typeError ("'<=' not supported between instances of '" ++ v.typeName ++
      "' and '" ++ w.typeName ++ "'")

/-- `v > w`, decided by the reflected comparison. -/
def gt (v w : Value) : Except Exc Bool :=
  match w.lt v with
  | .ok b => .ok b
  | .error _ => typeError ("'>' not supported between instances of '" ++ v.typeName ++
      "' and '" ++ w.typeName ++ "'")

/-- What the comparison of an element with an earlier one raises. -/
def unordered : List Value → Option Exc
  | [] => none
  | x :: xs =>
      (xs.findSome? fun y =>
        match y.lt x with
        | .error e => some e
        | .ok _ => none).or (unordered xs)

/-- `sorted(xs)`. A sort compares the neighbours of its result, so it raises when two elements
do not compare. -/
def sorted (xs : List Value) : Except Exc (List Value) :=
  match unordered xs with
  | some e => .error e
  | none => .ok (xs.insertionSort fun x y => y.lt x ≠ .ok true)

/-- Every element compares with the ones before it. -/
def Comparable (xs : List Value) : Prop := xs.Pairwise fun x y => ∃ b, y.lt x = .ok b

theorem unordered_eq_none {xs : List Value} : unordered xs = none ↔ Comparable xs := by
  induction xs with
  | nil => exact iff_of_true rfl .nil
  | cons x xs ih =>
    have hfirst : xs.findSome? (fun y =>
        match y.lt x with
        | .error e => some e
        | .ok _ => none) = none ↔ ∀ y ∈ xs, ∃ b, y.lt x = .ok b := by
      rw [List.findSome?_eq_none_iff]
      refine forall₂_congr ?_
      intro y _
      cases y.lt x <;> simp
    rw [unordered, Option.or_eq_none_iff, hfirst, ih, Comparable, Comparable, List.pairwise_cons]

theorem sorted_returns_iff {xs : List Value} : (∃ ys, sorted xs = .ok ys) ↔ Comparable xs := by
  rw [← unordered_eq_none, sorted]
  cases unordered xs <;> simp

theorem sorted_perm {xs ys : List Value} (h : sorted xs = .ok ys) : ys.Perm xs := by
  unfold sorted at h
  split at h
  · cases h
  · cases h
    exact List.perm_insertionSort _ xs

/-- Elements that all compare are sorted. -/
theorem sorted_ok {xs : List Value} (h : ∀ x ∈ xs, ∀ y ∈ xs, ∃ b, x.lt y = .ok b) :
    ∃ ys, sorted xs = .ok ys :=
  sorted_returns_iff.mpr (List.pairwise_of_forall_mem_list fun x hx y hy => h y hy x hx)

theorem lts_ok {xs ys : List Value} (h : List.Forall₂ (fun x y => ∃ b, x.lt y = .ok b) xs ys) :
    ∃ b, lt.lts xs ys = .ok b := by
  induction h with
  | nil => exact ⟨false, rfl⟩
  | cons hxy _ ih =>
    rw [lt.lts]
    split_ifs
    · exact ih
    · exact hxy

/-- Lists of texts compare, whatever their lengths. -/
theorem lts_str (a b : List String) : ∃ r, lt.lts (a.map .str) (b.map .str) = .ok r := by
  induction a generalizing b with
  | nil =>
    cases b with
    | nil => exact ⟨false, rfl⟩
    | cons y ys => exact ⟨true, rfl⟩
  | cons x xs ih =>
    cases b with
    | nil => exact ⟨false, rfl⟩
    | cons y ys =>
      simp only [List.map_cons, lt.lts]
      split_ifs
      · exact ih ys
      · exact ⟨_, rfl⟩

/-! ### Sorting -/

/-- Objects that compare as the elements of a linear order do. -/
structure Compares {κ : Type} [LinearOrder κ] (f : κ → Value) : Prop where
  eq : ∀ a b, (f a).eq (f b) = true ↔ a = b
  lt : ∀ a b, ∃ r, (f a).lt (f b) = .ok r ∧ (r = true ↔ a < b)

section Compares
variable {κ : Type} [LinearOrder κ] {f : κ → Value}

theorem compares_str : Compares Value.str where
  eq a b := by simp [Value.eq]
  lt a b := ⟨decide (a < b), rfl, decide_eq_true_iff⟩

theorem compares_bool : Compares Value.bool where
  eq a b := by cases a <;> cases b <;> decide
  lt a b := ⟨decide (a < b), by cases a <;> cases b <;> rfl, decide_eq_true_iff⟩

theorem Compares.injective (h : Compares f) : Function.Injective f := by
  intro a b hab
  refine (h.eq a b).mp ?_
  rw [hab]
  exact (h.eq b b).mpr rfl

/-- Tuples compare element by element. -/
theorem Compares.lts_cons (h : Compares f) (a b : κ) {xs ys : List Value} {less : Prop}
    (hrest : ∃ r, Value.lt.lts xs ys = .ok r ∧ (r = true ↔ less)) :
    ∃ r, Value.lt.lts (f a :: xs) (f b :: ys) = .ok r ∧ (r = true ↔ a < b ∨ a = b ∧ less) := by
  rw [Value.lt.lts]
  split_ifs with heq
  · have hab := (h.eq a b).mp heq
    simpa [hab] using hrest
  · have hab : a ≠ b := fun hab => heq ((h.eq a b).mpr hab)
    simpa [hab] using h.lt a b

theorem Compares.lts_last (h : Compares f) (a b : κ) :
    ∃ r, Value.lt.lts [f a] [f b] = .ok r ∧ (r = true ↔ a < b) := by
  have hempty : ∃ r, Value.lt.lts [] [] = .ok r ∧ (r = true ↔ False) := ⟨false, rfl, by simp⟩
  simpa using h.lts_cons a b hempty

theorem Compares.list (h : Compares f) : Compares fun as : List κ => .list (as.map f) where
  eq as bs := by
    show Value.eq.eqs _ _ = true ↔ _
    induction as generalizing bs with
    | nil => cases bs <;> simp [Value.eq.eqs]
    | cons a as ih =>
      cases bs with
      | nil => simp [Value.eq.eqs]
      | cons b bs => simp [Value.eq.eqs, h.eq, ih]
  lt as bs := by
    show ∃ r, Value.lt.lts _ _ = _ ∧ _
    induction as generalizing bs with
    | nil => cases bs <;> simp [Value.lt.lts]
    | cons a as ih =>
      cases bs with
      | nil => simp [Value.lt.lts]
      | cons b bs =>
        simp only [List.map_cons, List.cons_lt_cons_iff]
        exact h.lts_cons a b (ih bs)

theorem Compares.sorted_map (h : Compares f) (as : List κ) :
    Value.sorted (as.map f) = .ok ((as.insertionSort (· ≤ ·)).map f) := by
  have hcompare : Value.unordered (as.map f) = none := by
    refine Value.unordered_eq_none.mpr (List.pairwise_map.mpr (List.pairwise_of_forall ?_))
    intro a b
    obtain ⟨r, hr, -⟩ := h.lt b a
    exact ⟨r, hr⟩
  rw [Value.sorted, hcompare]
  refine congrArg Except.ok (List.map_insertionSort _ _ f as ?_).symm
  intro a _ b _
  obtain ⟨r, hr, hlt⟩ := h.lt b a
  rw [hr, ne_eq, Except.ok.injEq, hlt, not_lt]

/-- Such objects are sorted alike in whatever order they come. -/
theorem Compares.sorted_perm (h : Compares f) {xs : List Value} {as : List κ}
    (hperm : xs.Perm (as.map f)) : Value.sorted xs = Value.sorted (as.map f) := by
  obtain ⟨bs, rfl⟩ : xs ∈ Set.range (List.map f) := by
    rw [Set.range_list_map]
    intro x hx
    obtain ⟨b, -, hb⟩ := List.mem_map.mp (hperm.mem_iff.mp hx)
    exact ⟨b, hb⟩
  have hkeys : bs.Perm as := (List.map_perm_map_iff h.injective).mp hperm
  have hsorted : (bs.insertionSort (· ≤ ·)).Perm (as.insertionSort (· ≤ ·)) :=
    (List.perm_insertionSort _ bs).trans (hkeys.trans (List.perm_insertionSort _ as).symm)
  rw [h.sorted_map, h.sorted_map, hsorted.eq_of_pairwise' (List.pairwise_insertionSort _ bs)
    (List.pairwise_insertionSort _ as)]

end Compares

/-! ### Texts -/

def hexDigit (n : Nat) : Char := if n < 10 then Char.ofNat (48 + n) else Char.ofNat (87 + n)

/-- The quotes a text is shown in. -/
def quoteOf (cs : List Char) : Char := if cs.contains '\'' && !cs.contains '"' then '"' else '\''

/-- Every character from U+00A0 on counts as printable. -/
def escape (quote c : Char) : List Char :=
  if c = quote ∨ c = '\\' then ['\\', c]
  else if c = '\n' then ['\\', 'n']
  else if c = '\r' then ['\\', 'r']
  else if c = '\t' then ['\\', 't']
  else if c.toNat < 32 ∨ (127 ≤ c.toNat ∧ c.toNat < 160) then
    ['\\', 'x', hexDigit (c.toNat / 16), hexDigit (c.toNat % 16)]
  else [c]

/-- `repr` of a text. -/
def quoteText (cs : List Char) : List Char :=
  let quote := quoteOf cs
  quote :: cs.flatMap (escape quote) ++ [quote]

/-- `repr` of a text that is given by its code points. -/
def quoteCodes (codes : List Nat) : List Char :=
  let quote := quoteOf (codes.map Char.ofNat)
  let escapeCode (code : Nat) : List Char :=
    if code.isValidChar then escape quote (Char.ofNat code)
    else ['\\', 'u', hexDigit (code / 4096), hexDigit (code / 256 % 16), hexDigit (code / 16 % 16),
      hexDigit (code % 16)]
  quote :: codes.flatMap escapeCode ++ [quote]

/-- A text with a lone surrogate among its code points. -/
def surrogates (codes : List Nat) : Value :=
  .object ⟨"str", codes, true, true, quoteCodes codes, true⟩

/-- A text of one code point. -/
def ofCode (code : Nat) : Value :=
  if code.isValidChar then .str (String.singleton (Char.ofNat code)) else surrogates [code]

/-! ### Containers -/

/-- `iter(v)`, to its end. -/
def iter : Value → Except Exc (List Value)
  | .list xs => .ok xs
  | .str s => .ok (s.toList.map fun c => .str (String.singleton c))
  | .bytes b => .ok (b.map fun c => .int c.toNat)
  | .map keys _ => .ok keys
  | .set xs => .ok xs
  | .object o =>
      if o.typeName = "str" then .ok (o.key.map ofCode)
      else typeError ("'" ++ o.typeName ++ "' object is not iterable")
  | v => typeError ("'" ++ v.typeName ++ "' object is not iterable")

/-- `len(v)`. -/
def len : Value → Except Exc Nat
  | .list xs => .ok xs.length
  | .str s => .ok s.length
  | .bytes b => .ok b.length
  | .map keys _ => .ok keys.length
  | .set xs => .ok xs.length
  | .object o =>
      if o.typeName = "str" then .ok o.key.length
      else typeError ("object of type '" ++ o.typeName ++ "' has no len()")
  | v => typeError ("object of type '" ++ v.typeName ++ "' has no len()")

/-- The value a dict holds under a key. -/
def lookup (key : Value) : List Value → List Value → Option Value
  | k :: ks, v :: vs => if k.eq key then some v else lookup key ks vs
  | _, _ => none

/-- `v[i]` for a constant index. -/
def getItem (v : Value) (i : Nat) : Except Exc Value :=
  match v with
  | .list xs => (xs[i]?).elim (.error ⟨.IndexError, "list index out of range"⟩) .ok
  | .str s => (s.toList[i]?).elim (.error ⟨.IndexError, "string index out of range"⟩)
      fun c => .ok (.str (String.singleton c))
  | .bytes b => (b[i]?).elim (.error ⟨.IndexError, "index out of range"⟩)
      fun c => .ok (.int c.toNat)
  | .map keys vals => (lookup (.int i) keys vals).elim
      (.error ⟨.KeyError, String.ofList (decimal i)⟩) .ok
  | .object o =>
      if o.typeName = "str" then
        (o.key[i]?).elim (.error ⟨.IndexError, "string index out of range"⟩) fun c => .ok (ofCode c)
      else typeError ("'" ++ o.typeName ++ "' object is not subscriptable")
  | v => typeError ("'" ++ v.typeName ++ "' object is not subscriptable")

/-- `v[key]` for a text. -/
def field (v : Value) (key : String) : Except Exc Value :=
  match v with
  | .map keys vals => (lookup (.str key) keys vals).elim
      (.error ⟨.KeyError, "'" ++ key ++ "'"⟩) .ok
  | .list _ => typeError "list indices must be integers or slices, not str"
  | .str _ => typeError "string indices must be integers, not 'str'"
  | v => typeError ("'" ++ v.typeName ++ "' object is not subscriptable")

/-- `v.get(key)` of a dict. -/
def get? (v : Value) (key : String) : Option Value :=
  match v with
  | .map keys vals => lookup (.str key) keys vals
  | _ => none

/-- `hash(v)`: lists, dicts and sets have none. -/
def hashable : Value → Except Exc Unit
  | .list _ => typeError "unhashable type: 'list'"
  | .map _ _ => typeError "unhashable type: 'dict'"
  | .set _ => typeError "unhashable type: 'set'"
  | .object o =>
      if o.hashable then .ok () else typeError ("unhashable type: '" ++ o.typeName ++ "'")
  | _ => .ok ()

/-- What `v in s` raises for a set `s`: a set is looked up as if it were frozen. -/
def searchable : Value → Except Exc Unit
  | .set _ => .ok ()
  | v => v.hashable

/-- The elements in the order of their first occurrences. -/
def distinct : List Value → List Value
  | [] => []
  | x :: xs => x :: (distinct xs).filter fun y => !y.eq x

/-- `set(xs) - set(ys)`. -/
def setMinus (xs ys : List Value) : Except Exc (List Value) := do
  xs.forM hashable
  ys.forM hashable
  return distinct (xs.filter fun x => !ys.any fun y => x.eq y)

theorem forM_hashable {xs : List Value} :
    xs.forM hashable = .ok () ↔ ∀ x ∈ xs, x.hashable = .ok () := by
  induction xs with
  | nil => exact iff_of_true rfl (by simp)
  | cons x xs ih =>
    rw [List.forall_mem_cons, ← ih]
    show (x.hashable >>= fun _ => xs.forM hashable) = _ ↔ _
    rw [bind_eq_ok_iff]
    exact ⟨fun ⟨_, hx, hxs⟩ => ⟨hx, hxs⟩, fun ⟨hx, hxs⟩ => ⟨(), hx, hxs⟩⟩

theorem distinct_sublist (xs : List Value) : (distinct xs).Sublist xs := by
  induction xs with
  | nil => exact .slnil
  | cons x xs ih => exact (List.filter_sublist.trans ih).cons_cons x

/-- What equal elements share may be asked of the elements before they are told apart. -/
theorem distinct_filter {p : Value → Bool} (hp : ∀ x y, y.eq x = true → p y = p x)
    (xs : List Value) : distinct (xs.filter p) = (distinct xs).filter p := by
  induction xs with
  | nil => rfl
  | cons x xs ih =>
    cases hx : p x with
    | true =>
      rw [List.filter_cons_of_pos hx, distinct, distinct, List.filter_cons_of_pos hx, ih,
        List.filter_comm]
    | false =>
      have hskip : ∀ y ∈ distinct xs, p y = (p y && !y.eq x) := fun y _ => by
        cases hy : y.eq x with
        | true => rw [hp x y hy, hx, Bool.false_and]
        | false => rw [Bool.not_false, Bool.and_true]
      have hneg : ¬p x = true := by rw [hx]; exact Bool.false_ne_true
      rw [List.filter_cons_of_neg hneg, ih, distinct, List.filter_cons_of_neg hneg,
        List.filter_filter]
      exact List.filter_congr hskip

theorem distinct_eq_nil {xs : List Value} : distinct xs = [] ↔ xs = [] := by
  cases xs <;> simp [distinct]

/-- Nothing is left of a set exactly when each of its elements is taken away. -/
theorem setMinus_eq_nil {xs ys : List Value} : setMinus xs ys = .ok [] ↔
    xs.forM hashable = .ok () ∧ ys.forM hashable = .ok () ∧ ∀ x ∈ xs, ∃ y ∈ ys, x.eq y = true := by
  simp only [setMinus, bind_eq_ok_iff, pure, Except.pure, Except.ok.injEq, distinct_eq_nil,
    List.filter_eq_nil_iff, Bool.not_eq_true', Bool.not_eq_false, List.any_eq_true]
  exact ⟨fun ⟨_, hx, _, hy, h⟩ => ⟨hx, hy, h⟩, fun ⟨hx, hy, h⟩ => ⟨(), hx, (), hy, h⟩⟩

/-! ### Printing -/

/-- `repr` of a byte string, without its `b`. -/
def quoteBytes (b : Bytes) : List Char :=
  let cs := b.map fun c => Char.ofNat c.toNat
  let quote := quoteOf cs
  let escape (c : Char) : List Char :=
    if c = quote ∨ c = '\\' then ['\\', c]
    else if c = '\n' then ['\\', 'n']
    else if c = '\r' then ['\\', 'r']
    else if c = '\t' then ['\\', 't']
    else if c.toNat < 32 ∨ 127 ≤ c.toNat then
      ['\\', 'x', hexDigit (c.toNat / 16), hexDigit (c.toNat % 16)]
    else [c]
  quote :: cs.flatMap escape ++ [quote]

def commas : List (List Char) → List Char
  | [] => []
  | [x] => x
  | x :: y :: rest => x ++ ',' :: ' ' :: commas (y :: rest)

/-- `repr(v)`. -/
def repr : Value → List Char
  | .null => ['N', 'o', 'n', 'e']
  | .bool true => ['T', 'r', 'u', 'e']
  | .bool false => ['F', 'a', 'l', 's', 'e']
  | .int n => intText n
  | .float x => x.text
  | .bytes b => 'b' :: quoteBytes b
  | .str s => quoteText s.toList
  | .list xs => '[' :: commas (reprs xs) ++ [']']
  | .map ks vs => '{' :: commas (List.zipWith (fun k v => k ++ ':' :: ' ' :: v) (reprs ks) (reprs vs))
      ++ ['}']
  | .set [] => "set()".toList
  | .set xs => '{' :: commas (reprs xs) ++ ['}']
  | .tag n v => "CBORTag(".toList ++ decimal n ++ ',' :: ' ' :: v.repr ++ [')']
  | .object o => o.text
where reprs : List Value → List (List Char)
  | [] => []
  | x :: xs => x.repr :: reprs xs

/-- `f"{v!r}"`. -/
def quoted (v : Value) : String := String.ofList v.repr

/-- `f"{v}"`. -/
def text : Value → String
  | .str s => s
  | v => v.quoted

/-- Whether `v` can be shown: an integer of too many digits cannot, nor an object that raises. -/
def printable : Value → Bool
  | .int n => n.natAbs < 10 ^ maxDigits
  | .list xs => printables xs
  | .map keys vals => printables keys && printables vals
  | .set xs => printables xs
  | .tag _ v => v.printable
  | .object o => o.showable
  | _ => true
where printables : List Value → Bool
  | [] => true
  | x :: xs => x.printable && printables xs

@[simp] theorem printable_list (xs : List Value) : (Value.list xs).printable = xs.all printable := by
  show printable.printables xs = _
  induction xs with
  | nil => rfl
  | cons x xs ih => rw [printable.printables, List.all_cons, ih]

/-- What showing an integer of too many digits raises. -/
def digitsLimit : Exc :=
  ⟨.ValueError, "Exceeds the limit (4300 digits) for integer string conversion; " ++
    "use sys.set_int_max_str_digits() to increase the limit"⟩

/-! ### Arithmetic -/

/-- `math.isfinite(v)`: an integer is converted to a float first. -/
def isfinite : Value → Except Exc Bool
  | .bool _ => .ok true
  | .int n =>
      if n.natAbs < 2 ^ 1024 - 2 ^ 970 then .ok true
      else .error ⟨.OverflowError, "int too large to convert to float"⟩
  | .float .inf => .ok false
  | .float .negInf => .ok false
  | .float .nan => .ok false
  | .float _ => .ok true
  | v => typeError ("must be real number, not " ++ v.typeName)

/-- `v + 1`. -/
def succ : Value → Except Exc Value
  | .bool b => .ok (.int (if b then 2 else 1))
  | .int n => .ok (.int (n + 1))
  | .float (.fin q) => .ok (.float (.fin (Binary64.round (q + 1))))
  | .float .negZero => .ok (.float (.fin 1))
  | .float x => .ok (.float x)
  | v => typeError ("unsupported operand type(s) for +: '" ++ v.typeName ++ "' and 'int'")

/-! ### What equals a string or an integer -/

@[simp] theorem eq_str_iff {v : Value} {s : String} : v.eq (.str s) = true ↔ v = .str s := by
  cases v <;> simp [eq, number]

theorem str_eq_iff {v : Value} {s : String} : (Value.str s).eq v = true ↔ v = .str s := by
  cases v with
  | str t => simp [eq, eq_comm (a := s)]
  | _ => simp [eq, number]

theorem lt_of_number {v w : Value} {x y : Double} (hv : v.number = some x)
    (hw : w.number = some y) : v.lt w = .ok (x.lt y) := by
  cases v <;> simp only [number, reduceCtorEq] at hv <;>
    cases w <;> simp only [number, reduceCtorEq] at hw <;> simp [lt, number, hv, hw]

theorem eq_of_number {v w : Value} {x y : Double} (hv : v.number = some x)
    (hw : w.number = some y) : v.eq w = x.eq y := by
  cases v <;> simp only [number, reduceCtorEq] at hv <;>
    cases w <;> simp only [number, reduceCtorEq] at hw <;>
    simp [eq, number, hv, hw]

/-- Only numbers are at most one another. -/
theorem number_of_le {v w : Value} {b : Bool} (h : v.le w = .ok b) :
    ∃ x y, v.number = some x ∧ w.number = some y ∧ b = x.le y := by
  unfold le at h
  cases hv : v.number with
  | none => simp [hv, typeError] at h
  | some x =>
    cases hw : w.number with
    | none => simp [hv, hw, typeError] at h
    | some y =>
      simp only [hv, hw, Except.ok.injEq] at h
      exact ⟨x, y, rfl, rfl, h.symm⟩

@[simp] theorem le_int (n m : Int) : (Value.int n).le (.int m) = .ok (decide (n ≤ m)) := by
  simp only [le, number, Double.le, Double.lt, Double.eq, Int.cast_lt, Except.ok.injEq]
  rcases lt_trichotomy n m with h | h | h
  · simp [h, h.le]
  · simp [h]
  · simp [h.not_ge, h.not_gt, h.ne']

@[simp] theorem lt_int (n m : Int) : (Value.int n).lt (.int m) = .ok (decide (n < m)) := by
  simp [lt, number, Double.lt]

@[simp] theorem gt_int (n m : Int) : (Value.int n).gt (.int m) = .ok (decide (m < n)) := by
  simp [gt, lt, number, Double.lt]

@[simp] theorem text_int (n : Int) : (Value.int n).text = String.ofList (intText n) := rfl

@[simp] theorem eq_int_int (n m : Int) : (Value.int n).eq (.int m) = decide (n = m) := by
  simp [eq, number, Double.eq, beq_eq_decide]

/-- What equals an integer is the number it is, or zero with a minus sign. -/
theorem number_of_eq_int {v : Value} {n : Int} (h : v.eq (.int n) = true) :
    v.number = some (.fin n) ∨ (v.number = some .negZero ∧ n = 0) := by
  cases v with
  | bool b => exact .inl (by simpa [eq, number, Double.eq] using h)
  | int k => exact .inl (by simpa [eq, number, Double.eq] using h)
  | float x => cases x <;> simp_all [eq, number, Double.eq]
  | _ => simp [eq, number] at h

/-- No object equals two integers. -/
theorem eq_int_unique {v : Value} {n m : Int} (hn : v.eq (.int n) = true)
    (hm : v.eq (.int m) = true) : n = m := by
  rcases number_of_eq_int hn with hfin | ⟨hneg, hn0⟩
  · rcases number_of_eq_int hm with hfin' | ⟨hneg', -⟩
    · rw [hfin] at hfin'
      simpa using hfin'
    · rw [hfin] at hneg'
      cases hneg'
  · rcases number_of_eq_int hm with hfin' | ⟨-, hm0⟩
    · rw [hneg] at hfin'
      cases hfin'
    · rw [hn0, hm0]

/-! ### The order of the numbers -/

/-- The place of a number among the others. -/
def rank (v : Value) : Option (WithBot (WithTop ℚ)) := v.number.bind Double.rank

section Rank
variable {v w : Value} {a b : WithBot (WithTop ℚ)}

theorem rank_int (n : Int) : ∃ a, (Value.int n).rank = some a := ⟨_, rfl⟩

theorem number_of_rank (h : v.rank = some a) : ∃ x, v.number = some x ∧ x.rank = some a :=
  Option.bind_eq_some_iff.mp h

theorem rank_of_number {x : Double} (h : v.number = some x) (hnan : v ≠ .float .nan) :
    ∃ a, v.rank = some a := by
  have hx : x ≠ .nan := by
    rintro rfl
    cases v <;> simp_all [number]
  obtain ⟨a, ha⟩ := Double.rank_of_ne_nan hx
  exact ⟨a, by rw [rank, h, Option.bind_some, ha]⟩

section Both
variable (hv : v.rank = some a) (hw : w.rank = some b)
include hv hw

theorem lt_of_rank : v.lt w = .ok (decide (a < b)) := by
  obtain ⟨x, hx, hxa⟩ := number_of_rank hv
  obtain ⟨y, hy, hyb⟩ := number_of_rank hw
  rw [lt_of_number hx hy, Double.lt_of_rank hxa hyb]

theorem le_of_rank : v.le w = .ok (decide (a ≤ b)) := by
  obtain ⟨x, hx, hxa⟩ := number_of_rank hv
  obtain ⟨y, hy, hyb⟩ := number_of_rank hw
  rw [le, hx, hy, ← Double.le_of_rank hxa hyb]

theorem gt_of_rank : v.gt w = .ok (decide (b < a)) := by
  rw [gt, lt_of_rank hw hv]

end Both

/-- What is at most something is no `nan`. -/
theorem rank_of_le (h : v.le w = .ok true) (hw : w.rank = some b) :
    ∃ a, v.rank = some a ∧ a ≤ b := by
  obtain ⟨x, y, hx, -, hle⟩ := number_of_le h
  have hnan : v ≠ .float .nan := by
    rintro rfl
    cases hx
    cases y <;> simp [Double.le, Double.lt, Double.eq] at hle
  obtain ⟨a, ha⟩ := rank_of_number hx hnan
  rw [le_of_rank ha hw, Except.ok.injEq, decide_eq_true_eq] at h
  exact ⟨a, ha, h⟩

/-- No number is below itself. -/
theorem lt_self_of_number {x : Double} (h : v.number = some x) : v.lt v ≠ .ok true := by
  rw [lt_of_number h h]
  exact fun hlt => x.lt_irrefl (Except.ok.inj hlt)

theorem nan_lt (w : Value) : (Value.float .nan).lt w ≠ .ok true := by
  intro h
  cases hw : w.number with
  | some y =>
    rw [lt_of_number (show (Value.float .nan).number = some .nan from rfl) hw] at h
    cases y <;> cases h
  | none =>
    cases w <;> simp_all [lt, number, typeError, before, place]

end Rank

/-! ### What an integer is read back of -/

/-- A number that is no integer is printed with a character no integer has. -/
theorem exists_not_intChar {v : Value} {x : Double} (h : v.number = some x)
    (hint : ∀ n, v ≠ .int n) : ∃ c ∈ v.text.toList, intChar c = false := by
  cases v with
  | int n => exact absurd rfl (hint n)
  | bool b =>
    cases b
    · exact ⟨'F', by decide, by decide⟩
    · exact ⟨'T', by decide, by decide⟩
  | float x =>
    have htext : (Value.float x).text.toList = x.text := String.toList_ofList
    rw [htext]
    cases x with
    | nan => exact ⟨'a', by decide, by decide⟩
    | inf => exact ⟨'f', by decide, by decide⟩
    | negInf => exact ⟨'f', by decide, by decide⟩
    | negZero => exact ⟨'.', by decide, by decide⟩
    | fin q =>
      rcases point_mem_text q with hpoint | hexp
      · exact ⟨'.', hpoint, by decide⟩
      · exact ⟨'e', hexp, by decide⟩
  | _ => cases h

/-- A line that holds a number reads as an integer only if it is one. -/
theorem parseInt_text {v : Value} {x : Double} {n : Int} (h : v.number = some x)
    (hread : parseInt (strip (v.text.toList ++ ['\n'])) = some n) : v = .int n := by
  by_contra hne
  have hint : ∀ m, v ≠ .int m := by
    rintro m rfl
    have hline : (Value.int m).text.toList = intText m := String.toList_ofList
    rw [hline, parseInt_intText] at hread
    exact hne (congrArg Value.int (Option.some.inj hread))
  obtain ⟨c, hc, hchar⟩ := exists_not_intChar h hint
  have hspace : isSpace c = false := by
    simp only [intChar, Bool.or_eq_false_iff] at hchar
    exact hchar.1.1.1.1
  rw [parseInt_eq_none (mem_strip (List.mem_append_left _ hc) hspace) hchar] at hread
  cases hread

/-! ### Scalars and lists -/

/-- A value made of scalars and lists: what the program itself ever encodes. -/
def plain : Value → Bool
  | .map _ _ => false
  | .set _ => false
  | .tag _ _ => false
  | .object _ => false
  | .list xs => plains xs
  | _ => true
where plains : List Value → Bool
  | [] => true
  | x :: xs => x.plain && plains xs

theorem plains_eq_all (xs : List Value) : plain.plains xs = xs.all plain := by
  induction xs with
  | nil => rfl
  | cons x xs ih => rw [plain.plains, List.all_cons, ih]

@[simp] theorem plain_list (xs : List Value) : (Value.list xs).plain = xs.all plain :=
  plains_eq_all xs

@[simp] theorem plain_str (s : String) : (Value.str s).plain = true := rfl
@[simp] theorem plain_bytes (b : Bytes) : (Value.bytes b).plain = true := rfl
@[simp] theorem plain_int (n : Int) : (Value.int n).plain = true := rfl
@[simp] theorem plain_bool (b : Bool) : (Value.bool b).plain = true := rfl
@[simp] theorem plain_float (x : Double) : (Value.float x).plain = true := rfl
@[simp] theorem plain_null : Value.null.plain = true := rfl

theorem plain_of_succ {v w : Value} (h : v.succ = .ok w) : w.plain = true := by
  cases v with
  | bool b => cases h; rfl
  | int n => cases h; rfl
  | float x => cases x <;> (cases h; rfl)
  | _ => cases h

end Value

/-! ## Texts -/

/-- A text a program is handed: of characters, or with a lone surrogate among its code points. -/
inductive Text
  | characters (s : String)
  | surrogates (codes : List Nat) (lone : ∃ c ∈ codes, ¬c.isValidChar)

namespace Text

def value : Text → Value
  | .characters s => .str s
  | .surrogates codes _ => Value.surrogates codes

/-- `f"{s}{text}"`. -/
def after (s : String) : Text → Text
  | .characters t => .characters (s ++ t)
  | .surrogates codes lone => .surrogates (s.toList.map Char.toNat ++ codes)
      (lone.imp fun _ h => ⟨List.mem_append_right _ h.1, h.2⟩)

/-- All of it is characters, so that it can be encoded. -/
def Encodable (text : Text) : Prop := ∃ s, text = .characters s

@[simp] theorem encodable_after {s : String} {text : Text} :
    (text.after s).Encodable ↔ text.Encodable := by
  cases text with
  | characters t => exact iff_of_true ⟨_, rfl⟩ ⟨t, rfl⟩
  | surrogates codes lone => exact iff_of_false (fun ⟨_, h⟩ => nomatch h) fun ⟨_, h⟩ => nomatch h

end Text

/-! ## Hexadecimal -/

/-- `digest.hex()`, which is `hexdigest()`. -/
def hex (b : Bytes) : String :=
  String.ofList (b.flatMap fun c => [Value.hexDigit (c.toNat / 16), Value.hexDigit (c.toNat % 16)])

/-- The value of a hexadecimal digit. -/
def hexValue (c : Char) : Option Nat :=
  if 97 ≤ c.toNat ∧ c.toNat ≤ 102 then some (c.toNat - 87)
  else if 65 ≤ c.toNat ∧ c.toNat ≤ 70 then some (c.toNat - 55)
  else digitValue c

/-- Pairs of digits, white space allowed between the pairs. -/
def hexPairs : List Char → Option Bytes
  | [] => some []
  | [c] => if isSpace c then some [] else none
  | c :: d :: cs =>
      if isSpace c then hexPairs (d :: cs)
      else (hexValue c).bind fun h => (hexValue d).bind fun l =>
        (hexPairs cs).map (UInt8.ofNat (16 * h + l) :: ·)

/-- `bytes.fromhex(text)`. -/
def fromhex (text : String) : Except Exc Bytes :=
  (hexPairs text.toList).elim
    (.error ⟨.ValueError, "non-hexadecimal number found in fromhex() arg"⟩) .ok

theorem hexDigit_lt : ∀ n < 16, isSpace (Value.hexDigit n) = false ∧
    hexValue (Value.hexDigit n) = some n := by decide

theorem fromhex_hex (b : Bytes) : fromhex (hex b) = .ok b := by
  have hpairs : hexPairs (b.flatMap fun c =>
      [Value.hexDigit (c.toNat / 16), Value.hexDigit (c.toNat % 16)]) = some b := by
    induction b with
    | nil => rfl
    | cons c b ih =>
      obtain ⟨hspace, hhigh⟩ := hexDigit_lt (c.toNat / 16) (by have := c.toNat_lt; omega)
      obtain ⟨-, hlow⟩ := hexDigit_lt (c.toNat % 16) (by omega)
      have hbyte : UInt8.ofNat (16 * (c.toNat / 16) + c.toNat % 16) = c := by
        rw [Nat.div_add_mod]
        exact UInt8.ofNat_toNat
      rw [List.flatMap_cons, List.cons_append, List.cons_append, List.nil_append, hexPairs, hspace,
        hhigh, hlow, ih]
      simp only [Bool.false_eq_true, if_false, Option.bind_some, Option.map_some, hbyte]
  rw [fromhex, hex, String.toList_ofList, hpairs]
  rfl

theorem hex_injective {a b : Bytes} (h : hex a = hex b) : a = b := by
  have ha := fromhex_hex a
  rw [h, fromhex_hex b] at ha
  exact (Except.ok.inj ha).symm

end Python
