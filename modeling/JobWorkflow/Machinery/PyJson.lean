import JobWorkflow.Machinery.Dict
import Mathlib.Data.Int.Notation

/-!
# Machinery/PyJson — `json.dumps` and `json.loads`

Python's JSON codec with its default options.  A `str` is the list of its code points, lone
surrogates included; a text is a list of characters.  A number with a fraction or an exponent is
kept as its literal: what `float` makes of it is not looked at.

`loads_dumps` is the round trip: a value without floats, whose strings are free of surrogates and
whose keys are distinct, is read back from what is written of it, and what is written is ASCII.
-/

namespace PyJson

/-- A character of a Python `str`. -/
abbrev CodePoint := Fin 0x110000

abbrev Str := List CodePoint

inductive Value
  | null
  | bool (b : Bool)
  | int (n : ℤ)
  | float (literal : List Char)
  | str (s : Str)
  | array (xs : List Value)
  | object (members : List (Str × Value))

/-- `sys.get_int_max_str_digits()`: longer integers are neither written nor read. -/
def maxStrDigits : ℕ := 4300

/-! ## Writing -/

/-- `\uXXXX`, in lower case. -/
def unicode (n : ℕ) : List Char :=
  ['\\', 'u', (n / 0x1000).digitChar, (n / 0x100 % 0x10).digitChar, (n / 0x10 % 0x10).digitChar,
    (n % 0x10).digitChar]

/-- `ESCAPE_ASCII` and `ESCAPE_DCT`; what lies beyond the basic plane is a surrogate pair. -/
def escape (c : CodePoint) : List Char :=
  match c.val with
  | 0x22 => ['\\', '"']
  | 0x5c => ['\\', '\\']
  | 0x8 => ['\\', 'b']
  | 0xc => ['\\', 'f']
  | 0xa => ['\\', 'n']
  | 0xd => ['\\', 'r']
  | 0x9 => ['\\', 't']
  | n =>
    if 0x20 ≤ n ∧ n ≤ 0x7e then [Char.ofNat n]
    else if n < 0x10000 then unicode n
    else
      unicode (0xd800 + (n - 0x10000) / 0x400) ++ unicode (0xdc00 + (n - 0x10000) % 0x400)

/-- `py_encode_basestring_ascii`, from behind the opening quote. -/
def stringText (s : Str) : List Char := s.flatMap escape ++ ['"']

def intText : ℤ → List Char
  | .ofNat n => Nat.toDigits 10 n
  | .negSucc n => '-' :: Nat.toDigits 10 (n + 1)

mutual

/-- `json.dumps(v)`. -/
def dumps : Value → List Char
  | .null => ['n', 'u', 'l', 'l']
  | .bool true => ['t', 'r', 'u', 'e']
  | .bool false => ['f', 'a', 'l', 's', 'e']
  | .int n => intText n
  | .float literal => literal
  | .str s => '"' :: stringText s
  | .array [] => ['[', ']']
  | .array (x :: xs) => '[' :: (dumps x ++ elementsText xs)
  | .object [] => ['{', '}']
  | .object ((k, v) :: ms) =>
    '{' :: '"' :: (stringText k ++ ':' :: ' ' :: (dumps v ++ membersText ms))

/-- The rest of an array. -/
def elementsText : List Value → List Char
  | [] => [']']
  | x :: xs => ',' :: ' ' :: (dumps x ++ elementsText xs)

/-- The rest of an object. -/
def membersText : List (Str × Value) → List Char
  | [] => ['}']
  | (k, v) :: ms => ',' :: ' ' :: '"' :: (stringText k ++ ':' :: ' ' :: (dumps v ++ membersText ms))

end

/-! ## Reading: strings -/

def IsHigh (n : ℕ) : Prop := 0xd800 ≤ n ∧ n ≤ 0xdbff

def IsLow (n : ℕ) : Prop := 0xdc00 ≤ n ∧ n ≤ 0xdfff

instance (n : ℕ) : Decidable (IsHigh n) := inferInstanceAs (Decidable (_ ∧ _))

instance (n : ℕ) : Decidable (IsLow n) := inferInstanceAs (Decidable (_ ∧ _))

def hexDigit? (c : Char) : Option ℕ :=
  if '0' ≤ c ∧ c ≤ '9' then some (c.toNat - 48)
  else if 'a' ≤ c ∧ c ≤ 'f' then some (c.toNat - 87)
  else if 'A' ≤ c ∧ c ≤ 'F' then some (c.toNat - 55)
  else none

/-- `_decode_uXXXX`. -/
def decodeUXXXX (a b c d : Char) : Option ℕ :=
  (hexDigit? a).bind fun a => (hexDigit? b).bind fun b => (hexDigit? c).bind fun c =>
    (hexDigit? d).map fun d => ((a * 16 + b) * 16 + c) * 16 + d

/-- `chr(n)`. -/
def chr (n : ℕ) : CodePoint := Fin.ofNat 0x110000 n

/-- `BACKSLASH`. -/
def backslash : Char → Option CodePoint
  | '"' => some (chr 0x22)
  | '\\' => some (chr 0x5c)
  | '/' => some (chr 0x2f)
  | 'b' => some (chr 0x8)
  | 'f' => some (chr 0xc)
  | 'n' => some (chr 0xa)
  | 'r' => some (chr 0xd)
  | 't' => some (chr 0x9)
  | _ => none

/-- One more character in front. -/
def prepend (c : CodePoint) : Option (Str × List Char) → Option (Str × List Char) :=
  Option.map fun p => (c :: p.1, p.2)

/-- A high surrogate that an escaped low one follows makes one character with it. -/
def joined (uni : ℕ) (rest : List Char) : Option (CodePoint × List Char) :=
  if IsHigh uni then
    match rest with
    | '\\' :: 'u' :: a :: b :: c :: d :: rest' =>
      match decodeUXXXX a b c d with
      | none => none
      | some uni2 =>
        if IsLow uni2 then
          some (chr (0x10000 + ((uni - 0xd800) * 0x400 + (uni2 - 0xdc00))), rest')
        else some (chr uni, rest)
    | '\\' :: 'u' :: _ => none
    | _ => some (chr uni, rest)
  else some (chr uni, rest)

theorem length_joined {uni : ℕ} {rest rest' : List Char} {c : CodePoint}
    (h : joined uni rest = some (c, rest')) : rest'.length ≤ rest.length := by
  unfold joined at h
  split at h
  · split at h
    · split at h
      · exact nomatch h
      · split at h
        · obtain ⟨-, rfl⟩ := Prod.mk.inj (Option.some.inj h)
          simp only [List.length_cons]
          omega
        · exact (Prod.mk.inj (Option.some.inj h)).2 ▸ Nat.le_refl _
    · exact nomatch h
    · exact (Prod.mk.inj (Option.some.inj h)).2 ▸ Nat.le_refl _
  · exact (Prod.mk.inj (Option.some.inj h)).2 ▸ Nat.le_refl _

/-- `py_scanstring`, from behind the opening quote. -/
def scanString : List Char → Option (Str × List Char)
  | [] => none
  | '"' :: rest => some ([], rest)
  | '\\' :: 'u' :: a :: b :: c :: d :: rest =>
    match decodeUXXXX a b c d with
    | none => none
    | some uni =>
      match _h : joined uni rest with
      | none => none
      | some (c, rest') => prepend c (scanString rest')
  | '\\' :: esc :: rest =>
    match backslash esc with
    | none => none
    | some c => prepend c (scanString rest)
  | ['\\'] => none
  | c :: rest => if c.toNat < 0x20 then none else prepend (chr c.toNat) (scanString rest)
termination_by cs => cs.length
decreasing_by
  · have := length_joined _h
    simp only [List.length_cons]
    omega
  · simp only [List.length_cons]
    omega
  · simp only [List.length_cons]
    omega

/-! ## Reading: numbers -/

/-- The digits in front, and what follows them. -/
def digits (cs : List Char) : List Char × List Char :=
  (cs.takeWhile Char.isDigit, cs.dropWhile Char.isDigit)

/-- `0|[1-9][0-9]*`. -/
def integerPart : List Char → Option (List Char × List Char)
  | '0' :: rest => some (['0'], rest)
  | c :: rest => if c.isDigit then some (digits (c :: rest)) else none
  | [] => none

/-- `(\.[0-9]+)?`. -/
def fracPart : List Char → List Char × List Char
  | '.' :: d :: rest =>
    if d.isDigit then ('.' :: (digits (d :: rest)).1, (digits (d :: rest)).2)
    else ([], '.' :: d :: rest)
  | cs => ([], cs)

/-- `[-+]?`. -/
def signPart : List Char → List Char × List Char
  | '-' :: rest => (['-'], rest)
  | '+' :: rest => (['+'], rest)
  | cs => ([], cs)

/-- `([eE][-+]?[0-9]+)?`. -/
def expPart : List Char → List Char × List Char
  | [] => ([], [])
  | c :: rest =>
    if (c = 'e' ∨ c = 'E') ∧ (digits (signPart rest).2).1 ≠ [] then
      (c :: ((signPart rest).1 ++ (digits (signPart rest).2).1), (digits (signPart rest).2).2)
    else ([], c :: rest)

/-- `int(integer)`. -/
def intOf (negative : Bool) (integer : List Char) : ℤ :=
  if negative then -(Nat.ofDigitChars 10 integer 0 : ℤ) else Nat.ofDigitChars 10 integer 0

/-- `match_number`, behind the sign. -/
def scanUnsigned (negative : Bool) (cs : List Char) : Option (Value × List Char) :=
  match integerPart cs with
  | none => none
  | some (integer, rest) =>
    let frac := fracPart rest
    let exp := expPart frac.2
    if frac.1 = [] ∧ exp.1 = [] then
      if integer.length ≤ maxStrDigits then some (.int (intOf negative integer), exp.2) else none
    else
      some (.float ((if negative then ['-'] else []) ++ integer ++ frac.1 ++ exp.1), exp.2)

/-- Numbers, and the three constants that are none. -/
def scanNumber : List Char → Option (Value × List Char)
  | 'N' :: 'a' :: 'N' :: rest => some (.float ['N', 'a', 'N'], rest)
  | 'I' :: 'n' :: 'f' :: 'i' :: 'n' :: 'i' :: 't' :: 'y' :: rest =>
    some (.float ['I', 'n', 'f', 'i', 'n', 'i', 't', 'y'], rest)
  | '-' :: 'I' :: 'n' :: 'f' :: 'i' :: 'n' :: 'i' :: 't' :: 'y' :: rest =>
    some (.float ['-', 'I', 'n', 'f', 'i', 'n', 'i', 't', 'y'], rest)
  | '-' :: rest => scanUnsigned true rest
  | cs => scanUnsigned false cs

/-! ## Reading: values -/

def isWs (c : Char) : Bool := c = ' ' ∨ c = '\t' ∨ c = '\n' ∨ c = '\r'

def skipWs (cs : List Char) : List Char := cs.dropWhile isWs

/-- `dict(pairs)`: a key that comes again keeps its place and takes the new value. -/
def dictOf (pairs : List (Str × Value)) : List (Str × Value) :=
  pairs.foldl (fun d p => Dict.assign p.1 p.2 d) []

mutual

/-- `_scan_once`; the first argument bounds the depth of the calls. -/
def scanOnce : ℕ → List Char → Option (Value × List Char)
  | 0, _ => none
  | _ + 1, '"' :: rest => (scanString rest).map fun p => (.str p.1, p.2)
  | fuel + 1, '{' :: rest =>
    match skipWs rest with
    | '}' :: rest' => some (.object [], rest')
    | '"' :: rest' => (scanMembers fuel rest').map fun p => (.object (dictOf p.1), p.2)
    | _ => none
  | fuel + 1, '[' :: rest =>
    match skipWs rest with
    | ']' :: rest' => some (.array [], rest')
    | rest' => (scanElements fuel rest').map fun p => (.array p.1, p.2)
  | _ + 1, 'n' :: 'u' :: 'l' :: 'l' :: rest => some (.null, rest)
  | _ + 1, 't' :: 'r' :: 'u' :: 'e' :: rest => some (.bool true, rest)
  | _ + 1, 'f' :: 'a' :: 'l' :: 's' :: 'e' :: rest => some (.bool false, rest)
  | _ + 1, cs => scanNumber cs

/-- `JSONArray`, at an element. -/
def scanElements : ℕ → List Char → Option (List Value × List Char)
  | 0, _ => none
  | fuel + 1, cs =>
    match scanOnce fuel cs with
    | none => none
    | some (x, rest) =>
      match skipWs rest with
      | ']' :: rest' => some ([x], rest')
      | ',' :: rest' => (scanElements fuel (skipWs rest')).map fun p => (x :: p.1, p.2)
      | _ => none

/-- `JSONObject`, from behind the opening quote of a key. -/
def scanMembers : ℕ → List Char → Option (List (Str × Value) × List Char)
  | 0, _ => none
  | fuel + 1, cs =>
    match scanString cs with
    | none => none
    | some (k, rest) =>
      match skipWs rest with
      | ':' :: rest' =>
        match scanOnce fuel (skipWs rest') with
        | none => none
        | some (v, rest') =>
          match skipWs rest' with
          | '}' :: rest' => some ([(k, v)], rest')
          | ',' :: rest' =>
            match skipWs rest' with
            | '"' :: rest' => (scanMembers fuel rest').map fun p => ((k, v) :: p.1, p.2)
            | _ => none
          | _ => none
      | _ => none

end

/-- `json.loads(s)`; `none` stands for the `ValueError` it raises. -/
def loads (cs : List Char) : Option Value :=
  if cs.head? = some '\uFEFF' then none
  else
    match scanOnce (2 * cs.length + 1) (skipWs cs) with
    | some (v, rest) => if skipWs rest = [] then some v else none
    | none => none

/-! ## What is written of a string is read back -/

/-- No surrogate: the characters of text that was decoded. -/
def IsScalar (c : CodePoint) : Prop := ¬ IsHigh c.val ∧ ¬ IsLow c.val

theorem chr_val (c : CodePoint) : chr c.val = c := Fin.ofNat_val_eq_self c

theorem hexDigit?_digitChar : ∀ d < 16, hexDigit? d.digitChar = some d := by decide

theorem decodeUXXXX_unicode {n : ℕ} (hn : n < 0x10000) :
    decodeUXXXX (n / 0x1000).digitChar (n / 0x100 % 0x10).digitChar (n / 0x10 % 0x10).digitChar
      (n % 0x10).digitChar = some n := by
  rw [decodeUXXXX, hexDigit?_digitChar _ (by omega), hexDigit?_digitChar _ (by omega),
    hexDigit?_digitChar _ (by omega), hexDigit?_digitChar _ (by omega)]
  simp only [Option.bind_some, Option.map_some, Option.some_inj]
  omega

theorem scanString_joined {a b c d : Char} {uni : ℕ} {ch : CodePoint} {rest rest' : List Char}
    (hd : decodeUXXXX a b c d = some uni) (hj : joined uni rest = some (ch, rest')) :
    scanString ('\\' :: 'u' :: a :: b :: c :: d :: rest) = prepend ch (scanString rest') := by
  rw [scanString, hd]
  dsimp only
  split
  · exact nomatch ‹joined uni rest = none›.symm.trans hj
  · obtain ⟨rfl, rfl⟩ := Prod.mk.inj (Option.some.inj (‹joined uni rest = _›.symm.trans hj))
    rfl

/-- A scalar in the basic plane is read without looking ahead. -/
theorem scanString_unicode {n : ℕ} (hn : n < 0x10000) (hs : ¬ IsHigh n) (rest : List Char) :
    scanString (unicode n ++ rest) = prepend (chr n) (scanString rest) :=
  scanString_joined (decodeUXXXX_unicode hn) (if_neg hs)

theorem joined_low {a b c d : Char} {uni uni2 : ℕ} (hh : IsHigh uni)
    (hd : decodeUXXXX a b c d = some uni2) (hl : IsLow uni2) (rest : List Char) :
    joined uni ('\\' :: 'u' :: a :: b :: c :: d :: rest) =
      some (chr (0x10000 + ((uni - 0xd800) * 0x400 + (uni2 - 0xdc00))), rest) := by
  rw [joined, if_pos hh]
  simp only [hd, if_pos hl]

/-- A surrogate pair is read as the one character it stands for. -/
theorem scanString_pair {n : ℕ} (hlow : 0x10000 ≤ n) (hn : n < 0x110000) (rest : List Char) :
    scanString (unicode (0xd800 + (n - 0x10000) / 0x400) ++
      unicode (0xdc00 + (n - 0x10000) % 0x400) ++ rest) = prepend (chr n) (scanString rest) := by
  have hval : 0x10000 + ((0xd800 + (n - 0x10000) / 0x400 - 0xd800) * 0x400 +
      (0xdc00 + (n - 0x10000) % 0x400 - 0xdc00)) = n := by omega
  have hjoined := joined_low
    (show IsHigh (0xd800 + (n - 0x10000) / 0x400) from ⟨by omega, by omega⟩)
    (decodeUXXXX_unicode (show 0xdc00 + (n - 0x10000) % 0x400 < 0x10000 by omega))
    ⟨by omega, by omega⟩ rest
  rw [hval] at hjoined
  exact scanString_joined (decodeUXXXX_unicode (by omega)) hjoined

/-- A character that is not escaped stands for itself. -/
theorem scanString_plain {c : Char} (hquote : c ≠ '"') (hback : c ≠ '\\') (h : 0x20 ≤ c.toNat)
    (rest : List Char) : scanString (c :: rest) = prepend (chr c.toNat) (scanString rest) := by
  rw [scanString]
  · exact if_neg (Nat.not_lt.mpr h)
  · exact hquote
  · exact fun _ _ _ _ _ he => absurd he hback
  · exact fun _ _ he => absurd he hback
  · exact fun he => absurd he hback

theorem toNat_ofNat {n : ℕ} (hn : n < 0xd800) : (Char.ofNat n).toNat = n := by
  rw [Char.ofNat, dif_pos (Or.inl hn)]
  rfl

theorem scanString_escape {c : CodePoint} (hc : IsScalar c) (rest : List Char) :
    scanString (escape c ++ rest) = prepend c (scanString rest) := by
  have hchr : ∀ n, c.val = n → chr n = c := fun n hn => hn ▸ chr_val c
  unfold escape
  split
  iterate 7 next h => simp [scanString, backslash, hchr _ h]
  next hquote hback _ _ _ _ _ =>
    split
    next hprint =>
      have htoNat : (Char.ofNat c.val).toNat = c.val :=
        toNat_ofNat (by omega)
      have hne : ∀ d : Char, c.val ≠ d.toNat → Char.ofNat c.val ≠ d := fun d hd he =>
        hd (he ▸ htoNat.symm)
      refine (scanString_plain (hne '"' hquote) (hne '\\' hback) ?_ rest).trans ?_
      · rw [htoNat]
        exact hprint.1
      · rw [htoNat, chr_val]
    next =>
      split
      next hbmp => exact (scanString_unicode hbmp hc.1 rest).trans (by rw [chr_val])
      next hbmp =>
        exact (scanString_pair (Nat.le_of_not_lt hbmp) c.isLt rest).trans (by rw [chr_val])

theorem scanString_stringText {s : Str} (hs : ∀ c ∈ s, IsScalar c) (rest : List Char) :
    scanString (stringText s ++ rest) = some (s, rest) := by
  induction s with
  | nil => exact scanString.eq_2 rest
  | cons c s ih =>
    obtain ⟨hc, hs⟩ := List.forall_mem_cons.mp hs
    have hrest : scanString (s.flatMap escape ++ (['"'] ++ rest)) = some (s, rest) := by
      rw [← List.append_assoc]
      exact ih hs
    rw [stringText, List.flatMap_cons, List.append_assoc, List.append_assoc, scanString_escape hc,
      hrest]
    rfl

/-! ## What is written of an integer is read back -/

/-- What may follow a value. -/
def Follows (rest : List Char) : Prop := ∀ c ∈ rest.head?, c = ',' ∨ c = ']' ∨ c = '}'

theorem follows_nil : Follows [] := fun _ h => nomatch h

theorem follows_cons {c : Char} (h : c = ',' ∨ c = ']' ∨ c = '}') (rest : List Char) :
    Follows (c :: rest) :=
  fun _ hd => Option.some.inj hd ▸ h

theorem Follows.no_digits {rest : List Char} (h : Follows rest) : digits rest = ([], rest) := by
  cases rest with
  | nil => rfl
  | cons c rest =>
    have hc : c.isDigit = false := by
      rcases h c rfl with rfl | rfl | rfl <;> rfl
    rw [digits, List.takeWhile_cons_of_neg (by rw [hc]; exact Bool.false_ne_true),
      List.dropWhile_cons_of_neg (by rw [hc]; exact Bool.false_ne_true)]

theorem Follows.no_frac {rest : List Char} (h : Follows rest) : fracPart rest = ([], rest) := by
  cases rest with
  | nil => rfl
  | cons c rest => rcases h c rfl with rfl | rfl | rfl <;> rfl

theorem Follows.no_exp {rest : List Char} (h : Follows rest) : expPart rest = ([], rest) := by
  cases rest with
  | nil => rfl
  | cons c rest =>
    refine if_neg fun hc => ?_
    rcases h c rfl with rfl | rfl | rfl <;> exact absurd hc.1 (by decide)

theorem digits_append {ds rest : List Char} (hds : ∀ c ∈ ds, c.isDigit = true)
    (h : Follows rest) : digits (ds ++ rest) = (ds, rest) := by
  have hrest := h.no_digits
  rw [digits, Prod.mk.injEq] at hrest ⊢
  rw [List.takeWhile_append_of_pos hds, List.dropWhile_append_of_pos hds, hrest.1, hrest.2,
    List.append_nil]
  exact ⟨rfl, rfl⟩

/-- The first digit of a positive number is not zero. -/
theorem toDigits_head {n : ℕ} (hn : 0 < n) :
    ∃ c ds, Nat.toDigits 10 n = c :: ds ∧ c ≠ '0' ∧ c.isDigit = true := by
  induction n using Nat.strongRecOn with
  | ind n ih =>
    by_cases hlt : n < 10
    · refine ⟨n.digitChar, [], Nat.toDigits_of_lt_base hlt, ?_⟩
      have hall : ∀ m < 10, 0 < m → m.digitChar ≠ '0' ∧ m.digitChar.isDigit = true := by decide
      exact hall n hlt hn
    · obtain ⟨c, ds, hds, hc⟩ := ih (n / 10) (by omega) (by omega)
      refine ⟨c, ds ++ [(n % 10).digitChar], ?_, hc⟩
      rw [Nat.toDigits_of_base_le (by decide) (Nat.le_of_not_lt hlt), hds]
      rfl

theorem isDigit_of_mem_toDigits {n : ℕ} : ∀ c ∈ Nat.toDigits 10 n, c.isDigit = true :=
  fun _ hc => Nat.isDigit_of_mem_toDigits (by decide) (by decide) hc

theorem integerPart_toDigits (n : ℕ) {rest : List Char} (h : Follows rest) :
    integerPart (Nat.toDigits 10 n ++ rest) = some (Nat.toDigits 10 n, rest) := by
  rcases Nat.eq_zero_or_pos n with rfl | hn
  · rfl
  · obtain ⟨c, ds, hds, hzero, hdigit⟩ := toDigits_head hn
    have happend := digits_append (isDigit_of_mem_toDigits (n := n)) h
    rw [hds] at happend ⊢
    rw [List.cons_append, integerPart]
    · rw [if_pos hdigit, ← List.cons_append, happend]
    · exact hzero

theorem scanUnsigned_toDigits (negative : Bool) {n : ℕ} {rest : List Char} (h : Follows rest)
    (hn : (Nat.toDigits 10 n).length ≤ maxStrDigits) :
    scanUnsigned negative (Nat.toDigits 10 n ++ rest) =
      some (.int (intOf negative (Nat.toDigits 10 n)), rest) := by
  rw [scanUnsigned, integerPart_toDigits n h]
  simp only [h.no_frac, h.no_exp, and_self, if_pos, if_pos hn]

theorem toDigits_cons (n : ℕ) : ∃ c ds, Nat.toDigits 10 n = c :: ds ∧ c.isDigit = true := by
  obtain ⟨c, ds, hds⟩ := List.exists_cons_of_ne_nil (Nat.toDigits_ne_nil (n := n) (b := 10))
  exact ⟨c, ds, hds, isDigit_of_mem_toDigits c (hds ▸ List.mem_cons_self)⟩

/-- A numeral without a sign. -/
theorem scanNumber_digit {c : Char} (hc : c.isDigit = true) (cs : List Char) :
    scanNumber (c :: cs) = scanUnsigned false (c :: cs) := by
  have hne : ∀ d : Char, d.isDigit = false → c ≠ d := fun d hd he =>
    Bool.false_ne_true (hd.symm.trans (he ▸ hc))
  rw [scanNumber]
  · exact fun _ he => hne 'N' rfl (List.cons.inj he).1
  · exact fun _ he => hne 'I' rfl (List.cons.inj he).1
  · exact fun _ he => hne '-' rfl (List.cons.inj he).1
  · exact fun _ he => hne '-' rfl (List.cons.inj he).1

/-- A numeral with a sign. -/
theorem scanNumber_minus {c : Char} (hc : c.isDigit = true) (cs : List Char) :
    scanNumber ('-' :: c :: cs) = scanUnsigned true (c :: cs) := by
  rw [scanNumber]
  exact fun _ he => Bool.false_ne_true ((List.cons.inj he).1 ▸ hc : 'I'.isDigit = true)

/-- The digits of an integer. -/
def intDigits (n : ℤ) : List Char := Nat.toDigits 10 n.natAbs

theorem scanNumber_intText {n : ℤ} {rest : List Char} (h : Follows rest)
    (hn : (intDigits n).length ≤ maxStrDigits) :
    scanNumber (intText n ++ rest) = some (.int n, rest) := by
  cases n with
  | ofNat n =>
    have hscan := scanUnsigned_toDigits false h hn
    obtain ⟨c, ds, hds, hc⟩ := toDigits_cons n
    rw [intText, hds, List.cons_append, scanNumber_digit hc, ← List.cons_append, ← hds]
    refine hscan.trans ?_
    rw [intOf, Nat.ofDigitChars_ten_toDigits]
    rfl
  | negSucc n =>
    have hscan := scanUnsigned_toDigits true h hn
    obtain ⟨c, ds, hds, hc⟩ := toDigits_cons (n + 1)
    rw [intText, hds, List.cons_append, List.cons_append, scanNumber_minus hc, ← List.cons_append,
      ← hds]
    refine hscan.trans ?_
    rw [intOf, Nat.ofDigitChars_ten_toDigits]
    rfl

theorem intText_injective : Function.Injective intText := by
  have hnat : ∀ {n m : ℕ}, Nat.toDigits 10 n = Nat.toDigits 10 m → n = m := by
    intro n m h
    have hn : Nat.ofDigitChars 10 (Nat.toDigits 10 n) 0 = n := Nat.ofDigitChars_ten_toDigits
    rw [← hn, h, Nat.ofDigitChars_ten_toDigits]
  have hsign : ∀ n m : ℕ, Nat.toDigits 10 n ≠ '-' :: Nat.toDigits 10 m := fun n m h =>
    absurd (isDigit_of_mem_toDigits '-' (h ▸ List.mem_cons_self)) (by decide)
  intro n m h
  cases n with
  | ofNat n =>
    cases m with
    | ofNat m => exact congrArg Int.ofNat (hnat h)
    | negSucc m => exact absurd h (hsign n (m + 1))
  | negSucc n =>
    cases m with
    | ofNat m => exact absurd h.symm (hsign m (n + 1))
    | negSucc m => exact congrArg Int.negSucc (Nat.succ.inj (hnat (List.cons.inj h).2))

/-! ## What is written of a value is read back -/

mutual

/-- `dumps` writes the value, and the text says all of it: no float, no surrogate, no integer beyond
the limit, and no key twice. -/
def Value.Exact : Value → Prop
  | .null | .bool _ => True
  | .int n => (intDigits n).length ≤ maxStrDigits
  | .float _ => False
  | .str s => ∀ c ∈ s, IsScalar c
  | .array xs => ExactElements xs
  | .object ms => (ms.map Prod.fst).Nodup ∧ ExactMembers ms

def ExactElements : List Value → Prop
  | [] => True
  | x :: xs => x.Exact ∧ ExactElements xs

def ExactMembers : List (Str × Value) → Prop
  | [] => True
  | (k, v) :: ms => (∀ c ∈ k, IsScalar c) ∧ v.Exact ∧ ExactMembers ms

end

theorem skipWs_cons {c : Char} (hc : isWs c = false) (cs : List Char) :
    skipWs (c :: cs) = c :: cs :=
  List.dropWhile_cons_of_neg (by rw [hc]; exact Bool.false_ne_true)

theorem isWs_of_isDigit {c : Char} (hc : c.isDigit = true) : isWs c = false := by
  refine decide_eq_false fun h => ?_
  rcases h with rfl | rfl | rfl | rfl <;> exact absurd hc (by decide)

theorem intText_cons (n : ℤ) :
    ∃ c cs, intText n = c :: cs ∧ (c.isDigit = true ∨ c = '-') := by
  cases n with
  | ofNat n =>
    obtain ⟨c, ds, hds, hc⟩ := toDigits_cons n
    exact ⟨c, ds, hds, Or.inl hc⟩
  | negSucc n => exact ⟨'-', _, rfl, Or.inr rfl⟩

/-- A value begins neither with white space nor with a closing bracket. -/
theorem dumps_cons {v : Value} (h : v.Exact) :
    ∃ c cs, dumps v = c :: cs ∧ isWs c = false ∧ c ≠ ']' ∧ c ≠ '\uFEFF' := by
  cases v with
  | null => exact ⟨'n', _, by rw [dumps], by decide⟩
  | bool b =>
    cases b with
    | true => exact ⟨'t', _, by rw [dumps], by decide⟩
    | false => exact ⟨'f', _, by rw [dumps], by decide⟩
  | int n =>
    obtain ⟨c, cs, he, hc⟩ := intText_cons n
    refine ⟨c, cs, by rw [dumps, he], ?_⟩
    rcases hc with hc | rfl
    · refine ⟨isWs_of_isDigit hc, ?_, ?_⟩
      · rintro rfl
        exact absurd hc (by decide)
      · rintro rfl
        exact absurd hc (by decide)
    · decide
  | float => exact (by rwa [Value.Exact] at h : False).elim
  | str s => exact ⟨'"', _, by rw [dumps], by decide⟩
  | array xs =>
    cases xs with
    | nil => exact ⟨'[', _, by rw [dumps], by decide⟩
    | cons x xs => exact ⟨'[', _, by rw [dumps], by decide⟩
  | object ms =>
    cases ms with
    | nil => exact ⟨'{', _, by rw [dumps], by decide⟩
    | cons m ms =>
      obtain ⟨k, v⟩ := m
      exact ⟨'{', _, by rw [dumps], by decide⟩

theorem skipWs_dumps {v : Value} (h : v.Exact) (rest : List Char) :
    skipWs (dumps v ++ rest) = dumps v ++ rest := by
  obtain ⟨c, cs, he, hc, -⟩ := dumps_cons h
  rw [he, List.cons_append, skipWs_cons hc]

/-- Distinct keys are assigned one after another. -/
theorem dictOf_of_nodup {ms : List (Str × Value)} (h : (ms.map Prod.fst).Nodup) :
    dictOf ms = ms := by
  have hassign : ∀ (k : Str) (v : Value) (d : List (Str × Value)), k ∉ d.map Prod.fst →
      Dict.assign k v d = d ++ [(k, v)] := by
    intro k v d
    induction d with
    | nil => exact fun _ => rfl
    | cons e d ih =>
      rw [List.map_cons, List.mem_cons, not_or]
      rintro ⟨hne, hk⟩
      rw [Dict.assign, if_neg (Ne.symm hne), ih hk, List.cons_append]
  have hfold : ∀ ms d : List (Str × Value), ((d ++ ms).map Prod.fst).Nodup →
      ms.foldl (fun d p => Dict.assign p.1 p.2 d) d = d ++ ms := by
    intro ms
    induction ms with
    | nil => exact fun d _ => (List.append_nil d).symm
    | cons m ms ih =>
      intro d hnd
      have hm : m.1 ∉ d.map Prod.fst := fun hmem => by
        rw [List.map_append, List.map_cons] at hnd
        exact (List.nodup_append.mp hnd).2.2 _ hmem _ List.mem_cons_self rfl
      rw [List.foldl_cons, hassign m.1 m.2 d hm, ih _ (by rwa [List.append_assoc]),
        List.append_assoc]
      rfl
  exact hfold ms [] h

theorem scanOnce_number {c : Char} (hc : c.isDigit = true ∨ c = '-') (fuel : ℕ) (cs : List Char) :
    scanOnce (fuel + 1) (c :: cs) = scanNumber (c :: cs) := by
  have hne : ∀ d : Char, d.isDigit = false → d ≠ '-' → c ≠ d := fun d hd hm he =>
    hc.elim (fun hc => Bool.false_ne_true (hd.symm.trans (he ▸ hc))) fun hc => hm (he ▸ hc)
  rw [scanOnce]
  · exact fun _ he => hne '"' rfl (by decide) (List.cons.inj he).1
  · exact fun _ he => hne '{' rfl (by decide) (List.cons.inj he).1
  · exact fun _ he => hne '[' rfl (by decide) (List.cons.inj he).1
  · exact fun _ he => hne 'n' rfl (by decide) (List.cons.inj he).1
  · exact fun _ he => hne 't' rfl (by decide) (List.cons.inj he).1
  · exact fun _ he => hne 'f' rfl (by decide) (List.cons.inj he).1

/-- What scanning with the given depth does with the text of a value, of the rest of an array and of
the rest of an object. -/
structure ScansBack (fuel : ℕ) : Prop where
  value : ∀ v rest, v.Exact → Follows rest → 2 * (dumps v).length ≤ fuel →
    scanOnce fuel (dumps v ++ rest) = some (v, rest)
  elements : ∀ x xs rest, x.Exact → ExactElements xs →
    2 * ((dumps x).length + (elementsText xs).length) < fuel →
    scanElements fuel (dumps x ++ (elementsText xs ++ rest)) = some (x :: xs, rest)
  members : ∀ k v ms rest, (∀ c ∈ k, IsScalar c) → v.Exact → ExactMembers ms →
    2 * ((stringText k).length + 2 + (dumps v).length + (membersText ms).length) < fuel →
    scanMembers fuel (stringText k ++ ':' :: ' ' :: (dumps v ++ (membersText ms ++ rest))) =
      some ((k, v) :: ms, rest)

theorem scansBack_zero : ScansBack 0 := by
  refine ⟨fun v rest h _ hf => ?_, fun _ _ _ _ _ hf => absurd hf (Nat.not_lt_zero _),
    fun _ _ _ _ _ _ _ hf => absurd hf (Nat.not_lt_zero _)⟩
  obtain ⟨c, cs, he, -⟩ := dumps_cons h
  rw [he, List.length_cons] at hf
  omega

/-- A value, from what may be nested in it. -/
theorem ScansBack.value_succ {fuel : ℕ} (ih : ScansBack fuel) {v : Value} {rest : List Char}
    (h : v.Exact) (hrest : Follows rest) (hf : 2 * (dumps v).length ≤ fuel + 1) :
    scanOnce (fuel + 1) (dumps v ++ rest) = some (v, rest) := by
  cases v with
  | null => rw [dumps]; rfl
  | bool b =>
    cases b with
    | true => rw [dumps]; rfl
    | false => rw [dumps]; rfl
  | int n =>
    rw [Value.Exact] at h
    have hscan := scanNumber_intText hrest h
    obtain ⟨c, cs, he, hc⟩ := intText_cons n
    rw [he, List.cons_append] at hscan
    rw [dumps, he, List.cons_append, scanOnce_number hc, hscan]
  | float => exact (by rwa [Value.Exact] at h : False).elim
  | str s =>
    rw [Value.Exact] at h
    rw [dumps, List.cons_append, scanOnce, scanString_stringText h]
    rfl
  | array xs =>
    rw [Value.Exact] at h
    cases xs with
    | nil => rw [dumps]; rfl
    | cons x xs =>
      rw [ExactElements] at h
      rw [dumps, List.length_cons, List.length_append] at hf
      have helements := ih.elements x xs rest h.1 h.2 (by omega)
      obtain ⟨c, cs, he, hws, hc, -⟩ := dumps_cons h.1
      rw [he, List.cons_append] at helements
      rw [dumps, he]
      simp only [List.cons_append, List.append_assoc]
      rw [scanOnce, skipWs_cons hws]
      split
      · exact absurd (List.cons.inj ‹_›).1 hc
      · rw [helements]
        rfl
  | object ms =>
    rw [Value.Exact] at h
    cases ms with
    | nil => rw [dumps]; rfl
    | cons m ms =>
      obtain ⟨k, v⟩ := m
      obtain ⟨hnodup, hexact⟩ := h
      rw [ExactMembers] at hexact
      rw [dumps] at hf
      simp only [List.length_cons, List.length_append] at hf
      have hmembers := ih.members k v ms rest hexact.1 hexact.2.1 hexact.2.2 (by omega)
      rw [dumps]
      simp only [List.cons_append, List.append_assoc]
      rw [scanOnce, skipWs_cons (by decide)]
      change (scanMembers fuel _).map (fun p => (Value.object (dictOf p.1), p.2)) = _
      rw [hmembers, Option.map_some, dictOf_of_nodup hnodup]

theorem follows_elementsText (xs : List Value) (rest : List Char) :
    Follows (elementsText xs ++ rest) := by
  cases xs with
  | nil => rw [elementsText]; exact follows_cons (by decide) _
  | cons x xs => rw [elementsText]; exact follows_cons (by decide) _

theorem follows_membersText (ms : List (Str × Value)) (rest : List Char) :
    Follows (membersText ms ++ rest) := by
  cases ms with
  | nil => rw [membersText]; exact follows_cons (by decide) _
  | cons m ms =>
    obtain ⟨k, v⟩ := m
    rw [membersText]
    exact follows_cons (by decide) _

theorem ScansBack.succ {fuel : ℕ} (ih : ScansBack fuel) : ScansBack (fuel + 1) := by
  refine ⟨fun v rest h hrest hf => ih.value_succ h hrest hf, fun x xs rest hx hxs hf => ?_,
    fun k v ms rest hk hv hms hf => ?_⟩
  · rw [scanElements, ih.value x _ hx (follows_elementsText xs rest) (by omega)]
    cases xs with
    | nil => rw [elementsText]; rfl
    | cons y ys =>
      rw [ExactElements] at hxs
      rw [elementsText] at hf ⊢
      simp only [List.length_cons, List.length_append] at hf
      have helements := ih.elements y ys rest hxs.1 hxs.2 (by omega)
      simp only [List.cons_append, List.append_assoc]
      change (scanElements fuel (skipWs (dumps y ++ _))).map (fun p => (x :: p.1, p.2)) = _
      rw [skipWs_dumps hxs.1, helements]
      rfl
  · rw [scanMembers, scanString_stringText hk]
    -- behind the colon and the space
    change (match scanOnce fuel (skipWs (dumps v ++ _)) with
      | none => none
      | some (v, rest') => _) = _
    rw [skipWs_dumps hv, ih.value v _ hv (follows_membersText ms rest) (by omega)]
    cases ms with
    | nil => rw [membersText]; rfl
    | cons m ms =>
      obtain ⟨l, w⟩ := m
      rw [ExactMembers] at hms
      rw [membersText] at hf ⊢
      simp only [List.length_cons, List.length_append] at hf
      have hmembers := ih.members l w ms rest hms.1 hms.2.1 hms.2.2 (by omega)
      simp only [List.cons_append, List.append_assoc]
      change (scanMembers fuel (stringText l ++ _)).map (fun p => ((k, v) :: p.1, p.2)) = _
      rw [hmembers]
      rfl

theorem scansBack (fuel : ℕ) : ScansBack fuel := by
  induction fuel with
  | zero => exact scansBack_zero
  | succ fuel ih => exact ih.succ

/-- **The round trip**: what `dumps` writes of an exact value, `loads` reads back. -/
theorem loads_dumps {v : Value} (h : v.Exact) : loads (dumps v) = some v := by
  obtain ⟨c, cs, he, hws, -, hbom⟩ := dumps_cons h
  have hscan := (scansBack (2 * (dumps v).length + 1)).value v [] h follows_nil (by omega)
  rw [List.append_nil] at hscan
  have hskip : skipWs (dumps v) = dumps v := by rw [he, skipWs_cons hws]
  have hhead : (dumps v).head? ≠ some '\uFEFF' := by
    rw [he, List.head?_cons]
    exact fun h => hbom (Option.some.inj h)
  rw [loads, if_neg hhead, hskip, hscan]
  exact if_pos rfl

/-! ## What is written is ASCII -/

/-- A printable character of ASCII. -/
def Printable (c : Char) : Prop := 0x20 ≤ c.toNat ∧ c.toNat ≤ 0x7e

instance (c : Char) : Decidable (Printable c) := inferInstanceAs (Decidable (_ ∧ _))

/-- A text that is written out is checked character by character. -/
theorem printable_of_all {cs : List Char} (h : cs.all (fun c => decide (Printable c)) = true) :
    ∀ c ∈ cs, Printable c :=
  fun c hc => of_decide_eq_true (List.all_eq_true.mp h c hc)

theorem printable_digitChar : ∀ d < 16, Printable d.digitChar := by decide

theorem printable_unicode {n : ℕ} (hn : n < 0x10000) : ∀ c ∈ unicode n, Printable c := by
  rw [unicode]
  simp only [List.forall_mem_cons]
  exact ⟨by decide, by decide, printable_digitChar _ (by omega), printable_digitChar _ (by omega),
    printable_digitChar _ (by omega), printable_digitChar _ (by omega), fun _ h => nomatch h⟩

theorem printable_escape (c : CodePoint) : ∀ d ∈ escape c, Printable d := by
  unfold escape
  split
  iterate 7 next => exact printable_of_all rfl
  split
  next hprint =>
    rw [List.forall_mem_singleton, Printable, toNat_ofNat (by omega)]
    exact hprint
  next =>
    split
    next hbmp => exact printable_unicode hbmp
    next =>
      have hlt := c.isLt
      refine List.forall_mem_append.mpr ⟨printable_unicode ?_, printable_unicode ?_⟩
      · omega
      · omega

theorem printable_stringText (s : Str) : ∀ c ∈ stringText s, Printable c := by
  refine List.forall_mem_append.mpr ⟨fun c hc => ?_, printable_of_all rfl⟩
  obtain ⟨d, -, hd⟩ := List.mem_flatMap.mp hc
  exact printable_escape d c hd

theorem printable_intText (n : ℤ) : ∀ c ∈ intText n, Printable c := by
  have hdigit : ∀ c : Char, c.isDigit = true → Printable c := by
    intro c hc
    simp only [Char.isDigit, Bool.and_eq_true, decide_eq_true_eq, UInt32.le_iff_toNat_le] at hc
    exact ⟨Nat.le_trans (by decide) hc.1, Nat.le_trans hc.2 (by decide)⟩
  cases n with
  | ofNat n => exact fun c hc => hdigit c (isDigit_of_mem_toDigits c hc)
  | negSucc n =>
    rw [intText]
    exact List.forall_mem_cons.mpr ⟨by decide, fun c hc => hdigit c (isDigit_of_mem_toDigits c hc)⟩

mutual

/-- **What `dumps` writes is printable ASCII**, whatever the strings hold. -/
theorem printable_dumps : ∀ v : Value, v.Exact → ∀ c ∈ dumps v, Printable c
  | .null, _ => by rw [dumps]; exact printable_of_all rfl
  | .bool true, _ => by rw [dumps]; exact printable_of_all rfl
  | .bool false, _ => by rw [dumps]; exact printable_of_all rfl
  | .int n, _ => by rw [dumps]; exact printable_intText n
  | .float _, h => (by rwa [Value.Exact] at h : False).elim
  | .str s, _ => by
    rw [dumps]
    exact List.forall_mem_cons.mpr ⟨by decide, printable_stringText s⟩
  | .array [], _ => by rw [dumps]; exact printable_of_all rfl
  | .array (x :: xs), h => by
    rw [Value.Exact, ExactElements] at h
    rw [dumps]
    exact List.forall_mem_cons.mpr ⟨by decide, List.forall_mem_append.mpr
      ⟨printable_dumps x h.1, printable_elementsText xs h.2⟩⟩
  | .object [], _ => by rw [dumps]; exact printable_of_all rfl
  | .object ((k, v) :: ms), h => by
    rw [Value.Exact, ExactMembers] at h
    rw [dumps]
    simp only [List.forall_mem_cons, List.forall_mem_append]
    exact ⟨by decide, by decide, printable_stringText k, by decide, by decide,
      printable_dumps v h.2.2.1, printable_membersText ms h.2.2.2⟩

theorem printable_elementsText : ∀ xs : List Value, ExactElements xs →
    ∀ c ∈ elementsText xs, Printable c
  | [], _ => by rw [elementsText]; exact printable_of_all rfl
  | x :: xs, h => by
    rw [ExactElements] at h
    rw [elementsText]
    simp only [List.forall_mem_cons, List.forall_mem_append]
    exact ⟨by decide, by decide, printable_dumps x h.1, printable_elementsText xs h.2⟩

theorem printable_membersText : ∀ ms : List (Str × Value), ExactMembers ms →
    ∀ c ∈ membersText ms, Printable c
  | [], _ => by rw [membersText]; exact printable_of_all rfl
  | (k, v) :: ms, h => by
    rw [ExactMembers] at h
    rw [membersText]
    simp only [List.forall_mem_cons, List.forall_mem_append]
    exact ⟨by decide, by decide, by decide, printable_stringText k, by decide, by decide,
      printable_dumps v h.2.1, printable_membersText ms h.2.2⟩

end

end PyJson
