import Mathlib

/-!
# printf, sscanf and fgets

The conversions the `/proc` views print with `seq_printf` and the daemon and the tools read
back with `fgets` and `sscanf`, on lists of characters.

`printf`: `%d`, `%+d`, `%lu` and `%#x` print as `Nat.toDigits` does, with a minimum field
width filled with blanks on the left, or on the right for a `-` flag.

`sscanf`: a white-space character in the format skips any white space; `%d`, `%lu`, `%x` and
`%Ns` skip white space first, `%c` does not. `%d` reads a sign and at least one digit;
`%x` also takes a `0x` prefix when a hex digit follows it. The value of a `%d` is the
integer the digits denote: a value out of `int` range is undefined behaviour in C and never
arises from text an `int` was printed into. `sscanf` returns the number of conversions, or
`EOF` when the input is only white space; every format here starts with a conversion that
skips white space, for which that is C's rule.
-/

namespace SmartScheduler.Text

def isSpace (c : Char) : Bool :=
  c = ' ' || c = '\t' || c = '\n' || c = '\x0b' || c = '\x0c' || c = '\r'

def decimal (n : Int) : List Char :=
  if n < 0 then '-' :: Nat.toDigits 10 n.natAbs else Nat.toDigits 10 n.natAbs

def signedDecimal (n : Int) : List Char :=
  if n < 0 then '-' :: Nat.toDigits 10 n.natAbs else '+' :: Nat.toDigits 10 n.natAbs

def alternateHex (n : Nat) : List Char :=
  if n = 0 then ['0'] else '0' :: 'x' :: Nat.toDigits 16 n

def padLeft (width : Nat) (field : List Char) : List Char :=
  List.replicate (width - field.length) ' ' ++ field

def padRight (width : Nat) (field : List Char) : List Char :=
  field ++ List.replicate (width - field.length) ' '

inductive Field
  | left (width : Nat) (text : List Char)
  | right (width : Nat) (text : List Char)

def Field.render : Field → List Char
  | .left width text => padRight width text
  | .right width text => padLeft width text

def joinFields : List Field → List Char → List Char
  | [], tail => tail
  | [f], tail => f.render ++ tail
  | f :: fs, tail => f.render ++ ' ' :: joinFields fs tail

inductive Directive
  /-- A white-space character (a blank or a tab). -/
  | space
  /-- `%d`. -/
  | int
  /-- `%Ns`. -/
  | word (width : Nat)
  /-- `%c`. -/
  | char
  /-- `%x`. -/
  | hex
  /-- `%lu`. -/
  | ulong
  deriving DecidableEq, Repr

inductive Value
  | int (n : Int)
  | word (s : List Char)
  | char (c : Char)
  | nat (n : Nat)
  deriving DecidableEq, Repr

def skipSpace (input : List Char) : List Char := input.dropWhile isSpace

def hexDigit (c : Char) : Option Nat :=
  if '0' ≤ c ∧ c ≤ '9' then some (c.toNat - '0'.toNat)
  else if 'a' ≤ c ∧ c ≤ 'f' then some (c.toNat - 'a'.toNat + 10)
  else if 'A' ≤ c ∧ c ≤ 'F' then some (c.toNat - 'A'.toNat + 10)
  else none

def digitValue (base : Nat) (c : Char) : Option Nat := (hexDigit c).filter (· < base)

def digitsFrom (base acc : Nat) : List Char → Nat × List Char
  | [] => (acc, [])
  | c :: cs =>
    match digitValue base c with
    | some v => digitsFrom base (acc * base + v) cs
    | none => (acc, c :: cs)

def scanDigits (base : Nat) (input : List Char) : Option (Nat × List Char) :=
  match input with
  | c :: _ => if (digitValue base c).isSome then some (digitsFrom base 0 input) else none
  | [] => none

def scanSigned (base : Nat) : List Char → Option (Bool × Nat × List Char)
  | '-' :: rest => (scanDigits base rest).map fun r => (true, r)
  | '+' :: rest => (scanDigits base rest).map fun r => (false, r)
  | input => (scanDigits base input).map fun r => (false, r)

def scanHex (input : List Char) : Option (Nat × List Char) :=
  match input with
  | '0' :: x :: c :: rest =>
    if (x = 'x' ∨ x = 'X') ∧ (digitValue 16 c).isSome then scanDigits 16 (c :: rest)
    else scanDigits 16 input
  | _ => scanDigits 16 input

def convert : Directive → List Char → Option (Value × List Char)
  | .space, _ => none
  | .int, input => (scanSigned 10 (skipSpace input)).map fun r =>
      (.int (if r.1 then -(r.2.1 : Int) else r.2.1), r.2.2)
  | .word width, input =>
    match skipSpace input with
    | [] => none
    | chars =>
      let word := (chars.takeWhile fun c => !isSpace c).take width
      some (.word word, chars.drop word.length)
  | .char, input =>
    match input with
    | c :: rest => some (.char c, rest)
    | [] => none
  | .hex, input => (scanHex (skipSpace input)).map fun r => (.nat (r.1 % 2 ^ 32), r.2)
  | .ulong, input => (scanSigned 10 (skipSpace input)).map fun r =>
      (.nat (if r.1 then (2 ^ 64 - r.2.1 % 2 ^ 64) % 2 ^ 64 else r.2.1 % 2 ^ 64), r.2.2)

def scan : List Directive → List Char → List Value
  | [], _ => []
  | .space :: format, input => scan format (skipSpace input)
  | directive :: format, input =>
    match convert directive input with
    | some (value, rest) => value :: scan format rest
    | none => []

def sscanf (format : List Directive) (input : List Char) : Int × List Value :=
  let values := scan format input
  (if values = [] ∧ skipSpace input = [] then -1 else values.length, values)

def takeLine : Nat → List Char → List Char × List Char
  | 0, input => ([], input)
  | _ + 1, [] => ([], [])
  | n + 1, c :: cs =>
    if c = '\n' then (['\n'], cs)
    else
      let rest := takeLine n cs
      (c :: rest.1, rest.2)

def fgets (size : Nat) (input : List Char) : Option (List Char × List Char) :=
  if input = [] then none else some (takeLine (size - 1) input)

def readLinesFuel (size : Nat) : Nat → List Char → List (List Char)
  | 0, _ => []
  | fuel + 1, input =>
    match fgets size input with
    | none => []
    | some (line, rest) => line :: readLinesFuel size fuel rest

def readLines (size : Nat) (input : List Char) : List (List Char) :=
  readLinesFuel size input.length input

section Digits

variable {base : Nat}

theorem toDigitsCore_append (fuel n : Nat) (ds : List Char) :
    Nat.toDigitsCore base fuel n ds = Nat.toDigitsCore base fuel n [] ++ ds := by
  induction fuel generalizing n ds with
  | zero => rfl
  | succ fuel ih =>
    simp only [Nat.toDigitsCore]
    split
    · rfl
    · rw [ih, ih _ [_], List.append_assoc]; rfl

theorem hexDigit_digitChar {d : Nat} (hd : d < 16) : hexDigit (Nat.digitChar d) = some d := by
  interval_cases d <;> rfl

theorem digitValue_digitChar {d : Nat} (hd : d < base) (small : base ≤ 16) :
    digitValue base (Nat.digitChar d) = some d := by
  simp [digitValue, hexDigit_digitChar (lt_of_lt_of_le hd small), hd]

theorem mem_toDigitsCore (positive : 0 < base) (fuel n : Nat) :
    ∀ c ∈ Nat.toDigitsCore base fuel n [], ∃ d < base, c = Nat.digitChar d := by
  induction fuel generalizing n with
  | zero => simp [Nat.toDigitsCore]
  | succ fuel ih =>
    simp only [Nat.toDigitsCore]
    split
    · simpa using ⟨n % base, Nat.mod_lt _ positive, rfl⟩
    · rw [toDigitsCore_append]
      intro c mem
      rcases List.mem_append.mp mem with before | last
      · exact ih _ c before
      · exact ⟨n % base, Nat.mod_lt _ positive, List.mem_singleton.mp last⟩

def digitsValue (base acc : Nat) (digits : List Char) : Nat :=
  digits.foldl (fun acc c => acc * base + (digitValue base c).getD 0) acc

theorem digitsFrom_append {digits : List Char} (acc : Nat)
    (all : ∀ c ∈ digits, (digitValue base c).isSome) (rest : List Char) :
    digitsFrom base acc (digits ++ rest) = digitsFrom base (digitsValue base acc digits) rest := by
  induction digits generalizing acc with
  | nil => rfl
  | cons c cs ih =>
    obtain ⟨v, hv⟩ := Option.isSome_iff_exists.mp (all c (List.mem_cons_self _ _))
    simp only [List.cons_append, digitsFrom, hv, digitsValue, List.foldl_cons, Option.getD_some]
    exact ih _ fun c' mem => all c' (List.mem_cons_of_mem _ mem)

theorem digitsValue_toDigitsCore (two : 2 ≤ base) (small : base ≤ 16) :
    ∀ fuel n, n < fuel → digitsValue base 0 (Nat.toDigitsCore base fuel n []) = n
  | 0, _, h => absurd h (Nat.not_lt_zero _)
  | fuel + 1, n, h => by
    have digit := digitValue_digitChar (Nat.mod_lt n (by omega)) small
    simp only [Nat.toDigitsCore]
    split
    case isTrue last =>
      have : n < base := (Nat.div_eq_zero_iff (by omega : 0 < base)).mp last
      simp only [digitsValue, List.foldl_cons, List.foldl_nil, digit, Option.getD_some,
        Nat.zero_mul, Nat.zero_add]
      exact Nat.mod_eq_of_lt this
    case isFalse more =>
      rw [toDigitsCore_append]
      have shorter : n / base < fuel := by
        have := Nat.div_lt_self (Nat.pos_of_ne_zero fun zero => more (zero ▸ Nat.zero_div base))
          (by omega : 1 < base)
        omega
      simp only [digitsValue, List.foldl_append, List.foldl_cons, List.foldl_nil, digit,
        Option.getD_some]
      rw [← digitsValue, digitsValue_toDigitsCore two small fuel _ shorter, Nat.div_add_mod']

def EndsNumber (base : Nat) (rest : List Char) : Prop :=
  ∀ c rest', rest = c :: rest' → digitValue base c = none

theorem digitsFrom_end {rest : List Char} (ends : EndsNumber base rest) (acc : Nat) :
    digitsFrom base acc rest = (acc, rest) := by
  cases rest with
  | nil => rfl
  | cons c cs => simp [digitsFrom, ends c cs rfl]

theorem toDigits_ne_nil (n : Nat) : Nat.toDigits base n ≠ [] := by
  simp only [Nat.toDigits, Nat.toDigitsCore]
  split
  · simp
  · rw [toDigitsCore_append]; simp

theorem scanDigits_toDigits (two : 2 ≤ base) (small : base ≤ 16) (n : Nat) {rest : List Char}
    (ends : EndsNumber base rest) : scanDigits base (Nat.toDigits base n ++ rest) = some (n, rest) := by
  have digits : ∀ c ∈ Nat.toDigits base n, (digitValue base c).isSome := fun c mem => by
    obtain ⟨d, hd, rfl⟩ := mem_toDigitsCore (by omega) _ _ c mem
    simp [digitValue_digitChar hd small]
  obtain ⟨c, cs, split⟩ := List.exists_cons_of_ne_nil (@toDigits_ne_nil base n)
  have first := digits c (split ▸ List.mem_cons_self _ _)
  rw [split] at digits ⊢
  simp only [scanDigits, List.cons_append, first, if_true, Option.some.injEq]
  rw [← List.cons_append, digitsFrom_append 0 digits, digitsFrom_end ends, ← split]
  exact congrArg (·, rest) (digitsValue_toDigitsCore two small _ _ (Nat.lt_succ_self n))

theorem digitChar_plain {d : Nat} (hd : d < 16) :
    Nat.digitChar d ≠ '-' ∧ Nat.digitChar d ≠ '+' ∧ Nat.digitChar d ≠ 'x' ∧ Nat.digitChar d ≠ 'X' ∧
      isSpace (Nat.digitChar d) = false := by
  interval_cases d <;> decide

theorem toDigits_cons (positive : 0 < base) (n : Nat) :
    ∃ d < base, ∃ cs, Nat.toDigits base n = Nat.digitChar d :: cs := by
  obtain ⟨c, cs, split⟩ := List.exists_cons_of_ne_nil (@toDigits_ne_nil base n)
  obtain ⟨d, hd, rfl⟩ := mem_toDigitsCore positive _ _ c (split ▸ List.mem_cons_self _ _)
  exact ⟨d, hd, cs, split⟩

theorem length_toDigits_le {n e : Nat} (two : 2 ≤ base) (lt : n < base ^ e) (pos : 0 < e) :
    (Nat.toDigits base n).length ≤ e :=
  Nat.toDigitsCore_length base two _ n e lt pos

end Digits

def Solid (text : List Char) : Prop := ∀ c ∈ text, isSpace c = false

instance (text : List Char) : Decidable (Solid text) :=
  inferInstanceAs (Decidable (∀ c ∈ text, isSpace c = false))

theorem solid_toDigits {base : Nat} (positive : 0 < base) (small : base ≤ 16) (n : Nat) :
    Solid (Nat.toDigits base n) := fun c mem => by
  obtain ⟨d, hd, rfl⟩ := mem_toDigitsCore positive _ _ c mem
  exact (digitChar_plain (by omega)).2.2.2.2

theorem solid_decimal (n : Int) : Solid (decimal n) := by
  unfold decimal; split
  · rintro c (_ | ⟨_, mem⟩)
    · rfl
    · exact solid_toDigits (by decide) (by decide) _ c mem
  · exact solid_toDigits (by decide) (by decide) _

theorem solid_signedDecimal (n : Int) : Solid (signedDecimal n) := by
  unfold signedDecimal; split <;> rintro c (_ | ⟨_, mem⟩)
  all_goals first | rfl | exact solid_toDigits (by decide) (by decide) _ c mem

theorem solid_alternateHex (n : Nat) : Solid (alternateHex n) := by
  unfold alternateHex; split
  · rintro c (_ | ⟨_, ⟨⟩⟩); rfl
  · rintro c (_ | ⟨_, _ | ⟨_, mem⟩⟩)
    all_goals first | rfl | exact solid_toDigits (by decide) (by decide) _ c mem

theorem Solid.newline {text : List Char} (solid : Solid text) : '\n' ∉ text :=
  fun mem => absurd (solid _ mem) (by decide)

theorem length_decimal_le {n : Int} {e : Nat} (lt : n.natAbs < 10 ^ e) (pos : 0 < e) :
    (decimal n).length ≤ e + 1 := by
  have := length_toDigits_le (by decide) lt pos
  unfold decimal; split <;> simp <;> omega

theorem length_signedDecimal_le {n : Int} {e : Nat} (lt : n.natAbs < 10 ^ e) (pos : 0 < e) :
    (signedDecimal n).length ≤ e + 1 := by
  have := length_toDigits_le (by decide) lt pos
  unfold signedDecimal; split <;> simp <;> omega

theorem length_alternateHex_le {n e : Nat} (lt : n < 16 ^ e) (pos : 0 < e) :
    (alternateHex n).length ≤ e + 2 := by
  have := length_toDigits_le (by decide) lt pos
  unfold alternateHex; split <;> simp; omega

/-! ## Printed fields read back

`sscanf` reads back each field `printf` wrote when what follows the field ends it: a blank
after a number, any white space after a word. A line of fields separated by blanks is read
back whole by the conversions separated by white-space directives (`scan_joinFields`). -/

def Stops (rest : List Char) : Prop := ∀ c cs, rest = c :: cs → isSpace c = true

def Starts (rest : List Char) : Prop := ∀ c cs, rest = c :: cs → isSpace c = false

theorem stops_space (rest : List Char) : Stops (' ' :: rest) := by
  rintro c cs ⟨⟩; rfl

theorem stops_newline : Stops ['\n'] := by
  rintro c cs ⟨⟩; rfl

theorem stops_blanks (n : Nat) {rest : List Char} (stops : Stops rest) :
    Stops (List.replicate n ' ' ++ rest) := by
  cases n with
  | zero => exact stops
  | succ n => exact stops_space _

theorem Starts.append {text : List Char} (starts : Starts text) (nonempty : text ≠ [])
    (rest : List Char) : Starts (text ++ rest) := by
  obtain ⟨c, cs, rfl⟩ := List.exists_cons_of_ne_nil nonempty
  rintro c' cs' ⟨⟩
  exact starts c cs rfl

theorem hexDigit_of_space {c : Char} (space : isSpace c = true) : hexDigit c = none := by
  simp only [isSpace, Bool.or_eq_true, decide_eq_true_eq] at space
  rcases space with ((((rfl | rfl) | rfl) | rfl) | rfl) | rfl <;> rfl

theorem Stops.endsNumber {rest : List Char} (stops : Stops rest) (base : Nat) :
    EndsNumber base rest :=
  fun c cs split => by simp [digitValue, hexDigit_of_space (stops c cs split)]

theorem skipSpace_of_starts {rest : List Char} (starts : Starts rest) : skipSpace rest = rest := by
  cases rest with
  | nil => rfl
  | cons c cs => simp [skipSpace, List.dropWhile, starts c cs rfl]

theorem skipSpace_append {pre rest : List Char} (blank : ∀ c ∈ pre, isSpace c = true)
    (starts : Starts rest) : skipSpace (pre ++ rest) = rest := by
  induction pre with
  | nil => exact skipSpace_of_starts starts
  | cons c cs ih =>
    simp only [List.cons_append, skipSpace, List.dropWhile, blank c (List.mem_cons_self _ _)]
    exact ih fun c' mem => blank c' (List.mem_cons_of_mem _ mem)

theorem starts_toDigits {base : Nat} (positive : 0 < base) (small : base ≤ 16) (n : Nat) :
    Starts (Nat.toDigits base n) := by
  obtain ⟨d, hd, cs, split⟩ := toDigits_cons positive n
  rw [split]
  rintro c cs' ⟨⟩
  exact (digitChar_plain (by omega)).2.2.2.2

theorem scanSigned_toDigits {base : Nat} {cs : List Char} (two : 2 ≤ base) (small : base ≤ 16)
    (n : Nat) (ends : EndsNumber base cs) :
    scanSigned base (Nat.toDigits base n ++ cs) = some (false, n, cs) := by
  obtain ⟨d, hd, ds, split⟩ := @toDigits_cons base (by omega) n
  obtain ⟨minus, plus, -⟩ := digitChar_plain (by omega : d < 16)
  have digits := scanDigits_toDigits two small n ends
  rw [split] at digits ⊢
  unfold scanSigned
  split
  · simp_all
  · simp_all
  · simpa using digits

structure Reads (d : Directive) (text : List Char) (v : Value) : Prop where
  conversion : d ≠ .space
  nonempty : text ≠ []
  starts : Starts text
  converts : ∀ rest, Stops rest → convert d (text ++ rest) = some (v, rest)

theorem reads_decimal (n : Int) : Reads .int (decimal n) (.int n) := by
  refine ⟨nofun, by unfold decimal; split <;> simp [toDigits_ne_nil], ?_, fun rest stops => ?_⟩
  · unfold decimal
    split
    · rintro c cs ⟨⟩; rfl
    · exact starts_toDigits (by decide) (by decide) _
  · unfold decimal
    split
    case isTrue negative =>
      rw [List.cons_append, convert, skipSpace_of_starts (by rintro c cs ⟨⟩; rfl)]
      simp [scanSigned, scanDigits_toDigits (by decide) (by decide) _ (stops.endsNumber 10),
        abs_of_neg negative]
    case isFalse positive =>
      rw [convert, skipSpace_of_starts ((starts_toDigits (by decide) (by decide) _).append
          (toDigits_ne_nil _) _), scanSigned_toDigits (by decide) (by decide) _ (stops.endsNumber 10)]
      simp [abs_of_nonneg (not_lt.mp positive)]

theorem reads_signedDecimal (n : Int) : Reads .int (signedDecimal n) (.int n) := by
  refine ⟨nofun, by unfold signedDecimal; split <;> simp, ?_, fun rest stops => ?_⟩
  · unfold signedDecimal
    split <;> rintro c cs ⟨⟩ <;> rfl
  · have digits := scanDigits_toDigits (by decide) (by decide) n.natAbs (stops.endsNumber 10)
    unfold signedDecimal
    split <;> rw [List.cons_append, convert, skipSpace_of_starts (by rintro c cs ⟨⟩; rfl)]
    case isTrue negative => simp [scanSigned, digits, abs_of_neg negative]
    case isFalse positive => simp [scanSigned, digits, abs_of_nonneg (not_lt.mp positive)]

theorem reads_ulong (n : UInt64) : Reads .ulong (Nat.toDigits 10 n.toNat) (.nat n.toNat) := by
  have starts := @starts_toDigits 10 (by decide) (by decide) n.toNat
  refine ⟨nofun, toDigits_ne_nil _, starts, fun rest stops => ?_⟩
  rw [convert, skipSpace_of_starts (starts.append (toDigits_ne_nil _) _),
    scanSigned_toDigits (by decide) (by decide) _ (stops.endsNumber 10)]
  simp [Nat.mod_eq_of_lt n.toNat_lt]

theorem reads_alternateHex (n : UInt32) : Reads .hex (alternateHex n.toNat) (.nat n.toNat) := by
  have small : n.toNat < 4294967296 := n.toNat_lt
  refine ⟨nofun, by unfold alternateHex; split <;> simp, ?_, fun rest stops => ?_⟩
  · unfold alternateHex
    split <;> rintro c cs ⟨⟩ <;> rfl
  unfold alternateHex
  split
  case isTrue zero =>
    have scanned : scanHex ('0' :: rest) = some (0, rest) := by
      have digits := scanDigits_toDigits (by decide) (by decide) 0 (stops.endsNumber 16)
      match rest, stops with
      | [], _ => rfl
      | [c], _ => exact digits
      | c :: x :: cs, stops =>
        have notX : ¬(c = 'x' ∨ c = 'X') := by
          rintro (rfl | rfl) <;> exact absurd (stops _ _ rfl) (by decide)
        simpa [scanHex, notX] using digits
    rw [List.singleton_append, convert, skipSpace_of_starts (by rintro c cs ⟨⟩; rfl), scanned]
    simp [zero]
  case isFalse nonzero =>
    obtain ⟨d, hd, ds, split⟩ := toDigits_cons (by decide : 0 < 16) n.toNat
    have digit : (digitValue 16 (Nat.digitChar d)).isSome := by
      simp [digitValue_digitChar hd (le_refl 16)]
    have digits := scanDigits_toDigits (by decide) (by decide) n.toNat (stops.endsNumber 16)
    rw [List.cons_append, List.cons_append, convert, skipSpace_of_starts (by rintro c cs ⟨⟩; rfl)]
    rw [split] at digits ⊢
    simp only [List.cons_append] at digits
    simp [scanHex, digit, digits, small]

theorem reads_word {word : List Char} {width : Nat} (nonempty : word ≠ [])
    (solid : ∀ c ∈ word, isSpace c = false) (fits : word.length ≤ width) :
    Reads (.word width) word (.word word) := by
  obtain ⟨c, cs, rfl⟩ := List.exists_cons_of_ne_nil nonempty
  have starts : Starts (c :: cs) := by rintro c' cs' ⟨⟩; exact solid c (List.mem_cons_self _ _)
  refine ⟨nofun, nonempty, starts, fun rest stops => ?_⟩
  have taken : (c :: (cs ++ rest)).takeWhile (fun c => !isSpace c) = c :: cs := by
    rw [← List.cons_append, List.takeWhile_append_of_pos (by simpa using solid)]
    cases rest with
    | nil => simp
    | cons r rs => simp [stops r rs rfl]
  rw [convert, skipSpace_of_starts (starts.append nonempty _)]
  simp only [List.cons_append, taken, List.take_of_length_le fits]
  simp

theorem Reads.scan_cons {d : Directive} {text : List Char} {v : Value} (reads : Reads d text v)
    {rest : List Char} (stops : Stops rest) (format : List Directive) :
    scan (d :: format) (text ++ rest) = v :: scan format rest := by
  cases d <;> first | exact absurd rfl reads.conversion | simp [scan, reads.converts rest stops]

theorem reads_char {c : Char} (solid : isSpace c = false) : Reads .char [c] (.char c) :=
  ⟨nofun, List.cons_ne_nil _ _, by rintro c' cs ⟨⟩; exact solid, fun _ _ => rfl⟩

section Fields

def Field.lead : Field → List Char
  | .left _ _ => []
  | .right width text => List.replicate (width - text.length) ' '

def Field.text : Field → List Char
  | .left _ text | .right _ text => text

def Field.trail : Field → List Char
  | .left width text => List.replicate (width - text.length) ' '
  | .right _ _ => []

theorem Field.render_append (f : Field) (rest : List Char) :
    f.render ++ rest = f.lead ++ (f.text ++ (f.trail ++ rest)) := by
  cases f <;> simp [Field.render, Field.lead, Field.text, Field.trail, padLeft, padRight]

theorem Field.lead_blank (f : Field) : ∀ c ∈ f.lead, isSpace c = true := by
  cases f <;> simp +contextual [Field.lead, List.mem_replicate, isSpace]

theorem Field.trail_blank (f : Field) : ∀ c ∈ f.trail, isSpace c = true := by
  cases f <;> simp +contextual [Field.trail, List.mem_replicate, isSpace]

theorem Field.stops_trail (f : Field) {rest : List Char} (stops : Stops rest) :
    Stops (f.trail ++ rest) := by
  cases f
  · exact stops_blanks _ stops
  · exact stops

structure Column where
  directive : Directive
  field : Field
  value : Value

variable {tail : List Char}

theorem scan_space_joinFields (stops : Stops tail) :
    ∀ (cs : List Column) (pre : List Char), (∀ c ∈ pre, isSpace c = true) →
      (∀ x ∈ cs, Reads x.directive x.field.text x.value) →
      scan (.space :: (cs.map Column.directive).intersperse .space)
        (pre ++ joinFields (cs.map Column.field) tail) = cs.map Column.value
  | [], _, _, _ => rfl
  | c :: cs, pre, blank, reads => by
    have first := reads c (List.mem_cons_self _ _)
    have skipped : ∀ rest, skipSpace (pre ++ (c.field.render ++ rest)) =
        c.field.text ++ (c.field.trail ++ rest) := fun rest => by
      rw [Field.render_append, ← List.append_assoc]
      exact skipSpace_append (by simpa [or_imp, forall_and] using ⟨blank, c.field.lead_blank⟩)
        (first.starts.append first.nonempty _)
    cases cs with
    | nil =>
      simp only [List.map, List.intersperse, joinFields, scan, skipped]
      rw [first.scan_cons (c.field.stops_trail stops)]
      rfl
    | cons c' cs =>
      have rest := scan_space_joinFields stops (c' :: cs) (c.field.trail ++ [' '])
        (by simpa [or_imp, forall_and, isSpace] using c.field.trail_blank) fun x mem =>
          reads x (List.mem_cons_of_mem _ mem)
      simp only [List.map, List.intersperse, joinFields, scan, skipped] at rest ⊢
      rw [first.scan_cons (c.field.stops_trail (stops_space _))]
      simpa using rest

theorem scan_joinFields (c : Column) (cs : List Column) (stops : Stops tail)
    (left : c.field.lead = []) (reads : ∀ x ∈ c :: cs, Reads x.directive x.field.text x.value) :
    scan (((c :: cs).map Column.directive).intersperse .space)
      (joinFields ((c :: cs).map Column.field) tail) = (c :: cs).map Column.value := by
  have all := scan_space_joinFields stops (c :: cs) [] (by simp) reads
  obtain ⟨rest, line⟩ : ∃ rest, joinFields ((c :: cs).map Column.field) tail = c.field.render ++ rest := by
    cases cs <;> exact ⟨_, rfl⟩
  have first := reads c (List.mem_cons_self _ _)
  have starts : Starts (joinFields ((c :: cs).map Column.field) tail) := by
    rw [line, Field.render_append, left]
    exact first.starts.append first.nonempty _
  rwa [List.nil_append, scan, skipSpace_of_starts starts] at all

end Fields

theorem sscanf_of_scan {format : List Directive} {input : List Char} {v : Value} {vs : List Value}
    (scanned : scan format input = v :: vs) :
    sscanf format input = (((v :: vs).length : Int), v :: vs) := by
  simp [sscanf, scanned]

def IsLine : List Char → Bool
  | [] => false
  | c :: cs => if c = '\n' then cs = [] else IsLine cs

theorem takeLine_append {line : List Char} (isLine : IsLine line) {n : Nat} (fits : line.length ≤ n)
    (rest : List Char) : takeLine n (line ++ rest) = (line, rest) := by
  induction line generalizing n with
  | nil => simp [IsLine] at isLine
  | cons c cs ih =>
    obtain ⟨n, rfl⟩ : ∃ m, n = m + 1 := ⟨n - 1, by simp at fits; omega⟩
    unfold IsLine at isLine
    split at isLine
    case isTrue newline => simp_all [takeLine]
    case isFalse other =>
      simp [takeLine, other, ih isLine (by simpa using fits)]

def FitsLine (size : Nat) (line : List Char) : Prop := IsLine line = true ∧ line.length < size

instance (size : Nat) (line : List Char) : Decidable (FitsLine size line) :=
  inferInstanceAs (Decidable (_ ∧ _))

theorem FitsLine.mono {size size' : Nat} {line : List Char} (fits : FitsLine size line)
    (le : size ≤ size') : FitsLine size' line :=
  ⟨fits.1, lt_of_lt_of_le fits.2 le⟩

theorem fgets_append {size : Nat} {line : List Char} (fits : FitsLine size line) (rest : List Char) :
    fgets size (line ++ rest) = some (line, rest) := by
  have nonempty : line ≠ [] := by rintro rfl; simp [FitsLine, IsLine] at fits
  have short := fits.2
  simp [fgets, nonempty, takeLine_append fits.1 (by omega : line.length ≤ size - 1)]

theorem length_le_length_flatten {lines : List (List Char)} (nonempty : ∀ l ∈ lines, l ≠ []) :
    lines.length ≤ lines.flatten.length := by
  induction lines with
  | nil => rfl
  | cons l ls ih =>
    have : 0 < l.length := List.length_pos.mpr (nonempty l (List.mem_cons_self _ _))
    simp only [List.length_cons, List.flatten_cons, List.length_append]
    have := ih fun l' mem => nonempty l' (List.mem_cons_of_mem _ mem)
    omega

theorem readLines_flatten {size : Nat} {lines : List (List Char)} (fits : ∀ l ∈ lines, FitsLine size l) :
    readLines size lines.flatten = lines := by
  have nonempty : ∀ l ∈ lines, l ≠ [] := by
    rintro l mem rfl
    exact absurd (fits [] mem).1 (by decide)
  suffices ∀ fuel, lines.length ≤ fuel → readLinesFuel size fuel lines.flatten = lines from
    this _ (length_le_length_flatten nonempty)
  induction lines with
  | nil => rintro (_ | fuel) _ <;> rfl
  | cons l ls ih =>
    rintro (_ | fuel) enough
    · simp at enough
    · simp only [List.flatten_cons, readLinesFuel, fgets_append (fits l (List.mem_cons_self _ _))]
      rw [ih (fun l' mem => fits l' (List.mem_cons_of_mem _ mem))
        (fun l' mem => nonempty l' (List.mem_cons_of_mem _ mem)) fuel (by simpa using enough)]

theorem isLine_append_newline {line : List Char} (newline : '\n' ∉ line) :
    IsLine (line ++ ['\n']) = true := by
  induction line with
  | nil => rfl
  | cons c cs ih =>
    have other : c ≠ '\n' := fun same => newline (same ▸ List.mem_cons_self _ _)
    simp [IsLine, other, ih (fun mem => newline (List.mem_cons_of_mem _ mem))]

theorem joinFields_append_tail : ∀ (fs : List Field) (tail : List Char),
    joinFields fs tail = joinFields fs [] ++ tail
  | [], _ => rfl
  | [f], tail => by simp [joinFields]
  | f :: g :: fs, tail => by simp [joinFields, joinFields_append_tail (g :: fs) tail]

theorem Field.mem_render {c : Char} {f : Field} (mem : c ∈ f.render) : c = ' ' ∨ c ∈ f.text := by
  cases f <;> simp only [Field.render, padLeft, padRight, Field.text, List.mem_append,
    List.mem_replicate] at mem ⊢ <;> tauto

theorem joinFields_append (f : Field) (fs : List Field) {gs : List Field} (more : gs ≠ [])
    (tail : List Char) : joinFields (f :: fs ++ gs) tail = joinFields (f :: fs) (' ' :: joinFields gs tail) := by
  induction fs generalizing f with
  | nil =>
    obtain ⟨g, gs, rfl⟩ := List.exists_cons_of_ne_nil more
    rfl
  | cons f' fs ih => exact congrArg (fun rest => f.render ++ ' ' :: rest) (ih f')

theorem mem_joinFields {c : Char} : ∀ {fs : List Field}, c ∈ joinFields fs [] →
    c = ' ' ∨ ∃ f ∈ fs, c ∈ f.text
  | [], mem => absurd mem (List.not_mem_nil _)
  | [f], mem => by
    rcases Field.mem_render (by simpa [joinFields] using mem) with blank | text
    · exact .inl blank
    · exact .inr ⟨f, List.mem_singleton_self _, text⟩
  | f :: g :: fs, mem => by
    simp only [joinFields, List.mem_append, List.mem_cons] at mem
    rcases mem with rendered | blank | rest
    · rcases Field.mem_render rendered with blank | text
      · exact .inl blank
      · exact .inr ⟨f, List.mem_cons_self _ _, text⟩
    · exact .inl blank
    · rcases mem_joinFields rest with blank | ⟨f', mem, text⟩
      · exact .inl blank
      · exact .inr ⟨f', List.mem_cons_of_mem _ mem, text⟩

theorem fitsLine_joinFields {size : Nat} {fs : List Field} (newline : ∀ f ∈ fs, '\n' ∉ f.text)
    (short : (joinFields fs []).length < size - 1) : FitsLine size (joinFields fs ['\n']) := by
  rw [joinFields_append_tail]
  refine ⟨isLine_append_newline fun mem => ?_, by simp; omega⟩
  rcases mem_joinFields mem with blank | ⟨f, mem, text⟩
  · exact absurd blank (by decide)
  · exact newline f mem text

def Field.width : Field → Nat
  | .left width _ | .right width _ => width

theorem Field.length_render (f : Field) : f.render.length = max f.width f.text.length := by
  cases f <;> simp only [Field.render, Field.width, Field.text, padLeft, padRight, List.length_append,
    List.length_replicate] <;> omega

theorem length_joinFields_le (n : Nat) : ∀ {fs : List Field},
    (∀ f ∈ fs, f.width ≤ n ∧ f.text.length ≤ n) → (joinFields fs []).length ≤ fs.length * (n + 1)
  | [], _ => Nat.zero_le _
  | [f], bounded => by
    have := bounded f (List.mem_singleton_self _)
    simp [joinFields, Field.length_render]
    omega
  | f :: g :: fs, bounded => by
    have first := bounded f (List.mem_cons_self _ _)
    have rest := length_joinFields_le n fun f' mem => bounded f' (List.mem_cons_of_mem _ mem)
    simp only [joinFields, List.length_append, List.length_cons, Field.length_render] at rest ⊢
    rw [Nat.succ_mul]
    omega

end SmartScheduler.Text
